import BrowserControl.LocatorRuntime.Query
import Mathlib.Data.List.Sort

/-!
# The order of what a locator matches

`queryLocator` lists exactly the elements that have a rank, by rank first and in document order
second (`answers`). The proof goes through the locator; each of the nested locators contributes only
which elements it matches, apart from the one in `or`, whose elements follow in their own order.
-/

namespace BrowserControl.LocatorRuntime

/-! ### Trees -/

/-- What holds of no elements, and of an element and its siblings if it holds of what is in the
element and of the siblings, holds of all lists of elements. -/
theorem Element.list_induct {P : List Element → Prop} (nil : P [])
    (cons : ∀ id data shadowRoot children rest, P shadowRoot → P children → P rest →
      P (.mk id data shadowRoot children :: rest)) : ∀ root, P root
  | [] => nil
  | .mk id data shadowRoot children :: rest =>
    cons id data shadowRoot children rest (list_induct nil cons shadowRoot)
      (list_induct nil cons children) (list_induct nil cons rest)

theorem sublist_cons_append {α : Type*} {x : α} {l₁ l₂ l₁' l₂' : List α} (h₁ : l₁.Sublist l₁')
    (h₂ : l₂.Sublist l₂') : (x :: (l₁ ++ l₂)).Sublist (x :: (l₁' ++ l₂')) :=
  (h₁.append h₂).cons_cons x

/-- Without shadow roots there are fewer elements, in the same order. -/
theorem collectElements_sublist (root : List Element) (includeShadow : Bool) :
    (collectElements root includeShadow).Sublist (collectElements root true) := by
  cases includeShadow with
  | true => exact List.Sublist.refl _
  | false =>
    induction root using Element.list_induct with
    | nil => exact List.Sublist.refl _
    | cons id data shadowRoot children rest _ ih_children ih_rest =>
      refine sublist_cons_append ?_ ih_rest
      exact ih_children.trans (List.sublist_append_right ..)

/-- The elements below an element come with it. -/
theorem collectElements_children_sublist {root : List Element} {e : Element}
    (h : e ∈ collectElements root true) :
    (collectElements e.children true).Sublist (collectElements root true) := by
  induction root using Element.list_induct with
  | nil => contradiction
  | cons id data shadowRoot children rest ih_shadowRoot ih_children ih_rest =>
    have h_shadowRoot : (collectElements shadowRoot true).Sublist
        (collectElements (.mk id data shadowRoot children :: rest) true) :=
      ((List.sublist_append_left ..).trans (List.sublist_append_left ..)).cons _
    have h_children : (collectElements children true).Sublist
        (collectElements (.mk id data shadowRoot children :: rest) true) :=
      ((List.sublist_append_right ..).trans (List.sublist_append_left ..)).cons _
    have h_rest : (collectElements rest true).Sublist
        (collectElements (.mk id data shadowRoot children :: rest) true) :=
      (List.sublist_append_right ..).cons _
    rw [collectElements_cons, List.mem_cons, List.mem_append, Element.inside, if_pos rfl,
      List.mem_append] at h
    -- the first element itself, or one below it, or one of the rest
    rcases h with rfl | (h | h) | h
    · exact h_children
    · exact (ih_shadowRoot h).trans h_shadowRoot
    · exact (ih_children h).trans h_children
    · exact (ih_rest h).trans h_rest

/-- The elements below an element are distinct, too. -/
theorem Distinct.children {root : List Element} (h : Distinct root) {e : Element}
    (he : e ∈ collectElements root true) : Distinct e.children :=
  ((collectElements_children_sublist he).map _).nodup h

section

variable {root : List Element} (h_root : Distinct root)
include h_root

/-- An element is known by its id. -/
theorem Distinct.eq_of_id {e e' : Element} (he : e ∈ collectElements root true)
    (he' : e' ∈ collectElements root true) (h : e.id = e'.id) : e = e' :=
  List.inj_on_of_nodup_map h_root he he' h

/-- An element is in a set of elements of the document if its identity is. -/
theorem Distinct.hasElement_iff {es : List Element} (h_es : ∀ e ∈ es, e ∈ collectElements root true)
    {e : Element} (he : e ∈ collectElements root true) : hasElement es e = true ↔ e ∈ es := by
  rw [hasElement, List.any_eq_true]
  constructor
  · rintro ⟨e', he', h_id⟩
    have h_eq := h_root.eq_of_id (h_es e' he') he (of_decide_eq_true h_id)
    exact h_eq ▸ he'
  · intro h_mem
    exact ⟨e, h_mem, decide_eq_true rfl⟩

/-- Elements further on in the document have greater positions. -/
theorem Distinct.pairwise_position :
    (collectElements root true).Pairwise (position root · < position root ·) := by
  rw [List.pairwise_iff_getElem]
  intro i j hi hj h_lt
  have h_position : ∀ k (hk : k < (collectElements root true).length),
      position root (collectElements root true)[k] = k := by
    intro k hk
    have h_map : k < ((collectElements root true).map (·.id)).length := by rwa [List.length_map]
    have h_id : (collectElements root true)[k].id = ((collectElements root true).map (·.id))[k] :=
      (List.getElem_map ..).symm
    rw [position, h_id]
    exact h_root.idxOf_getElem k _
  rw [h_position i hi, h_position j hj]
  exact h_lt

/-- No element is collected twice. -/
theorem Distinct.nodup_collectElements : (collectElements root true).Nodup := h_root.of_map _

end

/-! ### Sets -/

/-- A set keeps a list of different elements as it is. -/
theorem arrayFromSet_eq_self {es : List Element} (h : (es.map (·.id)).Nodup) :
    arrayFromSet es = es := by
  induction es with
  | nil => rfl
  | cons e es ih =>
    obtain ⟨h_e, h_es⟩ := List.nodup_cons.mp h
    rw [arrayFromSet, ih h_es]
    refine congrArg (e :: ·) (List.filter_eq_self.mpr fun e' he' => decide_eq_true ?_)
    intro h_id
    exact h_e (List.mem_map.mpr ⟨e', he', h_id⟩)

/-- Of two lists of different elements, the second one keeps those that are not in the first. -/
theorem arrayFromSet_append {es es' : List Element} (h : (es.map (·.id)).Nodup)
    (h' : (es'.map (·.id)).Nodup) :
    arrayFromSet (es ++ es') = es ++ es'.filter (! hasElement es ·) := by
  induction es with
  | nil =>
    rw [List.nil_append, arrayFromSet_eq_self h']
    exact (List.filter_eq_self.mpr fun _ _ => rfl).symm
  | cons e es ih =>
    obtain ⟨h_e, h_es⟩ := List.nodup_cons.mp h
    have h_keep : es.filter (·.id ≠ e.id) = es := by
      refine List.filter_eq_self.mpr fun e' he' => decide_eq_true fun h_id => ?_
      exact h_e (List.mem_map.mpr ⟨e', he', h_id⟩)
    rw [List.cons_append, arrayFromSet, ih h_es, List.filter_append, h_keep, List.filter_filter]
    refine congrArg (e :: es ++ ·) (List.filter_congr fun e' _ => ?_)
    simp [hasElement, eq_comm]

/-! ### Criteria -/

section

variable {browser : Browser}

/-- The own matches, as a filter of the elements. -/
theorem ownMatches_eq (base : Base) (root : List Element) (scope : Option (List Element))
    (has : Option (Element → List Element)) (and : Option (List Element)) :
    ownMatches browser base root scope has and =
      (collectElements root base.includeShadow).filter (meets browser base scope has and) := by
  unfold ownMatches
  cases scope <;> cases has <;> cases and
  all_goals
    simp only [List.filter_filter]
    refine List.filter_congr fun e _ => ?_
    simp only [meets, Option.all_some, Option.all_none, Bool.true_and, Bool.and_true]
    try ac_rfl

/-- The equation of `queryLocator`. -/
theorem queryLocator_mk (base : Base) (framePath : List Locator)
    (scope has and or : Option Locator) (root : List Element) :
    queryLocator browser (.mk base framePath scope has and or) root =
      let own := ownMatches browser base root (scope.map (queryLocator browser · root))
        (has.map fun l e => queryLocator browser l e.children)
        (and.map (queryLocator browser · root))
      let found := or.elim own fun or => arrayFromSet (own ++ queryLocator browser or root)
      base.selectedIndex.elim found fun i => (Order.select found i).toList := by
  obtain ⟨kind, value, role, name, exact, hasText, index, nth, first, last, shadow⟩ := base
  cases scope <;> cases has <;> cases and <;> cases or
  all_goals
    -- The selected index in the order of its definition: both sides compute once it is known.
    rcases nth with _ | n
    · rcases index with _ | i
      · cases first
        · cases last <;> rfl
        · rfl
      · rfl
    · rfl

/-- The rank of a locator, by its parts. -/
theorem rank_mk (base : Base) (framePath : List Locator) (scope has and or : Option Locator)
    (root : List Element) :
    rank browser (.mk base framePath scope has and or) root =
      selectRank root
        (orRank (fun e => hasElement (collectElements root base.includeShadow) e &&
            meets browser base (scope.map fun l => ranked root (rank browser l root))
              (has.map fun l e => ranked e.children (rank browser l e.children))
              (and.map fun l => ranked root (rank browser l root)) e)
          (or.map fun l => rank browser l root)) base.selectedIndex := by
  cases scope <;> cases has <;> cases and <;> cases or <;> rfl

end

/-! ### Ranks -/

/-- A list has the elements that have a rank, by rank first and in document order second. -/
structure Answers (root : List Element) (rank : Element → Option ℕ) (es : List Element) : Prop where
  mem : ∀ e, e ∈ es ↔ e ∈ ranked root rank
  sorted : es.Pairwise (rankKey root rank · < rankKey root rank ·)

/-- What has a rank. -/
theorem mem_ranked {root : List Element} {rank : Element → Option ℕ} {e : Element} :
    e ∈ ranked root rank ↔ e ∈ collectElements root true ∧ (rank e).isSome := List.mem_filter

section

variable {root : List Element} {rank : Element → Option ℕ} {es : List Element}

/-- No element is answered twice. -/
theorem Answers.nodup (h : Answers root rank es) : es.Nodup :=
  h.sorted.imp fun h_lt h_eq => (h_eq ▸ h_lt).false

/-- No id is answered twice. -/
theorem Answers.nodup_id (h : Answers root rank es) (h_root : Distinct root) :
    (es.map (·.id)).Nodup := by
  refine List.Nodup.map_on (fun e he e' he' h_id => ?_) h.nodup
  have h_e := (mem_ranked.mp ((h.mem e).mp he)).1
  have h_e' := (mem_ranked.mp ((h.mem e').mp he')).1
  exact h_root.eq_of_id h_e h_e' h_id

/-- It has the elements of `ranked` in another order. -/
theorem Answers.perm (h : Answers root rank es) (h_root : Distinct root) :
    es.Perm (ranked root rank) :=
  (List.perm_ext_iff_of_nodup h.nodup (h_root.nodup_collectElements.filter _)).mpr h.mem

/-- Of the elements with a rank, the selected one keeps it. -/
theorem isSome_selectRank {i : ℤ} {e : Element} :
    (selectRank root rank (some i) e).isSome = true ↔
      (rank e).isSome = true ∧ isSelected root rank i e = true := by
  rw [selectRank, Option.all_some]
  split
  case isTrue h => exact (and_iff_left h).symm
  case isFalse h => exact iff_of_false Bool.false_ne_true fun h' => h h'.2

/-- An index selects one element, with the rank that it has. -/
theorem Answers.select (h : Answers root rank es) (h_root : Distinct root) (i : ℤ) :
    Answers root (selectRank root rank (some i)) (Order.select es i).toList where
  mem e := by
    have h_count : es.countP (rankKey root rank · < rankKey root rank e) =
        (ranked root rank).countP (rankKey root rank · < rankKey root rank e) :=
      (h.perm h_root).countP_eq _
    have h_select := Order.select_eq_some_iff h.sorted (i := i) (x := e)
    rw [h_count, (h.perm h_root).length_eq, h.mem, mem_ranked] at h_select
    rw [Option.mem_toList, h_select, mem_ranked, isSome_selectRank, and_assoc, isSelected,
      decide_eq_true_eq]
  sorted := by
    cases Order.select es i with
    | none => exact .nil
    | some e => exact List.pairwise_singleton _ _

/-- The elements that meet the locator's own criteria have the least rank. -/
theorem answers_own (h_root : Distinct root) {own : Element → Bool}
    (or : Option (Element → Option ℕ))
    (h_es : es.Sublist (collectElements root true))
    (h_own : ∀ e ∈ collectElements root true, e ∈ es ↔ own e = true) :
    es.Pairwise (rankKey root (orRank own or) · < rankKey root (orRank own or) ·) := by
  refine (h_root.pairwise_position.sublist h_es).imp_of_mem fun {e e'} he he' h_lt => ?_
  have h_rank : ∀ e ∈ es, orRank own or e = some 0 := fun e he =>
    if_pos ((h_own e (h_es.subset he)).mp he)
  rw [rankKey, rankKey, h_rank e he, h_rank e' he', Prod.Lex.toLex_lt_toLex]
  exact .inr ⟨rfl, h_lt⟩

/-- The own matches have a rank. -/
theorem mem_of_ranked {own : Element → Bool} {e : Element} :
    e ∈ ranked root (orRank own none) ↔ e ∈ collectElements root true ∧ own e = true := by
  rw [mem_ranked, orRank]
  split
  case isTrue h => exact Iff.intro (fun h' => ⟨h'.1, h⟩) fun h' => ⟨h'.1, rfl⟩
  case isFalse h =>
    exact Iff.intro (fun h' => absurd h'.2 Bool.false_ne_true) fun h' => absurd h'.2 h

/-- What the next alternatives match comes behind, apart from what is there already. -/
theorem Answers.or (h : Answers root rank es) (h_root : Distinct root) {own : Element → Bool}
    {es' : List Element} (h_es' : es'.Sublist (collectElements root true))
    (h_own : ∀ e ∈ collectElements root true, e ∈ es' ↔ own e = true) :
    Answers root (orRank own (some rank)) (arrayFromSet (es' ++ es)) := by
  have h_nodup : (es'.map (·.id)).Nodup := (h_es'.map _).nodup h_root
  have h_has : ∀ e ∈ collectElements root true, hasElement es' e = own e := by
    intro e he
    rw [Bool.eq_iff_iff, h_root.hasElement_iff (fun e he => h_es'.subset he) he, h_own e he]
  -- the later alternatives add what the locator itself does not match
  have h_later : ∀ e ∈ es.filter (! hasElement es' ·),
      ∃ r, rank e = some r ∧ orRank own (some rank) e = some (r + 1) := by
    intro e he
    obtain ⟨h_mem, h_not⟩ := List.mem_filter.mp he
    obtain ⟨h_e, h_some⟩ := mem_ranked.mp ((h.mem e).mp h_mem)
    obtain ⟨r, hr⟩ := Option.isSome_iff_exists.mp h_some
    rw [h_has e h_e, Bool.not_eq_true'] at h_not
    refine ⟨r, hr, ?_⟩
    rw [orRank, if_neg (Bool.eq_false_iff.mp h_not), Option.bind_some, hr, Option.map_some]
  rw [arrayFromSet_append h_nodup (h.nodup_id h_root)]
  constructor
  · intro e
    rw [List.mem_append, List.mem_filter, h.mem, mem_ranked, mem_ranked]
    by_cases h_e : e ∈ collectElements root true
    · rw [h_own e h_e, h_has e h_e, orRank]
      cases own e with
      | true => simp [h_e]
      | false => simp [h_e]
    · have h_not : e ∉ es' := fun h => h_e (h_es'.subset h)
      simp [h_e, h_not]
  -- in order: the own matches, the later ones, and the first before the second
  · rw [List.pairwise_append]
    refine ⟨answers_own h_root _ h_es' h_own, ?_, ?_⟩
    · -- The ranks of the later alternatives are all shifted by one.
      refine (h.sorted.filter _).imp_of_mem fun {e e'} he he' h_lt => ?_
      obtain ⟨r, hr, hr_or⟩ := h_later e he
      obtain ⟨r', hr', hr'_or⟩ := h_later e' he'
      rw [rankKey, rankKey, hr, hr', Prod.Lex.toLex_lt_toLex] at h_lt
      rw [rankKey, rankKey, hr_or, hr'_or, Prod.Lex.toLex_lt_toLex]
      simpa using h_lt
    · intro e he e' he'
      have h_zero : orRank own (some rank) e = some 0 :=
        if_pos ((h_own e (h_es'.subset he)).mp he)
      obtain ⟨r, -, hr⟩ := h_later e' he'
      rw [rankKey, rankKey, h_zero, hr, Prod.Lex.toLex_lt_toLex]
      exact .inl (Nat.succ_pos r)

end

/-! ### What a locator matches -/

section

variable {browser : Browser}

/-- Criteria read only which elements the nested locators match. -/
theorem meets_congr {base : Base} {scope scope' and and' : Option (List Element)}
    {has has' : Option (Element → List Element)} {e : Element}
    (h_scope : Option.Rel (fun es es' => ∀ e, e ∈ es ↔ e ∈ es') scope scope')
    (h_has : Option.Rel (fun m m' => ∀ e', e' ∈ m e ↔ e' ∈ m' e) has has')
    (h_and : Option.Rel (fun es es' => ∀ e, e ∈ es ↔ e ∈ es') and and') :
    meets browser base scope has and e = meets browser base scope' has' and' e := by
  -- Of the nested lists only the members and the emptiness are asked for.
  have h_any : ∀ {es es' : List Element}, (∀ e, e ∈ es ↔ e ∈ es') → ∀ p : Element → Bool,
      es.any p = es'.any p := by
    intro es es' h p
    rw [Bool.eq_iff_iff, List.any_eq_true, List.any_eq_true]
    exact exists_congr fun e => and_congr_left' (h e)
  have h_empty : ∀ {es es' : List Element}, (∀ e, e ∈ es ↔ e ∈ es') → es.isEmpty = es'.isEmpty := by
    intro es es' h
    rw [Bool.eq_iff_iff, List.isEmpty_iff, List.isEmpty_iff, List.eq_nil_iff_forall_not_mem,
      List.eq_nil_iff_forall_not_mem]
    exact forall_congr' fun e => not_congr (h e)
  have h_scoped : scope.all (isScoped · base.includeShadow e) =
      scope'.all (isScoped · base.includeShadow e) := by
    cases h_scope with
    | some h => exact h_any h _
    | none => rfl
  have h_below : has.all (fun below => !(below e).isEmpty) =
      has'.all (fun below => !(below e).isEmpty) := by
    cases h_has with
    | some h => exact congrArg (!·) (h_empty h)
    | none => rfl
  have h_both : and.all (hasElement · e) = and'.all (hasElement · e) := by
    cases h_and with
    | some h => exact h_any h _
    | none => rfl
  rw [meets, meets, h_scoped, h_below, h_both]

/-- Two functions of the same option. -/
theorem rel_map {α β γ : Type*} {R : β → γ → Prop} {f : α → β} {g : α → γ} {o : Option α}
    (h : ∀ a, o = some a → R (f a) (g a)) : Option.Rel R (o.map f) (o.map g) := by
  cases o with
  | none => exact .none
  | some a => exact .some (h a rfl)

/-- **What a locator matches**: the elements that have a rank, by rank first and in document order
second. -/
theorem answers (l : Locator) {root : List Element} (h_root : Distinct root) :
    Answers root (rank browser l root) (queryLocator browser l root) := by
  induction l using Locator.induct generalizing root with
  | mk base framePath scope has and or ih_scope ih_has ih_and ih_or =>
    rw [queryLocator_mk, rank_mk]
    set own := fun e => hasElement (collectElements root base.includeShadow) e &&
      meets browser base (scope.map fun l => ranked root (rank browser l root))
        (has.map fun l e => ranked e.children (rank browser l e.children))
        (and.map fun l => ranked root (rank browser l root)) e with own_def
    set es := ownMatches browser base root (scope.map (queryLocator browser · root))
      (has.map fun l e => queryLocator browser l e.children)
      (and.map (queryLocator browser · root)) with es_def
    have h_sublist := collectElements_sublist root base.includeShadow
    have h_es : es.Sublist (collectElements root true) := by
      rw [es_def, ownMatches_eq]
      exact List.filter_sublist.trans h_sublist
    -- the own matches are the elements that meet the locator
    have h_own : ∀ e ∈ collectElements root true, e ∈ es ↔ own e = true := by
      intro e he
      have h_meets := @meets_congr browser base _ _ _ _ _ _ e
        (rel_map (o := scope) fun l hl => (ih_scope l hl h_root).mem)
        (rel_map (o := has) (f := fun l e => queryLocator browser l e.children)
          (g := fun l e => ranked e.children (rank browser l e.children))
          fun l hl => (ih_has l hl (h_root.children he)).mem)
        (rel_map (o := and) fun l hl => (ih_and l hl h_root).mem)
      rw [es_def, ownMatches_eq, List.mem_filter, h_meets, own_def, Bool.and_eq_true,
        h_root.hasElement_iff h_sublist.subset he]
    -- with the alternatives, before an index is taken
    have h_unselected : Answers root (orRank own (or.map fun l => rank browser l root))
        (or.elim es fun or => arrayFromSet (es ++ queryLocator browser or root)) := by
      cases or with
      | some or => exact (ih_or or rfl h_root).or h_root h_es h_own
      | none =>
        refine ⟨fun e => ?_, answers_own h_root none h_es h_own⟩
        rw [Option.map_none, mem_of_ranked]
        exact ⟨fun he => ⟨h_es.subset he, (h_own e (h_es.subset he)).mp he⟩,
          fun he => (h_own e he.1).mpr he.2⟩
    cases base.selectedIndex with
    | some i => exact h_unselected.select h_root i
    | none => exact h_unselected

end

/-! ### Document order -/

/-- In document order the ranks never go down. -/
def Ascending (root : List Element) (rank : Element → Option ℕ) : Prop :=
  (collectElements root true).Pairwise fun e e' => ∀ r ∈ rank e, ∀ r' ∈ rank e', r ≤ r'
deriving Decidable

section

variable {root : List Element} {rank : Element → Option ℕ} {es : List Element}

/-- What has a rank, in the order of the document. -/
theorem ranked_sublist : (ranked root rank).Sublist (collectElements root true) :=
  List.filter_sublist

/-- Lists that are sorted by the same key and have the same elements are the same. -/
theorem eq_of_pairwise_key {α β : Type*} [Preorder β] {key : α → β} {xs xs' : List α}
    (h : xs.Pairwise (key · < key ·)) (h' : xs'.Pairwise (key · < key ·))
    (h_mem : ∀ x, x ∈ xs ↔ x ∈ xs') : xs = xs' := by
  have : Std.Irrefl (fun x x' => key x < key x') := ⟨fun x => lt_irrefl (key x)⟩
  have : Std.Antisymm (fun x x' => key x < key x') := ⟨fun _ _ h_lt h_gt => (h_lt.asymm h_gt).elim⟩
  exact h.eq_of_mem_iff h' h_mem

/-- Elements that are listed in document order are listed as `ranked` lists them. -/
theorem Answers.eq_ranked (h : Answers root rank es) (h_root : Distinct root)
    (h_es : es.Sublist (collectElements root true)) : es = ranked root rank :=
  eq_of_pairwise_key (h_root.pairwise_position.sublist h_es)
    (h_root.pairwise_position.sublist ranked_sublist) h.mem

/-- The answer is in the order of the document just where the ranks ascend. -/
theorem Answers.eq_ranked_iff (h : Answers root rank es) (h_root : Distinct root) :
    es = ranked root rank ↔ Ascending root rank := by
  constructor
  -- the list is sorted by rank, so document order is that of the ranks
  · intro h_es
    have h_sorted := h.sorted
    rw [h_es, ranked, List.pairwise_filter] at h_sorted
    refine h_sorted.imp fun {e e'} h_lt r hr r' hr' => ?_
    have h_lt := h_lt (Option.isSome_of_mem hr) (Option.isSome_of_mem hr')
    rw [rankKey, rankKey, hr, hr', Prod.Lex.toLex_lt_toLex] at h_lt
    exact h_lt.elim le_of_lt fun h_eq => h_eq.1.le
  -- equal ranks stand in document order in both lists
  · intro h_ascending
    refine eq_of_pairwise_key h.sorted ?_ h.mem
    rw [ranked, List.pairwise_filter]
    refine (h_ascending.and h_root.pairwise_position).imp fun {e e'} h_le he he' => ?_
    obtain ⟨r, hr⟩ := Option.isSome_iff_exists.mp he
    obtain ⟨r', hr'⟩ := Option.isSome_iff_exists.mp he'
    rw [rankKey, rankKey, hr, hr', Prod.Lex.toLex_lt_toLex]
    rcases (h_le.1 r hr r' hr').lt_or_eq with h_lt | h_eq
    · exact .inl h_lt
    · exact .inr ⟨h_eq, h_le.2⟩

end

section

variable (browser : Browser) (l : Locator) (root : List Element)

/-- The elements that a locator matches, in document order. -/
def inDocumentOrder : List Element :=
  (collectElements root true).filter (hasElement (queryLocator browser l root))

/-- **A locator answers in document order**: it lists every element that it matches once and in
document order, and so the locators that differ from it by an index alone select by document
order. -/
structure DocumentOrdered : Prop where
  distinct : ((queryLocator browser l root).map (·.id)).Nodup
  ordered : (queryLocator browser l root).Sublist (collectElements root true)
  selected : ∀ other : Base, queryLocator browser (l.selectAs other) root =
    other.selectedIndex.elim (inDocumentOrder browser l root) fun i =>
      (Order.select (inDocumentOrder browser l root) i).toList

end

variable {browser : Browser} {l : Locator}

/-- The index is applied last. -/
theorem queryLocator_selectAs (h_l : l.base.selectedIndex = none) (other : Base)
    (root : List Element) : queryLocator browser (l.selectAs other) root =
      other.selectedIndex.elim (queryLocator browser l root) fun i =>
        (Order.select (queryLocator browser l root) i).toList := by
  obtain ⟨base, framePath, scope, has, and, or⟩ := l
  have h_index : base.selectedIndex = none := h_l
  rw [Locator.selectAs, queryLocator_mk, queryLocator_mk, h_index]
  rfl

/-- The order of the document, by ranks. -/
theorem inDocumentOrder_eq {root : List Element} (h_root : Distinct root) :
    inDocumentOrder browser l root = ranked root (rank browser l root) := by
  have h_answers := @answers browser l _ h_root
  refine List.filter_congr fun e he => ?_
  have h_mem := h_answers.mem e
  rw [mem_ranked] at h_mem
  rw [Bool.eq_iff_iff, h_root.hasElement_iff
    (fun e he => (mem_ranked.mp ((h_answers.mem e).mp he)).1) he, h_mem]
  exact and_iff_right he

/-- **When a locator answers in document order**: if and only if no later one of its alternatives
has an element in front of one that an earlier alternative has. -/
theorem documentOrdered_iff {root : List Element} (h_root : Distinct root)
    (h_l : l.base.selectedIndex = none) :
    DocumentOrdered browser l root ↔ Ascending root (rank browser l root) := by
  have h_answers := @answers browser l _ h_root
  rw [← h_answers.eq_ranked_iff h_root]
  constructor
  · intro h
    exact h_answers.eq_ranked h_root h.ordered
  · intro h_eq
    refine ⟨h_answers.nodup_id h_root, h_eq ▸ ranked_sublist, fun other => ?_⟩
    rw [queryLocator_selectAs h_l, inDocumentOrder_eq h_root, h_eq]

/-! ### Two elements -/

/-- An element of a page that selectors of its own name match. -/
def named (id : ℕ) (name : String) : Element :=
  .mk id { cssMatches := fun s => some (s = name) } [] []

/-- One selector or the other. -/
def either (value value' : String) : Locator :=
  .mk { kind := .css, value := some value } [] none none none
    (some (.mk { kind := .css, value := some value' } [] none none none none))

/-- A page and a locator with its alternatives in the same order. -/
theorem documentOrdered_iff_either :
    DocumentOrdered plain (either "a" "b") [named 0 "a", named 1 "b"] :=
  (documentOrdered_iff (by decide) (by decide)).mpr (by decide)

/-- In the other order, the second element is listed first. -/
theorem not_documentOrdered_alternatives :
    ¬ ∀ (browser : Browser) (l : Locator) (root : List Element), Distinct root →
      l.base.selectedIndex = none → DocumentOrdered browser l root := by
  intro h
  have h_ordered := h plain (either "b" "a") [named 0 "a", named 1 "b"] (by decide) (by decide)
  have h_ids := h_ordered.ordered.map (·.id)
  exact absurd h_ids (by decide)

end BrowserControl.LocatorRuntime
