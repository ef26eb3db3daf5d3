import Mathlib.Data.List.Nodup
import Mathlib.Data.List.Flatten
import Mathlib.Data.List.Induction
import Mathlib.Data.String.Basic

/-!
# Changing a document element by element

A script that changes a document collects the elements it is about to change, and then goes through
them. To an element it does one of a few things: it gives it other data, sets its text content, puts
a text behind its children, or puts a text in its place. What it does to one element can take others
of its list out of the document; it comes to these later, and nobody sees what it does to them.

`loop_eq_rewrite`: when the elements are listed in document order, the loop is one walk over the
tree, in which nothing below an element is visited once its content is gone. `textOf_passes` is
about several loops one after the other, each over a list of its own: together they too are one
walk, for as long as only the text of the result is asked for.
-/

namespace Markup

/-- A node of a document. An element is told from others by its identity. -/
inductive Node (ι α : Type) where
  | text (content : String)
  | comment (content : String)
  | element (id : ι) (data : α) (children : List (Node ι α))

variable {ι α β : Type}

/-- The nodes below a node. -/
def Node.children : Node ι α → List (Node ι α)
  | .text _ => []
  | .comment _ => []
  | .element _ _ children => children

mutual

/-- `textContent` -/
def Node.textContent : Node ι α → String
  | .text content => content
  | .comment _ => ""
  | .element _ _ children => textOf children
termination_by structural n => n

/-- The text of a list of nodes. -/
def textOf : List (Node ι α) → String
  | [] => ""
  | n :: ns => n.textContent ++ textOf ns
termination_by structural ns => ns

end

mutual

/-- The identities of the elements whose data are selected, in document order. -/
def Node.select (p : α → Bool) : Node ι α → List ι
  | .text _ => []
  | .comment _ => []
  | .element id data children => (if p data then [id] else []) ++ selectOf p children
termination_by structural n => n

/-- The same for a list. -/
def selectOf (p : α → Bool) : List (Node ι α) → List ι
  | [] => []
  | n :: ns => n.select p ++ selectOf p ns
termination_by structural ns => ns

end

/-- The identities of all elements. -/
def Node.ids (n : Node ι α) : List ι := n.select fun _ => true

/-- The same for a list. -/
def idsOf (ns : List (Node ι α)) : List ι := selectOf (fun _ => true) ns

mutual

/-- The node without the identities of its elements, and with what is left of their data. -/
def Node.map (f : α → β) : Node ι α → Node Unit β
  | .text content => .text content
  | .comment content => .comment content
  | .element _ data children => .element () (f data) (mapAll f children)
termination_by structural n => n

/-- The same for a list. -/
def mapAll (f : α → β) : List (Node ι α) → List (Node Unit β)
  | [] => []
  | n :: ns => n.map f :: mapAll f ns
termination_by structural ns => ns

end

/-! ### What is done to an element -/

/-- Changes by which an element and its children get another text. -/
inductive Change where
  /-- `append(text)` -/
  | append (text : String)
  /-- `replaceWith(text)`, with a text made of the text content -/
  | replace (text : String → String)
  /-- `remove()` -/
  | remove

/-- What the body of a loop can do to an element. -/
inductive Action (α : Type) where
  /-- Other data; the children stay. -/
  | edit (data : α)
  /-- Other data, and `textContent = text` -/
  | setText (data : α) (text : String)
  | change (c : Change)

/-- Setting the text content to the empty text leaves no child. -/
def textNodes (text : String) : List (Node ι α) := if text = "" then [] else [.text text]

/-- What stands in the place of an element afterwards. -/
def Action.apply (id : ι) (data : α) (children : List (Node ι α)) : Action α → List (Node ι α)
  | .edit data' => [.element id data' children]
  | .setText data' text => [.element id data' (textNodes text)]
  | .change (.append text) => [.element id data (children ++ [.text text])]
  | .change (.replace text) => [.text (text (textOf children))]
  | .change .remove => []

section

variable [DecidableEq ι] (act : α → Action α)

mutual

/-- Does to the element with this identity what is to be done to it. There is nothing to do if it is
not in the document any more. -/
def Node.visit (target : ι) : Node ι α → List (Node ι α)
  | .text content => [.text content]
  | .comment content => [.comment content]
  | .element id data children =>
    if id = target then (act data).apply id data children
    else [.element id data (visitAll target children)]
termination_by structural n => n

/-- The same for a list. -/
def visitAll (target : ι) : List (Node ι α) → List (Node ι α)
  | [] => []
  | n :: ns => n.visit target ++ visitAll target ns
termination_by structural ns => ns

end

/-- A loop over elements that have been listed before. -/
def loop (targets : List ι) (ns : List (Node ι α)) : List (Node ι α) :=
  targets.foldl (fun ns target => visitAll act target ns) ns

end

section

variable (p : α → Bool) (act : α → Action α)

mutual

/-- The walk: the selected elements are changed, and those below an element only as long as its
children stay. -/
def Node.rewrite : Node ι α → List (Node ι α)
  | .text content => [.text content]
  | .comment content => [.comment content]
  | .element id data children =>
    if p data then
      match act data with
      | .edit data' => [.element id data' (rewriteAll children)]
      | .setText data' text => [.element id data' (textNodes text)]
      | .change (.append text) => [.element id data (rewriteAll children ++ [.text text])]
      | .change (.replace text) => [.text (text (textOf children))]
      | .change .remove => []
    else [.element id data (rewriteAll children)]
termination_by structural n => n

/-- The same for a list. -/
def rewriteAll : List (Node ι α) → List (Node ι α)
  | [] => []
  | n :: ns => n.rewrite ++ rewriteAll ns
termination_by structural ns => ns

end

end

/-! ### Forests -/

theorem textOf_append (ns ms : List (Node ι α)) : textOf (ns ++ ms) = textOf ns ++ textOf ms := by
  induction ns with
  | nil => rw [List.nil_append, textOf, String.empty_append]
  | cons n ns ih => rw [List.cons_append, textOf, textOf, ih, String.append_assoc]

theorem selectOf_append (p : α → Bool) (ns ms : List (Node ι α)) :
    selectOf p (ns ++ ms) = selectOf p ns ++ selectOf p ms := by
  induction ns with
  | nil => rfl
  | cons n ns ih => rw [List.cons_append, selectOf, selectOf, ih, List.append_assoc]

/-- The list is mapped node by node. -/
theorem mapAll_eq (f : α → β) (ns : List (Node ι α)) : mapAll f ns = ns.map (Node.map f) := by
  induction ns with
  | nil => rfl
  | cons n ns ih => rw [mapAll, ih, List.map_cons]

mutual

/-- Other data do not change the text. -/
theorem Node.textContent_map (f : α → β) : ∀ n : Node ι α, (n.map f).textContent = n.textContent
  | .text _ => rfl
  | .comment _ => rfl
  | .element _ _ children => textOf_mapAll f children

theorem textOf_mapAll (f : α → β) : ∀ ns : List (Node ι α), textOf (mapAll f ns) = textOf ns
  | [] => rfl
  | n :: ns => by rw [mapAll, textOf, textOf, n.textContent_map f, textOf_mapAll f ns]

end

theorem rewriteAll_append (p : α → Bool) (act : α → Action α) (ns ms : List (Node ι α)) :
    rewriteAll p act (ns ++ ms) = rewriteAll p act ns ++ rewriteAll p act ms := by
  induction ns with
  | nil => rfl
  | cons n ns ih => rw [List.cons_append, rewriteAll, rewriteAll, ih, List.append_assoc]

mutual

/-- Selected elements are elements. -/
theorem Node.select_sublist (p : α → Bool) : ∀ n : Node ι α, (n.select p).Sublist n.ids
  | .text _ => List.Sublist.slnil
  | .comment _ => List.Sublist.slnil
  | .element id data children => by
    rw [Node.ids, Node.select, Node.select, if_pos rfl]
    have h_children := selectOf_sublist p children
    split_ifs
    · exact h_children.cons_cons id
    · exact h_children.cons id

theorem selectOf_sublist (p : α → Bool) :
    ∀ ns : List (Node ι α), (selectOf p ns).Sublist (idsOf ns)
  | [] => List.Sublist.slnil
  | n :: ns => (n.select_sublist p).append (selectOf_sublist p ns)

end

/-- An element comes before what is in it. -/
theorem idsOf_element (id : ι) (data : α) (children : List (Node ι α)) :
    (Node.element id data children).ids = id :: idsOf children := rfl

theorem idsOf_cons (n : Node ι α) (ns : List (Node ι α)) : idsOf (n :: ns) = n.ids ++ idsOf ns :=
  rfl

theorem idsOf_append (ns ms : List (Node ι α)) : idsOf (ns ++ ms) = idsOf ns ++ idsOf ms :=
  selectOf_append _ ns ms

/-- A text has no element. -/
theorem idsOf_textNodes (text : String) : idsOf (textNodes text : List (Node ι α)) = [] := by
  unfold textNodes
  split_ifs <;> rfl

mutual

/-- The walk makes no new elements. -/
theorem Node.ids_rewrite (p : α → Bool) (act : α → Action α) :
    ∀ n : Node ι α, (idsOf (n.rewrite p act)).Sublist n.ids
  | .text _ => List.Sublist.slnil
  | .comment _ => List.Sublist.slnil
  | .element id data children => by
    have h_children := ids_rewriteAll p act children
    rw [Node.rewrite, idsOf_element]
    -- a matched element may go with all that is in it; another stays
    split_ifs with h_p
    · cases act data with
      | edit data' =>
        dsimp only
        rw [idsOf_cons, idsOf_element]
        exact (List.append_nil _).symm ▸ h_children.cons_cons id
      | setText data' text =>
        dsimp only
        rw [idsOf_cons, idsOf_element, idsOf_textNodes]
        exact (List.nil_sublist _).cons_cons id
      | change c =>
        cases c with
        | append text =>
          dsimp only
          rw [idsOf_cons, idsOf_element, idsOf_append]
          show List.Sublist (id :: (idsOf (rewriteAll p act children) ++ []) ++ []) _
          rw [List.append_nil, List.append_nil]
          exact h_children.cons_cons id
        | replace text => exact List.nil_sublist _
        | remove => exact List.nil_sublist _
    · rw [idsOf_cons, idsOf_element]
      exact (List.append_nil _).symm ▸ h_children.cons_cons id

theorem ids_rewriteAll (p : α → Bool) (act : α → Action α) :
    ∀ ns : List (Node ι α), (idsOf (rewriteAll p act ns)).Sublist (idsOf ns)
  | [] => List.Sublist.slnil
  | n :: ns => by
    rw [rewriteAll, idsOf_append, idsOf_cons]
    exact (n.ids_rewrite p act).append (ids_rewriteAll p act ns)

end

/-! ### A loop is a walk -/

section

variable [DecidableEq ι] {act : α → Action α}

theorem visitAll_append (target : ι) (ns ms : List (Node ι α)) :
    visitAll act target (ns ++ ms) = visitAll act target ns ++ visitAll act target ms := by
  induction ns with
  | nil => rfl
  | cons n ns ih => rw [List.cons_append, visitAll, visitAll, ih, List.append_assoc]

mutual

/-- An element that is not there is not changed. -/
theorem Node.visit_of_notMem {target : ι} :
    ∀ {n : Node ι α}, target ∉ n.ids → n.visit act target = [n]
  | .text _, _ => rfl
  | .comment _, _ => rfl
  | .element id data children, h => by
    rw [idsOf_element, List.mem_cons, not_or] at h
    rw [Node.visit, if_neg (Ne.symm h.1), visitAll_of_notMem h.2]

/-- A visit of an element that is not there. -/
theorem visitAll_of_notMem {target : ι} :
    ∀ {ns : List (Node ι α)}, target ∉ idsOf ns → visitAll act target ns = ns
  | [], _ => rfl
  | n :: ns, h => by
    rw [idsOf_cons, List.mem_append, not_or] at h
    rw [visitAll, Node.visit_of_notMem h.1, visitAll_of_notMem h.2, List.singleton_append]

end

theorem loop_append (l k : List ι) (ns : List (Node ι α)) :
    loop act (l ++ k) ns = loop act k (loop act l ns) := List.foldl_append

/-- A loop over two lists of nodes. -/
theorem loop_forest (l : List ι) (ns ms : List (Node ι α)) :
    loop act l (ns ++ ms) = loop act l ns ++ loop act l ms := by
  induction l generalizing ns ms with
  | nil => rfl
  | cons target l ih =>
    show loop act l (visitAll act target (ns ++ ms)) = _
    rw [visitAll_append, ih]
    rfl

/-- A loop over elements that are not there. -/
theorem loop_of_disjoint {l : List ι} {ns : List (Node ι α)} (h : l.Disjoint (idsOf ns)) :
    loop act l ns = ns := by
  induction l with
  | nil => rfl
  | cons target l ih =>
    rw [List.disjoint_cons_left] at h
    show loop act l (visitAll act target ns) = ns
    rw [visitAll_of_notMem h.1, ih h.2]

/-- What is done below an element leaves the element. -/
theorem loop_element {l : List ι} {id : ι} (h : id ∉ l) (data : α) (children : List (Node ι α)) :
    loop act l [.element id data children] = [.element id data (loop act l children)] := by
  induction l generalizing children with
  | nil => rfl
  | cons target l ih =>
    rw [List.mem_cons, not_or] at h
    show loop act l (visitAll act target [.element id data children]) = _
    rw [visitAll, visitAll, Node.visit, if_neg h.1, List.append_nil, ih h.2]
    rfl

/-- A loop on a text. -/
theorem loop_text (l : List ι) (content : String) :
    loop act l [(.text content : Node ι α)] = [.text content] :=
  loop_of_disjoint (List.disjoint_nil_right l)

variable {p : α → Bool}

mutual

/-- The loop over the selected elements of a node is the recursion. -/
theorem Node.loop_eq_rewrite :
    ∀ {n : Node ι α}, n.ids.Nodup → loop act (n.select p) [n] = n.rewrite p act
  | .text _, _ => rfl
  | .comment _, _ => rfl
  | .element id data children, h => by
    rw [idsOf_element, List.nodup_cons] at h
    -- the list is static, and the element is not below itself
    have h_id : id ∉ selectOf p children := fun h_mem =>
      h.1 ((selectOf_sublist p children).subset h_mem)
    have h_children := loop_eq_rewrite h.2
    rw [Node.select, Node.rewrite, loop_append]
    by_cases h_p : p data = true
    · rw [if_pos h_p, if_pos h_p]
      have h_visit : loop act [id] [.element id data children] =
          (act data).apply id data children := by
        show visitAll act id [.element id data children] = _
        rw [visitAll, visitAll, Node.visit, if_pos rfl, List.append_nil]
      rw [h_visit]
      -- either the children stay, and come next, or there is nothing left to visit
      cases act data with
      | edit data' =>
        dsimp only [Action.apply]
        rw [loop_element h_id, h_children]
      | setText data' text =>
        dsimp only [Action.apply]
        rw [loop_element h_id, loop_of_disjoint]
        rw [idsOf_textNodes]
        exact List.disjoint_nil_right _
      | change c =>
        cases c with
        | append text =>
          dsimp only [Action.apply]
          rw [loop_element h_id, loop_forest, h_children, loop_text]
        | replace text => exact loop_text _ _
        | remove => exact loop_of_disjoint (List.disjoint_nil_right _)
    · rw [if_neg h_p, if_neg h_p]
      show loop act (selectOf p children) [.element id data children] = _
      rw [loop_element h_id, h_children]

/-- **A loop is a walk.** -/
theorem loop_eq_rewrite :
    ∀ {ns : List (Node ι α)}, (idsOf ns).Nodup →
      loop act (selectOf p ns) ns = rewriteAll p act ns
  | [], _ => rfl
  | n :: ns, h => by
    rw [idsOf_cons, List.nodup_append'] at h
    obtain ⟨h_n, h_ns, h_disjoint⟩ := h
    rw [selectOf, rewriteAll, loop_append]
    -- The nodes of the first tree are not met in the others.
    have h_first : loop act (n.select p) (n :: ns) = n.rewrite p act ++ ns := by
      rw [← List.singleton_append, loop_forest, Node.loop_eq_rewrite h_n]
      congr 1
      exact loop_of_disjoint (List.disjoint_of_subset_left (n.select_sublist p).subset h_disjoint)
    rw [h_first, loop_forest, loop_eq_rewrite h_ns]
    congr 1
    have h_rest := List.disjoint_of_subset_right (selectOf_sublist p ns).subset h_disjoint
    have h_rest := List.disjoint_of_subset_left (n.ids_rewrite p act).subset h_rest
    exact loop_of_disjoint (List.disjoint_symm h_rest)

end

end

/-! ### Several loops -/

/-- A loop over the selected elements in which each of them gets another text. -/
structure Pass (α : Type) where
  selects : α → Bool
  change : α → Change

/-- What a pass does to an element. -/
def Pass.act (pass : Pass α) (data : α) : Action α := .change (pass.change data)

/-- The loops one after the other, each over the elements that are there when it begins. -/
def runPasses [DecidableEq ι] (ps : List (Pass α)) (ns : List (Node ι α)) : List (Node ι α) :=
  ps.foldl (fun ns pass => loop pass.act (selectOf pass.selects ns) ns) ns

/-- The walks one after the other. -/
def walk (ps : List (Pass α)) (ns : List (Node ι α)) : List (Node ι α) :=
  ps.foldl (fun ns pass => rewriteAll pass.selects pass.act ns) ns

/-- What some passes make of an element: `suffix` is put behind its children, and if there is a
`cut`, the element gives way to a text made of its content. The children have gone through the
passes `before` then. -/
structure Fate (α : Type) where
  before : List (Pass α)
  suffix : String
  cut : Option (String → String)

/-- One more pass. -/
def Fate.next (data : α) (fate : Fate α) (pass : Pass α) : Fate α :=
  match fate.cut with
  | some _ => fate
  | none =>
    if pass.selects data then
      match pass.change data with
      | .append text => ⟨fate.before ++ [pass], fate.suffix ++ text, none⟩
      | .replace text => ⟨fate.before, fate.suffix, some text⟩
      | .remove => ⟨fate.before, fate.suffix, some fun _ => ""⟩
    else ⟨fate.before ++ [pass], fate.suffix, none⟩

/-- What the passes make of an element. -/
def fate (ps : List (Pass α)) (data : α) : Fate α := ps.foldl (Fate.next data) ⟨[], "", none⟩

mutual

/-- The text of a node after some passes. -/
def Node.render (ps : List (Pass α)) : Node ι α → String
  | .text content => content
  | .comment _ => ""
  | .element _ data children =>
    match (fate ps data).cut with
    | some text => text (renderAll (fate ps data).before children ++ (fate ps data).suffix)
    | none => renderAll ps children ++ (fate ps data).suffix
termination_by structural n => n

/-- The text of a list after the passes. -/
def renderAll (ps : List (Pass α)) : List (Node ι α) → String
  | [] => ""
  | n :: ns => n.render ps ++ renderAll ps ns
termination_by structural ns => ns

end

/-- The passes as loops, and as recursions. -/
theorem runPasses_eq_walk [DecidableEq ι] (ps : List (Pass α)) {ns : List (Node ι α)}
    (h : (idsOf ns).Nodup) : runPasses ps ns = walk ps ns := by
  induction ps generalizing ns with
  | nil => rfl
  | cons pass ps ih =>
    show runPasses ps (loop pass.act (selectOf pass.selects ns) ns) = _
    rw [loop_eq_rewrite h]
    exact ih ((ids_rewriteAll pass.selects pass.act ns).nodup h)

theorem walk_snoc (ps : List (Pass α)) (pass : Pass α) (ns : List (Node ι α)) :
    walk (ps ++ [pass]) ns = rewriteAll pass.selects pass.act (walk ps ns) := List.foldl_concat ..

theorem fate_snoc (ps : List (Pass α)) (pass : Pass α) (data : α) :
    fate (ps ++ [pass]) data = (fate ps data).next data pass := List.foldl_concat ..

theorem walk_append (ps : List (Pass α)) (ns ms : List (Node ι α)) :
    walk ps (ns ++ ms) = walk ps ns ++ walk ps ms := by
  induction ps generalizing ns ms with
  | nil => rfl
  | cons pass ps ih =>
    show walk ps (rewriteAll pass.selects pass.act (ns ++ ms)) = _
    rw [rewriteAll_append, ih]
    rfl

/-- Texts, and nothing else. -/
def Textual (ns : List (Node ι α)) : Prop := ∀ n ∈ ns, ∃ content, n = .text content

theorem textual_singleton (content : String) : Textual [(.text content : Node ι α)] := by
  intro n h
  exact ⟨content, List.eq_of_mem_singleton h⟩

theorem Textual.append {ns ms : List (Node ι α)} (h : Textual ns) (h' : Textual ms) :
    Textual (ns ++ ms) := by
  intro n h_n
  rcases List.mem_append.mp h_n with h_n | h_n
  · exact h n h_n
  · exact h' n h_n

/-- No pass changes a text. -/
theorem Textual.rewriteAll {ns : List (Node ι α)} (h : Textual ns) (p : α → Bool)
    (act : α → Action α) : Markup.rewriteAll p act ns = ns := by
  induction ns with
  | nil => rfl
  | cons n ns ih =>
    obtain ⟨⟨content, rfl⟩, h_ns⟩ := List.forall_mem_cons.mp h
    rw [Markup.rewriteAll, ih h_ns]
    rfl

/-- The element as it is after some passes. -/
inductive Stands (ps : List (Pass α)) (id : ι) (data : α) (children : List (Node ι α)) :
    List (Node ι α) → Prop where
  | element {more : List (Node ι α)} (h_cut : (fate ps data).cut = none)
      (h_before : (fate ps data).before = ps) (h_more : Textual more)
      (h_suffix : textOf more = (fate ps data).suffix) :
      Stands ps id data children [.element id data (walk ps children ++ more)]
  | text {ns : List (Node ι α)} {text : String → String} (h_cut : (fate ps data).cut = some text)
      (h_ns : Textual ns)
      (h_text : textOf ns =
        text (textOf (walk (fate ps data).before children) ++ (fate ps data).suffix)) :
      Stands ps id data children ns

/-- Every pass leaves an element, or the text that has taken its place. -/
theorem stands (ps : List (Pass α)) (id : ι) (data : α) (children : List (Node ι α)) :
    Stands ps id data children (walk ps [.element id data children]) := by
  induction ps using List.reverseRecOn with
  | nil =>
    have h_none : Stands [] id data children
        [.element id data (walk [] children ++ ([] : List (Node ι α)))] :=
      .element rfl rfl (List.forall_mem_nil _) rfl
    rwa [List.append_nil] at h_none
  | append_singleton ps pass ih =>
    rw [walk_snoc]
    generalize walk ps [.element id data children] = ns at ih
    -- the last pass meets the element as the passes before have left it
    have h_next := fate_snoc ps pass data
    cases ih with
    | text h_cut h_ns h_text =>
      -- what has become a text stays as it is
      rw [Fate.next, h_cut] at h_next
      dsimp only at h_next
      rw [h_ns.rewriteAll]
      rw [← h_next] at h_cut h_text
      exact .text h_cut h_ns h_text
    | element h_cut h_before h_more h_suffix =>
      rename_i more
      have h_children : rewriteAll pass.selects pass.act (walk ps children ++ more) =
          walk (ps ++ [pass]) children ++ more := by
        rw [rewriteAll_append, h_more.rewriteAll, walk_snoc]
      rw [Fate.next, h_cut] at h_next
      dsimp only at h_next
      rw [rewriteAll, rewriteAll, List.append_nil, Node.rewrite, h_children]
      by_cases h_p : pass.selects data = true
      · rw [if_pos h_p] at h_next ⊢
        rw [Pass.act]
        cases h_change : pass.change data with
        | append text =>
          rw [h_change, h_before] at h_next
          dsimp only at h_next ⊢
          rw [List.append_assoc]
          refine .element (by rw [h_next]) (by rw [h_next])
            (h_more.append (textual_singleton text)) ?_
          rw [textOf_append, h_suffix, h_next]
          exact congrArg _ String.append_empty
        | replace text =>
          rw [h_change] at h_next
          dsimp only at h_next ⊢
          refine .text (by rw [h_next]) (textual_singleton _) ?_
          rw [h_next, h_before, textOf_append, h_suffix]
          exact String.append_empty
        | remove =>
          rw [h_change] at h_next
          dsimp only at h_next ⊢
          exact .text (by rw [h_next]) (List.forall_mem_nil _) rfl
      · rw [if_neg h_p] at h_next ⊢
        rw [h_before] at h_next
        exact .element (by rw [h_next]) (by rw [h_next]) h_more (by rw [h_next, h_suffix])

/-- No pass changes a text. -/
theorem walk_text (ps : List (Pass α)) {ns : List (Node ι α)} (h : Textual ns) :
    walk ps ns = ns := by
  induction ps with
  | nil => rfl
  | cons pass ps ih =>
    show walk ps (rewriteAll pass.selects pass.act ns) = ns
    rw [h.rewriteAll, ih]

mutual

/-- The text after the passes is what is rendered. -/
theorem Node.textOf_walk :
    ∀ (n : Node ι α) (ps : List (Pass α)), textOf (walk ps [n]) = n.render ps
  | .text content, ps => by
    rw [walk_text ps (textual_singleton content)]
    exact String.append_empty
  | .comment content, ps => by
    have h_comment : walk ps [(.comment content : Node ι α)] = [.comment content] := by
      induction ps with
      | nil => rfl
      | cons pass ps ih => exact ih
    rw [h_comment]
    rfl
  | .element id data children, ps => by
    -- what the passes make of an element is an element or a text, with what comes behind
    have h_stands := stands ps id data children
    rw [Node.render]
    generalize walk ps [.element id data children] = ns at h_stands
    cases h_stands with
    | element h_cut h_before h_more h_suffix =>
      rw [h_cut]
      dsimp only
      rw [← textOf_walk children ps, ← h_suffix, ← textOf_append]
      exact String.append_empty
    | text h_cut h_ns h_text =>
      rw [h_cut, h_text]
      dsimp only
      rw [textOf_walk children]

/-- **Several loops are one walk.** -/
theorem textOf_walk :
    ∀ (ns : List (Node ι α)) (ps : List (Pass α)), textOf (walk ps ns) = renderAll ps ns
  | [], ps => by rw [walk_text ps (List.forall_mem_nil _)]; rfl
  | n :: ns, ps => by
    rw [← List.singleton_append, walk_append, textOf_append, n.textOf_walk ps, textOf_walk ns ps]
    rfl

end

/-! ### What the passes look at -/

/-- The pass over other data of which only this is looked at. -/
def Pass.comap (f : α → β) (pass : Pass β) : Pass α := ⟨pass.selects ∘ f, pass.change ∘ f⟩

/-- The fate of an element is told from what is looked at. -/
theorem fate_comap (f : α → β) (ps : List (Pass β)) (data : α) :
    fate (ps.map (Pass.comap f)) data =
      ⟨(fate ps (f data)).before.map (Pass.comap f), (fate ps (f data)).suffix,
        (fate ps (f data)).cut⟩ := by
  induction ps using List.reverseRecOn with
  | nil => rfl
  | append_singleton ps pass ih =>
    rw [List.map_append, List.map_singleton, fate_snoc, fate_snoc, ih]
    generalize fate ps (f data) = now
    obtain ⟨before, suffix, cut⟩ := now
    -- a text is not visited by later passes
    cases cut with
    | some text => rfl
    | none =>
      have h_before : (before ++ [pass]).map (Pass.comap f) =
          before.map (Pass.comap f) ++ [pass.comap f] := List.map_append
      by_cases h_p : pass.selects (f data) = true
      · cases h_change : pass.change (f data) with
        | append text =>
          simp only [Fate.next, Pass.comap, Function.comp_apply, h_p, h_change, if_true] at *
          rw [h_before]
        | replace text => simp only [Fate.next, Pass.comap, Function.comp_apply, h_p, h_change,
            if_true]
        | remove => simp only [Fate.next, Pass.comap, Function.comp_apply, h_p, h_change, if_true]
      · simp only [Fate.next, Pass.comap, Function.comp_apply, h_p] at *
        exact congrArg (fun before => (⟨before, suffix, none⟩ : Fate α)) h_before.symm

mutual

/-- Passes that ask for a part of the data only. -/
theorem Node.render_map (f : α → β) :
    ∀ (n : Node ι α) (ps : List (Pass β)),
      (n.map f).render ps = n.render (ps.map (Pass.comap f))
  | .text _, _ => rfl
  | .comment _, _ => rfl
  | .element _ data children, ps => by
    rw [Node.map, Node.render, Node.render, fate_comap]
    dsimp only
    cases (fate ps (f data)).cut with
    | some text =>
      dsimp only
      rw [renderAll_map f children]
    | none =>
      dsimp only
      rw [renderAll_map f children]

theorem renderAll_map (f : α → β) :
    ∀ (ns : List (Node ι α)) (ps : List (Pass β)),
      renderAll ps (mapAll f ns) = renderAll (ps.map (Pass.comap f)) ns
  | [], _ => rfl
  | n :: ns, ps => by
    rw [mapAll, renderAll, renderAll, n.render_map f ps, renderAll_map f ns ps]

end

end Markup
