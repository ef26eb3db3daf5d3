import BrowserControl.Redaction.DomSnapshot

/-!
# What a DOM snapshot must not show

`Secret` says which strings of a snapshot must not be seen, without the sanitizer: the non-empty
strings to which a document `Refers` as something a user typed. It is about a `Document`, the
arrays of a document by their names, and about its tree: a node is *in a sensitive subtree* if it
or one of its ancestors is an `INPUT`, a `TEXTAREA` or marked.

`sanitizeDomSnapshot_ok` is the result: an answer of the sanitizer is the snapshot with another
table of strings, in which every string that contains a secret is replaced and every other one is
not. The sanitizer answers only if each walk to the ancestors ends at a sensitive node or above the
root (`Settles`); it does not look at the parents of a sensitive node.
-/

namespace BrowserControl.Redaction

open Encoding (of_bind_ok)

variable (upper lower : String → String) (strings : List String)

/-! ### The arrays of a document -/

/-- The arrays of a document. -/
structure Document where
  nodeName : List ℤ
  nodeValue : List ℤ
  parentIndex : List ℤ
  attributes : List (List ℤ)
  inputValue : List ℤ
  textValue : List ℤ
  /-- The node and the text of a box. -/
  layout : List (ℤ × ℤ)

/-- The string to which an index refers. -/
def text (index : ℤ) : String := (stringAt strings index).toOption.getD ""

/-- An array of integers, if it is one. -/
def ints (value : Option Value) : List ℤ := (numbers value).toOption.getD []

/-- The columns of a document of the snapshot. -/
def Document.of (document : Value) : Document where
  nodeName := ints ((document.get "nodes").bind (·.get "nodeName"))
  nodeValue := ints ((document.get "nodes").bind (·.get "nodeValue"))
  parentIndex := ints ((document.get "nodes").bind (·.get "parentIndex"))
  attributes :=
    -- What is missing or of another shape reads as nothing.
    match (document.get "nodes").bind (·.get "attributes") with
    | some (.arr attributes) => attributes.map fun value => ints (some value)
    | _ => []
  inputValue :=
    (optionalRareStrings ((document.get "nodes").bind (·.get "inputValue"))).toOption.getD []
  textValue :=
    (optionalRareStrings ((document.get "nodes").bind (·.get "textValue"))).toOption.getD []
  layout := (readLayout (document.get "layout")).toOption.getD []

/-- A flat list of attributes has an attribute with this name and this value. -/
inductive HasAttribute (name : String) (value : ℤ) : List ℤ → Prop where
  | head {nameIndex : ℤ} (rest : List ℤ) (h : lower (text strings nameIndex) = name) :
      HasAttribute name value (nameIndex :: value :: rest)
  | tail (nameIndex valueIndex : ℤ) {rest : List ℤ} (h : HasAttribute name value rest) :
      HasAttribute name value (nameIndex :: valueIndex :: rest)

namespace Document

variable (d : Document)

/-- The node is an `INPUT` or a `TEXTAREA`. -/
def Field (i : ℕ) : Prop := ∃ name, d.nodeName[i]? = some name ∧ isField (upper (text strings name))

/-- The node has an attribute with this name and this value. -/
def Attribute (i : ℕ) (name : String) (value : ℤ) : Prop :=
  ∃ flat, d.attributes[i]? = some flat ∧ HasAttribute lower strings name value flat

/-- The node is a field or marked. -/
def Sensitive (i : ℕ) : Prop :=
  d.Field upper strings i ∨
    ∃ value, d.Attribute lower strings i "data-browser-control-sensitive" value

end Document

/-- The node or one of its ancestors is sensitive. -/
inductive InSubtree (sensitive : ℕ → Prop) (parentIndex : List ℤ) : ℤ → Prop where
  | self {i : ℕ} (h : sensitive i) : InSubtree sensitive parentIndex i
  | parent {i : ℕ} {j : ℤ} (h : parentIndex[i]? = some j)
      (h_parent : InSubtree sensitive parentIndex j) :
      InSubtree sensitive parentIndex i

/-- The way to the ancestors ends above a root. -/
inductive Rooted (parentIndex : List ℤ) : ℤ → Prop where
  | root {j : ℤ} (h : j < 0) : Rooted parentIndex j
  | parent {i : ℕ} {j : ℤ} (h : parentIndex[i]? = some j) (h_parent : Rooted parentIndex j) :
      Rooted parentIndex i

namespace Document

variable (d : Document)

/-- The node belongs to a sensitive subtree. -/
def Inside (n : ℤ) : Prop := InSubtree (d.Sensitive upper lower strings) d.parentIndex n

/-- What the document refers to as the value of a field. -/
inductive Refers : ℤ → Prop where
  | value {i : ℕ} {index : ℤ} (h_field : d.Field upper strings i)
      (h : d.Attribute lower strings i "value" index) : Refers index
  | inputValue {index : ℤ} (h : index ∈ d.inputValue) : Refers index
  | textValue {index : ℤ} (h : index ∈ d.textValue) : Refers index
  | nodeValue {i : ℕ} {index : ℤ} (h : d.nodeValue[i]? = some index)
      (h_inside : d.Inside upper lower strings i) : Refers index
  | layoutText {n index : ℤ} (h : (n, index) ∈ d.layout)
      (h_inside : d.Inside upper lower strings n) : Refers index

/-- Each walk to the ancestors ends. -/
def Settles : Prop :=
  (∀ i < d.nodeValue.length, d.Inside upper lower strings i ∨ Rooted d.parentIndex i) ∧
    ∀ x ∈ d.layout, d.Inside upper lower strings x.1 ∨ Rooted d.parentIndex x.1

end Document

/-- A string that must not be seen. -/
def Secret (documents : List Document) (t : String) : Prop :=
  t ≠ "" ∧ ∃ d ∈ documents, ∃ index, d.Refers upper lower strings index ∧ text strings index = t

open Classical in
/-- A string as it may be seen. -/
noncomputable def masked (secret : String → Prop) (s : String) : String :=
  if ∃ t, secret t ∧ includes s t then redacted else s

/-! ### Strings and loops -/

variable {upper lower : String → String} {strings : List String}

/-- A string that is read is the text. -/
theorem text_of_ok {index : ℤ} {s : String} (h : stringAt strings index = .ok s) :
    text strings index = s := by
  rw [text, h]
  rfl

/-- An index that refers to a string that is not empty. -/
theorem index_of_text {index : ℤ} (h : text strings index ≠ "") :
    index = index.toNat ∧ strings[index.toNat]? = some (text strings index) := by
  unfold text at h ⊢
  unfold stringAt at h ⊢
  split_ifs with h_none h_neg
  · rw [if_pos h_none] at h
    exact absurd rfl h
  · rw [if_neg h_none, if_pos h_neg] at h
    exact absurd rfl h
  · refine ⟨(Int.toNat_of_nonneg (not_lt.mp h_neg)).symm, ?_⟩
    rw [if_neg h_none, if_neg h_neg] at h
    cases h_s : strings[index.toNat]? with
    | none =>
      rw [h_s] at h
      exact absurd rfl h
    | some s => rfl

/-- The set has the indexes of these strings, as far as they are not empty. -/
def Collects (strings : List String) (tainted : List ℕ) (refers : ℤ → Prop) : Prop :=
  ∀ j : ℕ, j ∈ tainted ↔ refers j ∧ text strings j ≠ ""

/-- Nothing is collected. -/
theorem Collects.nil : Collects strings [] fun _ => False := by
  intro j
  simp

/-- What two lists collect. -/
theorem Collects.append {xs ys : List ℕ} {p q : ℤ → Prop} (hp : Collects strings xs p)
    (hq : Collects strings ys q) : Collects strings (xs ++ ys) fun i => p i ∨ q i := by
  intro j
  rw [List.mem_append, hp j, hq j, or_and_right]

/-- The same said in another way. -/
theorem Collects.congr {xs : List ℕ} {p q : ℤ → Prop} (hp : Collects strings xs p)
    (h : ∀ i, p i ↔ q i) : Collects strings xs q := by
  intro j
  rw [hp j, h]

/-- One index is collected. -/
theorem collects_taint {index : ℤ} {xs : List ℕ} (h : taint strings index = .ok xs) :
    Collects strings xs fun i => i = index := by
  obtain ⟨s, h_s, h⟩ := of_bind_ok h
  have h_text := text_of_ok h_s
  intro j
  split at h
  -- the empty text is not a secret
  case isTrue h_empty =>
    cases h
    refine iff_of_false List.not_mem_nil ?_
    rintro ⟨rfl, h_ne⟩
    exact h_ne (h_text.trans h_empty)
  -- the index is a place of the table, since a text was found there
  case isFalse h_ne =>
    cases h
    have h_index : index = index.toNat := (index_of_text (h_text.symm ▸ h_ne)).1
    rw [List.mem_singleton]
    constructor
    · rintro rfl
      refine ⟨h_index.symm, ?_⟩
      rw [← h_index, h_text]
      exact h_ne
    · rintro ⟨h_j, -⟩
      rw [← h_j, Int.toNat_natCast]

/-- What a loop adds is what its passes add. -/
theorem collects_gather {α : Type} {f : α → Except String (List ℕ)} {p : α → ℤ → Prop}
    (hf : ∀ a xs, f a = .ok xs → Collects strings xs (p a)) {as : List α} {xs : List ℕ}
    (h : gather f as = .ok xs) : Collects strings xs fun i => ∃ a ∈ as, p a i := by
  induction as generalizing xs with
  | nil =>
    cases h
    exact Collects.nil.congr fun i => by simp
  | cons a as ih =>
    obtain ⟨here, h_here, h⟩ := of_bind_ok h
    obtain ⟨more, h_more, h⟩ := of_bind_ok h
    cases h
    exact ((hf a here h_here).append (ih h_more)).congr fun i => by simp

/-- A loop that ends made all of its passes. -/
theorem passes_of_gather {α : Type} {f : α → Except String (List ℕ)} {as : List α} {xs : List ℕ}
    (h : gather f as = .ok xs) {a : α} (ha : a ∈ as) : ∃ ys, f a = .ok ys := by
  induction as generalizing xs with
  | nil => cases ha
  | cons b as ih =>
    obtain ⟨here, h_here, h⟩ := of_bind_ok h
    obtain ⟨more, h_more, h⟩ := of_bind_ok h
    rcases List.mem_cons.mp ha with rfl | ha
    · exact ⟨here, h_here⟩
    · exact ih h_more ha

/-! ### The nodes -/

theorem hasAttribute_cons {name : String} {value nameIndex valueIndex : ℤ} {rest : List ℤ} :
    HasAttribute lower strings name value (nameIndex :: valueIndex :: rest) ↔
      (lower (text strings nameIndex) = name ∧ value = valueIndex) ∨
        HasAttribute lower strings name value rest := by
  constructor
  · intro h
    cases h with
    | head _ h => exact .inl ⟨h, rfl⟩
    | tail _ _ h => exact .inr h
  · rintro (⟨h, rfl⟩ | h)
    · exact .head rest h
    · exact .tail _ _ h

/-- What the loop over the attributes finds. -/
theorem readAttributes_ok {tag : String} {flat : List ℤ} {found : Bool × List ℕ}
    (h : readAttributes lower strings tag flat = .ok found) :
    (found.1 = true ↔
        ∃ value, HasAttribute lower strings "data-browser-control-sensitive" value flat) ∧
      Collects strings found.2 fun value =>
        isField tag ∧ HasAttribute lower strings "value" value flat := by
  fun_induction readAttributes lower strings tag flat generalizing found with
  -- one more pair of a name and a value
  | case1 nameIndex valueIndex rest ih =>
    obtain ⟨name, h_name, h⟩ := of_bind_ok h
    obtain ⟨_, -, h⟩ := of_bind_ok h
    obtain ⟨here, h_here, h⟩ := of_bind_ok h
    obtain ⟨more, h_more, h⟩ := of_bind_ok h
    cases h
    obtain ⟨ih_marked, ih_collects⟩ := ih h_more
    have h_text := text_of_ok h_name
    constructor
    · simp only [hasAttribute_cons, h_text, exists_or, Bool.or_eq_true,
        decide_eq_true_eq, ih_marked]
      simp
    · -- What the attribute taints itself.
      have h_collects : Collects strings here fun value =>
          isField tag ∧ lower (text strings nameIndex) = "value" ∧ value = valueIndex := by
        rw [h_text]
        unfold taintValue at h_here
        split at h_here
        case isTrue h_both => exact (collects_taint h_here).congr fun i => by simp [h_both]
        case isFalse h_not =>
          cases h_here
          refine Collects.nil.congr fun i => iff_of_false not_false ?_
          rintro ⟨h_field, h_value, -⟩
          exact h_not ⟨h_value, h_field⟩
      refine (h_collects.append ih_collects).congr fun i => ?_
      rw [hasAttribute_cons, and_or_left]
  -- less than a pair is left
  | case2 flat h_short =>
    cases h
    have h_none : ∀ {name value}, ¬ HasAttribute lower strings name value flat := by
      intro name value h_has
      cases h_has with
      | head rest => exact h_short _ _ _ rfl
      | tail => exact h_short _ _ _ rfl
    constructor
    · refine iff_of_false Bool.false_ne_true ?_
      rintro ⟨value, h_has⟩
      exact h_none h_has
    · exact Collects.nil.congr fun i => iff_of_false not_false fun h_has => h_none h_has.2

/-- What a pass over the nodes finds. -/
theorem readNode_ok {node : ℤ × Value} {found : Bool × List ℕ}
    (h : readNode upper lower strings node = .ok found) :
    (found.1 = true ↔ isField (upper (text strings node.1)) ∨
        ∃ value, HasAttribute lower strings "data-browser-control-sensitive" value
          (ints (some node.2))) ∧
      Collects strings found.2 fun value => isField (upper (text strings node.1)) ∧
        HasAttribute lower strings "value" value (ints (some node.2)) := by
  obtain ⟨name, h_name, h⟩ := of_bind_ok h
  obtain ⟨flat, h_flat, h⟩ := of_bind_ok h
  split at h
  -- the attributes are an array
  case isTrue =>
    obtain ⟨attributes, h_attributes, h⟩ := of_bind_ok h
    cases h
    have h_ints : ints (some node.2) = flat := by
      rw [ints, h_flat]
      rfl
    obtain ⟨h_marked, h_collects⟩ := readAttributes_ok h_attributes
    rw [text_of_ok h_name, h_ints]
    refine ⟨?_, h_collects⟩
    rw [Bool.or_eq_true, h_marked]
  case isFalse => cases h

/-- A loop that computes one thing for each element. -/
theorem getElem?_of_mapM {ε α β : Type} {f : α → Except ε β} {as : List α} {bs : List β}
    (h : as.mapM f = .ok bs) (i : ℕ) : (bs[i]?).map Except.ok = (as[i]?).map f := by
  induction as generalizing bs i with
  | nil =>
    cases h
    rfl
  | cons a as ih =>
    rw [List.mapM_cons] at h
    obtain ⟨b, h_b, h⟩ := of_bind_ok h
    obtain ⟨bs', h_bs, h⟩ := of_bind_ok h
    cases h
    cases i with
    | zero => rw [List.getElem?_cons_zero, List.getElem?_cons_zero, Option.map_some,
        Option.map_some, h_b]
    | succ i => exact ih h_bs i

/-! ### The walk to the ancestors -/

/-- No node has a negative index. -/
theorem not_inSubtree_of_neg {sensitive : ℕ → Prop} {parentIndex : List ℤ} {n : ℤ} (h : n < 0) :
    ¬ InSubtree sensitive parentIndex n := by
  intro h_in
  cases h_in with
  | self | parent => omega

/-- A node is in a subtree itself or by its parent. -/
theorem inSubtree_cast {sensitive : ℕ → Prop} {parentIndex : List ℤ} {i : ℕ} :
    InSubtree sensitive parentIndex i ↔
      sensitive i ∨ ∃ j, parentIndex[i]? = some j ∧ InSubtree sensitive parentIndex j := by
  constructor
  · intro h
    generalize h_n : (i : ℤ) = n at h
    cases h with
    | self h =>
      cases h_n
      exact .inl h
    | parent h h_parent =>
      cases h_n
      exact .inr ⟨_, h, h_parent⟩
  · rintro (h | ⟨j, h, h_parent⟩)
    · exact .self h
    · exact .parent h h_parent

/-- A walk that ends tells whether there is a sensitive node on the way, and if there is none then
it has come above the root. -/
theorem belongsToSensitiveSubtree_ok {sensitive : ℕ → Bool} {parentIndexes : List ℤ}
    {visited : Finset ℕ} {n : ℤ} {b : Bool}
    (h : belongsToSensitiveSubtree sensitive parentIndexes visited n = .ok b) :
    (b = true ↔ InSubtree (sensitive · = true) parentIndexes n) ∧
      (b = false → Rooted parentIndexes n) := by
  fun_induction belongsToSensitiveSubtree sensitive parentIndexes visited n with
  -- the walk has left the tree at the top
  | case1 visited i =>
    cases h
    have h_neg : Int.negSucc i < 0 := Int.negSucc_lt_zero i
    exact ⟨iff_of_false Bool.false_ne_true (not_inSubtree_of_neg h_neg), fun _ => .root h_neg⟩
  -- it has met a sensitive node
  | case2 visited current h_sensitive =>
    cases h
    exact ⟨iff_of_true rfl (.self h_sensitive), fun h_false =>
      absurd h_false.symm Bool.false_ne_true⟩
  -- it goes on with the parent
  | case3 visited current h_sensitive h_current ih =>
    obtain ⟨ih_iff, ih_rooted⟩ := ih h
    have h_get : parentIndexes[current]? = some (parentIndexes.get ⟨current, h_current.2⟩) :=
      List.getElem?_eq_getElem h_current.2
    constructor
    · rw [ih_iff, show Int.ofNat current = (current : ℤ) from rfl, inSubtree_cast]
      constructor
      · intro h_in
        exact .inr ⟨_, h_get, h_in⟩
      · rintro (h_self | ⟨j, h_j, h_in⟩)
        · exact absurd h_self h_sensitive
        · rw [h_get, Option.some_inj] at h_j
          exact h_j ▸ h_in
    · intro h_false
      exact .parent h_get (ih_rooted h_false)
  | case4 => cases h

/-- What a node or a box taints if the way to its ancestors ends. -/
theorem taintInSubtree_ok {sensitive : ℕ → Bool} {parentIndexes : List ℤ} {node : ℤ × ℤ}
    {xs : List ℕ} (h : taintInSubtree strings sensitive parentIndexes node = .ok xs) :
    Collects strings xs (fun i => i = node.2 ∧
        InSubtree (sensitive · = true) parentIndexes node.1) ∧
      (InSubtree (sensitive · = true) parentIndexes node.1 ∨ Rooted parentIndexes node.1) := by
  obtain ⟨b, h_b, h⟩ := of_bind_ok h
  obtain ⟨h_iff, h_rooted⟩ := belongsToSensitiveSubtree_ok h_b
  split at h
  case isTrue h_true =>
    have h_in := h_iff.mp h_true
    exact ⟨(collects_taint h).congr fun i => by simp [h_in], .inl h_in⟩
  case isFalse h_false =>
    cases h
    have h_not : ¬ InSubtree (sensitive · = true) parentIndexes node.1 := fun h_in =>
      h_false (h_iff.mpr h_in)
    refine ⟨Collects.nil.congr fun i => by simp [h_not], .inr (h_rooted ?_)⟩
    exact Bool.eq_false_iff.mpr h_false

/-! ### A document -/

/-- What is read as an object is one. -/
theorem record_ok {value : Option Value} {item : Values} (h : record value = .ok item) :
    value = some (.obj item) := by
  unfold record at h
  split at h
  · cases h
    rfl
  · cases h

/-- What `nodeAttributes` has read. -/
theorem nodeAttributes_ok {value : Option Value} {nodeNames nodeValues parentIndexes : List ℤ}
    {attributes : List Value}
    (h : nodeAttributes value nodeNames nodeValues parentIndexes = .ok attributes) :
    value = some (.arr attributes) ∧ attributes.length = nodeNames.length := by
  unfold nodeAttributes at h
  split at h
  · split_ifs at h with h_lengths
    cases h
    exact ⟨rfl, h_lengths.2.2⟩
  · cases h

/-- What is read is there. -/
theorem getD_of_ok {α : Type} {x : Except String (List α)} {xs : List α} (h : x = .ok xs) :
    x.toOption.getD [] = xs := by
  rw [h]
  rfl

/-- What the passes over the nodes find. -/
theorem readNodes_ok {d : Document} {attributes : List Value} {read : List (Bool × List ℕ)}
    (h_attribute : d.attributes = attributes.map fun value => ints (some value))
    (h_length : attributes.length = d.nodeName.length)
    (h : (d.nodeName.zip attributes).mapM (readNode upper lower strings) = .ok read) :
    (fun i => ((read[i]?).any (·.1)) = true) = d.Sensitive upper lower strings ∧
      Collects strings (read.map (·.2)).flatten fun value => ∃ i,
        d.Field upper strings i ∧ d.Attribute lower strings i "value" value := by
  -- what one pass of the loop finds out about its node
  have h_pass (i : ℕ) (found : Bool × List ℕ) (h_found : read[i]? = some found) :
      (found.1 = true ↔ d.Sensitive upper lower strings i) ∧
        Collects strings found.2 fun value => d.Field upper strings i ∧
          d.Attribute lower strings i "value" value := by
    have h_map := getElem?_of_mapM h i
    rw [h_found, Option.map_some, eq_comm, Option.map_eq_some_iff] at h_map
    obtain ⟨node, h_node, h_ok⟩ := h_map
    obtain ⟨h_name, h_value⟩ := List.getElem?_zip_eq_some.mp h_node
    obtain ⟨h_marked, h_collects⟩ := readNode_ok h_ok
    have h_field : d.Field upper strings i ↔ isField (upper (text strings node.1)) := by
      rw [Document.Field, h_name]
      simp
    have h_has (name : String) (value : ℤ) : d.Attribute lower strings i name value ↔
        HasAttribute lower strings name value (ints (some node.2)) := by
      rw [Document.Attribute, h_attribute, List.getElem?_map, h_value]
      simp
    constructor
    · rw [h_marked, Document.Sensitive, h_field]
      simp only [h_has]
    · refine h_collects.congr fun value => ?_
      rw [h_field, h_has]
  -- There is a pass for each node.
  have h_none (i : ℕ) (h_read : read[i]? = none) : d.nodeName[i]? = none := by
    have h_map := getElem?_of_mapM h i
    rw [h_read, Option.map_none, eq_comm, Option.map_eq_none_iff, List.getElem?_eq_none_iff,
      List.length_zip, h_length, min_self] at h_map
    exact List.getElem?_eq_none h_map
  constructor
  · funext i
    apply propext
    cases h_read : read[i]? with
    | some found => exact (h_pass i found h_read).1
    | none =>
      refine iff_of_false Bool.false_ne_true ?_
      have h_name := h_none i h_read
      rintro (⟨name, h_some, -⟩ | ⟨value, flat, h_flat, -⟩)
      · rw [h_name] at h_some
        cases h_some
      · rw [List.getElem?_eq_none_iff, ← h_length] at h_name
        rw [h_attribute, List.getElem?_map, List.getElem?_eq_none h_name] at h_flat
        cases h_flat
  · intro j
    simp only [List.mem_flatten, List.mem_map, exists_exists_and_eq_and]
    constructor
    -- the passes together
    · rintro ⟨found, h_found, h_j⟩
      obtain ⟨i, h_i⟩ := List.mem_iff_getElem?.mp h_found
      obtain ⟨h_refers, h_ne⟩ := ((h_pass i found h_i).2 j).mp h_j
      exact ⟨⟨i, h_refers⟩, h_ne⟩
    · rintro ⟨⟨i, h_field, h_value⟩, h_ne⟩
      cases h_read : read[i]? with
      | none =>
        obtain ⟨name, h_name, -⟩ := h_field
        rw [h_none i h_read] at h_name
        cases h_name
      | some found =>
        have h_j := ((h_pass i found h_read).2 j).mpr ⟨⟨h_field, h_value⟩, h_ne⟩
        exact ⟨found, List.mem_of_getElem? h_read, h_j⟩

/-- A document that is read: what it taints is what it refers to. -/
theorem readDocument_ok {rawDocument : Value} {xs : List ℕ}
    (h : readDocument upper lower strings rawDocument = .ok xs) :
    Collects strings xs ((Document.of rawDocument).Refers upper lower strings) ∧
      (Document.of rawDocument).Settles upper lower strings := by
  obtain ⟨document, h_document, h⟩ := of_bind_ok h
  obtain ⟨nodes, h_nodes, h⟩ := of_bind_ok h
  obtain ⟨nodeNames, h_names, h⟩ := of_bind_ok h
  obtain ⟨nodeValues, h_values, h⟩ := of_bind_ok h
  obtain ⟨parentIndexes, h_parents, h⟩ := of_bind_ok h
  obtain ⟨attributes, h_attributes, h⟩ := of_bind_ok h
  obtain ⟨read, h_read, h⟩ := of_bind_ok h
  obtain ⟨inputValue, h_inputValue, h⟩ := of_bind_ok h
  obtain ⟨inputs, h_inputs, h⟩ := of_bind_ok h
  obtain ⟨textValue, h_textValue, h⟩ := of_bind_ok h
  obtain ⟨texts, h_texts, h⟩ := of_bind_ok h
  obtain ⟨values, h_tainted, h⟩ := of_bind_ok h
  obtain ⟨layout, h_layout, h⟩ := of_bind_ok h
  obtain ⟨boxes, h_boxes, h⟩ := of_bind_ok h
  cases h
  cases record_ok h_document
  obtain ⟨h_array, h_length⟩ := nodeAttributes_ok h_attributes
  -- The arrays of the document, as `Document.of` has them.
  have h_member (k : String) :
      ((Value.obj document).get "nodes").bind (·.get k) = nodes.get k := by
    show (document.get "nodes").bind _ = _
    rw [record_ok h_nodes]
    rfl
  obtain ⟨d, h_d, h_eq⟩ : ∃ d, Document.of (.obj document) = d ∧
      d = Document.mk nodeNames nodeValues parentIndexes
        (attributes.map fun value => ints (some value)) inputValue textValue layout := by
    refine ⟨_, rfl, ?_⟩
    unfold Document.of
    simp only [h_member, h_array, ints, getD_of_ok h_names, getD_of_ok h_values,
      getD_of_ok h_parents, getD_of_ok h_inputValue, getD_of_ok h_textValue]
    congr 1
    exact getD_of_ok h_layout
  rw [h_d]
  have h_nodeName : d.nodeName = nodeNames := by rw [h_eq]
  have h_nodeValue : d.nodeValue = nodeValues := by rw [h_eq]
  have h_box : d.layout = layout := by rw [h_eq]
  obtain ⟨h_sensitive, h_fields⟩ := readNodes_ok (d := d) (by rw [h_eq])
    (h_length.trans (by rw [h_nodeName])) (by rw [h_nodeName]; exact h_read)
  have h_inside : InSubtree (fun i => ((read[i]?).any (·.1)) = true) parentIndexes =
      d.Inside upper lower strings := by
    rw [h_sensitive, h_eq]
    rfl
  have h_subtree {node : ℤ × ℤ} {xs : List ℕ} (h_ok : taintInSubtree strings
      (fun i => (read[i]?).any (·.1)) parentIndexes node = .ok xs) :
      Collects strings xs (fun i => i = node.2 ∧ d.Inside upper lower strings node.1) ∧
        (d.Inside upper lower strings node.1 ∨ Rooted d.parentIndex node.1) := by
    rw [← h_inside, h_eq]
    exact taintInSubtree_ok h_ok
  have h_mem {n index : ℤ} : (n, index) ∈ nodeValues.zipIdx.map (fun x => ((x.2 : ℤ), x.1)) ↔
      ∃ i : ℕ, n = i ∧ d.nodeValue[i]? = some index := by
    rw [h_nodeValue]
    simp only [List.mem_map, List.mem_zipIdx_iff_getElem?, Prod.mk.injEq, Prod.exists]
    constructor
    · rintro ⟨v, i, h_get, rfl, rfl⟩
      exact ⟨i, rfl, h_get⟩
    · rintro ⟨i, rfl, h_get⟩
      exact ⟨index, i, h_get, rfl, rfl⟩
  constructor
  · have h_all := (((h_fields.append (collects_gather (fun _ _ => collects_taint) h_inputs)).append
      (collects_gather (fun _ _ => collects_taint) h_texts)).append
      (collects_gather (fun _ _ h_ok => (h_subtree h_ok).1) h_tainted)).append
      (collects_gather (fun _ _ h_ok => (h_subtree h_ok).1) h_boxes)
    refine h_all.congr fun index => ⟨?_, ?_⟩
    · rintro ((((⟨i, h_field, h_value⟩ | ⟨v, h_v, rfl⟩) | ⟨v, h_v, rfl⟩) |
        ⟨⟨n, v⟩, h_v, rfl, h_in⟩) | ⟨⟨n, v⟩, h_v, rfl, h_in⟩)
      · exact .value h_field h_value
      · exact .inputValue (by rw [h_eq]; exact h_v)
      · exact .textValue (by rw [h_eq]; exact h_v)
      · obtain ⟨i, rfl, h_get⟩ := h_mem.mp h_v
        exact .nodeValue h_get h_in
      · exact .layoutText (by rw [h_box]; exact h_v) h_in
    -- each way to refer to a text is one of the five lists
    · intro h_refers
      cases h_refers with
      | value h_field h_value => exact .inl (.inl (.inl (.inl ⟨_, h_field, h_value⟩)))
      | inputValue h_v =>
        rw [h_eq] at h_v
        exact .inl (.inl (.inl (.inr ⟨_, h_v, rfl⟩)))
      | textValue h_v =>
        rw [h_eq] at h_v
        exact .inl (.inl (.inr ⟨_, h_v, rfl⟩))
      | nodeValue h_get h_in => exact .inl (.inr ⟨_, h_mem.mpr ⟨_, rfl, h_get⟩, rfl, h_in⟩)
      | layoutText h_v h_in => exact .inr ⟨_, h_box ▸ h_v, rfl, h_in⟩
  · constructor
    · intro i h_i
      have h_node := h_mem.mpr ⟨i, rfl, List.getElem?_eq_getElem h_i⟩
      obtain ⟨ys, h_ok⟩ := passes_of_gather h_tainted h_node
      exact (h_subtree h_ok).2
    · intro x h_x
      obtain ⟨ys, h_ok⟩ := passes_of_gather h_boxes (h_box ▸ h_x)
      exact (h_subtree h_ok).2

/-! ### The table of strings -/

/-- The text at an index. -/
theorem text_natCast {i : ℕ} {s : String} (h : strings[i]? = some s) : text strings i = s := by
  apply text_of_ok
  rw [stringAt, if_neg (by omega), if_neg (by omega), Int.toNat_natCast, h]

/-- The strings that are replaced are the ones that contain a tainted string. -/
theorem redactStrings_eq {tainted : List ℕ} {refers : ℤ → Prop}
    (h : Collects strings tainted refers) :
    redactStrings strings tainted =
      strings.map (masked fun t => t ≠ "" ∧ ∃ index, refers index ∧ text strings index = t) := by
  -- the texts that are masked: those of the tainted indexes, without the empty one
  have h_values (t : String) : t ∈ (tainted.filterMap (strings[·]?)).filter (· ≠ "") ↔
      t ≠ "" ∧ ∃ index, refers index ∧ text strings index = t := by
    simp only [List.mem_filter, List.mem_filterMap, decide_eq_true_eq, and_comm (b := t ≠ "")]
    refine and_congr_right fun h_ne => ⟨?_, ?_⟩
    · rintro ⟨j, h_j, h_get⟩
      exact ⟨j, ((h j).mp h_j).1, text_natCast h_get⟩
    · rintro ⟨index, h_refers, rfl⟩
      obtain ⟨h_index, h_get⟩ := index_of_text h_ne
      refine ⟨index.toNat, (h _).mpr ?_, h_get⟩
      rw [← h_index]
      exact ⟨h_refers, h_ne⟩
  apply List.ext_getElem?
  intro i
  rw [redactStrings, List.getElem?_mapIdx, List.getElem?_map]
  cases h_get : strings[i]? with
  | none => rfl
  | some s =>
    rw [Option.map_some, Option.map_some]
    congr 1
    -- a text is masked exactly if it contains one of them
    by_cases h_secret : ∃ t, (t ≠ "" ∧ ∃ index, refers index ∧ text strings index = t) ∧
        includes s t
    · rw [masked, if_pos h_secret, if_pos]
      obtain ⟨t, h_t, h_includes⟩ := h_secret
      rw [Bool.or_eq_true, List.any_eq_true]
      exact .inr ⟨t, (h_values t).mpr h_t, h_includes⟩
    · rw [masked, if_neg h_secret, if_neg]
      rw [Bool.or_eq_true, decide_eq_true_eq, List.any_eq_true]
      rintro (h_mem | ⟨t, h_t, h_includes⟩)
      · -- A tainted string contains itself.
        obtain ⟨h_refers, h_ne⟩ := (h i).mp h_mem
        rw [text_natCast h_get] at h_ne
        refine h_secret ⟨s, ⟨h_ne, i, h_refers, text_natCast h_get⟩, ?_⟩
        exact includes_iff.mpr (List.infix_refl _)
      · exact h_secret ⟨t, (h_values t).mp h_t, h_includes⟩

/-! ### The sanitizer -/

/-- A list of strings. -/
theorem mapM_asString {items : List Value} (h : items.mapM Value.asString = some strings) :
    items = strings.map .str := by
  induction items generalizing strings with
  | nil =>
    cases h
    rfl
  | cons item items ih =>
    rw [List.mapM_cons] at h
    obtain ⟨s, h_s, h⟩ := Option.bind_eq_some_iff.mp h
    obtain ⟨rest, h_rest, h⟩ := Option.bind_eq_some_iff.mp h
    cases h
    rw [List.map_cons, ← ih h_rest]
    cases item with
    | str => cases h_s; rfl
    | _ => cases h_s

/-- What is read as the table of strings. -/
theorem stringTable_ok {value : Option Value} (h : stringTable value = .ok strings) :
    value = some (.arr (strings.map .str)) := by
  unfold stringTable at h
  split at h
  · split at h
    case h_1 h_strings =>
      cases h
      rw [mapM_asString h_strings]
    case h_2 => cases h
  · cases h

/-- What is read as the list of documents. -/
theorem documentList_ok {value : Option Value} {documents : List Value}
    (h : documentList value = .ok documents) : value = some (.arr documents) := by
  unfold documentList at h
  split at h
  · cases h
    rfl
  · cases h

/-- **DOM snapshots are redacted exactly.** The sanitizer always ends. If it answers, then the
answer is the snapshot with another table of strings: a string that contains a secret is replaced,
and every other string is as it was. It throws if for a node or a box the walk to the ancestors,
which stops at the first sensitive node and above a root, comes back to a node or leaves the
array. -/
theorem sanitizeDomSnapshot_ok {snapshot result : Value}
    (h : sanitizeDomSnapshot upper lower snapshot = .ok result) :
    ∃ (root : Values) (strings : List String) (documents : List Value),
      snapshot = .obj root ∧
      root.get "strings" = some (.arr (strings.map .str)) ∧
      root.get "documents" = some (.arr documents) ∧
      result = .obj (root.set "strings" (.arr ((strings.map
        (masked (Secret upper lower strings (documents.map Document.of)))).map .str))) ∧
      ∀ d ∈ documents.map Document.of, d.Settles upper lower strings := by
  obtain ⟨root, h_root, h⟩ := of_bind_ok h
  obtain ⟨strings, h_strings, h⟩ := of_bind_ok h
  obtain ⟨documents, h_documents, h⟩ := of_bind_ok h
  obtain ⟨tainted, h_tainted, h⟩ := of_bind_ok h
  cases h
  cases record_ok h_root
  refine ⟨root, strings, documents, rfl, stringTable_ok h_strings, documentList_ok h_documents,
    ?_, ?_⟩
  · rw [redactStrings_eq (collects_gather (fun _ _ h_ok => (readDocument_ok h_ok).1) h_tainted)]
    have h_secret : (fun t => t ≠ "" ∧ ∃ index, (∃ d ∈ documents,
        (Document.of d).Refers upper lower strings index) ∧ text strings index = t) =
        Secret upper lower strings (documents.map Document.of) := by
      funext t
      apply propext
      refine and_congr_right fun _ => ⟨?_, ?_⟩
      · rintro ⟨index, ⟨d, h_d, h_refers⟩, h_text⟩
        exact ⟨_, List.mem_map_of_mem h_d, index, h_refers, h_text⟩
      · rintro ⟨_, h_d, index, h_refers, h_text⟩
        obtain ⟨d, h_mem, rfl⟩ := List.mem_map.mp h_d
        exact ⟨index, ⟨d, h_mem, h_refers⟩, h_text⟩
    rw [h_secret]
  · intro d h_d
    obtain ⟨rawDocument, h_mem, rfl⟩ := List.mem_map.mp h_d
    obtain ⟨ys, h_ok⟩ := passes_of_gather h_tainted h_mem
    exact (readDocument_ok h_ok).2

/-! ### Samples -/

/-- A document whose nodes have a name, a parent and attributes. -/
def documentOf (nodes : List (ℤ × ℤ × List ℤ)) : Value :=
  let array (ns : List ℤ) : Value := .arr (ns.map fun n => .num n)
  .obj [("nodes", .obj [
    ("nodeName", array (nodes.map (·.1))),
    ("nodeValue", array (nodes.map fun _ => -1)),
    ("parentIndex", array (nodes.map (·.2.1))),
    ("attributes", .arr (nodes.map fun node => array node.2.2))])]

/-- The snapshot of one document. -/
def snapshotOf (strings : List String) (document : Value) : Value :=
  .obj [("strings", .arr (strings.map .str)), ("documents", .arr [document])]

/-- A field inside a form. -/
def filledForm : Value :=
  snapshotOf ["FORM", "INPUT", "value", "hunter2", "not hunter2", "safe"]
    (documentOf [(0, -1, []), (1, 0, [2, 3])])

example : ((sanitizeDomSnapshot id id filledForm).toOption.bind fun result =>
    (stringTable (result.get "strings")).toOption) =
      some ["FORM", "INPUT", "value", redacted, redacted, "safe"] := by
  decide +kernel

/-- What succeeds has a result. -/
theorem exists_of_isSome {x : Except String Value} (h : x.toOption.isSome) :
    ∃ result, x = .ok result := by
  cases x with
  | error => cases h
  | ok result => exact ⟨result, rfl⟩

/-- The sanitizer answers for the form. -/
theorem sanitizeDomSnapshot_ok_filledForm :
    ∃ (result : Value) (root : Values) (strings : List String) (documents : List Value),
      sanitizeDomSnapshot id id filledForm = .ok result ∧
      filledForm = .obj root ∧
      root.get "strings" = some (.arr (strings.map .str)) ∧
      root.get "documents" = some (.arr documents) ∧
      result = .obj (root.set "strings" (.arr ((strings.map
        (masked (Secret id id strings (documents.map Document.of)))).map .str))) ∧
      ∀ d ∈ documents.map Document.of, d.Settles id id strings := by
  obtain ⟨result, h⟩ : ∃ result, sanitizeDomSnapshot id id filledForm = .ok result :=
    exists_of_isSome (by decide +kernel)
  obtain ⟨root, strings, documents, h_all⟩ := sanitizeDomSnapshot_ok h
  exact ⟨result, root, strings, documents, h, h_all⟩

/-- A field that is its own parent does not make the sanitizer throw, nor does one whose parent is
not there. -/
theorem not_throws_ownParent :
    ((Document.of (documentOf [(0, 0, [])])).parentIndex = [0] ∧
      ∃ result, sanitizeDomSnapshot id id (snapshotOf ["INPUT"] (documentOf [(0, 0, [])])) =
        .ok result) ∧
    ((Document.of (documentOf [(0, 5, [])])).parentIndex = [5] ∧
      ∃ result, sanitizeDomSnapshot id id (snapshotOf ["INPUT"] (documentOf [(0, 5, [])])) =
        .ok result) :=
  ⟨⟨by decide +kernel, exists_of_isSome (by decide +kernel)⟩,
    by decide +kernel, exists_of_isSome (by decide +kernel)⟩

end BrowserControl.Redaction
