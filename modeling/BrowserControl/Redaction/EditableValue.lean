import BrowserControl.Redaction.Accessibility

/-!
# What an accessibility tree shows of a text that is edited

The sanitizer of accessibility trees replaces texts by their place, and Chrome copies what a user
types into other places: the name of a heading or of a label is computed from its content. So the
text of a field can be seen in the name of a node that is not below the field.

`sanitizeAccessibilitySnapshot_hides` says exactly when nothing can be seen: no text that is left
contains what was typed, and the marker does not either where it is put. Which texts are left is
said by the tree alone. A node is *covered* if it is editable or below an editable node, and no
later node has its id; the texts of covered nodes are replaced, and so is the value of a node with
an editable role.
-/

namespace BrowserControl.Redaction

open Transition

/-- The text of a computed value. -/
def valueText (value : Value) : Option String := (value.get "value").bind Value.asString

/-- The string of a node's name, value or description. -/
def fieldText (node : Value) (field : String) : Option String := (node.get field).bind valueText

/-- The members of a node that hold texts. -/
def textFields : List String := ["name", "value", "description"]

/-- The elements of an array. -/
def elements : Option Value → List Value
  | some (.arr items) => items
  | _ => []

/-- The nodes of a tree. -/
def treeNodes (snapshot : Value) : List Value := elements (snapshot.get "nodes")

variable (lower : String → String) (text : Value → String)

section

variable (nodes : List Value)

/-- A text that stands in an editable node. -/
def Typed (t : String) : Prop :=
  t ≠ "" ∧ ∃ node ∈ nodes, node.isObject ∧ editable lower text node ∧
    fieldText node "value" = some t

/-- An editable node has this id, or one above the node with this id does. -/
def Below (id : String) : Prop :=
  ∃ node ∈ nodes, node.isObject ∧ editable lower text node ∧
    Relation.ReflTransGen (Worklist.Step (children text nodes)) (nodeID text node) id

/-- The node at this place is editable or below an editable node, and is the last with its id. -/
def Covered (i : ℕ) (node : Value) : Prop :=
  node.isObject ∧ Below lower text nodes (nodeID text node) ∧
    ∀ j later, i < j → nodes[j]? = some later → later.isObject →
      nodeID text later ≠ nodeID text node

/-- The field is the value of a node with an editable role. -/
def OwnValue (node : Value) (field : String) : Prop :=
  field = "value" ∧ roleValue lower node ∈ editableRoles ∧
    ∃ item, node.get "value" = some (.obj item)

/-- Where a text is left it does not contain what was typed, and where it is replaced the marker
does not. -/
def Hidden : Prop :=
  ∀ t, Typed lower text nodes t → ∀ (i : ℕ) (node : Value), nodes[i]? = some node →
    ∀ field ∈ textFields,
      (OwnValue lower node field ∨ Covered lower text nodes i node ∧ (fieldText node field).isSome →
        ¬ includes redacted t) ∧
      (¬ OwnValue lower node field → ¬ Covered lower text nodes i node →
        ∀ s, fieldText node field = some s → ¬ includes s t)

end

variable {lower text}

/-! ### Covered nodes -/

/-- The sensitive ids are those below an editable node. -/
theorem mem_sensitiveIDs {nodes : List Value} {id : String} :
    id ∈ sensitiveIDs lower text nodes ↔ Below lower text nodes id := by
  rw [sensitiveIDs, Worklist.mem_search]
  simp only [List.mem_map, List.mem_filter, Bool.and_eq_true]
  constructor
  · rintro ⟨_, ⟨node, ⟨h_mem, h_object, h_editable⟩, rfl⟩, h_reach⟩
    exact ⟨node, h_mem, h_object, h_editable, h_reach⟩
  · rintro ⟨node, h_mem, h_object, h_editable, h_reach⟩
    exact ⟨_, ⟨node, ⟨h_mem, h_object, h_editable⟩, rfl⟩, h_reach⟩

/-- The node at a place after the last loop. -/
theorem getElem?_redactNodes {sensitive : List String} {nodes : List Value} {i : ℕ} {node : Value}
    (h : nodes[i]? = some node) :
    (node.isObject ∧ nodeID text node ∈ sensitive ∧
        (∀ j later, i < j → nodes[j]? = some later → later.isObject →
          nodeID text later ≠ nodeID text node) ∧
        (redactNodes text sensitive nodes)[i]? = some (redactNode node)) ∨
      (¬ (node.isObject ∧ nodeID text node ∈ sensitive ∧
        ∀ j later, i < j → nodes[j]? = some later → later.isObject →
          nodeID text later ≠ nodeID text node) ∧
        (redactNodes text sensitive nodes)[i]? = some node) := by
  induction nodes generalizing i with
  | nil => cases h
  | cons first rest ih =>
    cases i with
    | zero =>
      rw [List.getElem?_cons_zero, Option.some_inj] at h
      subst h
      -- A later place is one of the rest.
      have h_later : (∀ later ∈ rest, later.isObject → nodeID text later ≠ nodeID text first) ↔
          ∀ j later, 0 < j → (first :: rest)[j]? = some later → later.isObject →
            nodeID text later ≠ nodeID text first := by
        constructor
        · intro h_rest j later h_j h_get
          obtain ⟨k, rfl⟩ : ∃ k, j = k + 1 := ⟨j - 1, by omega⟩
          exact h_rest later (List.mem_of_getElem? h_get)
        · intro h_all later h_mem
          obtain ⟨k, h_k⟩ := List.mem_iff_getElem?.mp h_mem
          exact h_all (k + 1) later (Nat.succ_pos k) h_k
      rw [redactNodes, List.getElem?_cons_zero, ← h_later]
      by_cases h_all : first.isObject ∧ nodeID text first ∈ sensitive ∧
          ∀ later ∈ rest, later.isObject → nodeID text later ≠ nodeID text first
      · rw [if_pos h_all]
        exact .inl ⟨h_all.1, h_all.2.1, h_all.2.2, rfl⟩
      · rw [if_neg h_all]
        exact .inr ⟨h_all, rfl⟩
    -- and a place of the rest is redacted by the recursion
    | succ i =>
      have h_shift : (∀ j later, i < j → rest[j]? = some later → later.isObject →
            nodeID text later ≠ nodeID text node) ↔
          ∀ j later, i + 1 < j → (first :: rest)[j]? = some later → later.isObject →
            nodeID text later ≠ nodeID text node := by
        constructor
        · intro h_rest j later h_j h_get
          obtain ⟨k, rfl⟩ : ∃ k, j = k + 1 := ⟨j - 1, by omega⟩
          exact h_rest k later (Nat.lt_of_succ_lt_succ h_j) h_get
        · intro h_all j later h_j h_get
          exact h_all (j + 1) later (Nat.succ_lt_succ h_j) h_get
      rw [redactNodes, List.getElem?_cons_succ, ← h_shift]
      exact ih h

/-- What becomes of a node of the tree. -/
theorem getElem?_redactNodes_sensitiveIDs {nodes : List Value} {i : ℕ} {node : Value}
    (h : nodes[i]? = some node) :
    (Covered lower text nodes i node ∧
        (redactNodes text (sensitiveIDs lower text nodes) nodes)[i]? = some (redactNode node)) ∨
      (¬ Covered lower text nodes i node ∧
        (redactNodes text (sensitiveIDs lower text nodes) nodes)[i]? = some node) := by
  unfold Covered
  rw [← mem_sensitiveIDs]
  rcases getElem?_redactNodes h with ⟨h_object, h_id, h_last, h_get⟩ | h_not
  · exact .inl ⟨⟨h_object, h_id, h_last⟩, h_get⟩
  · exact .inr h_not

/-- No node is lost. -/
theorem length_redactNodes (sensitive : List String) (nodes : List Value) :
    (redactNodes text sensitive nodes).length = nodes.length := by
  induction nodes with
  | nil => rfl
  | cons node rest ih => rw [redactNodes, List.length_cons, List.length_cons, ih]

/-! ### What an item keeps -/

/-- A string is left as it is. -/
theorem asString_visit (v : Value) : (visit lower text v).asString = v.asString := by
  cases v with
  | str s => rw [visit_str]
  | arr items => rw [visit_arr]; rfl
  | obj item => rw [visit_obj]; rfl
  | _ => rw [visit] <;> simp

/-- A value that is hidden is no other string than it was. -/
theorem asString_hideValue (v : Value) : (hideValue v).asString = v.asString := by
  cases v with
  | _ => rfl

/-- The role depends on one member only. -/
theorem roleValue_congr {item item' : Values} (h : item.get "role" = item'.get "role") :
    roleValue lower (.obj item) = roleValue lower (.obj item') := by
  have h_get : (Value.obj item).get "role" = (Value.obj item').get "role" := h
  unfold roleValue
  rw [h_get]

theorem get_redactEditableTree_of_ne {item : Values} {k : String} (h : k ≠ "nodes") :
    (redactEditableTree lower text item).get k = item.get k := by
  unfold redactEditableTree
  split
  · rw [Values.get_set, if_neg h.symm]
  · rfl

theorem get_redactProperties_of_ne {item : Values} {k : String} (h : k ≠ "properties") :
    (redactProperties lower text item).get k = item.get k := by
  unfold redactProperties
  split
  · rw [Values.get_set, if_neg h.symm]
  · rfl

theorem get_redactOwnValue_of_ne {item : Values} {k : String} (h : k ≠ "value") :
    (redactOwnValue lower item).get k = item.get k := by
  unfold redactOwnValue
  split
  · split_ifs
    · rw [Values.get_set, if_neg h.symm]
    · rfl
  · rfl

/-- The own value is hidden where the role is editable. -/
theorem get_redactOwnValue {item : Values} : (redactOwnValue lower item).get "value" =
    (item.get "value").map fun v =>
      if roleValue lower (.obj item) ∈ editableRoles then hideValue v else v := by
  unfold redactOwnValue
  split
  case h_1 v h_v =>
    rw [h_v, Option.map_some]
    split_ifs
    · rw [Values.get_set, if_pos rfl]
    · exact h_v
  case h_2 h_none =>
    rw [h_none]
    rfl

/-- The members of an item that are only visited. -/
theorem get_redactItem {item : Values} {k : String}
    (h : k ≠ "nodes" ∧ k ≠ "value" ∧ k ≠ "properties") :
    (redactItem lower text item).get k = item.get k := by
  rw [redactItem, get_redactProperties_of_ne h.2.2, get_redactOwnValue_of_ne h.2.1,
    get_redactEditableTree_of_ne h.1]

/-- So it is in the whole item. -/
theorem get_redactItem_value {item : Values} : (redactItem lower text item).get "value" =
    (item.get "value").map fun v =>
      if roleValue lower (.obj item) ∈ editableRoles then hideValue v else v := by
  have h_role : roleValue lower (.obj (redactEditableTree lower text item)) =
      roleValue lower (.obj item) :=
    roleValue_congr (get_redactEditableTree_of_ne (by decide))
  rw [redactItem, get_redactProperties_of_ne (by decide), get_redactOwnValue, h_role,
    get_redactEditableTree_of_ne (by decide)]

/-- The nodes of an item are those of the tree. -/
theorem get_redactItem_nodes {item : Values} :
    (redactItem lower text item).get "nodes" =
      (redactEditableTree lower text item).get "nodes" := by
  rw [redactItem, get_redactProperties_of_ne (by decide), get_redactOwnValue_of_ne (by decide)]

/-- The members of an object are visited. -/
theorem get_visit {item : Values} (k : String) :
    (visit lower text (.obj item)).get k =
      ((redactItem lower text item).get k).map (visit lower text) := by
  rw [visit_obj]
  exact Values.get_map (f := fun m => (m.1, visit lower text m.2)) (fun _ => rfl) _ k

/-! ### The texts of a node -/

/-- A visit leaves the text of a computed value. -/
theorem valueText_visit (v : Value) : valueText (visit lower text v) = valueText v := by
  cases v with
  | obj item =>
    unfold valueText
    rw [get_visit, get_redactItem_value]
    show _ = (Values.get item "value").bind Value.asString
    -- Neither the walk nor the hiding changes a string at the top.
    cases Values.get item "value" with
    | none => rfl
    | some v =>
      rw [Option.map_some, Option.map_some, Option.bind_some, Option.bind_some, asString_visit]
      split_ifs
      · rw [asString_hideValue]
      · rfl
  | arr items =>
    rw [visit_arr]
    rfl
  | str s => rw [visit_str]
  | _ => rw [visit] <;> simp

/-- The marker is put where there is a text. -/
theorem valueText_redactValueTree (v : Value) :
    valueText (redactValueTree v) = (valueText v).map fun _ => redacted := by
  cases v with
  | obj item =>
    unfold valueText
    show (Values.get (redactMembers item) "value").bind _ = ((Values.get item "value").bind _).map _
    -- the member `value` is the only one that is asked for
    induction item with
    | nil => rfl
    | cons m item ih =>
      have h_key : (redactMember m).1 = m.1 := by
        obtain ⟨k, v⟩ := m
        cases v with
        | _ => rfl
      rw [redactMembers, Values.get_cons, Values.get_cons, h_key]
      by_cases h : m.1 = "value"
      · rw [if_pos h, if_pos h]
        obtain ⟨k, v⟩ := m
        obtain rfl : k = "value" := h
        cases v with
        | _ => rfl
      · rw [if_neg h, if_neg h]
        exact ih
  | _ => rfl

/-- The texts of a node are hidden, and its other members stay. -/
theorem get_redactNode (item : Values) (k : String) : (redactNode (.obj item)).get k =
    (item.get k).map (if k ∈ textFields then redactValueTree else id) := by
  refine (Values.get_map ?_ item k).trans ?_
  · intro m
    split_ifs <;> rfl
  · congr 1
    funext v
    show (if k ∈ textFields then (k, redactValueTree v) else (k, v)).2 = _
    split_ifs <;> rfl

/-- The fields of a node after the last loop. -/
theorem fieldText_redactNode {node : Value} {field : String} (h : field ∈ textFields) :
    fieldText (redactNode node) field = (fieldText node field).map fun _ => redacted := by
  cases node with
  | obj item =>
    unfold fieldText
    rw [get_redactNode, if_pos h]
    show _ = ((Values.get item field).bind valueText).map _
    cases Values.get item field with
    | none => rfl
    | some v => exact valueText_redactValueTree v
  | _ => rfl

/-- The last loop does not change the role of a node, nor whether it has a value. -/
theorem ownValue_redactNode {node : Value} {field : String} :
    OwnValue lower (redactNode node) field ↔ OwnValue lower node field := by
  cases node with
  | obj item =>
    -- The redaction of a node leaves its role alone.
    have h_role : roleValue lower (redactNode (.obj item)) = roleValue lower (.obj item) := by
      unfold roleValue
      rw [get_redactNode, if_neg (by decide), Option.map_id]
      rfl
    unfold OwnValue
    rw [h_role, get_redactNode, if_pos (by decide)]
    refine and_congr_right fun _ => and_congr_right fun _ => ?_
    show _ ↔ ∃ item', Values.get item "value" = some (.obj item')
    cases Values.get item "value" with
    | none => simp
    | some v =>
      cases v with
      | _ => simp [redactValueTree]
  | _ => rfl

/-- The fields of a node after its visit. -/
theorem fieldText_visit {node : Value} {field : String} (h : field ∈ textFields) :
    (OwnValue lower node field → fieldText (visit lower text node) field = some redacted) ∧
      (¬ OwnValue lower node field →
        fieldText (visit lower text node) field = fieldText node field) := by
  cases node with
  | obj item =>
    unfold fieldText
    rw [get_visit]
    show (_ → _) ∧ (_ → _ = (Values.get item field).bind valueText)
    -- `value` is the field that the walk may replace
    by_cases h_value : field = "value"
    · subst h_value
      rw [get_redactItem_value]
      constructor
      · rintro ⟨-, h_role, item', h_get⟩
        rw [show Values.get item "value" = some (.obj item') from h_get, Option.map_some,
          Option.map_some, Option.bind_some, if_pos h_role, valueText_visit]
        show (Values.get (Values.set item' "value" (.str redacted)) "value").bind _ = _
        rw [Values.get_set, if_pos rfl]
        rfl
      · intro h_not
        cases h_get : Values.get item "value" with
        | none => rfl
        | some v =>
          rw [Option.map_some, Option.map_some, Option.bind_some, Option.bind_some,
            valueText_visit]
          split_ifs with h_role
          · cases v with
            | obj item' => exact absurd ⟨rfl, h_role, item', h_get⟩ h_not
            | _ => rfl
          · rfl
    · have h_ne : field ≠ "nodes" ∧ field ≠ "value" ∧ field ≠ "properties" := by
        refine ⟨?_, h_value, ?_⟩ <;>
        · rintro rfl
          exact absurd h (by decide)
      rw [get_redactItem h_ne]
      refine ⟨fun h_own => absurd h_own.1 h_value, fun _ => ?_⟩
      cases Values.get item field with
      | none => rfl
      | some v => exact valueText_visit v
  -- Only an object has a role, and so a value of its own.
  | arr items =>
    rw [visit_arr]
    refine ⟨?_, fun _ => rfl⟩
    rintro ⟨-, -, item, h_get⟩
    cases h_get
  | str s =>
    rw [visit_str]
    refine ⟨?_, fun _ => rfl⟩
    rintro ⟨-, -, item, h_get⟩
    cases h_get
  | _ =>
    rw [visit] <;> simp [OwnValue, Value.get]

/-! ### The tree -/

/-- The nodes of the sanitized tree. -/
theorem treeNodes_sanitize (snapshot : Value) :
    treeNodes (sanitizeAccessibilitySnapshot lower text snapshot) =
      (redactNodes text (sensitiveIDs lower text (treeNodes snapshot)) (treeNodes snapshot)).map
        (visit lower text) := by
  unfold sanitizeAccessibilitySnapshot
  cases snapshot with
  | obj root =>
    unfold treeNodes
    rw [get_visit, get_redactItem_nodes, show (Value.obj root).get "nodes" = Values.get root "nodes"
      from rfl]
    cases h_nodes : Values.get root "nodes" with
    -- no list of nodes: there is nothing to show
    | none =>
      rw [redactEditableTree, h_nodes, h_nodes]
      rfl
    | some v =>
      cases v with
      | arr nodes =>
        rw [redactEditableTree, h_nodes, Values.get_set, if_pos rfl, Option.map_some, visit_arr]
        rfl
      | obj item =>
        rw [redactEditableTree, h_nodes, h_nodes, Option.map_some, visit_obj]
        rfl
      | str s =>
        rw [redactEditableTree, h_nodes, h_nodes, Option.map_some, visit_str]
        rfl
      | _ =>
        rw [redactEditableTree, h_nodes, h_nodes, Option.map_some, visit] <;>
          simp [elements, redactNodes]
  | arr items =>
    rw [visit_arr]
    rfl
  | str s =>
    rw [visit_str]
    rfl
  | _ =>
    rw [visit] <;> simp [treeNodes, Value.get, elements, redactNodes]

/-- The texts of the sanitized tree: what is left and what is replaced. -/
theorem fieldText_sanitize {nodes : List Value} {i : ℕ} {node : Value} (h : nodes[i]? = some node)
    {field : String} (h_field : field ∈ textFields) :
    ∃ node', ((redactNodes text (sensitiveIDs lower text nodes) nodes).map
        (visit lower text))[i]? = some node' ∧
      (OwnValue lower node field → fieldText node' field = some redacted) ∧
      (¬ OwnValue lower node field → Covered lower text nodes i node →
        fieldText node' field = (fieldText node field).map fun _ => redacted) ∧
      (¬ OwnValue lower node field → ¬ Covered lower text nodes i node →
        fieldText node' field = fieldText node field) := by
  rw [List.getElem?_map]
  -- the node was covered, or left as it is, before the walk came
  rcases getElem?_redactNodes_sensitiveIDs h with
    ⟨h_covered, h_get⟩ | ⟨h_not, h_get⟩
  · obtain ⟨h_own, h_other⟩ := fieldText_visit h_field
    rw [ownValue_redactNode] at h_own h_other
    rw [h_get]
    refine ⟨_, rfl, h_own, fun h_not _ => ?_, fun _ h_not => absurd h_covered h_not⟩
    rw [h_other h_not, fieldText_redactNode h_field]
  · obtain ⟨h_own, h_other⟩ := fieldText_visit h_field
    rw [h_get]
    exact ⟨_, rfl, h_own, fun _ h_covered => absurd h_covered h_not, fun h _ => h_other h⟩

/-- **What a sanitized tree shows.** No text of the sanitized tree contains a text of an editable
node if and only if no text that is left does, and the marker does not where it is put. -/
theorem sanitizeAccessibilitySnapshot_hides (snapshot : Value) :
    (∀ t, Typed lower text (treeNodes snapshot) t →
      ∀ node ∈ treeNodes (sanitizeAccessibilitySnapshot lower text snapshot),
        ∀ field ∈ textFields, ∀ s, fieldText node field = some s → ¬ includes s t) ↔
      Hidden lower text (treeNodes snapshot) := by
  rw [treeNodes_sanitize]
  generalize treeNodes snapshot = nodes
  constructor
  -- what is shown at the place of the node must not contain the text
  · intro h_hides t h_t i node h_node field h_field
    obtain ⟨node', h_get, h_own, h_covered, h_left⟩ := fieldText_sanitize h_node h_field
    have h_not := h_hides t h_t node' (List.mem_of_getElem? h_get) field h_field
    constructor
    · intro h_replaced
      -- the three cases of `fieldText_sanitize`
      by_cases h : OwnValue lower node field
      · exact h_not redacted (h_own h)
      · rcases h_replaced with h_replaced | ⟨h_cov, h_some⟩
        · exact absurd h_replaced h
        · obtain ⟨s, h_s⟩ := Option.isSome_iff_exists.mp h_some
          refine h_not redacted ?_
          rw [h_covered h h_cov, h_s]
          rfl
    · intro h_other h_uncovered s h_s
      exact h_not s ((h_left h_other h_uncovered).trans h_s)
  -- what is shown is a replacement, or a text that the condition speaks about
  · intro h_hidden t h_t node' h_mem field h_field s h_s
    obtain ⟨i, h_get'⟩ := List.mem_iff_getElem?.mp h_mem
    have h_i := h_get'
    rw [List.getElem?_map, Option.map_eq_some_iff] at h_i
    obtain ⟨changed, h_changed, -⟩ := h_i
    -- There is a node at the same place of the tree.
    obtain ⟨node, h_node⟩ : ∃ node, nodes[i]? = some node := by
      have h_lt := (List.getElem?_eq_some_iff.mp h_changed).1
      rw [length_redactNodes] at h_lt
      exact ⟨_, List.getElem?_eq_getElem h_lt⟩
    obtain ⟨_, h_get, h_own, h_covered, h_left⟩ := fieldText_sanitize h_node h_field
    obtain rfl := Option.some_inj.mp (h_get'.symm.trans h_get)
    obtain ⟨h_replaced, h_kept⟩ := h_hidden t h_t i node h_node field h_field
    by_cases h : OwnValue lower node field
    · rw [h_own h, Option.some_inj] at h_s
      exact h_s ▸ h_replaced (.inl h)
    · by_cases h_cov : Covered lower text nodes i node
      · rw [h_covered h h_cov] at h_s
        obtain ⟨s', h_s', rfl⟩ := Option.map_eq_some_iff.mp h_s
        exact h_replaced (.inr ⟨h_cov, h_s' ▸ rfl⟩)
      · exact h_kept h h_cov s ((h_left h h_cov).symm.trans h_s)

/-! ### A sample -/

/-- `String` of a string. -/
def plainText (value : Value) : String := value.asString.getD ""

/-- A computed value. -/
def computed (s : String) : Value := .obj [("type", .str "computedString"), ("value", .str s)]

/-- A heading, whose name is computed from its content, with a field inside. -/
def headingTree : Value :=
  .obj [("nodes", .arr [
    .obj [("nodeId", .str "1"), ("role", computed "heading"), ("name", computed "Code 123456"),
      ("childIds", .arr [.str "2"])],
    .obj [("nodeId", .str "2"), ("role", computed "textbox"), ("name", computed "Code"),
      ("value", computed "123456")]])]

/-- Nothing editable is above the heading. -/
theorem not_below_heading : ¬ Below id plainText (treeNodes headingTree) "1" := by
  have h_nodes : treeNodes headingTree =
      [(treeNodes headingTree)[0], (treeNodes headingTree)[1]] := rfl
  have h_leaf : children plainText (treeNodes headingTree) "2" = [] := by decide
  -- The only editable node is the field, and it has no children.
  rintro ⟨node, h_mem, -, h_editable, h_reach⟩
  rw [h_nodes, List.mem_cons, List.mem_singleton] at h_mem
  rcases h_mem with rfl | rfl
  · revert h_editable
    decide
  · -- The field has no children.
    rcases Relation.ReflTransGen.cases_head h_reach with h_eq | ⟨id, h_step, -⟩
    · revert h_eq
      decide
    · have h_id : id ∈ children plainText (treeNodes headingTree) "2" := h_step
      rw [h_leaf] at h_id
      cases h_id

/-- What is typed into the field is seen in the name of the heading. -/
theorem not_hides_headingName :
    Typed id plainText (treeNodes headingTree) "123456" ∧
      ∃ node ∈ treeNodes (sanitizeAccessibilitySnapshot id plainText headingTree),
        ∃ s, fieldText node "name" = some s ∧ includes s "123456" := by
  constructor
  · refine ⟨by decide, (treeNodes headingTree)[1], List.getElem_mem .., ?_⟩
    decide
  · have h_node : (treeNodes headingTree)[0]? = some (treeNodes headingTree)[0] := rfl
    -- The heading's name is not below the field, so it stays.
    have h_name : "name" ∈ textFields := by decide
    obtain ⟨node, h_get, -, -, h_left⟩ := @fieldText_sanitize id plainText _ _ _ h_node _ h_name
    rw [treeNodes_sanitize]
    refine ⟨node, List.mem_of_getElem? h_get, "Code 123456", ?_, by decide⟩
    refine (h_left ?_ ?_).trans rfl
    · rintro ⟨h_field, -⟩
      revert h_field
      decide
    · rintro ⟨-, h_below, -⟩
      exact not_below_heading h_below

end BrowserControl.Redaction
