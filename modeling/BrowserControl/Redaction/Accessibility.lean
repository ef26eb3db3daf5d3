import BrowserControl.Redaction.Value
import BrowserControl.Transition.Worklist

/-!
# The sanitizer of accessibility trees

`Accessibility.getFullAXTree` answers with a list of nodes, each of which names its children by
their ids. `sanitizeAccessibilitySnapshot` replaces texts by their place in the tree: the name, the
value and the description of an editable node and of everything below it, and the value of a node
with an editable role. It looks for trees everywhere in the value it is given.

The source changes a copy in place; here a function returns the value with the change. `lower`
stands for `toLowerCase`, and `text` for `String`, the conversion of any value to a string.
-/

namespace BrowserControl.Redaction

open Transition

/-! ### Depth -/

mutual

/-- How deep a value is nested. -/
def Value.depth : Value → ℕ
  | .arr items => depthItems items + 1
  | .obj members => depthMembers members + 1
  | _ => 0

/-- The same for a list. -/
def depthItems : List Value → ℕ
  | [] => 0
  | v :: rest => max v.depth (depthItems rest)

/-- The same for the members of an object. -/
def depthMembers : List (String × Value) → ℕ
  | [] => 0
  | m :: rest => max (depthMember m) (depthMembers rest)

/-- The same for one member. -/
def depthMember : String × Value → ℕ
  | (_, v) => v.depth

end

/-- No item is deeper than the list. -/
theorem depthItems_le {items : List Value} {n : ℕ} :
    depthItems items ≤ n ↔ ∀ v ∈ items, v.depth ≤ n := by
  induction items with
  | nil => simp [depthItems]
  | cons v items ih => rw [depthItems, max_le_iff, ih, List.forall_mem_cons]

/-- No member is deeper than the object. -/
theorem depthMembers_le {members : List (String × Value)} {n : ℕ} :
    depthMembers members ≤ n ↔ ∀ m ∈ members, m.2.depth ≤ n := by
  induction members with
  | nil => simp [depthMembers]
  | cons m members ih => rw [depthMembers, max_le_iff, ih, List.forall_mem_cons, depthMember]

/-- Nor is a member that is found. -/
theorem depth_le_of_get {item : Values} {k : String} {v : Value} (h : item.get k = some v) :
    v.depth ≤ depthMembers item := by
  obtain ⟨m, h_m, rfl⟩ := Option.map_eq_some_iff.mp h
  exact depthMembers_le.mp le_rfl m (List.mem_of_find?_eq_some h_m)

/-- An assignment of something that is not too deep. -/
theorem depthMembers_set {item : Values} {k : String} {v : Value} {n : ℕ}
    (h : depthMembers item ≤ n) (h_v : v.depth ≤ n) : depthMembers (item.set k v) ≤ n := by
  rw [depthMembers_le] at h ⊢
  intro m h_m
  unfold Values.set at h_m
  split at h_m
  · obtain ⟨m', h_m', rfl⟩ := List.mem_map.mp h_m
    split_ifs
    · exact h_v
    · exact h m' h_m'
  · rcases List.mem_append.mp h_m with h_m | h_m
    · exact h m h_m
    · rw [List.mem_singleton.mp h_m]
      exact h_v

/-! ### Texts -/

mutual

/-- Every text below a value is replaced. -/
def redactValueTree : Value → Value
  | .arr items => .arr (redactItems items)
  | .obj members => .obj (redactMembers members)
  | v => v

/-- The same for a list. -/
def redactItems : List Value → List Value
  | [] => []
  | v :: rest => redactValueTree v :: redactItems rest

/-- The same for the members of an object. -/
def redactMembers : List (String × Value) → List (String × Value)
  | [] => []
  | m :: rest => redactMember m :: redactMembers rest

/-- The same for one member: a string under `value` is hidden. -/
def redactMember : String × Value → String × Value
  | (k, .str s) => (k, .str (if k = "value" then redacted else s))
  | (k, v) => (k, redactValueTree v)

end

/-- The member `value` of an object is replaced. An array that is given such a member still has the
same elements. -/
def hideValue : Value → Value
  | .obj item => .obj (Values.set item "value" (.str redacted))
  | v => v

/-! ### Nodes -/

/-- The roles of elements with a text that a user edits. -/
def editableRoles : List String := ["textbox", "searchbox", "combobox", "spinbutton"]

section

variable (lower : String → String) (text : Value → String)

/-- The role of a node, in lower case. -/
def roleValue (node : Value) : String :=
  match (node.get "role").bind (·.get "value") with
  | some (.str s) => lower s
  | _ => ""

/-- `String(property.name).toLowerCase()`. -/
def propertyName (property : Value) : String :=
  match property.get "name" with
  | some name => lower (text name)
  | none => lower "undefined"

/-- The node has an editable role or an editable property. -/
def editable (node : Value) : Bool :=
  decide (roleValue lower node ∈ editableRoles) ||
    match node.get "properties" with
    | some (.arr properties) =>
      properties.any fun property =>
        property.isObject && propertyName lower text property = "editable"
    | _ => false

/-- `String(node.nodeId ?? "")`. -/
def nodeID (node : Value) : String :=
  match node.get "nodeId" with
  | some .null => ""
  | some id => text id
  | none => ""

/-- The ids of the children that a node names. -/
def childIDs (node : Value) : List String :=
  match node.get "childIds" with
  | some (.arr children) => children.map text
  | _ => []

variable (nodes : List Value)

/-- The map `byID`: of several nodes with one id it keeps the last. -/
def byID (id : String) : Option Value :=
  (nodes.filter (·.isObject)).reverse.find? (nodeID text · = id)

/-- The ids of the children of a node. -/
def children (id : String) : List String := ((byID text nodes id).map (childIDs text)).getD []

/-- Where all children are. -/
def allChildren : Finset String := (nodes.flatMap (childIDs text)).toFinset

/-- A node that is found by its id. -/
theorem mem_of_byID {id : String} {node : Value} (h : byID text nodes id = some node) :
    node ∈ nodes ∧ node.isObject ∧ nodeID text node = id := by
  obtain ⟨h_mem, h_object⟩ := List.mem_filter.mp (List.mem_reverse.mp (List.mem_of_find?_eq_some h))
  exact ⟨h_mem, h_object, by simpa using List.find?_some h⟩

/-- The children of a node are among all children. -/
theorem mem_allChildren (id child : String) (h : child ∈ children text nodes id) :
    child ∈ allChildren text nodes := by
  unfold children at h
  cases h_node : byID text nodes id with
  | none =>
    rw [h_node] at h
    cases h
  | some node =>
    rw [h_node] at h
    rw [allChildren, List.mem_toFinset, List.mem_flatMap]
    exact ⟨node, (mem_of_byID text nodes h_node).1, h⟩

/-- The set `sensitive`: the ids of the editable nodes and of what is below them. -/
def sensitiveIDs : List String :=
  Worklist.search (children text nodes) (allChildren text nodes) (mem_allChildren text nodes)
    ((nodes.filter fun node => node.isObject && editable lower text node).map (nodeID text))

/-- The texts of a node are replaced. -/
def redactNode : Value → Value
  | .obj node => .obj (node.map fun m =>
      if m.1 ∈ ["name", "value", "description"] then (m.1, redactValueTree m.2) else m)
  | v => v

/-- The last loop: of several nodes with one id the last is changed. -/
def redactNodes (sensitive : List String) : List Value → List Value
  | [] => []
  | node :: rest =>
    (if node.isObject ∧ nodeID text node ∈ sensitive ∧
        ∀ later ∈ rest, later.isObject → nodeID text later ≠ nodeID text node then
      redactNode node else node) :: redactNodes sensitive rest

/-! ### The walk through the value -/

/-- `redactEditableTree` -/
def redactEditableTree (item : Values) : Values :=
  match item.get "nodes" with
  | some (.arr nodes) =>
    item.set "nodes" (.arr (redactNodes text (sensitiveIDs lower text nodes) nodes))
  | _ => item

/-- The value of an item with an editable role. -/
def redactOwnValue (item : Values) : Values :=
  match item.get "value" with
  | some v =>
    if roleValue lower (.obj item) ∈ editableRoles then item.set "value" (hideValue v) else item
  | none => item

/-- A property that holds the value. -/
def redactProperty (property : Value) : Value :=
  match property with
  | .obj entry =>
    match Values.get entry "value" with
    | some v =>
      if propertyName lower text property ∈ ["value", "valuetext"] then
        .obj (Values.set entry "value" (hideValue v))
      else property
    | none => property
  | _ => property

/-- The loop over the properties of an item. -/
def redactProperties (item : Values) : Values :=
  match item.get "properties" with
  | some (.arr properties) =>
    item.set "properties" (.arr (properties.map (redactProperty lower text)))
  | _ => item

/-- What `visit` does to an object before it goes on to its members. -/
def redactItem (item : Values) : Values :=
  redactProperties lower text (redactOwnValue lower (redactEditableTree lower text item))

/-! An item does not get deeper before its members are visited. -/

/-- To hide a value adds no depth. -/
theorem depth_hideValue (v : Value) : (hideValue v).depth ≤ v.depth := by
  cases v with
  | obj item =>
    rw [hideValue, Value.depth, Value.depth]
    exact Nat.succ_le_succ (depthMembers_set le_rfl (Nat.zero_le _))
  | _ => exact le_rfl

mutual

/-- Nor does it in a tree. -/
theorem depth_redactValueTree : ∀ v : Value, (redactValueTree v).depth = v.depth
  | .arr items => by rw [redactValueTree, Value.depth, Value.depth, depth_redactItems items]
  | .obj members => by rw [redactValueTree, Value.depth, Value.depth, depth_redactMembers members]
  | .null => rfl
  | .bool _ => rfl
  | .num _ => rfl
  | .str _ => rfl

theorem depth_redactItems : ∀ items : List Value, depthItems (redactItems items) = depthItems items
  | [] => rfl
  | v :: rest => by
    rw [redactItems, depthItems, depthItems, depth_redactValueTree v, depth_redactItems rest]

theorem depth_redactMembers : ∀ members : List (String × Value),
    depthMembers (redactMembers members) = depthMembers members
  | [] => rfl
  | m :: rest => by
    rw [redactMembers, depthMembers, depthMembers, depth_redactMember m, depth_redactMembers rest]

theorem depth_redactMember : ∀ m : String × Value, depthMember (redactMember m) = depthMember m
  | (_, .str _) => rfl
  | (_, .arr items) => depth_redactValueTree (.arr items)
  | (_, .obj members) => depth_redactValueTree (.obj members)
  | (_, .null) => rfl
  | (_, .bool _) => rfl
  | (_, .num _) => rfl

end

theorem depth_redactNode (node : Value) : (redactNode node).depth ≤ node.depth := by
  cases node with
  | obj members =>
    rw [redactNode, Value.depth, Value.depth]
    refine Nat.succ_le_succ (depthMembers_le.mpr ?_)
    intro m h_m
    obtain ⟨m', h_m', rfl⟩ := List.mem_map.mp h_m
    have h_depth : m'.2.depth ≤ depthMembers members := depthMembers_le.mp le_rfl m' h_m'
    split_ifs
    · exact (depth_redactValueTree m'.2).le.trans h_depth
    · exact h_depth
  | _ => exact le_rfl

/-- The same for the nodes of a tree. -/
theorem depth_redactNodes (sensitive : List String) (nodes : List Value) :
    depthItems (redactNodes text sensitive nodes) ≤ depthItems nodes := by
  induction nodes with
  | nil => exact le_rfl
  | cons node rest ih =>
    rw [redactNodes, depthItems, depthItems]
    refine max_le_max ?_ ih
    split_ifs
    · exact depth_redactNode node
    · exact le_rfl

theorem depth_redactProperty (property : Value) :
    (redactProperty lower text property).depth ≤ property.depth := by
  unfold redactProperty
  split
  case h_1 entry =>
    split
    case h_1 v h_v =>
      split_ifs
      · rw [Value.depth, Value.depth]
        refine Nat.succ_le_succ (depthMembers_set le_rfl ?_)
        exact (depth_hideValue v).trans (depth_le_of_get h_v)
      · exact le_rfl
    case h_2 => exact le_rfl
  case h_2 => exact le_rfl

/-- The same for an item of the snapshot. -/
theorem depth_redactItem (item : Values) :
    depthMembers (redactItem lower text item) ≤ depthMembers item := by
  -- None of the three changes makes the object deeper.
  have h_tree : depthMembers (redactEditableTree lower text item) ≤ depthMembers item := by
    unfold redactEditableTree
    split
    case h_1 nodes h_nodes =>
      refine depthMembers_set le_rfl ?_
      refine le_trans ?_ (depth_le_of_get h_nodes)
      rw [Value.depth, Value.depth]
      exact Nat.succ_le_succ (depth_redactNodes ..)
    case h_2 => exact le_rfl
  have h_value (item : Values) : depthMembers (redactOwnValue lower item) ≤ depthMembers item := by
    unfold redactOwnValue
    split
    case h_1 v h_v =>
      split_ifs
      · exact depthMembers_set le_rfl ((depth_hideValue v).trans (depth_le_of_get h_v))
      · exact le_rfl
    case h_2 => exact le_rfl
  have h_properties (item : Values) :
      depthMembers (redactProperties lower text item) ≤ depthMembers item := by
    unfold redactProperties
    split
    case h_1 properties h_some =>
      refine depthMembers_set le_rfl ?_
      refine le_trans ?_ (depth_le_of_get h_some)
      rw [Value.depth, Value.depth]
      refine Nat.succ_le_succ (depthItems_le.mpr ?_)
      intro v h_v
      obtain ⟨property, h_mem, rfl⟩ := List.mem_map.mp h_v
      exact (depth_redactProperty lower text property).trans
        (depthItems_le.mp le_rfl property h_mem)
    case h_2 => exact le_rfl
  calc depthMembers (redactItem lower text item)
      ≤ depthMembers (redactOwnValue lower (redactEditableTree lower text item)) :=
        h_properties _
    _ ≤ depthMembers (redactEditableTree lower text item) := h_value _
    _ ≤ depthMembers item := h_tree

/-- `visit`: an object is changed, and then its members are visited. -/
def visit : Value → Value
  | .arr items => .arr (items.attach.map fun v => visit v.1)
  | .obj item =>
    .obj ((redactItem lower text item).attach.map fun m => (m.1.1, visit m.1.2))
  | v => v
termination_by v => v.depth
decreasing_by
  · rw [Value.depth]
    exact Nat.lt_succ_of_le (depthItems_le.mp le_rfl v.1 v.2)
  · rw [Value.depth]
    refine Nat.lt_succ_of_le ((depthMembers_le.mp le_rfl m.1 m.2).trans ?_)
    exact depth_redactItem lower text item

/-- `sanitizeAccessibilitySnapshot` -/
def sanitizeAccessibilitySnapshot (snapshot : Value) : Value := visit lower text snapshot

@[simp] theorem visit_str (s : String) : visit lower text (.str s) = .str s := by
  rw [visit] <;> simp

/-- A list is visited item by item. -/
theorem visit_arr (items : List Value) :
    visit lower text (.arr items) = .arr (items.map (visit lower text)) := by
  rw [visit]
  simp

/-- An object is redacted, and then visited member by member. -/
theorem visit_obj (item : Values) : visit lower text (.obj item) =
    .obj ((redactItem lower text item).map fun m => (m.1, visit lower text m.2)) := by
  rw [visit]
  exact congrArg Value.obj
    (List.attach_map_val (f := fun m : String × Value => (m.1, visit lower text m.2)))

end

end BrowserControl.Redaction
