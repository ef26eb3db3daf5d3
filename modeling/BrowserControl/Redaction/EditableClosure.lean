import BrowserControl.Redaction.EditableValue

/-!
# What the sanitizer of accessibility trees replaces

The last loop of `redactEditableTree` replaces texts below the editable nodes, and the walk through
the value goes on to replace more. So the tree is looked at twice, and what is said of it has to
survive both: a text that is replaced stays so (`Value.Marked.visit`), and what is not replaced by
the first does not fall to the second (`visit_eq_self`).

`sanitizeAccessibilitySnapshot_nodes` says this of each node of a tree, whether its child ids are
shared, lead nowhere or in circles. What the protocol gives for the name of a node has no role, no
properties and no nodes of its own (`Value.Plain`).
-/

namespace BrowserControl.Redaction

open Transition

/-! ### Members at any depth -/

mutual

/-- Each member of an object in the value has the property `p`. -/
def Value.AllMembers (p : String → Value → Prop) : Value → Prop
  | .arr items => allItems p items
  | .obj members => allMembers p members
  | _ => True

/-- The same for a list. -/
def allItems (p : String → Value → Prop) : List Value → Prop
  | [] => True
  | v :: rest => v.AllMembers p ∧ allItems p rest

/-- The same for the members of an object. -/
def allMembers (p : String → Value → Prop) : List (String × Value) → Prop
  | [] => True
  | m :: rest => allMember p m ∧ allMembers p rest

/-- The same for one member. -/
def allMember (p : String → Value → Prop) : String × Value → Prop
  | (k, v) => p k v ∧ v.AllMembers p

end

mutual

/-- Each member of an object in the value goes through `f`, those below it first. -/
def Value.mapMembers (f : String → Value → Value) : Value → Value
  | .arr items => .arr (mapItems f items)
  | .obj members => .obj (mapMembers f members)
  | v => v

/-- The same for a list. -/
def mapItems (f : String → Value → Value) : List Value → List Value
  | [] => []
  | v :: rest => v.mapMembers f :: mapItems f rest

/-- The same for the members of an object. -/
def mapMembers (f : String → Value → Value) : List (String × Value) → List (String × Value)
  | [] => []
  | m :: rest => mapMember f m :: mapMembers f rest

/-- The same for one member. -/
def mapMember (f : String → Value → Value) : String × Value → String × Value
  | (k, v) => (k, f k (v.mapMembers f))

end

/-- It is said of every item. -/
theorem allItems_iff {p : String → Value → Prop} {items : List Value} :
    allItems p items ↔ ∀ v ∈ items, v.AllMembers p := by
  induction items with
  | nil => simp [allItems]
  | cons v items ih => rw [allItems, List.forall_mem_cons, ih]

/-- It is said of every member. -/
theorem allMembers_iff {p : String → Value → Prop} {members : List (String × Value)} :
    allMembers p members ↔ ∀ m ∈ members, p m.1 m.2 ∧ m.2.AllMembers p := by
  induction members with
  | nil => simp [allMembers]
  | cons m members ih => rw [allMembers, List.forall_mem_cons, ih, allMember]

/-- What is found under a name is a member. -/
theorem Values.mem_of_get {item : Values} {k : String} {v : Value} (h : item.get k = some v) :
    (k, v) ∈ item := by
  obtain ⟨m, h_find, rfl⟩ := Option.map_eq_some_iff.mp h
  have h_k : m.1 = k := by simpa using List.find?_some h_find
  rw [← h_k]
  exact List.mem_of_find?_eq_some h_find

/-- The members after an assignment are the old ones, and the new one. -/
theorem Values.eq_or_mem_of_mem_set {item : Values} {k : String} {v : Value} {m : String × Value}
    (h : m ∈ item.set k v) : m = (k, v) ∨ m ∈ item := by
  unfold Values.set at h
  split at h
  · obtain ⟨m', h_m', rfl⟩ := List.mem_map.mp h
    split_ifs
    · exact .inl rfl
    · exact .inr h_m'
  · rcases List.mem_append.mp h with h | h
    · exact .inr h
    · exact .inl (List.mem_singleton.mp h)

/-- A member that is set has to meet it. -/
theorem allMembers_set {p : String → Value → Prop} {item : Values} {k : String} {v : Value}
    (h : allMembers p item) (h_v : p k v ∧ v.AllMembers p) : allMembers p (item.set k v) := by
  rw [allMembers_iff] at h ⊢
  intro m h_m
  rcases Values.eq_or_mem_of_mem_set h_m with rfl | h_m
  · exact h_v
  · exact h m h_m

/-- Each string that is called `value` is the marker. -/
def Value.Marked (v : Value) : Prop :=
  v.AllMembers fun k v => k = "value" → ∀ s, v = .str s → s = redacted

/-- The value with the marker for each string that is called `value`. -/
def Value.withMarker : Value → Value :=
  Value.mapMembers fun k v => if k = "value" ∧ v.asString.isSome then .str redacted else v

/-- No object has members that make it a node, or a tree. -/
def Value.Plain (v : Value) : Prop := v.AllMembers fun k _ => k ∉ ["nodes", "role", "properties"]

variable {lower : String → String} {text : Value → String}

/-! ### What is replaced stays replaced -/

mutual

/-- Every text below a value is replaced. -/
theorem Value.marked_redactValueTree : ∀ v : Value, (redactValueTree v).Marked
  | .arr items => marked_redactItems items
  | .obj members => marked_redactMembers members
  | .null => trivial
  | .bool _ => trivial
  | .num _ => trivial
  | .str _ => trivial

theorem marked_redactItems : ∀ items : List Value,
    allItems (fun k v => k = "value" → ∀ s, v = .str s → s = redacted) (redactItems items)
  | [] => trivial
  | v :: rest => ⟨v.marked_redactValueTree, marked_redactItems rest⟩

theorem marked_redactMembers : ∀ members : List (String × Value),
    allMembers (fun k v => k = "value" → ∀ s, v = .str s → s = redacted) (redactMembers members)
  | [] => trivial
  | m :: rest => ⟨marked_redactMember m, marked_redactMembers rest⟩

theorem marked_redactMember : ∀ m : String × Value,
    allMember (fun k v => k = "value" → ∀ s, v = .str s → s = redacted) (redactMember m)
  | (k, .str s) => by
    refine ⟨fun h_k t h => ?_, trivial⟩
    rw [if_pos h_k] at h
    exact (Value.str.inj h).symm
  | (_, .arr items) => ⟨fun _ _ h => (by cases h), marked_redactItems items⟩
  | (_, .obj members) => ⟨fun _ _ h => (by cases h), marked_redactMembers members⟩
  | (_, .null) => ⟨fun _ _ h => (by cases h), trivial⟩
  | (_, .bool _) => ⟨fun _ _ h => (by cases h), trivial⟩
  | (_, .num _) => ⟨fun _ _ h => (by cases h), trivial⟩

end

mutual

/-- Exactly the texts below a value are replaced. -/
theorem redactValueTree_eq_withMarker : ∀ v : Value, redactValueTree v = v.withMarker
  | .arr items => congrArg Value.arr (redactItems_eq_mapItems items)
  | .obj members => congrArg Value.obj (redactMembers_eq_mapMembers members)
  | .null => rfl
  | .bool _ => rfl
  | .num _ => rfl
  | .str _ => rfl

theorem redactItems_eq_mapItems : ∀ items : List Value, redactItems items =
    mapItems (fun k v => if k = "value" ∧ v.asString.isSome then .str redacted else v) items
  | [] => rfl
  | v :: rest => congrArg₂ List.cons (redactValueTree_eq_withMarker v)
      (redactItems_eq_mapItems rest)

theorem redactMembers_eq_mapMembers : ∀ members : List (String × Value), redactMembers members =
    mapMembers (fun k v => if k = "value" ∧ v.asString.isSome then .str redacted else v) members
  | [] => rfl
  | m :: rest => congrArg₂ List.cons (redactMember_eq_mapMember m)
      (redactMembers_eq_mapMembers rest)

theorem redactMember_eq_mapMember : ∀ m : String × Value, redactMember m =
    mapMember (fun k v => if k = "value" ∧ v.asString.isSome then .str redacted else v) m
  | (k, .str s) => by
    rw [redactMember, mapMember]
    refine Prod.ext rfl ?_
    by_cases h : k = "value"
    · rw [if_pos h]
      exact (if_pos ⟨h, rfl⟩).symm
    · rw [if_neg h]
      exact (if_neg fun h' => h h'.1).symm
  -- What is no string is replaced below only.
  | (_, .arr items) => by
    rw [redactMember, mapMember, redactValueTree_eq_withMarker (.arr items), if_neg]
    · rfl
    · rintro ⟨-, ⟨⟩⟩
    · rintro _ ⟨⟩
  | (_, .obj members) => by
    rw [redactMember, mapMember, redactValueTree_eq_withMarker (.obj members), if_neg]
    · rfl
    · rintro ⟨-, ⟨⟩⟩
    · rintro _ ⟨⟩
  | (_, .null) => Prod.ext rfl (if_neg fun h => Bool.false_ne_true h.2).symm
  | (_, .bool _) => Prod.ext rfl (if_neg fun h => Bool.false_ne_true h.2).symm
  | (_, .num _) => Prod.ext rfl (if_neg fun h => Bool.false_ne_true h.2).symm

end

/-- A value with a string is that string. -/
theorem eq_str_of_asString {v : Value} {s : String} (h : v.asString = some s) : v = .str s := by
  cases v with
  | str t => exact congrArg Value.str (Option.some.inj h)
  | _ => cases h

/-- A string is left as it is. -/
theorem asString_redactValueTree (v : Value) : (redactValueTree v).asString = v.asString := by
  cases v with
  | _ => rfl

/-- To hide a value leaves what is marked. -/
theorem Value.Marked.hideValue {v : Value} (h : v.Marked) : (hideValue v).Marked := by
  cases v with
  | obj item =>
    refine allMembers_set h ⟨fun _ s h_s => ?_, trivial⟩
    exact (Value.str.inj h_s).symm
  | _ => exact h

/-- The text of a node is replaced once more. -/
theorem Value.Marked.redactNode {node : Value} (h : node.Marked) : (redactNode node).Marked := by
  cases node with
  | obj item =>
    refine allMembers_iff.mpr fun m h_m => ?_
    obtain ⟨m', h_m', rfl⟩ := List.mem_map.mp h_m
    obtain ⟨h_value, h_below⟩ := allMembers_iff.mp h m' h_m'
    split_ifs
    · refine ⟨fun h_k s h_s => ?_, m'.2.marked_redactValueTree⟩
      have h_text : redactValueTree m'.2 = .str s := h_s
      refine h_value h_k s (eq_str_of_asString ?_)
      rw [← asString_redactValueTree, h_text]
      rfl
    · exact ⟨h_value, h_below⟩
  | _ => exact h

/-- So do the nodes of a tree. -/
theorem marked_redactNodes {nodes : List Value} (h : ∀ node ∈ nodes, node.Marked)
    (sensitive : List String) : ∀ node ∈ redactNodes text sensitive nodes, node.Marked := by
  induction nodes with
  | nil => exact h
  | cons node rest ih =>
    rw [List.forall_mem_cons] at h
    rw [redactNodes, List.forall_mem_cons]
    refine ⟨?_, ih h.2⟩
    split_ifs
    · exact h.1.redactNode
    · exact h.1

/-- The member `value` of an item is hidden. -/
theorem marked_set_hideValue {item : Values} (h : (Value.obj item).Marked) {v : Value}
    (h_v : item.get "value" = some v) :
    (Value.obj (item.set "value" (hideValue v))).Marked := by
  obtain ⟨h_value, h_below⟩ := allMembers_iff.mp h _ (Values.mem_of_get h_v)
  refine allMembers_set h ⟨fun _ s h_s => ?_, Value.Marked.hideValue h_below⟩
  refine h_value rfl s (eq_str_of_asString ?_)
  show v.asString = some s
  rw [← asString_hideValue, h_s]
  rfl

/-- So does a property. -/
theorem Value.Marked.redactProperty {property : Value} (h : property.Marked) :
    (redactProperty lower text property).Marked := by
  unfold Redaction.redactProperty
  split
  case h_1 entry =>
    split
    case h_1 v h_v =>
      split_ifs
      · exact marked_set_hideValue h h_v
      · exact h
    case h_2 => exact h
  case h_2 => exact h

/-- So does an item of the snapshot. -/
theorem Value.Marked.redactItem {item : Values} (h : (Value.obj item).Marked) :
    (Value.obj (redactItem lower text item)).Marked := by
  -- Each of the three changes marks values, or leaves them.
  have h_tree : (Value.obj (redactEditableTree lower text item)).Marked := by
    unfold redactEditableTree
    split
    case h_1 nodes h_nodes =>
      have h_below := (allMembers_iff.mp h _ (Values.mem_of_get h_nodes)).2
      refine allMembers_set h ⟨fun h_k => absurd h_k (by decide), allItems_iff.mpr ?_⟩
      exact marked_redactNodes (allItems_iff.mp h_below) _
    case h_2 => exact h
  have h_value (item : Values) (h : (Value.obj item).Marked) :
      (Value.obj (redactOwnValue lower item)).Marked := by
    unfold redactOwnValue
    split
    case h_1 v h_v =>
      split_ifs
      · exact marked_set_hideValue h h_v
      · exact h
    case h_2 => exact h
  have h_properties (item : Values) (h : (Value.obj item).Marked) :
      (Value.obj (redactProperties lower text item)).Marked := by
    unfold redactProperties
    split
    case h_1 properties h_some =>
      have h_below := (allMembers_iff.mp h _ (Values.mem_of_get h_some)).2
      refine allMembers_set h ⟨fun h_k => absurd h_k (by decide), allItems_iff.mpr ?_⟩
      intro v h_v
      obtain ⟨property, h_mem, rfl⟩ := List.mem_map.mp h_v
      exact Value.Marked.redactProperty (allItems_iff.mp h_below property h_mem)
    case h_2 => exact h
  exact h_properties _ (h_value _ h_tree)

/-- What is replaced is still replaced after a visit. -/
theorem Value.Marked.visit {v : Value} (h : v.Marked) : (visit lower text v).Marked := by
  -- By induction on the depth, since an item is changed before its members are visited.
  generalize h_n : v.depth = n
  induction n using Nat.strong_induction_on generalizing v with
  | _ n ih =>
    cases v with
    | arr items =>
      rw [visit_arr]
      refine allItems_iff.mpr fun v' h_v' => ?_
      obtain ⟨v, h_v, rfl⟩ := List.mem_map.mp h_v'
      refine ih v.depth ?_ (allItems_iff.mp h v h_v) rfl
      rw [← h_n, Value.depth]
      exact Nat.lt_succ_of_le (depthItems_le.mp le_rfl v h_v)
    | obj item =>
      rw [visit_obj]
      refine allMembers_iff.mpr fun m' h_m' => ?_
      obtain ⟨m, h_m, rfl⟩ := List.mem_map.mp h_m'
      have h_item : (Value.obj (Redaction.redactItem lower text item)).Marked := h.redactItem
      obtain ⟨h_value, h_below⟩ := allMembers_iff.mp h_item m h_m
      refine ⟨fun h_k s h_s => ?_, ih m.2.depth ?_ h_below rfl⟩
      · have h_text : Redaction.visit lower text m.2 = .str s := h_s
        refine h_value h_k s (eq_str_of_asString ?_)
        rw [← asString_visit, h_text]
        rfl
      · rw [← h_n, Value.depth]
        exact Nat.lt_succ_of_le ((depthMembers_le.mp le_rfl m h_m).trans (depth_redactItem ..))
    | str s => rw [visit_str]; exact h
    | _ => rw [Redaction.visit] <;> simp [Value.Marked, Value.AllMembers]

/-! ### What is not replaced -/

/-- A plain object has none of the members that are redacted. -/
theorem get_eq_none_of_plain {item : Values} (h : (Value.obj item).Plain) {k : String}
    (h_k : k ∈ ["nodes", "role", "properties"]) : item.get k = none := by
  by_contra h_some
  obtain ⟨v, h_v⟩ := Option.ne_none_iff_exists'.mp h_some
  exact (allMembers_iff.mp h _ (Values.mem_of_get h_v)).1 h_k

/-- An item that is no node and has no nodes is left as it is. -/
theorem redactItem_eq_self {item : Values} (h : (Value.obj item).Plain) :
    redactItem lower text item = item := by
  have h_nodes := get_eq_none_of_plain h (k := "nodes") (by decide)
  have h_role : (Value.obj item).get "role" = none := get_eq_none_of_plain h (by decide)
  have h_properties := get_eq_none_of_plain h (k := "properties") (by decide)
  -- A plain item has neither nodes nor a role nor properties.
  have h_tree : redactEditableTree lower text item = item := by
    rw [redactEditableTree, h_nodes]
  have h_value : redactOwnValue lower item = item := by
    have h_not : roleValue lower (.obj item) ∉ editableRoles := by
      rw [roleValue, h_role]
      exact (by decide : "" ∉ editableRoles)
    unfold redactOwnValue
    split
    · exact if_neg h_not
    · rfl
  rw [redactItem, h_tree, h_value, redactProperties, h_properties]

/-- A visit changes nothing in a value without nodes. -/
theorem visit_eq_self {v : Value} (h : v.Plain) : visit lower text v = v := by
  generalize h_n : v.depth = n
  -- Induction on the depth: the members of a plain value are plain.
  induction n using Nat.strong_induction_on generalizing v with
  | _ n ih =>
    cases v with
    | arr items =>
      rw [visit_arr]
      refine congrArg Value.arr ((List.map_congr_left fun v h_v => ?_).trans (List.map_id items))
      refine ih v.depth ?_ (allItems_iff.mp h v h_v) rfl
      rw [← h_n, Value.depth]
      exact Nat.lt_succ_of_le (depthItems_le.mp le_rfl v h_v)
    | obj item =>
      rw [visit_obj, redactItem_eq_self h]
      refine congrArg Value.obj ((List.map_congr_left fun m h_m => ?_).trans (List.map_id item))
      refine Prod.ext rfl (ih m.2.depth ?_ (allMembers_iff.mp h m h_m).2 rfl)
      rw [← h_n, Value.depth]
      exact Nat.lt_succ_of_le (depthMembers_le.mp le_rfl m h_m)
    | str s => rw [visit_str]
    | _ => rw [visit] <;> simp

mutual

/-- Texts are replaced in place, so no member gets a new name. -/
theorem Value.Plain.redactValueTree : ∀ {v : Value}, v.Plain → (redactValueTree v).Plain
  | .arr _, h => plain_redactItems h
  | .obj _, h => plain_redactMembers h
  | .null, h => h
  | .bool _, h => h
  | .num _, h => h
  | .str _, h => h

theorem plain_redactItems : ∀ {items : List Value},
    allItems (fun k _ => k ∉ ["nodes", "role", "properties"]) items →
      allItems (fun k _ => k ∉ ["nodes", "role", "properties"]) (redactItems items)
  | [], h => h
  | _ :: _, h => ⟨Value.Plain.redactValueTree h.1, plain_redactItems h.2⟩

theorem plain_redactMembers : ∀ {members : List (String × Value)},
    allMembers (fun k _ => k ∉ ["nodes", "role", "properties"]) members →
      allMembers (fun k _ => k ∉ ["nodes", "role", "properties"]) (redactMembers members)
  | [], h => h
  | _ :: _, h => ⟨plain_redactMember h.1, plain_redactMembers h.2⟩

theorem plain_redactMember : ∀ {m : String × Value},
    allMember (fun k _ => k ∉ ["nodes", "role", "properties"]) m →
      allMember (fun k _ => k ∉ ["nodes", "role", "properties"]) (redactMember m)
  | (_, .str _), h => h
  | (_, .arr _), h => ⟨h.1, plain_redactItems h.2⟩
  | (_, .obj _), h => ⟨h.1, plain_redactMembers h.2⟩
  | (_, .null), h => h
  | (_, .bool _), h => h
  | (_, .num _), h => h

end

/-- To hide a value leaves it plain. -/
theorem Value.Plain.hideValue {v : Value} (h : v.Plain) : (hideValue v).Plain := by
  cases v with
  | obj item => exact allMembers_set h ⟨by decide, trivial⟩
  | _ => exact h

/-! ### Reached nodes -/

section

variable (text) (nodes : List Value)

/-- A node names another one as its child. -/
def Child (node child : Value) : Prop :=
  child ∈ nodes ∧ child.isObject ∧ nodeID text child ∈ childIDs text node

variable (lower)

/-- The node is reached through child ids from an editable one, or is one. -/
def Reached (node : Value) : Prop :=
  ∃ e ∈ nodes, e.isObject ∧ editable lower text e ∧ Relation.ReflTransGen (Child text nodes) e node

/-- The ids of the nodes are distinct. -/
def DistinctIDs : Prop := ((nodes.filter (·.isObject)).map (nodeID text)).Nodup

/-- A text of a node that is reached: exactly its strings that are called `value` are replaced. The
own value of an editable role is given the marker also where it has no such string. -/
def replacedField (node : Value) (field : String) (v : Value) : Value :=
  match v.withMarker with
  | .obj item =>
    if field = "value" ∧ roleValue lower node ∈ editableRoles then
      .obj (Values.set item "value" (.str redacted))
    else .obj item
  | v => v

/-- What becomes of a node. -/
structure SanitizedTo (node node' : Value) : Prop where
  /-- The texts of the nodes that are reached are replaced. -/
  marked : Reached lower text nodes node → ∀ field ∈ textFields, ∀ v ∈ node'.get field, v.Marked
  /-- Nothing else in these texts changes. -/
  replaced : Reached lower text nodes node → ∀ field ∈ textFields,
    (∀ v ∈ node.get field, v.Plain) →
      node'.get field = (node.get field).map (replacedField lower node field)
  /-- The others keep their name and their description. -/
  kept : ¬ Reached lower text nodes node → ∀ field ∈ ["name", "description"],
    (∀ v ∈ node.get field, v.Plain) → node'.get field = node.get field

end

variable {nodes : List Value}

/-- Two nodes with one id are the same. -/
theorem DistinctIDs.eq (h : DistinctIDs text nodes) {a b : Value} (ha : a ∈ nodes)
    (ha_object : a.isObject) (hb : b ∈ nodes) (hb_object : b.isObject)
    (h_id : nodeID text a = nodeID text b) : a = b :=
  List.inj_on_of_nodup_map h (List.mem_filter.mpr ⟨ha, ha_object⟩)
    (List.mem_filter.mpr ⟨hb, hb_object⟩) h_id

/-- Where ids are distinct, a node is found by its id. -/
theorem DistinctIDs.byID (h : DistinctIDs text nodes) {node : Value} (h_mem : node ∈ nodes)
    (h_object : node.isObject) : byID text nodes (nodeID text node) = some node := by
  cases h_node : Redaction.byID text nodes (nodeID text node) with
  | none =>
    have h_not := List.find?_eq_none.mp h_node node
      (List.mem_reverse.mpr (List.mem_filter.mpr ⟨h_mem, h_object⟩))
    exact absurd (decide_eq_true rfl) h_not
  | some node' =>
    obtain ⟨h_mem', h_object', h_id⟩ := mem_of_byID text nodes h_node
    rw [h.eq h_mem' h_object' h_mem h_object h_id]

/-- A chain of ids is a chain of nodes. -/
theorem DistinctIDs.child_chain (h : DistinctIDs text nodes) {e : Value} (he : e ∈ nodes)
    (he_object : e.isObject) {id : String}
    (h_reach : Relation.ReflTransGen (Worklist.Step (children text nodes)) (nodeID text e) id)
    {node : Value} (h_mem : node ∈ nodes) (h_object : node.isObject)
    (h_id : nodeID text node = id) :
    Relation.ReflTransGen (Child text nodes) e node := by
  induction h_reach generalizing node with
  | refl =>
    rw [h.eq h_mem h_object he he_object h_id]
  | @tail parentID id _ h_step ih =>
    have h_child : id ∈ children text nodes parentID := h_step
    cases h_parent : Redaction.byID text nodes parentID with
    | none =>
      -- An id without a node has no children.
      rw [children, h_parent] at h_child
      cases h_child
    | some parent =>
      obtain ⟨h_mem', h_object', h_id'⟩ := mem_of_byID text nodes h_parent
      rw [children, h_parent] at h_child
      refine (ih h_mem' h_object' h_id').tail ⟨h_mem, h_object, ?_⟩
      rw [h_id]
      exact h_child

/-- And what is below a node in the tree is so by its ids. -/
theorem DistinctIDs.id_chain (h : DistinctIDs text nodes) {e node : Value} (he : e ∈ nodes)
    (he_object : e.isObject) (h_reach : Relation.ReflTransGen (Child text nodes) e node) :
    (node ∈ nodes ∧ node.isObject) ∧ Relation.ReflTransGen (Worklist.Step (children text nodes))
      (nodeID text e) (nodeID text node) := by
  induction h_reach with
  | refl => exact ⟨⟨he, he_object⟩, .refl⟩
  | tail _ h_child ih =>
    obtain ⟨⟨h_mem, h_object⟩, h_ids⟩ := ih
    obtain ⟨h_child_mem, h_child_object, h_child_id⟩ := h_child
    refine ⟨⟨h_child_mem, h_child_object⟩, h_ids.tail ?_⟩
    show _ ∈ children text nodes _
    rw [children, h.byID h_mem h_object]
    exact h_child_id

/-- With distinct ids the covered nodes are those that are reached. -/
theorem DistinctIDs.covered_iff (h : DistinctIDs text nodes) {i : ℕ} {node : Value}
    (h_node : nodes[i]? = some node) :
    Covered lower text nodes i node ↔ Reached lower text nodes node := by
  have h_mem : node ∈ nodes := List.mem_of_getElem? h_node
  constructor
  · rintro ⟨h_object, ⟨e, he, he_object, h_editable, h_reach⟩, -⟩
    exact ⟨e, he, he_object, h_editable, h.child_chain he he_object h_reach h_mem h_object rfl⟩
  · rintro ⟨e, he, he_object, h_editable, h_reach⟩
    obtain ⟨⟨-, h_object⟩, h_ids⟩ := h.id_chain he he_object h_reach
    refine ⟨h_object, ⟨e, he, he_object, h_editable, h_ids⟩, ?_⟩
    intro j later h_lt h_later h_later_object
    have h_pairwise := List.pairwise_filter.mp (List.pairwise_map.mp h)
    obtain ⟨h_i, rfl⟩ := List.getElem?_eq_some_iff.mp h_node
    obtain ⟨h_j, rfl⟩ := List.getElem?_eq_some_iff.mp h_later
    exact (List.pairwise_iff_getElem.mp h_pairwise i j h_i h_j h_lt h_object h_later_object).symm

/-! ### The tree -/

/-- What is no object has no members after a visit. -/
theorem get_visit_eq_none {v : Value} (h : ∀ item, v ≠ .obj item) (k : String) :
    (visit lower text v).get k = none := by
  cases v with
  | obj item => exact absurd rfl (h item)
  | arr items => rw [visit_arr]; rfl
  | str s => rw [visit_str]; rfl
  | _ => rw [visit] <;> simp [Value.get]

/-- The texts of a node that was changed by the last loop, after its visit. -/
theorem marked_get_visit_redactNode (node : Value) {field : String} (h_field : field ∈ textFields) :
    ∀ v ∈ (visit lower text (redactNode node)).get field, v.Marked := by
  intro v h_v
  cases node with
  | obj item =>
    have h_members := get_redactNode item field
    rw [if_pos h_field] at h_members
    change Values.get _ field = _ at h_members
    rw [Option.mem_def, redactNode, get_visit] at h_v
    obtain ⟨v', h_v', rfl⟩ := Option.map_eq_some_iff.mp h_v
    refine Value.Marked.visit ?_
    -- `value` is replaced by its mark, another field is as it was
    by_cases h_value : field = "value"
    · subst h_value
      rw [get_redactItem_value, h_members] at h_v'
      obtain ⟨w, h_w, rfl⟩ := Option.map_eq_some_iff.mp h_v'
      obtain ⟨u, -, rfl⟩ := Option.map_eq_some_iff.mp h_w
      split_ifs
      · exact u.marked_redactValueTree.hideValue
      · exact u.marked_redactValueTree
    · have h_ne : field ≠ "nodes" ∧ field ≠ "value" ∧ field ≠ "properties" := by
        refine ⟨?_, h_value, ?_⟩ <;>
        · rintro rfl
          exact absurd h_field (by decide)
      rw [get_redactItem h_ne, h_members] at h_v'
      obtain ⟨u, -, rfl⟩ := Option.map_eq_some_iff.mp h_v'
      exact u.marked_redactValueTree
  | _ =>
    rw [redactNode, get_visit_eq_none (by simp)] at h_v
    · cases h_v
    · simp

/-- The role of a node is not one of its texts. -/
theorem roleValue_redactNode (node : Value) :
    roleValue lower (redactNode node) = roleValue lower node := by
  cases node with
  | obj item =>
    unfold roleValue
    rw [get_redactNode, if_neg (by decide), Option.map_id]
    rfl
  | _ => rfl

/-- The last loop replaces the texts, and the visit hides the own value. -/
theorem replacedField_eq (node : Value) (field : String) (v : Value) :
    replacedField lower node field v =
      if field = "value" ∧ roleValue lower node ∈ editableRoles then hideValue (redactValueTree v)
      else redactValueTree v := by
  rw [replacedField, redactValueTree_eq_withMarker]
  cases v.withMarker with
  | obj item => rfl
  | _ => exact (ite_self _).symm

/-- A text of a node that was changed by the last loop: the visit finds no tree in it. -/
theorem get_visit_redactNode {node : Value} {field : String} (h_field : field ∈ textFields)
    (h_plain : ∀ v ∈ node.get field, v.Plain) :
    (visit lower text (redactNode node)).get field =
      (node.get field).map (replacedField lower node field) := by
  cases node with
  | obj item =>
    have h_members := get_redactNode item field
    have h_role : roleValue lower (redactNode (.obj item)) = roleValue lower (.obj item) :=
      roleValue_redactNode (.obj item)
    rw [if_pos h_field] at h_members
    change Values.get _ field = _ at h_members
    rw [redactNode] at h_role ⊢
    rw [get_visit]
    show _ = (Values.get item field).map _
    have h_plain' : ∀ v ∈ Values.get item field, v.Plain := h_plain
    -- `value` loses its string members only; what is plain is as it was
    by_cases h_value : field = "value"
    · subst h_value
      rw [get_redactItem_value, h_members, h_role, Option.map_map, Option.map_map]
      refine Option.map_congr fun v h_v => ?_
      have h_below := (h_plain' v h_v).redactValueTree
      show visit lower text (if _ then hideValue (redactValueTree v) else redactValueTree v) = _
      rw [replacedField_eq]
      by_cases h_role : roleValue lower (.obj item) ∈ editableRoles
      · rw [if_pos h_role, if_pos ⟨rfl, h_role⟩]
        exact visit_eq_self h_below.hideValue
      · rw [if_neg h_role, if_neg fun h => h_role h.2]
        exact visit_eq_self h_below
    · have h_ne : field ≠ "nodes" ∧ field ≠ "value" ∧ field ≠ "properties" := by
        refine ⟨?_, h_value, ?_⟩ <;>
        · rintro rfl
          exact absurd h_field (by decide)
      rw [get_redactItem h_ne, h_members, Option.map_map]
      refine Option.map_congr fun v h_v => ?_
      rw [replacedField_eq, if_neg fun h => h_value h.1]
      exact visit_eq_self (h_plain' v h_v).redactValueTree
  | _ =>
    rw [redactNode, get_visit_eq_none (by simp)]
    · rfl
    · simp

/-- A name or a description is only visited. -/
theorem get_visit_of_plain {node : Value} {field : String}
    (h_field : field ∈ ["name", "description"])
    (h_plain : ∀ v ∈ node.get field, v.Plain) :
    (visit lower text node).get field = node.get field := by
  cases node with
  | obj item =>
    -- None of the fields that the walk rewrites by name.
    have h_ne : field ≠ "nodes" ∧ field ≠ "value" ∧ field ≠ "properties" := by
      refine ⟨?_, ?_, ?_⟩ <;>
      · rintro rfl
        exact absurd h_field (by decide)
    rw [get_visit, get_redactItem h_ne]
    show _ = Values.get item field
    cases h_v : Values.get item field with
    | none => rfl
    | some v => exact congrArg some (visit_eq_self (h_plain v h_v))
  | arr items => rw [visit_arr]; rfl
  | str s => rw [visit_str]
  | _ => rw [visit] <;> simp

/-- **The editable closure is covered, and nothing else.** In the copy of a tree whose nodes have
distinct ids, exactly the texts in the name, the value and the description of each node that is
reached from an editable one are replaced, and the name and the description of each other node are
as they were. -/
theorem sanitizeAccessibilitySnapshot_nodes {snapshot : Value}
    (h_nodes : snapshot.get "nodes" = some (.arr nodes)) (h_distinct : DistinctIDs text nodes) :
    ∃ nodes', (sanitizeAccessibilitySnapshot lower text snapshot).get "nodes" =
        some (.arr nodes') ∧ nodes'.length = nodes.length ∧
      ∀ (i : ℕ) (node node' : Value), nodes[i]? = some node → nodes'[i]? = some node' →
        SanitizedTo lower text nodes node node' := by
  refine ⟨(redactNodes text (sensitiveIDs lower text nodes) nodes).map (visit lower text),
    ?_, ?_, ?_⟩
  · cases snapshot with
    | obj item =>
      change Values.get item "nodes" = _ at h_nodes
      rw [sanitizeAccessibilitySnapshot, get_visit, get_redactItem_nodes, redactEditableTree,
        h_nodes, Values.get_set, if_pos rfl, Option.map_some, visit_arr]
    | _ => cases h_nodes
  · rw [List.length_map, length_redactNodes]
  -- a node of the closure is redacted first, every node is visited
  · intro i node node' h_node h_node'
    rw [List.getElem?_map] at h_node'
    rcases getElem?_redactNodes_sensitiveIDs h_node with ⟨h_covered, h_get⟩ | ⟨h_not, h_get⟩
    · rw [h_get] at h_node'
      cases h_node'
      have h_reached := (h_distinct.covered_iff h_node).mp h_covered
      exact ⟨fun _ _ h_field => marked_get_visit_redactNode node h_field,
        fun _ _ h_field => get_visit_redactNode h_field,
        fun h_unreached => absurd h_reached h_unreached⟩
    · rw [h_get] at h_node'
      cases h_node'
      have h_unreached := mt (h_distinct.covered_iff h_node).mpr h_not
      exact ⟨fun h_reached => absurd h_reached h_unreached,
        fun h_reached => absurd h_reached h_unreached,
        fun _ _ h_field => get_visit_of_plain h_field⟩

/-- A field whose text is copied into a child that names the field as its own child, and a heading.
-/
def fieldNodes : List Value :=
  [.obj [("nodeId", .str "1"), ("childIds", .arr [.str "2", .str "9"]),
      ("role", .obj [("value", .str "textbox")]), ("name", computed "One-time code"),
      ("value", computed "otp123")],
    .obj [("nodeId", .str "2"), ("childIds", .arr [.str "1"]), ("name", computed "otp123")],
    .obj [("role", .obj [("value", .str "heading")]), ("name", computed "Safe heading")]]

/-- The theorem for a field below an editable node. -/
theorem sanitizeAccessibilitySnapshot_nodes_field :
    (Value.obj [("nodes", .arr fieldNodes)]).get "nodes" = some (.arr fieldNodes) ∧
    ∃ nodes', (sanitizeAccessibilitySnapshot String.toLower plainText
        (.obj [("nodes", .arr fieldNodes)])).get "nodes" = some (.arr nodes') ∧
      nodes'.length = fieldNodes.length ∧
      ∀ (i : ℕ) (node node' : Value), fieldNodes[i]? = some node → nodes'[i]? = some node' →
        SanitizedTo String.toLower plainText fieldNodes node node' :=
  ⟨rfl, sanitizeAccessibilitySnapshot_nodes rfl (by unfold DistinctIDs; decide)⟩

end BrowserControl.Redaction
