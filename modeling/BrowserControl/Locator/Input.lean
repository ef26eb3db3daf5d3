import BrowserControl.Extension.TabRegistry
import Mathlib.Data.List.Forall2

/-!
# Locators of callers

`locatorFrom` turns the JSON value that a caller sends into a locator, at every depth: a locator
has locators of its own in `scope`, `has`, `and`, `or` and in the entries of `framePath`. An
object is copied, the alias `selector` is rewritten, the fields are checked, and then the nested
locators replace the values they come from, in the order of `nestedLocatorFields`.

`locatorFrom_ok_iff` says which values are accepted. The alias is deleted whether it was used or
not, and before unknown fields are looked for. So a `selector` that is no alias is dropped
(`failsClosed_iff`): nothing else of what a caller sends is.
-/

namespace BrowserControl.Locator

open Encoding BrowserControl.Extension

/-! ### Objects -/

/-- The fields of an object, in the order in which they were added. -/
abbrev Fields := List (String × Json)

namespace Fields

/-- The field of this key, if there is one. -/
def get (fields : Fields) (key : String) : Option Json :=
  (fields.find? (·.1 = key)).map Prod.snd

/-- The assignment `fields[key] = v`. -/
def set : Fields → String → Json → Fields
  | [], key, v => [(key, v)]
  | f :: fields, key, v => if f.1 = key then (key, v) :: fields else f :: set fields key v

/-- `delete fields[key]` -/
def erase (fields : Fields) (key : String) : Fields := fields.filter (·.1 ≠ key)

@[simp] theorem get_nil (key : String) : get [] key = none := rfl

theorem get_cons (f : String × Json) (fields : Fields) (key : String) :
    get (f :: fields) key = if f.1 = key then some f.2 else fields.get key := by
  unfold get
  rw [List.find?_cons]
  by_cases h : f.1 = key
  · rw [if_pos h, decide_eq_true h]
    rfl
  · rw [if_neg h, decide_eq_false h]

/-- A field that is found is there. -/
theorem mem_of_get {fields : Fields} {key : String} {v : Json} (h : fields.get key = some v) :
    (key, v) ∈ fields := by
  obtain ⟨f, h_find, rfl⟩ := Option.map_eq_some_iff.mp h
  have h_key : f.1 = key := by simpa using List.find?_some h_find
  rw [← h_key]
  exact List.mem_of_find?_eq_some h_find

theorem get_erase_self (fields : Fields) (key : String) : (fields.erase key).get key = none := by
  rw [get, Option.map_eq_none_iff, List.find?_eq_none]
  intro f hf
  have h_ne := (List.mem_filter.mp hf).2
  simpa using h_ne

theorem get_erase_of_ne (fields : Fields) {key key' : String} (h : key' ≠ key) :
    (fields.erase key).get key' = fields.get key' := by
  induction fields with
  | nil => rfl
  | cons f fields ih =>
    unfold erase at ih ⊢
    rw [List.filter_cons, get_cons]
    by_cases h_key : f.1 = key
    · rw [if_neg (by simp [h_key]), ih, if_neg fun h_eq => h (h_eq.symm.trans h_key)]
    · rw [if_pos (by simp [h_key]), get_cons, ih]

theorem get_set_self (fields : Fields) (key : String) (v : Json) :
    (fields.set key v).get key = some v := by
  induction fields with
  | nil => exact (get_cons ..).trans (if_pos rfl)
  | cons f fields ih =>
    unfold set
    by_cases h : f.1 = key
    · rw [if_pos h, get_cons, if_pos rfl]
    · rw [if_neg h, get_cons, if_neg h, ih]

theorem get_set_of_ne (fields : Fields) {key key' : String} (h : key' ≠ key) (v : Json) :
    (fields.set key v).get key' = fields.get key' := by
  induction fields with
  | nil => exact (get_cons ..).trans (if_neg h.symm)
  | cons f fields ih =>
    unfold set
    by_cases h_key : f.1 = key
    · rw [if_pos h_key, get_cons, get_cons, if_neg h.symm,
        if_neg fun h_eq => h (h_eq.symm.trans h_key)]
    · rw [if_neg h_key, get_cons, get_cons, ih]

/-- Assigning what is there changes nothing. -/
theorem set_get {fields : Fields} {key : String} {v : Json} (h : fields.get key = some v) :
    fields.set key v = fields := by
  induction fields with
  | nil => contradiction
  | cons f fields ih =>
    rw [get_cons] at h
    unfold set
    by_cases h_key : f.1 = key
    · rw [if_pos h_key, Option.some_inj] at h
      rw [if_pos h_key, ← h_key, ← h]
    · rw [if_neg h_key] at h
      rw [if_neg h_key, ih h]

/-- A field after one is set is that one or an old one. -/
theorem mem_set {fields : Fields} {key : String} {v : Json} {f : String × Json}
    (h : f ∈ fields.set key v) : f.1 = key ∨ f ∈ fields := by
  induction fields with
  | nil => exact .inl (by rw [List.mem_singleton.mp h])
  | cons f' fields ih =>
    unfold set at h
    split at h
    · rcases List.mem_cons.mp h with h_eq | h_mem
      · exact .inl (by rw [h_eq])
      · exact .inr (List.mem_cons_of_mem _ h_mem)
    · rcases List.mem_cons.mp h with h_eq | h_mem
      · exact .inr (List.mem_cons.mpr (.inl h_eq))
      · exact (ih h_mem).imp_right (List.mem_cons_of_mem _)

/-- A field that is not there is deleted without effect. -/
theorem erase_of_get {fields : Fields} {key : String} (h : fields.get key = none) :
    fields.erase key = fields := by
  rw [get, Option.map_eq_none_iff, List.find?_eq_none] at h
  refine List.filter_eq_self.mpr fun f hf => ?_
  simpa using h f hf

end Fields

/-! ### The function -/

/-- `locatorKinds` -/
def locatorKinds : List String := ["role", "text", "label", "placeholder", "testId", "css"]

/-- `locatorFields` -/
def locatorFields : List String :=
  ["by", "value", "role", "name", "exact", "framePath", "scope", "has", "hasText", "and", "or",
    "index", "nth", "first", "last", "shadow"]

/-- `nestedLocatorFields` -/
def nestedLocatorFields : List String := ["scope", "has", "and", "or"]

/-- The fields with nested locators, in the order in which these are validated. -/
def nestedKeys : List String := nestedLocatorFields ++ ["framePath"]

/-- The kinds of locators that have their query in `value`. -/
def valueKinds : List String := ["css", "text", "label", "placeholder", "testId"]

/-- The error for a locator that is not well formed. -/
def invalidRequest (message : String) : RpcError := { kind := "INVALID_REQUEST", message }

/-- The kind of a locator, if it is a text. -/
def kindOf (fields : Fields) : Option String :=
  match fields.get "by" with
  | some (.str kind) => some kind
  | _ => none

/-- A `selector` stands for the value. -/
def isAlias (fields : Fields) : Bool := kindOf fields = some "css" && (fields.get "value").isNone

/-- The copy of the fields, with the alias in the place of the value. -/
def aliased (fields : Fields) : Fields :=
  let input :=
    match fields.get "selector" with
    | some selector => if isAlias fields then fields.set "value" selector else fields
    | none => fields
  input.erase "selector"

/-- The kind is one of those there are. -/
def checkKind (input : Fields) (path : String) : Except RpcError String :=
  match kindOf input with
  | some kind =>
    if kind = "" then .error (invalidRequest s!"{path}.by is required")
    else if kind ∉ locatorKinds then
      .error (invalidRequest (s!"{path}.by must be one of " ++ ", ".intercalate locatorKinds))
    else .ok kind
  | none => .error (invalidRequest s!"{path}.by is required")

/-- The fields that no locator has. -/
def unknownFields (input : Fields) : List String :=
  (input.map Prod.fst).filter (· ∉ locatorFields)

/-- Fields that no locator has are refused. -/
def checkUnknown (input : Fields) (path : String) : Except RpcError Unit :=
  if unknownFields input ≠ [] then
    .error (invalidRequest (s!"{path} has unsupported field(s): " ++
      ", ".intercalate (unknownFields input)))
  else .ok ()

/-- The kinds that need a value have one. -/
def checkValue (input : Fields) (path kind : String) : Except RpcError Unit :=
  if kind ∈ valueKinds then
    match input.get "value" with
    | some (.str value) =>
      if value = "" then .error (invalidRequest s!"{path}.value is required for by: \"{kind}\"")
      else .ok ()
    | _ => .error (invalidRequest s!"{path}.value is required for by: \"{kind}\"")
  else .ok ()

/-- What is asked of the fields of one locator. -/
def checkFields (input : Fields) (path : String) : Except RpcError Unit := do
  let kind ← checkKind input path
  checkUnknown input path
  checkValue input path kind

/-- The nested locators replace the values they come from, one field after the other. -/
def replaceFields (nested : List (String × Except RpcError Json)) :
    List String → Fields → Except RpcError Fields
  | [], input => .ok input
  | key :: keys, input =>
    match nested.find? (·.1 = key) with
    | none => replaceFields nested keys input
    | some (_, .error e) => .error e
    | some (_, .ok v) => replaceFields nested keys (input.set key v)

mutual

/-- `locatorFrom(value, path)` -/
def locatorFrom : Json → String → Except RpcError Json
  | .obj fields, path => do
    checkFields (aliased fields) path
    let input ← replaceFields (nestedFrom fields path) nestedKeys (aliased fields)
    return .obj input
  | _, _ => .error (invalidRequest "params must be an object")
termination_by structural v => v

/-- What becomes of each field that has locators in it. -/
def nestedFrom : List (String × Json) → String → List (String × Except RpcError Json)
  | [], _ => []
  | f :: fields, path => nestedField f path :: nestedFrom fields path
termination_by structural fields => fields

/-- A nested locator, or a frame path, under its own path. -/
def nestedField : String × Json → String → String × Except RpcError Json
  | (key, v), path =>
    (key, if key = "framePath" then framePathFrom v path else locatorFrom v s!"{path}.{key}")
termination_by structural f => f

/-- The entries of `framePath`. -/
def framePathFrom : Json → String → Except RpcError Json
  | .arr entries, path => do
    let entries ← entriesFrom entries path 0
    return .arr entries
  | _, path => .error (invalidRequest s!"{path}.framePath must be an array")
termination_by structural v => v

/-- The loop over the entries of a frame path. -/
def entriesFrom : List Json → String → ℕ → Except RpcError (List Json)
  | [], _, _ => .ok []
  | v :: entries, path, index => do
    let entry ← locatorFrom v s!"{path}.framePath[{index}]"
    let entries ← entriesFrom entries path (index + 1)
    return entry :: entries
termination_by structural entries => entries

end

/-! ### One locator -/

/-- What `checkFields` asks for. -/
structure Checked (input : Fields) : Prop where
  kind : ∃ kind ∈ locatorKinds, kindOf input = some kind
  value : ∀ kind ∈ valueKinds, kindOf input = some kind →
    ∃ value ≠ "", input.get "value" = some (.str value)
  documented : ∀ f ∈ input, f.1 ∈ locatorFields

/-- When the kind is accepted. -/
theorem checkKind_ok_iff {input : Fields} {path kind : String} :
    checkKind input path = .ok kind ↔ kindOf input = some kind ∧ kind ∈ locatorKinds := by
  unfold checkKind
  split
  -- `by` is a text: it has to be one of the kinds
  case h_1 kind' h_kind =>
    rw [h_kind, Option.some_inj]
    split
    case isTrue h_empty =>
      subst h_empty
      simp only [reduceCtorEq, false_iff, not_and]
      rintro rfl
      decide
    case isFalse =>
      split
      case isTrue h_unknown =>
        simp only [reduceCtorEq, false_iff, not_and]
        rintro rfl
        exact h_unknown
      case isFalse h_known =>
        rw [not_not] at h_known
        simp only [Except.ok.injEq]
        exact ⟨fun h => ⟨h, h ▸ h_known⟩, And.left⟩
  case h_2 h_none => simp [h_none]

/-- When all fields are known. -/
theorem unknownFields_eq_nil_iff {input : Fields} :
    unknownFields input = [] ↔ ∀ f ∈ input, f.1 ∈ locatorFields := by
  simp [unknownFields, List.filter_eq_nil_iff]

/-- When the value is accepted. -/
theorem checkValue_ok_iff {input : Fields} {path kind : String} :
    checkValue input path kind = .ok () ↔
      (kind ∈ valueKinds → ∃ value ≠ "", input.get "value" = some (.str value)) := by
  unfold checkValue
  split
  -- A kind with a value: it must be a nonempty string.
  case isTrue h_kind =>
    split
    case h_1 value h_value =>
      split
      case isTrue h_empty => simp [h_kind, h_value, h_empty]
      case isFalse h_ne => simp [h_value, h_ne]
    case h_2 h_none =>
      simp only [reduceCtorEq, false_iff, not_forall]
      refine ⟨h_kind, ?_⟩
      rintro ⟨value, -, h_value⟩
      exact h_none value h_value
  case isFalse h_kind => simp [h_kind]

/-- When all fields are accepted. -/
theorem checkFields_ok_iff {input : Fields} {path : String} :
    checkFields input path = .ok () ↔ Checked input := by
  constructor
  -- the three checks, one after the other
  · intro h
    obtain ⟨kind, h_kind, h⟩ := of_bind_ok h
    obtain ⟨⟨⟩, h_unknown, h_value⟩ := of_bind_ok h
    obtain ⟨h_kind, h_mem⟩ := checkKind_ok_iff.mp h_kind
    refine ⟨⟨kind, h_mem, h_kind⟩, ?_, ?_⟩
    · intro kind' h_mem' h_kind'
      obtain rfl := Option.some_inj.mp (h_kind.symm.trans h_kind')
      exact checkValue_ok_iff.mp h_value h_mem'
    · refine unknownFields_eq_nil_iff.mp ?_
      by_contra h_ne
      rw [checkUnknown, if_pos h_ne] at h_unknown
      contradiction
  -- none of them finds a fault
  · rintro ⟨⟨kind, h_mem, h_kind⟩, h_value, h_documented⟩
    have h_kind_ok : checkKind input path = .ok kind := checkKind_ok_iff.mpr ⟨h_kind, h_mem⟩
    have h_unknown_ok : checkUnknown input path = .ok () :=
      if_neg (not_not.mpr (unknownFields_eq_nil_iff.mpr h_documented))
    have h_value_ok : checkValue input path kind = .ok () :=
      checkValue_ok_iff.mpr fun h => h_value kind h h_kind
    rw [checkFields, h_kind_ok]
    show (checkUnknown input path >>= fun _ => checkValue input path kind) = _
    rw [h_unknown_ok]
    exact h_value_ok

/-- No selector is left. -/
theorem get_aliased_selector (fields : Fields) : (aliased fields).get "selector" = none :=
  Fields.get_erase_self ..

theorem get_aliased_of_ne (fields : Fields) {key : String} (h : key ≠ "selector")
    (h_value : key ≠ "value") : (aliased fields).get key = fields.get key := by
  unfold aliased
  rw [Fields.get_erase_of_ne _ h]
  split
  · split
    · exact Fields.get_set_of_ne _ h_value _
    · rfl
  · rfl

/-- The value of a locator is its own or the alias. -/
theorem get_aliased_value (fields : Fields) : (aliased fields).get "value" =
    if isAlias fields = true then (fields.get "selector").or (fields.get "value")
    else fields.get "value" := by
  unfold aliased
  rw [Fields.get_erase_of_ne _ (by decide)]
  split
  case h_1 v h_selector =>
    split
    · rw [Fields.get_set_self, h_selector]
      rfl
    · rfl
  case h_2 h_selector =>
    rw [h_selector]
    split <;> rfl

/-- The kind stays. -/
theorem kindOf_aliased (fields : Fields) : kindOf (aliased fields) = kindOf fields := by
  unfold kindOf
  rw [get_aliased_of_ne fields (by decide) (by decide)]

/-- A locator without a `selector` is copied as it is. -/
theorem aliased_of_noSelector {fields : Fields} (h : fields.get "selector" = none) :
    aliased fields = fields := by
  unfold aliased
  rw [h]
  exact Fields.erase_of_get h

/-- Where a field of the copy comes from. -/
theorem mem_aliased {fields : Fields} {f : String × Json} (h : f ∈ fields) :
    f.1 = "selector" ∨ ∃ f' ∈ aliased fields, f'.1 = f.1 := by
  by_cases h_selector : f.1 = "selector"
  · exact .inl h_selector
  · refine .inr ?_
    -- A field other than `selector` is still there.
    have h_some : ((aliased fields).get f.1).isSome := by
      have h_get : (fields.get f.1).isSome := by
        rw [Fields.get, Option.isSome_map, List.find?_isSome]
        exact ⟨f, h, by simp⟩
      by_cases h_value : f.1 = "value"
      · rw [h_value] at h_get ⊢
        rw [get_aliased_value]
        split
        · rw [Option.isSome_or, h_get, Bool.or_true]
        · exact h_get
      · rwa [get_aliased_of_ne fields h_selector h_value]
    obtain ⟨v, h_get⟩ := Option.isSome_iff_exists.mp h_some
    exact ⟨(f.1, v), Fields.mem_of_get h_get, rfl⟩

/-- The copy has no other field. -/
theorem of_mem_aliased {fields : Fields} {f : String × Json} (h : f ∈ aliased fields) :
    f.1 = "value" ∨ f ∈ fields := by
  unfold aliased at h
  have h_mem := List.mem_of_mem_filter h
  split at h_mem
  · split at h_mem
    · exact Fields.mem_set h_mem
    · exact .inr h_mem
  · exact .inr h_mem

/-! ### Nested locators -/

/-- The nested locator of a field. -/
theorem find?_nestedFrom (fields : Fields) (path key : String) :
    (nestedFrom fields path).find? (·.1 = key) =
      (fields.get key).map fun v => nestedField (key, v) path := by
  induction fields with
  | nil => rfl
  | cons f fields ih =>
    obtain ⟨key', v⟩ := f
    rw [nestedFrom, List.find?_cons, Fields.get_cons]
    by_cases h : key' = key
    · subst h
      rw [if_pos rfl, nestedField, decide_eq_true rfl]
      rfl
    · rw [if_neg h, nestedField, decide_eq_false h]
      exact ih

/-- What the loop over nested fields has put in their places. -/
theorem replaceFields_ok {nested : List (String × Except RpcError Json)} {keys : List String}
    {input input' : Fields} (h : replaceFields nested keys input = .ok input')
    (h_keys : keys.Nodup) : (∀ key ∉ keys, input'.get key = input.get key) ∧
      ∀ key ∈ keys, match nested.find? (·.1 = key) with
        | none => input'.get key = input.get key
        | some f => ∃ v, f.2 = .ok v ∧ input'.get key = some v := by
  induction keys generalizing input with
  | nil =>
    obtain rfl := Except.ok.inj h
    exact ⟨fun _ _ => rfl, List.forall_mem_nil _⟩
  | cons key keys ih =>
    obtain ⟨h_fresh, h_keys⟩ := List.nodup_cons.mp h_keys
    unfold replaceFields at h
    split at h
    -- the field is not there, so the object stays
    case h_1 h_none =>
      obtain ⟨h_other, h_nested⟩ := ih h h_keys
      refine ⟨fun key' h_key' => h_other key' (List.not_mem_of_not_mem_cons h_key'), ?_⟩
      rw [List.forall_mem_cons]
      refine ⟨?_, h_nested⟩
      rw [h_none]
      exact h_other key h_fresh
    case h_2 => contradiction
    -- the value of the field is replaced by its copy
    case h_3 key' v h_some =>
      obtain ⟨h_other, h_nested⟩ := ih h h_keys
      rw [List.forall_mem_cons]
      refine ⟨?_, ?_, ?_⟩
      · intro key' h_key'
        rw [List.mem_cons, not_or] at h_key'
        obtain ⟨h_ne, h_key'⟩ := h_key'
        exact (h_other key' h_key').trans (Fields.get_set_of_ne _ h_ne _)
      · rw [h_some]
        exact ⟨v, rfl, (h_other key h_fresh).trans (Fields.get_set_self ..)⟩
      · intro key' h_key'
        have h_ne : key' ≠ key := fun h_eq => h_fresh (h_eq ▸ h_key')
        have h_at := h_nested key' h_key'
        rwa [Fields.get_set_of_ne _ h_ne] at h_at

/-- Every field that comes out is one that went in, or a nested one. -/
theorem mem_replaceFields {nested : List (String × Except RpcError Json)} {keys : List String}
    {input input' : Fields} (h : replaceFields nested keys input = .ok input') {f : String × Json}
    (hf : f ∈ input') : f.1 ∈ keys ∨ f ∈ input := by
  induction keys generalizing input with
  | nil =>
    obtain rfl := Except.ok.inj h
    exact .inr hf
  | cons key keys ih =>
    unfold replaceFields at h
    split at h
    -- A key that is not nested is passed over, an error ends the walk.
    case h_1 => exact (ih h).imp_left (List.mem_cons_of_mem _)
    case h_2 => contradiction
    case h_3 =>
      rcases ih h with h_mem | h_mem
      · exact .inl (List.mem_cons_of_mem _ h_mem)
      · rcases Fields.mem_set h_mem with h_eq | h_mem
        · exact .inl (List.mem_cons.mpr (.inl h_eq))
        · exact .inr h_mem

/-- Fields that hold their nested locators already stay. -/
theorem replaceFields_self {nested : List (String × Except RpcError Json)} {keys : List String}
    {input : Fields} (h : ∀ key ∈ keys, ∀ f, nested.find? (·.1 = key) = some f →
      ∃ v, f.2 = .ok v ∧ input.get key = some v) : replaceFields nested keys input = .ok input := by
  -- Along the keys: each replaces its field by itself.
  induction keys with
  | nil => rfl
  | cons key keys ih =>
    rw [List.forall_mem_cons] at h
    unfold replaceFields
    split
    case h_1 => exact ih h.2
    case h_2 key' e h_some =>
      obtain ⟨v, h_ok, -⟩ := h.1 _ h_some
      contradiction
    case h_3 key' v h_some =>
      obtain ⟨v', h_ok, h_get⟩ := h.1 _ h_some
      obtain rfl := Except.ok.inj h_ok
      rw [Fields.set_get h_get]
      exact ih h.2

/-! ### What a locator is -/

/-- The value is a locator, and its fields and those of every locator in it have the property. -/
inductive Everywhere (P : Fields → Prop) : Json → Prop where
  | locator {fields : Fields} (here : P fields)
      (nested : ∀ key ∈ nestedLocatorFields, ∀ v, fields.get key = some v → Everywhere P v)
      (framePath : ∀ v, fields.get "framePath" = some v → ∃ entries, v = .arr entries)
      (entries : ∀ entries, fields.get "framePath" = some (.arr entries) →
        ∀ v ∈ entries, Everywhere P v) : Everywhere P (.obj fields)

/-- The fields are documented ones, of a known kind and with a value where the kind needs one.
A `selector` may be in the place of the value. -/
structure WellFormed (fields : Fields) : Prop where
  kind : ∃ kind ∈ locatorKinds, kindOf fields = some kind
  value : ∀ kind ∈ valueKinds, kindOf fields = some kind → ∃ value ≠ "",
    fields.get "value" = some (.str value) ∨
      isAlias fields = true ∧ fields.get "selector" = some (.str value)
  documented : ∀ f ∈ fields, f.1 ∈ locatorFields ∨ f.1 = "selector"

/-- A `selector` is there only as the alias of a value that is not. -/
def AliasOnly (fields : Fields) : Prop := fields.get "selector" ≠ none → isAlias fields = true

/-- There is no field `selector`. -/
def NoSelector (fields : Fields) : Prop := fields.get "selector" = none

/-- Every field of a caller is in the locator, at every depth. -/
inductive Kept : Json → Json → Prop where
  | locator {fields input : Fields}
      (plain : ∀ key v, key ∉ "selector" :: "framePath" :: nestedLocatorFields →
        fields.get key = some v → input.get key = some v)
      -- The alias becomes the value.
      (selector : ∀ v, fields.get "selector" = some v → input.get "value" = some v)
      (present : ∀ key ∈ nestedLocatorFields, ∀ v, fields.get key = some v →
        ∃ w, input.get key = some w)
      (nested : ∀ key ∈ nestedLocatorFields, ∀ v w, fields.get key = some v →
        input.get key = some w → Kept v w)
      (framePath : ∀ v, fields.get "framePath" = some v → ∃ entries entries',
        v = .arr entries ∧ input.get "framePath" = some (.arr entries'))
      (entries : ∀ entries entries', fields.get "framePath" = some (.arr entries) →
        input.get "framePath" = some (.arr entries') → List.Forall₂ Kept entries entries') :
      Kept (.obj fields) (.obj input)

/-- **Locator validation fails closed.** -/
structure FailsClosed (v l : Json) : Prop where
  wellFormed : Everywhere WellFormed v
  aliasOnly : Everywhere AliasOnly v
  kept : Kept v l
  noSelector : Everywhere NoSelector l
  again : ∀ path, locatorFrom l path = .ok l

/-! ### Everything that holds of an accepted locator -/

/-- What the copy `input` of the fields has to do with them. -/
structure Copied (fields input : Fields) (path : String) : Prop where
  checked : Checked (aliased fields)
  plain : ∀ key ∉ nestedKeys, input.get key = (aliased fields).get key
  absent : ∀ key ∈ nestedKeys, fields.get key = none → input.get key = none
  nested : ∀ key ∈ nestedLocatorFields, ∀ v, fields.get key = some v →
    ∃ w, locatorFrom v s!"{path}.{key}" = .ok w ∧ input.get key = some w
  framePath : ∀ v, fields.get "framePath" = some v →
    ∃ w, framePathFrom v path = .ok w ∧ input.get "framePath" = some w
  documented : ∀ f ∈ input, f.1 ∈ locatorFields

/-- The nested fields are none that the alias changes. -/
theorem ne_of_mem_nestedKeys {key : String} (h : key ∈ nestedKeys) :
    key ≠ "selector" ∧ key ≠ "value" ∧ key ≠ "by" := by
  revert key
  decide

/-- What is accepted is an object, and copied. -/
theorem copied_of_ok {fields : Fields} {path : String} {l : Json}
    (h : locatorFrom (.obj fields) path = .ok l) :
    ∃ input, l = .obj input ∧ Copied fields input path := by
  unfold locatorFrom at h
  obtain ⟨⟨⟩, h_checked, h⟩ := of_bind_ok h
  obtain ⟨input, h_replaced, h⟩ := of_bind_ok h
  obtain rfl := Except.ok.inj h
  have h_checked := checkFields_ok_iff.mp h_checked
  obtain ⟨h_plain, h_nested⟩ := replaceFields_ok h_replaced (by decide)
  -- the aliases touch no field that holds locators
  have h_get : ∀ key ∈ nestedKeys, (aliased fields).get key = fields.get key := by
    intro key h_key
    obtain ⟨h_selector, h_value, -⟩ := ne_of_mem_nestedKeys h_key
    exact get_aliased_of_ne fields h_selector h_value
  refine ⟨input, rfl, h_checked, h_plain, ?_, ?_, ?_, ?_⟩
  · intro key h_key h_none
    have h_at := h_nested key h_key
    rw [find?_nestedFrom, h_none] at h_at
    exact h_at.trans ((h_get key h_key).trans h_none)
  · intro key h_key v h_some
    have h_at := h_nested key (List.mem_append_left _ h_key)
    have h_ne : key ≠ "framePath" := by
      rintro rfl
      revert h_key
      decide
    rw [find?_nestedFrom, h_some] at h_at
    simp only [Option.map_some, nestedField, if_neg h_ne] at h_at
    exact h_at
  · intro v h_some
    have h_at := h_nested "framePath" (by decide)
    rw [find?_nestedFrom, h_some] at h_at
    simp only [Option.map_some, nestedField, if_true] at h_at
    exact h_at
  -- no field is made up
  · intro f hf
    rcases mem_replaceFields h_replaced hf with h_key | h_mem
    · revert h_key
      generalize f.1 = key
      revert key
      decide
    · exact h_checked.documented f h_mem

/-- A frame path that is accepted is a list. -/
theorem framePathFrom_ok {v l : Json} {path : String} (h : framePathFrom v path = .ok l) :
    ∃ entries entries', v = .arr entries ∧ l = .arr entries' ∧
      entriesFrom entries path 0 = .ok entries' := by
  cases v with
  | arr entries =>
    unfold framePathFrom at h
    obtain ⟨entries', h_entries, h⟩ := of_bind_ok h
    exact ⟨entries, entries', rfl, (Except.ok.inj h).symm, h_entries⟩
  | _ => contradiction

/-- Each of its entries is accepted. -/
theorem entriesFrom_ok {entries entries' : List Json} {path : String} {index : ℕ}
    (h : entriesFrom entries path index = .ok entries') :
    List.Forall₂ (fun v w => ∃ path, locatorFrom v path = .ok w) entries entries' := by
  induction entries generalizing index entries' with
  | nil =>
    obtain rfl := Except.ok.inj h
    exact .nil
  | cons v entries ih =>
    unfold entriesFrom at h
    obtain ⟨w, h_entry, h⟩ := of_bind_ok h
    obtain ⟨ws, h_entries, h⟩ := of_bind_ok h
    obtain rfl := Except.ok.inj h
    exact .cons ⟨_, h_entry⟩ (ih h_entries)

theorem entriesFrom_self {entries : List Json}
    (h : ∀ v ∈ entries, ∀ path, locatorFrom v path = .ok v) (path : String) (index : ℕ) :
    entriesFrom entries path index = .ok entries := by
  induction entries generalizing index with
  | nil => rfl
  | cons v entries ih =>
    rw [List.forall_mem_cons] at h
    rw [entriesFrom, h.1]
    show (entriesFrom entries path (index + 1) >>= fun ws => .ok (v :: ws)) = _
    rw [ih h.2]
    rfl

/-- What holds of an accepted value and the locator it becomes. -/
structure Accepted (v l : Json) : Prop where
  wellFormed : Everywhere WellFormed v
  noSelector : Everywhere NoSelector l
  again : ∀ path, locatorFrom l path = .ok l
  kept : Everywhere AliasOnly v → Kept v l

/-- The copy has no selector. -/
theorem Copied.noSelector {fields input : Fields} {path : String} (h : Copied fields input path) :
    NoSelector input :=
  (h.plain "selector" (by decide)).trans (get_aliased_selector fields)

/-- What is copied was well formed. -/
theorem Copied.wellFormed {fields input : Fields} {path : String} (h : Copied fields input path) :
    WellFormed fields where
  kind := by
    obtain ⟨kind, h_mem, h_kind⟩ := h.checked.kind
    exact ⟨kind, h_mem, (kindOf_aliased fields).symm.trans h_kind⟩
  value kind h_mem h_kind := by
    obtain ⟨value, h_ne, h_value⟩ :=
      h.checked.value kind h_mem ((kindOf_aliased fields).trans h_kind)
    refine ⟨value, h_ne, ?_⟩
    rw [get_aliased_value] at h_value
    split at h_value
    case isTrue h_alias =>
      -- An alias is there only if the value is not.
      have h_none : fields.get "value" = none := by
        simp only [isAlias, Bool.and_eq_true, Option.isNone_iff_eq_none] at h_alias
        exact h_alias.2
      rw [h_none, Option.or_none] at h_value
      exact .inr ⟨h_alias, h_value⟩
    case isFalse => exact .inl h_value
  documented f hf := by
    rcases mem_aliased hf with h_selector | ⟨f', hf', h_key⟩
    · exact .inr h_selector
    · exact .inl (h_key ▸ h.checked.documented f' hf')

/-- The copy of a locator that is in order is in order. -/
theorem Copied.checked_input {fields input : Fields} {path : String}
    (h : Copied fields input path) : Checked input := by
  have h_kind : kindOf input = kindOf (aliased fields) := by
    unfold kindOf
    rw [h.plain "by" (by decide)]
  refine ⟨?_, ?_, h.documented⟩
  · rw [h_kind]
    exact h.checked.kind
  · rw [h_kind, h.plain "value" (by decide)]
    exact h.checked.value

/-- A nested field of the copy is what a nested field has become. -/
theorem Copied.of_get {fields input : Fields} {path key : String} (h : Copied fields input path)
    (h_key : key ∈ nestedKeys) {w : Json} (h_get : input.get key = some w) :
    ∃ v, fields.get key = some v := by
  by_contra h_none
  have h_none : fields.get key = none :=
    Option.eq_none_iff_forall_ne_some.mpr fun v h_some => h_none ⟨v, h_some⟩
  rw [h.absent key h_key h_none] at h_get
  contradiction

/-- Everything that holds of an accepted locator holds of the nested locators and their copies. -/
structure Nested (fields input : Fields) : Prop where
  locators : ∀ key ∈ nestedLocatorFields, ∀ v, fields.get key = some v →
    ∃ w, input.get key = some w ∧ Accepted v w
  framePath : ∀ v, fields.get "framePath" = some v → ∃ entries entries', v = .arr entries ∧
    input.get "framePath" = some (.arr entries') ∧ List.Forall₂ Accepted entries entries'

section Copies

variable {fields input : Fields} {path : String}

/-- The nested locators are copied one by one. -/
theorem Copied.nestedAccepted (h : Copied fields input path)
    (ih : ∀ f ∈ fields, (∀ path l, locatorFrom f.2 path = .ok l → Accepted f.2 l) ∧
      ∀ entries, f.2 = .arr entries → ∀ v ∈ entries, ∀ path l,
        locatorFrom v path = .ok l → Accepted v l) : Nested fields input where
  locators key h_key v h_get := by
    obtain ⟨w, h_ok, h_input⟩ := h.nested key h_key v h_get
    exact ⟨w, h_input, (ih _ (Fields.mem_of_get h_get)).1 _ w h_ok⟩
  framePath v h_get := by
    obtain ⟨w, h_ok, h_input⟩ := h.framePath v h_get
    obtain ⟨entries, entries', rfl, rfl, h_entries⟩ := framePathFrom_ok h_ok
    refine ⟨entries, entries', rfl, h_input, ?_⟩
    refine List.forall₂_iff_zip.mpr ⟨(entriesFrom_ok h_entries).length_eq, ?_⟩
    intro v w h_zip
    obtain ⟨path', h_entry⟩ := (List.forall₂_iff_zip.mp (entriesFrom_ok h_entries)).2 h_zip
    exact (ih _ (Fields.mem_of_get h_get)).2 entries rfl v (List.of_mem_zip h_zip).1 path' w h_entry

/-- What the nested locators show of the locator itself: it was well formed at every level. -/
theorem Nested.wellFormed (h_nested : Nested fields input) (h : WellFormed fields) :
    Everywhere WellFormed (.obj fields) := by
  refine .locator h ?_ ?_ ?_
  · intro key h_key v h_get
    obtain ⟨w, -, h_accepted⟩ := h_nested.locators key h_key v h_get
    exact h_accepted.wellFormed
  · intro v h_get
    obtain ⟨entries, _, h_v, -⟩ := h_nested.framePath v h_get
    exact ⟨entries, h_v⟩
  · intro entries h_get
    obtain ⟨_, _, h_eq, -, h_entries⟩ := h_nested.framePath _ h_get
    obtain rfl := Json.arr.inj h_eq
    exact ((List.forall₂_and_left _ _).mp (h_entries.imp fun _ _ h => ⟨h.wellFormed, h⟩)).1

/-- The copy has no selector at any level. -/
theorem Copied.noSelectorBelow (h : Copied fields input path) (h_nested : Nested fields input) :
    Everywhere NoSelector (.obj input) := by
  refine .locator h.noSelector ?_ ?_ ?_
  · intro key h_key w h_get
    obtain ⟨v, h_fields⟩ := h.of_get (List.mem_append_left _ h_key) h_get
    obtain ⟨w', h_input, h_accepted⟩ := h_nested.locators key h_key v h_fields
    obtain rfl := Option.some_inj.mp (h_get.symm.trans h_input)
    exact h_accepted.noSelector
  · intro w h_get
    obtain ⟨v, h_fields⟩ := h.of_get (by decide) h_get
    obtain ⟨_, entries', -, h_input, -⟩ := h_nested.framePath v h_fields
    exact ⟨entries', Option.some_inj.mp (h_get.symm.trans h_input)⟩
  · intro ws h_get
    obtain ⟨v, h_fields⟩ := h.of_get (by decide) h_get
    obtain ⟨_, entries', -, h_input, h_entries⟩ := h_nested.framePath v h_fields
    obtain rfl := Json.arr.inj (Option.some_inj.mp (h_get.symm.trans h_input))
    have h_flip := List.Forall₂.flip (R := flip Accepted) h_entries
    exact ((List.forall₂_and_left _ _).mp (h_flip.imp fun _ _ h => ⟨h.noSelector, h⟩)).1

/-- A nested field of the copy is copied to itself. -/
theorem Copied.nestedField_self (h : Copied fields input path) (h_nested : Nested fields input)
    {key : String} (h_key : key ∈ nestedKeys) {w : Json} (h_get : input.get key = some w)
    (path' : String) : (nestedField (key, w) path').2 = .ok w := by
  obtain ⟨v, h_fields⟩ := h.of_get h_key h_get
  unfold nestedField
  dsimp only
  by_cases h_framePath_key : key = "framePath"
  · subst h_framePath_key
    obtain ⟨_, entries', -, h_input, h_entries⟩ := h_nested.framePath v h_fields
    obtain rfl := Option.some_inj.mp (h_get.symm.trans h_input)
    have h_flip := List.Forall₂.flip (R := flip Accepted) h_entries
    have h_again := ((List.forall₂_and_left _ _).mp (h_flip.imp fun _ _ h => ⟨h.again, h⟩)).1
    rw [if_pos rfl, framePathFrom, entriesFrom_self h_again]
    rfl
  · have h_mem : key ∈ nestedLocatorFields := by
      rcases List.mem_append.mp h_key with h_mem | h_mem
      · exact h_mem
      · exact absurd (List.mem_singleton.mp h_mem) h_framePath_key
    obtain ⟨w', h_input, h_accepted⟩ := h_nested.locators key h_mem v h_fields
    obtain rfl := Option.some_inj.mp (h_get.symm.trans h_input)
    rw [if_neg h_framePath_key]
    exact h_accepted.again _

/-- The copy is accepted again, as it is. -/
theorem Copied.again (h : Copied fields input path) (h_nested : Nested fields input)
    (path' : String) : locatorFrom (.obj input) path' = .ok (.obj input) := by
  -- The nested locators of the copy are the ones that are put into it.
  have h_self : replaceFields (nestedFrom input path') nestedKeys input = .ok input := by
    refine replaceFields_self fun key h_key f h_find => ?_
    rw [find?_nestedFrom, Option.map_eq_some_iff] at h_find
    obtain ⟨w, h_get, rfl⟩ := h_find
    exact ⟨w, h.nestedField_self h_nested h_key h_get path', h_get⟩
  rw [locatorFrom, aliased_of_noSelector h.noSelector, checkFields_ok_iff.mpr h.checked_input]
  show (replaceFields (nestedFrom input path') nestedKeys input >>= fun input =>
    .ok (Json.obj input)) = _
  rw [h_self]
  rfl

/-- A field that holds no locator is kept, unless it is the alias or the value it stands for. -/
theorem Copied.get_plain (h : Copied fields input path) {key : String}
    (h_selector : key ≠ "selector") (h_plain : key ∉ nestedKeys) {v : Json}
    (h_get : fields.get key = some v) : input.get key = some v := by
  rw [h.plain key h_plain]
  by_cases h_value : key = "value"
  · subst h_value
    -- A value that is there is not replaced by an alias.
    have h_not : isAlias fields = false := by
      simp [isAlias, h_get]
    rw [get_aliased_value, h_not]
    exact h_get
  · rw [get_aliased_of_ne fields h_selector h_value]
    exact h_get

/-- Where the selector is an alias at most, the copy keeps all that the locator says. -/
theorem Copied.kept (h : Copied fields input path) (h_nested : Nested fields input)
    (h_alias : Everywhere AliasOnly (.obj fields)) : Kept (.obj fields) (.obj input) := by
  cases h_alias with
  | locator h_here h_alias_nested _ h_alias_entries =>
    refine .locator ?_ ?_ ?_ ?_ ?_ ?_
    · intro key v h_key h_get
      rw [List.mem_cons, List.mem_cons, not_or, not_or] at h_key
      obtain ⟨h_selector, h_framePath_key, h_key⟩ := h_key
      have h_plain : key ∉ nestedKeys := by
        simp only [nestedKeys, List.mem_append, List.mem_singleton, not_or]
        exact ⟨h_key, h_framePath_key⟩
      exact h.get_plain h_selector h_plain h_get
    · intro v h_get
      have h_is : isAlias fields = true := h_here (by rw [h_get]; exact Option.some_ne_none v)
      rw [h.plain "value" (by decide), get_aliased_value, if_pos h_is, h_get]
      rfl
    · intro key h_key v h_get
      obtain ⟨w, h_input, -⟩ := h_nested.locators key h_key v h_get
      exact ⟨w, h_input⟩
    · intro key h_key v w h_get h_input
      obtain ⟨w', h_input', h_accepted⟩ := h_nested.locators key h_key v h_get
      obtain rfl := Option.some_inj.mp (h_input.symm.trans h_input')
      exact h_accepted.kept (h_alias_nested key h_key v h_get)
    · intro v h_get
      obtain ⟨entries, entries', h_v, h_input, -⟩ := h_nested.framePath v h_get
      exact ⟨entries, entries', h_v, h_input⟩
    · intro entries entries' h_get h_input
      obtain ⟨vs, ws, h_eq, h_input', h_entries⟩ := h_nested.framePath _ h_get
      obtain rfl := Json.arr.inj h_eq
      obtain rfl := Json.arr.inj (Option.some_inj.mp (h_input.symm.trans h_input'))
      have h_both := (List.forall₂_and_left _ _).mpr ⟨h_alias_entries _ h_get, h_entries⟩
      exact h_both.imp fun _ _ h => h.2.kept h.1

/-- What is copied is accepted again, by induction on the nested locators. -/
theorem Copied.accepted (h : Copied fields input path)
    (ih : ∀ f ∈ fields, (∀ path l, locatorFrom f.2 path = .ok l → Accepted f.2 l) ∧
      ∀ entries, f.2 = .arr entries → ∀ v ∈ entries, ∀ path l,
        locatorFrom v path = .ok l → Accepted v l) : Accepted (.obj fields) (.obj input) :=
  have h_nested := h.nestedAccepted ih
  { wellFormed := h_nested.wellFormed h.wellFormed
    noSelector := h.noSelectorBelow h_nested
    again := h.again h_nested
    kept := h.kept h_nested }

end Copies

/-- Everything that is accepted is in order, but for a `selector` that is no alias. -/
theorem accepted_of_ok (v : Json) :
    (∀ path l, locatorFrom v path = .ok l → Accepted v l) ∧
      ∀ entries, v = .arr entries → ∀ w ∈ entries, ∀ path l,
        locatorFrom w path = .ok l → Accepted w l := by
  refine Json.of_children (P := fun v => (∀ path l, locatorFrom v path = .ok l → Accepted v l) ∧
    ∀ entries, v = .arr entries → ∀ w ∈ entries, ∀ path l,
      locatorFrom w path = .ok l → Accepted w l) ?_ v
  intro v h_fields h_elems
  refine ⟨?_, fun entries h_eq w hw => (h_elems entries h_eq w hw).1⟩
  intro path l h_ok
  cases v with
  | obj fields =>
    obtain ⟨input, rfl, h_copied⟩ := copied_of_ok h_ok
    exact h_copied.accepted (h_fields fields rfl)
  | _ => contradiction

/-! ### Everything that is accepted -/

/-- The copy of a locator that is in order has what is asked for. -/
theorem WellFormed.checked {fields : Fields} (h : WellFormed fields) :
    Checked (aliased fields) where
  kind := by
    obtain ⟨kind, h_mem, h_kind⟩ := h.kind
    exact ⟨kind, h_mem, (kindOf_aliased fields).trans h_kind⟩
  value kind h_mem h_kind := by
    obtain ⟨value, h_ne, h_value⟩ := h.value kind h_mem ((kindOf_aliased fields).symm.trans h_kind)
    refine ⟨value, h_ne, ?_⟩
    rw [get_aliased_value]
    rcases h_value with h_value | ⟨h_alias, h_selector⟩
    · have h_not : isAlias fields = false := by
        simp [isAlias, h_value]
      rw [h_not]
      exact h_value
    · rw [if_pos h_alias, h_selector]
      rfl
  -- the alias puts `value` in the place of `selector`, which is gone then
  documented f hf := by
    have h_ne : f.1 ≠ "selector" := by
      have h_mem := (List.mem_filter.mp hf).2
      simpa using h_mem
    rcases of_mem_aliased hf with h_value | h_mem
    · rw [h_value]
      decide
    · exact (h.documented f h_mem).resolve_right h_ne

/-- Nested fields that are accepted are put in their places. -/
theorem replaceFields_of_ok {nested : List (String × Except RpcError Json)} {keys : List String}
    (h : ∀ key ∈ keys, ∀ f, nested.find? (·.1 = key) = some f → ∃ v, f.2 = .ok v)
    (input : Fields) : ∃ input', replaceFields nested keys input = .ok input' := by
  induction keys generalizing input with
  | nil => exact ⟨input, rfl⟩
  | cons key keys ih =>
    rw [List.forall_mem_cons] at h
    unfold replaceFields
    split
    case h_1 => exact ih h.2 input
    case h_2 key' e h_some =>
      obtain ⟨v, h_ok⟩ := h.1 _ h_some
      contradiction
    case h_3 key' v h_some => exact ih h.2 (input.set key v)

/-- Entries that are accepted one by one are accepted. -/
theorem entriesFrom_of_ok {entries : List Json}
    (h : ∀ v ∈ entries, ∀ path, ∃ l, locatorFrom v path = .ok l) (path : String) (index : ℕ) :
    ∃ entries', entriesFrom entries path index = .ok entries' := by
  induction entries generalizing index with
  | nil => exact ⟨[], rfl⟩
  | cons v entries ih =>
    rw [List.forall_mem_cons] at h
    obtain ⟨l, h_entry⟩ := h.1 s!"{path}.framePath[{index}]"
    obtain ⟨ls, h_entries⟩ := ih h.2 (index + 1)
    refine ⟨l :: ls, ?_⟩
    rw [entriesFrom, h_entry]
    show (entriesFrom entries path (index + 1) >>= fun ws => .ok (l :: ws)) = _
    rw [h_entries]
    rfl

/-- One locator is accepted if it is in order and those in it are accepted. -/
theorem ok_of_wellFormed {fields : Fields} (h : WellFormed fields)
    (h_nested : ∀ key ∈ nestedLocatorFields, ∀ v, fields.get key = some v →
      ∀ path, ∃ l, locatorFrom v path = .ok l)
    (h_framePath : ∀ v, fields.get "framePath" = some v → ∃ entries, v = .arr entries ∧
      ∀ w ∈ entries, ∀ path, ∃ l, locatorFrom w path = .ok l) (path : String) :
    ∃ l, locatorFrom (.obj fields) path = .ok l := by
  -- every nested field has a copy
  have h_find : ∀ key ∈ nestedKeys, ∀ f,
      (nestedFrom fields path).find? (·.1 = key) = some f → ∃ v, f.2 = .ok v := by
    intro key h_key f h_find
    rw [find?_nestedFrom, Option.map_eq_some_iff] at h_find
    obtain ⟨v, h_get, rfl⟩ := h_find
    unfold nestedField
    rcases List.mem_append.mp h_key with h_mem | h_mem
    · have h_ne : key ≠ "framePath" := by
        rintro rfl
        revert h_mem
        decide
      rw [if_neg h_ne]
      exact h_nested key h_mem v h_get _
    · obtain rfl := List.mem_singleton.mp h_mem
      obtain ⟨entries, rfl, h_entries⟩ := h_framePath v h_get
      obtain ⟨entries', h_ok⟩ := entriesFrom_of_ok h_entries path 0
      refine ⟨.arr entries', ?_⟩
      rw [if_pos rfl, framePathFrom, h_ok]
      rfl
  obtain ⟨input, h_input⟩ := replaceFields_of_ok h_find (aliased fields)
  refine ⟨.obj input, ?_⟩
  rw [locatorFrom, checkFields_ok_iff.mpr h.checked]
  show (replaceFields (nestedFrom fields path) nestedKeys (aliased fields) >>= fun input =>
    .ok (Json.obj input)) = _
  rw [h_input]
  rfl

/-- What is well formed everywhere is accepted. -/
theorem ok_of_everywhere (v : Json) :
    (Everywhere WellFormed v → ∀ path, ∃ l, locatorFrom v path = .ok l) ∧
      ∀ entries, v = .arr entries → ∀ w ∈ entries, Everywhere WellFormed w →
        ∀ path, ∃ l, locatorFrom w path = .ok l := by
  refine Json.of_children (P := fun v =>
    (Everywhere WellFormed v → ∀ path, ∃ l, locatorFrom v path = .ok l) ∧
      ∀ entries, v = .arr entries → ∀ w ∈ entries, Everywhere WellFormed w →
        ∀ path, ∃ l, locatorFrom w path = .ok l) ?_ v
  intro v h_fields h_elems
  refine ⟨?_, fun entries h_eq w hw => (h_elems entries h_eq w hw).1⟩
  intro h path
  cases h with
  -- the locator itself, with what holds for those inside it
  | locator h_here h_nested h_framePath h_entries =>
    rename_i fields
    refine ok_of_wellFormed h_here ?_ ?_ path
    · intro key h_key w h_get
      exact (h_fields fields rfl _ (Fields.mem_of_get h_get)).1 (h_nested key h_key w h_get)
    · intro w h_get
      obtain ⟨entries, rfl⟩ := h_framePath w h_get
      refine ⟨entries, rfl, fun u hu => ?_⟩
      exact (h_fields fields rfl _ (Fields.mem_of_get h_get)).2 entries rfl u hu
        (h_entries entries h_get u hu)

/-- **Acceptance.** A value is accepted if and only if it is a locator in order at every depth. -/
theorem locatorFrom_ok_iff (v : Json) (path : String) :
    (∃ l, locatorFrom v path = .ok l) ↔ Everywhere WellFormed v := by
  constructor
  · rintro ⟨l, h_ok⟩
    exact ((accepted_of_ok v).1 path l h_ok).wellFormed
  · intro h
    exact (ok_of_everywhere v).1 h path

/-- **Locator validation.** Whatever is accepted is a locator at every depth and stays as it is when
it is validated again; nothing of it was dropped if and only if every `selector` in it is the alias
of a value that is not there. -/
theorem failsClosed_iff (v : Json) (path : String) :
    (∀ l, locatorFrom v path = .ok l → FailsClosed v l) ↔
      (Everywhere WellFormed v → Everywhere AliasOnly v) := by
  rw [← locatorFrom_ok_iff v path]
  constructor
  · rintro h ⟨l, h_ok⟩
    exact (h l h_ok).aliasOnly
  · intro h l h_ok
    have h_accepted := (accepted_of_ok v).1 path l h_ok
    have h_alias := h ⟨l, h_ok⟩
    exact ⟨h_accepted.wellFormed, h_alias, h_accepted.kept h_alias, h_accepted.noSelector,
      h_accepted.again⟩

/-- A locator for a button, with a `selector` that says something else. -/
def mixed : Json := .obj [("by", .str "role"), ("role", .str "button"), ("selector", .str "#save")]

/-- The `selector` is dropped. -/
theorem not_failsClosed_mixed :
    ¬ ∀ v path l, locatorFrom v path = .ok l → FailsClosed v l := by
  intro h
  have h_ok : locatorFrom mixed "locator" =
      .ok (.obj [("by", .str "role"), ("role", .str "button")]) := by rfl
  cases (h _ _ _ h_ok).aliasOnly with
  | locator h_here => exact Bool.false_ne_true (h_here (by simp [Fields.get]))

end BrowserControl.Locator
