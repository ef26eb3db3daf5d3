import Mathlib.Data.Finset.Basic
import Mathlib.Data.Rat.Defs

/-!
# Values of the debugger protocol

Chrome answers a command of the debugger protocol with a JSON value, and the sanitizers of
`redaction.ts` walk through such values without a schema. `Value` is what `JSON.parse` makes of a
text: numbers are numbers, and a member that is not there is `undefined`, which is `none` here.

A value is a tree: two members never share an object. What an assignment to a member changes is
therefore one place, and `structuredClone` has nothing left to do.
-/

namespace BrowserControl.Redaction

/-- A value of the debugger protocol. -/
inductive Value where
  | null
  | bool (b : Bool)
  | num (q : ℚ)
  | str (s : String)
  | arr (items : List Value)
  | obj (members : List (String × Value))

/-- The members of an object, in the order in which they were added. -/
abbrev Values := List (String × Value)

/-- What stands for a text that must not be seen. -/
def redacted : String := "[REDACTED]"

/-- `value.includes(secret)`. -/
def includes (value secret : String) : Bool := decide (secret.toList <:+: value.toList)

/-- One text contains another. -/
theorem includes_iff {value secret : String} :
    includes value secret = true ↔ secret.toList <:+: value.toList := by
  rw [includes, decide_eq_true_eq]

namespace Values

/-- A member of an object. -/
def get (item : Values) (k : String) : Option Value := (item.find? (·.1 = k)).map Prod.snd

/-- The assignment `item[k] = v`. -/
def set (item : Values) (k : String) (v : Value) : Values :=
  if item.any (·.1 = k) then item.map fun m => if m.1 = k then (k, v) else m else item ++ [(k, v)]

@[simp] theorem get_nil (k : String) : get [] k = none := rfl

theorem get_cons (m : String × Value) (item : Values) (k : String) :
    get (m :: item) k = if m.1 = k then some m.2 else item.get k := by
  unfold get
  rw [List.find?_cons]
  by_cases h : m.1 = k
  · rw [if_pos h, decide_eq_true h]
    rfl
  · rw [if_neg h, decide_eq_false h]

theorem get_append (item item' : Values) (k : String) :
    get (item ++ item') k = (item.get k).or (item'.get k) := by
  induction item with
  | nil => rfl
  | cons m item ih =>
    rw [List.cons_append, get_cons, get_cons, ih]
    by_cases h : m.1 = k
    · rw [if_pos h, if_pos h]
      rfl
    · rw [if_neg h, if_neg h]

/-- A change of the members that keeps their names. -/
theorem get_map {f : String × Value → String × Value} (h : ∀ m, (f m).1 = m.1) (item : Values)
    (k : String) : get (item.map f) k = (item.get k).map fun v => (f (k, v)).2 := by
  induction item with
  | nil => rfl
  | cons m item ih =>
    rw [List.map_cons, get_cons, get_cons, ih, h]
    by_cases h_k : m.1 = k
    · subst h_k
      rw [if_pos rfl, if_pos rfl]
      rfl
    · rw [if_neg h_k, if_neg h_k]

/-- A member that is not there. -/
theorem get_eq_none {item : Values} {k : String} (h : ¬ item.any (·.1 = k)) :
    item.get k = none := by
  rw [get, Option.map_eq_none_iff, List.find?_eq_none]
  intro m h_m h_k
  exact h (List.any_eq_true.mpr ⟨m, h_m, h_k⟩)

/-- A member that is set is found, and the others stay. -/
theorem get_set (item : Values) (k l : String) (v : Value) :
    (item.set k v).get l = if k = l then some v else item.get l := by
  unfold set
  by_cases h_any : item.any (·.1 = k)
  -- the key is there, and its value is replaced
  · rw [if_pos h_any, get_map]
    · by_cases h : l = k
      · subst h
        rw [if_pos rfl]
        obtain ⟨m, h_m, h_k⟩ := List.any_eq_true.mp h_any
        have h_some : (item.get l).isSome := by
          rw [get, Option.isSome_map, List.find?_isSome]
          exact ⟨m, h_m, h_k⟩
        obtain ⟨w, h_w⟩ := Option.isSome_iff_exists.mp h_some
        rw [h_w, Option.map_some, if_pos rfl]
      · rw [if_neg (Ne.symm h)]
        simp only [if_neg h, Option.map_id']
    · intro m
      split_ifs with h
      · exact h.symm
      · rfl
  -- it is new, and comes last
  · rw [if_neg h_any, get_append, get_cons, get_nil]
    by_cases h : k = l
    · subst h
      rw [if_pos rfl, if_pos rfl, get_eq_none h_any]
      rfl
    · rw [if_neg h, if_neg h, Option.or_none]

end Values

namespace Value

/-- A member of a value: `value?.k`. -/
def get : Value → String → Option Value
  | .obj item, k => Values.get item k
  | _, _ => none

/-- `typeof value === "object"`, and not `null`. -/
def isObject : Value → Bool
  | .obj _ => true
  | .arr _ => true
  | _ => false

/-- `typeof value === "string"`. -/
def asString : Value → Option String
  | .str s => some s
  | _ => none

end Value

end BrowserControl.Redaction
