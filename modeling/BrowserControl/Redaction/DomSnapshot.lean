import BrowserControl.Encoding.Json
import BrowserControl.Redaction.Value
import Mathlib.Data.Finset.Card

/-!
# The sanitizer of DOM snapshots

`DOMSnapshot.captureSnapshot` answers with one table of strings and, for each document, arrays of
indexes into it. `sanitizeDomSnapshot` collects the indexes of the strings that may hold what a
user typed (*tainted* strings), and then replaces every string of the table that contains a
tainted one. It does not look at which other node refers to the string it replaces.

The functions of this file follow the source; a thrown error is its message. What the source keeps
in a mutable set is here the list of what was added to it. `upper` and `lower` stand for
`toUpperCase` and `toLowerCase`.

`Secret` says which strings must not be seen, without the sanitizer: they are the non-empty strings
to which a document `Refers` as the value of a field. `sanitizeDomSnapshot_ok` says that the
sanitizer replaces exactly the strings that contain one.
-/

namespace BrowserControl.Redaction

open Encoding (of_bind_ok)

/-! ### Reading a snapshot -/

/-- `record` -/
def record : Option Value → Except String Values
  | some (.obj members) => .ok members
  | _ => .error "REDACTION_FAILED: unexpected CDP snapshot shape"

/-- `Number.isInteger`, and the integer. -/
def integer : Value → Option ℤ
  | .num q => if q.den = 1 then some q.num else none
  | _ => none

/-- `numbers` -/
def numbers : Option Value → Except String (List ℤ)
  | some (.arr items) =>
    match items.mapM integer with
    | some ns => .ok ns
    | none => .error "REDACTION_FAILED: expected an integer array"
  | _ => .error "REDACTION_FAILED: expected an integer array"

/-- `optionalRareStrings` -/
def optionalRareStrings : Option Value → Except String (List ℤ)
  | none => .ok []
  | some value => do
    let rare ← record value
    let indexes ← numbers (rare.get "index")
    let values ← numbers (rare.get "value")
    if indexes.length = values.length then
      return values
    else
      throw "REDACTION_FAILED: malformed rare string data"

/-- `root.strings`. -/
def stringTable : Option Value → Except String (List String)
  | some (.arr items) =>
    match items.mapM Value.asString with
    | some strings => .ok strings
    | none => .error "REDACTION_FAILED: snapshot strings are missing"
  | _ => .error "REDACTION_FAILED: snapshot strings are missing"

/-- `root.documents`. -/
def documentList : Option Value → Except String (List Value)
  | some (.arr items) => .ok items
  | _ => .error "REDACTION_FAILED: snapshot documents are missing"

/-- `stringAt` -/
def stringAt (strings : List String) (index : ℤ) : Except String String :=
  if index = -1 then .ok ""
  else if index < 0 then .error "REDACTION_FAILED: string index is out of range"
  else
    match strings[index.toNat]? with
    | some s => .ok s
    | none => .error "REDACTION_FAILED: string index is out of range"

/-! ### Tainted strings -/

/-- A loop that adds to a set. -/
def gather {α : Type} (f : α → Except String (List ℕ)) : List α → Except String (List ℕ)
  | [] => .ok []
  | a :: rest => do
    let here ← f a
    let more ← gather f rest
    return here ++ more

/-- The index is added unless the string is empty. -/
def taint (strings : List String) (index : ℤ) : Except String (List ℕ) := do
  let s ← stringAt strings index
  if s = "" then return [] else return [index.toNat]

/-- An element whose value a user types. -/
def isField (tag : String) : Bool := tag = "INPUT" || tag = "TEXTAREA"

section

variable (upper lower : String → String) (strings : List String)

/-- What an attribute taints: the `value` of a field. -/
def taintValue (tag name : String) (valueIndex : ℤ) : Except String (List ℕ) :=
  if name = "value" ∧ isField tag then taint strings valueIndex else .ok []

/-- The loop over the attributes of a node: whether it is marked, and what its value taints. -/
def readAttributes (tag : String) : List ℤ → Except String (Bool × List ℕ)
  | nameIndex :: valueIndex :: rest => do
    let name ← stringAt strings nameIndex
    let _ ← stringAt strings valueIndex
    let here ← taintValue strings tag (lower name) valueIndex
    let more ← readAttributes tag rest
    return (lower name = "data-browser-control-sensitive" || more.1, here ++ more.2)
  | _ => .ok (false, [])

/-- The body of the loop over the nodes: whether the node is sensitive, and what it taints. -/
def readNode (node : ℤ × Value) : Except String (Bool × List ℕ) := do
  let name ← stringAt strings node.1
  let flatAttributes ← numbers (some node.2)
  if flatAttributes.length % 2 = 0 then
    let attributes ← readAttributes lower strings (upper name) flatAttributes
    return (isField (upper name) || attributes.1, attributes.2)
  else
    throw "REDACTION_FAILED: malformed DOM attributes"

end

/-- The walk from a node to its ancestors, which ends at a sensitive node or above the root. A walk
that comes back to a node, or leaves the array, fails. -/
def belongsToSensitiveSubtree (sensitive : ℕ → Bool) (parentIndexes : List ℤ)
    (visited : Finset ℕ) : ℤ → Except String Bool
  | .negSucc _ => .ok false
  | .ofNat current =>
    if sensitive current then .ok true
    else if h : current ∉ visited ∧ current < parentIndexes.length then
      belongsToSensitiveSubtree sensitive parentIndexes (insert current visited)
        (parentIndexes.get ⟨current, h.2⟩)
    else .error "REDACTION_FAILED: invalid DOM parent graph"
termination_by (Finset.range parentIndexes.length \ visited).card
decreasing_by
  -- A node that was not visited is visited now.
  apply Finset.card_lt_card
  rw [Finset.ssubset_iff_of_subset]
  · refine ⟨current, ?_, ?_⟩
    · exact Finset.mem_sdiff.mpr ⟨Finset.mem_range.mpr h.2, h.1⟩
    · intro h_mem
      exact (Finset.mem_sdiff.mp h_mem).2 (Finset.mem_insert_self ..)
  · exact Finset.sdiff_subset_sdiff (Finset.Subset.refl _) (Finset.subset_insert ..)

/-- A node or a box of the layout taints its text if it belongs to a sensitive subtree. -/
def taintInSubtree (strings : List String) (sensitive : ℕ → Bool) (parentIndexes : List ℤ)
    (node : ℤ × ℤ) : Except String (List ℕ) := do
  if ← belongsToSensitiveSubtree sensitive parentIndexes ∅ node.1 then
    taint strings node.2
  else
    return []

/-- The layout of a document. -/
def readLayout : Option Value → Except String (List (ℤ × ℤ))
  | none => .ok []
  | some value => do
    let layout ← record value
    let layoutNodes ← numbers (layout.get "nodeIndex")
    let layoutText ← numbers (layout.get "text")
    if layoutNodes.length = layoutText.length then
      return layoutNodes.zip layoutText
    else
      throw "REDACTION_FAILED: inconsistent layout arrays"

/-- The attributes of the nodes, if there are as many as there are nodes. -/
def nodeAttributes (value : Option Value) (nodeNames nodeValues parentIndexes : List ℤ) :
    Except String (List Value) :=
  match value with
  | some (.arr attributes) =>
    if nodeNames.length = nodeValues.length ∧ nodeNames.length = parentIndexes.length ∧
        attributes.length = nodeNames.length then
      .ok attributes
    else .error "REDACTION_FAILED: inconsistent DOM node arrays"
  | _ => .error "REDACTION_FAILED: inconsistent DOM node arrays"

/-- The body of the loop over the documents: what the document taints. -/
def readDocument (upper lower : String → String) (strings : List String) (rawDocument : Value) :
    Except String (List ℕ) := do
  let document ← record (some rawDocument)
  let nodes ← record (document.get "nodes")
  let nodeNames ← numbers (nodes.get "nodeName")
  let nodeValues ← numbers (nodes.get "nodeValue")
  let parentIndexes ← numbers (nodes.get "parentIndex")
  let attributes ← nodeAttributes (nodes.get "attributes") nodeNames nodeValues parentIndexes
  let read ← (nodeNames.zip attributes).mapM (readNode upper lower strings)
  let sensitive := fun nodeIndex => (read[nodeIndex]?).any (·.1)
  -- Values of controls are hidden whatever the control is.
  let inputValue ← optionalRareStrings (nodes.get "inputValue")
  let inputs ← gather (taint strings) inputValue
  let textValue ← optionalRareStrings (nodes.get "textValue")
  let texts ← gather (taint strings) textValue
  -- Texts only below a sensitive node.
  let values ← gather (taintInSubtree strings sensitive parentIndexes)
    (nodeValues.zipIdx.map fun x => (x.2, x.1))
  let layout ← readLayout (document.get "layout")
  let boxes ← gather (taintInSubtree strings sensitive parentIndexes) layout
  return (read.map (·.2)).flatten ++ inputs ++ texts ++ values ++ boxes

/-! ### Redaction -/

/-- The table after the last loop. -/
def redactStrings (strings : List String) (tainted : List ℕ) : List String :=
  let taintedValues := (tainted.filterMap (strings[·]?)).filter (· ≠ "")
  strings.mapIdx fun index value =>
    if index ∈ tainted || taintedValues.any (includes value) then redacted else value

/-- `sanitizeDomSnapshot` -/
def sanitizeDomSnapshot (upper lower : String → String) (snapshot : Value) :
    Except String Value := do
  let root ← record (some snapshot)
  let strings ← stringTable (root.get "strings")
  let documents ← documentList (root.get "documents")
  let tainted ← gather (readDocument upper lower strings) documents
  return .obj (root.set "strings" (.arr ((redactStrings strings tainted).map .str)))

end BrowserControl.Redaction
