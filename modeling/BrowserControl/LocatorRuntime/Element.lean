import BrowserControl.Encoding.Bytes
import Mathlib.Data.List.DropRight
import Mathlib.Data.List.Infix
import Mathlib.Data.List.Nodup

/-!
# Elements of a page

The part of a document that the locator runtime sees: a tree of elements, some of which host an open
shadow root, and what the runtime reads of each of them to tell its role, its name and its text.

`collectElements` lists the elements below a root in document order; the elements of a shadow root
come directly after its host. An element is told from others by its identity, `id`, so a document is
well formed if all of these differ (`Distinct`).
-/

namespace BrowserControl.LocatorRuntime

/-! ### Texts -/

/-- `\s` in a regular expression, and what `trim` takes away. -/
def isWhitespace (c : Char) : Bool :=
  c.toNat ∈ [9, 10, 11, 12, 13, 32, 0xa0, 0x1680, 0x2028, 0x2029, 0x202f, 0x205f, 0x3000, 0xfeff] ||
    0x2000 ≤ c.toNat && c.toNat ≤ 0x200a

/-- `replace(/\s+/g, " ")`, in a run of whitespace or not. -/
def collapse : Bool → List Char → List Char
  | _, [] => []
  | inRun, c :: cs =>
    if isWhitespace c then if inRun then collapse true cs else ' ' :: collapse true cs
    else c :: collapse false cs

/-- `String.trim` -/
def trim (cs : List Char) : List Char := (cs.dropWhile isWhitespace).rdropWhile isWhitespace

/-- `normalizeText` -/
def normalizeText (value : Option String) : String :=
  .ofList (trim (collapse false (value.getD "").toList))

/-- The pieces of `value.trim().split(/\s+/)` that are not empty. -/
def words (value : String) : List String :=
  ((value.toList.splitOnP isWhitespace).filter (· ≠ [])).map .ofList

/-- `value.slice(0, n)`, which counts code units. -/
def slice (value : String) (n : ℕ) : String := .ofList (Encoding.sliceUnits n value.toList)

/-- `a || b` for texts. -/
def orElse (a b : String) : String := if a = "" then b else a

/-! ### Elements -/

/-- The elements with a value. -/
inductive Control where
  | input
  | textArea
  | select
  deriving DecidableEq

/-- What the runtime reads of an element. -/
structure ElementData where
  tagName : String := ""
  attributes : List (String × String) := []
  /-- Which of the classes of form controls it belongs to, if any. -/
  control : Option Control := none
  type : String := ""
  value : String := ""
  /-- The texts of its labels. -/
  labels : List String := []
  innerText : String := ""
  textContent : String := ""
  /-- What `isVisible` says. -/
  visible : Bool := true
  /-- It is, or is in, the indicator that the extension shows in the page. -/
  indicator : Bool := false
  /-- What `matches` answers for a CSS selector; `none` if it throws. -/
  cssMatches : String → Option Bool := fun _ => none

/-- An element; without an open shadow root, the elements of the root are none. -/
inductive Element where
  | mk (id : ℕ) (data : ElementData) (shadowRoot children : List Element)

namespace Element

/-- What stands for the identity of an element. -/
def id : Element → ℕ
  | .mk id _ _ _ => id

/-- What the element is. -/
def data : Element → ElementData
  | .mk _ data _ _ => data

/-- The elements below it. -/
def children : Element → List Element
  | .mk _ _ _ children => children

/-- `getAttribute` -/
def getAttribute (e : Element) (name : String) : Option String :=
  (e.data.attributes.find? (·.1 = name)).map Prod.snd

/-- `hasAttribute` -/
def hasAttribute (e : Element) (name : String) : Bool := (e.getAttribute name).isSome

end Element

/-- What the runtime asks of the browser about texts. -/
structure Browser where
  toLowerCase : String → String
  toLocaleLowerCase : String → String
  /-- `getElementById(id)?.textContent` -/
  textContentOf : String → Option String

/-- A browser for pages in small letters, without references to other elements. -/
def plain : Browser := ⟨id, id, fun _ => none⟩

section

variable (browser : Browser)

/-- The role that the element has by its tag. -/
def nativeRole (e : Element) : Option String :=
  match browser.toLowerCase e.data.tagName with
  | "a" | "area" => if e.hasAttribute "href" then some "link" else none
  | "button" => some "button"
  | "details" => some "group"
  | "dialog" => some "dialog"
  | "form" =>
    if e.hasAttribute "aria-label" || e.hasAttribute "aria-labelledby" then some "form" else none
  | "h1" | "h2" | "h3" | "h4" | "h5" | "h6" => some "heading"
  -- An empty `alt` marks a decoration.
  | "img" => if e.getAttribute "alt" = some "" then none else some "img"
  | "li" => some "listitem"
  | "ol" | "ul" => some "list"
  | "option" => some "option"
  | "progress" => some "progressbar"
  | "select" => some (if e.hasAttribute "multiple" then "listbox" else "combobox")
  | "summary" => some "button"
  | "table" => some "table"
  | "textarea" => some "textbox"
  | "input" =>
    -- Most types of `input` are text boxes.
    let type := browser.toLowerCase ((e.getAttribute "type").getD "text")
    if type ∈ ["button", "image", "reset", "submit"] then some "button"
    else if type = "checkbox" then some "checkbox"
    else if type = "radio" then some "radio"
    else if type = "range" then some "slider"
    else if type = "number" then some "spinbutton"
    else if type ∈ ["hidden", "file"] then none
    else some "textbox"
  | _ => none

/-- `implicitRole` -/
def implicitRole (e : Element) : Option String :=
  ((e.getAttribute "role").bind fun role => (words role).head?).or (nativeRole browser e)

/-- The texts of the elements that `aria-labelledby` names. -/
def labelledByText (e : Element) : String :=
  let ids := ((e.getAttribute "aria-labelledby").map words).getD []
  " ".intercalate ((ids.map fun id => normalizeText (browser.textContentOf id)).filter (· ≠ ""))

/-- `elementText` -/
def elementText (e : Element) : String :=
  normalizeText (some (orElse e.data.innerText e.data.textContent))

/-- The name that a form control has from its labels or its placeholder. -/
def controlName (e : Element) : String :=
  if e.data.control = none then ""
  else
    orElse (" ".intercalate ((e.data.labels.map fun label => normalizeText (some label)).filter
      (· ≠ ""))) (normalizeText (e.getAttribute "placeholder"))

/-- `accessibleName` -/
def accessibleName (e : Element) : String :=
  orElse (normalizeText (e.getAttribute "aria-label")) <|
  orElse (labelledByText browser e) <|
  orElse (controlName e) <|
  orElse (normalizeText (e.getAttribute "alt")) <|
  orElse (normalizeText (e.getAttribute "title")) <|
  if e.data.control = some .input ∧ e.data.type ∈ ["button", "reset", "submit"] then
    normalizeText (some e.data.value)
  else elementText e

end

/-! ### Document order -/

mutual

/-- The elements below an element, including those of its open shadow root. -/
def Element.inside (includeShadow : Bool) : Element → List Element
  | .mk _ _ shadowRoot children =>
    (if includeShadow then collectElements shadowRoot includeShadow else []) ++
      collectElements children includeShadow
termination_by structural e => e

/-- The elements below a document, an element or a shadow root, which has the children `root`. -/
def collectElements : List Element → Bool → List Element
  | [], _ => []
  | child :: root, includeShadow =>
    child :: (child.inside includeShadow ++ collectElements root includeShadow)
termination_by structural root => root

end

/-- No element has the identity of another. -/
def Distinct (root : List Element) : Prop := ((collectElements root true).map (·.id)).Nodup
deriving Decidable

/-- Elements in the order of a list, which may lack some of them. -/
theorem collectElements_cons (child : Element) (root : List Element) (includeShadow : Bool) :
    collectElements (child :: root) includeShadow =
      child :: (child.inside includeShadow ++ collectElements root includeShadow) := rfl

end BrowserControl.LocatorRuntime
