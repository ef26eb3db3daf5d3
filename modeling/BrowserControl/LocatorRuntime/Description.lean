import BrowserControl.LocatorRuntime.Element

/-!
# Descriptions of elements

What a runtime tells of the elements of its frame: `describe` makes a description of an element
under a reference, `capture` describes the elements of interest, which it calls `e1`, `e2` and so
on, and `aiLine` renders a description as a line of the AI DOM. The values of sensitive elements
are left out, and so are their names and texts.
-/

namespace BrowserControl.LocatorRuntime

/-! ### Texts -/

/-- `value.replaceAll(c, replacement)` for a single character. -/
def replaceAll (c : Char) (replacement : String) (value : String) : String :=
  .ofList (value.toList.flatMap fun d => if d = c then replacement.toList else [d])

/-- `text.includes(part)` -/
def includes (text part : String) : Bool := decide (part.toList <:+: text.toList)

/-- `/a.?b/.test(text)` -/
def includesApart (text a b : String) : Bool :=
  text.toList.tails.any fun cs =>
    match List.dropPrefix? cs a.toList with
    | some rest =>
      b.toList.isPrefixOf rest ||
        match rest with
        | c :: rest => c ∉ ['\n', '\r', '\u2028', '\u2029'] && b.toList.isPrefixOf rest
        | [] => false
    | none => false

/-- `escapeAi` -/
def escapeAi (value : String) : String :=
  replaceAll '\n' "\\n" (replaceAll '"' "\\\"" (replaceAll '\\' "\\\\" value))

/-! ### Elements -/

/-- What the runtime says of an element. -/
structure NodeDescription where
  nodeRef : String
  tag : String
  role : Option String
  name : Option String
  text : Option String
  value : Option String
  sensitive : Bool
  attributes : List (String × String)
  deriving DecidableEq

/-- `text || undefined` -/
def nonempty (text : String) : Option String := if text = "" then none else some text

section

variable (browser : Browser)

/-- `isSensitiveElement` -/
def isSensitiveElement (e : Element) : Bool :=
  if e.getAttribute "data-browser-control-sensitive" = some "true" then true
  -- Only text controls can be sensitive by what they are.
  else if e.data.control ≠ some .input ∧ e.data.control ≠ some .textArea then false
  else if e.data.control = some .input ∧ e.data.type = "password" then true
  else
    let autocomplete := browser.toLowerCase ((e.getAttribute "autocomplete").getD "")
    -- What the names of the field tell about it.
    let identity := browser.toLowerCase <| " ".intercalate <|
      (["id", "name", "aria-label", "placeholder"].map fun name =>
        (e.getAttribute name).getD "").filter (· ≠ "")
    ["password", "one-time-code", "cc-number", "cc-csc", "cc-exp"].any (includes autocomplete) ||
      ["pass", "secret", "token", "otp", "cvv", "cvc"].any (includes identity) ||
      includesApart identity "one" "time" || includesApart identity "verification" "code" ||
      includesApart identity "card" "number"

/-- `safeValue`: sensitive elements have none. -/
def safeValue (e : Element) : Option String :=
  if isSensitiveElement browser e then none
  else if e.data.control = none then none
  else some e.data.value

/-- The attributes that are described. -/
def attributeNames : List String :=
  ["id", "name", "type", "href", "src", "title", "placeholder", "aria-label", "aria-expanded",
    "aria-checked", "data-testid"]

/-- The attributes that are shown, cut where they are long. -/
def selectedAttributes (e : Element) : List (String × String) :=
  attributeNames.filterMap fun name =>
    (e.getAttribute name).map fun value => (name, slice value (if name = "href" then 512 else 256))

/-- `#describe` -/
def describe (e : Element) (nodeRef : String) : NodeDescription where
  nodeRef := nodeRef
  tag := browser.toLowerCase e.data.tagName
  role := implicitRole browser e
  name := if isSensitiveElement browser e then none
    else nonempty (slice (accessibleName browser e) 512)
  text := if isSensitiveElement browser e then none else nonempty (slice (elementText e) 512)
  value := safeValue browser e
  sensitive := isSensitiveElement browser e
  attributes := selectedAttributes e

/-! ### Captures -/

/-- The options of a capture, with their defaults. -/
structure SnapshotOptions where
  maxNodes : ℕ := 2000
  includeHidden : Bool := false
  includeText : Bool := true

/-- The element is of interest. -/
def isCandidate (options : SnapshotOptions) (e : Element) : Bool :=
  browser.toLowerCase e.data.tagName ∉ ["script", "style", "noscript", "template"] &&
    !e.data.indicator && (options.includeHidden || e.data.visible) &&
    ((implicitRole browser e).isSome ||
      options.includeText && e.children.isEmpty && elementText e ≠ "" ||
      (["contenteditable", "tabindex", "onclick"].any e.hasAttribute))

/-- The elements that a capture describes. -/
def capturedElements (options : SnapshotOptions) (document : List Element) : List Element :=
  ((collectElements document true).filter (isCandidate browser options)).take
    (max 1 options.maxNodes)

/-- The reference of the element with the number `index`. -/
def captureRef (index : ℕ) : String := "e" ++ Nat.repr (index + 1)

/-- The descriptions of the elements that are captured. -/
def captureNodes (options : SnapshotOptions) (document : List Element) : List NodeDescription :=
  (capturedElements browser options document).mapIdx fun index e =>
    describe browser e (captureRef index)

end

/-- The text of an element in the AI DOM. -/
def aiText (node : NodeDescription) : String :=
  slice (normalizeText (node.name.or node.text)) 300

/-- `key="value"` -/
def aiAttribute (key value : String) : String := key ++ "=\"" ++ escapeAi value ++ "\""

/-- One line of the AI-DOM. -/
def aiLine (node : NodeDescription) : String :=
  let attrs := ["ref=" ++ node.nodeRef] ++ node.role.toList.map (fun role => "role=" ++ role) ++
    node.attributes.map (fun a => aiAttribute a.1 a.2) ++
    node.value.toList.map (aiAttribute "value")
  "<" ++ node.tag ++ " " ++ " ".intercalate attrs ++ ">" ++ escapeAi (aiText node) ++
    "</" ++ node.tag ++ ">"

/-- What a runtime publishes of its frame. -/
structure RuntimeSnapshot where
  nodes : List NodeDescription
  aiDom : String

/-- `capture` -/
def capture (browser : Browser) (options : SnapshotOptions) (document : List Element) :
    RuntimeSnapshot :=
  let nodes := captureNodes browser options document
  { nodes, aiDom := "\n".intercalate (nodes.map aiLine) }

end BrowserControl.LocatorRuntime
