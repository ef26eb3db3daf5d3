import BrowserControl.LocatorRuntime.Element
import BrowserControl.Markup.Rewriting
import Mathlib.Tactic.IntervalCases

/-!
# Content exports

`exportContent` gives away the content of a page, as HTML, as text or as Markdown. It works on a
copy of the page. From the copy `sanitizedClone` takes the values of the fields in which something
is typed, and the content of the elements into which a secret has been put; for Markdown, six more
loops put texts in the place of links, headings and items.

All of these loops go through elements that have been listed before, and change the tree in which
these stand. What a `template` element contains is not in that tree: no loop comes there, and the
HTML shows it as it is.

`content_of_public`: what the loops take out does not show in any of the three formats, and
`content_template` is about what they leave. `exportContent_of_outline`: of the attributes of an
element, a text and a Markdown export show whether it is marked as sensitive, whether it is the
indicator, whether it is a link, and where the link leads without query and fragment; they show no
other. `exportContent_markdown` says what the six loops make of a page, however its elements are
nested.
-/

namespace BrowserControl.LocatorRuntime.Export

open Markup

/-- The attribute that marks an element into which a secret has been put. -/
def SENSITIVE_ATTRIBUTE : String := "data-browser-control-sensitive"

/-- What stands in the place of a secret. -/
def REDACTED_TEXT : String := "[REDACTED]"

/-- What an export looks at in an element. -/
structure Tag where
  localName : String
  /-- In capital letters for an element of an HTML document. -/
  tagName : String
  attributes : List (String × String)
  /-- The markup of a template's contents. They are a tree of their own, which `cloneNode` copies
  and `outerHTML` prints, and into which neither `querySelectorAll` nor `textContent` goes. -/
  contents : String

/-- `getAttribute`, which is `null` for an attribute that is not there. -/
def Tag.getAttribute (tag : Tag) (name : String) : Option String :=
  (tag.attributes.find? (·.1 = name)).map Prod.snd

/-- The selector `[name]`. -/
def Tag.hasAttribute (tag : Tag) (name : String) : Bool := (tag.getAttribute name).isSome

/-- `removeAttribute` -/
def Tag.removeAttribute (tag : Tag) (name : String) : Tag :=
  { tag with attributes := tag.attributes.filter (·.1 ≠ name) }

/-- An address, cut before its query and before its fragment. -/
structure Url where
  head : String
  search : String
  hash : String

/-- `url.toString()` -/
def Url.toString (url : Url) : String := url.head ++ url.search ++ url.hash

/-- What the page's browser does for an export. -/
structure Platform where
  /-- `new URL(value, location.href)`, or `none` if that throws. -/
  parseUrl : String → Option Url
  /-- The `href` of a link, as text. In a link of a drawing it is not an address but an object. -/
  href : Tag → String
  /-- The markup of an element, with the contents of its templates. -/
  outerHTML : Node Unit Tag → String

/-! ### The copy -/

/-- `candidate.matches("input, textarea")` -/
def Tag.editable (tag : Tag) : Bool := tag.localName ∈ ["input", "textarea"]

/-- What the loop of `sanitizedClone` does to an element. -/
def sanitize (tag : Tag) : Action Tag :=
  let tag₁ := if tag.editable then tag.removeAttribute "value" else tag
  let sensitive := tag₁.getAttribute SENSITIVE_ATTRIBUTE = some "true"
  let tag₂ := if sensitive then tag₁.removeAttribute "value" else tag₁
  let tag₃ := tag₂.removeAttribute SENSITIVE_ATTRIBUTE
  -- the second text, if there is one, takes the place of the first
  if sensitive ∧ tag.localName ≠ "input" then .setText tag₃ REDACTED_TEXT
  else if tag.editable ∧ tag.tagName = "TEXTAREA" then .setText tag₃ ""
  else .edit tag₃

section

variable {ι : Type} [DecidableEq ι]

/-- The loop goes through the copy and the elements below it, and leaves the copy in its place. -/
def sanitizedClone (element : Node ι Tag) : Node ι Tag :=
  (loop sanitize element.ids [element]).headD element

/-! ### The formats -/

/-- The formats that `exportContent` knows. -/
inductive Format where
  | html
  | text
  | markdown
  deriving DecidableEq

/-- The root of a document, with its identity, and what is below it. -/
structure Page (ι : Type) where
  id : ι
  tag : Tag
  children : List (Node ι Tag)
  distinct : (Node.element id tag children).ids.Nodup

/-- `document.documentElement` -/
def Page.documentElement (page : Page ι) : Node ι Tag := .element page.id page.tag page.children

/-- A body is a `body` or a `frameset` below the root. -/
def isBody : Node ι Tag → Bool
  | .element _ tag _ => tag.localName ∈ ["body", "frameset"]
  | _ => false

/-- `document.body` -/
def Page.body (page : Page ι) : Option (Node ι Tag) := page.children.find? isBody

variable (platform : Platform)

/-- An address without its query and fragment, or nothing for what is not an address. -/
def safeExportUrl (value : String) : String :=
  match platform.parseUrl value with
  | some url => { url with search := "", hash := "" : Url }.toString
  | none => ""

/-- `querySelectorAll("script, style, noscript, template, #__browser_control_indicator")` -/
def dropped : Pass Tag where
  selects tag := tag.localName ∈ ["script", "style", "noscript", "template"] ||
    tag.getAttribute "id" = some "__browser_control_indicator"
  change _ := .remove

/-- `querySelectorAll("a[href]")` -/
def links : Pass Tag where
  selects tag := tag.localName = "a" && tag.hasAttribute "href"
  change tag := .replace fun text => normalizeText (some text) ++ " (" ++
    safeExportUrl platform (platform.href tag) ++ ")"

/-- `Number(node.tagName.slice(1))`, which is as good as zero when it is not a number. -/
def Tag.level (tag : Tag) : ℕ := (String.ofList (tag.tagName.toList.drop 1)).toNat?.getD 0

/-- `querySelectorAll("h1,h2,h3,h4,h5,h6")` -/
def headings : Pass Tag where
  selects tag := tag.localName ∈ ["h1", "h2", "h3", "h4", "h5", "h6"]
  change tag := .replace fun text =>
    String.ofList (List.replicate tag.level '#') ++ " " ++ normalizeText (some text) ++ "\n\n"

/-- `querySelectorAll("li")` -/
def items : Pass Tag where
  selects tag := tag.localName = "li"
  change _ := .replace fun text => "- " ++ normalizeText (some text) ++ "\n"

/-- `querySelectorAll("br")` -/
def breaks : Pass Tag where
  selects tag := tag.localName = "br"
  change _ := .replace fun _ => "\n"

/-- The elements behind which a line stays empty. -/
def blockNames : List String :=
  ["p", "div", "section", "article", "header", "footer", "nav", "main", "blockquote", "pre"]

/-- `querySelectorAll("p,div,section,article,header,footer,nav,main,blockquote,pre")` -/
def blocks : Pass Tag where
  selects tag := tag.localName ∈ blockNames
  change _ := .append "\n\n"

/-- The six loops, in their order. -/
def markdownPasses : List (Pass Tag) :=
  [dropped, links platform, headings, items, breaks, blocks]

/-- `replace(/\n[ \t]+/g, "\n")`, right after a line break and its blanks or not. -/
def unindent : Bool → List Char → List Char
  | _, [] => []
  | afterBreak, c :: cs =>
    if c = '\n' then c :: unindent true cs
    else if afterBreak && (c = ' ' || c = '\t') then unindent true cs
    else c :: unindent false cs

/-- `replace(/\n{3,}/g, "\n\n")`, after so many line breaks. -/
def capBreaks : ℕ → List Char → List Char
  | _, [] => []
  | n, c :: cs =>
    if c = '\n' then if n < 2 then c :: capBreaks (n + 1) cs else capBreaks n cs
    else c :: capBreaks 0 cs

/-- The last line of the Markdown branch. -/
def tidy (text : String) : String := .ofList (trim (capBreaks 0 (unindent false text.toList)))

/-- The markup of the whole copy. -/
def fullHtml (page : Page ι) : String :=
  platform.outerHTML ((sanitizedClone page.documentElement).map id)

/-- The copy of the body is not rendered, so its `innerText` is its text content. -/
def exportContent (page : Page ι) : Format → String
  | .html => fullHtml platform page
  | .text =>
    match page.body with
    | none => ""
    | some body => normalizeText (some (sanitizedClone body).textContent)
  | .markdown =>
    match page.body with
    | none => ""
    | some body =>
      tidy (textOf (runPasses (markdownPasses platform) (sanitizedClone body).children))

/-- The content that `#contentExport` makes for HTML, text and Markdown, which are the formats of
its last branch. A frame that does not answer has no result. -/
def content (frames : List (ℕ × Option (Page ι))) (format : Format) : String :=
  "\n\n".intercalate (frames.filterMap fun frame => frame.2.map fun page =>
    "<!-- frame:" ++ Nat.repr frame.1 ++ " -->\n" ++ exportContent platform page format)

end

/-! ### What is public of a page -/

/-- An element into which a secret has been put. -/
def Tag.sensitive (tag : Tag) : Bool := tag.getAttribute SENSITIVE_ATTRIBUTE = some "true"

/-- The text that takes the place of the content of an element, if any does. -/
def Tag.standIn (tag : Tag) : Option String :=
  if tag.sensitive ∧ tag.localName ≠ "input" then some REDACTED_TEXT
  else if tag.editable ∧ tag.tagName = "TEXTAREA" then some ""
  else none

/-- The tag without the value of a field in which something is typed, or that has got a secret. -/
def Tag.withoutValue (tag : Tag) : Tag :=
  if tag.editable || tag.sensitive then tag.removeAttribute "value" else tag

mutual

/-- **What is public of a node.** Neither the values of fields, nor the content of an element for
which something else stands in; but the contents of a template are. -/
def publicOf {ι : Type} : Node ι Tag → Node Unit Tag
  | .text content => .text content
  | .comment content => .comment content
  | .element _ tag children =>
    .element () tag.withoutValue (if tag.standIn.isSome then [] else publicAll children)
termination_by structural n => n

/-- The same for a list. -/
def publicAll {ι : Type} : List (Node ι Tag) → List (Node Unit Tag)
  | [] => []
  | n :: ns => publicOf n :: publicAll ns
termination_by structural ns => ns

end

/-- The root and what is below it, also if something stands in for its content: the body is looked
up in the page, and not in a copy of the root. -/
def Page.public {ι : Type} (page : Page ι) : Node Unit Tag :=
  .element () page.tag.withoutValue (publicAll page.children)

/-! ### A page -/

mutual

/-- The markup of a node of a small page, in which nothing has to be escaped. -/
def markup : Node Unit Tag → String
  | .text content => content
  | .comment content => "<!--" ++ content ++ "-->"
  | .element _ tag children =>
    "<" ++ tag.localName
      ++ String.join (tag.attributes.map fun a => " " ++ a.1 ++ "=\"" ++ a.2 ++ "\"") ++ ">"
      -- of a template its contents are printed, and not its children
      ++ if tag.localName = "input" then ""
        else (if tag.localName = "template" then tag.contents else markupAll children) ++ "</"
          ++ tag.localName ++ ">"
termination_by structural n => n

/-- The same for a list. -/
def markupAll : List (Node Unit Tag) → String
  | [] => ""
  | n :: ns => markup n ++ markupAll ns
termination_by structural ns => ns

end

/-- Two addresses, which are not resolved. -/
def samplePlatform : Platform where
  parseUrl value :=
    (["?a=1", "?b=2"].find? fun search => value = "/docs" ++ search).map fun search =>
      ⟨"/docs", search, ""⟩
  href tag := (tag.getAttribute "href").getD ""
  outerHTML := markup

/-- A page with a field, an element with a secret and a link. -/
def samplePage (typed query : String) : Page ℕ where
  id := 0
  tag := ⟨"html", "HTML", [], ""⟩
  children :=
    [.element 1 ⟨"body", "BODY", [], ""⟩
      [.element 2 ⟨"input", "INPUT", [("type", "text"), ("value", typed)], ""⟩ [],
        .element 3 ⟨"div", "DIV", [(SENSITIVE_ATTRIBUTE, "true")], ""⟩ [.text typed],
        .element 4 ⟨"a", "A", [("href", "/docs" ++ query)], ""⟩ [.text "docs"]]]
  distinct := by
    show [0, 1, 2, 3, 4].Nodup
    decide

/-- A page with nothing but a template, in whose contents something has been typed. -/
def templatePage (typed : String) : Page ℕ where
  id := 0
  tag := ⟨"html", "HTML", [], ""⟩
  children :=
    [.element 1 ⟨"template", "TEMPLATE", [], "<input value=\"" ++ typed ++ "\">"⟩ []]
  distinct := by
    show [0, 1].Nodup
    decide

/-! ### What the copy is -/

/-- The tag as it is in the copy. -/
def Tag.cleaned (tag : Tag) : Tag := tag.withoutValue.removeAttribute SENSITIVE_ATTRIBUTE

mutual

/-- The copy, without the identities of its elements. -/
def sanitized {ι : Type} : Node ι Tag → Node Unit Tag
  | .text content => .text content
  | .comment content => .comment content
  | .element _ tag children =>
    .element () tag.cleaned
      (match tag.standIn with
      | some text => textNodes text
      | none => sanitizedAll children)
termination_by structural n => n

/-- The same for a list. -/
def sanitizedAll {ι : Type} : List (Node ι Tag) → List (Node Unit Tag)
  | [] => []
  | n :: ns => sanitized n :: sanitizedAll ns
termination_by structural ns => ns

end

/-- What an export comes to: of the copy, its text, or its text after the passes. -/
def rendered {ι : Type} (platform : Platform) (page : Page ι) : Format → String
  | .html => platform.outerHTML (sanitized page.documentElement)
  | .text => (page.body.map fun body => normalizeText (some (sanitized body).textContent)).getD ""
  | .markdown => (page.body.map fun body =>
      tidy (renderAll (markdownPasses platform) (sanitized body).children)).getD ""

/-- The other attributes stay. -/
theorem getAttribute_removeAttribute {name other : String} (h : other ≠ name) (tag : Tag) :
    (tag.removeAttribute name).getAttribute other = tag.getAttribute other := by
  have h_pred : (fun a : String × String =>
      decide (decide (a.1 ≠ name) = true ∧ decide (a.1 = other) = true)) =
      fun a => decide (a.1 = other) := by
    funext a
    by_cases h_other : a.1 = other
    · simp [h_other, h]
    · simp [h_other]
  unfold Tag.getAttribute Tag.removeAttribute
  dsimp only
  rw [List.find?_filter, h_pred]

/-- An attribute is removed once. -/
theorem removeAttribute_twice (name : String) (tag : Tag) :
    (tag.removeAttribute name).removeAttribute name = tag.removeAttribute name := by
  unfold Tag.removeAttribute
  dsimp only
  rw [List.filter_filter]
  simp only [Bool.and_self]

/-- Whether an element is sensitive does not depend on its value. -/
theorem sensitive_removeValue (tag : Tag) :
    (tag.removeAttribute "value").sensitive = tag.sensitive := by
  unfold Tag.sensitive
  rw [getAttribute_removeAttribute (by decide)]

/-- What is done to an element in the loop is said by its stand-in. -/
theorem sanitize_eq (tag : Tag) :
    sanitize tag = tag.standIn.elim (.edit tag.cleaned) (.setText tag.cleaned) := by
  have h_mark : ∀ tag' : Tag, (tag'.getAttribute SENSITIVE_ATTRIBUTE = some "true") =
      (tag'.sensitive = true) := fun tag' => (decide_eq_true_eq).symm
  -- the value goes first, and then the attributes of a sensitive element
  have h_tags : (if (if tag.editable then tag.removeAttribute "value" else tag).sensitive = true
      then (if tag.editable then tag.removeAttribute "value" else tag).removeAttribute "value"
      else if tag.editable then tag.removeAttribute "value" else tag) = tag.withoutValue := by
    unfold Tag.withoutValue
    cases h_editable : tag.editable <;> cases h_sensitive : tag.sensitive <;>
      simp [h_sensitive, sensitive_removeValue, removeAttribute_twice]
  have h_sensitive : (if tag.editable then tag.removeAttribute "value" else tag).sensitive =
      tag.sensitive := by
    cases tag.editable
    · rfl
    · exact sensitive_removeValue tag
  unfold sanitize Tag.standIn Tag.cleaned
  dsimp only
  simp only [h_mark]
  rw [h_tags, h_sensitive]
  split_ifs <;> rfl

/-- A copy is made node by node. -/
theorem rewrite_sanitize {ι : Type} (id : ι) (tag : Tag) (children : List (Node ι Tag)) :
    (Node.element id tag children).rewrite (fun _ => true) sanitize =
      [.element id tag.cleaned
        (tag.standIn.elim (rewriteAll (fun _ => true) sanitize children) textNodes)] := by
  rw [Node.rewrite, if_pos rfl, sanitize_eq]
  cases tag.standIn <;> rfl

section

variable {ι : Type}

/-- A text is the same without its identities. -/
theorem mapAll_textNodes (text : String) :
    mapAll (fun tag : Tag => tag) (textNodes text : List (Node ι Tag)) = textNodes text := by
  unfold textNodes
  split_ifs <;> rfl

mutual

/-- The recursion gives the sanitized element. -/
theorem map_rewrite :
    ∀ n : Node ι Tag, mapAll (fun tag => tag) (n.rewrite (fun _ => true) sanitize) = [sanitized n]
  | .text _ => rfl
  | .comment _ => rfl
  | .element id tag children => by
    rw [rewrite_sanitize, sanitized, mapAll, mapAll, Node.map]
    cases tag.standIn with
    | some text =>
      exact congrArg (fun ns => [Node.element () tag.cleaned ns]) (mapAll_textNodes text)
    | none =>
      exact congrArg (fun ns => [Node.element () tag.cleaned ns]) (map_rewriteAll children)

theorem map_rewriteAll :
    ∀ ns : List (Node ι Tag),
      mapAll (fun tag => tag) (rewriteAll (fun _ => true) sanitize ns) = sanitizedAll ns
  | [] => rfl
  | n :: ns => by
    rw [rewriteAll, mapAll_eq, List.map_append, ← mapAll_eq, ← mapAll_eq, map_rewrite n,
      map_rewriteAll ns]
    rfl

end

variable [DecidableEq ι]

/-- **The loop makes the copy.** -/
theorem sanitizedClone_eq {n : Node ι Tag} (h : n.ids.Nodup) :
    n.rewrite (fun _ => true) sanitize = [sanitizedClone n] := by
  have h_loop : loop sanitize n.ids [n] = n.rewrite (fun _ => true) sanitize :=
    Node.loop_eq_rewrite h
  rw [sanitizedClone, h_loop]
  cases n with
  | text content => rfl
  | comment content => rfl
  | element id tag children =>
    rw [rewrite_sanitize]
    rfl

/-- So does the loop of the code, where every element has its own identity. -/
theorem map_sanitizedClone {n : Node ι Tag} (h : n.ids.Nodup) :
    (sanitizedClone n).map (fun tag => tag) = sanitized n := by
  have h_map := map_rewrite n
  rw [sanitizedClone_eq h] at h_map
  exact List.singleton_inj.mp h_map

/-- The elements that are left have their own identities, too. -/
theorem nodup_sanitizedClone {n : Node ι Tag} (h : n.ids.Nodup) :
    (idsOf (sanitizedClone n).children).Nodup := by
  have h_sublist := n.ids_rewrite (fun _ => true) sanitize
  rw [sanitizedClone_eq h] at h_sublist
  have h_clone : (sanitizedClone n).ids.Nodup := by
    have h_nodup := h_sublist.nodup h
    rwa [idsOf_cons, idsOf, selectOf, List.append_nil] at h_nodup
  cases h_eq : sanitizedClone n with
  | text content => exact List.nodup_nil
  | comment content => exact List.nodup_nil
  | element id tag children =>
    rw [h_eq, idsOf_element, List.nodup_cons] at h_clone
    exact h_clone.2

end

/-! ### What an export depends on -/

/-- What stands for an element does not depend on its value. -/
theorem standIn_withoutValue (tag : Tag) : tag.withoutValue.standIn = tag.standIn := by
  unfold Tag.withoutValue
  split_ifs
  · unfold Tag.standIn
    rw [sensitive_removeValue]
    rfl
  · rfl

/-- Nor do the attributes that are left. -/
theorem cleaned_withoutValue (tag : Tag) : tag.withoutValue.cleaned = tag.cleaned := by
  have h_twice : tag.withoutValue.withoutValue = tag.withoutValue := by
    cases h_hidden : tag.editable || tag.sensitive with
    | false => simp only [Tag.withoutValue, h_hidden, Bool.false_eq_true, if_false]
    | true =>
      have h_value : tag.withoutValue = tag.removeAttribute "value" := by
        simp only [Tag.withoutValue, h_hidden, if_true]
      have h_same : (tag.removeAttribute "value").editable = tag.editable := rfl
      rw [h_value, Tag.withoutValue, h_same, sensitive_removeValue, h_hidden, if_pos rfl,
        removeAttribute_twice]
  unfold Tag.cleaned
  rw [h_twice]

mutual

/-- The copy shows what is public. -/
theorem sanitized_publicOf {ι : Type} : ∀ n : Node ι Tag, sanitized (publicOf n) = sanitized n
  | .text _ => rfl
  | .comment _ => rfl
  | .element _ tag children => by
    rw [publicOf, sanitized, sanitized, standIn_withoutValue, cleaned_withoutValue]
    cases tag.standIn with
    | some text => rfl
    | none => exact congrArg (Node.element () tag.cleaned) (sanitizedAll_publicAll children)

theorem sanitizedAll_publicAll {ι : Type} :
    ∀ ns : List (Node ι Tag), sanitizedAll (publicAll ns) = sanitizedAll ns
  | [] => rfl
  | n :: ns => by
    rw [publicAll, sanitizedAll, sanitizedAll, sanitized_publicOf n, sanitizedAll_publicAll ns]

end

section

variable {ι : Type}

/-- The children of an element with other data. -/
theorem children_map {α β : Type} (f : α → β) (n : Node ι α) :
    (n.map f).children = mapAll f n.children := by
  cases n <;> rfl

/-- The body is the body. -/
theorem isBody_publicOf (n : Node ι Tag) : isBody (publicOf n) = isBody n := by
  cases n with
  | text content => rfl
  | comment content => rfl
  | element id tag children =>
    rw [publicOf, isBody, isBody]
    have h_name : tag.withoutValue.localName = tag.localName := by
      unfold Tag.withoutValue
      split_ifs <;> rfl
    rw [h_name]

/-- The first node with a property that does not depend on what is hidden. -/
theorem find?_publicAll (ns : List (Node ι Tag)) :
    (publicAll ns).find? isBody = (ns.find? isBody).map publicOf := by
  induction ns with
  | nil => rfl
  | cons n ns ih =>
    rw [publicAll, List.find?_cons, List.find?_cons, isBody_publicOf, ih]
    cases isBody n <;> rfl

/-- The elements of the body have their own identities. -/
theorem Page.nodup_body {page : Page ι} {body : Node ι Tag} (h : page.body = some body) :
    body.ids.Nodup := by
  have h_mem : body ∈ page.children := List.mem_of_find?_eq_some h
  obtain ⟨before, after, h_children⟩ := List.append_of_mem h_mem
  have h_distinct := page.distinct
  rw [idsOf_element, h_children, idsOf_append, idsOf_cons, List.nodup_cons] at h_distinct
  exact ((List.nodup_append'.mp h_distinct.2).2.1.of_append_left)

variable [DecidableEq ι] (platform : Platform)

/-- Passes on the same data. -/
theorem comap_id (ps : List (Pass Tag)) : ps.map (Pass.comap fun tag => tag) = ps := List.map_id ps

/-- **What the loops make of a page.** -/
theorem exportContent_eq (page : Page ι) (format : Format) :
    exportContent platform page format = rendered platform page format := by
  unfold rendered
  cases format with
  | html => exact congrArg platform.outerHTML (map_sanitizedClone page.distinct)
  -- without a body the text is empty, otherwise that of its sanitized clone
  | text =>
    unfold exportContent
    dsimp only
    cases h_body : page.body with
    | none => rfl
    | some body =>
      rw [Option.map_some, Option.getD_some, ← map_sanitizedClone (page.nodup_body h_body),
        Node.textContent_map]
  | markdown =>
    unfold exportContent
    dsimp only
    cases h_body : page.body with
    | none => rfl
    | some body =>
      have h_nodup := page.nodup_body h_body
      dsimp only
      rw [Option.map_some, Option.getD_some, ← map_sanitizedClone h_nodup, children_map,
        renderAll_map, comap_id, ← textOf_walk, runPasses_eq_walk _ (nodup_sanitizedClone h_nodup)]

/-- The export depends on what is public. -/
theorem exportContent_public {ι' : Type} [DecidableEq ι'] {page : Page ι} {page' : Page ι'}
    (h : page.public = page'.public) (format : Format) :
    exportContent platform page format = exportContent platform page' format := by
  injection h with _ h_tag h_children
  rw [exportContent_eq, exportContent_eq]
  unfold rendered
  -- the body is found in the public page, and its copy is the same
  have h_body : page.body.map sanitized = page'.body.map sanitized := by
    have h_find := congrArg (List.find? isBody) h_children
    rw [find?_publicAll, find?_publicAll] at h_find
    have h_map := congrArg (Option.map sanitized) h_find
    rw [Option.map_map, Option.map_map] at h_map
    have h_comp : ∀ κ : Type, (sanitized ∘ publicOf : Node κ Tag → Node Unit Tag) = sanitized :=
      fun κ => funext sanitized_publicOf
    rw [h_comp, h_comp] at h_map
    exact h_map
  cases format with
  | html =>
    dsimp only
    unfold Page.documentElement
    rw [sanitized, sanitized, ← standIn_withoutValue, ← standIn_withoutValue page'.tag,
      ← cleaned_withoutValue, ← cleaned_withoutValue page'.tag, h_tag,
      ← sanitizedAll_publicAll, ← sanitizedAll_publicAll page'.children, h_children]
  | text =>
    have h_text := congrArg (Option.map fun body => normalizeText (some body.textContent)) h_body
    rw [Option.map_map, Option.map_map] at h_text
    exact congrArg (Option.getD · "") h_text
  | markdown =>
    have h_text := congrArg (Option.map fun body =>
      tidy (renderAll (markdownPasses platform) body.children)) h_body
    rw [Option.map_map, Option.map_map] at h_text
    exact congrArg (Option.getD · "") h_text

/-- A frame, as far as it is public. -/
def publicFrame (frame : ℕ × Option (Page ι)) : ℕ × Option (Node Unit Tag) :=
  (frame.1, frame.2.map Page.public)

/-- **Exports do not tell what is typed.** If two tabs differ only in the values of fields, and in
what is in text areas and in elements that have got a secret, then their exports are the same. A
field in the contents of a template is not one of these fields. -/
theorem content_of_public {ι' : Type} [DecidableEq ι'] {frames : List (ℕ × Option (Page ι))}
    {frames' : List (ℕ × Option (Page ι'))}
    (h : frames.map publicFrame = frames'.map publicFrame) (format : Format) :
    content platform frames format = content platform frames' format := by
  unfold content
  congr 1
  -- frame after frame; the texts are joined at the end
  induction frames generalizing frames' with
  | nil =>
    rw [List.map_nil, eq_comm, List.map_eq_nil_iff] at h
    rw [h]
    rfl
  | cons frame frames ih =>
    cases frames' with
    | nil => cases h
    | cons frame' frames' =>
      rw [List.map_cons, List.map_cons, List.cons.injEq] at h
      obtain ⟨h_frame, h_frames⟩ := h
      obtain ⟨h_id, h_page⟩ := Prod.mk.inj h_frame
      have h_text : (frame.2.map fun page =>
          "<!-- frame:" ++ Nat.repr frame.1 ++ " -->\n" ++ exportContent platform page format) =
          frame'.2.map fun page =>
            "<!-- frame:" ++ Nat.repr frame'.1 ++ " -->\n" ++
              exportContent platform page format := by
        rw [h_id]
        cases h_some : frame.2 with
        | none =>
          rw [h_some, Option.map_none, eq_comm, Option.map_eq_none_iff] at h_page
          rw [h_page]
          rfl
        | some page =>
          rw [h_some, Option.map_some, eq_comm, Option.map_eq_some_iff] at h_page
          obtain ⟨page', h_some', h_public⟩ := h_page
          rw [h_some', Option.map_some, Option.map_some,
            exportContent_public platform h_public.symm]
      rw [List.filterMap_cons, List.filterMap_cons, h_text, ih h_frames]

end

/-- The theorem for two pages that differ in what was typed. -/
theorem content_of_public_typed :
    content samplePlatform [(0, some (samplePage "first" "?q"))] .html =
      content samplePlatform [(0, some (samplePage "second" "?q"))] .html :=
  content_of_public samplePlatform rfl .html

/-- **What is left.** The loop of `sanitizedClone` does not come to the contents of a template. -/
theorem content_template :
    content samplePlatform [(0, some (templatePage "first"))] .html ≠
      content samplePlatform [(0, some (templatePage "second"))] .html := by
  decide

/-! ### Links and attributes -/

/-- What a text or Markdown export is told of an element. -/
structure Outline where
  localName : String
  /-- The level of a heading. -/
  level : ℕ
  indicator : Bool
  isLink : Bool
  /-- Where a link leads, without query and fragment. -/
  target : String

/-- The outline of an element. -/
def Tag.outline (platform : Platform) (tag : Tag) : Outline where
  localName := tag.localName
  level := tag.level
  indicator := tag.getAttribute "id" = some "__browser_control_indicator"
  isLink := tag.localName = "a" && tag.hasAttribute "href"
  target := safeExportUrl platform (platform.href tag)

/-- The passes, as they look at an outline. -/
def outlinePasses : List (Pass Outline) :=
  [⟨fun o => o.localName ∈ ["script", "style", "noscript", "template"] || o.indicator,
      fun _ => .remove⟩,
    ⟨fun o => o.isLink,
      fun o => .replace fun text => normalizeText (some text) ++ " (" ++ o.target ++ ")"⟩,
    ⟨fun o => o.localName ∈ ["h1", "h2", "h3", "h4", "h5", "h6"],
      fun o => .replace fun text =>
        String.ofList (List.replicate o.level '#') ++ " " ++ normalizeText (some text) ++ "\n\n"⟩,
    ⟨fun o => o.localName = "li",
      fun _ => .replace fun text => "- " ++ normalizeText (some text) ++ "\n"⟩,
    ⟨fun o => o.localName = "br", fun _ => .replace fun _ => "\n"⟩,
    ⟨fun o => o.localName ∈ blockNames, fun _ => .append "\n\n"⟩]

/-- The passes ask for the outline of an element only. -/
theorem markdownPasses_eq (platform : Platform) :
    markdownPasses platform = outlinePasses.map (Pass.comap (Tag.outline platform)) := rfl

mutual

/-- **The outline of a node.** Its texts, its elements by name, and where its links lead. -/
def outlineOf {ι : Type} (platform : Platform) : Node ι Tag → Node Unit Outline
  | .text content => .text content
  | .comment _ => .comment ""
  | .element _ tag children =>
    -- the loops for Markdown come to the elements of the copy
    .element () (tag.cleaned.outline platform)
      (match tag.standIn with
      | some text => textNodes text
      | none => outlineAll platform children)
termination_by structural n => n

/-- The same for a list. -/
def outlineAll {ι : Type} (platform : Platform) : List (Node ι Tag) → List (Node Unit Outline)
  | [] => []
  | n :: ns => outlineOf platform n :: outlineAll platform ns
termination_by structural ns => ns

end

/-- The outline of what is below the root. -/
def Page.outline {ι : Type} (platform : Platform) (page : Page ι) : List (Node Unit Outline) :=
  outlineAll platform page.children

/-- The name of the element stays. -/
theorem localName_cleaned (tag : Tag) : tag.cleaned.localName = tag.localName := by
  unfold Tag.cleaned Tag.withoutValue
  split_ifs <;> rfl

section

variable {ι : Type} (platform : Platform)

/-- The text of a text. -/
theorem textOf_textNodes {κ α : Type} (text : String) :
    textOf (textNodes text : List (Node κ α)) = text := by
  unfold textNodes
  split_ifs with h
  · exact h.symm
  · exact String.append_empty

/-- No pass changes a text. -/
theorem renderAll_textNodes {κ α : Type} (ps : List (Pass α)) (text : String) :
    renderAll ps (textNodes text : List (Node κ α)) = text := by
  unfold textNodes
  split_ifs with h
  · exact h.symm
  · exact String.append_empty

mutual

/-- The outline has the text of the element. -/
theorem textContent_outlineOf :
    ∀ n : Node ι Tag, (outlineOf platform n).textContent = (sanitized n).textContent
  | .text _ => rfl
  | .comment _ => rfl
  | .element _ tag children => by
    rw [outlineOf, sanitized, Node.textContent, Node.textContent]
    cases tag.standIn with
    | some text =>
      dsimp only
      rw [textOf_textNodes, textOf_textNodes]
    | none => exact textOf_outlineAll children

theorem textOf_outlineAll :
    ∀ ns : List (Node ι Tag), textOf (outlineAll platform ns) = textOf (sanitizedAll ns)
  | [] => rfl
  | n :: ns => by
    rw [outlineAll, sanitizedAll, textOf, textOf, textContent_outlineOf n, textOf_outlineAll ns]

end

mutual

/-- Passes that look at outlines make the same text of the copy and of its outline. -/
theorem render_outlineOf :
    ∀ (n : Node ι Tag) (ps : List (Pass Outline)),
      (outlineOf platform n).render ps =
        (sanitized n).render (ps.map (Pass.comap (Tag.outline platform)))
  | .text _, _ => rfl
  | .comment _, _ => rfl
  | .element id tag children, ps => by
    have h_children : ∀ ps' : List (Pass Outline),
        renderAll ps' (tag.standIn.elim (outlineAll platform children) textNodes) =
          renderAll (ps'.map (Pass.comap (Tag.outline platform)))
            (tag.standIn.elim (sanitizedAll children) textNodes) := by
      intro ps'
      cases tag.standIn with
      | some text =>
        rw [Option.elim_some, Option.elim_some, renderAll_textNodes, renderAll_textNodes]
      | none => exact renderAll_outlineAll children ps'
    have h_outline : outlineOf platform (.element id tag children : Node ι Tag) =
        .element () (tag.cleaned.outline platform)
          (tag.standIn.elim (outlineAll platform children) textNodes) := by
      rw [outlineOf]
      cases tag.standIn <;> rfl
    have h_copy : sanitized (.element id tag children : Node ι Tag) =
        .element () tag.cleaned (tag.standIn.elim (sanitizedAll children) textNodes) := by
      rw [sanitized]
      cases tag.standIn <;> rfl
    rw [h_outline, h_copy, Node.render, Node.render, fate_comap]
    dsimp only
    -- a pass has replaced the element by a text, or all have kept it
    cases (fate ps (tag.cleaned.outline platform)).cut with
    | some text =>
      dsimp only
      rw [h_children]
    | none =>
      dsimp only
      rw [h_children]

/-- The passes on outlines and on the elements. -/
theorem renderAll_outlineAll :
    ∀ (ns : List (Node ι Tag)) (ps : List (Pass Outline)),
      renderAll ps (outlineAll platform ns) =
        renderAll (ps.map (Pass.comap (Tag.outline platform))) (sanitizedAll ns)
  | [], _ => rfl
  | n :: ns, ps => by
    rw [outlineAll, sanitizedAll, renderAll, renderAll, render_outlineOf n ps,
      renderAll_outlineAll ns ps]

end

/-- The outline of the body. -/
def isBodyOutline : Node Unit Outline → Bool
  | .element _ o _ => o.localName ∈ ["body", "frameset"]
  | _ => false

/-- The body is found by its outline. -/
theorem find?_outlineAll (ns : List (Node ι Tag)) :
    (outlineAll platform ns).find? isBodyOutline = (ns.find? isBody).map (outlineOf platform) := by
  induction ns with
  | nil => rfl
  | cons n ns ih =>
    have h_body : isBodyOutline (outlineOf platform n) = isBody n := by
      cases n with
      | text content => rfl
      | comment content => rfl
      | element id tag children =>
        rw [outlineOf, isBodyOutline, isBody, Tag.outline, localName_cleaned]
    rw [outlineAll, List.find?_cons, List.find?_cons, h_body, ih]
    cases isBody n <;> rfl

/-- What is below a body that has been found. -/
theorem renderAll_children {n : Node ι Tag} (h : isBody n = true) (ps : List (Pass Outline)) :
    renderAll ps (outlineOf platform n).children =
      renderAll (ps.map (Pass.comap (Tag.outline platform))) (sanitized n).children := by
  cases n with
  | text content => cases h
  | comment content => cases h
  | element id tag children =>
    rw [outlineOf, sanitized, Node.children, Node.children]
    cases tag.standIn with
    | some text =>
      dsimp only
      rw [renderAll_textNodes, renderAll_textNodes]
    | none => exact renderAll_outlineAll platform children ps

/-- **Texts do not tell attributes.** Two pages with the same elements by name and the same texts
have the same text and Markdown exports, if the same elements are marked as sensitive, are the
indicator and are links, and the links lead to the same places. Queries and fragments, the other
attributes, comments, the contents of templates and what is typed do not matter. -/
theorem exportContent_of_outline [DecidableEq ι] {ι' : Type} [DecidableEq ι'] {page : Page ι}
    {page' : Page ι'} (h : page.outline platform = page'.outline platform) {format : Format}
    (h_format : format ≠ .html) :
    exportContent platform page format = exportContent platform page' format := by
  have h_find := congrArg (List.find? isBodyOutline) h
  rw [Page.outline, Page.outline, find?_outlineAll, find?_outlineAll] at h_find
  -- text and Markdown depend on the outline of the body alone
  have h_text : ∀ {κ : Type} (p : Page κ), (p.body.map fun body =>
      normalizeText (some (sanitized body).textContent)) =
      (p.body.map (outlineOf platform)).map fun body => normalizeText (some body.textContent) := by
    intro κ p
    cases p.body with
    | none => rfl
    | some body =>
      exact congrArg (fun text => some (normalizeText (some text)))
        (textContent_outlineOf platform body).symm
  have h_markdown : ∀ {κ : Type} (p : Page κ), (p.body.map fun body =>
      tidy (renderAll (markdownPasses platform) (sanitized body).children)) =
      (p.body.map (outlineOf platform)).map fun body =>
        tidy (renderAll outlinePasses body.children) := by
    intro κ p
    cases h_body : p.body with
    | none => rfl
    | some body =>
      have h_is : isBody body = true := List.find?_some h_body
      have h_render := renderAll_children platform h_is outlinePasses
      rw [← markdownPasses_eq] at h_render
      exact congrArg (fun text => some (tidy text)) h_render.symm
  rw [exportContent_eq, exportContent_eq]
  unfold rendered
  cases format with
  | html => exact absurd rfl h_format
  | text =>
    dsimp only
    rw [h_text, h_text]
    exact congrArg (fun body => (Option.map _ body).getD "") h_find
  | markdown =>
    dsimp only
    rw [h_markdown, h_markdown]
    exact congrArg (fun body => (Option.map _ body).getD "") h_find

end

/-- Two pages that differ in the query of an address have the same outline. -/
theorem outline_samplePage :
    (samplePage "first" "?a=1").outline samplePlatform =
      (samplePage "second" "?b=2").outline samplePlatform := by
  simp [Page.outline, samplePage, outlineAll, outlineOf, Tag.outline, Tag.level, Tag.hasAttribute,
    Tag.getAttribute, safeExportUrl, samplePlatform, Url.toString, Tag.standIn, Tag.sensitive,
    Tag.editable, Tag.cleaned, Tag.withoutValue, Tag.removeAttribute, SENSITIVE_ATTRIBUTE]

/-- So they have the same Markdown. -/
theorem exportContent_of_outline_query :
    exportContent samplePlatform (samplePage "first" "?a=1") .markdown =
      exportContent samplePlatform (samplePage "second" "?b=2") .markdown :=
  exportContent_of_outline samplePlatform outline_samplePage (by decide)

/-! ### Markdown -/

section

variable (platform : Platform)

mutual

/-- The text of a node after so many of the six loops. The loop that uses up the content of an
element finds in it what the loops before it have left there. -/
def markdownOf : ℕ → Node Unit Tag → String
  | _, .text content => content
  | _, .comment _ => ""
  | k, .element _ tag children =>
    -- The passes in the order of the source; the number counts those that come before.
    if 1 ≤ k ∧ dropped.selects tag then ""
    else if 2 ≤ k ∧ (links platform).selects tag then
      normalizeText (some (markdownAll 1 children)) ++ " (" ++
        safeExportUrl platform (platform.href tag) ++ ")"
    else if 3 ≤ k ∧ headings.selects tag then
      String.ofList (List.replicate tag.level '#') ++ " " ++
        normalizeText (some (markdownAll 2 children)) ++ "\n\n"
    else if 4 ≤ k ∧ items.selects tag then
      "- " ++ normalizeText (some (markdownAll 3 children)) ++ "\n"
    else if 5 ≤ k ∧ breaks.selects tag then "\n"
    else markdownAll k children ++ if 6 ≤ k ∧ blocks.selects tag then "\n\n" else ""
termination_by structural _ n => n

/-- The same for a list. -/
def markdownAll : ℕ → List (Node Unit Tag) → String
  | _, [] => ""
  | k, n :: ns => markdownOf k n ++ markdownAll k ns
termination_by structural _ ns => ns

end

/-- The fate of an element after some of the loops. -/
def fateAfter (tag : Tag) (k : ℕ) : Fate Tag :=
  -- A pass that replaces an element has met it after the earlier passes only.
  if 1 ≤ k ∧ dropped.selects tag then ⟨[], "", some fun _ => ""⟩
  else if 2 ≤ k ∧ (links platform).selects tag then
    ⟨(markdownPasses platform).take 1, "", some fun text => normalizeText (some text) ++ " (" ++
      safeExportUrl platform (platform.href tag) ++ ")"⟩
  else if 3 ≤ k ∧ headings.selects tag then
    ⟨(markdownPasses platform).take 2, "", some fun text =>
      String.ofList (List.replicate tag.level '#') ++ " " ++ normalizeText (some text) ++ "\n\n"⟩
  else if 4 ≤ k ∧ items.selects tag then
    ⟨(markdownPasses platform).take 3, "", some fun text =>
      "- " ++ normalizeText (some text) ++ "\n"⟩
  else if 5 ≤ k ∧ breaks.selects tag then
    ⟨(markdownPasses platform).take 4, "", some fun _ => "\n"⟩
  else ⟨(markdownPasses platform).take k, if 6 ≤ k ∧ blocks.selects tag then "\n\n" else "", none⟩

/-- One more loop. -/
theorem next_fateAfter (tag : Tag) {k : ℕ} (h : k < (markdownPasses platform).length) :
    (fateAfter platform tag k).next tag ((markdownPasses platform).get ⟨k, h⟩) =
      fateAfter platform tag (k + 1) := by
  have h_k : k < 6 := h
  unfold fateAfter
  interval_cases k
  all_goals
    simp only [markdownPasses, List.get_eq_getElem, List.getElem_cons_zero,
      List.getElem_cons_succ, Nat.reduceAdd, Nat.reduceLeDiff, true_and, false_and,
      if_false]
    -- an element whose content is used up is left alone, and otherwise the pass selects it or not
    split_ifs
    all_goals
      first
      | rfl
      | unfold Fate.next
        split_ifs
        rfl

/-- What becomes of an element after some of the passes. -/
theorem fate_take (tag : Tag) {k : ℕ} (h : k ≤ 6) :
    fate ((markdownPasses platform).take k) tag = fateAfter platform tag k := by
  induction k with
  | zero => simp [fateAfter, fate]
  | succ k ih =>
    have h_k : k < (markdownPasses platform).length := h
    rw [List.take_succ_eq_append_getElem h_k, fate_snoc, ih (Nat.le_of_succ_le h)]
    exact next_fateAfter platform tag h_k

mutual

/-- The passes render what the recursion does. -/
theorem render_eq_markdownOf :
    ∀ (n : Node Unit Tag) {k : ℕ}, k ≤ 6 →
      n.render ((markdownPasses platform).take k) = markdownOf platform k n
  | .text _, _, _ => rfl
  | .comment _, _, _ => rfl
  | .element _ tag children, k, h => by
    rw [Node.render, fate_take platform tag h, fateAfter, markdownOf]
    -- the content of an element that is used up has only gone through the loops before
    split_ifs
    · rfl
    · dsimp only
      rw [String.append_empty, renderAll_eq_markdownAll children (by decide)]
    · dsimp only
      rw [String.append_empty, renderAll_eq_markdownAll children (by decide)]
    · dsimp only
      rw [String.append_empty, renderAll_eq_markdownAll children (by decide)]
    · rfl
    · dsimp only
      rw [renderAll_eq_markdownAll children h]
    · dsimp only
      rw [renderAll_eq_markdownAll children h]

theorem renderAll_eq_markdownAll :
    ∀ (ns : List (Node Unit Tag)) {k : ℕ}, k ≤ 6 →
      renderAll ((markdownPasses platform).take k) ns = markdownAll platform k ns
  | [], _, _ => rfl
  | n :: ns, k, h => by
    rw [renderAll, markdownAll, render_eq_markdownOf n h, renderAll_eq_markdownAll ns h]

end

/-- **Markdown in one walk.** Each of the six loops goes through a list that it has made before, in
a tree that it changes; what they make of a page is told from the page by recursion. -/
theorem exportContent_markdown {ι : Type} [DecidableEq ι] (page : Page ι) :
    exportContent platform page .markdown =
      (page.body.map fun body =>
        tidy (markdownAll platform 6 (sanitized body).children)).getD "" := by
  have h_passes : renderAll (markdownPasses platform) = markdownAll platform 6 := by
    funext ns
    exact renderAll_eq_markdownAll platform ns le_rfl
  rw [exportContent_eq, rendered, h_passes]

end

end BrowserControl.LocatorRuntime.Export
