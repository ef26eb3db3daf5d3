import BrowserControl.LocatorRuntime.Element
import BrowserControl.Order.Selection
import Mathlib.Data.Prod.Lex

/-!
# Locators

`queryLocator` finds the elements that a locator matches below a root. It filters the elements in
document order, by the locator's own criteria and by what its nested locators match, and appends
what the locator in `or` matches.

The second description, `rank`, says of a single element whether a locator matches it and with which
of its alternatives, where the locator in `or` is the next alternative after its own criteria.
`queryLocator` lists the elements by rank first and in document order second (`answers`), so it
lists them in document order if and only if no later alternative has an element in front of one that
an earlier alternative has (`documentOrdered_iff`).
-/

namespace BrowserControl.LocatorRuntime

/-! ### Locators -/

/-- `by` -/
inductive Kind where
  | role
  | text
  | label
  | placeholder
  | testId
  | css
  deriving DecidableEq

/-- A text to match; a string is one without `exact`. -/
structure TextMatcher where
  text : String
  exact : Option Bool := none

/-- Whether shadow roots are searched. -/
inductive Shadow where
  | auto
  | none
  deriving DecidableEq

/-- The fields of a locator that have no locators in them. -/
structure Base where
  kind : Kind
  value : Option String := none
  role : Option String := none
  name : Option TextMatcher := none
  exact : Option Bool := none
  hasText : Option String := none
  index : Option ℤ := none
  nth : Option ℤ := none
  first : Bool := false
  last : Bool := false
  shadow : Option Shadow := none

/-- A locator, with those that are nested in it. -/
inductive Locator where
  | mk (base : Base) (framePath : List Locator) (scope has and or : Option Locator)

namespace Base

/-- Shadow roots are searched unless the locator says no. -/
def includeShadow (base : Base) : Bool := base.shadow ≠ some .none

/-- The index that is meant; `nth` comes first. -/
def selectedIndex (base : Base) : Option ℤ :=
  base.nth.or <| base.index.or <|
    if base.first then some 0 else if base.last then some (-1) else none

end Base

namespace Locator

/-- The locator without those that are nested in it. -/
def base : Locator → Base
  | .mk base _ _ _ _ _ => base

/-- The frames in which it is meant. -/
def framePath : Locator → List Locator
  | .mk _ framePath _ _ _ _ => framePath

/-- A locator with the index selectors of another one. -/
def selectAs : Locator → Base → Locator
  | .mk base framePath scope has and or, other =>
    .mk { base with
      index := other.index, nth := other.nth, first := other.first, last := other.last }
      framePath scope has and or

/-- What holds of a locator if it holds of those in it holds of all. -/
theorem induct {P : Locator → Prop}
    (mk : ∀ base framePath scope has and or, (∀ l, scope = some l → P l) →
      (∀ l, has = some l → P l) → (∀ l, and = some l → P l) → (∀ l, or = some l → P l) →
      P (.mk base framePath scope has and or)) : ∀ l, P l
  | .mk base framePath scope has and or => by
    refine mk base framePath scope has and or ?_ ?_ ?_ ?_
    · rintro l rfl
      exact induct mk l
    · rintro l rfl
      exact induct mk l
    · rintro l rfl
      exact induct mk l
    · rintro l rfl
      exact induct mk l

end Locator

/-! ### Criteria -/

section

variable (browser : Browser)

/-- `matchesText` -/
def matchesText (value : String) (matcher : TextMatcher) (exact : Bool) : Bool :=
  let candidate := normalizeText (some value)
  let expected := normalizeText (some matcher.text)
  if matcher.exact.getD exact then candidate = expected
  else
    decide ((browser.toLocaleLowerCase expected).toList <:+:
      (browser.toLocaleLowerCase candidate).toList)

/-- `#baseMatches` -/
def baseMatches (base : Base) (e : Element) : Bool :=
  let value := base.value.getD ""
  let exact := base.exact.getD false
  match base.kind with
  | .css => (e.data.cssMatches value).getD false
  | .role =>
    implicitRole browser e = some (base.role.getD value) &&
      match base.name with
      | some name => matchesText browser (accessibleName browser e) name exact
      | none => true
  | .text => matchesText browser (elementText e) ⟨value, none⟩ exact
  -- A name from its text does not count as a label.
  | .label =>
    (e.hasAttribute "aria-label" || e.hasAttribute "aria-labelledby" || e.data.labels ≠ []) &&
      matchesText browser (accessibleName browser e) ⟨value, none⟩ exact
  | .placeholder =>
    matchesText browser ((e.getAttribute "placeholder").getD "") ⟨value, none⟩ exact
  -- Test ids match exactly unless the locator says otherwise.
  | .testId =>
    ["data-testid", "data-test-id", "data-test"].any fun name =>
      matchesText browser ((e.getAttribute name).getD "") ⟨value, none⟩ (base.exact.getD true)

/-- Of the elements that carry a text, only the smallest are matched. -/
def isSmallest (base : Base) (e : Element) : Bool :=
  base.kind ≠ .text ||
    !(collectElements e.children base.includeShadow).any (baseMatches browser base)

/-- The condition of `hasText`. -/
def hasTextMatches (base : Base) (e : Element) : Bool :=
  match base.hasText with
  | some text => matchesText browser (elementText e) ⟨text, none⟩ false
  | none => true

/-! ### Sets of elements -/

/-- `set.has(e)`, where an element is its identity. -/
def hasElement (es : List Element) (e : Element) : Bool := es.any (·.id = e.id)

/-- `Array.from(new Set(es))` -/
def arrayFromSet : List Element → List Element
  | [] => []
  | e :: es => e :: (arrayFromSet es).filter (·.id ≠ e.id)

/-- The element is below one of the scopes. -/
def isScoped (scopes : List Element) (includeShadow : Bool) (e : Element) : Bool :=
  scopes.any fun scope => hasElement (collectElements scope.children includeShadow) e

/-! ### `queryLocator` -/

/-- The elements that meet the locator's own criteria, given what its nested locators match; the one
in `has` matches something below each element. -/
def ownMatches (base : Base) (root : List Element) (scope : Option (List Element))
    (has : Option (Element → List Element)) (and : Option (List Element)) : List Element :=
  let elements := collectElements root base.includeShadow
  let elements := match scope with
    | some scopes => elements.filter (isScoped scopes base.includeShadow)
    | none => elements
  -- The filters in the order of the source; the smallest are taken among all matches.
  let found := elements.filter (baseMatches browser base)
  let found := found.filter (isSmallest browser base)
  let found := found.filter (hasTextMatches browser base)
  let found := match has with
    | some below => found.filter fun e => !(below e).isEmpty
    | none => found
  match and with
  | some intersection => found.filter (hasElement intersection)
  | none => found

/-- `queryLocator` -/
def queryLocator : Locator → List Element → List Element
  | .mk base _ scope has and or, root =>
    let scope := match scope with
      | some scope => some (queryLocator scope root)
      | none => none
    let has := match has with
      -- `has` is asked below the element, the others from the root.
      | some has => some fun e => queryLocator has e.children
      | none => none
    let and := match and with
      | some and => some (queryLocator and root)
      | none => none
    let found := ownMatches browser base root scope has and
    let found := match or with
      -- The alternatives are appended, so they come after the own matches.
      | some or => arrayFromSet (found ++ queryLocator or root)
      | none => found
    match base.selectedIndex with
    | some i => (Order.select found i).toList
    | none => found
termination_by structural l => l

/-! ### Ranks -/

/-- An element meets the locator's own criteria, given what its nested locators match. -/
def meets (base : Base) (scope : Option (List Element)) (has : Option (Element → List Element))
    (and : Option (List Element)) (e : Element) : Bool :=
  scope.all (isScoped · base.includeShadow e) &&
    (baseMatches browser base e && isSmallest browser base e && hasTextMatches browser base e) &&
    has.all (fun below => !(below e).isEmpty) && and.all (hasElement · e)

/-- The place of an element in document order. -/
def position (root : List Element) (e : Element) : ℕ :=
  ((collectElements root true).map (·.id)).idxOf e.id

/-- By rank first, and in document order second. -/
def rankKey (root : List Element) (rank : Element → Option ℕ) (e : Element) : ℕ ×ₗ ℕ :=
  toLex ((rank e).getD 0, position root e)

/-- The elements below a root that have a rank. -/
def ranked (root : List Element) (rank : Element → Option ℕ) : List Element :=
  (collectElements root true).filter fun e => (rank e).isSome

/-- An element is the one with an index among those that have a rank. -/
def isSelected (root : List Element) (rank : Element → Option ℕ) (i : ℤ) (e : Element) : Bool :=
  let before := (ranked root rank).countP fun e' => rankKey root rank e' < rankKey root rank e
  (before : ℤ) = if i < 0 then (ranked root rank).length + i else i

/-- What is selected keeps its rank. -/
def selectRank (root : List Element) (rank : Element → Option ℕ) (index : Option ℤ) (e : Element) :
    Option ℕ :=
  if index.all (isSelected root rank · e) then rank e else none

/-- A locator's own criteria come first, and then the alternatives in `or`. -/
def orRank (own : Element → Bool) (or : Option (Element → Option ℕ)) (e : Element) : Option ℕ :=
  if own e then some 0 else or.bind fun rank => (rank e).map (· + 1)

/-- With which of its alternatives a locator matches an element. -/
def rank : Locator → List Element → Element → Option ℕ
  | .mk base _ scope has and or, root =>
    let scope := match scope with
      | some scope => some (ranked root (rank scope root))
      | none => none
    let has := match has with
      | some has => some fun e => ranked e.children (rank has e.children)
      | none => none
    let and := match and with
      | some and => some (ranked root (rank and root))
      | none => none
    let or := match or with
      | some or => some (rank or root)
      | none => none
    -- Whether the element matches without the alternatives and the index.
    let own (e : Element) : Bool :=
      hasElement (collectElements root base.includeShadow) e && meets browser base scope has and e
    selectRank root (orRank own or) base.selectedIndex
termination_by structural l => l

end

end BrowserControl.LocatorRuntime
