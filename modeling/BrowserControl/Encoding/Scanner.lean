import BrowserControl.Encoding.JsonReader

/-!
# A scanner of JSON texts

The scanner looks at one character at a time, as the reader of `Reader` does, but it builds no
tree: a `State` is what is expected and which arrays and objects are open. It says where a value
ends, so that values can be cut off a stream.

The two are different programs. The scanner fails at the first character that cannot be right,
where the reader collects a number and looks at it afterwards. `Sim` is how their states go
together, and `follows` is what a step of the reader is for the scanner: whatever the reader
takes, the scanner takes too, unless the value is over, or the reader goes on with a number that
is none.
-/

namespace Encoding.Scanner

open Reader (isSpace)

/-! ### Numbers -/

/-- How far a number is read: up to its sign, its first digits, a zero in front, the point, digits
behind it, the letter of the exponent, its sign, digits of it. -/
inductive Numeric where
  | neg
  | int
  | zero
  | dot
  | fraction
  | exp
  | expSign
  | exponent

/-- The letter of an exponent. -/
def isE (c : Char) : Bool := c == 'e' || c == 'E'

/-- The first character of a number. -/
def Numeric.start (c : Char) : Option Numeric :=
  if c = '-' then some .neg
  else if c = '0' then some .zero
  else if c.isDigit then some .int
  else none

/-- One more character of a number. -/
def Numeric.next : Numeric → Char → Option Numeric
  | .neg, c => if c = '0' then some .zero else if c.isDigit then some .int else none
  | .int, c =>
    if c.isDigit then some .int else if c = '.' then some .dot
    else if isE c then some .exp else none
  | .zero, c => if c = '.' then some .dot else if isE c then some .exp else none
  | .dot, c => if c.isDigit then some .fraction else none
  | .fraction, c => if c.isDigit then some .fraction else if isE c then some .exp else none
  | .exp, c =>
    if c = '+' ∨ c = '-' then some .expSign else if c.isDigit then some .exponent else none
  | .expSign, c => if c.isDigit then some .exponent else none
  | .exponent, c => if c.isDigit then some .exponent else none

/-- The number may end here. -/
def Numeric.final : Numeric → Bool
  | .int => true
  | .zero => true
  | .fraction => true
  | .exponent => true
  | _ => false

/-! ### The scanner -/

/-- What is open: an object, of which a name or a value is read, or an array. -/
inductive ParseState where
  | objectKey
  | objectValue
  | arrayValue

/-- What is expected. -/
inductive Step where
  | beginValueOrEmpty
  | beginValue
  | beginStringOrEmpty
  | beginString
  | endValue
  | endTop
  | inString
  | inStringEsc
  /-- So many digits of an escape are read. -/
  | inStringEscU (count : ℕ)
  | numeric (n : Numeric)
  /-- The rest of `true`, `false` or `null`. -/
  | word (rest : List Char)

/-- The next step, and what the scanner is within. -/
structure State where
  step : Step
  parseState : List ParseState

/-- The scanner of a new text. -/
def State.reset : State := ⟨.beginValue, []⟩

/-- What the scanner says about a byte. -/
inductive Op where
  | more (s : State)
  /-- The byte closes an array or an object. -/
  | close (s : State)
  /-- The value has ended before the byte. -/
  | ended
  | error

/-- An object or a list begins, if it is not nested too deep. -/
def pushParseState (limit : ℕ) (s : State) (p : ParseState) (step : Step) : Op :=
  if s.parseState.length < limit then .more ⟨step, p :: s.parseState⟩ else .error

/-- An object or a list ends. -/
def popParseState (rest : List ParseState) : Op :=
  .close ⟨if rest.isEmpty then .endTop else .endValue, rest⟩

/-- `stateBeginValue` -/
def beginValue (limit : ℕ) (s : State) (c : Char) : Op :=
  if isSpace c then .more s
  else if c = '{' then pushParseState limit s .objectKey .beginStringOrEmpty
  else if c = '[' then pushParseState limit s .arrayValue .beginValueOrEmpty
  else if c = '"' then .more ⟨.inString, s.parseState⟩
  else if c = 't' then .more ⟨.word ['r', 'u', 'e'], s.parseState⟩
  else if c = 'f' then .more ⟨.word ['a', 'l', 's', 'e'], s.parseState⟩
  else if c = 'n' then .more ⟨.word ['u', 'l', 'l'], s.parseState⟩
  else
    match Numeric.start c with
    | some n => .more ⟨.numeric n, s.parseState⟩
    | none => .error

/-- `stateEndValue` -/
def endValue (s : State) (c : Char) : Op :=
  match s.parseState with
  | [] => .ended
  | p :: rest =>
    if isSpace c then .more ⟨.endValue, p :: rest⟩
    else
      match p with
      -- What follows a value depends on where the value stands.
      | .objectKey => if c = ':' then .more ⟨.beginValue, .objectValue :: rest⟩ else .error
      | .objectValue =>
        if c = ',' then .more ⟨.beginString, .objectKey :: rest⟩
        else if c = '}' then popParseState rest
        else .error
      | .arrayValue =>
        if c = ',' then .more ⟨.beginValue, p :: rest⟩
        else if c = ']' then popParseState rest
        else .error

/-- `stateBeginString` -/
def beginString (s : State) (c : Char) : Op :=
  if isSpace c then .more s
  else if c = '"' then .more ⟨.inString, s.parseState⟩
  else .error

/-- `stateInString` -/
def inString (s : State) (c : Char) : Op :=
  if c = '"' then .more ⟨.endValue, s.parseState⟩
  else if c = '\\' then .more ⟨.inStringEsc, s.parseState⟩
  else if c.toNat < 32 then .error
  else .more s

/-- What the scanner does with a byte, which is taken for the character of this number. -/
def step (limit : ℕ) (s : State) (c : Char) : Op :=
  match s.step with
  | .beginValueOrEmpty =>
    if isSpace c then .more s
    else if c = ']' then endValue s c
    else beginValue limit s c
  | .beginValue => beginValue limit s c
  | .beginStringOrEmpty =>
    if isSpace c then .more s
    else if c = '}' then endValue ⟨s.step, .objectValue :: s.parseState.tail⟩ c
    else beginString s c
  | .beginString => beginString s c
  | .endValue => endValue s c
  | .endTop => .ended
  | .inString => inString s c
  | .inStringEsc =>
    if (Reader.simpleEscape c).isSome then .more ⟨.inString, s.parseState⟩
    else if c = 'u' then .more ⟨.inStringEscU 0, s.parseState⟩
    else .error
  | .inStringEscU count =>
    if (Reader.hexValue c).isSome then
      .more ⟨if count = 3 then .inString else .inStringEscU (count + 1), s.parseState⟩
    else .error
  -- A number has no end of its own: the first character that is none of it ends the value.
  | .numeric n =>
    match n.next c with
    | some n => .more ⟨.numeric n, s.parseState⟩
    | none => if n.final then endValue s c else .error
  | .word rest =>
    match rest with
    | [] => .error
    | d :: rest =>
      if c = d then .more ⟨if rest = [] then .endValue else .word rest, s.parseState⟩ else .error

/-! ### Numbers are read to their end -/

/-- How far a literal is read. -/
def Numeric.of : List Char → Option Numeric
  | [] => none
  | c :: cs => (Numeric.start c).bind fun n => cs.foldlM Numeric.next n

theorem Numeric.of_append {literal : List Char} (h : literal ≠ []) (c : Char) :
    Numeric.of (literal ++ [c]) = (Numeric.of literal).bind fun n => n.next c := by
  cases literal with
  | nil => exact absurd rfl h
  | cons d literal =>
    rw [List.cons_append, Numeric.of, Numeric.of]
    cases Numeric.start d with
    | none => rfl
    | some n => simp [List.foldlM_append]

/-- A number may end after these characters, read from here. -/
def Accepts (n : Numeric) (cs : List Char) : Prop :=
  ∃ n', cs.foldlM Numeric.next n = some n' ∧ n'.final = true

/-- A literal may end here. -/
theorem Accepts.nil {n : Numeric} (h : n.final = true) : Accepts n [] := ⟨n, rfl, h⟩

/-- A literal goes on with a character. -/
theorem Accepts.cons {n n' : Numeric} {c : Char} {cs : List Char} (h_next : n.next c = some n')
    (h : Accepts n' cs) : Accepts n (c :: cs) := by
  obtain ⟨m, h_m, h_final⟩ := h
  refine ⟨m, ?_, h_final⟩
  rw [List.foldlM_cons, h_next]
  exact h_m

/-- Digits lead back to where they are read. -/
theorem Accepts.digits {n : Numeric} (h_digit : ∀ c : Char, c.isDigit → n.next c = some n)
    {cs : List Char} (h : Accepts n (cs.dropWhile Char.isDigit)) : Accepts n cs := by
  induction cs with
  | nil => exact h
  | cons c cs ih =>
    by_cases h_c : c.isDigit
    · rw [List.dropWhile_cons_of_pos h_c] at h
      exact .cons (h_digit c h_c) (ih h)
    · rwa [List.dropWhile_cons_of_neg h_c] at h

/-- An exponent goes on with digits. -/
theorem accepts_exponent {cs : List Char} (h : cs.all Char.isDigit) : Accepts .exponent cs := by
  refine .digits (n := .exponent) (fun c h_c => if_pos h_c) ?_
  rw [List.dropWhile_eq_nil_iff.mpr fun c h_c => List.all_eq_true.mp h c h_c]
  exact .nil rfl

/-- The two letters of an exponent. -/
theorem isE_cases {c : Char} (h : isE c) : c = 'e' ∨ c = 'E' := by
  simpa [isE] using h

/-- Digits of an exponent, after its letter or its sign. -/
theorem accepts_exp {digits : List Char} (h_ne : digits.isEmpty = false)
    (h : digits.all Char.isDigit) : Accepts .expSign digits ∧ Accepts .exp digits := by
  cases digits with
  | nil => cases h_ne
  | cons d digits =>
    obtain ⟨h_d, h⟩ := Bool.and_eq_true_iff.mp h
    have h_sign : ¬ (d = '+' ∨ d = '-') := by
      rintro (rfl | rfl) <;> cases h_d
    refine ⟨.cons ?_ (accepts_exponent h), .cons ?_ (accepts_exponent h)⟩
    · exact if_pos h_d
    · exact (if_neg h_sign).trans (if_pos h_d)

/-- What may follow digits as an exponent is accepted. -/
theorem accepts_of_isExponent {n : Numeric} (h_final : n.final = true)
    (h_e : ∀ c, isE c = true → n.next c = some .exp) {cs : List Char}
    (h : Reader.isExponent cs) : Accepts n cs := by
  cases cs with
  | nil => exact .nil h_final
  | cons c cs =>
    unfold Reader.isExponent at h
    obtain ⟨h_c, h⟩ := Bool.and_eq_true_iff.mp h
    refine .cons (h_e c h_c) ?_
    dsimp only at h
    -- with a sign or without, then digits
    split at h
    case h_1 digits =>
      rw [Bool.and_eq_true, Bool.not_eq_true'] at h
      have h_plus : Numeric.exp.next '+' = some .expSign := rfl
      exact .cons h_plus (accepts_exp h.1 h.2).1
    case h_2 digits =>
      rw [Bool.and_eq_true, Bool.not_eq_true'] at h
      have h_minus : Numeric.exp.next '-' = some .expSign := rfl
      exact .cons h_minus (accepts_exp h.1 h.2).1
    case h_3 digits _ _ =>
      rw [Bool.and_eq_true, Bool.not_eq_true'] at h
      exact (accepts_exp h.1 h.2).2

/-- An exponent may follow a fraction. -/
theorem next_fraction_of_isE {c : Char} (h : isE c = true) :
    Numeric.fraction.next c = some .exp := by
  rcases isE_cases h with rfl | rfl <;> rfl

/-- What may follow digits as a fraction is accepted. -/
theorem accepts_of_isFraction {n : Numeric} (h_final : n.final = true)
    (h_e : ∀ c, isE c = true → n.next c = some .exp) (h_dot : n.next '.' = some .dot)
    {cs : List Char} (h : Reader.isFraction cs) : Accepts n cs := by
  unfold Reader.isFraction at h
  split at h
  case h_1 cs =>
    obtain ⟨h_some, h_rest⟩ := Bool.and_eq_true_iff.mp h
    refine .cons h_dot ?_
    -- behind the point there is a digit
    cases cs with
    | nil => cases h_some
    | cons c cs =>
      by_cases h_c : c.isDigit
      · refine .cons (if_pos h_c) (.digits (n := .fraction) (fun d h_d => if_pos h_d) ?_)
        refine accepts_of_isExponent rfl (fun _ => next_fraction_of_isE) ?_
        rwa [Reader.spanDigits, List.dropWhile_cons_of_pos h_c] at h_rest
      · rw [Reader.spanDigits, List.takeWhile_cons_of_neg h_c] at h_some
        cases h_some
  case h_2 => exact accepts_of_isExponent h_final h_e h

/-- The first character of a number without a sign. -/
theorem accepts_of_isUnsigned {cs : List Char} (h : Reader.isUnsigned cs) :
    ∃ c rest n, cs = c :: rest ∧ Numeric.neg.next c = some n ∧ Numeric.start c = some n ∧
      Accepts n rest := by
  unfold Reader.isUnsigned at h
  split at h
  -- a leading zero stands alone
  case h_1 rest =>
    refine ⟨'0', rest, .zero, rfl, rfl, rfl, accepts_of_isFraction rfl ?_ rfl h⟩
    intro c h_c
    rcases isE_cases h_c with rfl | rfl <;> rfl
  -- other digits go on
  case h_2 h_zero =>
    obtain ⟨h_some, h_rest⟩ := Bool.and_eq_true_iff.mp h
    cases cs with
    | nil => cases h_some
    | cons c rest =>
      have h_ne : c ≠ '0' := by
        rintro rfl
        exact h_zero _ rfl
      by_cases h_c : c.isDigit
      · have h_sign : c ≠ '-' := by
          rintro rfl
          cases h_c
        refine ⟨c, rest, .int, rfl, (if_neg h_ne).trans (if_pos h_c), ?_, ?_⟩
        · exact (if_neg h_sign).trans ((if_neg h_ne).trans (if_pos h_c))
        · refine .digits (n := .int) (fun d h_d => if_pos h_d)
            (accepts_of_isFraction rfl ?_ rfl ?_)
          · intro d h_d
            rcases isE_cases h_d with rfl | rfl <;> rfl
          · rwa [Reader.spanDigits, List.dropWhile_cons_of_pos h_c] at h_rest
      · rw [Reader.spanDigits, List.takeWhile_cons_of_neg h_c] at h_some
        cases h_some

/-- What is grammatical is read to a place where a number may end. -/
theorem numeric_of_isNumberLiteral {literal : List Char} (h : Reader.isNumberLiteral literal) :
    ∃ n, Numeric.of literal = some n ∧ n.final = true := by
  unfold Reader.isNumberLiteral at h
  split at h
  case h_1 cs =>
    obtain ⟨c, rest, n, rfl, h_next, -, m, h_m, h_final⟩ := accepts_of_isUnsigned h
    refine ⟨m, ?_, h_final⟩
    show List.foldlM Numeric.next .neg (c :: rest) = some m
    rw [List.foldlM_cons, h_next]
    exact h_m
  case h_2 =>
    obtain ⟨c, rest, n, rfl, -, h_start, m, h_m, h_final⟩ := accepts_of_isUnsigned h
    refine ⟨m, ?_, h_final⟩
    rw [Numeric.of, h_start]
    exact h_m

/-! ### The reader and the scanner -/

/-- What is open, if no name is being read. -/
def kind : Reader.Frame → ParseState
  | .arr _ => .arrayValue
  | .obj _ _ => .objectValue

/-- What is open while a string is read, which may be a name. -/
def Within (isName : Bool) (stack : List Reader.Frame) (parseState : List ParseState) : Prop :=
  if isName then
    ∃ fields key rest, stack = .obj fields key :: rest ∧ parseState = .objectKey :: rest.map kind
  else parseState = stack.map kind

/-- The states of the reader and the scanner after the same text. -/
inductive Sim : Reader.State → State → Prop where
  | value (stack : List Reader.Frame) : Sim ⟨.value, stack⟩ ⟨.beginValue, stack.map kind⟩
  | element (elems : List Json) (stack : List Reader.Frame) :
    Sim ⟨.element, .arr elems :: stack⟩ ⟨.beginValueOrEmpty, .arrayValue :: stack.map kind⟩
  | member (fields : List (String × Json)) (key : String) (stack : List Reader.Frame) :
    Sim ⟨.member, .obj fields key :: stack⟩ ⟨.beginStringOrEmpty, .objectKey :: stack.map kind⟩
  | name (fields : List (String × Json)) (key : String) (stack : List Reader.Frame) :
    Sim ⟨.name, .obj fields key :: stack⟩ ⟨.beginString, .objectKey :: stack.map kind⟩
  | colon (fields : List (String × Json)) (key : String) (stack : List Reader.Frame) :
    Sim ⟨.colon, .obj fields key :: stack⟩ ⟨.endValue, .objectKey :: stack.map kind⟩
  -- A complete value: put into the stack on one side, `endValue` on the other.
  | put (v : Json) (stack : List Reader.Frame) :
    Sim (Reader.put v stack) ⟨.endValue, stack.map kind⟩
  | word {rest : List Char} (h : ∀ d ∈ rest, d.toNat < 128) (v : Json) (stack : List Reader.Frame) :
    Sim ⟨.word rest v, stack⟩ ⟨.word rest, stack.map kind⟩
  | number {literal : List Char} {n : Numeric} (h : Numeric.of literal = some n)
    (stack : List Reader.Frame) : Sim ⟨.number literal, stack⟩ ⟨.numeric n, stack.map kind⟩
  -- Within a string the scanner does not know what the string is for.
  | string {isName : Bool} {stack : List Reader.Frame} {parseState : List ParseState}
    (h : Within isName stack parseState) (parts : List (Char ⊕ ℕ)) :
    Sim ⟨.string isName parts, stack⟩ ⟨.inString, parseState⟩
  | escape {isName : Bool} {stack : List Reader.Frame} {parseState : List ParseState}
    (h : Within isName stack parseState) (parts : List (Char ⊕ ℕ)) :
    Sim ⟨.escape isName parts, stack⟩ ⟨.inStringEsc, parseState⟩
  | digits {isName : Bool} {stack : List Reader.Frame} {parseState : List ParseState}
    (h : Within isName stack parseState) (parts : List (Char ⊕ ℕ)) (count n : ℕ) :
    Sim ⟨.digits isName parts count n, stack⟩ ⟨.inStringEscU count, parseState⟩

/-- What a step of the reader to a state is for the scanner. -/
inductive Follows (c : Char) (r : Reader.State) : Op → Prop where
  | more {s : State} (h : Sim r s) : Follows c r (.more s)
  | close {s : State} (h : Sim r s) (h_open : s.parseState ≠ []) : Follows c r (.close s)
  /-- The text has a value, which ends with this character. -/
  | closed (v : Json) (h : r = Reader.put v []) {s : State} (h_empty : s.parseState = []) :
    Follows c r (.close s)
  /-- The value has ended before, and white space follows. -/
  | ended (v : Json) (h : r = Reader.put v []) (h_space : isSpace c = true) : Follows c r .ended
  /-- A number that the scanner has given up, and the reader will. -/
  | doomed {literal : List Char} {stack : List Reader.Frame} (h : r = ⟨.number literal, stack⟩)
    (h_ne : literal ≠ []) (h_none : Numeric.of literal = none) (h_char : isNumberChar c = true)
    (op : Op) : Follows c r op

/-- A character that closes what is open. -/
theorem follows_pop (c : Char) (v : Json) (stack : List Reader.Frame) :
    Follows c (Reader.put v stack) (popParseState (stack.map kind)) := by
  cases stack with
  | nil => exact .closed v rfl rfl
  | cons frame stack => exact .close (Sim.put v (frame :: stack)) (by rintro ⟨⟩)

/-- After a value. -/
theorem follows_put {limit : ℕ} {v : Json} {stack : List Reader.Frame} {c : Char}
    {r : Reader.State} (h : Reader.stepOther limit (Reader.put v stack) c = some r) (step : Step) :
    Follows c r (endValue ⟨step, stack.map kind⟩ c) := by
  cases stack with
  -- the value is the last one, and only blanks follow
  | nil =>
    change (if isSpace c then some (Reader.put v []) else none) = some r at h
    split_ifs at h with h_space
    cases h
    exact .ended v rfl h_space
  | cons frame stack =>
    by_cases h_space : isSpace c
    · have h_same : r = Reader.put v (frame :: stack) := by
        cases frame <;>
        · change (if isSpace c then some _ else _) = some r at h
          rw [if_pos h_space] at h
          exact (Option.some.inj h).symm
      rw [h_same, List.map_cons, endValue]
      dsimp only
      rw [if_pos h_space]
      exact .more (Sim.put v (frame :: stack))
    · rw [List.map_cons, endValue]
      dsimp only
      rw [if_neg h_space]
      cases frame with
      | arr elems =>
        change (if isSpace c then some _ else Reader.afterValue (.arr (elems ++ [v]) :: stack) c) =
          some r at h
        rw [if_neg h_space, Reader.afterValue] at h
        dsimp only [kind]
        split_ifs at h ⊢
        · cases h
          exact .more (Sim.value (.arr (elems ++ [v]) :: stack))
        · cases h
          exact follows_pop c _ stack
      | obj fields key =>
        change (if isSpace c then some _
          else Reader.afterValue (.obj (fields ++ [(key, v)]) key :: stack) c) = some r at h
        rw [if_neg h_space, Reader.afterValue] at h
        dsimp only [kind]
        split_ifs at h ⊢
        · cases h
          exact .more (Sim.name _ _ stack)
        · cases h
          exact follows_pop c _ stack

/-- A number begins with its sign or a digit. -/
theorem start_of_number {c : Char} (h : c = '-' ∨ c.isDigit) : ∃ n, Numeric.start c = some n := by
  unfold Numeric.start
  split_ifs with h_minus h_zero h_digit
  · exact ⟨_, rfl⟩
  · exact ⟨_, rfl⟩
  · exact ⟨_, rfl⟩
  · exact absurd h (by simp [h_minus, h_digit])

/-- The first character of a value. -/
theorem follows_startValue {limit : ℕ} {stack : List Reader.Frame} {c : Char} {r : Reader.State}
    (h_space : ¬ isSpace c) (h : Reader.startValue limit stack c = some r) (step : Step) :
    Follows c r (beginValue limit ⟨step, stack.map kind⟩ c) := by
  rw [beginValue, if_neg h_space]
  -- objects and arrays open a level, if there is room
  by_cases h_object : c = '{'
  · subst h_object
    change (if stack.length < limit then some _ else none) = some r at h
    rw [if_pos rfl, pushParseState, List.length_map]
    split_ifs at h ⊢
    cases h
    exact .more (Sim.member [] "" stack)
  by_cases h_array : c = '['
  · subst h_array
    change (if stack.length < limit then some _ else none) = some r at h
    rw [if_neg h_object, if_pos rfl, pushParseState, List.length_map]
    split_ifs at h ⊢
    cases h
    exact .more (Sim.element [] stack)
  -- strings, words and numbers do not
  by_cases h_quote : c = '"'
  · subst h_quote
    cases h
    rw [if_neg h_object, if_neg h_array, if_pos rfl]
    have h_within : Within false stack (stack.map kind) := rfl
    exact .more (Sim.string h_within [])
  rw [Reader.startValue, if_neg h_quote, if_neg h_array, if_neg h_object] at h
  rw [if_neg h_object, if_neg h_array, if_neg h_quote]
  split_ifs at h ⊢ with h_true h_false h_null h_number <;> cases h
  · exact .more (Sim.word (by decide) _ stack)
  · exact .more (Sim.word (by decide) _ stack)
  · exact .more (Sim.word (by decide) _ stack)
  · obtain ⟨n, h_start⟩ := start_of_number h_number
    have h_of : Numeric.of [c] = some n := by
      rw [Numeric.of, h_start]
      rfl
    rw [h_start]
    exact .more (Sim.number h_of stack)

/-- The end of a string. -/
theorem sim_putString {isName : Bool} {parts : List (Char ⊕ ℕ)} {stack : List Reader.Frame}
    {parseState : List ParseState} {r : Reader.State} (h_within : Within isName stack parseState)
    (h : Reader.putString isName parts stack = some r) : Sim r ⟨.endValue, parseState⟩ := by
  cases isName with
  | true =>
    obtain ⟨fields, key, rest, rfl, rfl⟩ := h_within
    cases h
    exact Sim.colon fields _ rest
  | false =>
    obtain rfl : parseState = stack.map kind := h_within
    cases h
    exact Sim.put _ stack

/-- Within a string the scanner follows the reader. -/
theorem follows_string {limit : ℕ} {isName : Bool} {parts : List (Char ⊕ ℕ)}
    {stack : List Reader.Frame} {parseState : List ParseState} {c : Char} {r : Reader.State}
    (h_within : Within isName stack parseState)
    (h : Reader.stepOther limit ⟨.string isName parts, stack⟩ c = some r) :
    Follows c r (step limit ⟨.inString, parseState⟩ c) := by
  change Follows c r (inString ⟨.inString, parseState⟩ c)
  change (if c = '"' then _ else if c = '\\' then _ else if c.toNat < 32 then none else _) = _ at h
  unfold inString
  split_ifs at h ⊢
  · exact .more (sim_putString h_within h)
  · cases h
    exact .more (Sim.escape h_within parts)
  · cases h
    exact .more (Sim.string h_within _)

/-- After a backslash too. -/
theorem follows_escape {limit : ℕ} {isName : Bool} {parts : List (Char ⊕ ℕ)}
    {stack : List Reader.Frame} {parseState : List ParseState} {c : Char} {r : Reader.State}
    (h_within : Within isName stack parseState)
    (h : Reader.stepOther limit ⟨.escape isName parts, stack⟩ c = some r) :
    Follows c r (step limit ⟨.inStringEsc, parseState⟩ c) := by
  change (if c = 'u' then some _ else (Reader.simpleEscape c).map _) = some r at h
  rw [step]
  dsimp only
  split_ifs at h with h_u
  · subst h_u
    cases h
    exact .more (Sim.digits h_within parts 0 0)
  · obtain ⟨d, h_d, rfl⟩ := Option.map_eq_some_iff.mp h
    rw [h_d, Option.isSome_some, if_pos rfl]
    exact .more (Sim.string h_within _)

/-- In the four digits of an escape too. -/
theorem follows_digits {limit : ℕ} {isName : Bool} {parts : List (Char ⊕ ℕ)} {count n : ℕ}
    {stack : List Reader.Frame} {parseState : List ParseState} {c : Char} {r : Reader.State}
    (h_within : Within isName stack parseState)
    (h : Reader.stepOther limit ⟨.digits isName parts count n, stack⟩ c = some r) :
    Follows c r (step limit ⟨.inStringEscU count, parseState⟩ c) := by
  change (Reader.hexValue c).map _ = some r at h
  obtain ⟨d, h_d, rfl⟩ := Option.map_eq_some_iff.mp h
  rw [step]
  dsimp only
  rw [h_d, Option.isSome_some, if_pos rfl]
  split_ifs
  · exact .more (Sim.string h_within _)
  · exact .more (Sim.digits h_within parts _ _)

/-- In a word too. -/
theorem follows_word {limit : ℕ} {rest : List Char} {v : Json} {stack : List Reader.Frame}
    {c : Char} {r : Reader.State} (h_small : ∀ d ∈ rest, d.toNat < 128)
    (h : Reader.stepOther limit ⟨.word rest v, stack⟩ c = some r) :
    Follows c r (step limit ⟨.word rest, stack.map kind⟩ c) := by
  cases rest with
  | nil => cases h
  | cons d rest =>
    change (if c = d then some _ else none) = some r at h
    rw [step]
    dsimp only
    split_ifs at h ⊢
    · cases h
      exact .more (Sim.put v stack)
    · cases h
      exact .more (Sim.word (fun d h_d => h_small d (List.mem_cons_of_mem _ h_d)) v stack)

/-- A number goes on with characters of numbers only. -/
theorem isNumberChar_of_next {n : Numeric} {c : Char} (h : (n.next c).isSome) :
    isNumberChar c = true := by
  by_contra h_not
  simp only [isNumberChar, Bool.not_eq_true, Bool.or_eq_false_iff, beq_eq_false_iff_ne] at h_not
  obtain ⟨⟨⟨⟨⟨h_digit, h_minus⟩, h_plus⟩, h_dot⟩, h_e⟩, h_E⟩ := h_not
  have h_zero : c ≠ '0' := by
    rintro rfl
    cases h_digit
  cases n <;> simp [Numeric.next, isE, *] at h

/-- A literal that has begun is not empty. -/
theorem ne_nil_of_numeric {literal : List Char} {n : Numeric} (h : Numeric.of literal = some n) :
    literal ≠ [] := by
  rintro rfl
  cases h

/-- A number goes on. -/
theorem step_numeric_some (limit : ℕ) {n n' : Numeric} (parseState : List ParseState) {c : Char}
    (h : n.next c = some n') :
    step limit ⟨.numeric n, parseState⟩ c = .more ⟨.numeric n', parseState⟩ := by
  rw [step]
  dsimp only
  rw [h]

/-- A number ends, if it may end here. -/
theorem step_numeric_none (limit : ℕ) {n : Numeric} (parseState : List ParseState) {c : Char}
    (h : n.next c = none) : step limit ⟨.numeric n, parseState⟩ c =
      if n.final then endValue ⟨.numeric n, parseState⟩ c else .error := by
  rw [step]
  dsimp only
  rw [h]

/-- The reader takes a character to a number as long as it can, the scanner only where it is right;
so the scanner may have given up a number that the reader has not. -/
theorem follows_number {limit : ℕ} {literal : List Char} {n : Numeric} {stack : List Reader.Frame}
    {c : Char} {r : Reader.State} (h_of : Numeric.of literal = some n)
    (h : Reader.step limit ⟨.number literal, stack⟩ c = some r) :
    Follows c r (step limit ⟨.numeric n, stack.map kind⟩ c) := by
  change (if isNumberChar c then some ⟨.number (literal ++ [c]), stack⟩
    else (Reader.putNumber literal stack).bind fun s => Reader.stepOther limit s c) = some r at h
  have h_append := Numeric.of_append (ne_nil_of_numeric h_of) c
  rw [h_of, Option.bind_some] at h_append
  split_ifs at h with h_char
  · cases h
    -- The reader collects the character; the scanner follows it, or the literal cannot be a number
    -- any more.
    cases h_next : n.next c with
    | some n' =>
      rw [step_numeric_some limit _ h_next]
      exact .more (Sim.number (h_append.trans h_next) stack)
    | none => exact .doomed rfl (by simp) (h_append.trans h_next) h_char _
  -- the number is over for the reader, so it is complete for the scanner
  · obtain ⟨s, h_put, h_other⟩ := Option.bind_eq_some_iff.mp h
    have h_next : n.next c = none := by
      rw [← Option.not_isSome_iff_eq_none]
      exact fun h_some => h_char (isNumberChar_of_next h_some)
    unfold Reader.putNumber at h_put
    split_ifs at h_put with h_chars h_literal
    cases h_put
    obtain ⟨m, h_m, h_final⟩ := numeric_of_isNumberLiteral h_literal
    obtain rfl : n = m := Option.some.inj (h_of.symm.trans h_m)
    rw [step_numeric_none limit _ h_next, if_pos h_final]
    exact follows_put h_other _

/-- **A step of both.** What the reader takes, the scanner takes, or has a reason not to. -/
theorem follows {limit : ℕ} {r r' : Reader.State} {s : State} {c : Char} (h : Sim r s)
    (h_step : Reader.step limit r c = some r') : Follows c r' (step limit s c) := by
  -- The scanner has one state for each of the reader's, and makes the same distinctions.
  cases h with
  | value stack =>
    change (if isSpace c then some _ else Reader.startValue limit stack c) = some r' at h_step
    change Follows c r' (beginValue limit ⟨.beginValue, stack.map kind⟩ c)
    split_ifs at h_step with h_space
    · cases h_step
      rw [beginValue, if_pos h_space]
      exact .more (Sim.value stack)
    · exact follows_startValue h_space h_step _
  | element elems stack =>
    change (if isSpace c then some _ else if c = ']' then Reader.afterValue (.arr elems :: stack) c
      else Reader.startValue limit (.arr elems :: stack) c) = some r' at h_step
    rw [step]
    dsimp only
    split_ifs at h_step ⊢ with h_space h_end
    · cases h_step
      exact .more (Sim.element elems stack)
    · subst h_end
      cases h_step
      exact follows_pop _ _ stack
    · exact follows_startValue h_space h_step _
  | member fields key stack =>
    change (if isSpace c then some _ else
      if c = '}' then Reader.afterValue (.obj fields key :: stack) c
      else if c = '"' then some ⟨.string true [], .obj fields key :: stack⟩ else none) = some r'
      at h_step
    rw [step]
    dsimp only
    unfold beginString
    split_ifs at h_step ⊢ with h_space h_end h_quote
    · cases h_step
      exact .more (Sim.member fields key stack)
    · subst h_end
      cases h_step
      exact follows_pop _ _ stack
    · cases h_step
      have h_within : Within true (.obj fields key :: stack) (.objectKey :: stack.map kind) :=
        ⟨fields, key, stack, rfl, rfl⟩
      exact .more (Sim.string h_within [])
  | name fields key stack =>
    change (if isSpace c then some _ else
      if c = '"' then some ⟨.string true [], .obj fields key :: stack⟩ else none) =
        some r' at h_step
    rw [step]
    dsimp only
    unfold beginString
    split_ifs at h_step ⊢ with h_space h_quote
    · cases h_step
      exact .more (Sim.name fields key stack)
    · cases h_step
      have h_within : Within true (.obj fields key :: stack) (.objectKey :: stack.map kind) :=
        ⟨fields, key, stack, rfl, rfl⟩
      exact .more (Sim.string h_within [])
  | colon fields key stack =>
    change (if isSpace c then some _ else
      if c = ':' then some ⟨.value, .obj fields key :: stack⟩ else none) = some r' at h_step
    rw [step]
    dsimp only
    rw [endValue]
    dsimp only
    split_ifs at h_step ⊢ with h_space h_colon
    · cases h_step
      exact .more (Sim.colon fields key stack)
    · cases h_step
      exact .more (Sim.value (.obj fields key :: stack))
  -- these are lemmas of their own
  | put v stack => exact follows_put ((Reader.step_put limit v stack c).symm.trans h_step) _
  | word h_small v stack => exact follows_word h_small h_step
  | number h_of stack => exact follows_number h_of h_step
  | string h_within parts => exact follows_string h_within h_step
  | escape h_within parts => exact follows_escape h_within h_step
  | digits h_within parts count n => exact follows_digits h_within h_step

/-- A number that the scanner has given up is none. -/
theorem result_doomed {limit : ℕ} {literal : List Char} {stack : List Reader.Frame} {cs : List Char}
    (h_ne : literal ≠ []) (h_none : Numeric.of literal = none) :
    Reader.result limit ⟨.number literal, stack⟩ cs = none := by
  -- what the scanner refuses is no literal for the reader
  have h_put : ∀ {literal}, Numeric.of literal = none → Reader.putNumber literal stack = none := by
    intro literal h_none
    unfold Reader.putNumber
    split_ifs with h_chars h_literal
    · obtain ⟨n, h_some, -⟩ := numeric_of_isNumberLiteral h_literal
      rw [h_none] at h_some
      cases h_some
    · rfl
    · rfl
  -- more characters do not help
  induction cs generalizing literal with
  | nil =>
    change (Reader.putNumber literal stack).bind _ = none
    rw [h_put h_none]
    rfl
  | cons c cs ih =>
    have h_step : Reader.step limit ⟨.number literal, stack⟩ c =
        if isNumberChar c then some ⟨.number (literal ++ [c]), stack⟩
        else (Reader.putNumber literal stack).bind fun s => Reader.stepOther limit s c := rfl
    rw [Reader.result_cons, h_step]
    split_ifs with h_char
    · refine ih (by simp) ?_
      rw [Numeric.of_append h_ne, h_none]
      rfl
    · rw [h_put h_none]
      rfl

/-- After the value there is nothing but white space. -/
theorem isSpace_of_result_put {limit : ℕ} {v : Json} {cs : List Char}
    (h : (Reader.result limit (Reader.put v []) cs).isSome) : ∀ c ∈ cs, isSpace c = true := by
  induction cs with
  | nil => rintro _ ⟨⟩
  | cons c cs ih =>
    have h_step : Reader.step limit (Reader.put v []) c =
        if isSpace c then some (Reader.put v []) else none := rfl
    rw [Reader.result_cons, h_step] at h
    split_ifs at h with h_space
    · exact List.forall_mem_cons.mpr ⟨h_space, ih h⟩
    · cases h

/-! ### Wide characters -/

section Wide

variable {c : Char} (h : 128 ≤ c.toNat)

include h

/-- A wide character is no character below 128. -/
theorem ne_of_wide {d : Char} (h_d : d.toNat < 128) : c ≠ d := by
  rintro rfl
  omega

/-- Nor is it in a range below. -/
theorem not_le_of_wide {d : Char} (h_d : d.toNat < 128) : ¬ c ≤ d := by
  intro h_le
  have h_nat : c.toNat ≤ d.toNat := h_le
  omega

/-- It is no space. -/
theorem not_isSpace_of_wide : isSpace c = false := by
  simp [isSpace, @ne_of_wide c h ' ' (by decide), @ne_of_wide c h '\t' (by decide),
    @ne_of_wide c h '\n' (by decide), @ne_of_wide c h '\r' (by decide)]

/-- It is no digit. -/
theorem not_isDigit_of_wide : c.isDigit = false := by
  rw [Char.isDigit, Bool.and_eq_false_iff]
  exact .inr (decide_eq_false (not_le_of_wide h (by decide : '9'.toNat < 128)))

/-- It is no escape. -/
theorem simpleEscape_of_wide : Reader.simpleEscape c = none := by
  unfold Reader.simpleEscape
  split
  case h_9 => rfl
  all_goals exact absurd h (by decide)

/-- It is no hexadecimal digit. -/
theorem hexValue_of_wide : Reader.hexValue c = none := by
  rw [Reader.hexValue, if_neg (by rw [not_isDigit_of_wide h]; exact Bool.false_ne_true),
    if_neg fun h_and => not_le_of_wide h (by decide : 'f'.toNat < 128) h_and.2,
    if_neg fun h_and => not_le_of_wide h (by decide : 'F'.toNat < 128) h_and.2]

/-- No number begins with it. -/
theorem start_of_wide : Numeric.start c = none := by
  rw [Numeric.start, if_neg (ne_of_wide h (by decide)), if_neg (ne_of_wide h (by decide)),
    if_neg (by rw [not_isDigit_of_wide h]; exact Bool.false_ne_true)]

/-- It is not in a number. -/
theorem not_isNumberChar_of_wide : isNumberChar c ≠ true := by
  simp [isNumberChar, not_isDigit_of_wide h, @ne_of_wide c h '-' (by decide),
    @ne_of_wide c h '+' (by decide), @ne_of_wide c h '.' (by decide),
    @ne_of_wide c h 'e' (by decide), @ne_of_wide c h 'E' (by decide)]

/-- No number goes on with it. -/
theorem next_of_wide (n : Numeric) : n.next c = none := by
  rw [← Option.not_isSome_iff_eq_none]
  exact fun h_some => not_isNumberChar_of_wide h (isNumberChar_of_next h_some)

/-- No value begins with it. -/
theorem beginValue_of_wide (limit : ℕ) (s : State) : beginValue limit s c = .error := by
  rw [beginValue, not_isSpace_of_wide h, if_neg Bool.false_ne_true,
    if_neg (ne_of_wide h (by decide)), if_neg (ne_of_wide h (by decide)),
    if_neg (ne_of_wide h (by decide)), if_neg (ne_of_wide h (by decide)),
    if_neg (ne_of_wide h (by decide)), if_neg (ne_of_wide h (by decide)), start_of_wide h]

/-- No name begins with it. -/
theorem beginString_of_wide (s : State) : beginString s c = .error := by
  rw [beginString, not_isSpace_of_wide h, if_neg Bool.false_ne_true,
    if_neg (ne_of_wide h (by decide))]

/-- Nothing goes on with it after a value. -/
theorem endValue_of_wide (s : State) : endValue s c = .ended ∨ endValue s c = .error := by
  unfold endValue
  split
  case h_1 => exact .inl rfl
  case h_2 p rest h_eq =>
    rw [not_isSpace_of_wide h, if_neg Bool.false_ne_true]
    refine .inr ?_
    cases p with
    | objectKey => exact if_neg (ne_of_wide h (by decide))
    | objectValue =>
      exact (if_neg (ne_of_wide h (by decide))).trans (if_neg (ne_of_wide h (by decide)))
    | arrayValue =>
      exact (if_neg (ne_of_wide h (by decide))).trans (if_neg (ne_of_wide h (by decide)))

/-- A string goes on with it. -/
theorem inString_of_wide (s : State) : inString s c = .more s := by
  rw [inString, if_neg (ne_of_wide h (by decide)), if_neg (ne_of_wide h (by decide)),
    if_neg (by omega)]

/-- A character that is none of the first 128 belongs to a string, or to nothing. -/
theorem step_of_wide (limit : ℕ) {s : State}
    (h_word : ∀ rest, s.step = .word rest → ∀ d ∈ rest, d.toNat < 128) :
    (∃ parseState, s = ⟨.inString, parseState⟩ ∧ step limit s c = .more s) ∨
      step limit s c = .ended ∨ step limit s c = .error := by
  obtain ⟨expected, parseState⟩ := s
  -- Only within a string can there be such a character.
  cases expected with
  | beginValueOrEmpty =>
    refine .inr (.inr ?_)
    rw [step]
    dsimp only
    rw [not_isSpace_of_wide h, if_neg Bool.false_ne_true, if_neg (ne_of_wide h (by decide)),
      beginValue_of_wide h]
  | beginValue => exact .inr (.inr (beginValue_of_wide h limit _))
  | beginStringOrEmpty =>
    refine .inr (.inr ?_)
    rw [step]
    dsimp only
    rw [not_isSpace_of_wide h, if_neg Bool.false_ne_true, if_neg (ne_of_wide h (by decide)),
      beginString_of_wide h]
  | beginString => exact .inr (.inr (beginString_of_wide h _))
  | endValue => exact .inr (endValue_of_wide h _)
  | endTop => exact .inr (.inl rfl)
  | inString => exact .inl ⟨parseState, rfl, inString_of_wide h _⟩
  | inStringEsc =>
    refine .inr (.inr ?_)
    rw [step]
    dsimp only
    rw [simpleEscape_of_wide h, Option.isSome_none, if_neg Bool.false_ne_true,
      if_neg (ne_of_wide h (by decide))]
  | inStringEscU count =>
    refine .inr (.inr ?_)
    rw [step]
    dsimp only
    rw [hexValue_of_wide h, Option.isSome_none, if_neg Bool.false_ne_true]
  -- a number ends before it
  | numeric n =>
    rw [step_numeric_none limit _ (next_of_wide h n)]
    split_ifs
    · exact .inr (endValue_of_wide h _)
    · exact .inr (.inr rfl)
  | word rest =>
    refine .inr (.inr ?_)
    cases rest with
    | nil => rfl
    | cons d rest => exact if_neg (ne_of_wide h (h_word _ rfl d List.mem_cons_self))

end Wide

/-- The words that are read. -/
theorem Sim.small {r : Reader.State} {s : State} (h : Sim r s) (rest : List Char)
    (h_word : s.step = .word rest) : ∀ d ∈ rest, d.toNat < 128 := by
  cases h with
  | word h_small =>
    cases h_word
    exact h_small
  | _ => cases h_word

end Encoding.Scanner
