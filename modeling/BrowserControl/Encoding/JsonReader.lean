import BrowserControl.Encoding.Json

/-!
# Reading a JSON text

`read` is a reader of JSON texts that looks at one character at a time. It keeps what is open in a
stack of frames, so that it needs no recursion: `step` says what a character does to the state,
and reading a text is a fold. `limit` is how deep arrays and objects may be nested.

`read_encode` is the result: the text of a tree is read back as this tree, if the tree is not too
deep and its numbers are grammatical (`Readable`). It follows the tree: `result_encode` says that
the text of a value, read where a value is wanted, puts this value there, whatever comes after it.
-/

namespace Encoding.Reader

/-! ### Numbers -/

/-- The digits in front of a text, and what comes after them. -/
def spanDigits (cs : List Char) : List Char × List Char :=
  (cs.takeWhile Char.isDigit, cs.dropWhile Char.isDigit)

/-- Nothing or an exponent. -/
def isExponent : List Char → Bool
  | [] => true
  | c :: cs =>
    (c == 'e' || c == 'E') &&
      let digits := match cs with
        | '+' :: digits => digits
        | '-' :: digits => digits
        | digits => digits
      !digits.isEmpty && digits.all Char.isDigit

/-- Nothing, or a fraction and an exponent. -/
def isFraction : List Char → Bool
  | '.' :: cs => !(spanDigits cs).1.isEmpty && isExponent (spanDigits cs).2
  | cs => isExponent cs

/-- A number without a sign. There are no zeros in front. -/
def isUnsigned : List Char → Bool
  | '0' :: cs => isFraction cs
  | cs => !(spanDigits cs).1.isEmpty && isFraction (spanDigits cs).2

/-- The grammar of numbers. -/
def isNumberLiteral : List Char → Bool
  | '-' :: cs => isUnsigned cs
  | cs => isUnsigned cs

/-! ### Strings -/

/-- A surrogate that comes first. -/
def isHigh (n : ℕ) : Bool := 0xD800 ≤ n && n < 0xDC00

/-- A surrogate that comes second. -/
def isLow (n : ℕ) : Bool := 0xDC00 ≤ n && n < 0xE000

/-- The character of an escape on its own. -/
def ofEscape (n : ℕ) : Char := if isHigh n || isLow n then '\uFFFD' else Char.ofNat n

/-- The characters of a string. A part of it is a character, or the number of an escape with four
digits; two surrogates are one character. -/
def unquote : List (Char ⊕ ℕ) → List Char
  | [] => []
  | .inl c :: parts => c :: unquote parts
  | [.inr n] => [ofEscape n]
  | .inr n :: .inl c :: parts => ofEscape n :: c :: unquote parts
  | .inr n :: .inr m :: parts =>
    if isHigh n && isLow m then
      Char.ofNat (0x10000 + (n - 0xD800) * 0x400 + (m - 0xDC00)) :: unquote parts
    else ofEscape n :: unquote (.inr m :: parts)

/-! ### The states of the reader -/

/-- Something that is open: an array, or an object with the name of the field that is read. -/
inductive Frame where
  | arr (elems : List Json)
  | obj (fields : List (String × Json)) (key : String)

/-- What is wanted next. -/
inductive Mode where
  /-- A value. -/
  | value
  /-- The first element of an array, or its end. -/
  | element
  /-- The first name of an object, or its end. -/
  | member
  /-- A name. -/
  | name
  /-- What separates a name from its value. -/
  | colon
  /-- What comes after a value. -/
  | after
  /-- The rest of a word. -/
  | word (rest : List Char) (v : Json)
  /-- More of a number. -/
  | number (literal : List Char)
  /-- More of a string, which may be a name. -/
  | string (isName : Bool) (parts : List (Char ⊕ ℕ))
  /-- What stands behind a backslash. -/
  | escape (isName : Bool) (parts : List (Char ⊕ ℕ))
  /-- More digits of an escape. -/
  | digits (isName : Bool) (parts : List (Char ⊕ ℕ)) (count n : ℕ)
  /-- Nothing: the value is complete. -/
  | done (v : Json)

/-- Where the reader is, and what it is within. -/
structure State where
  mode : Mode
  stack : List Frame

/-- White space. -/
def isSpace (c : Char) : Bool := c == ' ' || c == '\t' || c == '\n' || c == '\r'

/-- A value is complete. -/
def put (v : Json) : List Frame → State
  | [] => ⟨.done v, []⟩
  | .arr elems :: stack => ⟨.after, .arr (elems ++ [v]) :: stack⟩
  | .obj fields key :: stack => ⟨.after, .obj (fields ++ [(key, v)]) key :: stack⟩

/-- A number is complete. -/
def putNumber (literal : List Char) (stack : List Frame) : Option State :=
  if h : literal ≠ [] ∧ ∀ c ∈ literal, isNumberChar c = true then
    if isNumberLiteral literal then some (put (.num ⟨literal, h.1, h.2⟩) stack) else none
  else none

/-- A string is complete. -/
def putString (isName : Bool) (parts : List (Char ⊕ ℕ)) (stack : List Frame) : Option State :=
  if isName then
    match stack with
    | .obj fields _ :: stack =>
      some ⟨.colon, .obj fields (String.ofList (unquote parts)) :: stack⟩
    | _ => none
  else some (put (.str (String.ofList (unquote parts))) stack)

/-- The value of a hexadecimal digit. -/
def hexValue (c : Char) : Option ℕ :=
  if c.isDigit then some (c.toNat - '0'.toNat)
  else if 'a' ≤ c ∧ c ≤ 'f' then some (c.toNat - 'a'.toNat + 10)
  else if 'A' ≤ c ∧ c ≤ 'F' then some (c.toNat - 'A'.toNat + 10)
  else none

/-- The first character of a value. -/
def startValue (limit : ℕ) (stack : List Frame) (c : Char) : Option State :=
  if c = '"' then some ⟨.string false [], stack⟩
  else if c = '[' then
    if stack.length < limit then some ⟨.element, .arr [] :: stack⟩ else none
  else if c = '{' then
    if stack.length < limit then some ⟨.member, .obj [] "" :: stack⟩ else none
  else if c = 't' then some ⟨.word ['r', 'u', 'e'] (.bool true), stack⟩
  else if c = 'f' then some ⟨.word ['a', 'l', 's', 'e'] (.bool false), stack⟩
  else if c = 'n' then some ⟨.word ['u', 'l', 'l'] .null, stack⟩
  else if c = '-' ∨ c.isDigit then some ⟨.number [c], stack⟩
  else none

/-- What comes after a value: more, or the end of what is open. -/
def afterValue (stack : List Frame) (c : Char) : Option State :=
  match stack with
  | .arr elems :: rest =>
    if c = ',' then some ⟨.value, stack⟩
    else if c = ']' then some (put (.arr elems) rest)
    else none
  | .obj fields _ :: rest =>
    if c = ',' then some ⟨.name, stack⟩
    else if c = '}' then some (put (.obj fields) rest)
    else none
  | [] => none

/-- What stands for a character behind a backslash. -/
def simpleEscape (c : Char) : Option Char :=
  match c with
  | '"' => some '"'
  | '\\' => some '\\'
  | '/' => some '/'
  | 'b' => some (Char.ofNat 8)
  | 'f' => some (Char.ofNat 12)
  | 'n' => some '\n'
  | 'r' => some '\r'
  | 't' => some '\t'
  | _ => none

/-- A character where none of a number is read. -/
def stepOther (limit : ℕ) (s : State) (c : Char) : Option State :=
  match s.mode with
  | .string isName parts =>
    if c = '"' then putString isName parts s.stack
    else if c = '\\' then some ⟨.escape isName parts, s.stack⟩
    -- A control character must be escaped.
    else if c.toNat < 32 then none
    else some ⟨.string isName (parts ++ [.inl c]), s.stack⟩
  | .escape isName parts =>
    if c = 'u' then some ⟨.digits isName parts 0 0, s.stack⟩
    else (simpleEscape c).map fun d => ⟨.string isName (parts ++ [.inl d]), s.stack⟩
  | .digits isName parts count n =>
    (hexValue c).map fun d =>
      -- The fourth digit ends the escape.
      if count = 3 then ⟨.string isName (parts ++ [.inr (n * 16 + d)]), s.stack⟩
      else ⟨.digits isName parts (count + 1) (n * 16 + d), s.stack⟩
  | .word rest v =>
    match rest with
    | [] => none
    | d :: rest =>
      if c = d then some (if rest = [] then put v s.stack else ⟨.word rest v, s.stack⟩) else none
  | mode =>
    -- Between the tokens blanks are skipped.
    if isSpace c then some s
    else
      match mode with
      | .value => startValue limit s.stack c
      | .element =>
        if c = ']' then afterValue s.stack c else startValue limit s.stack c
      | .member =>
        if c = '}' then afterValue s.stack c
        else if c = '"' then some ⟨.string true [], s.stack⟩
        else none
      | .name => if c = '"' then some ⟨.string true [], s.stack⟩ else none
      | .colon => if c = ':' then some ⟨.value, s.stack⟩ else none
      | .after => afterValue s.stack c
      | _ => none

/-- What a character does to the state. A number goes on as long as it can. -/
def step (limit : ℕ) (s : State) (c : Char) : Option State :=
  match s.mode with
  | .number literal =>
    if isNumberChar c then some ⟨.number (literal ++ [c]), s.stack⟩
    else (putNumber literal s.stack).bind fun s => stepOther limit s c
  | _ => stepOther limit s c

/-- The value of a text that ends here. -/
def finish (s : State) : Option Json :=
  match s.mode with
  | .done v => some v
  | .number literal =>
    (putNumber literal s.stack).bind fun s =>
      match s.mode with
      | .done v => some v
      | _ => none
  | _ => none

/-- Several characters. -/
def run (limit : ℕ) (s : State) (cs : List Char) : Option State := cs.foldlM (step limit) s

/-- The tree of a text. -/
def read (limit : ℕ) (cs : List Char) : Option Json := (run limit ⟨.value, []⟩ cs).bind finish

example : (read 1 "[1.5e3, \"\\u0041\"]".toList).map Json.encode =
    some "[1.5e3,\"A\"]".toList := by
  decide +kernel

example : (read 1 "[[]]".toList).isNone ∧ (read 1 "01".toList).isNone := by
  decide +kernel

/-! ### Rewriting -/

/-- The tree of a text, the rest of which is read from here. -/
def result (limit : ℕ) (s : State) (cs : List Char) : Option Json := (run limit s cs).bind finish

theorem result_cons (limit : ℕ) (s : State) (c : Char) (cs : List Char) :
    result limit s (c :: cs) = (step limit s c).bind fun s => result limit s cs := by
  rw [result, run, List.foldlM_cons]
  cases step limit s c with
  | none => rfl
  | some s' => rfl

/-- A step that is taken. -/
theorem result_cons_some {limit : ℕ} {s s' : State} {c : Char} {cs : List Char}
    (h : step limit s c = some s') : result limit s (c :: cs) = result limit s' cs := by
  rw [result_cons, h, Option.bind_some]

/-- A value that has been put is complete, and what follows is looked at afresh. -/
theorem step_put (limit : ℕ) (v : Json) (stack : List Frame) (c : Char) :
    step limit (put v stack) c = stepOther limit (put v stack) c := by
  cases stack with
  | nil => rfl
  | cons frame stack =>
    cases frame with
    | _ => rfl

/-- A text is a value. -/
theorem putString_false (parts : List (Char ⊕ ℕ)) (stack : List Frame) :
    putString false parts stack = some (put (.str (String.ofList (unquote parts))) stack) := rfl

/-- A text in the place of a name is one. -/
theorem putString_true (parts : List (Char ⊕ ℕ)) (fields : List (String × Json)) (key : String)
    (stack : List Frame) : putString true parts (.obj fields key :: stack) =
      some ⟨.colon, .obj fields (String.ofList (unquote parts)) :: stack⟩ := rfl

/-! ### Numbers are read back -/

/-- A number begins with a digit, or with its sign. -/
theorem isUnsigned_head {cs : List Char} (h : isUnsigned cs) :
    ∃ c rest, cs = c :: rest ∧ c.isDigit := by
  cases cs with
  | nil => cases h
  | cons c rest =>
    refine ⟨c, rest, rfl, ?_⟩
    by_contra h_c
    -- The first character is no zero, so it is a digit.
    unfold isUnsigned at h
    split at h
    case h_1 h_eq =>
      cases h_eq
      exact h_c rfl
    case h_2 =>
      rw [spanDigits, List.takeWhile_cons, if_neg h_c] at h
      cases h

/-- A number starts with a sign or a digit. -/
theorem isNumberLiteral_head {cs : List Char} (h : isNumberLiteral cs) :
    ∃ c rest, cs = c :: rest ∧ (c = '-' ∨ c.isDigit) := by
  unfold isNumberLiteral at h
  split at h
  case h_1 rest => exact ⟨'-', rest, rfl, .inl rfl⟩
  case h_2 =>
    obtain ⟨c, rest, h_eq, h_c⟩ := isUnsigned_head h
    exact ⟨c, rest, h_eq, .inr h_c⟩

/-- A value that begins so is a number. -/
theorem step_number {limit : ℕ} {stack : List Frame} {c : Char} (h : c = '-' ∨ c.isDigit) :
    step limit ⟨.value, stack⟩ c = some ⟨.number [c], stack⟩ := by
  -- The first character of a number is none of the other openings.
  have h_other : isSpace c = false ∧ ∀ d ∈ ['"', '[', '{', 't', 'f', 'n'], c ≠ d := by
    rcases h with rfl | h_digit
    · decide
    · refine ⟨?_, ?_⟩
      · by_contra h_space
        simp only [isSpace, Bool.not_eq_false, Bool.or_eq_true, beq_iff_eq] at h_space
        rcases h_space with ((rfl | rfl) | rfl) | rfl <;> exact absurd h_digit (by decide)
      · rintro d h_d rfl
        have h_none : ∀ d ∈ ['"', '[', '{', 't', 'f', 'n'], ¬ d.isDigit := by decide
        exact h_none c h_d h_digit
  obtain ⟨h_space, h_ne⟩ := h_other
  have h_not (d : Char) (h_d : d ∈ ['"', '[', '{', 't', 'f', 'n']) : ¬ c = d := h_ne d h_d
  show (if isSpace c then _ else startValue limit stack c) = _
  rw [h_space, if_neg Bool.false_ne_true, startValue, if_neg (h_not _ (by decide)),
    if_neg (h_not _ (by decide)), if_neg (h_not _ (by decide)), if_neg (h_not _ (by decide)),
    if_neg (h_not _ (by decide)), if_neg (h_not _ (by decide)), if_pos h]

/-- A literal of the grammar is a number. -/
theorem putNumber_literal {n : Number} (h : isNumberLiteral n.literal) (stack : List Frame) :
    putNumber n.literal stack = some (put (.num n) stack) := by
  rw [putNumber, dif_pos ⟨n.nonempty, n.chars⟩, if_pos h]

/-- A number goes on as long as it can. -/
theorem result_number (limit : ℕ) (stack : List Frame) {cs : List Char}
    (h : ∀ c ∈ cs, isNumberChar c = true) (literal x : List Char) :
    result limit ⟨.number literal, stack⟩ (cs ++ x) =
      result limit ⟨.number (literal ++ cs), stack⟩ x := by
  induction cs generalizing literal with
  | nil => rw [List.append_nil, List.nil_append]
  | cons c cs ih =>
    rw [List.forall_mem_cons] at h
    have h_step : step limit ⟨.number literal, stack⟩ c =
        some ⟨.number (literal ++ [c]), stack⟩ := if_pos h.1
    rw [List.cons_append, result_cons_some h_step, ih h.2, List.append_assoc]
    rfl

/-- A number ends where a character comes that is not its own. -/
theorem result_number_end {limit : ℕ} {n : Number} (h : isNumberLiteral n.literal)
    (stack : List Frame) {x : List Char} (h_x : Delimited x) :
    result limit ⟨.number n.literal, stack⟩ x = result limit (put (.num n) stack) x := by
  cases x with
  -- the text ends with the number
  | nil =>
    show (putNumber n.literal stack).bind _ = finish _
    rw [putNumber_literal h, Option.bind_some]
    cases stack with
    | nil => rfl
    | cons frame stack =>
      cases frame with
      | _ => rfl
  -- a delimiter follows, which is read after the number is put
  | cons c x =>
    have h_c : isNumberChar c = false := h_x c rfl
    have h_step : step limit ⟨.number n.literal, stack⟩ c =
        step limit (put (.num n) stack) c := by
      show (if isNumberChar c then _ else (putNumber n.literal stack).bind _) = _
      rw [if_neg (by rw [h_c]; exact Bool.false_ne_true), putNumber_literal h, Option.bind_some,
        step_put]
    rw [result_cons, result_cons, h_step]

/-! ### Strings are read back -/

/-- A part of a string that stands for a character. -/
def Stands (part : Char ⊕ ℕ) (c : Char) : Prop := part = .inl c ∨ part = .inr c.toNat

/-- A character is no surrogate. -/
theorem not_surrogate (c : Char) : isHigh c.toNat = false ∧ isLow c.toNat = false := by
  have h_valid : c.toNat < 0xD800 ∨ 0xDFFF < c.toNat ∧ c.toNat < 0x110000 := c.valid
  simp only [isHigh, isLow, Bool.and_eq_false_iff, decide_eq_false_iff_not]
  omega

/-- A character is given by its number. -/
theorem ofEscape_toNat (c : Char) : ofEscape c.toNat = c := by
  rw [ofEscape, (not_surrogate c).1, (not_surrogate c).2]
  exact Char.ofNat_toNat c

/-- Escapes are undone. -/
theorem unquote_of_stands {parts : List (Char ⊕ ℕ)} {cs : List Char}
    (h : List.Forall₂ Stands parts cs) : unquote parts = cs := by
  induction h with
  | nil => rfl
  | @cons part c parts cs h_part h_parts ih =>
    -- A part stands for a character by itself or by an escape.
    rcases h_part with rfl | rfl
    · rw [unquote, ih]
    · cases parts with
      | nil =>
        cases h_parts
        rw [unquote, ofEscape_toNat]
      | cons next parts =>
        cases next with
        | inl d =>
          rw [unquote, ofEscape_toNat]
          exact congrArg (c :: ·) ih
        | inr m =>
          rw [unquote, (not_surrogate c).1, Bool.false_and, if_neg Bool.false_ne_true,
            ofEscape_toNat, ih]

/-- A hexadecimal digit is read back. -/
theorem hexValue_hexDigit : ∀ {n : ℕ}, n < 16 → hexValue (hexDigit n) = some n := by decide

/-- What is escaped is one code unit. -/
theorem toNat_lt_of_escaped : ∀ c ∈ escaped, c.toNat < 65536 := by decide

/-- The text of a character in a string. -/
theorem result_escape (limit : ℕ) (isName : Bool) (stack : List Frame) (c : Char) :
    ∃ part, Stands part c ∧ ∀ parts x,
      result limit ⟨.string isName parts, stack⟩ (escape c ++ x) =
        result limit ⟨.string isName (parts ++ [part]), stack⟩ x := by
  by_cases h : c ∈ escaped
  · have h_escape : escape c = '\\' :: escapeTail c := if_pos h
    have h_backslash (parts : List (Char ⊕ ℕ)) :
        step limit ⟨.string isName parts, stack⟩ '\\' = some ⟨.escape isName parts, stack⟩ := rfl
    -- An escape of two characters.
    have h_simple {d : Char} (h_tail : escapeTail c = [d]) (h_d : simpleEscape d = some c)
        (h_u : d ≠ 'u') : ∃ part, Stands part c ∧ ∀ parts x,
          result limit ⟨.string isName parts, stack⟩ (escape c ++ x) =
            result limit ⟨.string isName (parts ++ [part]), stack⟩ x := by
      refine ⟨.inl c, .inl rfl, fun parts x => ?_⟩
      have h_step : step limit ⟨.escape isName parts, stack⟩ d =
          some ⟨.string isName (parts ++ [.inl c]), stack⟩ := by
        show (if d = 'u' then _ else (simpleEscape d).map _) = _
        rw [if_neg h_u, h_d, Option.map_some]
      rw [h_escape, h_tail, List.cons_append, result_cons_some (h_backslash parts)]
      exact result_cons_some h_step
    by_cases h_two : ∃ d, escapeTail c = [d]
    · obtain ⟨d, h_tail⟩ := h_two
      have h_all : ∀ c ∈ escaped, ∀ d ∈ escapeTail c, escapeTail c = [d] →
          simpleEscape d = some c ∧ d ≠ 'u' := by decide
      obtain ⟨h_d, h_u⟩ := h_all c h d (h_tail ▸ List.mem_singleton_self d) h_tail
      exact h_simple h_tail h_d h_u
    · -- An escape with four digits.
      have h_tail : escapeTail c = ['u', hexDigit (c.toNat / 4096), hexDigit (c.toNat / 256 % 16),
          hexDigit (c.toNat / 16 % 16), hexDigit (c.toNat % 16)] := by
        have h_all : ∀ c ∈ escaped, (escapeTail c).length ≠ 1 →
            escapeTail c = ['u', hexDigit (c.toNat / 4096), hexDigit (c.toNat / 256 % 16),
              hexDigit (c.toNat / 16 % 16), hexDigit (c.toNat % 16)] := by decide
        exact h_all c h fun h_one => h_two (List.length_eq_one_iff.mp h_one)
      have h_lt := toNat_lt_of_escaped c h
      refine ⟨.inr c.toNat, .inr rfl, fun parts x => ?_⟩
      have h_digit {count n d : ℕ} (h_count : count < 3) (h_d : d < 16) :
          step limit ⟨.digits isName parts count n, stack⟩ (hexDigit d) =
            some ⟨.digits isName parts (count + 1) (n * 16 + d), stack⟩ := by
        show (hexValue (hexDigit d)).map _ = _
        rw [hexValue_hexDigit h_d, Option.map_some, if_neg (by omega)]
      have h_last {n d : ℕ} (h_d : d < 16) (h_n : n * 16 + d = c.toNat) :
          step limit ⟨.digits isName parts 3 n, stack⟩ (hexDigit d) =
            some ⟨.string isName (parts ++ [.inr c.toNat]), stack⟩ := by
        show (hexValue (hexDigit d)).map _ = _
        rw [hexValue_hexDigit h_d, Option.map_some, if_pos rfl, h_n]
      have h_u : step limit ⟨.escape isName parts, stack⟩ 'u' =
          some ⟨.digits isName parts 0 0, stack⟩ := rfl
      rw [h_escape, h_tail, List.cons_append, result_cons_some (h_backslash parts),
        List.cons_append, result_cons_some h_u, List.cons_append,
        result_cons_some (h_digit (by omega) (by omega)), List.cons_append,
        result_cons_some (h_digit (by omega) (by omega)), List.cons_append,
        result_cons_some (h_digit (by omega) (by omega)), List.cons_append,
        result_cons_some (h_last (by omega) (by omega)), List.nil_append]
  -- A character that needs no escape.
  · have h_escape : escape c = [c] := if_neg h
    have h_plain : c ≠ '"' ∧ c ≠ '\\' ∧ ¬ c.toNat < 32 := by
      refine ⟨?_, ?_, ?_⟩
      · rintro rfl
        exact h quote_mem_escaped
      · rintro rfl
        exact h backslash_mem_escaped
      · intro h_lt
        refine h (List.mem_append_left _ (List.mem_map.mpr ⟨c.toNat, ?_, Char.ofNat_toNat c⟩))
        exact List.mem_range.mpr h_lt
    refine ⟨.inl c, .inl rfl, fun parts x => ?_⟩
    have h_step : step limit ⟨.string isName parts, stack⟩ c =
        some ⟨.string isName (parts ++ [.inl c]), stack⟩ := by
      show (if c = '"' then _ else if c = '\\' then _ else if c.toNat < 32 then _ else _) = _
      rw [if_neg h_plain.1, if_neg h_plain.2.1, if_neg h_plain.2.2]
    rw [h_escape]
    exact result_cons_some h_step

/-- The text of a string behind its first quote. -/
theorem result_encodeChars (limit : ℕ) (isName : Bool) (stack : List Frame) (cs x : List Char) :
    ∃ parts, List.Forall₂ Stands parts cs ∧
      result limit ⟨.string isName [], stack⟩ (encodeChars cs ++ x) =
        (putString isName parts stack).bind fun s => result limit s x := by
  -- In front of the rest stands what has been read.
  suffices h_all : ∀ done, ∃ parts, List.Forall₂ Stands parts cs ∧
      result limit ⟨.string isName done, stack⟩ (encodeChars cs ++ x) =
        (putString isName (done ++ parts) stack).bind fun s => result limit s x from h_all []
  induction cs with
  | nil =>
    intro done
    refine ⟨[], .nil, ?_⟩
    rw [List.append_nil]
    exact result_cons limit _ '"' x
  | cons c cs ih =>
    intro done
    obtain ⟨part, h_part, h_result⟩ := result_escape limit isName stack c
    obtain ⟨parts, h_parts, h_rest⟩ := ih (done ++ [part])
    refine ⟨part :: parts, .cons h_part h_parts, ?_⟩
    have h_text : encodeChars (c :: cs) ++ x = escape c ++ (encodeChars cs ++ x) := by
      simp [encodeChars]
    rw [h_text, h_result, h_rest, List.append_assoc]
    rfl

/-- A string is read back. -/
theorem result_quote (limit : ℕ) (stack : List Frame) (s : String) (x : List Char) :
    result limit ⟨.value, stack⟩ (quote s ++ x) = result limit (put (.str s) stack) x := by
  obtain ⟨parts, h_parts, h_result⟩ := result_encodeChars limit false stack s.toList x
  have h_step : step limit ⟨.value, stack⟩ '"' = some ⟨.string false [], stack⟩ := rfl
  rw [quote, List.cons_append, result_cons_some h_step, h_result, putString_false,
    unquote_of_stands h_parts, String.ofList_toList, Option.bind_some]

/-- A name is read back, where one is wanted. -/
theorem result_quote_name (limit : ℕ) {mode : Mode} (h_mode : mode = .member ∨ mode = .name)
    (stack : List Frame) (fields : List (String × Json)) (key k : String) (x : List Char) :
    result limit ⟨mode, .obj fields key :: stack⟩ (quote k ++ x) =
      result limit ⟨.colon, .obj fields k :: stack⟩ x := by
  obtain ⟨parts, h_parts, h_result⟩ :=
    result_encodeChars limit true (.obj fields key :: stack) k.toList x
  have h_step : step limit ⟨mode, .obj fields key :: stack⟩ '"' =
      some ⟨.string true [], .obj fields key :: stack⟩ := by
    rcases h_mode with rfl | rfl <;> rfl
  rw [quote, List.cons_append, result_cons_some h_step, h_result, putString_true,
    unquote_of_stands h_parts, String.ofList_toList, Option.bind_some]

/-! ### Trees are read back -/

mutual

/-- The numbers are grammatical, and the tree is not deeper than this. -/
def Readable : Json → ℕ → Prop
  | .num n, _ => isNumberLiteral n.literal
  | .arr elems, depth => 0 < depth ∧ ReadableElems elems (depth - 1)
  | .obj fields, depth => 0 < depth ∧ ReadableFields fields (depth - 1)
  | _, _ => True
termination_by structural v => v

/-- The same for the elements of a list. -/
def ReadableElems : List Json → ℕ → Prop
  | [], _ => True
  | v :: vs, depth => Readable v depth ∧ ReadableElems vs depth
termination_by structural vs => vs

/-- The same for the fields of an object. -/
def ReadableFields : List (String × Json) → ℕ → Prop
  | [], _ => True
  | f :: fs, depth => ReadableField f depth ∧ ReadableFields fs depth
termination_by structural fs => fs

/-- The same for a field. -/
def ReadableField : String × Json → ℕ → Prop
  | (_, v), depth => Readable v depth
termination_by structural f => f

end

/-- The first element of an array is read as any value. -/
theorem result_element (limit : ℕ) (stack : List Frame) (v : Json) (x : List Char) :
    result limit ⟨.element, stack⟩ (v.encode ++ x) =
      result limit ⟨.value, stack⟩ (v.encode ++ x) := by
  have h_lead := v.leadClass_head x
  cases h_text : v.encode ++ x with
  | nil =>
    rw [h_text] at h_lead
    cases h_lead
  | cons c cs =>
    rw [h_text] at h_lead
    have h_lead : leadClass c = v.lead := Option.some.inj h_lead
    -- The text starts neither with white space nor with the end of the array.
    have h_c : c ≠ ']' ∧ ¬ isSpace c := by
      have h_leads : v.lead ∈ ['n', 't', 'f', '0', '"', '[', '{'] := by
        cases v with
        | bool b => cases b <;> simp [Json.lead]
        | _ => simp [Json.lead]
      have h_none : ∀ d ∈ [' ', '\t', '\n', '\r', ']'],
          leadClass d ∉ ['n', 't', 'f', '0', '"', '[', '{'] := by decide
      constructor
      · rintro rfl
        exact h_none ']' (by decide) (h_lead ▸ h_leads)
      · intro h_space
        refine h_none c ?_ (h_lead ▸ h_leads)
        simp only [isSpace, Bool.or_eq_true, beq_iff_eq] at h_space
        simp only [List.mem_cons]
        tauto
    have h_step : step limit ⟨.element, stack⟩ c = step limit ⟨.value, stack⟩ c := by
      show (if isSpace c then _ else if c = ']' then _ else startValue limit stack c) =
        if isSpace c then _ else startValue limit stack c
      rw [if_neg h_c.1, if_neg h_c.2, if_neg h_c.2]
    rw [result_cons, result_cons, h_step]

variable (limit : ℕ)

mutual

/-- **A tree is read back.** Where a value is wanted, the text of a tree puts the tree there. -/
theorem result_encode : ∀ (v : Json) {depth : ℕ} {stack : List Frame} {x : List Char},
    Readable v depth → stack.length + depth ≤ limit → Delimited x →
    result limit ⟨.value, stack⟩ (v.encode ++ x) = result limit (put v stack) x := by
  intro v depth stack x h_v h_limit h_x
  cases v with
  | null => rfl
  | bool b => cases b <;> rfl
  -- a number ends with what comes after it
  | num n =>
    have h_n : isNumberLiteral n.literal := h_v
    obtain ⟨c, cs, h_literal, h_c⟩ := isNumberLiteral_head h_n
    have h_chars : ∀ d ∈ cs, isNumberChar d = true :=
      fun d h_d => n.chars d (h_literal ▸ List.mem_cons_of_mem c h_d)
    have h_step : step limit ⟨.value, stack⟩ c = some ⟨.number [c], stack⟩ :=
      step_number h_c
    have h_read := result_number limit stack h_chars [c] x
    rw [Json.encode, h_literal, List.cons_append, result_cons_some h_step, h_read,
      List.singleton_append, ← h_literal, result_number_end h_n stack h_x]
  | str s => exact result_quote limit stack s x
  -- one level deeper
  | arr elems =>
    obtain ⟨h_depth, h_elems⟩ := h_v
    have h_step : step limit ⟨.value, stack⟩ '[' = some ⟨.element, .arr [] :: stack⟩ := by
      show (if stack.length < limit then _ else _) = _
      rw [if_pos (by omega)]
    have h_text : (Json.arr elems).encode ++ x = '[' :: (encodeElems elems ++ x) := rfl
    rw [h_text, result_cons_some h_step]
    exact result_encodeElems elems h_elems (by rw [List.length_cons]; omega)
  | obj fields =>
    obtain ⟨h_depth, h_fields⟩ := h_v
    have h_step : step limit ⟨.value, stack⟩ '{' = some ⟨.member, .obj [] "" :: stack⟩ := by
      show (if stack.length < limit then _ else _) = _
      rw [if_pos (by omega)]
    have h_text : (Json.obj fields).encode ++ x = '{' :: (encodeFields fields ++ x) := rfl
    rw [h_text, result_cons_some h_step]
    exact result_encodeFields fields h_fields (by rw [List.length_cons]; omega)
termination_by structural v => v

theorem result_encodeElems : ∀ (vs : List Json) {depth : ℕ} {stack : List Frame} {x : List Char},
    ReadableElems vs depth → (Frame.arr [] :: stack).length + depth ≤ limit →
    result limit ⟨.element, .arr [] :: stack⟩ (encodeElems vs ++ x) =
      result limit (put (.arr vs) stack) x := by
  intro vs depth stack x h_vs h_limit
  cases vs with
  | nil => exact result_cons_some rfl
  | cons v vs =>
    have h_text : encodeElems (v :: vs) ++ x = v.encode ++ (encodeMoreElems vs ++ x) := by
      rw [encodeElems, List.append_assoc]
    rw [h_text, result_element, result_encode v h_vs.1 h_limit (delimited_encodeMoreElems vs x)]
    exact result_encodeMoreElems vs h_vs.2 [v] h_limit
termination_by structural vs => vs

/-- The same for the rest of a list. -/
theorem result_encodeMoreElems : ∀ (vs : List Json) {depth : ℕ} {stack : List Frame}
    {x : List Char}, ReadableElems vs depth → ∀ done : List Json,
    (Frame.arr done :: stack).length + depth ≤ limit →
    result limit ⟨.after, .arr done :: stack⟩ (encodeMoreElems vs ++ x) =
      result limit (put (.arr (done ++ vs)) stack) x := by
  intro vs depth stack x h_vs done h_limit
  cases vs with
  | nil =>
    rw [List.append_nil]
    exact result_cons_some rfl
  | cons v vs =>
    have h_text : encodeMoreElems (v :: vs) ++ x =
        ',' :: (v.encode ++ (encodeMoreElems vs ++ x)) := by
      rw [encodeMoreElems, List.cons_append, List.append_assoc]
    -- the comma is read, and then the next element
    have h_step : step limit ⟨.after, .arr done :: stack⟩ ',' =
        some ⟨.value, .arr done :: stack⟩ := rfl
    rw [h_text, result_cons_some h_step,
      result_encode v h_vs.1 h_limit (delimited_encodeMoreElems vs x)]
    have h_more := result_encodeMoreElems vs (x := x) h_vs.2 (done ++ [v]) h_limit
    rw [List.append_assoc] at h_more
    exact h_more
termination_by structural vs => vs

/-- The same for an object. -/
theorem result_encodeFields : ∀ (fs : List (String × Json)) {depth : ℕ} {stack : List Frame}
    {x : List Char}, ReadableFields fs depth →
    (Frame.obj [] "" :: stack).length + depth ≤ limit →
    result limit ⟨.member, .obj [] "" :: stack⟩ (encodeFields fs ++ x) =
      result limit (put (.obj fs) stack) x := by
  intro fs depth stack x h_fs h_limit
  cases fs with
  | nil => exact result_cons_some rfl
  | cons f fs =>
    have h_text : encodeFields (f :: fs) ++ x = encodeField f ++ (encodeMoreFields fs ++ x) := by
      rw [encodeFields, List.append_assoc]
    rw [h_text, result_encodeField f h_fs.1 (.inl rfl) [] "" h_limit
      (delimited_encodeMoreFields fs x)]
    exact result_encodeMoreFields fs h_fs.2 [f] f.1 h_limit
termination_by structural fs => fs

/-- The same for the rest of an object. -/
theorem result_encodeMoreFields : ∀ (fs : List (String × Json)) {depth : ℕ} {stack : List Frame}
    {x : List Char}, ReadableFields fs depth → ∀ (done : List (String × Json)) (key : String),
    (Frame.obj done key :: stack).length + depth ≤ limit →
    result limit ⟨.after, .obj done key :: stack⟩ (encodeMoreFields fs ++ x) =
      result limit (put (.obj (done ++ fs)) stack) x := by
  intro fs depth stack x h_fs done key h_limit
  cases fs with
  | nil =>
    rw [List.append_nil]
    exact result_cons_some rfl
  | cons f fs =>
    have h_text : encodeMoreFields (f :: fs) ++ x =
        ',' :: (encodeField f ++ (encodeMoreFields fs ++ x)) := by
      rw [encodeMoreFields, List.cons_append, List.append_assoc]
    -- the comma is read, and then the next field
    have h_step : step limit ⟨.after, .obj done key :: stack⟩ ',' =
        some ⟨.name, .obj done key :: stack⟩ := rfl
    rw [h_text, result_cons_some h_step, result_encodeField f h_fs.1 (.inr rfl) done key h_limit
      (delimited_encodeMoreFields fs x)]
    have h_more := result_encodeMoreFields fs (x := x) h_fs.2 (done ++ [f]) f.1
      h_limit
    rw [List.append_assoc] at h_more
    exact h_more
termination_by structural fs => fs

/-- The same for a field. -/
theorem result_encodeField : ∀ (f : String × Json) {depth : ℕ} {stack : List Frame} {mode : Mode}
    {x : List Char}, ReadableField f depth → (mode = .member ∨ mode = .name) →
    ∀ (done : List (String × Json)) (key : String),
    (Frame.obj done key :: stack).length + depth ≤ limit → Delimited x →
    result limit ⟨mode, .obj done key :: stack⟩ (encodeField f ++ x) =
      result limit ⟨.after, .obj (done ++ [f]) f.1 :: stack⟩ x := by
  intro f depth stack mode x h_v h_mode done key h_limit h_x
  cases f with
  | mk k v =>
    have h_text : encodeField (k, v) ++ x = quote k ++ (':' :: (v.encode ++ x)) := by
      rw [encodeField, List.append_assoc, List.cons_append]
    have h_step : step limit ⟨.colon, .obj done k :: stack⟩ ':' =
        some ⟨.value, .obj done k :: stack⟩ := rfl
    rw [h_text, result_quote_name limit h_mode, result_cons_some h_step]
    exact result_encode v h_v h_limit h_x
termination_by structural f => f

end

/-- The text of a tree is read as this tree. -/
theorem read_encode {v : Json} {limit : ℕ} (h : Readable v limit) :
    read limit v.encode = some v := by
  have h_result := @result_encode limit v limit [] [] h (Nat.zero_add limit).le delimited_nil
  rw [List.append_nil] at h_result
  exact h_result

/-! ### The limit -/

/-- Values that begin below a limit begin below a greater one. -/
theorem startValue_mono {limit limit' : ℕ} (h : limit ≤ limit') {stack : List Frame} {c : Char}
    {s : State} (h_start : startValue limit stack c = some s) :
    startValue limit' stack c = some s := by
  have h_open {s' : State} (h_some : (if stack.length < limit then some s' else none) = some s) :
      (if stack.length < limit' then some s' else none) = some s := by
    split_ifs at h_some with h_lt
    rw [if_pos (h_lt.trans_le h), h_some]
  unfold startValue at h_start ⊢
  split_ifs at h_start ⊢ <;> first
    | exact h_start
    | exact h_open h_start
    | omega

/-- A step below a limit is one below a greater one. -/
theorem stepOther_mono {limit limit' : ℕ} (h : limit ≤ limit') {s s' : State} {c : Char}
    (h_step : stepOther limit s c = some s') : stepOther limit' s c = some s' := by
  obtain ⟨mode, stack⟩ := s
  -- The limit is asked only where a value begins.
  cases mode with
  | value =>
    show (if isSpace c then _ else startValue limit' stack c) = _
    have h_value : (if isSpace c then some ⟨.value, stack⟩ else startValue limit stack c) =
        some s' := h_step
    split_ifs at h_value ⊢
    · exact h_value
    · exact startValue_mono h h_value
  | element =>
    show (if isSpace c then _ else if c = ']' then _ else startValue limit' stack c) = _
    have h_element : (if isSpace c then some ⟨.element, stack⟩
        else if c = ']' then afterValue stack c else startValue limit stack c) = some s' := h_step
    split_ifs at h_element ⊢
    · exact h_element
    · exact h_element
    · exact startValue_mono h h_element
  | _ => exact h_step

/-- The same for all steps. -/
theorem step_mono {limit limit' : ℕ} (h : limit ≤ limit') {s s' : State} {c : Char}
    (h_step : step limit s c = some s') : step limit' s c = some s' := by
  unfold step at h_step ⊢
  split
  -- within a number, whose end may be followed by another step
  case h_1 literal h_mode =>
    rw [h_mode] at h_step
    dsimp only at h_step
    split_ifs at h_step ⊢ with h_c
    · exact h_step
    · obtain ⟨s'', h_put, h_other⟩ := Option.bind_eq_some_iff.mp h_step
      rw [h_put, Option.bind_some]
      exact stepOther_mono h h_other
  case h_2 h_mode =>
    have h_other : stepOther limit s c = some s' := by
      rw [← h_step]
      split
      · rename_i h_number
        exact absurd h_number (h_mode _)
      · rfl
    exact stepOther_mono h h_other

/-- A text that is not too deep for a limit is not too deep for a greater one. -/
theorem read_mono {limit limit' : ℕ} (h : limit ≤ limit') {cs : List Char} {v : Json}
    (h_read : read limit cs = some v) : read limit' cs = some v := by
  suffices h_all : ∀ s : State, result limit s cs = some v → result limit' s cs = some v from
    h_all ⟨.value, []⟩ h_read
  clear h_read
  induction cs with
  | nil => exact fun s h_s => h_s
  | cons c cs ih =>
    intro s h_s
    rw [result_cons] at h_s
    obtain ⟨s', h_step, h_rest⟩ := Option.bind_eq_some_iff.mp h_s
    rw [result_cons_some (step_mono h h_step)]
    exact ih s' h_rest

/-! ### Naturals -/

/-- A natural as a number. -/
def ofNat (n : ℕ) : Number where
  literal := Nat.toDigits 10 n
  nonempty := Nat.toDigits_ne_nil
  chars := by
    intro c h_c
    have h_digit : c.isDigit := Nat.isDigit_of_mem_toDigits (by decide) (by decide) h_c
    simp [isNumberChar, h_digit]

/-- There are no zeros in front of a natural. -/
theorem toDigits_head {n : ℕ} (h : n ≠ 0) : ∃ c cs, Nat.toDigits 10 n = c :: cs ∧ c ≠ '0' := by
  induction n using Nat.strong_induction_on with
  | _ n ih =>
    rw [Nat.toDigits_eq_if (by decide)]
    split_ifs with h_lt
    · have h_digit : ∀ n < 10, n ≠ 0 → n.digitChar ≠ '0' := by decide
      exact ⟨n.digitChar, [], rfl, h_digit n h_lt h⟩
    · obtain ⟨c, cs, h_eq, h_c⟩ := ih (n / 10) (by omega) (by omega)
      exact ⟨c, cs ++ [(n % 10).digitChar], by rw [h_eq]; rfl, h_c⟩

/-- The digits of a natural are digits only. -/
theorem spanDigits_toDigits (n : ℕ) : spanDigits (Nat.toDigits 10 n) = (Nat.toDigits 10 n, []) := by
  have h_all : ∀ c ∈ Nat.toDigits 10 n, c.isDigit :=
    fun c h_c => Nat.isDigit_of_mem_toDigits (by decide) (by decide) h_c
  rw [spanDigits, List.takeWhile_eq_self_iff.mpr h_all, List.dropWhile_eq_nil_iff.mpr h_all]

/-- A natural is grammatical. -/
theorem isNumberLiteral_ofNat (n : ℕ) : isNumberLiteral (ofNat n).literal := by
  show isNumberLiteral (Nat.toDigits 10 n)
  by_cases h : n = 0
  · rw [h, Nat.toDigits_zero]
    decide
  · obtain ⟨c, cs, h_eq, h_c⟩ := toDigits_head h
    have h_digit : c.isDigit :=
      Nat.isDigit_of_mem_toDigits (by decide) (by decide) (h_eq ▸ List.mem_cons_self)
    have h_sign : c ≠ '-' := by
      rintro rfl
      cases h_digit
    have h_span := spanDigits_toDigits n
    rw [h_eq] at h_span ⊢
    -- The first character is neither a sign nor a zero.
    unfold isNumberLiteral
    split
    · rename_i h_cons
      exact absurd (List.cons.inj h_cons).1 h_sign
    · unfold isUnsigned
      split
      · rename_i h_cons
        exact absurd (List.cons.inj h_cons).1 h_c
      · rw [h_span]
        rfl

end Encoding.Reader
