import BrowserControl.Encoding.Bytes
import BrowserControl.Encoding.Scanner

/-!
# Values in a stream

`readValue` cuts the first value off a stream of bytes, and `decodeAll` all of them. The scanner
that finds the end of a value looks at bytes, where the reader looks at the characters that the
bytes stand for: `Spells` is how a text is read from its bytes, and a character that has more than
one of them is either inside a string or an error for both.

So a text that can be read is cut off where it ends, whatever comes after its line break
(`decode_line`), and texts that are written one after the other come out of the stream as they
went in (`decodeAll_lines`). No text can make what follows it part of itself, or leave something
of itself to be read as another one.
-/

namespace Encoding.Scanner

open Reader (isSpace)

/-! ### The decoder -/

/-- A byte as a character. -/
def ofByte (b : UInt8) : Char := Char.ofNat b.toNat

/-- How a stream ends for its reader. -/
inductive ReadError where
  | eof
  | unexpectedEOF
  | syntaxError
  deriving DecidableEq

/-- A byte in front of a value, or of nothing but white space. -/
def prepend (b : UInt8) :
    Except ReadError (List UInt8 × List UInt8) → Except ReadError (List UInt8 × List UInt8)
  | .ok (value, rest) => .ok (b :: value, rest)
  | .error .eof => .error (if isSpace (ofByte b) then .eof else .unexpectedEOF)
  | .error e => .error e

/-- The bytes up to the end of the first value, and what comes after them. -/
def readValue (limit : ℕ) : State → List UInt8 → Except ReadError (List UInt8 × List UInt8)
  | s, [] =>
    match step limit s ' ' with
    | .ended => .ok ([], [])
    | _ => .error .eof
  | s, b :: bytes =>
    match step limit s (ofByte b) with
    | .ended => .ok ([], b :: bytes)
    | .close s =>
      if s.parseState = [] then .ok ([b], bytes) else prepend b (readValue limit s bytes)
    | .more s => prepend b (readValue limit s bytes)
    | .error => .error .syntaxError

/-- The next value of a stream, without the white space in front of it. -/
def decode (limit : ℕ) (stream : List UInt8) : Except ReadError (List UInt8 × List UInt8) :=
  (readValue limit .reset stream).map fun read =>
    (read.1.dropWhile fun b => isSpace (ofByte b), read.2)

/-- A value and what comes after it are the stream. -/
theorem append_of_readValue {limit : ℕ} {s : State} {stream value rest : List UInt8}
    (h : readValue limit s stream = .ok (value, rest)) : value ++ rest = stream := by
  induction stream generalizing s value with
  | nil =>
    rw [readValue] at h
    split at h <;> cases h
    rfl
  | cons b bytes ih =>
    -- one byte more in the value and in the stream
    have h_prepend : ∀ s, prepend b (readValue limit s bytes) = .ok (value, rest) →
        value ++ rest = b :: bytes := by
      intro s h
      cases h_read : readValue limit s bytes with
      | error e =>
        rw [h_read] at h
        cases e <;> cases h
      | ok read =>
        obtain ⟨value', rest'⟩ := read
        rw [h_read] at h
        cases h
        rw [List.cons_append, ih h_read]
    rw [readValue] at h
    split at h
    case h_1 => cases h; rfl
    case h_2 s' _ =>
      split_ifs at h with h_empty
      · cases h; rfl
      · exact h_prepend _ h
    case h_3 => exact h_prepend _ h
    case h_4 => cases h

/-- A value that begins has not ended. -/
theorem beginValue_ne_ended (limit : ℕ) (s : State) (c : Char) : beginValue limit s c ≠ .ended := by
  unfold beginValue pushParseState
  split_ifs <;> try simp
  split <;> simp

/-- What is left after a value is shorter. -/
theorem length_of_decode {limit : ℕ} {stream raw rest : List UInt8}
    (h : decode limit stream = .ok (raw, rest)) : rest.length < stream.length := by
  obtain ⟨value, h_value⟩ : ∃ value, readValue limit .reset stream = .ok (value, rest) := by
    unfold decode at h
    cases h_read : readValue limit .reset stream with
    | error e => rw [h_read] at h; cases h
    | ok read =>
      rw [h_read] at h
      cases h
      exact ⟨_, rfl⟩
  -- the value was cut off the stream, so it is enough that it is not empty
  have h_append := congrArg List.length (append_of_readValue h_value)
  rw [List.length_append] at h_append
  suffices h_ne : value ≠ [] by
    have h_pos := List.length_pos_iff.mpr h_ne
    omega
  rintro rfl
  -- a new scanner does not find that the value is over
  cases stream with
  | nil => cases h_value
  | cons b bytes =>
    have h_step : step limit .reset (ofByte b) = beginValue limit .reset (ofByte b) := rfl
    have h_over := beginValue_ne_ended limit .reset (ofByte b)
    rw [readValue, h_step] at h_value
    have h_prepend : ∀ s, prepend b (readValue limit s bytes) ≠ .ok ([], rest) := by
      intro s h
      cases h_read : readValue limit s bytes with
      | error e =>
        rw [h_read] at h
        cases e <;> cases h
      | ok read => rw [h_read] at h; cases h
    split at h_value
    case h_1 h_eq => exact h_over h_eq
    case h_2 =>
      split_ifs at h_value
      · cases h_value
      · exact h_prepend _ h_value
    case h_3 => exact h_prepend _ h_value
    case h_4 => cases h_value

/-- Values are read until there is an error. -/
def decodeAll (limit : ℕ) (stream : List UInt8) : List (List UInt8) × ReadError :=
  match h : decode limit stream with
  | .error e => ([], e)
  | .ok (raw, rest) =>
    have := length_of_decode h
    (raw :: (decodeAll limit rest).1, (decodeAll limit rest).2)
termination_by stream.length

/-- The first error ends the stream. -/
theorem decodeAll_of_error {limit : ℕ} {stream : List UInt8} {e : ReadError}
    (h : decode limit stream = .error e) : decodeAll limit stream = ([], e) := by
  rw [decodeAll]
  split
  case h_1 e' h' =>
    rw [h] at h'
    cases h'
    rfl
  case h_2 h' =>
    rw [h] at h'
    cases h'

/-- A value is followed by the others. -/
theorem decodeAll_of_ok {limit : ℕ} {stream raw rest : List UInt8}
    (h : decode limit stream = .ok (raw, rest)) :
    decodeAll limit stream = (raw :: (decodeAll limit rest).1, (decodeAll limit rest).2) := by
  rw [decodeAll]
  split
  case h_1 h' =>
    rw [h] at h'
    cases h'
  case h_2 raw' rest' h' =>
    rw [h] at h'
    cases h'
    rfl

/-! ### Bytes and characters -/

/-- A byte of a character is the character, or neither is one of the first 128. -/
theorem mem_utf8EncodeChar {c : Char} {b : UInt8} (h : b ∈ String.utf8EncodeChar c) :
    b.toNat = c.toNat ∧ c.toNat < 128 ∨ 128 ≤ b.toNat ∧ 128 ≤ c.toNat := by
  have h_c : c.toNat = c.val.toNat := rfl
  unfold String.utf8EncodeChar at h
  dsimp only at h
  -- By the number of bytes: one byte is the character itself, more have the high bit set.
  split_ifs at h with h_one h_two h_three
  · obtain rfl := List.eq_of_mem_singleton h
    refine .inl ⟨?_, by omega⟩
    rw [UInt8.toNat_ofNat']
    omega
  all_goals
    simp only [List.mem_cons, List.not_mem_nil, or_false] at h
    refine .inr ⟨?_, by omega⟩
  · rcases h with rfl | rfl <;> rw [UInt8.toNat_ofNat'] <;> omega
  · rcases h with rfl | rfl | rfl <;> rw [UInt8.toNat_ofNat'] <;> omega
  · rcases h with rfl | rfl | rfl | rfl <;> rw [UInt8.toNat_ofNat'] <;> omega

/-- How the bytes of a text stand for its characters. -/
inductive Spells : List UInt8 → List Char → Prop where
  | nil : Spells [] []
  | ascii (b : UInt8) {bytes : List UInt8} {cs : List Char} (h : b.toNat < 128)
    (h_rest : Spells bytes cs) : Spells (b :: bytes) (ofByte b :: cs)
  /-- A character that the bytes spell, or the one that replaces a byte. -/
  | wide {c : Char} {b : UInt8} {skipped bytes : List UInt8} {cs : List Char} (h_c : 128 ≤ c.toNat)
    (h : ∀ b' ∈ b :: skipped, 128 ≤ b'.toNat) (h_rest : Spells bytes cs) :
    Spells (b :: skipped ++ bytes) (c :: cs)

/-- The first character is read back. -/
theorem decodeUtf8_utf8EncodeChar (c : Char) (bytes : List UInt8) :
    decodeUtf8 (String.utf8EncodeChar c ++ bytes) = c :: decodeUtf8 bytes := by
  have h_first := firstChar_utf8EncodeChar c bytes
  cases h_char : String.utf8EncodeChar c with
  | nil => exact absurd h_char String.utf8EncodeChar_ne_nil
  | cons b skipped =>
    have h_skip : c.utf8Size - 1 = skipped.length := by
      rw [← String.length_utf8EncodeChar c, h_char, List.length_cons, Nat.add_sub_cancel]
    rw [h_char, List.cons_append] at h_first
    rw [List.cons_append, decodeUtf8, decodeFrom, h_first]
    show c :: decodeFrom (c.utf8Size - 1) _ = _
    rw [h_skip, decodeFrom_append]
    rfl

/-- The bytes that the first character is read from. -/
theorem of_firstChar {c : Char} {bytes : List UInt8} (h : firstChar bytes = some c) :
    ∃ rest, bytes = String.utf8EncodeChar c ++ rest := by
  obtain ⟨l, h_l⟩ := ByteArray.exists_of_utf8DecodeChar?_eq_some h
  refine ⟨l.data.toList ++ bytes.drop 4, ?_⟩
  have h_list := congrArg (fun a : ByteArray => a.data.toList) h_l
  simp only [List.data_toByteArray, ByteArray.data_append, Array.toList_append] at h_list
  rw [← List.append_assoc, ← h_list, List.take_append_drop]

/-- A byte stands for the character of its number. -/
theorem toNat_ofByte (b : UInt8) : (ofByte b).toNat = b.toNat := by
  have h_valid : b.toNat.isValidChar := .inl (b.toNat_lt.trans (by decide))
  rw [ofByte, Char.ofNat, dif_pos h_valid]
  rfl

/-- A byte below 128 is read as a character. -/
theorem utf8EncodeChar_ofByte {b : UInt8} (h : b.toNat < 128) :
    String.utf8EncodeChar (ofByte b) = [b] := by
  have h_val : (ofByte b).val.toNat = b.toNat := toNat_ofByte b
  unfold String.utf8EncodeChar
  dsimp only
  rw [h_val, if_pos (by omega), UInt8.ofNat_toNat]

/-- A character below 128 is its own byte. -/
theorem utf8EncodeChar_ascii {c : Char} (h : c.toNat < 128) :
    ∃ b, String.utf8EncodeChar c = [b] ∧ ofByte b = c := by
  have h_c : c.val.toNat = c.toNat := rfl
  refine ⟨UInt8.ofNat c.toNat, ?_, ?_⟩
  · unfold String.utf8EncodeChar
    dsimp only
    rw [h_c, if_pos (by omega)]
  · rw [ofByte, UInt8.toNat_ofNat', Nat.mod_eq_of_lt (by omega), Char.ofNat_toNat]

/-- The bytes of a text spell the characters it is read as. -/
theorem spells_decodeUtf8 (bytes : List UInt8) : Spells bytes (decodeUtf8 bytes) := by
  induction h_length : bytes.length using Nat.strong_induction_on generalizing bytes with
  | _ n ih =>
    cases bytes with
    | nil => exact .nil
    | cons b rest =>
      cases h_first : firstChar (b :: rest) with
      | none =>
        -- a byte that starts no character is no character of its own either
        have h_wide : 128 ≤ b.toNat := by
          by_contra h_small
          have h_some := firstChar_utf8EncodeChar (ofByte b) rest
          rw [utf8EncodeChar_ofByte (by omega), List.singleton_append, h_first] at h_some
          cases h_some
        have h_eq : decodeUtf8 (b :: rest) = '\uFFFD' :: decodeUtf8 rest := by
          rw [decodeUtf8, decodeFrom, h_first]
          rfl
        rw [h_eq]
        have h_rest : Spells rest (decodeUtf8 rest) := by
          refine ih _ ?_ rest rfl
          rw [← h_length, List.length_cons]
          omega
        have h_spells : Spells (b :: [] ++ rest) ('\uFFFD' :: decodeUtf8 rest) := by
          refine .wide (by decide) ?_ h_rest
          rintro b' (_ | ⟨_, ⟨⟩⟩)
          exact h_wide
        exact h_spells
      | some c =>
        obtain ⟨rest', h_bytes⟩ := of_firstChar h_first
        rw [h_bytes, decodeUtf8_utf8EncodeChar]
        have h_pos := List.length_pos_iff.mpr (String.utf8EncodeChar_ne_nil (c := c))
        have h_rest : Spells rest' (decodeUtf8 rest') := by
          refine ih _ ?_ rest' rfl
          rw [← h_length, h_bytes, List.length_append]
          omega
        by_cases h_c : c.toNat < 128
        · obtain ⟨b', h_char, rfl⟩ := utf8EncodeChar_ascii h_c
          rw [h_char]
          rw [toNat_ofByte] at h_c
          exact .ascii b' h_c h_rest
        · cases h_char : String.utf8EncodeChar c with
          | nil => exact absurd h_char String.utf8EncodeChar_ne_nil
          | cons b' skipped =>
            refine .wide (by omega) (fun b'' h_mem => ?_) h_rest
            rw [← h_char] at h_mem
            rcases mem_utf8EncodeChar h_mem with ⟨-, h_small⟩ | ⟨h_wide, -⟩
            · exact absurd h_small h_c
            · exact h_wide

/-! ### A text is cut off where it ends -/

/-- White space at the end of a text. -/
theorem isSpace_of_spells {bytes : List UInt8} {cs : List Char} (h : Spells bytes cs)
    (h_cs : ∀ c ∈ cs, isSpace c = true) : ∀ b ∈ bytes, isSpace (ofByte b) = true := by
  induction h with
  | nil => rintro _ ⟨⟩
  | ascii b h_b h_rest ih =>
    obtain ⟨h_space, h_cs⟩ := List.forall_mem_cons.mp h_cs
    exact List.forall_mem_cons.mpr ⟨h_space, ih h_cs⟩
  | wide h_c h_bytes h_rest ih =>
    have h_space := h_cs _ List.mem_cons_self
    rw [not_isSpace_of_wide h_c] at h_space
    cases h_space

/-- Bytes of wide characters in a string. -/
theorem readValue_wide {limit : ℕ} {parseState : List ParseState}
    {wide stream value rest : List UInt8} (h_wide : ∀ b ∈ wide, 128 ≤ b.toNat)
    (h : readValue limit ⟨.inString, parseState⟩ stream = .ok (value, rest)) :
    readValue limit ⟨.inString, parseState⟩ (wide ++ stream) = .ok (wide ++ value, rest) := by
  induction wide with
  | nil => exact h
  | cons b wide ih =>
    obtain ⟨h_b, h_wide⟩ := List.forall_mem_cons.mp h_wide
    rw [← toNat_ofByte b] at h_b
    have h_step : step limit ⟨.inString, parseState⟩ (ofByte b) = .more ⟨.inString, parseState⟩ :=
      inString_of_wide h_b _
    rw [List.cons_append, readValue, h_step]
    dsimp only
    rw [ih h_wide]
    rfl

/-- The line break that ends a text. -/
def newline : UInt8 := 10

/-- A value that is complete where the text ends. -/
theorem readValue_newline {limit : ℕ} {r : Reader.State} {s : State} (h_sim : Sim r s)
    (h_finish : (Reader.finish r).isSome) (rest : List UInt8) :
    readValue limit s (newline :: rest) = .ok ([], newline :: rest) := by
  -- a newline ends a number, and a value that is complete
  have h_over : step limit s (ofByte newline) = .ended := by
    cases h_sim with
    | put v stack =>
      cases stack with
      | nil => rfl
      | cons frame stack => cases frame <;> cases h_finish
    | number h_of stack =>
      rename_i literal n
      change ((Reader.putNumber literal stack).bind _).isSome at h_finish
      unfold Reader.putNumber at h_finish
      split_ifs at h_finish with h_chars h_literal
      · obtain ⟨m, h_m, h_final⟩ := numeric_of_isNumberLiteral h_literal
        obtain rfl : n = m := Option.some.inj (h_of.symm.trans h_m)
        have h_next : n.next '\n' = none := by cases n <;> rfl
        cases stack with
        | nil => exact (step_numeric_none limit [] h_next).trans (if_pos h_final)
        | cons frame stack => cases frame <;> cases h_finish
      · cases h_finish
      · cases h_finish
    | _ => cases h_finish
  rw [readValue, h_over]

theorem of_isSome_result_cons {limit : ℕ} {r : Reader.State} {c : Char} {cs : List Char}
    (h : (Reader.result limit r (c :: cs)).isSome) :
    ∃ r', Reader.step limit r c = some r' ∧ (Reader.result limit r' cs).isSome := by
  rw [Reader.result_cons] at h
  cases h_step : Reader.step limit r c with
  | none =>
    rw [h_step] at h
    cases h
  | some r' =>
    rw [h_step] at h
    exact ⟨r', rfl, h⟩

/-- The value at the start of a stream that goes on with a text, if the reader can read the text. -/
theorem readValue_of_spells {limit : ℕ} {bytes : List UInt8} {cs : List Char} (h : Spells bytes cs)
    {r : Reader.State} {s : State} (h_sim : Sim r s) (h_result : (Reader.result limit r cs).isSome)
    (rest : List UInt8) :
    ∃ value spaces, bytes = value ++ spaces ∧ (∀ b ∈ spaces, isSpace (ofByte b) = true) ∧
      readValue limit s (bytes ++ newline :: rest) = .ok (value, spaces ++ newline :: rest) := by
  induction h generalizing r s with
  | nil => exact ⟨[], [], rfl, by rintro _ ⟨⟩, readValue_newline h_sim h_result rest⟩
  | ascii b h_b h_rest ih =>
    rename_i bytes cs
    obtain ⟨r', h_step, h_result⟩ := of_isSome_result_cons h_result
    have h_follows := follows h_sim h_step
    rw [List.cons_append, readValue]
    -- what the scanner goes on with, it reads in the rest
    have h_more : ∀ {s'}, Sim r' s' → ∃ value spaces, b :: bytes = value ++ spaces ∧
        (∀ b ∈ spaces, isSpace (ofByte b) = true) ∧
        prepend b (readValue limit s' (bytes ++ newline :: rest)) =
          .ok (value, spaces ++ newline :: rest) := by
      intro s' h_sim'
      obtain ⟨value, spaces, rfl, h_spaces, h_read⟩ := ih h_sim' h_result
      refine ⟨b :: value, spaces, rfl, h_spaces, ?_⟩
      rw [h_read]
      rfl
    generalize step limit s (ofByte b) = op at h_follows ⊢
    cases h_follows with
    | more h_sim' => exact h_more h_sim'
    | close h_sim' h_open =>
      dsimp only
      rw [if_neg h_open]
      exact h_more h_sim'
    | closed v h_eq h_empty =>
      rw [h_eq] at h_result
      refine ⟨[b], bytes, rfl, isSpace_of_spells h_rest (isSpace_of_result_put h_result), ?_⟩
      dsimp only
      rw [if_pos h_empty]
    | ended v h_eq h_space =>
      rw [h_eq] at h_result
      refine ⟨[], b :: bytes, rfl, List.forall_mem_cons.mpr ⟨h_space, ?_⟩, rfl⟩
      exact isSpace_of_spells h_rest (isSpace_of_result_put h_result)
    | doomed h_eq h_ne h_none h_char =>
      rw [h_eq, result_doomed h_ne h_none] at h_result
      cases h_result
  | wide h_c h_bytes h_rest ih =>
    rename_i c b skipped bytes cs
    obtain ⟨r', h_step, h_result⟩ := of_isSome_result_cons h_result
    -- the scanner is in a string, and stays where it is
    have h_follows := follows h_sim h_step
    have h_char := not_isNumberChar_of_wide h_c
    obtain ⟨parseState, rfl, h_op⟩ : ∃ parseState, s = ⟨.inString, parseState⟩ ∧
        step limit s c = .more s := by
      rcases step_of_wide h_c limit h_sim.small with h_string | h_over | h_error
      · exact h_string
      · rw [h_over] at h_follows
        cases h_follows with
        | ended v h_eq h_space =>
          rw [not_isSpace_of_wide h_c] at h_space
          cases h_space
        | doomed _ _ _ h_number => exact absurd h_number h_char
      · rw [h_error] at h_follows
        cases h_follows with
        | doomed _ _ _ h_number => exact absurd h_number h_char
    rw [h_op] at h_follows
    have h_sim' : Sim r' ⟨.inString, parseState⟩ := by
      cases h_follows with
      | more h_sim' => exact h_sim'
      | doomed _ _ _ h_number => exact absurd h_number h_char
    obtain ⟨value, spaces, rfl, h_spaces, h_read⟩ := ih h_sim' h_result
    refine ⟨b :: skipped ++ value, spaces, (List.append_assoc ..).symm, h_spaces, ?_⟩
    rw [List.append_assoc]
    exact readValue_wide h_bytes h_read

/-- White space in front of a value is not looked at. -/
theorem decode_cons_of_isSpace {limit : ℕ} {b : UInt8} (h : isSpace (ofByte b) = true)
    (stream : List UInt8) : decode limit (b :: stream) = decode limit stream := by
  have h_step : step limit .reset (ofByte b) = .more .reset := if_pos h
  unfold decode
  rw [readValue, h_step]
  dsimp only
  cases readValue limit .reset stream with
  | error e =>
    cases e with
    | eof => exact congrArg Except.error (if_pos h)
    | unexpectedEOF => rfl
    | syntaxError => rfl
  | ok read =>
    -- The blank belongs to what is skipped before the value.
    have h_drop : (b :: read.1).dropWhile (fun b => isSpace (ofByte b)) =
        read.1.dropWhile fun b => isSpace (ofByte b) :=
      List.dropWhile_cons_of_pos (p := fun b => isSpace (ofByte b)) h
    exact congrArg (fun raw => Except.ok (raw, read.2)) h_drop

/-- A space before a value is skipped. -/
theorem decodeAll_cons_of_isSpace {limit : ℕ} {b : UInt8} (h : isSpace (ofByte b) = true)
    (stream : List UInt8) : decodeAll limit (b :: stream) = decodeAll limit stream := by
  have h_decode := @decode_cons_of_isSpace limit b h stream
  cases h_stream : decode limit stream with
  | error e =>
    rw [decodeAll_of_error h_stream, decodeAll_of_error (h_decode.trans h_stream)]
  | ok read => rw [decodeAll_of_ok h_stream, decodeAll_of_ok (h_decode.trans h_stream)]

/-- Spaces before a value are skipped. -/
theorem decodeAll_append_of_isSpace {limit : ℕ} {spaces : List UInt8}
    (h : ∀ b ∈ spaces, isSpace (ofByte b) = true) (stream : List UInt8) :
    decodeAll limit (spaces ++ stream) = decodeAll limit stream := by
  induction spaces with
  | nil => rfl
  | cons b spaces ih =>
    obtain ⟨h_b, h⟩ := List.forall_mem_cons.mp h
    rw [List.cons_append, decodeAll_cons_of_isSpace h_b, ih h]

/-- What is decoded is the text, without white space around it. -/
def Padded (text raw : List UInt8) : Prop :=
  ∃ before after, text = before ++ (raw ++ after) ∧
    (∀ b ∈ before, isSpace (ofByte b) = true) ∧ ∀ b ∈ after, isSpace (ofByte b) = true

/-- The first value of a stream that starts with the line of a text. -/
theorem decode_line {limit : ℕ} {text : List UInt8}
    (h : (Reader.read limit (decodeUtf8 text)).isSome) (rest : List UInt8) :
    ∃ raw spaces, Padded text raw ∧ (∀ b ∈ spaces, isSpace (ofByte b) = true) ∧
      decode limit (text ++ newline :: rest) = .ok (raw, spaces ++ newline :: rest) := by
  obtain ⟨value, spaces, rfl, h_spaces, h_read⟩ :=
    readValue_of_spells (spells_decodeUtf8 text) (Sim.value []) h rest
  -- The blanks before the value are dropped, those after it stay in the rest.
  refine ⟨value.dropWhile fun b => isSpace (ofByte b), spaces, ?_, h_spaces, ?_⟩
  · refine ⟨value.takeWhile fun b => isSpace (ofByte b), spaces, ?_, ?_, h_spaces⟩
    · rw [← List.append_assoc, List.takeWhile_append_dropWhile]
    · exact fun b h_b => List.mem_takeWhile_imp (p := fun b => isSpace (ofByte b)) h_b
  · have h_decode : decode limit (value ++ spaces ++ newline :: rest) =
        (readValue limit .reset (value ++ spaces ++ newline :: rest)).map fun read =>
          (read.1.dropWhile fun b => isSpace (ofByte b), read.2) := rfl
    have h_reset : readValue limit .reset (value ++ spaces ++ newline :: rest) =
        .ok (value, spaces ++ newline :: rest) := h_read
    rw [h_decode, h_reset]
    rfl

/-- The stream that texts are written to. -/
def lines (texts : List (List UInt8)) : List UInt8 := texts.flatMap (· ++ [newline])

theorem lines_cons (text : List UInt8) (texts : List (List UInt8)) :
    lines (text :: texts) = text ++ newline :: lines texts := by
  simp [lines]

/-- **Texts in a stream.** Texts that can be read are decoded from the stream they are written to:
each of them once, in their order, and nothing else. -/
theorem decodeAll_lines {limit : ℕ} {texts : List (List UInt8)}
    (h : ∀ text ∈ texts, (Reader.read limit (decodeUtf8 text)).isSome) :
    ∃ raws, decodeAll limit (lines texts) = (raws, .eof) ∧ List.Forall₂ Padded texts raws := by
  induction texts with
  | nil => exact ⟨[], decodeAll_of_error rfl, .nil⟩
  | cons text texts ih =>
    obtain ⟨h_text, h⟩ := List.forall_mem_cons.mp h
    obtain ⟨raws, h_raws, h_padded⟩ := ih h
    obtain ⟨raw, spaces, h_raw, h_spaces, h_decode⟩ := decode_line h_text (lines texts)
    refine ⟨raw :: raws, ?_, .cons h_raw h_padded⟩
    have h_newline : isSpace (ofByte newline) = true := by decide
    rw [lines_cons, decodeAll_of_ok h_decode, decodeAll_append_of_isSpace h_spaces,
      decodeAll_cons_of_isSpace h_newline, h_raws]

/-- There is no white space around the text. -/
structure Tight (text : List UInt8) : Prop where
  head : ∀ b ∈ text.head?, isSpace (ofByte b) = false
  last : ∀ b ∈ text.getLast?, isSpace (ofByte b) = false

/-- A text without white space around it is not padded. -/
theorem eq_of_padded {text raw : List UInt8} (h : Padded text raw) (h_tight : Tight text) :
    raw = text := by
  obtain ⟨before, after, rfl, h_before, h_after⟩ := h
  -- A tight text neither begins nor ends with a blank.
  have h_nil : before = [] := by
    cases before with
    | nil => rfl
    | cons b before =>
      have h_head := h_tight.head b rfl
      rw [h_before b List.mem_cons_self] at h_head
      cases h_head
  subst h_nil
  rcases List.eq_nil_or_concat after with rfl | ⟨after, b, rfl⟩
  · rw [List.nil_append, List.append_nil]
  · have h_last := h_tight.last b (by simp)
    rw [h_after b (by simp)] at h_last
    cases h_last

/-- Texts without white space around them come out of the stream as they are. -/
theorem decodeAll_lines_of_tight {limit : ℕ} {texts : List (List UInt8)}
    (h : ∀ text ∈ texts, (Reader.read limit (decodeUtf8 text)).isSome)
    (h_tight : ∀ text ∈ texts, Tight text) : decodeAll limit (lines texts) = (texts, .eof) := by
  obtain ⟨raws, h_raws, h_padded⟩ := decodeAll_lines h
  suffices h_eq : raws = texts by rw [h_raws, h_eq]
  clear h_raws h
  induction h_padded with
  | nil => rfl
  | cons h_raw _ ih =>
    obtain ⟨h_text, h_texts⟩ := List.forall_mem_cons.mp h_tight
    rw [eq_of_padded h_raw h_text, ih h_texts]

/-! ### A stream that is cut -/

/-- Bytes that are not there yet do not change what an error is about. -/
theorem readValue_append_of_syntaxError {limit : ℕ} {s : State} {stream : List UInt8}
    (h : readValue limit s stream = .error .syntaxError) (more : List UInt8) :
    readValue limit s (stream ++ more) = .error .syntaxError := by
  induction stream generalizing s with
  | nil =>
    rw [readValue] at h
    split at h <;> cases h
  | cons b bytes ih =>
    have h_prepend : ∀ s, prepend b (readValue limit s bytes) = .error .syntaxError →
        prepend b (readValue limit s (bytes ++ more)) = .error .syntaxError := by
      intro s h
      suffices h_read : readValue limit s bytes = .error .syntaxError by rw [ih h_read]; rfl
      cases h_read : readValue limit s bytes with
      | error e =>
        rw [h_read] at h
        cases e with
        | eof =>
          change Except.error (if isSpace (ofByte b) then _ else _) = _ at h
          split_ifs at h <;> cases h
        | unexpectedEOF => cases h
        | syntaxError => rfl
      | ok read =>
        rw [h_read] at h
        cases h
    rw [List.cons_append, readValue]
    rw [readValue] at h
    -- the error comes at the same byte
    cases h_op : step limit s (ofByte b) with
    | ended =>
      rw [h_op] at h
      cases h
    | close s' =>
      rw [h_op] at h
      dsimp only at h ⊢
      split_ifs at h ⊢
      exact h_prepend s' h
    | more s' =>
      rw [h_op] at h
      exact h_prepend s' h
    | error => rfl

/-- Something is open. -/
structure Inside (s : State) : Prop where
  not_top : s.step ≠ .endTop
  opened : s.parseState ≠ []

/-- What is open stays open until it is closed. -/
inductive Stays : Op → Prop where
  | more {s : State} (h : Inside s) : Stays (.more s)
  | close {s : State} (h : s.parseState = [] ∨ Inside s) : Stays (.close s)
  | error : Stays .error

/-- Something begins. -/
theorem stays_pushParseState {limit : ℕ} {s : State} (p : ParseState) {next : Step}
    (h_next : next ≠ .endTop) : Stays (pushParseState limit s p next) := by
  unfold pushParseState
  split_ifs
  · exact .more ⟨h_next, by rintro ⟨⟩⟩
  · exact .error

/-- Something ends. -/
theorem stays_popParseState (rest : List ParseState) : Stays (popParseState rest) := by
  cases rest with
  | nil => exact .close (.inl rfl)
  | cons p rest => exact .close (.inr ⟨by rintro ⟨⟩, by rintro ⟨⟩⟩)

/-- What the scanner is within goes on, or ends. -/
theorem stays_endValue {s : State} (h : s.parseState ≠ []) (c : Char) : Stays (endValue s c) := by
  unfold endValue
  split
  case h_1 h_nil => exact absurd h_nil h
  -- inside an array or object the scanner only goes back to it
  case h_2 p rest h_cons =>
    by_cases h_space : isSpace c
    · rw [if_pos h_space]
      exact .more ⟨by rintro ⟨⟩, by rintro ⟨⟩⟩
    · rw [if_neg h_space]
      cases p with
      | objectKey =>
        dsimp only
        split_ifs
        · exact .more ⟨by rintro ⟨⟩, by rintro ⟨⟩⟩
        · exact .error
      | objectValue =>
        dsimp only
        split_ifs
        · exact .more ⟨by rintro ⟨⟩, by rintro ⟨⟩⟩
        · exact stays_popParseState rest
        · exact .error
      | arrayValue =>
        dsimp only
        split_ifs
        · exact .more ⟨by rintro ⟨⟩, by rintro ⟨⟩⟩
        · exact stays_popParseState rest
        · exact .error

/-- A value begins. -/
theorem stays_beginValue {limit : ℕ} {s : State} (h : Inside s) (c : Char) :
    Stays (beginValue limit s c) := by
  unfold beginValue
  split_ifs
  · exact .more h
  · exact stays_pushParseState _ (by rintro ⟨⟩)
  · exact stays_pushParseState _ (by rintro ⟨⟩)
  · exact .more ⟨by rintro ⟨⟩, h.opened⟩
  · exact .more ⟨by rintro ⟨⟩, h.opened⟩
  · exact .more ⟨by rintro ⟨⟩, h.opened⟩
  · exact .more ⟨by rintro ⟨⟩, h.opened⟩
  · split
    · exact .more ⟨by rintro ⟨⟩, h.opened⟩
    · exact .error

/-- A name begins. -/
theorem stays_beginString {s : State} (h : Inside s) (c : Char) : Stays (beginString s c) := by
  unfold beginString
  split_ifs
  · exact .more h
  · exact .more ⟨by rintro ⟨⟩, h.opened⟩
  · exact .error

/-- **A step inside.** A value that has begun with an array or an object is not over before that is
closed. -/
theorem Inside.stays {limit : ℕ} {s : State} (h : Inside s) (c : Char) :
    Stays (step limit s c) := by
  obtain ⟨expected, parseState⟩ := s
  have h_open : parseState ≠ [] := h.opened
  have h_end : ∀ expected, Stays (endValue ⟨expected, parseState⟩ c) := fun _ =>
    stays_endValue h_open c
  cases expected with
  -- within an object or an array every byte leads on or is an error
  | beginValueOrEmpty =>
    rw [step]
    dsimp only
    split_ifs
    · exact .more h
    · exact h_end _
    · exact stays_beginValue h c
  | beginValue => exact stays_beginValue h c
  | beginStringOrEmpty =>
    rw [step]
    dsimp only
    split_ifs
    · exact .more h
    · exact stays_endValue (by rintro ⟨⟩) c
    · exact stays_beginString h c
  | beginString => exact stays_beginString h c
  | endValue => exact h_end _
  | endTop => exact absurd rfl h.not_top
  -- strings and their escapes
  | inString =>
    change Stays (inString _ c)
    unfold inString
    split_ifs
    · exact .more ⟨by rintro ⟨⟩, h_open⟩
    · exact .more ⟨by rintro ⟨⟩, h_open⟩
    · exact .error
    · exact .more h
  | inStringEsc =>
    rw [step]
    dsimp only
    split_ifs
    · exact .more ⟨by rintro ⟨⟩, h_open⟩
    · exact .more ⟨by rintro ⟨⟩, h_open⟩
    · exact .error
  | inStringEscU count =>
    rw [step]
    dsimp only
    split_ifs
    · exact .more ⟨by rintro ⟨⟩, h_open⟩
    · exact .more ⟨by rintro ⟨⟩, h_open⟩
    · exact .error
  -- a number goes on, or its end is that of a value
  | numeric n =>
    cases h_next : n.next c with
    | some n' =>
      rw [step_numeric_some limit _ h_next]
      exact .more ⟨by rintro ⟨⟩, h_open⟩
    | none =>
      rw [step_numeric_none limit _ h_next]
      split_ifs
      · exact h_end _
      · exact .error
  | word rest =>
    cases rest with
    | nil => exact .error
    | cons d rest =>
      rw [step]
      dsimp only
      split_ifs
      · exact .more ⟨by rintro ⟨⟩, h_open⟩
      · exact .more ⟨by rintro ⟨⟩, h_open⟩
      · exact .error

/-- A value that is complete is so whatever comes after it. -/
theorem Inside.readValue_append {limit : ℕ} {s : State} {stream value rest : List UInt8}
    (h : Inside s) (h_read : readValue limit s stream = .ok (value, rest)) (more : List UInt8) :
    readValue limit s (stream ++ more) = .ok (value, rest ++ more) := by
  induction stream generalizing s value with
  | nil =>
    have h_stays := @Inside.stays limit s h ' '
    rw [readValue] at h_read
    split at h_read
    case h_1 h_over =>
      rw [h_over] at h_stays
      cases h_stays
    case h_2 => cases h_read
  | cons b bytes ih =>
    have h_stays := @Inside.stays limit s h (ofByte b)
    have h_prepend : ∀ {s}, Inside s → prepend b (readValue limit s bytes) = .ok (value, rest) →
        prepend b (readValue limit s (bytes ++ more)) = .ok (value, rest ++ more) := by
      intro s h h_read
      cases h_bytes : readValue limit s bytes with
      | error e =>
        rw [h_bytes] at h_read
        cases e <;> cases h_read
      | ok read =>
        obtain ⟨value', rest'⟩ := read
        rw [h_bytes] at h_read
        cases h_read
        rw [ih h h_bytes]
        rfl
    rw [readValue] at h_read
    rw [List.cons_append, readValue]
    generalize step limit s (ofByte b) = op at h_stays h_read ⊢
    -- the value ends within the first stream, so nothing of the second is read
    cases h_stays with
    | more h' => exact h_prepend h' h_read
    | close h' =>
      dsimp only at h_read ⊢
      split_ifs at h_read ⊢ with h_empty
      · cases h_read
        rfl
      · exact h_prepend (h'.resolve_left h_empty) h_read
    | error => cases h_read

/-- The byte that opens an object. -/
def brace : UInt8 := 123

/-- An object begins with a brace. -/
theorem readValue_brace {limit : ℕ} (bytes : List UInt8) :
    readValue limit .reset (brace :: bytes) =
      if 0 < limit then prepend brace (readValue limit ⟨.beginStringOrEmpty, [.objectKey]⟩ bytes)
      else .error .syntaxError := by
  have h_step : step limit .reset (ofByte brace) =
      if 0 < limit then .more ⟨.beginStringOrEmpty, [.objectKey]⟩ else .error := rfl
  rw [readValue, h_step]
  by_cases h : 0 < limit
  · rw [if_pos h, if_pos h]
  · rw [if_neg h, if_neg h]

/-- An object that is complete is decoded whatever comes after it. -/
theorem decode_append {limit : ℕ} {bytes raw rest : List UInt8}
    (h : decode limit (brace :: bytes) = .ok (raw, rest)) (more : List UInt8) :
    decode limit (brace :: bytes ++ more) = .ok (raw, rest ++ more) := by
  unfold decode at h ⊢
  rw [List.cons_append, readValue_brace]
  rw [readValue_brace] at h
  split_ifs at h ⊢ with h_limit
  case neg => cases h
  -- Inside the braces the scanner cannot end before the closing one.
  have h_inside : Inside ⟨.beginStringOrEmpty, [.objectKey]⟩ := ⟨by rintro ⟨⟩, by rintro ⟨⟩⟩
  cases h_read : readValue limit ⟨.beginStringOrEmpty, [.objectKey]⟩ bytes with
  | error e =>
    rw [h_read] at h
    cases e <;> cases h
  | ok read =>
    rw [h_read] at h
    cases h
    rw [h_inside.readValue_append h_read]
    rfl

/-- What is decoded of an object whose line is not all there. -/
theorem decodeAll_of_prefix {limit : ℕ} {text cut : List UInt8}
    (h : (Reader.read limit (decodeUtf8 text)).isSome) (h_brace : text.head? = some brace)
    (h_cut : cut <+: text ++ [newline]) :
    ∃ raws e, decodeAll limit cut = (raws, e) ∧ e ≠ .syntaxError ∧
      (raws = [] ∨ ∃ raw, raws = [raw] ∧ Padded text raw) := by
  obtain ⟨more, h_more⟩ := h_cut
  -- what the whole line decodes to
  obtain ⟨raw, spaces, h_raw, h_spaces, h_decode⟩ := decode_line h []
  rw [← h_more] at h_decode
  cases cut with
  | nil => exact ⟨[], .eof, decodeAll_of_error rfl, by decide, .inl rfl⟩
  | cons b bytes =>
    obtain rfl : b = brace := by
      cases text with
      | nil => cases h_brace
      | cons b' text =>
        cases h_brace
        exact (List.cons.inj h_more).1
    cases h_cut : decode limit (brace :: bytes) with
    | error e =>
      refine ⟨[], e, decodeAll_of_error h_cut, ?_, .inl rfl⟩
      rintro rfl
      -- the whole line would be an error too
      have h_syntax : readValue limit .reset (brace :: bytes) = .error .syntaxError := by
        unfold decode at h_cut
        cases h_read : readValue limit .reset (brace :: bytes) with
        | error e =>
          rw [h_read] at h_cut
          cases h_cut
          rfl
        | ok read =>
          rw [h_read] at h_cut
          cases h_cut
      unfold decode at h_decode
      rw [readValue_append_of_syntaxError h_syntax] at h_decode
      cases h_decode
    | ok read =>
      obtain ⟨raw', rest⟩ := read
      have h_whole := (decode_append h_cut more).symm.trans h_decode
      obtain ⟨rfl, h_rest⟩ := Prod.mk.inj (Except.ok.inj h_whole)
      have h_left : ∀ b ∈ rest, isSpace (ofByte b) = true := by
        intro b h_b
        have h_mem : b ∈ spaces ++ [newline] := h_rest ▸ List.mem_append_left more h_b
        rcases List.mem_append.mp h_mem with h_b | h_b
        · exact h_spaces b h_b
        · rw [List.eq_of_mem_singleton h_b]
          decide
      have h_end : decodeAll limit rest = ([], .eof) := by
        have h_nil := @decodeAll_append_of_isSpace limit rest h_left []
        rw [List.append_nil] at h_nil
        exact h_nil.trans (decodeAll_of_error rfl)
      refine ⟨[raw'], .eof, ?_, by decide, .inr ⟨raw', rfl, h_raw⟩⟩
      rw [decodeAll_of_ok h_cut, h_end]

/-- **A stream that is cut.** Of objects that are written to a stream, the first ones are decoded
from what there is of it, wherever it is cut; and what is left of one is no value, nor an error of
its syntax. -/
theorem decodeAll_of_prefix_lines {limit : ℕ} {texts : List (List UInt8)} {cut : List UInt8}
    (h : ∀ text ∈ texts, (Reader.read limit (decodeUtf8 text)).isSome)
    (h_brace : ∀ text ∈ texts, text.head? = some brace) (h_cut : cut <+: lines texts) :
    ∃ n raws e, decodeAll limit cut = (raws, e) ∧ e ≠ .syntaxError ∧
      List.Forall₂ Padded (texts.take n) raws := by
  induction texts generalizing cut with
  -- nothing was written
  | nil =>
    obtain rfl : cut = [] := List.prefix_nil.mp h_cut
    exact ⟨0, [], .eof, decodeAll_of_error rfl, by decide, .nil⟩
  | cons text texts ih =>
    obtain ⟨h_text, h⟩ := List.forall_mem_cons.mp h
    obtain ⟨h_text_brace, h_brace⟩ := List.forall_mem_cons.mp h_brace
    rw [lines_cons, ← List.singleton_append, ← List.append_assoc] at h_cut
    -- the cut is within the first line, or after it
    rcases List.prefix_or_prefix_of_prefix h_cut (List.prefix_append _ _) with h_short | h_long
    · obtain ⟨raws, e, h_all, h_e, rfl | ⟨raw, rfl, h_raw⟩⟩ :=
        decodeAll_of_prefix h_text h_text_brace h_short
      · exact ⟨0, [], e, h_all, h_e, .nil⟩
      · exact ⟨1, [raw], e, h_all, h_e, .cons h_raw .nil⟩
    · obtain ⟨cut, rfl⟩ := h_long
      rw [List.prefix_append_right_inj] at h_cut
      obtain ⟨n, raws, e, h_all, h_e, h_padded⟩ := ih h h_brace h_cut
      obtain ⟨raw, spaces, h_raw, h_spaces, h_decode⟩ := decode_line h_text cut
      have h_newline : isSpace (ofByte newline) = true := by decide
      refine ⟨n + 1, raw :: raws, e, ?_, h_e, .cons h_raw h_padded⟩
      rw [List.append_assoc, List.singleton_append, decodeAll_of_ok h_decode,
        decodeAll_append_of_isSpace h_spaces, decodeAll_cons_of_isSpace h_newline, h_all]

end Encoding.Scanner
