import BrowserControl.Encoding.Json
import Mathlib.Data.List.Basic
import Mathlib.Data.String.Basic
import Mathlib.Tactic.IntervalCases

/-!
# Bytes and text

Three ways in which bytes and characters stand for one another: UTF-8, base 64 and hexadecimal
digits. Each encoder is a function on lists, and each decoder reads back what its encoder wrote
(`decodeUtf8_encodeUtf8`, `decode_base64`, `atob_base64`). A script counts a text in the code units
of UTF-16; `sliceUnits` cuts it there.

Base 64 has two decoders. Both leave out white space; `Base64.decode` wants the padding, and
`Base64.atob` does without it.
-/

namespace Encoding

/-! ### Code units -/

/-- The first code units of a text. A character that is cut in two is shown as a replacement. -/
def sliceUnits : ℕ → List Char → List Char
  | 0, _ | _, [] => []
  | 1, c :: _ => [if c.toNat < 0x10000 then c else '\uFFFD']
  | n + 2, c :: cs => c :: if c.toNat < 0x10000 then sliceUnits (n + 1) cs else sliceUnits n cs

@[simp]
theorem sliceUnits_nil (n : ℕ) : sliceUnits n [] = [] := by
  rcases n with _ | _ | n <;> rfl

/-! ### UTF-8 -/

/-- The bytes of a text. -/
def encodeUtf8 (cs : List Char) : List UInt8 := cs.flatMap String.utf8EncodeChar

/-- The first character of some bytes. A character has at most four of them. -/
def firstChar (bytes : List UInt8) : Option Char :=
  (bytes.take 4).toByteArray.utf8DecodeChar? 0

/-- The text after the first `skip` bytes. A byte that does not start a character is replaced. -/
def decodeFrom : ℕ → List UInt8 → List Char
  | _, [] => []
  | skip + 1, _ :: bytes => decodeFrom skip bytes
  | 0, b :: bytes =>
    match firstChar (b :: bytes) with
    | some c => c :: decodeFrom (c.utf8Size - 1) bytes
    | none => '\uFFFD' :: decodeFrom 0 bytes

/-- The text of some bytes. -/
def decodeUtf8 (bytes : List UInt8) : List Char := decodeFrom 0 bytes

theorem decodeFrom_append (skipped bytes : List UInt8) :
    decodeFrom skipped.length (skipped ++ bytes) = decodeFrom 0 bytes := by
  induction skipped with
  | nil => rfl
  | cons b skipped ih => exact ih

/-- The bytes of a character are read back. -/
theorem firstChar_utf8EncodeChar (c : Char) (bytes : List UInt8) :
    firstChar (String.utf8EncodeChar c ++ bytes) = some c := by
  have h_length : (String.utf8EncodeChar c).length ≤ 4 := by
    rw [String.length_utf8EncodeChar]
    exact c.utf8Size_le_four
  rw [firstChar, List.take_append, List.take_of_length_le h_length, List.toByteArray_append]
  exact ByteArray.utf8DecodeChar?_utf8EncodeChar_append

/-- What is encoded is read back. -/
theorem decodeUtf8_encodeUtf8 (cs : List Char) : decodeUtf8 (encodeUtf8 cs) = cs := by
  induction cs with
  | nil => rfl
  | cons c cs ih =>
    -- The decoder takes exactly the bytes of the first character.
    have h_first := firstChar_utf8EncodeChar c (encodeUtf8 cs)
    rw [encodeUtf8, List.flatMap_cons, ← encodeUtf8, decodeUtf8]
    cases h_char : String.utf8EncodeChar c with
    | nil => exact absurd h_char String.utf8EncodeChar_ne_nil
    | cons b skipped =>
      have h_skip : c.utf8Size - 1 = skipped.length := by
        rw [← String.length_utf8EncodeChar c, h_char, List.length_cons, Nat.add_sub_cancel]
      rw [h_char, List.cons_append] at h_first
      rw [List.cons_append, decodeFrom, h_first]
      show c :: decodeFrom (c.utf8Size - 1) _ = _
      rw [h_skip, decodeFrom_append]
      exact congrArg (c :: ·) ih

/-- A text of characters below 128 has as many bytes. -/
theorem length_encodeUtf8 {cs : List Char} (h : ∀ c ∈ cs, c.utf8Size = 1) :
    (encodeUtf8 cs).length = cs.length := by
  induction cs with
  | nil => rfl
  | cons c cs ih =>
    rw [List.forall_mem_cons] at h
    rw [encodeUtf8, List.flatMap_cons, List.length_append, ← encodeUtf8, ih h.2,
      String.length_utf8EncodeChar, h.1, List.length_cons, Nat.add_comm]

/-! ### Hexadecimal digits -/

/-- Two digits for each byte. -/
def hex (bytes : List UInt8) : List Char :=
  bytes.flatMap fun b => [Nat.digitChar (b.toNat / 16), Nat.digitChar (b.toNat % 16)]

/-- A byte has two hexadecimal digits. -/
theorem length_hex (bytes : List UInt8) : (hex bytes).length = 2 * bytes.length := by
  induction bytes with
  | nil => rfl
  | cons b bytes ih =>
    rw [hex, List.flatMap_cons, List.length_append, ← hex, ih, List.length_cons]
    simp only [List.length_cons, List.length_nil]
    omega

/-- The hexadecimal digits. -/
def hexDigits : List Char := "0123456789abcdef".toList

/-- Hexadecimal text has hexadecimal digits only. -/
theorem mem_hexDigits {c : Char} {bytes : List UInt8} (h : c ∈ hex bytes) : c ∈ hexDigits := by
  have h_digit : ∀ n < 16, Nat.digitChar n ∈ hexDigits := by decide
  obtain ⟨b, -, h_c⟩ := List.mem_flatMap.mp h
  have h_byte : b.toNat < 256 := b.toNat_lt
  rcases List.mem_cons.mp h_c with rfl | h_c
  · exact h_digit _ (by omega)
  · rw [List.mem_singleton.mp h_c]
    exact h_digit _ (by omega)

/-! ### Base 64 -/

namespace Base64

/-- The 64 digits. -/
def alphabet : List Char :=
  "ABCDEFGHIJKLMNOPQRSTUVWXYZabcdefghijklmnopqrstuvwxyz0123456789+/".toList

/-- The digit of a number below 64. -/
def digit (n : ℕ) : Char := alphabet.getD n 'A'

/-- The number of a digit. -/
def value (c : Char) : Option ℕ := alphabet.idxOf? c

/-- A digit is read back. -/
theorem value_digit : ∀ {n : ℕ}, n < 64 → value (digit n) = some n := by decide

/-- A digit is in the alphabet. -/
theorem digit_mem : ∀ {n : ℕ}, n < 64 → digit n ∈ alphabet := by decide

/-- The digits of some bytes: four for three bytes, and two or three for one or two that are
left. -/
def digits : List UInt8 → List Char
  | [] => []
  | [a] => [digit (a.toNat / 4), digit (a.toNat % 4 * 16)]
  | [a, b] =>
    [digit (a.toNat / 4), digit (a.toNat % 4 * 16 + b.toNat / 16), digit (b.toNat % 16 * 4)]
  | a :: b :: c :: rest =>
    digit (a.toNat / 4) :: digit (a.toNat % 4 * 16 + b.toNat / 16) ::
      digit (b.toNat % 16 * 4 + c.toNat / 64) :: digit (c.toNat % 64) :: digits rest

/-- How many characters of padding stand after the digits. -/
def padding (length : ℕ) : ℕ := (3 - length % 3) % 3

/-- The text of some bytes: the digits and the padding. -/
def encode (bytes : List UInt8) : List Char :=
  digits bytes ++ List.replicate (padding bytes.length) '='

/-- The bytes of some digits. The bits that are left over are not looked at. -/
def ofDigits : List Char → Option (List UInt8)
  | [] => some []
  -- Base64 without padding: one digit alone is an error, two make a byte, three make two.
  | [_] => none
  | [p, q] => do
    let x ← value p
    let y ← value q
    pure [UInt8.ofNat (x * 4 + y / 16)]
  | [p, q, r] => do
    let x ← value p
    let y ← value q
    let z ← value r
    pure [UInt8.ofNat (x * 4 + y / 16), UInt8.ofNat (y % 16 * 16 + z / 4)]
  | p :: q :: r :: s :: rest => do
    let x ← value p
    let y ← value q
    let z ← value r
    let w ← value s
    let bytes ← ofDigits rest
    pure (UInt8.ofNat (x * 4 + y / 16) :: UInt8.ofNat (y % 16 * 16 + z / 4) ::
      UInt8.ofNat (z % 4 * 64 + w) :: bytes)

/-- At most two characters of padding are taken away. -/
def stripPadding (cs : List Char) : List Char :=
  match cs.reverse with
  | '=' :: '=' :: rest => rest.reverse
  | '=' :: rest => rest.reverse
  | _ => cs

/-- `StdEncoding.DecodeString`: ends of lines are left out, and the padding has to be there. -/
def decode (cs : List Char) : Option (List UInt8) :=
  let cs := cs.filter fun c => c ≠ '\r' ∧ c ≠ '\n'
  if cs.length % 4 = 0 then ofDigits (stripPadding cs) else none

/-- The white space that `atob` leaves out. -/
def isSpace (c : Char) : Bool :=
  c = ' ' ∨ c = '\t' ∨ c = '\n' ∨ c = '\r' ∨ c = Char.ofNat 12

/-- `atob`: white space is left out, and the padding may be left out. -/
def atob (cs : List Char) : Option (List UInt8) :=
  let cs := cs.filter fun c => !isSpace c
  ofDigits (if cs.length % 4 = 0 then stripPadding cs else cs)

/-- The digits of bytes are in the alphabet. -/
theorem mem_alphabet {bytes : List UInt8} {c : Char} (h : c ∈ digits bytes) : c ∈ alphabet := by
  have h_byte (b : UInt8) : b.toNat < 256 := b.toNat_lt
  fun_induction digits bytes with
  | case1 => cases h
  -- one byte gives two digits, two give three, and three give four
  | case2 a =>
    have := h_byte a
    rcases List.mem_pair.mp h with rfl | rfl <;> exact digit_mem (by omega)
  | case3 a b =>
    have := h_byte a
    have := h_byte b
    rcases List.mem_cons.mp h with rfl | h
    · exact digit_mem (by omega)
    · rcases List.mem_pair.mp h with rfl | rfl <;> exact digit_mem (by omega)
  | case4 a b c' rest ih =>
    have := h_byte a
    have := h_byte b
    have := h_byte c'
    rcases List.mem_cons.mp h with rfl | h
    · exact digit_mem (by omega)
    rcases List.mem_cons.mp h with rfl | h
    · exact digit_mem (by omega)
    rcases List.mem_cons.mp h with rfl | h
    · exact digit_mem (by omega)
    rcases List.mem_cons.mp h with rfl | h
    · exact digit_mem (by omega)
    · exact ih h

/-- A byte is given by its number. -/
theorem ofNat_eq {n : ℕ} {b : UInt8} (h : n = b.toNat) : UInt8.ofNat n = b := by
  rw [h, UInt8.ofNat_toNat]

/-- The digits of some bytes are read back. -/
theorem ofDigits_digits (bytes : List UInt8) : ofDigits (digits bytes) = some bytes := by
  have h_byte (b : UInt8) : b.toNat < 256 := b.toNat_lt
  fun_induction digits bytes with
  | case1 => rfl
  -- the end of the bytes: one or two are left
  | case2 a =>
    have := h_byte a
    rw [ofDigits, value_digit (by omega), value_digit (by omega)]
    show some [_] = _
    rw [ofNat_eq (b := a) (by omega)]
  | case3 a b =>
    have := h_byte a
    have := h_byte b
    rw [ofDigits, value_digit (by omega), value_digit (by omega), value_digit (by omega)]
    show some [_, _] = _
    rw [ofNat_eq (b := a) (by omega), ofNat_eq (b := b) (by omega)]
  -- three bytes and the rest
  | case4 a b c rest ih =>
    have := h_byte a
    have := h_byte b
    have := h_byte c
    rw [ofDigits, value_digit (by omega), value_digit (by omega), value_digit (by omega),
      value_digit (by omega), ih]
    show some (_ :: _ :: _ :: rest) = _
    rw [ofNat_eq (b := a) (by omega), ofNat_eq (b := b) (by omega), ofNat_eq (b := c) (by omega)]

/-- Three bytes have four digits. -/
theorem length_digits (bytes : List UInt8) :
    (digits bytes).length = (4 * bytes.length + 2) / 3 := by
  fun_induction digits bytes with
  | case1 => rfl
  | case2 a => simp
  | case3 a b => simp
  | case4 a b c rest ih =>
    simp only [List.length_cons, ih]
    omega

/-- With its padding a text has a multiple of four characters. -/
theorem length_encode (bytes : List UInt8) :
    (encode bytes).length = 4 * ((bytes.length + 2) / 3) := by
  rw [encode, List.length_append, List.length_replicate, length_digits, padding]
  omega

/-- Encoded text has digits and padding only. -/
theorem mem_encode {bytes : List UInt8} {c : Char} (h : c ∈ encode bytes) :
    c ∈ '=' :: alphabet := by
  rcases List.mem_append.mp h with h | h
  · exact List.mem_cons_of_mem _ (mem_alphabet h)
  · rw [List.eq_of_mem_replicate h]
    exact List.mem_cons_self

theorem stripPadding_append {cs : List Char} (h : '=' ∉ cs) {n : ℕ} (h_n : n ≤ 2) :
    stripPadding (cs ++ List.replicate n '=') = cs := by
  -- no digit is `=`, so the stripping ends where the digits do
  have h_last : ∀ rest, cs.reverse ≠ '=' :: rest := by
    intro rest h_eq
    exact h (List.mem_reverse.mp (h_eq ▸ List.mem_cons_self))
  unfold stripPadding
  rw [List.reverse_append, List.reverse_replicate]
  interval_cases n
  · rw [List.replicate_zero, List.nil_append, List.append_nil]
    split
    · rename_i h_eq
      exact absurd h_eq (h_last _)
    · rename_i h_eq
      exact absurd h_eq (h_last _)
    · rfl
  · split
    · rename_i h_eq
      exact absurd (List.cons.inj h_eq).2 (h_last _)
    · rename_i h_eq
      rw [← (List.cons.inj h_eq).2]
      exact List.reverse_reverse cs
    · rename_i h_eq
      exact absurd rfl (h_eq _)
  · exact List.reverse_reverse cs

/-- A text without white space is read back if its padding is taken away. -/
theorem ofDigits_stripPadding_encode (bytes : List UInt8) :
    ofDigits (stripPadding (encode bytes)) = some bytes := by
  have h_not : '=' ∉ digits bytes := fun h => absurd (mem_alphabet h) (by decide)
  rw [encode, stripPadding_append h_not (by unfold padding; omega), ofDigits_digits]

/-- Nothing is left out of encoded text that only leaves out other characters. -/
theorem filter_encode {keep : Char → Bool} (h : ∀ c ∈ '=' :: alphabet, keep c = true)
    (bytes : List UInt8) : (encode bytes).filter keep = encode bytes :=
  List.filter_eq_self.mpr fun c h_c => h c (mem_encode h_c)

/-- `StdEncoding` reads back what it writes. -/
theorem decode_encode (bytes : List UInt8) : decode (encode bytes) = some bytes := by
  have h_length : (encode bytes).length % 4 = 0 := by
    rw [length_encode]
    omega
  unfold decode
  rw [filter_encode (by decide)]
  show (if (encode bytes).length % 4 = 0 then _ else _) = _
  rw [if_pos h_length, ofDigits_stripPadding_encode]

/-- `atob` reads back what `btoa` writes. -/
theorem atob_encode (bytes : List UInt8) : atob (encode bytes) = some bytes := by
  have h_length : (encode bytes).length % 4 = 0 := by
    rw [length_encode]
    omega
  unfold atob
  rw [filter_encode (by decide)]
  show ofDigits (if (encode bytes).length % 4 = 0 then _ else _) = _
  rw [if_pos h_length, ofDigits_stripPadding_encode]

end Base64

end Encoding
