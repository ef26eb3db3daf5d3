import Mathlib.Data.List.Basic
import Mathlib.Data.List.TakeWhile
import Mathlib.Order.Basic
import Mathlib.Data.String.Basic

/-!
# JSON trees and their canonical text

`Json` is the tree a JSON text denotes. Numbers keep their literal, as a decoder leaves them
that does not convert them, and the fields of an object are listed in the order in which
they are printed. `Json.encode` is the compact text with the characters `<`, `>`, `&`,
U+2028 and U+2029 escaped.

The text determines the tree (`Json.encode_injective`). The proof reads two texts from the
left: `Json.encode_cancel` cancels equal encodings in front of arbitrary continuations. The
only encodings whose end is not visible are the number literals, so the continuations must
not start with a character of a number (`Delimited`).

`Object` is a finite map from keys to trees, kept as a list in strictly increasing key
order, so that its text does not depend on how it was built.
-/

namespace Encoding

/-- What is asked of the characters of a text is tried at these characters only, not at every
character there is. -/
instance (priority := 2000) decidableBAllChar (cs : List Char) (p : Char → Prop)
    [DecidablePred p] : Decidable (∀ c ∈ cs, p c) := List.decidableBAll p cs

/-- The two halves of a computation that succeeds. -/
theorem of_bind_ok {ε α β : Type} {x : Except ε α} {f : α → Except ε β} {b : β}
    (h : x >>= f = .ok b) : ∃ a, x = .ok a ∧ f a = .ok b := by
  cases x with
  | error => cases h
  | ok a => exact ⟨a, rfl, h⟩

/-! ### Trees -/

/-- The characters numbers are written with. -/
def isNumberChar (c : Char) : Bool :=
  c.isDigit || c == '-' || c == '+' || c == '.' || c == 'e' || c == 'E'

/-- A number literal. The text of a tree is readable for every nonempty literal of number
characters, so the grammar of numbers is not part of the type. -/
structure Number where
  literal : List Char
  nonempty : literal ≠ []
  chars : ∀ c ∈ literal, isNumberChar c = true
  deriving DecidableEq

/-- JSON trees. -/
inductive Json where
  | null
  | bool (b : Bool)
  | num (n : Number)
  | str (s : String)
  | arr (elems : List Json)
  | obj (fields : List (String × Json))

mutual

/-- A property of a tree that follows from that of the trees right below it. -/
theorem Json.of_children {P : Json → Prop}
    (h : ∀ v, (∀ fields, v = .obj fields → ∀ f ∈ fields, P f.2) →
      (∀ elems, v = .arr elems → ∀ w ∈ elems, P w) → P v) : ∀ v, P v
  | .null => h _ (by rintro _ ⟨⟩) (by rintro _ ⟨⟩)
  | .bool _ => h _ (by rintro _ ⟨⟩) (by rintro _ ⟨⟩)
  | .num _ => h _ (by rintro _ ⟨⟩) (by rintro _ ⟨⟩)
  | .str _ => h _ (by rintro _ ⟨⟩) (by rintro _ ⟨⟩)
  | .arr elems =>
    h _ (by rintro _ ⟨⟩) fun _ h_eq => Json.arr.inj h_eq ▸ elems_of_children h elems
  | .obj fields =>
    h _ (fun _ h_eq => Json.obj.inj h_eq ▸ fields_of_children h fields) (by rintro _ ⟨⟩)

/-- The same for the elements of a list. -/
theorem elems_of_children {P : Json → Prop}
    (h : ∀ v, (∀ fields, v = .obj fields → ∀ f ∈ fields, P f.2) →
      (∀ elems, v = .arr elems → ∀ w ∈ elems, P w) → P v) : ∀ elems : List Json, ∀ w ∈ elems, P w
  | [] => List.forall_mem_nil _
  | v :: elems => List.forall_mem_cons.mpr ⟨v.of_children h, elems_of_children h elems⟩

/-- The same for the values of an object. -/
theorem fields_of_children {P : Json → Prop}
    (h : ∀ v, (∀ fields, v = .obj fields → ∀ f ∈ fields, P f.2) →
      (∀ elems, v = .arr elems → ∀ w ∈ elems, P w) → P v) :
    ∀ fields : List (String × Json), ∀ f ∈ fields, P f.2
  | [] => List.forall_mem_nil _
  | (_, v) :: fields => List.forall_mem_cons.mpr ⟨v.of_children h, fields_of_children h fields⟩

end

/-! ### Text -/

/-- The digit of a value below 16. -/
def hexDigit (n : ℕ) : Char := Nat.digitChar n

/-- The characters that do not stand for themselves in a string. -/
def escaped : List Char :=
  (List.range 32).map Char.ofNat ++
    ['"', '\\', '<', '>', '&', Char.ofNat 0x2028, Char.ofNat 0x2029]

/-- What follows the backslash of an escaped character. -/
def escapeTail (c : Char) : List Char :=
  match c with
  | '"' => ['"']
  | '\\' => ['\\']
  | '\n' => ['n']
  | '\r' => ['r']
  | '\t' => ['t']
  | c =>
    -- Backspace and form feed have short escapes, other control characters four digits.
    if c.toNat = 8 then ['b']
    else if c.toNat = 12 then ['f']
    else
      let n := c.toNat
      ['u', hexDigit (n / 4096), hexDigit (n / 256 % 16), hexDigit (n / 16 % 16),
        hexDigit (n % 16)]

/-- The text of one character of a string. -/
def escape (c : Char) : List Char :=
  if c ∈ escaped then '\\' :: escapeTail c else [c]

/-- The text of the characters of a string and its closing quote. -/
def encodeChars (cs : List Char) : List Char := cs.flatMap escape ++ ['"']

/-- The text of a string. -/
def quote (s : String) : List Char := '"' :: encodeChars s.toList

mutual

/-- The compact text of a tree. -/
def Json.encode : Json → List Char
  | .null => ['n', 'u', 'l', 'l']
  | .bool true => ['t', 'r', 'u', 'e']
  | .bool false => ['f', 'a', 'l', 's', 'e']
  | .num n => n.literal
  | .str s => quote s
  | .arr elems => '[' :: encodeElems elems
  | .obj fields => '{' :: encodeFields fields
termination_by structural v => v

/-- The elements of an array and its closing bracket. -/
def encodeElems : List Json → List Char
  | [] => [']']
  | v :: vs => v.encode ++ encodeMoreElems vs
termination_by structural vs => vs

/-- The elements of an array after the first one. -/
def encodeMoreElems : List Json → List Char
  | [] => [']']
  | v :: vs => ',' :: (v.encode ++ encodeMoreElems vs)
termination_by structural vs => vs

/-- The fields of an object and its closing brace. -/
def encodeFields : List (String × Json) → List Char
  | [] => ['}']
  | f :: fs => encodeField f ++ encodeMoreFields fs
termination_by structural fs => fs

/-- The fields of an object after the first one. -/
def encodeMoreFields : List (String × Json) → List Char
  | [] => ['}']
  | f :: fs => ',' :: (encodeField f ++ encodeMoreFields fs)
termination_by structural fs => fs

/-- One field. -/
def encodeField : String × Json → List Char
  | (k, v) => quote k ++ ':' :: v.encode
termination_by structural f => f

end

/-! ### Strings are read back -/

/-- No escape sequence is the beginning of another one. -/
theorem escapeTail_prefixFree :
    ∀ c ∈ escaped, ∀ d ∈ escaped, escapeTail c <+: escapeTail d → c = d := by
  have h_all : (escaped.all fun c => escaped.all fun d =>
      !(escapeTail c).isPrefixOf (escapeTail d) || c == d) = true := by decide +kernel
  intro c hc d hd h
  have h_cd := List.all_eq_true.mp (List.all_eq_true.mp h_all c hc) d hd
  simpa [List.isPrefixOf_iff_prefix.mpr h] using h_cd

/-- What follows the backslash tells the escaped character. -/
theorem escapeTail_cancel {c d : Char} (hc : c ∈ escaped) (hd : d ∈ escaped)
    {x y : List Char} (h : escapeTail c ++ x = escapeTail d ++ y) : c = d := by
  rcases List.append_eq_append_iff.mp h with ⟨z, hz, -⟩ | ⟨z, hz, -⟩
  · exact escapeTail_prefixFree c hc d hd ⟨z, hz.symm⟩
  · exact (escapeTail_prefixFree d hd c hc ⟨z, hz.symm⟩).symm

/-- The backslash is escaped. -/
theorem backslash_mem_escaped : '\\' ∈ escaped := by decide

/-- The quote is escaped. -/
theorem quote_mem_escaped : '"' ∈ escaped := by decide

/-- Equal texts start with the same character. -/
theorem escape_cancel {c d : Char} {x y : List Char} (h : escape c ++ x = escape d ++ y) :
    c = d ∧ x = y := by
  have h_eq : c = d := by
    unfold escape at h
    by_cases hc : c ∈ escaped <;> by_cases hd : d ∈ escaped
    · rw [if_pos hc, if_pos hd] at h
      exact escapeTail_cancel hc hd (List.cons.inj h).2
    · rw [if_pos hc, if_neg hd] at h
      exact absurd ((List.cons.inj h).1 ▸ backslash_mem_escaped) hd
    · rw [if_neg hc, if_pos hd] at h
      exact absurd ((List.cons.inj h).1.symm ▸ backslash_mem_escaped) hc
    · rw [if_neg hc, if_neg hd] at h
      exact (List.cons.inj h).1
  subst h_eq
  exact ⟨rfl, List.append_cancel_left h⟩

/-- The text of a character does not start with a quote, which ends a string. -/
theorem escape_ne_quote (c : Char) (x y : List Char) : escape c ++ x ≠ '"' :: y := by
  unfold escape
  intro h
  by_cases hc : c ∈ escaped
  · rw [if_pos hc] at h
    exact absurd (List.cons.inj h).1 (by decide)
  · rw [if_neg hc] at h
    exact hc ((List.cons.inj h).1 ▸ quote_mem_escaped)

/-- The end of a string is found, since quotes are escaped. -/
theorem encodeChars_cancel {cs ds x y : List Char}
    (h : encodeChars cs ++ x = encodeChars ds ++ y) : cs = ds ∧ x = y := by
  -- The closing quote is never the first character of an encoded one.
  induction cs generalizing ds with
  | nil =>
    cases ds with
    | nil => exact ⟨rfl, (List.cons.inj h).2⟩
    | cons d ds =>
      simp only [encodeChars, List.flatMap_cons, List.flatMap_nil, List.append_assoc] at h
      exact absurd h.symm (escape_ne_quote _ _ _)
  | cons c cs ih =>
    cases ds with
    | nil =>
      simp only [encodeChars, List.flatMap_cons, List.flatMap_nil, List.append_assoc] at h
      exact absurd h (escape_ne_quote _ _ _)
    | cons d ds =>
      simp only [encodeChars, List.flatMap_cons, List.append_assoc] at h
      obtain ⟨rfl, h_tail⟩ := escape_cancel h
      obtain ⟨rfl, h_rest⟩ := @ih ds (by simpa [encodeChars] using h_tail)
      exact ⟨rfl, h_rest⟩

/-- A string is told from what follows it. -/
theorem quote_cancel {s t : String} {x y : List Char} (h : quote s ++ x = quote t ++ y) :
    s = t ∧ x = y := by
  obtain ⟨h_chars, h_rest⟩ := encodeChars_cancel (List.cons.inj h).2
  exact ⟨String.toList_inj.mp h_chars, h_rest⟩

/-! ### Numbers end where their characters end -/

/-- The text does not go on with a character of a number. -/
def Delimited (x : List Char) : Prop := ∀ c ∈ x.head?, isNumberChar c = false

theorem delimited_nil : Delimited [] := by simp [Delimited]

theorem delimited_cons {c : Char} (x : List Char) (hc : isNumberChar c = false) :
    Delimited (c :: x) := by simpa [Delimited] using hc

/-- A number goes up to where it is delimited. -/
theorem takeWhile_number (n : Number) {x : List Char} (hx : Delimited x) :
    (n.literal ++ x).takeWhile isNumberChar = n.literal := by
  rw [List.takeWhile_append_of_pos n.chars]
  cases x with
  | nil => simp
  | cons c x => simp [hx c rfl]

/-- A number is told from what follows it. -/
theorem number_cancel {n m : Number} {x y : List Char} (hx : Delimited x)
    (hy : Delimited y) (h : n.literal ++ x = m.literal ++ y) : n = m ∧ x = y := by
  have h_lit : n.literal = m.literal := by
    rw [← takeWhile_number n hx, h, takeWhile_number m hy]
  obtain ⟨l, _, _⟩ := n
  obtain ⟨k, _, _⟩ := m
  obtain rfl : l = k := h_lit
  exact ⟨rfl, List.append_cancel_left h⟩

/-! ### Trees are read back -/

/-- What the first character of a text says about its tree. -/
def leadClass (c : Char) : Char := if isNumberChar c then '0' else c

/-- The class of the first character of the text of a tree. -/
def Json.lead : Json → Char
  | .null => 'n'
  | .bool true => 't'
  | .bool false => 'f'
  | .num _ => '0'
  | .str _ => '"'
  | .arr _ => '['
  | .obj _ => '{'

/-- The first character tells the kind of a value. -/
theorem Json.leadClass_head (v : Json) (x : List Char) :
    ((v.encode ++ x).head?).map leadClass = some v.lead := by
  cases v with
  | bool b => cases b <;> rfl
  | num n =>
    obtain ⟨l, h_ne, h_chars⟩ := n
    cases l with
    | nil => exact absurd rfl h_ne
    | cons c l =>
      have h_c : isNumberChar c = true := h_chars c (by simp)
      simp [Json.encode, Json.lead, leadClass, h_c]
  | _ => rfl

/-- Values with the same text are of the same kind. -/
theorem Json.lead_eq_of_encode {v w : Json} {x y : List Char}
    (h : v.encode ++ x = w.encode ++ y) : v.lead = w.lead := by
  have h_lead := v.leadClass_head x
  rw [h, w.leadClass_head y] at h_lead
  exact (Option.some.inj h_lead).symm

/-- A tree does not start with a character that closes or separates. -/
theorem Json.encode_ne_cons (v : Json) {c : Char} (hc : c = ']' ∨ c = '}' ∨ c = ',')
    (x y : List Char) : v.encode ++ x ≠ c :: y := by
  intro h
  have h_lead := v.leadClass_head x
  rw [h] at h_lead
  have h_lead : leadClass c = v.lead := Option.some.inj h_lead
  rcases hc with rfl | rfl | rfl <;> cases v with
  | bool b => cases b <;> exact absurd h_lead (by simp [leadClass, Json.lead]; decide)
  | _ => exact absurd h_lead (by simp [leadClass, Json.lead]; decide)

/-- A comma or a bracket follows an element. -/
theorem delimited_encodeMoreElems (vs : List Json) (x : List Char) :
    Delimited (encodeMoreElems vs ++ x) := by
  cases vs <;> exact delimited_cons _ (by decide)

/-- A comma or a brace follows a value. -/
theorem delimited_encodeMoreFields (fs : List (String × Json)) (x : List Char) :
    Delimited (encodeMoreFields fs ++ x) := by
  cases fs <;> exact delimited_cons _ (by decide)

/-- A field starts with the quote of its key. -/
theorem encodeField_ne_brace (f : String × Json) (x y : List Char) :
    encodeField f ++ x ≠ '}' :: y := by
  obtain ⟨k, v⟩ := f
  simp [encodeField, quote]

mutual

/-- **Unique reading.** Equal texts start with the same tree, and go on alike after it. -/
theorem Json.encode_cancel : ∀ (v w : Json) {x y : List Char}, Delimited x → Delimited y →
    v.encode ++ x = w.encode ++ y → v = w ∧ x = y := by
  intro v w x y hx hy h
  have h_lead := Json.lead_eq_of_encode h
  -- Trees of different kinds differ in their first character.
  cases v with
  | null =>
    cases w with
    | null => exact ⟨rfl, List.append_cancel_left h⟩
    | bool b => cases b <;> exact absurd h_lead (by simp [Json.lead])
    | _ => exact absurd h_lead (by simp [Json.lead])
  | bool b =>
    cases w with
    | bool c =>
      cases b <;> cases c
      · exact ⟨rfl, List.append_cancel_left h⟩
      · exact absurd h_lead (by simp [Json.lead])
      · exact absurd h_lead (by simp [Json.lead])
      · exact ⟨rfl, List.append_cancel_left h⟩
    | _ => cases b <;> exact absurd h_lead (by simp [Json.lead])
  | num n =>
    cases w with
    | num m =>
      obtain ⟨rfl, h_rest⟩ := number_cancel hx hy h
      exact ⟨rfl, h_rest⟩
    | bool b => cases b <;> exact absurd h_lead (by simp [Json.lead])
    | _ => exact absurd h_lead (by simp [Json.lead])
  | str s =>
    cases w with
    | str t =>
      obtain ⟨rfl, h_rest⟩ := quote_cancel h
      exact ⟨rfl, h_rest⟩
    | bool b => cases b <;> exact absurd h_lead (by simp [Json.lead])
    | _ => exact absurd h_lead (by simp [Json.lead])
  | arr vs =>
    cases w with
    | arr ws =>
      obtain ⟨rfl, h_rest⟩ := encodeElems_cancel vs ws (List.cons.inj h).2
      exact ⟨rfl, h_rest⟩
    | bool b => cases b <;> exact absurd h_lead (by simp [Json.lead])
    | _ => exact absurd h_lead (by simp [Json.lead])
  | obj fs =>
    cases w with
    | obj gs =>
      obtain ⟨rfl, h_rest⟩ := encodeFields_cancel fs gs (List.cons.inj h).2
      exact ⟨rfl, h_rest⟩
    | bool b => cases b <;> exact absurd h_lead (by simp [Json.lead])
    | _ => exact absurd h_lead (by simp [Json.lead])
termination_by structural v => v

theorem encodeElems_cancel : ∀ (vs ws : List Json) {x y : List Char},
    encodeElems vs ++ x = encodeElems ws ++ y → vs = ws ∧ x = y := by
  intro vs ws x y h
  -- an empty array closes at once, another begins with a value
  cases vs with
  | nil =>
    cases ws with
    | nil => exact ⟨rfl, (List.cons.inj h).2⟩
    | cons w ws =>
      simp only [encodeElems, List.append_assoc] at h
      exact absurd h.symm (w.encode_ne_cons (.inl rfl) _ _)
  | cons v vs =>
    cases ws with
    | nil =>
      simp only [encodeElems, List.append_assoc] at h
      exact absurd h (v.encode_ne_cons (.inl rfl) _ _)
    | cons w ws =>
      simp only [encodeElems, List.append_assoc] at h
      obtain ⟨rfl, h_more⟩ := Json.encode_cancel v w (delimited_encodeMoreElems vs x)
        (delimited_encodeMoreElems ws y) h
      obtain ⟨rfl, h_rest⟩ := encodeMoreElems_cancel vs ws h_more
      exact ⟨rfl, h_rest⟩
termination_by structural vs => vs

/-- The same for the rest of a list. -/
theorem encodeMoreElems_cancel : ∀ (vs ws : List Json) {x y : List Char},
    encodeMoreElems vs ++ x = encodeMoreElems ws ++ y → vs = ws ∧ x = y := by
  intro vs ws x y h
  cases vs with
  | nil =>
    cases ws with
    | nil => exact ⟨rfl, (List.cons.inj h).2⟩
    | cons w ws => exact absurd (List.cons.inj h).1 (by decide)
  -- A comma and the closing bracket differ, so both lists go on or both end.
  | cons v vs =>
    cases ws with
    | nil => exact absurd (List.cons.inj h).1 (by decide)
    | cons w ws =>
      have h := (List.cons.inj h).2
      simp only [List.append_eq, List.append_assoc] at h
      obtain ⟨rfl, h_more⟩ := Json.encode_cancel v w (delimited_encodeMoreElems vs x)
        (delimited_encodeMoreElems ws y) h
      obtain ⟨rfl, h_rest⟩ := encodeMoreElems_cancel vs ws h_more
      exact ⟨rfl, h_rest⟩
termination_by structural vs => vs

/-- The same for an object. -/
theorem encodeFields_cancel : ∀ (fs gs : List (String × Json)) {x y : List Char},
    encodeFields fs ++ x = encodeFields gs ++ y → fs = gs ∧ x = y := by
  intro fs gs x y h
  -- an empty object closes at once, another begins with a name
  cases fs with
  | nil =>
    cases gs with
    | nil => exact ⟨rfl, (List.cons.inj h).2⟩
    | cons g gs =>
      simp only [encodeFields, List.append_assoc] at h
      exact absurd h.symm (encodeField_ne_brace g _ _)
  | cons f fs =>
    cases gs with
    | nil =>
      simp only [encodeFields, List.append_assoc] at h
      exact absurd h (encodeField_ne_brace f _ _)
    | cons g gs =>
      simp only [encodeFields, List.append_assoc] at h
      obtain ⟨rfl, h_more⟩ := encodeField_cancel f g (delimited_encodeMoreFields fs x)
        (delimited_encodeMoreFields gs y) h
      obtain ⟨rfl, h_rest⟩ := encodeMoreFields_cancel fs gs h_more
      exact ⟨rfl, h_rest⟩
termination_by structural fs => fs

/-- The same for the rest of an object. -/
theorem encodeMoreFields_cancel : ∀ (fs gs : List (String × Json)) {x y : List Char},
    encodeMoreFields fs ++ x = encodeMoreFields gs ++ y → fs = gs ∧ x = y := by
  intro fs gs x y h
  cases fs with
  | nil =>
    cases gs with
    | nil => exact ⟨rfl, (List.cons.inj h).2⟩
    | cons g gs => exact absurd (List.cons.inj h).1 (by decide)
  -- As for the elements: a comma and the closing brace differ.
  | cons f fs =>
    cases gs with
    | nil => exact absurd (List.cons.inj h).1 (by decide)
    | cons g gs =>
      have h := (List.cons.inj h).2
      simp only [List.append_eq, List.append_assoc] at h
      obtain ⟨rfl, h_more⟩ := encodeField_cancel f g (delimited_encodeMoreFields fs x)
        (delimited_encodeMoreFields gs y) h
      obtain ⟨rfl, h_rest⟩ := encodeMoreFields_cancel fs gs h_more
      exact ⟨rfl, h_rest⟩
termination_by structural fs => fs

/-- The same for a field. -/
theorem encodeField_cancel : ∀ (f g : String × Json) {x y : List Char}, Delimited x →
    Delimited y → encodeField f ++ x = encodeField g ++ y → f = g ∧ x = y := by
  intro f g x y hx hy h
  obtain ⟨k, v⟩ := f
  obtain ⟨l, w⟩ := g
  simp only [encodeField, List.append_assoc] at h
  obtain ⟨rfl, h_value⟩ := quote_cancel h
  obtain ⟨rfl, h_rest⟩ := Json.encode_cancel v w hx hy (List.cons.inj h_value).2
  exact ⟨rfl, h_rest⟩
termination_by structural f => f

end

/-- **The text determines the tree.** -/
theorem Json.encode_injective : Function.Injective Json.encode := by
  intro v w h
  exact (Json.encode_cancel v w delimited_nil delimited_nil (by simpa using h)).1

/-! ### Objects -/

/-- Adds or replaces a field of a list of fields in key order. -/
def insertField (k : String) (v : Json) : List (String × Json) → List (String × Json)
  | [] => [(k, v)]
  | f :: fs =>
    if k < f.1 then (k, v) :: f :: fs
    else if k = f.1 then (k, v) :: fs
    else f :: insertField k v fs

/-- A field is inserted, and nothing else. -/
theorem mem_insertField {k : String} {v : Json} {fs : List (String × Json)}
    {g : String × Json} (h : g ∈ insertField k v fs) : g = (k, v) ∨ g ∈ fs := by
  induction fs with
  | nil => simpa [insertField] using h
  | cons f fs ih =>
    unfold insertField at h
    split at h
    · simpa using h
    · split at h
      · rcases List.mem_cons.mp h with rfl | h
        · exact .inl rfl
        · exact .inr (List.mem_cons_of_mem _ h)
      · rcases List.mem_cons.mp h with rfl | h
        · exact .inr List.mem_cons_self
        · exact (ih h).imp id (List.mem_cons_of_mem _)

/-- The fields stay in order. -/
theorem insertField_sorted {k : String} {v : Json} {fs : List (String × Json)}
    (h : fs.Pairwise (fun f g => f.1 < g.1)) :
    (insertField k v fs).Pairwise (fun f g => f.1 < g.1) := by
  induction fs with
  | nil => simp [insertField]
  | cons f fs ih =>
    rw [List.pairwise_cons] at h
    unfold insertField
    -- the field comes first, replaces one, or goes on to the rest
    split
    · next h_lt =>
      refine List.pairwise_cons.mpr ⟨?_, List.pairwise_cons.mpr h⟩
      intro g hg
      rcases List.mem_cons.mp hg with rfl | hg
      · exact h_lt
      · exact lt_trans h_lt (h.1 g hg)
    · next h_nlt =>
      split
      · next h_eq =>
        subst h_eq
        exact List.pairwise_cons.mpr h
      · next h_ne =>
        refine List.pairwise_cons.mpr ⟨?_, ih h.2⟩
        intro g hg
        rcases mem_insertField hg with rfl | hg
        · exact lt_of_le_of_ne (not_lt.mp h_nlt) (Ne.symm h_ne)
        · exact h.1 g hg

/-- A finite map from keys to trees. -/
structure Object where
  fields : List (String × Json)
  sorted : fields.Pairwise (fun f g => f.1 < g.1)

namespace Object

/-- The object without fields. -/
def empty : Object := ⟨[], .nil⟩

/-- The value of a key. -/
def get (o : Object) (k : String) : Option Json := (o.fields.find? (·.1 = k)).map Prod.snd

/-- Adds or replaces a field. -/
def set (o : Object) (k : String) (v : Json) : Object :=
  ⟨insertField k v o.fields, insertField_sorted o.sorted⟩

/-- Removes a field. -/
def erase (o : Object) (k : String) : Object :=
  ⟨o.fields.filter (·.1 ≠ k), o.sorted.filter _⟩

/-- The tree of an object. -/
def toJson (o : Object) : Json := .obj o.fields

/-- The text of an object. -/
def encode (o : Object) : String := String.ofList o.toJson.encode

/-- The object with the given fields, where a later field of a key replaces an earlier one. -/
def ofFields (fs : List (String × Json)) : Object :=
  fs.foldl (fun o f => o.set f.1 f.2) empty

/-- The object with the fields of another one added or replaced. -/
def merge (o p : Object) : Object := p.fields.foldl (fun o f => o.set f.1 f.2) o

/-- An object is its fields. -/
@[ext] theorem ext {o p : Object} (h : o.fields = p.fields) : o = p := by
  cases o
  cases p
  subst h
  rfl

@[simp] theorem get_empty (k : String) : empty.get k = none := rfl

/-- What is found after an insertion. -/
theorem find?_insertField (k l : String) (v : Json) (fs : List (String × Json)) :
    ((insertField k v fs).find? (·.1 = l)).map Prod.snd =
      if k = l then some v else (fs.find? (·.1 = l)).map Prod.snd := by
  -- Along the list, up to the place where the field is put in.
  induction fs with
  | nil => by_cases h : k = l <;> simp [insertField, h]
  | cons f fs ih =>
    unfold insertField
    split
    · by_cases h : k = l <;> simp [List.find?_cons, h]
    · split
      · next h_eq => by_cases h : k = l <;> simp [← h_eq, h]
      · next h_ne =>
        by_cases h_f : f.1 = l
        · have h : k ≠ l := fun h => h_ne (h.trans h_f.symm)
          simp [h_f, h]
        · simpa [List.find?_cons, h_f] using ih

/-- What is found after an assignment. -/
theorem get_set (o : Object) (k l : String) (v : Json) :
    (o.set k v).get l = if k = l then some v else o.get l := find?_insertField ..

@[simp] theorem get_set_self (o : Object) (k : String) (v : Json) :
    (o.set k v).get k = some v := by simp [get_set]

theorem get_set_of_ne (o : Object) {k l : String} (h : k ≠ l) (v : Json) :
    (o.set k v).get l = o.get l := by simp [get_set, h]

/-- What is found after a deletion. -/
theorem get_erase (o : Object) (k l : String) :
    (o.erase k).get l = if k = l then none else o.get l := by
  unfold get erase
  by_cases h : k = l
  · subst h
    simp [List.find?_filter]
  · have h_pred : (fun f : String × Json => decide (f.1 = l)) =
        fun f => decide (f.1 ≠ k) && decide (f.1 = l) := by
      funext f
      by_cases h_l : f.1 = l <;> simp [h_l, Ne.symm h]
    simp [List.find?_filter, h, h_pred]

@[simp] theorem get_erase_self (o : Object) (k : String) : (o.erase k).get k = none := by
  simp [get_erase]

theorem get_erase_of_ne (o : Object) {k l : String} (h : k ≠ l) :
    (o.erase k).get l = o.get l := by simp [get_erase, h]

/-- What is found after several assignments is the last of them. -/
theorem get_foldl_set (fs : List (String × Json)) (h : fs.Pairwise (fun f g => f.1 < g.1))
    (o : Object) (k : String) :
    (fs.foldl (fun o f => o.set f.1 f.2) o).get k =
      ((fs.find? (·.1 = k)).map Prod.snd).or (o.get k) := by
  induction fs generalizing o with
  | nil => simp
  | cons f fs ih =>
    rw [List.pairwise_cons] at h
    rw [List.foldl_cons, ih h.2, get_set]
    by_cases h_eq : f.1 = k
    · -- The key of the head does not come again, so its value is kept.
      have h_none : fs.find? (·.1 = k) = none := by
        refine List.find?_eq_none.mpr fun g hg => ?_
        simpa [← h_eq] using (h.1 g hg).ne'
      simp [h_eq, h_none]
    · simp [h_eq]

/-- What is merged in comes first. -/
theorem get_merge (o p : Object) (k : String) :
    (o.merge p).get k = (p.get k).or (o.get k) :=
  get_foldl_set p.fields p.sorted o k

/-- Objects with the same text are equal. -/
theorem encode_injective : Function.Injective Object.encode := by
  intro o p h
  have h_chars : o.toJson.encode = p.toJson.encode := by
    simpa [Object.encode] using congrArg String.toList h
  exact ext (Json.obj.inj (Json.encode_injective h_chars))

end Object

end Encoding
