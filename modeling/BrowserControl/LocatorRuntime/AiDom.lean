import BrowserControl.LocatorRuntime.Description

/-!
# References in the AI DOM

A runtime renders its AI DOM with its own references, and the extension puts the number of the frame
in front of them: in the nodes it sets `nodeRef`, but in the rendered text it replaces what looks
like a reference, `ref=` with a letter and digits. The page writes most of that text.

The text is a sequence of chunks, each of which begins with a character that no reference has in
it, so `replaceRefs` replaces in each chunk on its own (`replaceRefs_text`). The replacement makes
a chunk longer, unless there is no reference in it. So the two ways agree if and only if what the
page has written has no reference in it (`aiDom_eq_iff`).
-/

namespace BrowserControl.LocatorRuntime

/-! ### The replacement -/

/-- `\w` -/
def isWord (c : Char) : Bool := c.isAlphanum || c = '_'

/-- `/[a-z]\d+/` for the whole text. -/
def isRef : List Char → Bool
  | c :: d :: ds => c.isLower && (d :: ds).all Char.isDigit
  | _ => false

/-- The reference of `/\bref=([a-z]\d+)\b/` at the beginning of a text that does not follow a word.
Since it ends with a word, it is all that is left of the word. -/
def matchRef (cs : List Char) : Option (List Char) :=
  let ref := (cs.drop 4).takeWhile isWord
  if cs.take 4 = ['r', 'e', 'f', '='] ∧ isRef ref then some ref else none

/-- `/\bref=([a-z]\d+)\b/.test(text)`, where the text follows a word or not. -/
def hasRef : Bool → List Char → Bool
  | _, [] => false
  | word, c :: cs => !word && (matchRef (c :: cs)).isSome || hasRef (isWord c) cs

/-- `text.replace(/\bref=([a-z]\d+)\b/g, "ref=" + pre + ref)`, where `skip` characters of the text
are replaced already. -/
def replaceRefs (pre : List Char) : ℕ → Bool → List Char → List Char
  | _, _, [] => []
  | skip + 1, _, c :: cs => replaceRefs pre skip (isWord c) cs
  | 0, word, c :: cs =>
    match if word then none else matchRef (c :: cs) with
    | some ref =>
      'r' :: 'e' :: 'f' :: '=' :: pre ++ ref ++ replaceRefs pre (3 + ref.length) (isWord c) cs
    | none => c :: replaceRefs pre 0 (isWord c) cs

/-- What the extension puts in front of the references of a frame. -/
def framePrefix (frameID : ℕ) : String := "f" ++ Nat.repr frameID ++ "_"

/-- A node, as `#capture` publishes it. -/
def publishedNode (frameID : ℕ) (node : NodeDescription) : NodeDescription :=
  { node with nodeRef := framePrefix frameID ++ node.nodeRef }

/-- The AI DOM of a frame, as `#capture` publishes it. -/
def publishedAiDom (frameID : ℕ) (aiDom : String) : String :=
  .ofList (replaceRefs (framePrefix frameID).toList 0 false aiDom.toList)

/-- No reference has such a character in it. -/
def isStop (c : Char) : Bool := !isWord c && c ≠ '='

variable {pre : List Char}

/-! ### Matches -/

/-- What is matched lies in the text. -/
theorem matchRef_length {cs ref : List Char} (h : matchRef cs = some ref) :
    4 + ref.length ≤ cs.length := by
  dsimp only [matchRef] at h
  split at h
  case isFalse => contradiction
  case isTrue h_match =>
    obtain rfl := Option.some.inj h
    have h_take := congrArg List.length h_match.1
    have h_ref := (List.takeWhile_sublist isWord (l := cs.drop 4)).length_le
    rw [List.length_take] at h_take
    rw [List.length_drop] at h_ref
    have h_four : ['r', 'e', 'f', '='].length = 4 := rfl
    omega

/-- A character that ends a word is none of it. -/
theorem isWord_of_isStop {s : Char} (hs : isStop s = true) : isWord s = false := by
  rw [isStop, Bool.and_eq_true, Bool.not_eq_true'] at hs
  exact hs.1

/-- The word at the end of a text ends in front of a stop. -/
theorem takeWhile_append_stop {s : Char} (hs : isStop s = true) (p rest : List Char) :
    (p ++ s :: rest).takeWhile isWord = p.takeWhile isWord := by
  induction p with
  | nil =>
    rw [List.nil_append, List.takeWhile_cons_of_neg (Bool.eq_false_iff.mp (isWord_of_isStop hs))]
    rfl
  | cons c p ih =>
    rw [List.cons_append, List.takeWhile_cons, List.takeWhile_cons, ih]

/-- A reference ends in front of a stop. -/
theorem matchRef_append_stop {s : Char} (hs : isStop s = true) (p rest : List Char) :
    matchRef (p ++ s :: rest) = matchRef p := by
  -- with four characters the stop does not matter
  by_cases h_length : 4 ≤ p.length
  · dsimp only [matchRef]
    rw [List.take_append_of_le_length h_length, List.drop_append_of_le_length h_length,
      takeWhile_append_stop hs]
  · -- The stop would be one of the first four characters.
    have h_left : (p ++ s :: rest).take 4 ≠ ['r', 'e', 'f', '='] := by
      intro h_eq
      have h_mem : s ∈ (p ++ s :: rest).take 4 := by
        rw [List.take_append, List.mem_append]
        refine .inr ?_
        obtain ⟨n, hn⟩ : ∃ n, 4 - p.length = n + 1 := ⟨3 - p.length, by omega⟩
        rw [hn, List.take_succ_cons]
        exact List.mem_cons_self
      have h_stops : ∀ c ∈ ['r', 'e', 'f', '='], isStop c = false := by decide
      rw [h_stops s (h_eq ▸ h_mem)] at hs
      contradiction
    have h_right : p.take 4 ≠ ['r', 'e', 'f', '='] := by
      intro h_eq
      have h := congrArg List.length h_eq
      rw [List.length_take] at h
      have h_four : ['r', 'e', 'f', '='].length = 4 := rfl
      omega
    rw [matchRef, if_neg fun h => h_left h.1, matchRef, if_neg fun h => h_right h.1]

/-- No reference begins with a stop. -/
theorem matchRef_stop {s : Char} (hs : isStop s = true) (rest : List Char) :
    matchRef (s :: rest) = none := matchRef_append_stop hs [] rest

/-! ### Replacements -/

section

variable {word : Bool} {c : Char} {cs ref : List Char}

/-- A reference gets the prefix of its frame. -/
theorem replaceRefs_of_match (h : matchRef (c :: cs) = some ref) :
    replaceRefs pre 0 false (c :: cs) =
      'r' :: 'e' :: 'f' :: '=' :: pre ++ ref ++ replaceRefs pre (3 + ref.length) (isWord c) cs := by
  rw [replaceRefs, if_neg Bool.false_ne_true, h]

/-- Within a word nothing is replaced. -/
theorem replaceRefs_of_word :
    replaceRefs pre 0 true (c :: cs) = c :: replaceRefs pre 0 (isWord c) cs := by
  rw [replaceRefs, if_pos rfl]

/-- Where no reference is, nothing is replaced. -/
theorem replaceRefs_of_no_match (h : matchRef (c :: cs) = none) :
    replaceRefs pre 0 word (c :: cs) = c :: replaceRefs pre 0 (isWord c) cs := by
  cases word with
  | true => exact replaceRefs_of_word
  | false => rw [replaceRefs, if_neg Bool.false_ne_true, h]

end

/-- In front of a stop and behind it, references are replaced independently. -/
theorem replaceRefs_append_stop {s : Char} (hs : isStop s = true) {p : List Char} (rest : List Char)
    {skip : ℕ} (h_skip : skip ≤ p.length) (word : Bool) :
    replaceRefs pre skip word (p ++ s :: rest) =
      replaceRefs pre skip word p ++ s :: replaceRefs pre 0 false rest := by
  induction p generalizing skip word with
  | nil =>
    obtain rfl : skip = 0 := Nat.le_zero.mp h_skip
    rw [List.nil_append, replaceRefs_of_no_match (matchRef_stop hs rest), isWord_of_isStop hs]
    rfl
  | cons c p ih =>
    cases skip with
    -- a character of a reference that was replaced
    | succ skip => exact ih (Nat.le_of_succ_le_succ h_skip) (isWord c)
    -- a reference begins here, or the character is kept
    | zero =>
      have h_match := matchRef_append_stop hs (c :: p) rest
      rw [List.cons_append] at h_match ⊢
      cases word with
      | true =>
        rw [replaceRefs_of_word, replaceRefs_of_word, ih (Nat.zero_le _)]
        rfl
      | false =>
        cases h_ref : matchRef (c :: p) with
        | none =>
          rw [h_ref] at h_match
          rw [replaceRefs_of_no_match h_match, replaceRefs_of_no_match h_ref, ih (Nat.zero_le _)]
          rfl
        | some ref =>
          rw [h_ref] at h_match
          have h_length := matchRef_length h_ref
          rw [List.length_cons] at h_length
          rw [replaceRefs_of_match h_match, replaceRefs_of_match h_ref, ih (by omega)]
          simp only [List.cons_append, List.append_assoc]

/-- A text without references stays as it is. -/
theorem replaceRefs_of_not_hasRef {word : Bool} {cs : List Char} (h : hasRef word cs = false) :
    replaceRefs pre 0 word cs = cs := by
  induction cs generalizing word with
  | nil => rfl
  | cons c cs ih =>
    rw [hasRef, Bool.or_eq_false_iff, Bool.and_eq_false_imp] at h
    obtain ⟨h_match, h_rest⟩ := h
    cases word with
    | true => rw [replaceRefs_of_word, ih h_rest]
    | false =>
      have h_none : matchRef (c :: cs) = none := by
        have h_isSome := h_match rfl
        rwa [Option.isSome_eq_false_iff, Option.isNone_iff_eq_none] at h_isSome
      rw [replaceRefs_of_no_match h_none, ih h_rest]

/-- The replacement makes no text shorter. -/
theorem length_le_replaceRefs (skip : ℕ) (word : Bool) (cs : List Char) :
    cs.length ≤ (replaceRefs pre skip word cs).length + skip := by
  induction cs generalizing skip word with
  | nil => exact Nat.zero_le _
  | cons c cs ih =>
    -- the character was replaced already, or a reference may begin here
    cases skip with
    | succ skip =>
      have h := ih skip (isWord c)
      rw [replaceRefs, List.length_cons]
      omega
    | zero =>
      have h_rest := ih 0 (isWord c)
      cases word with
      | true =>
        rw [replaceRefs_of_word, List.length_cons, List.length_cons]
        omega
      | false =>
        cases h_ref : matchRef (c :: cs) with
        | none =>
          rw [replaceRefs_of_no_match h_ref, List.length_cons, List.length_cons]
          omega
        | some ref =>
          have h := ih (3 + ref.length) (isWord c)
          rw [replaceRefs_of_match h_ref]
          simp only [List.length_cons, List.length_append]
          omega

/-- It makes a text with a reference longer. -/
theorem length_lt_replaceRefs (h_pre : pre ≠ []) {word : Bool} {cs : List Char}
    (h : hasRef word cs = true) : cs.length < (replaceRefs pre 0 word cs).length := by
  have h_pos : 0 < pre.length := List.length_pos_iff.mpr h_pre
  induction cs generalizing word with
  | nil => contradiction
  | cons c cs ih =>
    -- within a word no reference begins
    cases word with
    | true =>
      have h_rest : hasRef (isWord c) cs = true := by simpa [hasRef] using h
      rw [replaceRefs_of_word, List.length_cons, List.length_cons]
      exact Nat.succ_lt_succ (ih h_rest)
    | false =>
      cases h_ref : matchRef (c :: cs) with
      | none =>
        have h_rest : hasRef (isWord c) cs = true := by simpa [hasRef, h_ref] using h
        rw [replaceRefs_of_no_match h_ref, List.length_cons, List.length_cons]
        exact Nat.succ_lt_succ (ih h_rest)
      | some ref =>
        have h_length := @length_le_replaceRefs pre (3 + ref.length) (isWord c) cs
        rw [replaceRefs_of_match h_ref]
        simp only [List.length_cons, List.length_append]
        omega

/-- A text stays as it is if and only if it has no references. -/
theorem replaceRefs_eq_self_iff (h_pre : pre ≠ []) {cs : List Char} :
    replaceRefs pre 0 false cs = cs ↔ hasRef false cs = false := by
  constructor
  · intro h_eq
    by_contra h_ref
    have h_lt := length_lt_replaceRefs h_pre ((Bool.not_eq_false _).mp h_ref)
    rw [h_eq] at h_lt
    exact lt_irrefl _ h_lt
  · exact replaceRefs_of_not_hasRef

/-- A reference is made of word characters. -/
theorem isWord_of_isRef {ref : List Char} (h : isRef ref = true) {c : Char} (hc : c ∈ ref) :
    isWord c = true := by
  rcases ref with _ | ⟨c', _ | ⟨d, ds⟩⟩
  · contradiction
  · contradiction
  · rw [isRef, Bool.and_eq_true, List.all_eq_true] at h
    rcases List.mem_cons.mp hc with rfl | hc
    · have h_alpha : c.isAlpha = true := by
        change (c.isUpper || c.isLower) = true
        rw [h.1, Bool.or_true]
      simp [isWord, Char.isAlphanum, h_alpha]
    · simp [isWord, Char.isAlphanum, h.2 c hc]

/-- A reference is replaced. -/
theorem replaceRefs_ref {ref : List Char} (h : isRef ref = true) :
    replaceRefs pre 0 false ('r' :: 'e' :: 'f' :: '=' :: ref) =
      'r' :: 'e' :: 'f' :: '=' :: (pre ++ ref) := by
  -- the characters of the reference itself are passed over
  have h_skip : ∀ (cs : List Char) (word : Bool), replaceRefs pre cs.length word cs = [] := by
    intro cs
    induction cs with
    | nil => exact fun _ => rfl
    | cons c cs ih => exact fun _ => ih (isWord c)
  have h_word : ref.takeWhile isWord = ref := by
    exact List.takeWhile_eq_self_iff.mpr fun c hc => isWord_of_isRef h hc
  have h_match : matchRef ('r' :: 'e' :: 'f' :: '=' :: ref) = some ref := by
    simp only [matchRef, List.drop_succ_cons, List.drop_zero, h_word]
    exact if_pos ⟨rfl, h⟩
  rw [replaceRefs_of_match h_match]
  have h_rest := h_skip ('e' :: 'f' :: '=' :: ref) true
  have h_length : ('e' :: 'f' :: '=' :: ref).length = 3 + ref.length := by
    rw [List.length_cons, List.length_cons, List.length_cons]
    omega
  rw [h_length] at h_rest
  have h_isWord : isWord 'r' = true := by decide
  rw [h_isWord, h_rest, List.append_nil]
  rfl

/-! ### Chunks -/

/-- A piece of a text, which begins with a stop. -/
structure Chunk where
  stop : Char
  body : List Char

namespace Chunk

/-- The text that chunks make up. -/
def text (chunks : List Chunk) : List Char := chunks.flatMap fun c => c.stop :: c.body

/-- References are replaced in a chunk. -/
def replace (pre : List Char) (c : Chunk) : Chunk :=
  { c with body := replaceRefs pre 0 false c.body }

theorem text_cons (c : Chunk) (chunks : List Chunk) :
    text (c :: chunks) = c.stop :: (c.body ++ text chunks) := List.flatMap_cons

theorem text_append (chunks chunks' : List Chunk) :
    text (chunks ++ chunks') = text chunks ++ text chunks' := List.flatMap_append

/-- **References are replaced in each chunk on its own.** -/
theorem replaceRefs_text {chunks : List Chunk} (h : ∀ c ∈ chunks, isStop c.stop = true) :
    replaceRefs pre 0 false (text chunks) = text (chunks.map (replace pre)) := by
  have h_behind : ∀ p, replaceRefs pre 0 false (p ++ text chunks) =
      replaceRefs pre 0 false p ++ text (chunks.map (replace pre)) := by
    induction chunks with
    | nil =>
      intro p
      rw [List.map_nil, text, List.flatMap_nil, List.append_nil, List.append_nil]
    | cons c chunks ih =>
      intro p
      obtain ⟨h_c, h_chunks⟩ := List.forall_mem_cons.mp h
      rw [text_cons, replaceRefs_append_stop h_c _ (Nat.zero_le _), ih h_chunks, List.map_cons,
        text_cons]
      rfl
  exact h_behind []

/-- Longer chunks give a longer text. -/
theorem length_text_le {chunks chunks' : List Chunk}
    (h : List.Forall₂ (fun c c' => c.body.length ≤ c'.body.length) chunks chunks') :
    (text chunks).length ≤ (text chunks').length := by
  induction h with
  | nil => exact le_rfl
  | cons h_body _ ih =>
    simp only [text_cons, List.length_cons, List.length_append]
    omega

/-- Texts with chunks that are no shorter differ, or no chunk differs. -/
theorem eq_of_text_eq {chunks chunks' : List Chunk}
    (h : List.Forall₂ (fun c c' => c.body.length ≤ c'.body.length) chunks chunks')
    (h_text : text chunks = text chunks') : chunks = chunks' := by
  induction h with
  | nil => rfl
  | @cons c c' chunks chunks' h_body h_chunks ih =>
    rw [text_cons, text_cons, List.cons_eq_cons] at h_text
    obtain ⟨h_stop, h_rest⟩ := h_text
    -- No later chunk is shorter, so this one cannot be longer either.
    have h_le := length_text_le h_chunks
    have h_length := congrArg List.length h_rest
    rw [List.length_append, List.length_append] at h_length
    obtain ⟨h_eq, h_tail⟩ := List.append_inj h_rest (by omega)
    obtain ⟨stop, body⟩ := c
    obtain ⟨stop', body'⟩ := c'
    obtain rfl : stop = stop' := h_stop
    obtain rfl : body = body' := h_eq
    rw [ih h_tail]

end Chunk

/-! ### Lines -/

/-- An attribute with its value. -/
def attributeChunks (key value : String) : List Chunk :=
  [⟨' ', key.toList ++ ['=']⟩, ⟨'"', (escapeAi value).toList⟩, ⟨'"', []⟩]

/-- The chunk of the role. -/
def roleChunk (role : String) : Chunk := ⟨' ', "role=".toList ++ role.toList⟩

/-- What follows the reference in a line. -/
def restChunks (node : NodeDescription) : List Chunk :=
  node.role.toList.map roleChunk ++
    node.attributes.flatMap (fun a => attributeChunks a.1 a.2) ++
    node.value.toList.flatMap (attributeChunks "value") ++
    [⟨'>', (escapeAi (aiText node)).toList⟩, ⟨'<', []⟩, ⟨'/', node.tag.toList⟩, ⟨'>', []⟩]

/-- The chunks of a line, with the line break in front of it. -/
def lineChunks (node : NodeDescription) : List Chunk :=
  ⟨'\n', []⟩ :: ⟨'<', node.tag.toList⟩ :: ⟨' ', "ref=".toList ++ node.nodeRef.toList⟩ ::
    restChunks node

theorem toList_intercalate_cons (sep : Char) (s : String) (l : List String) :
    (String.intercalate (.ofList [sep]) (s :: l)).toList =
      s.toList ++ l.flatMap fun s' => sep :: s'.toList := by
  rw [String.toList_intercalate, String.toList_ofList, List.map_cons]
  induction l generalizing s with
  | nil => simp [List.intercalate]
  | cons s' l ih =>
    rw [List.map_cons, List.intercalate_cons_cons, ih, List.flatMap_cons]
    simp

/-- The chunks of an attribute are its text. -/
theorem text_attributeChunks (key value : String) :
    Chunk.text (attributeChunks key value) = ' ' :: (aiAttribute key value).toList := by
  simp [attributeChunks, aiAttribute, Chunk.text]

/-- The text of many chunks, one after the other. -/
theorem text_flatMap {α : Type*} (l : List α) (f : α → List Chunk) :
    Chunk.text (l.flatMap f) = l.flatMap fun a => Chunk.text (f a) := List.flatMap_assoc

/-- A line, after a line break. -/
theorem toList_aiLine (node : NodeDescription) :
    '\n' :: (aiLine node).toList = Chunk.text (lineChunks node) := by
  have h_space : " " = String.ofList [' '] := rfl
  rw [aiLine, lineChunks, restChunks, h_space]
  simp only [List.cons_append, List.nil_append, List.append_assoc, toList_intercalate_cons,
    List.flatMap_append, List.flatMap_map, Chunk.text_append, Chunk.text_cons, text_flatMap,
    text_attributeChunks, String.toList_append]
  simp [Chunk.text, List.flatMap_map, roleChunk]

/-- The chunks of the lines are the AI-DOM. -/
theorem toList_intercalate_aiLine {nodes : List NodeDescription} (h : nodes ≠ []) :
    '\n' :: (String.intercalate "\n" (nodes.map aiLine)).toList =
      Chunk.text (nodes.flatMap lineChunks) := by
  have h_break : "\n" = String.ofList ['\n'] := rfl
  cases nodes with
  | nil => contradiction
  | cons node nodes =>
    rw [h_break, List.map_cons, toList_intercalate_cons, List.flatMap_map, List.flatMap_cons,
      Chunk.text_append, text_flatMap, ← toList_aiLine]
    simp only [← toList_aiLine, List.cons_append]

/-- Every chunk of a line begins with a stop. -/
theorem isStop_of_mem_lineChunks {node : NodeDescription} {c : Chunk} (hc : c ∈ lineChunks node) :
    isStop c.stop = true := by
  have h_stops : ∀ stop ∈ ['\n', '<', ' ', '"', '>', '/'], isStop stop = true := by decide
  refine h_stops c.stop ?_
  simp only [lineChunks, restChunks, attributeChunks, roleChunk, List.mem_cons, List.mem_append,
    List.mem_map, List.mem_flatMap, List.not_mem_nil] at hc ⊢
  grind

/-! ### What the page writes -/

/-- What the page has written in the line of an element. -/
def pieces (node : NodeDescription) : List String :=
  node.tag :: node.role.toList ++ node.attributes.map (fun a => escapeAi a.2) ++
    node.value.toList.map escapeAi ++ [escapeAi (aiText node)]

/-- `/\bref=([a-z]\d+)\b/.test(text)` -/
def containsRef (text : String) : Bool := hasRef false text.toList

/-- A runtime's node: references are letters and digits, and attributes have the names that are
described. -/
structure IsCaptured (node : NodeDescription) : Prop where
  ref : isRef node.nodeRef.toList = true
  keys : ∀ a ∈ node.attributes, a.1 ∈ attributeNames

/-- The description of a node that is captured. -/
theorem isCaptured_of_mem {browser : Browser} {options : SnapshotOptions} {document : List Element}
    {node : NodeDescription} (h : node ∈ captureNodes browser options document) :
    IsCaptured node := by
  obtain ⟨index, h_index, rfl⟩ := List.mem_mapIdx.mp h
  constructor
  · show isRef (captureRef index).toList = true
    -- A reference is `e` and the digits of a number.
    have h_digits : ∀ c ∈ Nat.toDigits 10 (index + 1), c.isDigit = true :=
      fun c hc => Nat.isDigit_of_mem_toDigits (by decide) (by decide) hc
    rw [captureRef, String.toList_append, Nat.toList_repr]
    cases h_eq : Nat.toDigits 10 (index + 1) with
    | nil => exact absurd h_eq Nat.toDigits_ne_nil
    | cons d ds => exact List.all_eq_true.mpr (h_eq ▸ h_digits)
  · intro a ha
    obtain ⟨name, h_name, h_value⟩ := List.mem_filterMap.mp ha
    obtain ⟨value, -, rfl⟩ := Option.map_eq_some_iff.mp h_value
    exact h_name

/-- What stands before a role is no reference. -/
theorem hasRef_role (role : List Char) :
    hasRef false ("role=".toList ++ role) = hasRef false role := by
  have h_toList : "role=".toList = ['r', 'o', 'l', 'e', '='] := rfl
  have h_match : matchRef ('r' :: 'o' :: 'l' :: 'e' :: '=' :: role) = none := by
    rw [matchRef, if_neg]
    intro h
    have h_second := (List.cons_eq_cons.mp (List.cons_eq_cons.mp h.1).2).1
    exact absurd h_second (by decide)
  have h_letters : ∀ c ∈ ['r', 'o', 'l', 'e'], isWord c = true := by decide
  have h_equals : isWord '=' = false := by decide
  rw [h_toList]
  simp only [List.cons_append, List.nil_append, hasRef, h_match, h_letters, List.mem_cons, true_or,
    or_true, h_equals]
  rfl

/-- Nor is the name of an attribute. -/
theorem hasRef_key :
    ∀ key ∈ "value" :: attributeNames, hasRef false (key.toList ++ ['=']) = false := by
  decide

/-- An attribute is untouched just where its value holds no reference. -/
theorem forall_attributeChunks {key : String} (h : key ∈ "value" :: attributeNames)
    (value : String) :
    (∀ c ∈ attributeChunks key value, hasRef false c.body = false) ↔
      containsRef (escapeAi value) = false := by
  simp [attributeChunks, hasRef_key key h, containsRef, hasRef]

/-- A line is untouched just where none of its pieces holds a reference. -/
theorem forall_restChunks {node : NodeDescription} (h : IsCaptured node) :
    (containsRef node.tag = false ∧ ∀ c ∈ restChunks node, hasRef false c.body = false) ↔
      ∀ piece ∈ pieces node, containsRef piece = false := by
  -- the chunks of the line, one kind after the other
  have h_roles : (∀ c ∈ node.role.toList.map roleChunk, hasRef false c.body = false) ↔
      ∀ role ∈ node.role.toList, containsRef role = false := by
    rw [List.forall_mem_map]
    refine forall₂_congr fun role _ => ?_
    rw [roleChunk, hasRef_role, containsRef]
  have h_attributes : (∀ c ∈ node.attributes.flatMap fun a => attributeChunks a.1 a.2,
      hasRef false c.body = false) ↔
        ∀ piece ∈ node.attributes.map (fun a => escapeAi a.2), containsRef piece = false := by
    rw [List.forall_mem_flatMap, List.forall_mem_map]
    refine forall₂_congr fun a ha => ?_
    exact forall_attributeChunks (List.mem_cons_of_mem _ (h.keys a ha)) a.2
  have h_values : (∀ c ∈ node.value.toList.flatMap (attributeChunks "value"),
      hasRef false c.body = false) ↔
        ∀ piece ∈ node.value.toList.map escapeAi, containsRef piece = false := by
    rw [List.forall_mem_flatMap, List.forall_mem_map]
    refine forall₂_congr fun value _ => ?_
    exact forall_attributeChunks List.mem_cons_self value
  have h_end : (∀ c ∈ [(⟨'>', (escapeAi (aiText node)).toList⟩ : Chunk), ⟨'<', []⟩,
      ⟨'/', node.tag.toList⟩, ⟨'>', []⟩], hasRef false c.body = false) ↔
        containsRef (escapeAi (aiText node)) = false ∧ containsRef node.tag = false := by
    simp [hasRef, containsRef]
  simp only [restChunks, pieces, List.forall_mem_append, h_roles, h_attributes, h_values, h_end]
  rw [List.forall_mem_cons, List.forall_mem_singleton]
  constructor
  -- they come in the order of the line, the condition names them in its own
  · rintro ⟨h_tag, ⟨⟨h_role, h_attribute⟩, h_value⟩, h_text, -⟩
    exact ⟨⟨⟨⟨h_tag, h_role⟩, h_attribute⟩, h_value⟩, h_text⟩
  · rintro ⟨⟨⟨⟨h_tag, h_role⟩, h_attribute⟩, h_value⟩, h_text⟩
    exact ⟨h_tag, ⟨⟨h_role, h_attribute⟩, h_value⟩, h_text, h_tag⟩

/-! ### Two ways to publish a frame -/

/-- A chunk is untouched just where it holds no reference. -/
theorem Chunk.replace_eq_self_iff (h_pre : pre ≠ []) {c : Chunk} :
    c.replace pre = c ↔ hasRef false c.body = false := by
  rw [← replaceRefs_eq_self_iff h_pre]
  constructor
  · exact congrArg Chunk.body
  · intro h_body
    obtain ⟨stop, body⟩ := c
    exact congrArg (Chunk.mk stop) h_body

/-- Replacing makes a chunk longer. -/
theorem Chunk.length_le_replace (pre : List Char) (c : Chunk) :
    c.body.length ≤ (c.replace pre).body.length := length_le_replaceRefs 0 false c.body

theorem framePrefix_ne_nil (frameID : ℕ) : (framePrefix frameID).toList ≠ [] := by
  simp [framePrefix]

section

variable {frameID : ℕ} {node : NodeDescription}

/-- The reference of a line is replaced as it should be, whatever else is. -/
theorem replace_lineChunks (h : IsCaptured node) :
    (lineChunks node).map (Chunk.replace (framePrefix frameID).toList) =
      ⟨'\n', []⟩ :: Chunk.replace (framePrefix frameID).toList ⟨'<', node.tag.toList⟩ ::
        ⟨' ', "ref=".toList ++ (publishedNode frameID node).nodeRef.toList⟩ ::
        (restChunks node).map (Chunk.replace (framePrefix frameID).toList) := by
  have h_ref : Chunk.replace (framePrefix frameID).toList
      ⟨' ', "ref=".toList ++ node.nodeRef.toList⟩ =
        ⟨' ', "ref=".toList ++ (publishedNode frameID node).nodeRef.toList⟩ := by
    refine congrArg (Chunk.mk ' ') ((replaceRefs_ref h.ref).trans ?_)
    rw [publishedNode, String.toList_append]
    rfl
  rw [lineChunks, List.map_cons, List.map_cons, List.map_cons, h_ref]
  rfl

/-- The chunks of the line with the reference of the frame. -/
theorem lineChunks_publishedNode (frameID : ℕ) (node : NodeDescription) :
    lineChunks (publishedNode frameID node) = ⟨'\n', []⟩ :: ⟨'<', node.tag.toList⟩ ::
      ⟨' ', "ref=".toList ++ (publishedNode frameID node).nodeRef.toList⟩ :: restChunks node := rfl

/-- The lines that are compared have chunks of the same or greater length. -/
theorem forall₂_lineChunks (h : IsCaptured node) :
    List.Forall₂ (fun c c' => c.body.length ≤ c'.body.length)
      (lineChunks (publishedNode frameID node))
      ((lineChunks node).map (Chunk.replace (framePrefix frameID).toList)) := by
  rw [replace_lineChunks h, lineChunks_publishedNode]
  refine .cons le_rfl (.cons (Chunk.length_le_replace ..) (.cons le_rfl ?_))
  rw [List.forall₂_map_right_iff, List.forall₂_same]
  exact fun c _ => Chunk.length_le_replace _ c

/-- The line is as it should be just where no other piece holds a reference. -/
theorem lineChunks_eq_iff (h : IsCaptured node) :
    lineChunks (publishedNode frameID node) =
        (lineChunks node).map (Chunk.replace (framePrefix frameID).toList) ↔
      ∀ piece ∈ pieces node, containsRef piece = false := by
  have h_pre := framePrefix_ne_nil frameID
  -- the chunks behind the tag are replaced one by one
  have h_rest : restChunks node =
    (restChunks node).map (Chunk.replace (framePrefix frameID).toList) ↔
      ∀ c ∈ restChunks node, hasRef false c.body = false := by
    have h_map := List.map_inj_left (l := restChunks node) (f := id)
      (g := Chunk.replace (framePrefix frameID).toList)
    rw [List.map_id] at h_map
    rw [h_map]
    refine forall₂_congr fun c _ => ?_
    rw [id, eq_comm, Chunk.replace_eq_self_iff h_pre]
  have h_tag : (⟨'<', node.tag.toList⟩ : Chunk) =
      Chunk.replace (framePrefix frameID).toList ⟨'<', node.tag.toList⟩ ↔
        containsRef node.tag = false := by
    rw [eq_comm, Chunk.replace_eq_self_iff h_pre, containsRef]
  rw [replace_lineChunks h, lineChunks_publishedNode, List.cons_inj_right, List.cons_eq_cons, h_tag,
    List.cons_inj_right, h_rest, forall_restChunks h]

end

/-- Concatenations of pieces of the same lengths are equal if and only if all pieces are. -/
theorem flatMap_eq_iff {α β : Type*} {l : List α} {f g : α → List β}
    (h : ∀ a ∈ l, (f a).length = (g a).length) :
    l.flatMap f = l.flatMap g ↔ ∀ a ∈ l, f a = g a := by
  induction l with
  | nil => exact iff_of_true rfl (List.forall_mem_nil _)
  | cons a l ih =>
    obtain ⟨h_a, h_l⟩ := List.forall_mem_cons.mp h
    rw [List.flatMap_cons, List.flatMap_cons, List.forall_mem_cons, ← ih h_l]
    exact ⟨fun h_eq => List.append_inj h_eq h_a, fun h_eq => congrArg₂ _ h_eq.1 h_eq.2⟩

/-- **Published text and published nodes.** The AI DOM that the extension publishes for a frame is
what its published nodes render to, if and only if nothing that the page has written in a line has a
reference in it. -/
theorem aiDom_eq_iff (browser : Browser) (options : SnapshotOptions) (document : List Element)
    (frameID : ℕ) :
    publishedAiDom frameID (capture browser options document).aiDom =
        String.intercalate "\n"
          (((capture browser options document).nodes.map (publishedNode frameID)).map aiLine) ↔
      ∀ node ∈ (capture browser options document).nodes, ∀ piece ∈ pieces node,
        containsRef piece = false := by
  have h_captured : ∀ node ∈ (capture browser options document).nodes, IsCaptured node :=
    fun node h => isCaptured_of_mem h
  have h_aiDom : (capture browser options document).aiDom =
      String.intercalate "\n" ((capture browser options document).nodes.map aiLine) := rfl
  rw [h_aiDom]
  generalize (capture browser options document).nodes = nodes at h_captured ⊢
  -- without nodes both texts are empty, and no line break was put before them
  by_cases h_nodes : nodes = []
  · subst h_nodes
    exact iff_of_true rfl (List.forall_mem_nil _)
  have h_stop : ∀ c ∈ nodes.flatMap lineChunks, isStop c.stop = true := by
    intro c hc
    obtain ⟨node, -, hc⟩ := List.mem_flatMap.mp hc
    exact isStop_of_mem_lineChunks hc
  -- Both texts, after a line break, as chunks.
  have h_published : '\n' :: (publishedAiDom frameID
      (String.intercalate "\n" (nodes.map aiLine))).toList =
        Chunk.text ((nodes.flatMap lineChunks).map
          (Chunk.replace (framePrefix frameID).toList)) := by
    rw [← Chunk.replaceRefs_text h_stop, ← toList_intercalate_aiLine h_nodes,
      replaceRefs_of_no_match (matchRef_stop (by decide) _), publishedAiDom, String.toList_ofList]
    rfl
  have h_rendered : '\n' :: (String.intercalate "\n"
      ((nodes.map (publishedNode frameID)).map aiLine)).toList =
        Chunk.text (nodes.flatMap fun node => lineChunks (publishedNode frameID node)) := by
    rw [toList_intercalate_aiLine (by simpa using h_nodes), List.flatMap_map]
  have h_forall₂ : List.Forall₂ (fun c c' => c.body.length ≤ c'.body.length)
      (nodes.flatMap fun node => lineChunks (publishedNode frameID node))
      (nodes.flatMap fun node =>
        (lineChunks node).map (Chunk.replace (framePrefix frameID).toList)) := by
    clear h_stop h_published h_rendered h_aiDom h_nodes
    induction nodes with
    | nil => exact .nil
    | cons node nodes ih =>
      obtain ⟨h_node, h_rest⟩ := List.forall_mem_cons.mp h_captured
      exact List.rel_append (forall₂_lineChunks h_node) (ih h_rest)
  rw [List.map_flatMap] at h_published
  -- A reference only becomes longer, so the texts are equal exactly chunk by chunk.
  have h_lengths : ∀ node ∈ nodes, (lineChunks (publishedNode frameID node)).length =
      ((lineChunks node).map (Chunk.replace (framePrefix frameID).toList)).length :=
    fun node h => (forall₂_lineChunks (h_captured node h)).length_eq
  have h_lines := forall₂_congr fun node h => @lineChunks_eq_iff frameID node (h_captured node h)
  rw [← h_lines, ← flatMap_eq_iff h_lengths, ← String.toList_inj]
  constructor
  · intro h_eq
    refine Chunk.eq_of_text_eq h_forall₂ ?_
    rw [← h_published, ← h_rendered, h_eq]
  · intro h_eq
    have h_text := h_rendered.trans (congrArg Chunk.text h_eq)
    exact (List.cons_inj_right _).mp (h_published.trans h_text.symm)

/-- A field of a page, with a value. -/
def field (value : String) : Element :=
  .mk 0 { tagName := "input", control := some .input, value := value } [] []

/-- A page can write something that looks like a reference. -/
theorem not_aiDom_eq_writtenReference :
    ¬ ∀ (browser : Browser) (options : SnapshotOptions) (document : List Element) (frameID : ℕ),
      publishedAiDom frameID (capture browser options document).aiDom =
        String.intercalate "\n"
          (((capture browser options document).nodes.map (publishedNode frameID)).map aiLine) := by
  intro h
  have h_eq := h plain {} [field "ref=a1"] 0
  exact absurd h_eq (by decide +kernel)

end BrowserControl.LocatorRuntime
