import Mathlib.Data.List.Basic
import Mathlib.Data.List.Infix

/-!
# Paths

Unix paths as texts, and what can be said of them without a look at the disk. `clean` is the
shortest path that is lexically the same, so that `..` takes away the name before it; `rel` tells
how to get from one path to another.

A rooted path that is clean is the list of its names (`elements_render`). Whether a path is below
another one is decided by texts, but is about these lists: `rel` does not begin with `..` if and
only if the names of the one path begin with those of the other (`inside_rel_iff`). So a name such
as `..a` is an ordinary one, and `ab` is not below `a`.
-/

namespace FileSystem

/-! ### Names -/

/-- `.` -/
def dot : List Char := ['.']

/-- `..` -/
def dotDot : List Char := ['.', '.']

/-- A name that a directory can have for a file. -/
structure IsName (c : List Char) : Prop where
  ne_nil : c ≠ []
  ne_dot : c ≠ dot
  ne_dotDot : c ≠ dotDot
  slash : '/' ∉ c

/-- The path begins at the root. -/
def isAbs (p : List Char) : Bool := p.head? = some '/'

/-- The texts between the slashes, of which some can be empty. -/
def pieces (p : List Char) : List (List Char) := p.splitOn '/'

/-- The names so far, and one piece more. At the root there is nothing to go back to. -/
def push (rooted : Bool) (dest : List (List Char)) (piece : List Char) : List (List Char) :=
  if piece = [] ∨ piece = dot then dest
  else if piece = dotDot then
    if dest = [] ∨ dest.getLast? = some dotDot then if rooted then dest else dest ++ [dotDot]
    else dest.dropLast
  else dest ++ [piece]

/-- The names of a path. -/
def elements (p : List Char) : List (List Char) := (pieces p).foldl (push (isAbs p)) []

/-- How the elements of a path are written. -/
def render (rooted : Bool) (names : List (List Char)) : List Char :=
  if rooted then '/' :: ['/'].intercalate names
  else if names = [] then dot
  else ['/'].intercalate names

/-- `filepath.Clean` -/
def clean (p : List Char) : List Char := render (isAbs p) (elements p)

/-- What is left of two lists after all that they have in common at the beginning. -/
def stripCommon : List (List Char) → List (List Char) → List (List Char) × List (List Char)
  | b :: bs, t :: ts => if b = t then stripCommon bs ts else (b :: bs, t :: ts)
  | bs, ts => (bs, ts)

/-- `filepath.Rel`, for a rooted target. -/
def rel (base target : List Char) : Option (List Char) :=
  if clean target = clean base then some dot
  else if isAbs base then
    let (up, down) := stripCommon (elements base) (elements target)
    some (['/'].intercalate (up.map (fun _ => dotDot) ++ down))
  else none

/-- The relative path leads nowhere but down. -/
def inside (relative : List Char) : Bool :=
  relative = dot || relative ≠ dotDot && !(dotDot ++ ['/']).isPrefixOf relative

example : inside "..a/b".toList = true := by decide

/-! ### Pieces -/

/-- No piece has a slash in it. -/
theorem slash_notMem_pieces {p c : List Char} (h : c ∈ pieces p) : '/' ∉ c := by
  induction p generalizing c with
  | nil =>
    obtain rfl := List.mem_singleton.mp h
    exact List.not_mem_nil
  | cons d p ih =>
    rw [pieces, List.splitOn_cons_eq_if_modifyHead] at h
    -- a slash begins a new piece, another character goes to the first one
    split at h
    · obtain rfl | h_mem := List.mem_cons.mp h
      · exact List.not_mem_nil
      · exact ih h_mem
    · rename_i h_slash
      cases h_split : p.splitOn '/' with
      | nil => exact absurd h_split (List.splitOn_ne_nil _ _)
      | cons first rest =>
        rw [h_split, List.modifyHead_cons] at h
        obtain rfl | h_mem := List.mem_cons.mp h
        · refine List.not_mem_cons_of_ne_of_not_mem ?_ (ih ?_)
          · intro h_eq
            exact h_slash (beq_iff_eq.mpr h_eq.symm)
          · rw [pieces, h_split]
            exact List.mem_cons_self
        · refine ih ?_
          rw [pieces, h_split]
          exact List.mem_cons_of_mem _ h_mem

/-- A slash at the front gives an empty piece. -/
theorem pieces_slash (p : List Char) : pieces ('/' :: p) = [] :: pieces p := by
  rw [pieces, List.splitOn_cons_eq_if_modifyHead, if_pos (beq_self_eq_true _)]
  rfl

/-- Names that are joined by slashes are found again. -/
theorem pieces_intercalate {names : List (List Char)} (h : ∀ c ∈ names, IsName c)
    (h_ne : names ≠ []) : pieces (['/'].intercalate names) = names :=
  List.splitOn_intercalate '/' (fun c hc => (h c hc).slash) h_ne

/-! ### Rooted paths -/

/-- Where what is pushed comes from. In a rooted path it is no `..`. -/
theorem mem_push {rooted : Bool} {dest : List (List Char)} {piece c : List Char}
    (h : c ∈ push rooted dest piece) :
    c ∈ dest ∨ rooted = false ∧ c = dotDot ∨
      c = piece ∧ piece ≠ [] ∧ piece ≠ dot ∧ piece ≠ dotDot := by
  unfold push at h
  -- empty pieces and `.` are passed over, `..` takes a piece away or stays
  split at h
  · exact .inl h
  · rename_i h_skip
    rw [not_or] at h_skip
    split at h
    · split at h
      · cases rooted with
        | true => exact .inl h
        | false =>
          obtain h_old | h_new := List.mem_append.mp h
          · exact .inl h_old
          · exact .inr (.inl ⟨rfl, List.mem_singleton.mp h_new⟩)
      · exact .inl (List.mem_of_mem_dropLast h)
    · rename_i h_dotDot
      obtain h_old | h_new := List.mem_append.mp h
      · exact .inl h_old
      · exact .inr (.inr ⟨List.mem_singleton.mp h_new, h_skip.1, h_skip.2, h_dotDot⟩)

/-- What one piece after another keeps, all of them keep. -/
theorem forall_foldl_push {P : List Char → Prop} {rooted : Bool}
    (h_push : ∀ dest piece, '/' ∉ piece → (∀ c ∈ dest, P c) → ∀ c ∈ push rooted dest piece, P c)
    {ps : List (List Char)} (h_slash : ∀ p ∈ ps, '/' ∉ p) {dest : List (List Char)}
    (h : ∀ c ∈ dest, P c) : ∀ c ∈ ps.foldl (push rooted) dest, P c := by
  induction ps generalizing dest with
  | nil => exact h
  | cons p ps ih =>
    rw [List.forall_mem_cons] at h_slash
    exact ih h_slash.2 (h_push dest p h_slash.1 h)

/-- Along a rooted path only names are kept. -/
theorem isName_push (dest : List (List Char)) (piece : List Char) (h_slash : '/' ∉ piece)
    (h : ∀ c ∈ dest, IsName c) : ∀ c ∈ push true dest piece, IsName c := by
  intro c hc
  obtain h_old | ⟨h_rooted, -⟩ | ⟨rfl, h_ne, h_dot, h_dotDot⟩ := mem_push hc
  · exact h c h_old
  · cases h_rooted
  · exact ⟨h_ne, h_dot, h_dotDot, h_slash⟩

/-- The elements of an absolute path are names. -/
theorem isName_elements {p : List Char} (h_abs : isAbs p = true) : ∀ c ∈ elements p, IsName c := by
  rw [elements, h_abs]
  refine forall_foldl_push isName_push (fun _ h => slash_notMem_pieces h) ?_
  intro c hc
  cases hc

/-- A name is kept as it is. -/
theorem push_name {c : List Char} (h : IsName c) (rooted : Bool) (dest : List (List Char)) :
    push rooted dest c = dest ++ [c] := by
  rw [push, if_neg (not_or.mpr ⟨h.ne_nil, h.ne_dot⟩), if_neg h.ne_dotDot]

theorem foldl_push_names {names : List (List Char)} (h : ∀ c ∈ names, IsName c) (rooted : Bool)
    (dest : List (List Char)) : names.foldl (push rooted) dest = dest ++ names := by
  induction names generalizing dest with
  | nil => exact (List.append_nil _).symm
  | cons c names ih =>
    rw [List.forall_mem_cons] at h
    rw [List.foldl_cons, push_name h.1, ih h.2, List.append_assoc, List.singleton_append]

/-- A rooted path is absolute. -/
theorem isAbs_render (names : List (List Char)) : isAbs (render true names) = true := rfl

/-- **A clean rooted path is the list of its names.** -/
theorem elements_render {names : List (List Char)} (h : ∀ c ∈ names, IsName c) :
    elements (render true names) = names := by
  rw [elements, isAbs_render, render, if_pos rfl, pieces_slash, List.foldl_cons]
  have h_first : push true [] [] = [] := rfl
  rw [h_first]
  by_cases h_nil : names = []
  · subst h_nil
    rfl
  · rw [pieces_intercalate h h_nil, foldl_push_names h, List.nil_append]

/-- A clean absolute path is the one of its elements. -/
theorem clean_eq_render {p : List Char} (h_abs : isAbs p = true) :
    clean p = render true (elements p) := by
  rw [clean, h_abs]

/-- What is written from names is clean. -/
theorem clean_render {names : List (List Char)} (h : ∀ c ∈ names, IsName c) :
    clean (render true names) = render true names := by
  rw [clean_eq_render (isAbs_render names), elements_render h]

/-! ### Relative paths -/

/-- Both lists begin with what they have in common. -/
theorem stripCommon_eq (bs ts : List (List Char)) :
    ∃ common, bs = common ++ (stripCommon bs ts).1 ∧ ts = common ++ (stripCommon bs ts).2 := by
  -- Along both lists, as long as the components agree.
  induction bs generalizing ts with
  | nil => exact ⟨[], rfl, rfl⟩
  | cons b bs ih =>
    cases ts with
    | nil => exact ⟨[], rfl, rfl⟩
    | cons t ts =>
      rw [stripCommon]
      split
      · rename_i h_eq
        obtain ⟨common, h_left, h_right⟩ := ih ts
        refine ⟨b :: common, ?_, ?_⟩
        · rw [List.cons_append, ← h_left]
        · rw [List.cons_append, ← h_right, h_eq]
      · exact ⟨[], rfl, rfl⟩

/-- Nothing is left of the first path where it is a prefix of the second. -/
theorem stripCommon_eq_nil_iff {bs ts : List (List Char)} :
    (stripCommon bs ts).1 = [] ↔ bs <+: ts := by
  constructor
  · intro h_nil
    obtain ⟨common, h_left, h_right⟩ := stripCommon_eq bs ts
    rw [h_nil, List.append_nil] at h_left
    subst h_left
    exact ⟨_, h_right.symm⟩
  · rintro ⟨rest, rfl⟩
    induction bs with
    | nil => cases rest <;> rfl
    | cons b bs ih =>
      rw [List.cons_append, stripCommon, if_pos rfl]
      exact ih

/-- The text of a relative path begins with its first name. -/
theorem takeWhile_intercalate {c : List Char} (h : '/' ∉ c) (cs : List (List Char)) :
    (['/'].intercalate (c :: cs)).takeWhile (· ≠ '/') = c := by
  -- No character of the first component is a slash.
  have h_take : ∀ d ∈ c, decide (d ≠ '/') = true := by
    intro d hd
    refine decide_eq_true ?_
    rintro rfl
    exact h hd
  cases cs with
  | nil =>
    have h_all : (c ++ []).takeWhile (· ≠ '/') = c ++ [].takeWhile (· ≠ '/') :=
      List.takeWhile_append_of_pos h_take
    rw [List.append_nil, List.takeWhile_nil, List.append_nil] at h_all
    rwa [List.intercalate_singleton]
  | cons c' cs =>
    have h_cons : ['/'].intercalate (c :: c' :: cs) = c ++ '/' :: ['/'].intercalate (c' :: cs) := by
      simp [List.intercalate_cons_cons]
    rw [h_cons, List.takeWhile_append_of_pos h_take, List.takeWhile_cons_of_neg (by decide),
      List.append_nil]

/-- What does not lead down only, begins with `..`. -/
theorem takeWhile_of_not_inside {r : List Char} (h : inside r = false) :
    r.takeWhile (· ≠ '/') = dotDot := by
  rw [inside, Bool.or_eq_false_iff, Bool.and_eq_false_iff] at h
  obtain ⟨-, h_ne | h_prefix⟩ := h
  · obtain rfl : r = dotDot := by simpa using h_ne
    rfl
  · rw [Bool.not_eq_false', List.isPrefixOf_iff_prefix] at h_prefix
    obtain ⟨rest, rfl⟩ := h_prefix
    rfl

/-- A relative path that begins with a name leads inside. -/
theorem inside_of_name {c : List Char} (h : IsName c) (cs : List (List Char)) :
    inside (['/'].intercalate (c :: cs)) = true := by
  by_contra h_not
  have h_take := takeWhile_of_not_inside (Bool.eq_false_iff.mpr h_not)
  rw [takeWhile_intercalate h.slash] at h_take
  exact h.ne_dotDot h_take

/-- One that begins with `..` does not. -/
theorem not_inside_of_dotDot (cs : List (List Char)) :
    inside (['/'].intercalate (dotDot :: cs)) = false := by
  cases cs with
  | nil => rfl
  | cons c cs => rfl

/-- A relative path is not rooted. -/
theorem isAbs_intercalate {c : List Char} (h_ne : c ≠ []) (h_slash : '/' ∉ c)
    (cs : List (List Char)) : isAbs (['/'].intercalate (c :: cs)) = false := by
  have h_take := takeWhile_intercalate h_slash cs
  cases h_text : ['/'].intercalate (c :: cs) with
  | nil => rfl
  | cons d ds =>
    rw [h_text] at h_take
    refine decide_eq_false ?_
    rw [List.head?_cons, Option.some_inj]
    rintro rfl
    rw [List.takeWhile_cons_of_neg (by decide)] at h_take
    exact h_ne h_take.symm

/-- `Clean` keeps an absolute path absolute. -/
theorem isAbs_clean (p : List Char) : isAbs (clean p) = isAbs p := by
  cases h_abs : isAbs p with
  | true =>
    rw [clean_eq_render h_abs]
    rfl
  -- the first element does not begin with a slash
  | false =>
    have h_elements : ∀ c ∈ elements p, c ≠ [] ∧ '/' ∉ c := by
      refine forall_foldl_push ?_ (fun _ h => slash_notMem_pieces h) ?_
      · intro dest piece h_slash h c hc
        obtain h_old | ⟨-, rfl⟩ | ⟨rfl, h_ne, -⟩ := mem_push hc
        · exact h c h_old
        · exact ⟨by decide, by decide⟩
        · exact ⟨h_ne, h_slash⟩
      · intro c hc
        cases hc
    rw [clean, h_abs, render, if_neg Bool.false_ne_true]
    split
    · rfl
    · cases h_eq : elements p with
      | nil => contradiction
      | cons c cs =>
        obtain ⟨h_ne, h_slash⟩ := h_elements c (h_eq ▸ List.mem_cons_self)
        exact isAbs_intercalate h_ne h_slash cs

/-- **What is below a path.** Texts decide it, but it is about names: the relative path from one
rooted path to another leads down only if and only if the names of the one begin the other. -/
theorem inside_rel_iff {base target : List Char} (h_target : isAbs target = true) :
    (∃ r, rel base target = some r ∧ isAbs r = false ∧ inside r = true) ↔
      isAbs base = true ∧ elements base <+: elements target := by
  unfold rel
  by_cases h_same : clean target = clean base
  -- the base itself: `.`
  · rw [if_pos h_same]
    refine iff_of_true ⟨dot, rfl, rfl, rfl⟩ ?_
    have h_base : isAbs base = true := by
      rw [← isAbs_clean, ← h_same, isAbs_clean]
      exact h_target
    refine ⟨h_base, ?_⟩
    rw [clean_eq_render h_target, clean_eq_render h_base] at h_same
    have h_elements := congrArg elements h_same
    rw [elements_render (isName_elements h_target), elements_render (isName_elements h_base)]
      at h_elements
    rw [h_elements]
  · rw [if_neg h_same]
    by_cases h_base : isAbs base = true
    -- The rest of the target below the base, after a `..` for each element of the base that is
    -- left.
    · rw [if_pos h_base]
      have h_names := isName_elements h_target
      rw [and_iff_right h_base, ← stripCommon_eq_nil_iff]
      obtain ⟨common, h_left, h_right⟩ := stripCommon_eq (elements base) (elements target)
      generalize stripCommon (elements base) (elements target) = stripped at h_left h_right ⊢
      obtain ⟨up, down⟩ := stripped
      dsimp only at h_left h_right ⊢
      cases up with
      | cons b up =>
        refine iff_of_false ?_ (List.cons_ne_nil _ _)
        rintro ⟨r, h_rel, -, h_inside⟩
        obtain rfl := Option.some.inj h_rel
        rw [List.map_cons, List.cons_append, not_inside_of_dotDot] at h_inside
        cases h_inside
      | nil =>
        refine iff_of_true ?_ rfl
        cases down with
        | nil =>
          -- Then the paths are the same.
          rw [clean_eq_render h_target, clean_eq_render h_base, h_left, h_right] at h_same
          exact absurd rfl h_same
        | cons c cs =>
          have h_name : IsName c := by
            refine h_names c ?_
            rw [h_right]
            exact List.mem_append_right _ List.mem_cons_self
          exact ⟨_, rfl, isAbs_intercalate h_name.ne_nil h_name.slash cs, inside_of_name h_name cs⟩
    -- A relative base has no relative path to an absolute target.
    · rw [if_neg h_base]
      refine iff_of_false ?_ (fun h => h_base h.1)
      rintro ⟨r, h_rel, -⟩
      cases h_rel

end FileSystem
