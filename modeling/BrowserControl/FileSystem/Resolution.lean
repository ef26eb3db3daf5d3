import BrowserControl.FileSystem.Path

/-!
# Symbolic links

A `Disk` tells of each path of names below the root what is there. `walk` follows a path piece by
piece: a link is replaced by its target, and `..` leads back from where the walk has come to, not
from the name before it. This is how `evalSymlinks` finds the path that has no link in it
(`Disk.Resolved`), and `stat` the file that a path leads to.
-/

namespace FileSystem

/-- What there can be under a path. -/
inductive Node where
  | directory
  | regular
  | symlink (target : List Char)
  | other
  deriving DecidableEq

/-- A disk, as a process sees it. -/
structure Disk where
  /-- `os.Lstat` -/
  node : List (List Char) → Option Node
  /-- `os.Getwd` -/
  getwd : Option (List Char)
  /-- `filepath.EvalSymlinks` of a path that does not begin at the root. -/
  evalRelative : List Char → Option (List Char)
  /-- How many links the system follows when it opens a path. -/
  maxLinks : ℕ

namespace Disk

variable (d : Disk)

/-- The walk along a path from `dest` on, up to a link; `follow` goes on from there. -/
def walkWith (follow : List (List Char) → List (List Char) → Option (List (List Char))) :
    List (List Char) → List (List Char) → Option (List (List Char))
  | dest, [] => some dest
  | dest, piece :: rest =>
    if piece = [] ∨ piece = dot then walkWith follow dest rest
    else if piece = dotDot then walkWith follow dest.dropLast rest
    else
      match d.node (dest ++ [piece]) with
      | some (.symlink target) => follow (if isAbs target then [] else dest) (pieces target ++ rest)
      | some .directory => walkWith follow (dest ++ [piece]) rest
      | some _ => if rest = [] then some (dest ++ [piece]) else none
      | none => none

/-- The walk along a path, on which a number of links is followed. -/
def walk : ℕ → List (List Char) → List (List Char) → Option (List (List Char))
  | 0 => d.walkWith fun _ _ => none
  | links + 1 => d.walkWith (walk links)

/-- `filepath.EvalSymlinks` -/
def evalSymlinks (p : List Char) : Option (List Char) :=
  if isAbs p then (d.walk 255 [] (pieces p)).map (render true) else d.evalRelative p

/-- `filepath.Abs` -/
def abs (p : List Char) : Option (List Char) :=
  if isAbs p then some (clean p)
  else d.getwd.map fun wd => clean (if p = [] then wd else wd ++ '/' :: p)

/-- `os.Stat`, of a path that begins at the root. -/
def stat (p : List Char) : Option Node :=
  (d.walk d.maxLinks [] (pieces p)).bind fun names =>
    if names = [] then some .directory else d.node names

/-! ### Resolved paths -/

/-- Every name on the way is there and is no link. -/
def Resolved (names : List (List Char)) : Prop :=
  ∀ way, way ≠ [] → way <+: names →
    ∃ node, d.node way = some node ∧ ∀ target, node ≠ .symlink target

variable {d}

/-- A walk keeps what its steps keep: one to a name that is no link, and one back. -/
theorem walkWith_keeps {P : List (List Char) → Prop}
    {follow : List (List Char) → List (List Char) → Option (List (List Char))} (h_root : P [])
    (h_back : ∀ dest, P dest → P dest.dropLast)
    (h_name : ∀ dest c node, P dest → IsName c → d.node (dest ++ [c]) = some node →
      (∀ target, node ≠ .symlink target) → P (dest ++ [c]))
    (h_follow : ∀ dest rest names, P dest → (∀ p ∈ rest, '/' ∉ p) →
      follow dest rest = some names → P names)
    {dest rest names : List (List Char)} (h : P dest) (h_slash : ∀ p ∈ rest, '/' ∉ p)
    (h_walk : d.walkWith follow dest rest = some names) : P names := by
  induction rest generalizing dest with
  | nil =>
    obtain rfl := Option.some.inj h_walk
    exact h
  | cons piece rest ih =>
    rw [List.forall_mem_cons] at h_slash
    rw [walkWith] at h_walk
    split at h_walk
    -- `.` and empty elements are passed over
    · exact ih h h_slash.2 h_walk
    · rename_i h_skip
      rw [not_or] at h_skip
      split at h_walk
      · exact ih (h_back dest h) h_slash.2 h_walk
      · rename_i h_dotDot
        have h_piece : IsName piece := ⟨h_skip.1, h_skip.2, h_dotDot, h_slash.1⟩
        cases h_node : d.node (dest ++ [piece]) with
        | none =>
          rw [h_node] at h_walk
          cases h_walk
        | some node =>
          rw [h_node] at h_walk
          cases node with
          | symlink target =>
            refine h_follow _ _ names ?_ ?_ h_walk
            · split
              · exact h_root
              · exact h
            · intro p hp
              obtain h_target | h_rest := List.mem_append.mp hp
              · exact slash_notMem_pieces h_target
              · exact h_slash.2 p h_rest
          | directory =>
            refine ih (h_name dest piece .directory h h_piece h_node ?_) h_slash.2 h_walk
            intro target h_eq
            cases h_eq
          | regular =>
            dsimp only at h_walk
            split at h_walk
            · obtain rfl := Option.some.inj h_walk
              refine h_name dest piece .regular h h_piece h_node ?_
              intro target h_eq
              cases h_eq
            · cases h_walk
          | other =>
            dsimp only at h_walk
            split at h_walk
            · obtain rfl := Option.some.inj h_walk
              refine h_name dest piece .other h h_piece h_node ?_
              intro target h_eq
              cases h_eq
            · cases h_walk

/-- What holds at the root and along every step holds where the walk ends. -/
theorem walk_keeps {P : List (List Char) → Prop} (h_root : P [])
    (h_back : ∀ dest, P dest → P dest.dropLast)
    (h_name : ∀ dest c node, P dest → IsName c → d.node (dest ++ [c]) = some node →
      (∀ target, node ≠ .symlink target) → P (dest ++ [c])) (links : ℕ)
    {dest rest names : List (List Char)} (h : P dest) (h_slash : ∀ p ∈ rest, '/' ∉ p)
    (h_walk : d.walk links dest rest = some names) : P names := by
  induction links generalizing dest rest names with
  | zero =>
    refine walkWith_keeps h_root h_back h_name ?_ h h_slash h_walk
    intro _ _ _ _ _ h_none
    cases h_none
  | succ links ih =>
    refine walkWith_keeps h_root h_back h_name ?_ h h_slash h_walk
    intro dest' rest' names' h' h_slash' h_walk'
    exact ih h' h_slash' h_walk'

/-- The root is resolved. -/
theorem Resolved.nil : d.Resolved [] := by
  intro way h_ne h_prefix
  exact absurd (List.prefix_nil.mp h_prefix) h_ne

/-- So is what is above a resolved path. -/
theorem Resolved.dropLast {names : List (List Char)} (h : d.Resolved names) :
    d.Resolved names.dropLast := by
  intro way h_ne h_way
  exact h way h_ne (h_way.trans (List.dropLast_prefix names))

/-- And what is below it without a link. -/
theorem Resolved.append {dest : List (List Char)} (h : d.Resolved dest) {c : List Char}
    {node : Node}
    (h_node : d.node (dest ++ [c]) = some node) (h_link : ∀ target, node ≠ .symlink target) :
    d.Resolved (dest ++ [c]) := by
  intro way h_ne h_prefix
  obtain rfl | h_way := List.prefix_concat_iff.mp h_prefix
  · exact ⟨node, h_node, h_link⟩
  · exact h way h_ne h_way

/-- **A resolved path** is a clean one, with no link on the way. -/
theorem evalSymlinks_spec {p q : List Char} (h_abs : isAbs p = true)
    (h : d.evalSymlinks p = some q) :
    ∃ names, q = render true names ∧ (∀ c ∈ names, IsName c) ∧ d.Resolved names := by
  rw [evalSymlinks, if_pos h_abs] at h
  obtain ⟨names, h_walk, rfl⟩ := Option.map_eq_some_iff.mp h
  refine ⟨names, rfl, ?_⟩
  have h_none : ∀ c ∈ ([] : List (List Char)), IsName c := List.forall_mem_nil _
  refine walk_keeps (P := fun names => (∀ c ∈ names, IsName c) ∧ d.Resolved names) ?_ ?_ ?_ 255 ?_
    (fun _ hp => slash_notMem_pieces hp) h_walk
  · exact ⟨h_none, .nil⟩
  · rintro dest ⟨h_names, h_resolved⟩
    exact ⟨fun c hc => h_names c (List.mem_of_mem_dropLast hc), h_resolved.dropLast⟩
  -- a name that is no link is added to what is resolved
  · rintro dest c node ⟨h_names, h_resolved⟩ h_name h_node h_link
    refine ⟨?_, h_resolved.append h_node h_link⟩
    intro c' hc'
    obtain h_old | h_new := List.mem_append.mp hc'
    · exact h_names c' h_old
    · obtain rfl := List.mem_singleton.mp h_new
      exact h_name
  · exact ⟨h_none, .nil⟩

/-- Nothing changes when a resolved path is made absolute. -/
theorem abs_render {names : List (List Char)} (h : ∀ c ∈ names, IsName c) :
    d.abs (render true names) = some (render true names) := by
  rw [abs, if_pos (isAbs_render names), clean_render h]

end Disk

end FileSystem
