import BrowserControl.Encoding.JsonReader
import BrowserControl.FileSystem.Resolution
import BrowserControl.Protocol.Error

/-!
# Files that may be uploaded

`validateUploadFiles` decides which files a request may hand to a page. It cleans each path,
resolves the links on it, and lets it pass if a regular file is there, below one of the roots of
the configuration. What it returns are the resolved paths, in the order of the request
(`validateUploadFiles_ok`).

A path is cleaned before its links are followed, so `..` takes away a name, also if it is the name
of a link. That file is checked, and that file is uploaded; but it is not the one that the system
would open under the path (`not_resolves_symlink`).
-/

namespace BrowserControl.Server

open Encoding Protocol FileSystem

/-- The most files of one upload. -/
def maxUploadFiles : ℕ := 100

/-- `fileNotAllowed` -/
def fileNotAllowed (reason : String) (index : Option ℕ) : RPCError :=
  newError codeFileNotAllowed "FILE_NOT_ALLOWED" "upload file is not allowed" false <| .ofFields <|
    ("reason", .str reason) :: index.toList.map fun index => ("index", .num (Reader.ofNat index))

section

variable (disk : Disk)

/-- A root of the configuration, if it is a directory. -/
def resolveUploadRoot (root : String) : Option (List Char) := do
  let canonical ← disk.abs (← disk.evalSymlinks root.toList)
  if disk.stat canonical = some .directory then some (clean canonical) else none

/-- `resolveUploadRoots` -/
def resolveUploadRoots (configuredRoots : List String) : List (List Char) :=
  (configuredRoots.filterMap (resolveUploadRoot disk)).foldl
    (fun resolved canonical =>
      if canonical ∈ resolved then resolved else resolved ++ [canonical]) []

/-- `withinAnyUploadRoot` -/
def withinAnyUploadRoot (path : List Char) (roots : List (List Char)) : Bool :=
  roots.any fun root =>
    match rel root path with
    | some relative => !isAbs relative && inside relative
    | none => false

/-- One of the files, with its place in the list. -/
def validateUploadFile (roots : List (List Char)) (index : ℕ) : Json → Except RPCError String
  | .str path =>
    if path = "" ∨ '\x00' ∈ path.toList ∨ isAbs path.toList = false then
      .error (fileNotAllowed "invalid_path" index)
    else
      -- `filepath.Clean` first: `..` is taken away as text, before any link is followed.
      match disk.evalSymlinks (clean path.toList) with
      | none => .error (fileNotAllowed "not_found" index)
      | some resolved =>
        match disk.abs resolved with
        | none => .error (fileNotAllowed "invalid_path" index)
        | some resolved =>
          match disk.stat resolved with
          | none => .error (fileNotAllowed "not_found" index)
          | some info =>
            -- The root is asked for last, of the resolved path.
            if info ≠ .regular then .error (fileNotAllowed "not_regular" index)
            else if withinAnyUploadRoot resolved roots = false then
              .error (fileNotAllowed "outside_upload_roots" index)
            else .ok (.ofList resolved)
  | _ => .error (fileNotAllowed "invalid_path" index)

/-- The files of a request, under either of the two names. -/
def uploadFiles (params : Object) : Option Json := (params.get "files").or (params.get "paths")

/-- `validateUploadFiles` -/
def validateUploadFiles (params : Object) (configuredRoots : List String) :
    Except RPCError (List String) :=
  match uploadFiles params with
  | some (.arr files) =>
    if files.length = 0 ∨ files.length > maxUploadFiles then
      .error (fileNotAllowed "invalid_files" none)
    else
      let roots := resolveUploadRoots disk configuredRoots
      if roots.length = 0 then .error (fileNotAllowed "no_available_upload_root" none)
      else files.zipIdx.mapM fun file => validateUploadFile disk roots file.2 file.1
  | _ => .error (fileNotAllowed "invalid_files" none)

end

/-! ### Roots -/

variable {disk : Disk}

/-- A root that is resolved is the one of a configured root. -/
theorem mem_resolveUploadRoots {configuredRoots : List String} {canonical : List Char}
    (h : canonical ∈ resolveUploadRoots disk configuredRoots) :
    ∃ root ∈ configuredRoots, resolveUploadRoot disk root = some canonical := by
  -- the roots so far, and those that come
  have h_fold : ∀ (l resolved : List (List Char)), canonical ∈ l.foldl (fun resolved canonical =>
      if canonical ∈ resolved then resolved else resolved ++ [canonical]) resolved →
        canonical ∈ resolved ∨ canonical ∈ l := by
    intro l
    induction l with
    | nil =>
      intro resolved h
      exact .inl h
    | cons c l ih =>
      intro resolved h
      obtain h_resolved | h_rest := ih _ h
      · dsimp only at h_resolved
        split at h_resolved
        · exact .inl h_resolved
        · obtain h_old | h_new := List.mem_append.mp h_resolved
          · exact .inl h_old
          · exact .inr (List.mem_singleton.mp h_new ▸ List.mem_cons_self)
      · exact .inr (List.mem_cons_of_mem _ h_rest)
  obtain h_nil | h_mem := h_fold _ [] h
  · cases h_nil
  · exact List.mem_filterMap.mp h_mem

/-- **Containment is about names**, not about texts. -/
theorem withinAnyUploadRoot_iff {path : List Char} (h_path : isAbs path = true)
    {roots : List (List Char)} : withinAnyUploadRoot path roots = true ↔
      ∃ root ∈ roots, isAbs root = true ∧ elements root <+: elements path := by
  rw [withinAnyUploadRoot, List.any_eq_true]
  refine exists_congr fun root => and_congr_right fun _ => ?_
  rw [← inside_rel_iff h_path]
  cases rel root path with
  | none => simp
  | some relative => simp [Bool.and_eq_true]

/-! ### Files -/

/-- What is returned for an input path: the resolved path of the cleaned input, of a regular file
whose names begin with those of a resolved root that is a directory. -/
structure Allowed (disk : Disk) (configuredRoots : List String) (input file : String) : Prop where
  resolves : disk.evalSymlinks (clean input.toList) = some file.toList
  /-- It is a clean path, with no link on it. -/
  resolved : ∃ names, file.toList = render true names ∧ (∀ c ∈ names, IsName c) ∧
    disk.Resolved names
  regular : disk.stat file.toList = some .regular
  below : ∃ root ∈ configuredRoots, ∃ canonical, resolveUploadRoot disk root = some canonical ∧
    isAbs canonical = true ∧ elements canonical <+: elements file.toList

/-- What a file has passed. -/
theorem validateUploadFile_ok {configuredRoots : List String} {index : ℕ} {value : Json}
    {file : String}
    (h : validateUploadFile disk (resolveUploadRoots disk configuredRoots) index value = .ok file) :
    ∃ input, value = .str input ∧ Allowed disk configuredRoots input file := by
  cases value with
  -- only a text can be a file
  | str input =>
    refine ⟨input, rfl, ?_⟩
    rw [validateUploadFile] at h
    split at h
    · cases h
    · rename_i h_valid
      rw [not_or, not_or] at h_valid
      have h_abs : isAbs (clean input.toList) = true := by
        rw [isAbs_clean]
        simpa using h_valid.2.2
      cases h_eval : disk.evalSymlinks (clean input.toList) with
      | none =>
        rw [h_eval] at h
        cases h
      | some resolved =>
        obtain ⟨names, rfl, h_names, h_resolved⟩ := Disk.evalSymlinks_spec h_abs h_eval
        rw [h_eval] at h
        simp only [Disk.abs_render h_names] at h
        cases h_stat : disk.stat (render true names) with
        | none =>
          rw [h_stat] at h
          cases h
        | some info =>
          rw [h_stat] at h
          dsimp only at h
          split at h
          · cases h
          · rename_i h_regular
            split at h
            · cases h
            · rename_i h_within
              obtain rfl := Except.ok.inj h
              rw [Bool.not_eq_false, withinAnyUploadRoot_iff (isAbs_render names)] at h_within
              obtain ⟨canonical, h_mem, h_root, h_prefix⟩ := h_within
              obtain ⟨root, h_configured, h_canonical⟩ := mem_resolveUploadRoots h_mem
              constructor
              · rw [String.toList_ofList]
                exact h_eval
              · exact ⟨names, String.toList_ofList, h_names, h_resolved⟩
              · rw [String.toList_ofList, h_stat, not_not.mp h_regular]
              · rw [String.toList_ofList]
                exact ⟨root, h_configured, canonical, h_canonical, h_root, h_prefix⟩
  | null => cases h
  | bool => cases h
  | num => cases h
  | arr => cases h
  | obj => cases h

/-- The files from a place in the list on. -/
theorem validateUploadFile_mapM_ok {configuredRoots : List String} {values : List Json} {start : ℕ}
    {files : List String}
    (h : (values.zipIdx start).mapM (fun file =>
      validateUploadFile disk (resolveUploadRoots disk configuredRoots) file.2 file.1) =
        .ok files) :
    ∃ inputs : List String, values = inputs.map .str ∧
      List.Forall₂ (Allowed disk configuredRoots) inputs files := by
  induction values generalizing start files with
  | nil =>
    obtain rfl := Except.ok.inj h
    exact ⟨[], rfl, .nil⟩
  | cons value values ih =>
    rw [List.zipIdx_cons, List.mapM_cons] at h
    -- the first file that is refused ends the loop
    cases h_value : validateUploadFile disk (resolveUploadRoots disk configuredRoots) start
      value with
    | error rpcErr =>
      rw [h_value] at h
      cases h
    | ok file =>
      obtain ⟨input, rfl, h_allowed⟩ := validateUploadFile_ok h_value
      rw [h_value] at h
      cases h_rest : (values.zipIdx (start + 1)).mapM fun file =>
          validateUploadFile disk (resolveUploadRoots disk configuredRoots) file.2 file.1 with
      | error rpcErr =>
        rw [h_rest] at h
        cases h
      | ok rest =>
        obtain ⟨inputs, rfl, h_inputs⟩ := ih h_rest
        rw [h_rest] at h
        obtain rfl := Except.ok.inj h
        exact ⟨input :: inputs, rfl, .cons h_allowed h_inputs⟩

/-- **Upload policy.** What is returned are the files of the request, one for one and in their
order, each of which is allowed. -/
theorem validateUploadFiles_ok {params : Object} {configuredRoots : List String}
    {files : List String} (h : validateUploadFiles disk params configuredRoots = .ok files) :
    ∃ inputs : List String, uploadFiles params = some (.arr (inputs.map .str)) ∧
      List.Forall₂ (Allowed disk configuredRoots) inputs files := by
  unfold validateUploadFiles at h
  split at h
  · rename_i values h_files
    split at h
    · cases h
    · dsimp only at h
      split at h
      · cases h
      · obtain ⟨inputs, rfl, h_inputs⟩ := validateUploadFile_mapM_ok h
        exact ⟨inputs, h_files, h_inputs⟩
  · cases h

/-! ### A link in front of `..` -/

/-- A disk with a directory `/r`, in which there is a file and a link into another directory. -/
def linkedDisk : Disk where
  node names :=
    if names = ["r".toList] ∨ names = ["s".toList] ∨ names = ["s".toList, "d".toList] then
      some .directory
    else if names = ["r".toList, "f".toList] ∨ names = ["s".toList, "f".toList] then some .regular
    else if names = ["r".toList, "l".toList] then some (.symlink "/s/d".toList)
    else none
  getwd := some "/".toList
  evalRelative _ := none
  maxLinks := 32

/-- What has a result has succeeded. -/
theorem eq_ok_of_toOption {α : Type} {x : Except RPCError α} {a : α} (h : x.toOption = some a) :
    x = .ok a := by
  cases x with
  | error rpcErr => cases h
  | ok b =>
    obtain rfl := Option.some.inj h
    rfl

/-- The link leads away from the file that is uploaded. -/
theorem not_resolves_symlink :
    ¬ ∀ (disk : Disk) (params : Object) (configuredRoots files : List String),
      validateUploadFiles disk params configuredRoots = .ok files →
        ∃ inputs : List String, uploadFiles params = some (.arr (inputs.map .str)) ∧
          List.Forall₂ (fun input file => disk.evalSymlinks input.toList = some file.toList)
            inputs files := by
  intro h_all
  have h_valid : validateUploadFiles linkedDisk (.ofFields [("files", .arr [.str "/r/l/../f"])])
      ["/r"] = .ok ["/r/f"] := eq_ok_of_toOption (by decide +kernel)
  obtain ⟨inputs, h_inputs, h_resolves⟩ := h_all _ _ _ _ h_valid
  have h_files : inputs.map Json.str = ["/r/l/../f"].map .str :=
    Json.arr.inj (Option.some.inj h_inputs.symm)
  obtain rfl := List.map_injective_iff.mpr (fun _ _ h => Json.str.inj h) h_files
  have h_file := (List.forall₂_cons.mp h_resolves).1
  -- The kernel follows the link before `..`, the code's cleaning does not.
  have h_link : linkedDisk.evalSymlinks "/r/l/../f".toList = some "/s/f".toList := by decide +kernel
  rw [h_link] at h_file
  exact absurd h_file (by decide)

end BrowserControl.Server
