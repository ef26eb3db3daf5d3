import BrowserControl.Extension.TabRegistry
import BrowserControl.LocatorRuntime.Element
import BrowserControl.Redaction.Value

/-!
# Calls of the runtimes of all frames

`#invokeAll` calls a method of the runtime in each frame of a tab. Frames that have no runtime get
one, and are called again, all of them with one injection. A frame that cannot host the runtime is
left out of the results, and is not to make the call fail.

Chrome rejects an injection into listed frames as a whole if one of them is gone. The installation
ignores this, but the second call does not: a frame that has no runtime and disappears makes the
whole call fail (`invokeAll_eq_iff`).
-/

namespace BrowserControl.Extension.InvokeAll

open LocatorRuntime Redaction

variable {α : Type*}

/-! ### Errors -/

/-- The text of the error that a frame without runtime throws. -/
def runtimeNotInstalled : String := "locator runtime is not installed"

/-- An error of an injection. -/
structure InjectionError where
  message : String

/-- `isRuntimeMissing`: the error is the one of a frame without runtime. -/
def isRuntimeMissing (error : Option InjectionError) : Bool :=
  match error with
  | some e => Redaction.includes e.message runtimeNotInstalled
  | none => false

/-- The kinds of errors that the runtime itself throws. -/
def runtimeErrorKinds : List String :=
  ["STALE_REFERENCE", "DETACHED_NODE", "FRAME_UNAVAILABLE", "LOCATOR_NOT_FOUND",
    "LOCATOR_AMBIGUOUS", "NOT_ACTIONABLE", "METHOD_NOT_FOUND"]

/-- `RegExp.exec`, for the expression of `#runtimeError`: the kind, and the text that follows it. -/
def matchKind : List Char → Option (String × String)
  | [] => none
  | c :: cs =>
    match runtimeErrorKinds.find? fun kind => (kind.toList ++ [':']).isPrefixOf (c :: cs) with
    | some kind => some (kind, .ofList ((((c :: cs).drop (kind.length + 1)).dropWhile isWhitespace)
        |>.takeWhile (· ≠ '\n')))
    | none => matchKind cs

/-- `#runtimeError` -/
def runtimeError (message : String) : RpcError :=
  match matchKind message.toList with
  | some (kind, text) =>
    { kind, message := orElse text message, retryable := kind ≠ "METHOD_NOT_FOUND" }
  | none => { kind := "FRAME_UNAVAILABLE", message, retryable := true }

/-! ### Frames -/

/-- When something happens in a call: before, during and after each of its injections. -/
inductive Moment where
  | run
  | afterRun
  | install
  | afterInstall
  | retry
  deriving DecidableEq

/-- The order of the moments. -/
def Moment.index : Moment → ℕ
  | .run => 0
  | .afterRun => 1
  | .install => 2
  | .afterInstall => 3
  | .retry => 4

/-- A frame of a tab, and what becomes of it during a call. -/
structure Frame where
  frameID : ℕ
  documentID : String
  /-- It has the runtime. -/
  hosts : Bool
  installable : Bool
  /-- When it is removed. -/
  removed : Option Moment
  /-- What Chrome reports of it, if anything, when it is removed during an injection; it is none of
  the runtime's errors. -/
  interruption : Option {e : InjectionError // isRuntimeMissing (some e) = false}

/-- The frame is there when the injection begins. -/
def Frame.existsAt (f : Frame) (m : Moment) : Bool :=
  match f.removed with
  | none => true
  | some m' => m.index ≤ m'.index

/-- The frames of a tab when the call begins. -/
structure Tab where
  frames : List Frame
  distinct : (frames.map (·.frameID)).Nodup

/-- `InjectionResult` -/
structure InjectionResult (α : Type*) where
  frameID : ℕ
  documentID : String
  result : Option α := none
  error : Option InjectionError := none

/-- `FrameResult` -/
structure FrameResult (α : Type*) where
  frameID : ℕ
  documentID : String
  result : Option α

/-! ### The source -/

/-- What the function that is injected throws. -/
def notInstalled : InjectionError := ⟨"FRAME_UNAVAILABLE: " ++ runtimeNotInstalled⟩

/-- What an injection of the method reports of a frame. -/
def Frame.report (method : ℕ → α) (m : Moment) (hosts : Bool) (f : Frame) :
    Option (InjectionResult α) :=
  if f.removed = some m then
    f.interruption.map fun e =>
      { frameID := f.frameID, documentID := f.documentID, error := some e.1 }
  else if hosts then
    some { frameID := f.frameID, documentID := f.documentID, result := some (method f.frameID) }
  else some { frameID := f.frameID, documentID := f.documentID, error := some notInstalled }

namespace Tab

variable (tab : Tab) (method : ℕ → α) (noFrame : String)

/-- The listed frames are there. -/
def allExist (frameIDs : List ℕ) (m : Moment) : Bool :=
  frameIDs.all fun frameID => tab.frames.any fun f => f.frameID = frameID && f.existsAt m

/-- `#installRuntimeInFrames`: which frames have the runtime afterwards. -/
def installRuntimeInFrames (frameIDs : List ℕ) (f : Frame) : Bool :=
  f.hosts || tab.allExist frameIDs .install && f.frameID ∈ frameIDs && f.installable

/-- `#executeRuntime` in all frames. -/
def executeRuntimeInAll : List (InjectionResult α) :=
  tab.frames.filterMap fun f => f.report method .run f.hosts

/-- `#executeRuntime` in listed frames, of which some host the runtime now. -/
def executeRuntimeIn (frameIDs : List ℕ) (hosts : Frame → Bool) :
    Except RpcError (List (InjectionResult α)) :=
  if tab.allExist frameIDs .retry then
    .ok ((tab.frames.filter (·.frameID ∈ frameIDs)).filterMap fun f =>
      f.report method .retry (hosts f))
  else .error (runtimeError noFrame)

end Tab

/-- `byFrame.get(frameId)`: of several results for a frame the last one counts. -/
def byFrame (retried : List (InjectionResult α)) (frameID : ℕ) : Option (InjectionResult α) :=
  retried.reverse.find? (·.frameID = frameID)

/-- The results of the frames that host the runtime. -/
def collect : List (InjectionResult α) → Except RpcError (List (FrameResult α))
  | [] => .ok []
  | r :: rs =>
    if isRuntimeMissing r.error then collect rs
    else
      match r.error with
      | some e => .error (runtimeError e.message)
      | none => do
        let output ← collect rs
        return { frameID := r.frameID, documentID := r.documentID, result := r.result } :: output

/-- The results of the second call replace those of the first one. -/
def retry (tab : Tab) (method : ℕ → α) (noFrame : String) (results : List (InjectionResult α))
    (missing : List ℕ) : Except RpcError (List (InjectionResult α)) :=
  if missing ≠ [] then do
    let retried ← tab.executeRuntimeIn method noFrame missing (tab.installRuntimeInFrames missing)
    return results.map fun r => (byFrame retried r.frameID).getD r
  else .ok results

/-- `#invokeAll`, for a method that succeeds where there is a runtime. -/
def invokeAll (tab : Tab) (method : ℕ → α) (noFrame : String) :
    Except RpcError (List (FrameResult α)) := do
  let results := tab.executeRuntimeInAll method
  let missing := (results.filter fun r => isRuntimeMissing r.error).map (·.frameID)
  let results ← retry tab method noFrame results missing
  collect results

/-! ### What is expected -/

namespace Tab

variable (tab : Tab)

/-- The frame is found to have no runtime. -/
def isMissing (f : Frame) : Bool := f.removed ≠ some .run && !f.hosts

/-- The frame gets the runtime, and is called again. -/
def retries (f : Frame) : Bool :=
  isMissing f && f.installable && tab.frames.all fun g => !isMissing g || g.existsAt .retry

/-- The method runs in the frame, to its end. -/
def ran (f : Frame) : Bool :=
  f.hosts && f.removed ≠ some .run || tab.retries f && f.removed ≠ some .retry

/-- No frame that is found to have no runtime is gone when the second call begins, and a frame that
is removed during a call is not reported. -/
def Steady : Prop :=
  ∀ f ∈ tab.frames, (isMissing f = true → f.existsAt .retry = true) ∧
    ((f.removed = some .run ∨ isMissing f = true ∧ f.removed = some .retry) → f.interruption = none)

end Tab

/-- What a frame answers that runs the method. -/
def Frame.output (method : ℕ → α) (f : Frame) : FrameResult α :=
  { frameID := f.frameID, documentID := f.documentID, result := some (method f.frameID) }

/-! ### The first call -/

variable {tab : Tab} {method : ℕ → α} {noFrame : String}

/-- What a result of the call becomes. -/
def InjectionResult.output (r : InjectionResult α) : Option (FrameResult α) :=
  match r.error with
  | none => some { frameID := r.frameID, documentID := r.documentID, result := r.result }
  | some _ => none

/-- The result does not make the call fail. -/
def InjectionResult.Tolerated (r : InjectionResult α) : Prop :=
  r.error = none ∨ isRuntimeMissing r.error = true

/-- The results are collected where every error is one to be tolerated. -/
theorem collect_eq_ok_iff {rs : List (InjectionResult α)} {output : List (FrameResult α)} :
    collect rs = .ok output ↔
      (∀ r ∈ rs, r.Tolerated) ∧ output = rs.filterMap InjectionResult.output := by
  induction rs generalizing output with
  | nil =>
    -- no results: the list is empty, and every frame is tolerated
    calc collect [] = .ok output
      _ ↔ output = [] := by rw [collect, Except.ok.injEq, eq_comm]
      _ ↔ _ := by simp
  | cons r rs ih =>
    rw [collect, List.forall_mem_cons, and_assoc, InjectionResult.Tolerated]
    cases h_error : r.error with
    | none =>
      -- The frame hosts the runtime, and its result comes first.
      have h_output : (r :: rs).filterMap InjectionResult.output =
          { frameID := r.frameID, documentID := r.documentID, result := r.result } ::
            rs.filterMap InjectionResult.output := by
        rw [List.filterMap_cons, InjectionResult.output, h_error]
      rw [h_output]
      simp only [isRuntimeMissing, Bool.false_eq_true, if_false, true_or, true_and]
      constructor
      · intro h
        cases h_rest : collect rs with
        | error e =>
          rw [h_rest] at h
          cases h
        | ok rest =>
          rw [h_rest] at h
          cases h
          obtain ⟨h_all, rfl⟩ := ih.mp h_rest
          exact ⟨h_all, rfl⟩
      · rintro ⟨h_all, rfl⟩
        rw [ih.mpr ⟨h_all, rfl⟩]
        rfl
    | some e =>
      have h_output : (r :: rs).filterMap InjectionResult.output =
          rs.filterMap InjectionResult.output := by
        rw [List.filterMap_cons, InjectionResult.output, h_error]
      rw [h_output]
      by_cases h_missing : isRuntimeMissing (some e) = true
      · rw [if_pos h_missing, ih]
        simp [h_missing]
      · rw [if_neg h_missing]
        simp [h_missing]

/-- The error of a frame without runtime is recognized. -/
theorem isRuntimeMissing_notInstalled : isRuntimeMissing (some notInstalled) = true := by decide

/-- A frame reports under its own id. -/
theorem frameID_of_report {m : Moment} {hosts : Bool} {f : Frame} {r : InjectionResult α}
    (h : f.report method m hosts = some r) : r.frameID = f.frameID := by
  unfold Frame.report at h
  split_ifs at h
  · obtain ⟨e, -, rfl⟩ := Option.map_eq_some_iff.mp h
    rfl
  · cases h
    rfl
  · cases h
    rfl

/-- A frame without the runtime is told by its error. -/
theorem isRuntimeMissing_report {f : Frame} {r : InjectionResult α}
    (h : f.report method .run f.hosts = some r) :
    isRuntimeMissing r.error = Tab.isMissing f := by
  unfold Frame.report at h
  unfold Tab.isMissing
  split_ifs at h with h_removed h_hosts
  · obtain ⟨e, -, rfl⟩ := Option.map_eq_some_iff.mp h
    simp [h_removed, e.2]
  · cases h
    simp [h_hosts, isRuntimeMissing]
  · cases h
    simp [h_removed, h_hosts, isRuntimeMissing_notInstalled]

/-- A frame without runtime reports that it has none. -/
theorem report_of_isMissing {f : Frame} (h : Tab.isMissing f = true) :
    f.report method .run f.hosts =
      some { frameID := f.frameID, documentID := f.documentID, error := some notInstalled } := by
  simp only [Tab.isMissing, Bool.and_eq_true, decide_eq_true_eq, Bool.not_eq_true'] at h
  rw [Frame.report, if_neg h.1, h.2]
  rfl

variable (tab) in
/-- The frames that are called again. -/
def Tab.missing : List ℕ := (tab.frames.filter Tab.isMissing).map (·.frameID)

/-- The frames that are tried again are those without runtime. -/
theorem missing_eq (tab : Tab) (method : ℕ → α) :
    ((tab.executeRuntimeInAll method).filter fun r => isRuntimeMissing r.error).map (·.frameID) =
      tab.missing := by
  unfold Tab.executeRuntimeInAll Tab.missing
  induction tab.frames with
  | nil => rfl
  | cons f fs ih =>
    rw [List.filterMap_cons, List.filter_cons]
    -- A frame is asked again exactly if its report says that the runtime is missing.
    by_cases h_missing : Tab.isMissing f = true
    · rw [report_of_isMissing h_missing, if_pos h_missing]
      simp only [List.filter_cons, isRuntimeMissing_notInstalled, if_true, List.map_cons, ih]
    · rw [if_neg h_missing]
      cases h : f.report method .run f.hosts with
      | none => exact ih
      | some r =>
        have h_error := isRuntimeMissing_report h
        simp only [List.filter_cons, h_error, h_missing, Bool.false_eq_true, if_false, ih]

/-- A frame is tried again just where it had no runtime. -/
theorem mem_missing_iff {f : Frame} (hf : f ∈ tab.frames) :
    f.frameID ∈ tab.missing ↔ Tab.isMissing f = true := by
  rw [Tab.missing, List.mem_map]
  constructor
  · rintro ⟨g, hg, h_id⟩
    obtain ⟨hg, h_missing⟩ := List.mem_filter.mp hg
    rwa [← List.inj_on_of_nodup_map tab.distinct hg hf h_id]
  · intro h
    exact ⟨f, List.mem_filter.mpr ⟨hf, h⟩, rfl⟩

/-- The retry is accepted where all of these frames still exist. -/
theorem allExist_missing_iff {m : Moment} : tab.allExist tab.missing m = true ↔
    ∀ f ∈ tab.frames, Tab.isMissing f = true → f.existsAt m = true := by
  simp only [Tab.allExist, List.all_eq_true, List.any_eq_true, Bool.and_eq_true, decide_eq_true_eq]
  constructor
  · intro h f hf h_missing
    obtain ⟨g, hg, h_id, h_exists⟩ := h f.frameID ((mem_missing_iff hf).mpr h_missing)
    rwa [← List.inj_on_of_nodup_map tab.distinct hg hf h_id]
  · intro h frameID h_mem
    obtain ⟨f, hf, rfl⟩ := List.mem_map.mp h_mem
    obtain ⟨hf, h_missing⟩ := List.mem_filter.mp hf
    exact ⟨f, hf, rfl, h f hf h_missing⟩

/-! ### The second call -/

/-- What the call makes of a frame, if the second injection is not rejected. -/
def Tab.final (tab : Tab) (method : ℕ → α) (f : Frame) : Option (InjectionResult α) :=
  (f.report method .run f.hosts).map fun r =>
    if Tab.isMissing f = true then
      (f.report method .retry (tab.installRuntimeInFrames tab.missing f)).getD r
    else r

/-- The only result for a frame is found. -/
theorem byFrame_filterMap {fs : List Frame} (h_distinct : (fs.map (·.frameID)).Nodup)
    {report : Frame → Option (InjectionResult α)}
    (h_id : ∀ f r, report f = some r → r.frameID = f.frameID) {f : Frame} (hf : f ∈ fs) :
    byFrame (fs.filterMap report) f.frameID = report f := by
  -- every frame reports at most once, under its own number
  have h_mem : ∀ r, r ∈ fs.filterMap report ∧ r.frameID = f.frameID ↔ report f = some r := by
    intro r
    rw [List.mem_filterMap]
    constructor
    · rintro ⟨⟨g, hg, h_report⟩, h_frame⟩
      rwa [List.inj_on_of_nodup_map h_distinct hf hg (h_frame.symm.trans (h_id g r h_report))]
    · intro h
      exact ⟨⟨f, hf, h⟩, h_id f r h⟩
  unfold byFrame
  cases h_find : (fs.filterMap report).reverse.find? fun r => r.frameID = f.frameID with
  | some r =>
    have h_r := List.mem_reverse.mp (List.mem_of_find?_eq_some h_find)
    exact ((h_mem r).mp ⟨h_r, by simpa using List.find?_some h_find⟩).symm
  | none =>
    cases h_report : report f with
    | none => rfl
    | some r =>
      obtain ⟨h_r, h_frame⟩ := (h_mem r).mpr h_report
      have h_not := List.find?_eq_none.mp h_find r (List.mem_reverse.mpr h_r)
      exact absurd (decide_eq_true h_frame) h_not

/-- What is not called again is not found. -/
theorem byFrame_eq_none {fs : List Frame} {report : Frame → Option (InjectionResult α)}
    (h_id : ∀ f r, report f = some r → r.frameID = f.frameID) {frameID : ℕ}
    (h : ∀ f ∈ fs, f.frameID ≠ frameID) : byFrame (fs.filterMap report) frameID = none := by
  refine List.find?_eq_none.mpr fun r hr h_frame => ?_
  obtain ⟨f, hf, h_report⟩ := List.mem_filterMap.mp (List.mem_reverse.mp hr)
  exact h f hf ((h_id f r h_report).symm.trans (of_decide_eq_true h_frame))

/-- Two ways to come from the frames to their results. -/
theorem map_filterMap_congr {β γ : Type*} {fs : List Frame} {first : Frame → Option β} {g : β → γ}
    {final : Frame → Option γ} (h : ∀ f ∈ fs, (first f).map g = final f) :
    (fs.filterMap first).map g = fs.filterMap final := by
  rw [List.map_filterMap]
  exact List.filterMap_congr h

/-- The retry is rejected, or each frame comes to its final result. -/
theorem retry_eq (tab : Tab) (method : ℕ → α) (noFrame : String) :
    retry tab method noFrame (tab.executeRuntimeInAll method) tab.missing =
      if ∀ f ∈ tab.frames, Tab.isMissing f = true → f.existsAt .retry = true then
        .ok (tab.frames.filterMap (tab.final method))
      else .error (runtimeError noFrame) := by
  unfold retry
  by_cases h_none : tab.missing = []
  · -- No frame is missing, so the first results are final.
    have h_not : ∀ f ∈ tab.frames, ¬ Tab.isMissing f = true := by
      intro f hf h_missing
      have h_mem := (mem_missing_iff hf).mpr h_missing
      rw [h_none] at h_mem
      cases h_mem
    rw [if_neg (not_not_intro h_none), if_pos fun f hf h => absurd h (h_not f hf)]
    refine congrArg Except.ok (List.filterMap_congr fun f hf => ?_)
    rw [Tab.final]
    simp only [if_neg (h_not f hf)]
    exact (Option.map_id' ..).symm
  -- The call over the missing frames rejects as a whole if one of them is gone.
  · rw [if_pos h_none, Tab.executeRuntimeIn]
    by_cases h_exist : ∀ f ∈ tab.frames, Tab.isMissing f = true → f.existsAt .retry = true
    · rw [if_pos (allExist_missing_iff.mpr h_exist), if_pos h_exist]
      refine congrArg Except.ok (map_filterMap_congr fun f hf => ?_)
      have h_distinct : ((tab.frames.filter (·.frameID ∈ tab.missing)).map (·.frameID)).Nodup :=
        tab.distinct.sublist (List.filter_sublist.map _)
      rw [Tab.final]
      cases h_first : f.report method .run f.hosts with
      | none => rfl
      | some r =>
        rw [Option.map_some, Option.map_some, frameID_of_report h_first]
        by_cases h_missing : Tab.isMissing f = true
        · have h_mem : f ∈ tab.frames.filter (·.frameID ∈ tab.missing) :=
            List.mem_filter.mpr ⟨hf, decide_eq_true ((mem_missing_iff hf).mpr h_missing)⟩
          rw [if_pos h_missing, byFrame_filterMap h_distinct (fun _ _ => frameID_of_report) h_mem]
        · rw [if_neg h_missing, byFrame_eq_none (fun _ _ => frameID_of_report)]
          · rfl
          · intro g hg h_id
            have h_mem := of_decide_eq_true (List.mem_filter.mp hg).2
            rw [h_id] at h_mem
            exact h_missing ((mem_missing_iff hf).mp h_mem)
    · rw [if_neg (mt allExist_missing_iff.mp h_exist), if_neg h_exist]
      rfl

/-! ### The results -/

/-- A frame that exists when it is called again has existed before. -/
theorem existsAt_install {f : Frame} (h : f.existsAt .retry = true) :
    f.existsAt .install = true := by
  unfold Frame.existsAt at h ⊢
  cases h_removed : f.removed with
  | none => rfl
  | some m =>
    rw [h_removed] at h
    cases m with
    | retry => rfl
    | _ => exact absurd h (by decide)

/-- The final result of a frame makes the call fail only if the frame is removed during a call and
reported; else the frame is in the output if the method has run in it. -/
theorem final_spec
    (h_exist : ∀ f ∈ tab.frames, Tab.isMissing f = true → f.existsAt .retry = true)
    {f : Frame} (hf : f ∈ tab.frames) :
    ((∀ r ∈ tab.final method f, r.Tolerated) ↔
      ((f.removed = some .run ∨ Tab.isMissing f = true ∧ f.removed = some .retry) →
        f.interruption = none)) ∧
    ((∀ r ∈ tab.final method f, r.Tolerated) →
      (tab.final method f).bind InjectionResult.output =
        if tab.ran f = true then some (f.output method) else none) := by
  have h_all : tab.frames.all (fun g => !Tab.isMissing g || g.existsAt .retry) = true := by
    rw [List.all_eq_true]
    intro g hg
    cases h : Tab.isMissing g with
    | false => rfl
    | true => exact h_exist g hg h
  have h_interrupted : ∀ e : {e : InjectionError // isRuntimeMissing (some e) = false},
      ¬ InjectionResult.Tolerated (α := α)
        { frameID := f.frameID, documentID := f.documentID, error := some e.1 } := by
    rintro e (h | h)
    · cases h
    · exact Bool.false_ne_true (e.2.symm.trans h)
  have h_notInstalled : InjectionResult.Tolerated (α := α)
      { frameID := f.frameID, documentID := f.documentID, error := some notInstalled } :=
    .inr isRuntimeMissing_notInstalled
  -- a frame that is not missing keeps its first result
  have h_first : Tab.isMissing f = false →
      tab.final method f = f.report method .run f.hosts := by
    intro h
    rw [Tab.final, h]
    exact Option.map_id' ..
  by_cases h_removed : f.removed = some .run
  · -- The frame is removed during the first call.
    have h_missing : Tab.isMissing f = false := by simp [Tab.isMissing, h_removed]
    have h_ran : tab.ran f = false := by simp [Tab.ran, Tab.retries, h_removed, h_missing]
    rw [h_first h_missing, Frame.report, if_pos h_removed, h_missing, h_ran]
    cases h_interruption : f.interruption with
    | none => simp [h_removed]
    | some e => simp [h_removed, h_interrupted e]
  by_cases h_hosts : f.hosts = true
  · -- The method runs at once.
    have h_missing : Tab.isMissing f = false := by simp [Tab.isMissing, h_hosts]
    have h_ran : tab.ran f = true := by simp [Tab.ran, h_hosts, h_removed]
    rw [h_first h_missing, Frame.report, if_neg h_removed, if_pos h_hosts, h_missing, h_ran]
    simp [h_removed, InjectionResult.Tolerated, InjectionResult.output, Frame.output]
  -- The frame has no runtime, and is called again.
  have h_missing : Tab.isMissing f = true := by simp [Tab.isMissing, h_removed, h_hosts]
  have h_final : tab.final method f =
      some ((f.report method .retry (tab.installRuntimeInFrames tab.missing f)).getD
        { frameID := f.frameID, documentID := f.documentID, error := some notInstalled }) := by
    rw [Tab.final, report_of_isMissing h_missing, Option.map_some, if_pos h_missing]
  have h_installs : tab.installRuntimeInFrames tab.missing f = f.installable := by
    have h_exists := allExist_missing_iff.mpr fun g hg h => existsAt_install (h_exist g hg h)
    simp [Tab.installRuntimeInFrames, h_hosts, h_exists, (mem_missing_iff hf).mpr h_missing]
  rw [h_final, h_installs, Frame.report]
  by_cases h_retry : f.removed = some .retry
  · have h_ran : tab.ran f = false := by simp [Tab.ran, h_hosts, h_retry]
    rw [if_pos h_retry, h_ran]
    cases h_interruption : f.interruption with
    | none => simp [h_notInstalled, InjectionResult.output]
    | some e => simp [h_missing, h_retry, h_interrupted e]
  · have h_ran : tab.ran f = f.installable := by
      simp [Tab.ran, Tab.retries, h_hosts, h_retry, h_missing, h_all]
    rw [if_neg h_retry, h_ran]
    cases f.installable with
    | true => simp [h_removed, h_retry, InjectionResult.Tolerated, InjectionResult.output,
        Frame.output]
    | false => simp [h_removed, h_retry, h_notInstalled, InjectionResult.output]

/-- **One result for each frame in which the method has run, unless a frame without a runtime is
gone**: a call returns exactly that if and only if no frame that is found to have no runtime is gone
when it is called again, and no frame that is removed during a call is reported. -/
theorem invokeAll_eq_iff (tab : Tab) (method : ℕ → α) (noFrame : String) :
    invokeAll tab method noFrame = .ok ((tab.frames.filter tab.ran).map (·.output method)) ↔
      tab.Steady := by
  -- the call as a list of final results, or a rejection
  have h_invokeAll : invokeAll tab method noFrame =
      retry tab method noFrame (tab.executeRuntimeInAll method) tab.missing >>= collect := by
    rw [← missing_eq tab method]
    rfl
  rw [h_invokeAll, retry_eq]
  by_cases h_exist : ∀ f ∈ tab.frames, Tab.isMissing f = true → f.existsAt .retry = true
  · rw [if_pos h_exist]
    -- every missing frame exists at the retry: frame by frame, a result is tolerated
    show collect (tab.frames.filterMap (tab.final method)) = _ ↔ _
    have h_tolerated : (∀ r ∈ tab.frames.filterMap (tab.final method), r.Tolerated) ↔
        ∀ f ∈ tab.frames, ∀ r ∈ tab.final method f, r.Tolerated := by
      simp only [List.mem_filterMap, Option.mem_def]
      exact ⟨fun h f hf r hr => h r ⟨f, hf, hr⟩, fun h r hr => h hr.choose hr.choose_spec.1 r
        hr.choose_spec.2⟩
    rw [collect_eq_ok_iff, h_tolerated]
    constructor
    · rintro ⟨h_all, -⟩ f hf
      exact ⟨h_exist f hf, (final_spec h_exist hf).1.mp (h_all f hf)⟩
    · intro h_steady
      have h_all : ∀ f ∈ tab.frames, ∀ r ∈ tab.final method f, r.Tolerated :=
        fun f hf => (final_spec h_exist hf).1.mpr (h_steady f hf).2
      refine ⟨h_all, ?_⟩
      rw [List.filterMap_filterMap]
      calc (tab.frames.filter tab.ran).map (·.output method)
        _ = tab.frames.filterMap fun f =>
          if tab.ran f = true then some (f.output method) else none :=
          by rw [← List.filterMap_eq_map, List.filterMap_filter]; rfl
        _ = tab.frames.filterMap fun f => (tab.final method f).bind InjectionResult.output :=
          List.filterMap_congr fun f hf => ((final_spec h_exist hf).2 (h_all f hf)).symm
  -- otherwise the call rejects, and the condition fails at the frame that is gone
  · rw [if_neg h_exist]
    refine iff_of_false (by rintro ⟨⟩) fun h_steady => ?_
    exact h_exist fun f hf => (h_steady f hf).1

/-- A tab with an embed that is removed again before it gets the runtime. -/
def unmounted : Tab where
  frames :=
    [⟨0, "A", true, true, none, none⟩, ⟨7, "B", false, true, some .afterRun, none⟩]
  distinct := by decide

/-- The call fails because of the embed. -/
theorem not_invokeAll_removedEmbed : ¬ ∀ tab : Tab,
    invokeAll tab id "No frame with id 7 in tab 1." =
      .ok ((tab.frames.filter tab.ran).map (·.output id)) := by
  intro h
  have h_steady := (invokeAll_eq_iff unmounted id _).mp (h unmounted)
  exact absurd ((h_steady _ (List.mem_cons_of_mem _ (List.mem_singleton_self _))).1 rfl) (by decide)

end BrowserControl.Extension.InvokeAll
