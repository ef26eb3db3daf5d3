import BrowserControl.Extension.FrameQuery
import BrowserControl.Extension.SecureInput
import BrowserControl.Transition.Machine
import Mathlib.Logic.Function.Basic

/-!
# Node references

`NodeReference.machine` is the frames of all tabs and the captures of them, with the two stores of
snapshots: each runtime remembers the elements of its last captures, and the extension remembers of
the last snapshots which capture of which frame they are made of. A capture is taken frame by frame
and stored then, and pages and other captures go on meanwhile.

`issued` has the references that captures have published, with the elements that they described. A
reference is looked up in the extension, and somewhat later its element in the runtime of the frame;
so `resolveNode` has two states. The ids of snapshots are random, which is to say that none is drawn
twice. Then a reference resolves to the element that it was issued for or not at all, and the
references of a snapshot differ (`keepsMeaning`). The error is that the reference is stale or its
element detached, unless the frame is gone (`not_keepsMeaning_removedFrame`).

Queries write to neither store. Whether an element is connected is up to the page: it can be in a
document that no list of elements shows.
-/

namespace BrowserControl.Extension.NodeReference

open LocatorRuntime FrameQuery Transition

/-! ### Snapshots of a runtime -/

/-- `while (snapshots.size > max)`, the oldest one is deleted. -/
def keepNewest {α : Type*} (max : ℕ) (snapshots : List α) : List α :=
  snapshots.drop (snapshots.length - max)

/-- `MAX_SNAPSHOTS` of a runtime. -/
def runtimeSnapshots : ℕ := 8

/-- `MAX_SNAPSHOTS` of the extension. -/
def extensionSnapshots : ℕ := 16

/-- The references of a capture, in both directions. -/
def captureRefs (elements : List Element) : List (ℕ × String) :=
  elements.mapIdx fun index e => (e.id, captureRef index)

/-- What `capture` leaves in the runtime. -/
def remember (snapshotID : String) (elements : List Element)
    (snapshots : List (String × List (ℕ × String))) : List (String × List (ℕ × String)) :=
  keepNewest runtimeSnapshots (snapshots ++ [(snapshotID, captureRefs elements)])

/-- The snapshot is not among the newest any more. -/
def snapshotForgotten : RpcError :=
  { kind := "STALE_REFERENCE", message := "snapshot is no longer available", retryable := true }

/-- The element of a reference, unless it is detached. -/
def findElement (detached : RpcError) (connected : ℕ → Bool) (host : Host)
    (snapshotID nodeRef : String) : Except RpcError ℕ :=
  match host.snapshots.lookup snapshotID with
  | none => .error snapshotForgotten
  | some refs =>
    match refs.find? (·.2 = nodeRef) with
    | some (id, _) => if connected id then .ok id else .error detached
    | none => .error detached

/-- The element is not in the document any more. -/
def detachedNode : RpcError :=
  { kind := "DETACHED_NODE", message := "target is detached", retryable := true }

/-- `#resolveTarget`, for a node. -/
def resolveTarget : (ℕ → Bool) → Host → String → String → Except RpcError ℕ :=
  findElement detachedNode

/-- `resolve` -/
def resolve : (ℕ → Bool) → Host → String → String → Except RpcError ℕ :=
  findElement { kind := "STALE_REFERENCE", message := "node is detached", retryable := true }

/-! ### State -/

/-- A frame that is captured already. -/
structure CaptureResult where
  frameID : ℕ
  snapshotID : String
  elements : List Element

/-- A capture on its way through the frames. -/
structure Capturing where
  tabID : String
  options : SnapshotOptions
  results : List CaptureResult := []

/-- A reference that a capture has published. -/
structure Issued where
  tabID : String
  snapshotID : String
  frameID : ℕ
  localSnapshotID : String
  /-- The element that is described. -/
  element : Element
  node : NodeDescription

/-- The tabs, the snapshots, the captures that run, and all references that were given out. -/
structure State where
  documentEpoch : String → ℕ := fun _ => 0
  frames : String → List Frame := fun _ => []
  /-- `isConnected` -/
  connected : ℕ → Bool := fun _ => false
  /-- The ids that are drawn. -/
  used : List String := []
  snapshots : List (String × Snapshot) := []
  captures : ℕ → Option Capturing := fun _ => none
  issued : List Issued := []
  /-- The elements of all captures that runtimes have made. -/
  captured : List (String × List Element) := []

/-- What the pages do, the captures, and the requests with a reference. -/
inductive Event where
  /-- The extension notices that a tab has a new document. -/
  | navigated (tabID : String)
  /-- A frame gets a new document, with a runtime of its own if that can be installed. -/
  | load (tabID : String) (frameID : ℕ) (parentFrameID : Option ℕ) (url : String)
      (injectable : Bool)
  /-- A frame is removed. -/
  | unload (tabID : String) (frameID : ℕ)
  /-- A page changes a document, and with it what is connected. -/
  | mutate (tabID : String) (frameID : ℕ) (document : Document) (connected : ℕ → Bool)
  /-- The runtime of a frame is disposed of, and there is another one when it is needed next. -/
  | reinstall (tabID : String) (frameID : ℕ)
  | startCapture (c : ℕ) (tabID : String) (options : SnapshotOptions)
  | captureFrame (c frameID : ℕ) (snapshotID : String)
  | storeCapture (c : ℕ) (snapshotID : String)
  /-- `#dropTabSnapshots` -/
  | dropTabSnapshots (tabID : String)

namespace State

variable (P : Chrome) (s : State)

/-- A tab, as queries and references see it. -/
def tab (tabID : String) : Tab where
  tabID := tabID
  documentEpoch := s.documentEpoch tabID
  frames := s.frames tabID
  snapshots := s.snapshots

/-- A tab has other frames. -/
def setFrames (tabID : String) (frames : List Frame) : State :=
  { s with frames := Function.update s.frames tabID frames }

/-- A frame has a new document. -/
def load (tabID : String) (frame : Frame) : State :=
  s.setFrames tabID <|
    if (s.frames tabID).any (·.frameID = frame.frameID) then
      (s.frames tabID).map fun f => if f.frameID = frame.frameID then frame else f
    else s.frames tabID ++ [frame]

/-- A frame is gone. -/
def unload (tabID : String) (frameID : ℕ) : State :=
  s.setFrames tabID ((s.frames tabID).filter (·.frameID ≠ frameID))

/-- The runtime of a frame changes. -/
def updateRuntime (tabID : String) (frameID : ℕ)
    (f : Document × List (String × List (ℕ × String)) →
      Document × List (String × List (ℕ × String))) : State :=
  s.setFrames tabID ((s.frames tabID).map fun frame =>
    if frame.frameID = frameID then { frame with runtime := frame.runtime.map f } else frame)

/-- The runtime of a frame makes a capture. -/
def captureFrame (c : ℕ) (capturing : Capturing) (host : Host) (snapshotID : String) : State :=
  let elements := capturedElements P.browser capturing.options host.document.root
  let s := s.updateRuntime capturing.tabID host.frameID fun runtime =>
    (runtime.1, remember snapshotID elements runtime.2)
  { s with
    used := snapshotID :: s.used
    captures := Function.update s.captures c <| some { capturing with
      results := capturing.results ++ [{ frameID := host.frameID, snapshotID, elements }] }
    captured := (snapshotID, elements) :: s.captured }

/-- The references of a frame, as they are published. -/
def issue (tabID snapshotID : String) (result : CaptureResult) : List Issued :=
  result.elements.mapIdx fun index e =>
    { tabID
      snapshotID
      frameID := result.frameID
      localSnapshotID := result.snapshotID
      element := e
      node := publishedNode result.frameID (describe P.browser e (captureRef index)) }

/-- `#storeSnapshot`, and the answer of `#capture`. -/
def storeCapture (c : ℕ) (capturing : Capturing) (snapshotID : String) : State :=
  { s with
    used := snapshotID :: s.used
    captures := Function.update s.captures c none
    snapshots := keepNewest extensionSnapshots <| s.snapshots ++ [(snapshotID, {
      tabID := capturing.tabID
      documentEpoch := s.documentEpoch capturing.tabID
      frames := capturing.results.map fun result => (result.frameID, result.snapshotID) })]
    issued := s.issued ++ capturing.results.flatMap (issue P capturing.tabID snapshotID) }

end State

/-! ### The machine -/

section

variable (P : Chrome)

/-- When a step can happen. -/
def enabled (s : State) : Event → Prop
  | .mutate _ _ document connected =>
    ∀ e ∈ collectElements document.root true, connected e.id = true
  | .startCapture c _ _ => (s.captures c).isNone = true
  | .captureFrame c frameID snapshotID => snapshotID ∉ s.used ∧
    (s.captures c).any (fun capturing =>
      capturing.results.all (·.frameID ≠ frameID) &&
        (invokeFrame P (s.tab capturing.tabID) frameID).toOption.isSome) = true
  | .storeCapture c snapshotID => snapshotID ∉ s.used ∧
    (s.captures c).any (!·.results.isEmpty) = true
  | .navigated _ | .load .. | .unload .. | .reinstall .. | .dropTabSnapshots _ => True

instance (s : State) : ∀ e, Decidable (enabled P s e)
  | .mutate _ _ document connected => inferInstanceAs
    (Decidable (∀ e ∈ collectElements document.root true, connected e.id = true))
  | .startCapture c _ _ => inferInstanceAs (Decidable ((s.captures c).isNone = true))
  | .captureFrame c frameID snapshotID => inferInstanceAs (Decidable (snapshotID ∉ s.used ∧
    (s.captures c).any (fun capturing =>
      capturing.results.all (·.frameID ≠ frameID) &&
        (invokeFrame P (s.tab capturing.tabID) frameID).toOption.isSome) = true))
  | .storeCapture c snapshotID => inferInstanceAs (Decidable (snapshotID ∉ s.used ∧
    (s.captures c).any (!·.results.isEmpty) = true))
  | .navigated _ | .load .. | .unload .. | .reinstall .. | .dropTabSnapshots _ => isTrue trivial

/-- The empty document. -/
def emptyDocument : Document := ⟨[], by decide⟩

/-- One step of the extension and its tabs. -/
def next (s : State) : Event → State
  | .navigated tabID =>
    { s with documentEpoch := Function.update s.documentEpoch tabID (s.documentEpoch tabID + 1) }
  | .load tabID frameID parentFrameID url injectable =>
    s.load tabID {
      frameID, parentFrameID, url
      runtime := if injectable then some (emptyDocument, []) else none }
  | .unload tabID frameID => s.unload tabID frameID
  -- The page changes its document; the runtime keeps what it remembers.
  | .mutate tabID frameID document connected =>
    { s.updateRuntime tabID frameID (fun runtime => (document, runtime.2)) with connected }
  -- A runtime that is installed again begins with no snapshot.
  | .reinstall tabID frameID => s.updateRuntime tabID frameID fun runtime => (runtime.1, [])
  | .startCapture c tabID options =>
    { s with captures := Function.update s.captures c (some { tabID, options }) }
  | .captureFrame c frameID snapshotID =>
    match s.captures c with
    | some capturing =>
      match invokeFrame P (s.tab capturing.tabID) frameID with
      | .ok host => s.captureFrame P c capturing host snapshotID
      | .error _ => s
    | none => s
  | .storeCapture c snapshotID =>
    match s.captures c with
    | some capturing => s.storeCapture P c capturing snapshotID
    | none => s
  | .dropTabSnapshots tabID =>
    { s with snapshots := s.snapshots.filter (·.2.tabID ≠ tabID) }

/-- The frames of all tabs, and the captures of them. -/
def machine : Machine State Event where
  init := {}
  enabled := enabled P
  next := next P

instance (s : State) (e : Event) : Decidable ((machine P).enabled s e) :=
  inferInstanceAs (Decidable (enabled P s e))

end

/-! ### References -/

/-- `#prepareTarget` for a node, up to the call of the runtime: the frame, and what it is asked. -/
def nodeTarget (s : State) (tabID snapshotID nodeRef : String) :
    Except RpcError (ℕ × String × String) := do
  let snapshot ← findSnapshot (s.tab tabID) snapshotID
  match SecureInput.parseNodeRef nodeRef with
  | none =>
    .error { kind := "STALE_REFERENCE", message := "node reference is not bound to a frame" }
  | some (frameID, nodeRef) =>
    match snapshot.frames.lookup frameID with
    | some localSnapshotID => .ok (frameID, localSnapshotID, nodeRef)
    | none => .error (frameUnavailable "snapshot frame is unavailable")

/-- `#prepareTarget` for a node, which the extension looks up in `s` and the runtime in `s'`, up to
the element. -/
def resolveNode (P : Chrome) (s s' : State) (tabID snapshotID nodeRef : String) :
    Except RpcError ℕ := do
  let (frameID, localSnapshotID, nodeRef) ← nodeTarget s tabID snapshotID nodeRef
  let host ← invokeFrame P (s'.tab tabID) frameID
  resolveTarget s'.connected host localSnapshotID nodeRef

/-! ### The texts of references -/

/-- Two elements of a capture have two references. -/
theorem captureRef_injective : Function.Injective captureRef := by
  intro m n h
  have h_digits := congrArg String.toList h
  rw [captureRef, captureRef, String.toList_append, String.toList_append, List.append_right_inj,
    Nat.toList_repr, Nat.toList_repr] at h_digits
  have h_succ := congrArg (Nat.ofDigitChars 10 · 0) h_digits
  simpa only [Nat.ofDigitChars_ten_toDigits, Nat.add_right_cancel_iff] using h_succ

/-- The extension takes apart what it has put together. -/
theorem parseNodeRef_publishedRef (frameID index : ℕ) :
    SecureInput.parseNodeRef (framePrefix frameID ++ captureRef index) =
      some (frameID, captureRef index) := by
  have h_digits : ∀ n, ∀ c ∈ Nat.toDigits 10 n, c.isDigit = true := by
    intro n c hc
    exact Nat.isDigit_of_mem_toDigits (by decide) (by decide) hc
  -- the reference as its characters: the frame's number between `f` and `:`, then `e` and digits
  have h_toList : (framePrefix frameID ++ captureRef index).toList =
      'f' :: (Nat.toDigits 10 frameID ++ '_' :: 'e' :: Nat.toDigits 10 (index + 1)) := by
    simp [framePrefix, captureRef, Nat.toList_repr]
  -- `.` of the pattern matches them: there is no line terminator
  have h_line : (('e' :: Nat.toDigits 10 (index + 1)).any fun c =>
      decide (c = '\n' ∨ c = '\r' ∨ c = '\u2028' ∨ c = '\u2029')) = false := by
    have h_terminators : ∀ c : Char, c = '\n' ∨ c = '\r' ∨ c = '\u2028' ∨ c = '\u2029' →
        c.isDigit = false := by
      rintro c (rfl | rfl | rfl | rfl)
      all_goals decide
    rw [List.any_cons, Bool.or_eq_false_iff]
    refine ⟨by decide, List.any_eq_false.mpr ?_⟩
    intro c hc h_terminator
    have h_digit := h_digits _ c hc
    rw [h_terminators c (of_decide_eq_true h_terminator)] at h_digit
    cases h_digit
  -- the greedy `\d+` stops at the colon
  have h_takeWhile :
      (Nat.toDigits 10 frameID ++ '_' :: 'e' :: Nat.toDigits 10 (index + 1)).takeWhile
      Char.isDigit = Nat.toDigits 10 frameID := by
    rw [List.takeWhile_append_of_pos (h_digits frameID), List.takeWhile_cons_of_neg (by decide),
      List.append_nil]
  have h_dropWhile :
      (Nat.toDigits 10 frameID ++ '_' :: 'e' :: Nat.toDigits 10 (index + 1)).dropWhile
      Char.isDigit = '_' :: 'e' :: Nat.toDigits 10 (index + 1) := by
    rw [List.dropWhile_append_of_pos (h_digits frameID), List.dropWhile_cons_of_neg (by decide)]
  have h_ref : String.ofList ('e' :: Nat.toDigits 10 (index + 1)) = captureRef index := by
    rw [← String.toList_inj, String.toList_ofList, captureRef, String.toList_append,
      Nat.toList_repr]
    rfl
  have h_number := Nat.ofDigitChars_ten_toDigits (n := frameID)
  simp only [SecureInput.parseNodeRef, h_toList, h_takeWhile, h_dropWhile]
  cases h_eq : Nat.toDigits 10 frameID with
  | nil => exact absurd h_eq Nat.toDigits_ne_nil
  | cons d ds =>
    rw [h_eq] at h_number
    simp only [h_line, h_ref, h_number]
    rfl

/-- So references of different frames differ, and those of a frame do. -/
theorem publishedRef_inj {m n i j : ℕ}
    (h : framePrefix m ++ captureRef i = framePrefix n ++ captureRef j) : m = n ∧ i = j := by
  have h_parsed := parseNodeRef_publishedRef m i
  rw [h, parseNodeRef_publishedRef, Option.some_inj, Prod.mk.injEq] at h_parsed
  exact ⟨h_parsed.1.symm, captureRef_injective h_parsed.2.symm⟩

/-! ### What the stores hold -/

/-- The host that is found is a frame of the tab. -/
theorem frame_of_invokeFrame {P : Chrome} {tab : Tab} {frameID : ℕ} {host : Host}
    (h : invokeFrame P tab frameID = .ok host) : host.frameID = frameID ∧
      ∃ frame ∈ tab.frames, frame.runtime = some (host.document, host.snapshots) := by
  unfold invokeFrame at h
  split at h
  · rename_i frame h_find
    unfold Frame.host at h
    split at h
    · rename_i document snapshots h_runtime
      cases h
      have h_id := List.find?_some h_find
      exact ⟨of_decide_eq_true h_id, frame, List.mem_of_find?_eq_some h_find, h_runtime⟩
    · cases h
  · cases h

/-- What the runtime of the frame remembers are captures with their references. -/
def Remembers (captured : List (String × List Element)) (frame : Frame) : Prop :=
  ∀ runtime ∈ frame.runtime, ∀ entry ∈ runtime.2,
    ∃ elements, (entry.1, elements) ∈ captured ∧ entry.2 = captureRefs elements

/-- What a runtime remembers was captured, also when more is captured. -/
theorem Remembers.mono {captured captured' : List (String × List Element)} {frame : Frame}
    (h : Remembers captured frame) (h_sub : ∀ entry ∈ captured, entry ∈ captured') :
    Remembers captured' frame := by
  intro runtime h_runtime entry h_entry
  obtain ⟨elements, h_mem, h_refs⟩ := h runtime h_runtime entry h_entry
  exact ⟨elements, h_sub _ h_mem, h_refs⟩

/-- A capture on its way is the one that is put there, or one from before. -/
theorem mem_update {captures : ℕ → Option Capturing} {c c' : ℕ} {new : Option Capturing}
    {capturing : Capturing} (h : capturing ∈ Function.update captures c new c') :
    capturing ∈ new ∨ capturing ∈ captures c' := by
  by_cases h_c : c' = c
  · subst h_c
    rw [Function.update_self] at h
    exact .inl h
  · rw [Function.update_of_ne h_c] at h
    exact .inr h

/-- The invariant of a run. -/
structure Inv (P : Chrome) (s : State) : Prop where
  /-- All ids are drawn, and those of the runtimes once. -/
  capturedUsed : ∀ entry ∈ s.captured, entry.1 ∈ s.used
  storedUsed : ∀ entry ∈ s.snapshots, entry.1 ∈ s.used
  issuedUsed : ∀ i ∈ s.issued, i.snapshotID ∈ s.used
  capturedOnce : (s.captured.map (·.1)).Nodup
  remembered : ∀ tabID, ∀ frame ∈ s.frames tabID, Remembers s.captured frame
  results : ∀ c, ∀ capturing ∈ s.captures c, (capturing.results.map (·.frameID)).Nodup ∧
    ∀ result ∈ capturing.results, (result.snapshotID, result.elements) ∈ s.captured
  /-- The extension knows the capture of a reference, as long as it has the snapshot. -/
  known : ∀ entry ∈ s.snapshots, ∀ i ∈ s.issued, i.snapshotID = entry.1 →
    entry.2.frames.lookup i.frameID = some i.localSnapshotID
  described : ∀ i ∈ s.issued, ∃ elements index, (i.localSnapshotID, elements) ∈ s.captured ∧
    elements[index]? = some i.element ∧
      i.node = publishedNode i.frameID (describe P.browser i.element (captureRef index))
  distinct : ∀ snapshotID,
    ((s.issued.filter (·.snapshotID = snapshotID)).map (·.node.nodeRef)).Nodup

namespace Inv

variable {P : Chrome} {s : State}

theorem init : Inv P {} where
  capturedUsed _ h := by cases h
  storedUsed _ h := by cases h
  issuedUsed _ h := by cases h
  capturedOnce := .nil
  remembered _ _ h := by cases h
  results _ _ h := by cases h
  known _ h := by cases h
  described _ h := by cases h
  distinct _ := .nil

/-- The runtimes of the frames remember captures only. -/
theorem setFrames (h : Inv P s) (tabID : String) {frames : List Frame}
    (h_frames : ∀ frame ∈ frames, Remembers s.captured frame) :
    Inv P (s.setFrames tabID frames) := by
  refine { h with remembered := ?_ }
  intro tabID' frame h_frame
  by_cases h_tab : tabID' = tabID
  · subst h_tab
    refine h_frames frame ?_
    simpa [State.setFrames] using h_frame
  · refine h.remembered tabID' frame ?_
    simpa [State.setFrames, h_tab] using h_frame

/-- A new document has a runtime that remembers a capture, or none. -/
theorem load (h : Inv P s) (tabID : String) {frame : Frame} (h_frame : Remembers s.captured frame) :
    Inv P (s.load tabID frame) := by
  refine h.setFrames tabID ?_
  split
  · intro f hf
    obtain ⟨f₀, hf₀, rfl⟩ := List.mem_map.mp hf
    split
    · exact h_frame
    · exact h.remembered tabID f₀ hf₀
  · intro f hf
    obtain h_old | h_new := List.mem_append.mp hf
    · exact h.remembered tabID f h_old
    · obtain rfl := List.mem_singleton.mp h_new
      exact h_frame

/-- A frame that goes takes its runtime with it. -/
theorem unload (h : Inv P s) (tabID : String) (frameID : ℕ) : Inv P (s.unload tabID frameID) := by
  refine h.setFrames tabID ?_
  intro f hf
  exact h.remembered tabID f (List.mem_of_mem_filter hf)

/-- A runtime may forget captures, or remember one that is made. -/
theorem updateRuntime (h : Inv P s) (tabID : String) (frameID : ℕ)
    {f : Document × List (String × List (ℕ × String)) →
      Document × List (String × List (ℕ × String))}
    (hf : ∀ runtime, ∀ entry ∈ (f runtime).2, entry ∈ runtime.2 ∨
      ∃ elements, (entry.1, elements) ∈ s.captured ∧ entry.2 = captureRefs elements) :
    Inv P (s.updateRuntime tabID frameID f) := by
  refine h.setFrames tabID ?_
  intro frame h_frame
  obtain ⟨frame₀, h_frame₀, rfl⟩ := List.mem_map.mp h_frame
  have h_old := h.remembered tabID frame₀ h_frame₀
  split
  · intro runtime h_runtime entry h_entry
    obtain ⟨runtime₀, h_runtime₀, rfl⟩ := Option.map_eq_some_iff.mp h_runtime
    -- An entry is an old one or that of the capture.
    obtain h_mem | h_new := hf runtime₀ entry h_entry
    · exact h_old runtime₀ h_runtime₀ entry h_mem
    · exact h_new
  · exact h_old

/-- A frame is captured under an id that is new. -/
theorem captureFrame (h : Inv P s) {c : ℕ} {capturing : Capturing} {host : Host}
    {snapshotID : String} (h_capturing : s.captures c = some capturing)
    (h_fresh : snapshotID ∉ s.used)
    (h_frame : ∀ result ∈ capturing.results, result.frameID ≠ host.frameID) :
    Inv P (s.captureFrame P c capturing host snapshotID) := by
  obtain ⟨h_nodup, h_results⟩ := h.results c capturing h_capturing
  generalize h_elements : capturedElements P.browser capturing.options host.document.root = elements
  -- The capture is made before the runtime remembers it.
  have h_made : Inv P { s with
      used := snapshotID :: s.used
      captures := Function.update s.captures c <| some { capturing with
        results := capturing.results ++ [{ frameID := host.frameID, snapshotID, elements }] }
      captured := (snapshotID, elements) :: s.captured } := by
    constructor
    · intro entry h_entry
      obtain rfl | h_old := List.mem_cons.mp h_entry
      · exact List.mem_cons_self
      · exact List.mem_cons_of_mem _ (h.capturedUsed entry h_old)
    · exact fun entry h_entry => List.mem_cons_of_mem _ (h.storedUsed entry h_entry)
    · exact fun i hi => List.mem_cons_of_mem _ (h.issuedUsed i hi)
    · refine List.nodup_cons.mpr ⟨?_, h.capturedOnce⟩
      intro h_mem
      obtain ⟨entry, h_entry, h_id⟩ := List.mem_map.mp h_mem
      have h_used := h.capturedUsed entry h_entry
      rw [h_id] at h_used
      exact h_fresh h_used
    · intro tabID frame h_frame
      exact (h.remembered tabID frame h_frame).mono fun _ => List.mem_cons_of_mem _
    · intro c' capturing' h_capturing'
      obtain h_new | h_old := mem_update h_capturing'
      · cases h_new
        constructor
        · rw [List.map_append, List.nodup_append]
          refine ⟨h_nodup, List.nodup_singleton _, ?_⟩
          intro frameID h_old frameID' h_new h_eq
          obtain ⟨result, h_result, rfl⟩ := List.mem_map.mp h_old
          obtain rfl := List.mem_singleton.mp h_new
          exact h_frame result h_result h_eq
        · intro result h_result
          obtain h_old | h_new := List.mem_append.mp h_result
          · exact List.mem_cons_of_mem _ (h_results result h_old)
          · obtain rfl := List.mem_singleton.mp h_new
            exact List.mem_cons_self
      · obtain ⟨h_nodup', h_results'⟩ := h.results c' capturing' h_old
        exact ⟨h_nodup', fun result h_result => List.mem_cons_of_mem _ (h_results' result h_result)⟩
    · exact h.known
    · intro i hi
      obtain ⟨elements', index, h_mem, h_described⟩ := h.described i hi
      exact ⟨elements', index, List.mem_cons_of_mem _ h_mem, h_described⟩
    · exact h.distinct
  subst h_elements
  -- Then the runtime of the frame stores it, and drops the oldest.
  refine h_made.updateRuntime capturing.tabID host.frameID
    (f := fun runtime => (runtime.1, remember snapshotID _ runtime.2)) ?_
  intro runtime entry h_entry
  obtain h_old | h_new := List.mem_append.mp (List.mem_of_mem_drop h_entry)
  · exact .inl h_old
  · obtain rfl := List.mem_singleton.mp h_new
    exact .inr ⟨_, List.mem_cons_self, rfl⟩

/-- A capture begins. -/
theorem startCapture (h : Inv P s) (c : ℕ) (tabID : String) (options : SnapshotOptions) :
    Inv P { s with captures := Function.update s.captures c (some { tabID, options }) } := by
  refine { h with results := ?_ }
  intro c' capturing h_capturing
  obtain h_new | h_old := mem_update h_capturing
  · cases h_new
    exact ⟨.nil, fun _ h_result => by cases h_result⟩
  · exact h.results c' capturing h_old

end Inv

/-- What is issued for a frame. -/
theorem mem_issue {P : Chrome} {tabID snapshotID : String} {result : CaptureResult} {i : Issued}
    (h : i ∈ State.issue P tabID snapshotID result) :
    ∃ index e, result.elements[index]? = some e ∧
      i = { tabID
            snapshotID
            frameID := result.frameID
            localSnapshotID := result.snapshotID
            element := e
            node := publishedNode result.frameID (describe P.browser e (captureRef index)) } := by
  obtain ⟨index, h_index, rfl⟩ := List.mem_mapIdx.mp h
  exact ⟨index, _, List.getElem?_eq_getElem h_index, rfl⟩

/-- What is issued for all frames. -/
theorem mem_issued {P : Chrome} {tabID snapshotID : String} {results : List CaptureResult}
    {i : Issued} (h : i ∈ results.flatMap (State.issue P tabID snapshotID)) :
    ∃ result ∈ results, ∃ index e, result.elements[index]? = some e ∧
      i = { tabID
            snapshotID
            frameID := result.frameID
            localSnapshotID := result.snapshotID
            element := e
            node := publishedNode result.frameID (describe P.browser e (captureRef index)) } := by
  obtain ⟨result, h_result, h_issue⟩ := List.mem_flatMap.mp h
  exact ⟨result, h_result, mem_issue h_issue⟩

/-- **References within one capture are pairwise distinct**, since its frames are. -/
theorem nodup_issued (P : Chrome) (tabID snapshotID : String) {results : List CaptureResult}
    (h : (results.map (·.frameID)).Nodup) :
    ((results.flatMap (State.issue P tabID snapshotID)).map (·.node.nodeRef)).Nodup := by
  rw [List.map_flatMap, List.nodup_flatMap]
  constructor
  · intro result _
    -- Within a frame the numbers of the references differ.
    refine List.pairwise_iff_getElem.mpr ?_
    intro m n hm hn h_lt h_eq
    simp only [State.issue, List.getElem_map, List.getElem_mapIdx] at h_eq
    exact h_lt.ne (publishedRef_inj h_eq).2
  · refine (List.pairwise_map.mp h).imp ?_
    -- Between frames the frame's number in the reference does.
    intro r r' h_ne nodeRef h_left h_right
    obtain ⟨i, hi, rfl⟩ := List.mem_map.mp h_left
    obtain ⟨j, hj, h_eq⟩ := List.mem_map.mp h_right
    obtain ⟨m, e, -, rfl⟩ := mem_issue hi
    obtain ⟨n, e', -, rfl⟩ := mem_issue hj
    exact h_ne (publishedRef_inj h_eq).1.symm

/-- What the extension stores of a capture, it finds by the frame. -/
theorem lookup_results {results : List CaptureResult} (h : (results.map (·.frameID)).Nodup)
    {result : CaptureResult} (h_result : result ∈ results) :
    (results.map fun r => (r.frameID, r.snapshotID)).lookup result.frameID =
      some result.snapshotID := by
  induction results with
  | nil => cases h_result
  | cons r results ih =>
    rw [List.map_cons, List.nodup_cons] at h
    rw [List.map_cons, List.lookup_cons]
    -- The frame of a later result is not the first one's.
    obtain rfl | h_rest := List.mem_cons.mp h_result
    · rw [beq_self_eq_true]
    · have h_ne : result.frameID ≠ r.frameID := by
        intro h_eq
        rw [← h_eq] at h
        exact h.1 (List.mem_map_of_mem h_rest)
      rw [beq_false_of_ne h_ne]
      exact ih h.2 h_rest

namespace Inv

variable {P : Chrome} {s : State}

/-- A snapshot is stored, and its references are given out. -/
theorem storeCapture (h : Inv P s) {c : ℕ} {capturing : Capturing} {snapshotID : String}
    (h_capturing : s.captures c = some capturing) (h_fresh : snapshotID ∉ s.used) :
    Inv P (s.storeCapture P c capturing snapshotID) := by
  obtain ⟨h_nodup, h_results⟩ := h.results c capturing h_capturing
  have h_stored : ∀ entry ∈ (s.storeCapture P c capturing snapshotID).snapshots,
      entry ∈ s.snapshots ∨ entry = (snapshotID, {
        tabID := capturing.tabID
        documentEpoch := s.documentEpoch capturing.tabID
        frames := capturing.results.map fun result => (result.frameID, result.snapshotID) }) := by
    intro entry h_entry
    obtain h_old | h_new := List.mem_append.mp (List.mem_of_mem_drop h_entry)
    · exact .inl h_old
    · exact .inr (List.mem_singleton.mp h_new)
  constructor
  · exact fun entry h_entry => List.mem_cons_of_mem _ (h.capturedUsed entry h_entry)
  · intro entry h_entry
    obtain h_old | rfl := h_stored entry h_entry
    · exact List.mem_cons_of_mem _ (h.storedUsed entry h_old)
    · exact List.mem_cons_self
  -- a new reference is fresh as its snapshot is
  · intro i hi
    obtain h_old | h_new := List.mem_append.mp hi
    · exact List.mem_cons_of_mem _ (h.issuedUsed i h_old)
    · obtain ⟨result, -, index, e, -, rfl⟩ := mem_issued h_new
      exact List.mem_cons_self
  · exact h.capturedOnce
  · exact h.remembered
  -- the call that has ended has no results any more
  · intro c' capturing' h_capturing'
    obtain h_none | h_old := mem_update h_capturing'
    · cases h_none
    · exact h.results c' capturing' h_old
  · -- The id is fresh, so a snapshot and a reference have it in common if both are new.
    intro entry h_entry i hi h_id
    obtain h_old | rfl := h_stored entry h_entry
    · obtain h_issued | h_new := List.mem_append.mp hi
      · exact h.known entry h_old i h_issued h_id
      · obtain ⟨result, -, index, e, -, rfl⟩ := mem_issued h_new
        have h_used := h.storedUsed entry h_old
        rw [← h_id] at h_used
        exact absurd h_used h_fresh
    · obtain h_issued | h_new := List.mem_append.mp hi
      · have h_used := h.issuedUsed i h_issued
        rw [h_id] at h_used
        exact absurd h_used h_fresh
      · obtain ⟨result, h_result, index, e, -, rfl⟩ := mem_issued h_new
        exact lookup_results h_nodup h_result
  · intro i hi
    obtain h_old | h_new := List.mem_append.mp hi
    · exact h.described i h_old
    · obtain ⟨result, h_result, index, e, h_element, rfl⟩ := mem_issued h_new
      exact ⟨result.elements, index, h_results result h_result, h_element, rfl⟩
  -- of one snapshot all references are new, or none
  · intro id
    change (((s.issued ++ capturing.results.flatMap
      (State.issue P capturing.tabID snapshotID)).filter (·.snapshotID = id)).map
        (·.node.nodeRef)).Nodup
    rw [List.filter_append]
    by_cases h_id : id = snapshotID
    · subst h_id
      have h_old : s.issued.filter (·.snapshotID = id) = [] := by
        rw [List.filter_eq_nil_iff]
        intro i hi h_eq
        have h_used := h.issuedUsed i hi
        rw [of_decide_eq_true h_eq] at h_used
        exact h_fresh h_used
      have h_new : (capturing.results.flatMap (State.issue P capturing.tabID id)).filter
          (·.snapshotID = id) = capturing.results.flatMap (State.issue P capturing.tabID id) := by
        rw [List.filter_eq_self]
        intro i hi
        obtain ⟨result, -, index, e, -, rfl⟩ := mem_issued hi
        exact decide_eq_true rfl
      rw [h_old, h_new, List.nil_append]
      exact nodup_issued P _ _ h_nodup
    · have h_new : (capturing.results.flatMap (State.issue P capturing.tabID snapshotID)).filter
          (·.snapshotID = id) = [] := by
        rw [List.filter_eq_nil_iff]
        intro i hi h_eq
        obtain ⟨result, -, index, e, -, rfl⟩ := mem_issued hi
        exact h_id (of_decide_eq_true h_eq).symm
      rw [h_new, List.append_nil]
      exact h.distinct id

/-- **Step lemma.** -/
theorem next (h : Inv P s) {e : Event} (he : enabled P s e) : Inv P (NodeReference.next P s e) := by
  cases e with
  -- the browser: documents come and go, and with them their runtimes
  | navigated tabID => exact { h with }
  | load tabID frameID parentFrameID url injectable =>
    refine h.load tabID ?_
    intro runtime h_runtime entry h_entry
    cases injectable with
    | false => cases h_runtime
    | true =>
      cases h_runtime
      cases h_entry
  | unload tabID frameID => exact h.unload tabID frameID
  | mutate tabID frameID document connected =>
    have h_frames := h.updateRuntime tabID frameID (f := fun runtime => (document, runtime.2))
      fun runtime entry h_entry => .inl h_entry
    exact { h_frames with }
  | reinstall tabID frameID =>
    exact h.updateRuntime tabID frameID fun runtime entry h_entry => by cases h_entry
  -- the extension: a capture of all frames, and the end of a tab's snapshots
  | startCapture c tabID options => exact h.startCapture c tabID options
  | captureFrame c frameID snapshotID =>
    obtain ⟨h_fresh, h_any⟩ := he
    obtain ⟨capturing, h_capturing, h_guard⟩ := (Option.any_eq_true ..).mp h_any
    rw [Bool.and_eq_true, List.all_eq_true] at h_guard
    cases h_host : invokeFrame P (s.tab capturing.tabID) frameID with
    | error e =>
      simp only [NodeReference.next, h_capturing, h_host]
      exact h
    | ok host =>
      simp only [NodeReference.next, h_capturing, h_host]
      refine h.captureFrame h_capturing h_fresh ?_
      intro result h_result
      rw [(frame_of_invokeFrame h_host).1]
      simpa using h_guard.1 result h_result
  | storeCapture c snapshotID =>
    obtain ⟨h_fresh, h_any⟩ := he
    obtain ⟨capturing, h_capturing, -⟩ := (Option.any_eq_true ..).mp h_any
    simp only [NodeReference.next, h_capturing]
    exact h.storeCapture h_capturing h_fresh
  | dropTabSnapshots tabID =>
    refine { h with storedUsed := ?_, known := ?_ }
    · intro entry h_entry
      exact h.storedUsed entry (List.mem_of_mem_filter h_entry)
    · intro entry h_entry
      exact h.known entry (List.mem_of_mem_filter h_entry)

/-- The invariant holds in every state. -/
theorem reachable (h : (machine P).Reachable s) : Inv P s := by
  refine h.induction (P := Inv P) .init ?_
  intro s e _ h_inv he
  exact h_inv.next he

end Inv

/-- What a runtime has captured stays on record. -/
theorem mem_captured_exec {P : Chrome} {s : State} (hs : (machine P).Reachable s) {es : List Event}
    (h : (machine P).Runs s es) {entry : String × List Element} (h_entry : entry ∈ s.captured) :
    entry ∈ ((machine P).exec s es).captured := by
  refine h.stable (P := fun s => entry ∈ s.captured) (Q := fun _ => True) ?_ hs h_entry
    (fun _ _ => trivial)
  intro s e _ _ h_entry _
  cases e with
  -- a capture is added, and none is ever taken away
  | captureFrame c frameID snapshotID =>
    simp only [machine, next]
    split
    · split
      · exact List.mem_cons_of_mem _ h_entry
      · exact h_entry
    · exact h_entry
  | storeCapture c snapshotID =>
    simp only [machine, next]
    split
    · exact h_entry
    · exact h_entry
  | navigated | load | unload | mutate | reinstall | startCapture | dropTabSnapshots =>
    exact h_entry

/-! ### What a reference resolves to -/

/-- What is looked up is in the list. -/
theorem mem_of_lookup {β : Type*} {l : List (String × β)} {key : String} {b : β}
    (h : l.lookup key = some b) : (key, b) ∈ l := by
  obtain ⟨l₁, l₂, rfl, -⟩ := List.lookup_eq_some_iff.mp h
  exact List.mem_append_right _ List.mem_cons_self

/-- A reference of a capture has the element that the capture has called so. -/
theorem find?_captureRefs {elements : List Element} {index : ℕ} {e : Element}
    (h : elements[index]? = some e) :
    (captureRefs elements).find? (·.2 = captureRef index) = some (e.id, captureRef index) := by
  obtain ⟨h_index, rfl⟩ := List.getElem?_eq_some_iff.mp h
  have h_mem : (elements[index].id, captureRef index) ∈ captureRefs elements :=
    List.mem_mapIdx.mpr ⟨index, h_index, rfl⟩
  cases h_find : (captureRefs elements).find? (·.2 = captureRef index) with
  | none =>
    have h_ne := List.find?_eq_none.mp h_find _ h_mem
    exact absurd (decide_eq_true rfl) h_ne
  | some entry =>
    obtain ⟨j, hj, rfl⟩ := List.mem_mapIdx.mp (List.mem_of_find?_eq_some h_find)
    have h_ref := List.find?_some h_find
    obtain rfl := captureRef_injective (of_decide_eq_true h_ref)
    rfl

section

variable {P : Chrome} {s s' : State} {i : Issued}

/-- The capture that a runtime remembers is the one on record. -/
theorem Inv.lookup_eq (h : Inv P s) {tabID : String} {frameID : ℕ} {host : Host}
    (h_host : invokeFrame P (s.tab tabID) frameID = .ok host) {snapshotID : String}
    {elements : List Element} (h_captured : (snapshotID, elements) ∈ s.captured)
    {refs : List (ℕ × String)} (h_lookup : host.snapshots.lookup snapshotID = some refs) :
    refs = captureRefs elements := by
  obtain ⟨-, frame, h_frame, h_runtime⟩ := frame_of_invokeFrame h_host
  obtain ⟨elements', h_captured', rfl⟩ :=
    h.remembered tabID frame h_frame _ h_runtime _ (mem_of_lookup h_lookup)
  have h_entry := List.inj_on_of_nodup_map h.capturedOnce h_captured h_captured' rfl
  rw [Prod.mk.injEq] at h_entry
  rw [h_entry.2]

/-- **The extension's half**: either the snapshot is not one of the document's any more, or the
runtime of the frame is asked for the reference that it has made up. -/
theorem Inv.nodeTarget_eq (h : Inv P s) (hi : i ∈ s.issued) (tabID : String) {index : ℕ}
    (h_node : i.node = publishedNode i.frameID (describe P.browser i.element (captureRef index))) :
    nodeTarget s tabID i.snapshotID i.node.nodeRef =
      (fun _ => (i.frameID, i.localSnapshotID, captureRef index)) <$>
        findSnapshot (s.tab tabID) i.snapshotID := by
  have h_ref : i.node.nodeRef = framePrefix i.frameID ++ captureRef index :=
    congrArg (·.nodeRef) h_node
  unfold nodeTarget
  cases h_find : findSnapshot (s.tab tabID) i.snapshotID with
  | error e => rfl
  -- a snapshot that is found has the frames of the capture
  | ok snapshot =>
    have h_mem : (i.snapshotID, snapshot) ∈ s.snapshots := by
      unfold findSnapshot at h_find
      split at h_find
      · rename_i snapshot' h_lookup
        split at h_find
        · cases h_find
        · cases h_find
          exact mem_of_lookup h_lookup
      · cases h_find
    have h_frame : snapshot.frames.lookup i.frameID = some i.localSnapshotID :=
      h.known _ h_mem i hi rfl
    rw [h_ref, parseNodeRef_publishedRef]
    simp only [bind, Except.bind, h_frame]
    rfl

/-- **What a reference resolves to**: the element that it was issued for, unless one of the stores,
the frame or the element is gone. -/
theorem Inv.resolveNode_eq (h : Inv P s) (h' : Inv P s')
    (h_captured : ∀ entry ∈ s.captured, entry ∈ s'.captured) (hi : i ∈ s.issued) (tabID : String) :
    resolveNode P s s' tabID i.snapshotID i.node.nodeRef =
      findSnapshot (s.tab tabID) i.snapshotID >>= fun _ =>
        invokeFrame P (s'.tab tabID) i.frameID >>= fun host =>
          if (host.snapshots.lookup i.localSnapshotID).isNone then .error snapshotForgotten
          else if s'.connected i.element.id then .ok i.element.id
          else .error detachedNode := by
  obtain ⟨elements, index, h_mem, h_element, h_node⟩ := h.described i hi
  unfold resolveNode
  rw [h.nodeTarget_eq hi tabID h_node]
  cases findSnapshot (s.tab tabID) i.snapshotID with
  | error e => rfl
  | ok snapshot =>
    simp only [bind, Except.bind, Functor.map, Except.map]
    -- the frame is gone, or its runtime looks the reference up
    cases h_host : invokeFrame P (s'.tab tabID) i.frameID with
    | error e => rfl
    | ok host =>
      simp only [resolveTarget, findElement]
      cases h_lookup : host.snapshots.lookup i.localSnapshotID with
      | none => rfl
      | some refs =>
        obtain rfl := h'.lookup_eq h_host (h_captured _ h_mem) h_lookup
        simp only [find?_captureRefs h_element]
        rfl

/-- A snapshot that is not found is stale. -/
theorem kind_of_findSnapshot {tab : Tab} {snapshotID : String} {e : RpcError}
    (h : findSnapshot tab snapshotID = .error e) : e.kind = "STALE_REFERENCE" := by
  unfold findSnapshot at h
  split at h
  · split at h
    · cases h
      rfl
    · cases h
  · cases h
    rfl

/-- The reference `i`, looked up by the extension in `s` and by the runtime in `s'`, is of no use: a
store has evicted the snapshot, or the element is not connected. -/
def Gone (P : Chrome) (s s' : State) (tabID : String) (i : Issued) : Prop :=
  s.snapshots.lookup i.snapshotID = none ∨
    (∀ host, invokeFrame P (s'.tab tabID) i.frameID = .ok host →
      host.snapshots.lookup i.localSnapshotID = none) ∨
    s'.connected i.element.id = false

/-- **A node reference keeps its meaning.** -/
structure KeepsMeaning (P : Chrome) (s s' : State) (i : Issued) : Prop where
  /-- It is the reference of an element that the capture has described under it. -/
  described : ∃ ref, i.node = publishedNode i.frameID (describe P.browser i.element ref)
  /-- If it resolves, then to that element. -/
  element : ∀ tabID id, resolveNode P s s' tabID i.snapshotID i.node.nodeRef = .ok id →
    id = i.element.id
  /-- If it is of no use, then it is stale or detached, unless the frame is gone as well. -/
  fails : ∀ tabID, Gone P s s' tabID i →
    ∃ e, resolveNode P s s' tabID i.snapshotID i.node.nodeRef = .error e ∧
      (e.kind = "STALE_REFERENCE" ∨ e.kind = "DETACHED_NODE" ∨
        e.kind = "FRAME_UNAVAILABLE" ∧ ∀ host, invokeFrame P (s'.tab tabID) i.frameID ≠ .ok host)

/-- A reference that was given out means the same element later. -/
theorem Inv.staysMeant (h : Inv P s) (h' : Inv P s')
    (h_captured : ∀ entry ∈ s.captured, entry ∈ s'.captured) (hi : i ∈ s.issued) :
    KeepsMeaning P s s' i := by
  constructor
  -- what it was given for
  · obtain ⟨-, index, -, -, h_node⟩ := h.described i hi
    exact ⟨captureRef index, h_node⟩
  -- an answer comes from the runtime that has the capture, in the frame of the reference
  · intro tabID id h_ok
    rw [h.resolveNode_eq h' h_captured hi tabID] at h_ok
    obtain ⟨snapshot, -, h_ok⟩ := Encoding.of_bind_ok h_ok
    obtain ⟨host, -, h_ok⟩ := Encoding.of_bind_ok h_ok
    split at h_ok
    · cases h_ok
    · split at h_ok
      · exact (Except.ok.inj h_ok).symm
      · cases h_ok
  -- after the frame is gone there is an error
  · intro tabID h_gone
    rw [h.resolveNode_eq h' h_captured hi tabID]
    cases h_find : findSnapshot (s.tab tabID) i.snapshotID with
    | error e => exact ⟨e, rfl, .inl (kind_of_findSnapshot h_find)⟩
    | ok snapshot =>
      cases h_host : invokeFrame P (s'.tab tabID) i.frameID with
      | error e =>
        refine ⟨e, rfl, .inr (.inr ⟨fails_invokeFrame i.frameID e h_host, ?_⟩)⟩
        intro host h_ok
        cases h_ok
      | ok host =>
        simp only [bind, Except.bind]
        split
        · exact ⟨snapshotForgotten, rfl, .inl rfl⟩
        · rename_i h_remembered
          obtain h_evicted | h_forgotten | h_connected := h_gone
          · -- The extension has found the snapshot.
            have h_none : (s.tab tabID).snapshots.lookup i.snapshotID = none := h_evicted
            rw [findSnapshot, h_none] at h_find
            cases h_find
          · rw [h_forgotten host h_host] at h_remembered
            exact absurd rfl h_remembered
          · rw [h_connected]
            exact ⟨detachedNode, rfl, .inr (.inl rfl)⟩

end

/-- **Node references never change meaning.** In every run, whatever is captured and stored, however
pages change, and whatever is evicted between the lookup of a reference in the extension and in the
frame: a reference that has been issued keeps its meaning, and those of a snapshot differ. -/
theorem keepsMeaning {P : Chrome} {s : State} (hs : (machine P).Reachable s) {es : List Event}
    (h : (machine P).Runs s es) :
    (∀ i ∈ s.issued, KeepsMeaning P s ((machine P).exec s es) i) ∧
      ∀ snapshotID,
        ((s.issued.filter (·.snapshotID = snapshotID)).map (·.node.nodeRef)).Nodup := by
  have h_inv := Inv.reachable hs
  have h_inv' := Inv.reachable (hs.exec h)
  constructor
  · intro i hi
    exact h_inv.staysMeant h_inv' (fun entry => mem_captured_exec hs h) hi
  · exact h_inv.distinct

/-- `resolve` finds the same element, and calls a detached one stale. -/
theorem resolve_eq_ok_iff {connected : ℕ → Bool} {host : Host} {snapshotID nodeRef : String}
    {id : ℕ} :
    resolve connected host snapshotID nodeRef = .ok id ↔
      resolveTarget connected host snapshotID nodeRef = .ok id := by
  simp only [resolve, resolveTarget, findElement]
  cases host.snapshots.lookup snapshotID with
  | none => exact Iff.rfl
  | some refs =>
    dsimp only
    -- Without an entry both of them fail.
    cases refs.find? (·.2 = nodeRef) with
    | none => exact iff_of_false (by simp) (by simp)
    | some entry =>
      dsimp only
      split
      · exact Iff.rfl
      · exact iff_of_false (by simp) (by simp)

/-! ### References of queries

A query for a snapshot answers with the references that the capture has given, and with made-up ones
for the other elements. -/

/-- No capture gives a made-up reference. -/
theorem captureRef_ne_made (index n : ℕ) : captureRef index ≠ "q" ++ Nat.repr n := by
  intro h
  have h_head := congrArg (fun ref => ref.toList.head?) h
  simp [captureRef] at h_head

/-- The reference of an element, by its place. -/
theorem lookup_captureRefs {elements : List Element} {id : ℕ} {ref : String}
    (h : (captureRefs elements).lookup id = some ref) :
    ∃ index e, elements[index]? = some e ∧ e.id = id ∧ ref = captureRef index := by
  obtain ⟨l₁, l₂, h_eq, -⟩ := List.lookup_eq_some_iff.mp h
  have h_mem : (id, ref) ∈ captureRefs elements := by
    rw [h_eq]
    exact List.mem_append_right _ List.mem_cons_self
  obtain ⟨index, h_index, h_entry⟩ := List.mem_mapIdx.mp h_mem
  rw [Prod.mk.injEq] at h_entry
  exact ⟨index, _, List.getElem?_eq_getElem h_index, h_entry.1, h_entry.2.symm⟩

/-- The reference that a query answers with for an element is made up, or given by the capture. -/
theorem Inv.nodeRef_of_query {P : Chrome} {s : State} (h : Inv P s) {tabID : String} {frameID : ℕ}
    {host : Host} (h_host : invokeFrame P (s.tab tabID) frameID = .ok host) {locator : Locator}
    {snapshotID : String} {n : ℕ} {e : Element}
    (h_element : (queryLocator P.browser locator host.document.root)[n]? = some e)
    {node : NodeDescription} (h_node : (host.query P locator (some snapshotID))[n]? = some node) :
    node.nodeRef = "q" ++ Nat.repr (n + 1) ∨
      ∃ elements index e', (snapshotID, elements) ∈ s.captured ∧
      elements[index]? = some e' ∧ e'.id = e.id ∧ node.nodeRef = captureRef index := by
  rw [Host.query, List.getElem?_mapIdx, h_element] at h_node
  obtain rfl := Option.some.inj h_node
  obtain ⟨-, frame, h_frame, h_runtime⟩ := frame_of_invokeFrame h_host
  simp only [describe, Option.bind_some]
  cases h_lookup : host.snapshots.lookup snapshotID with
  -- the runtime has forgotten the capture, and makes a reference up
  | none => exact .inl rfl
  -- it has kept the references of the capture
  | some refs =>
    obtain ⟨elements, h_captured, h_refs⟩ :=
      h.remembered tabID frame h_frame _ h_runtime _ (mem_of_lookup h_lookup)
    have h_captureRefs : refs = captureRefs elements := h_refs
    subst h_captureRefs
    cases h_ref : (captureRefs elements).lookup e.id with
    | none =>
      refine .inl ?_
      rw [Option.getD_some, h_ref, Option.getD_none]
    | some ref =>
      obtain ⟨index, e', h_index, h_id, rfl⟩ := lookup_captureRefs h_ref
      refine .inr ⟨elements, index, e', h_captured, h_index, h_id, ?_⟩
      rw [Option.getD_some, h_ref, Option.getD_some]

/-- What a runtime resolves is a reference that a capture has given. -/
theorem Inv.element_of_resolveTarget {P : Chrome} {s : State} (h : Inv P s) {tabID : String}
    {frameID : ℕ} {host : Host} (h_host : invokeFrame P (s.tab tabID) frameID = .ok host)
    {snapshotID nodeRef : String} {id : ℕ}
    (h_ok : resolveTarget s.connected host snapshotID nodeRef = .ok id) :
    ∃ elements index e, (snapshotID, elements) ∈ s.captured ∧ elements[index]? = some e ∧
      nodeRef = captureRef index ∧ id = e.id := by
  rw [resolveTarget, findElement] at h_ok
  cases h_lookup : host.snapshots.lookup snapshotID with
  | none =>
    rw [h_lookup] at h_ok
    cases h_ok
  -- the references are those of the capture with this id
  | some refs =>
    obtain ⟨-, frame, h_frame, h_runtime⟩ := frame_of_invokeFrame h_host
    obtain ⟨elements, h_captured, -⟩ :=
      h.remembered tabID frame h_frame _ h_runtime _ (mem_of_lookup h_lookup)
    obtain rfl := h.lookup_eq h_host h_captured h_lookup
    simp only [h_lookup] at h_ok
    cases h_find : (captureRefs elements).find? (·.2 = nodeRef) with
    | none =>
      rw [h_find] at h_ok
      cases h_ok
    | some entry =>
      have h_ref := List.find?_some h_find
      obtain ⟨index, h_index, rfl⟩ := List.mem_mapIdx.mp (List.mem_of_find?_eq_some h_find)
      simp only [h_find] at h_ok
      split at h_ok
      · exact ⟨elements, index, _, h_captured, List.getElem?_eq_getElem h_index,
          (of_decide_eq_true h_ref).symm, (Except.ok.inj h_ok).symm⟩
      · cases h_ok

/-- The reference that a query for a snapshot of the runtime answers with for an element resolves,
at any later time, to no other element. -/
theorem element_of_query {P : Chrome} {s : State} (hs : (machine P).Reachable s) {es : List Event}
    (h : (machine P).Runs s es) {tabID : String} {frameID : ℕ} {host host' : Host}
    (h_host : invokeFrame P (s.tab tabID) frameID = .ok host)
    (h_host' : invokeFrame P (((machine P).exec s es).tab tabID) frameID = .ok host')
    {locator : Locator} {snapshotID : String} {n : ℕ} {e : Element}
    (h_element : (queryLocator P.browser locator host.document.root)[n]? = some e)
    {node : NodeDescription} (h_node : (host.query P locator (some snapshotID))[n]? = some node)
    {id : ℕ} (h_ok : resolveTarget ((machine P).exec s es).connected host' snapshotID node.nodeRef =
      .ok id) : id = e.id := by
  have h_inv' := Inv.reachable (hs.exec h)
  obtain ⟨elements', index', e', h_captured', h_index', h_ref', rfl⟩ :=
    h_inv'.element_of_resolveTarget h_host' h_ok
  obtain h_made | ⟨elements, index, e'', h_captured, h_index, h_id, h_ref⟩ :=
    (Inv.reachable hs).nodeRef_of_query h_host h_element h_node
  -- a reference that was made up is none of a capture
  · exact absurd (h_ref'.symm.trans h_made) (captureRef_ne_made index' (n + 1))
  -- one id means one capture, and there each reference names one element
  · have h_entry := List.inj_on_of_nodup_map h_inv'.capturedOnce h_captured'
      (mem_captured_exec hs h h_captured) rfl
    rw [Prod.mk.injEq] at h_entry
    obtain rfl := h_entry.2
    obtain rfl := captureRef_injective (h_ref'.symm.trans h_ref)
    rw [h_index'] at h_index
    rw [Option.some.inj h_index, h_id]

/-- A page with a button. -/
def buttonPage : Document :=
  ⟨[.mk 7 { tagName := "button" } [] []], by simp [Distinct, collectElements, Element.inside]⟩

/-- A tab with a button in a frame is captured. -/
def capturedTab : List Event :=
  [.load "tab_1" 0 none "https://a.test/" true, .load "tab_1" 3 (some 0) "https://b.test/" true,
    .mutate "tab_1" 3 buttonPage (· = 7), .startCapture 0 "tab_1" {}, .captureFrame 0 0 "snap_a",
    .captureFrame 0 3 "snap_b", .storeCapture 0 "snap_c"]

/-- The page takes the button away after the capture, and puts it back. -/
theorem keepsMeaning_of_reattached :
    (∀ i ∈ ((machine chrome).exec {} capturedTab).issued,
      KeepsMeaning chrome ((machine chrome).exec {} capturedTab)
        ((machine chrome).exec ((machine chrome).exec {} capturedTab)
          [.mutate "tab_1" 3 emptyDocument fun _ => false,
            .mutate "tab_1" 3 buttonPage (· = 7)]) i) ∧
      ∀ snapshotID, ((((machine chrome).exec {} capturedTab).issued.filter
        (·.snapshotID = snapshotID)).map (·.node.nodeRef)).Nodup :=
  keepsMeaning ⟨capturedTab, by decide +kernel, rfl⟩ (by decide +kernel)

/-- The frame is removed with the button in it, and then the frame is not available. -/
theorem not_keepsMeaning_removedFrame :
    ¬ ∀ (P : Chrome) (s : State), (machine P).Reachable s → ∀ i ∈ s.issued, ∀ tabID,
      s.connected i.element.id = false → ∃ e,
        resolveNode P s s tabID i.snapshotID i.node.nodeRef = .error e ∧
          (e.kind = "STALE_REFERENCE" ∨ e.kind = "DETACHED_NODE") := by
  intro h_all
  obtain ⟨e, h_error, h_kind⟩ := h_all chrome _
    ⟨capturedTab ++ [.mutate "tab_1" 3 emptyDocument fun _ => false, .unload "tab_1" 3],
      by decide +kernel, rfl⟩ _ (List.getElem_mem (n := 0) (by decide +kernel)) "tab_1"
    (by decide +kernel)
  have h_unavailable : e = frameUnavailable "no frame" := by
    have h_resolved := h_error.symm.trans (by rfl : _ = Except.error (frameUnavailable "no frame"))
    exact Except.error.inj h_resolved
  rw [h_unavailable] at h_kind
  exact absurd h_kind (by decide)

end BrowserControl.Extension.NodeReference
