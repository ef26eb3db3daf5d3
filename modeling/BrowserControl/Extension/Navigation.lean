import BrowserControl.Extension.WaiterMoves

/-!
# Completed navigations

`navigation.completed` has two sources. The listeners of `webNavigation` look at the frame that an
event is about, and emit for the top frame only. The debugger tells of each frame of a tab, and of
each target that is attached to it; `#onDebuggerEvent` takes a `load` for a completed navigation of
the tab, whichever frame has loaded.

`Navigation.machine` merges the two, next to the requests that wait for navigations and for anything
else (`Waiters`). Which frame is the top frame is for Chrome to say.

`topOnly_iff` is about what is emitted for a tab, and about the waiters that it resolves.
-/

namespace BrowserControl.Extension.Navigation

open Encoding Transition

/-! ### The source -/

/-- `Debuggee`: the tab, and the session of the target unless it is the root. -/
structure Debuggee where
  tabID : Option ℕ
  sessionID : Option String := none

/-- The events of the debugger that something is emitted for. -/
inductive DebuggerEvent where
  | frameStartedLoading (frameID : String)
  | lifecycleEvent (frameID name : String)
  | javascriptDialogOpening
  | javascriptDialogClosed
  | fileChooserOpened
  | consoleAPICalled
  | entryAdded
  /-- Events that the debugger keeps to itself. -/
  | silent

/-- What `DebuggerManager` passes on. -/
structure Payload where
  chromeTabID : ℕ
  frameID : Option String := none
  lifecycle : Option String := none
  sessionID : Option String := none

/-- The listeners of `webNavigation`. -/
inductive WebNavigation where
  | committed
  | completed
  | historyStateUpdated
  | referenceFragmentUpdated

/-- What the service tells of a tab. -/
structure ServiceEvent where
  type : String
  tabID : Option String := none
  openerTabID : Option String := none

/-- What else the service emits. -/
def otherTypes : List String :=
  ["download.started", "download.completed", "download.failed", "download.progress",
    "emergency.stop", "fileChooser.completed", "popup.opened", "secureInput.cancelled",
    "secureInput.completed", "session.stopped", "tab.activated", "tab.claimed", "tab.closed",
    "tab.created", "tab.released", "tab.updated"]

/-- A `navigation.completed` that was emitted. -/
structure Completion where
  tabID : Option String
  /-- It was the top frame of the tab that completed something. -/
  top : Bool
  deriving DecidableEq

/-- The waiters, the tabs, and what was told of them. -/
structure State (ρ : Type*) where
  waiters : Waiters.State ρ := {}
  /-- The handles of the registry. -/
  handles : ℕ → Option String := fun _ => none
  /-- The tabs that the debugger is attached to. -/
  attached : ℕ → Bool := fun _ => false
  /-- The name that Chrome has for the top frame of a tab. -/
  topFrame : ℕ → Option String := fun _ => none
  completions : List Completion := []
  /-- The completion that a waiter was resolved with. -/
  resolvedBy : ρ × ℕ → Option Completion := fun _ => none

variable {ρ : Type*} [DecidableEq ρ]

/-- `DebuggerManager.#onEvent`: what it emits. -/
def onEvent (s : State ρ) (source : Debuggee) (event : DebuggerEvent) : Option (String × Payload) :=
  match source.tabID with
  | none => none
  | some tabID =>
    if s.attached tabID = false then none
    else
      match event with
      -- The frame is passed on, whichever frame it is.
      | .frameStartedLoading frameID =>
        some ("navigation.started",
          { chromeTabID := tabID, frameID := some frameID, sessionID := source.sessionID })
      | .lifecycleEvent frameID name =>
        if name = "load" ∨ name = "networkIdle" then
          some ("navigation.lifecycle",
            { chromeTabID := tabID
              frameID := some frameID
              lifecycle := some name
              sessionID := source.sessionID })
        else none
      | .javascriptDialogOpening => some ("dialog.opened", { chromeTabID := tabID })
      | .javascriptDialogClosed => some ("dialog.closed", { chromeTabID := tabID })
      | .fileChooserOpened => some ("fileChooser.opened", { chromeTabID := tabID })
      | .consoleAPICalled | .entryAdded => some ("console.entry", { chromeTabID := tabID })
      | .silent => none

/-- `#onDebuggerEvent`: how the service translates it. -/
def onDebuggerEvent (s : State ρ) (type : String) (payload : Payload) : ServiceEvent where
  type :=
    if type = "navigation.lifecycle" ∧ payload.lifecycle = some "load" then "navigation.completed"
    else type
  tabID := s.handles payload.chromeTabID

/-- The listeners of `webNavigation`: what they emit. -/
def onWebNavigation (s : State ρ) (listener : WebNavigation) (chromeTabID frameID : ℕ) :
    List ServiceEvent :=
  -- The listeners of `webNavigation` look at top frames only.
  if frameID ≠ 0 then []
  else
    match s.handles chromeTabID with
    | none => []
    | some tabID =>
      match listener with
      | .committed => [{ type := "navigation.committed", tabID := some tabID }]
      | .completed => [{ type := "navigation.completed", tabID := some tabID }]
      | .historyStateUpdated | .referenceFragmentUpdated =>
        [{ type := "navigation.committed", tabID := some tabID },
          { type := "navigation.completed", tabID := some tabID }]

/-! ### The machine -/

/-- An event of the service is one of `navigation.completed`. -/
def ServiceEvent.Completes (e : ServiceEvent) : Prop := e.type = "navigation.completed"

instance (e : ServiceEvent) : Decidable e.Completes := inferInstanceAs (Decidable (_ = _))

namespace State

variable (s : State ρ)

/-- The event tells of the top frame of its tab. -/
def isTopFrame (payload : Payload) : Bool :=
  payload.sessionID = none && payload.frameID.isSome &&
    s.topFrame payload.chromeTabID = payload.frameID

/-- `#emit`, with what it is about written down. -/
def emit (e : ServiceEvent) (top : Bool) : State ρ :=
  { s with
    waiters := s.waiters.emit e.type e.tabID e.openerTabID
    completions := if e.Completes then s.completions ++ [⟨e.tabID, top⟩] else s.completions
    resolvedBy := fun w =>
      if e.Completes ∧ w ∈ s.waiters.waiters ∧ s.waiters.awaits e.type e.tabID e.openerTabID w then
        some ⟨e.tabID, top⟩
      else s.resolvedBy w }

end State

/-- What can happen. -/
inductive Event (ρ : Type*) where
  | webNavigation (listener : WebNavigation) (chromeTabID frameID : ℕ)
  | debugger (source : Debuggee) (event : DebuggerEvent)
  /-- Chrome detaches the debugger from a tab. -/
  | onDetach (chromeTabID : ℕ)
  | attach (chromeTabID : ℕ)
  | detach (chromeTabID : ℕ)
  | register (chromeTabID : ℕ) (tabID : String)
  | remove (chromeTabID : ℕ)
  | topFrame (chromeTabID : ℕ) (frameID : Option String)
  /-- Something else is emitted. -/
  | other (e : ServiceEvent)
  /-- A request goes on that waits, or a waiter is settled otherwise. -/
  | request (e : Waiters.Event ρ)

/-- The step is one of the requests; what they wait for is emitted by the other events. -/
def IsRequest : Waiters.Event ρ → Prop
  | .emit .. => False
  | _ => True

instance : ∀ e : Waiters.Event ρ, Decidable (IsRequest e)
  | .emit .. => isFalse id
  | .perform .. | .wait .. | .acted _ | .failed _ | .allSettled _ | .resolved _ | .rejected _
  | .finished _ | .timeout _ | .associateDownload .. | .noteDownloadCreated _ | .completeDownload ..
  | .stopAll | .stopSession _ => isTrue trivial

/-- When a step can happen. -/
def enabled (s : State ρ) : Event ρ → Prop
  | .other e => e.type ∈ otherTypes
  | .request e => Waiters.enabled s.waiters e ∧ IsRequest e
  | _ => True

instance (s : State ρ) : ∀ e, Decidable (enabled s e)
  | .other e => inferInstanceAs (Decidable (e.type ∈ otherTypes))
  | .request e => inferInstanceAs (Decidable (Waiters.enabled s.waiters e ∧ IsRequest e))
  | .webNavigation .. | .debugger .. | .onDetach _ | .attach _ | .detach _ | .register ..
  | .remove _ | .topFrame .. => isTrue trivial

/-- One step of the service. -/
def next (s : State ρ) : Event ρ → State ρ
  | .webNavigation listener chromeTabID frameID =>
    (onWebNavigation s listener chromeTabID frameID).foldl (fun s e => s.emit e (frameID = 0)) s
  -- `isTopFrame` is a ghost of the event: the source does not ask for it.
  | .debugger source event =>
    match onEvent s source event with
    | none => s
    | some (type, payload) => s.emit (onDebuggerEvent s type payload) (s.isTopFrame payload)
  | .onDetach chromeTabID =>
    if s.attached chromeTabID = false then s
    else { s with attached := Function.update s.attached chromeTabID false }.emit
      (onDebuggerEvent s "debugger.detached" { chromeTabID }) false
  | .attach chromeTabID => { s with attached := Function.update s.attached chromeTabID true }
  | .detach chromeTabID => { s with attached := Function.update s.attached chromeTabID false }
  | .register chromeTabID tabID =>
    { s with handles := Function.update s.handles chromeTabID (some tabID) }
  | .remove chromeTabID => { s with handles := Function.update s.handles chromeTabID none }
  | .topFrame chromeTabID frameID =>
    { s with topFrame := Function.update s.topFrame chromeTabID frameID }
  | .other e => s.emit e false
  | .request e => { s with waiters := Waiters.next s.waiters e }

/-- The events of Chrome, and the requests that wait. -/
def machine (ρ : Type*) [DecidableEq ρ] : Machine (State ρ) (Event ρ) where
  init := {}
  enabled := enabled
  next := next

instance (s : State ρ) (e : Event ρ) : Decidable ((machine ρ).enabled s e) :=
  inferInstanceAs (Decidable (enabled s e))

/-- What an expectation of a navigation waits for. -/
def navigation : Waiters.Awaited := .event "navigation.completed" false

/-- **A completed navigation is one of the top frame.** -/
structure TopOnly (s : State ρ) : Prop where
  emitted : ∀ c ∈ s.completions, c.tabID.isSome = true → c.top = true
  /-- A waiter is resolved by a completion of the top frame of its tab. -/
  resolved : ∀ w, (s.waiters.waiter w).awaited = navigation →
    (s.waiters.waiter w).outcome = some true → ∃ c ∈ s.completions,
      s.resolvedBy w = some c ∧ c.tabID = some (s.waiters.waiter w).tabID ∧ c.top = true

/-- A frame that loads, as the debugger tells of a tab with a handle, is the top frame. -/
def LoadsTop (s : State ρ) : Event ρ → Prop
  | .debugger source (.lifecycleEvent frameID name) =>
    name = "load" → ∀ tabID ∈ source.tabID, s.attached tabID = true →
      (s.handles tabID).isSome = true → source.sessionID = none ∧ s.topFrame tabID = some frameID
  | _ => True

instance (s : State ρ) : ∀ e, Decidable (LoadsTop s e)
  | .debugger source (.lifecycleEvent frameID name) =>
    inferInstanceAs (Decidable (name = "load" → ∀ tabID ∈ source.tabID, s.attached tabID = true →
      (s.handles tabID).isSome = true → source.sessionID = none ∧ s.topFrame tabID = some frameID))
  | .debugger _ (.frameStartedLoading _) | .debugger _ .javascriptDialogOpening
  | .debugger _ .javascriptDialogClosed | .debugger _ .fileChooserOpened
  | .debugger _ .consoleAPICalled | .debugger _ .entryAdded | .debugger _ .silent
  | .webNavigation .. | .onDetach _ | .attach _ | .detach _ | .register .. | .remove _
  | .topFrame .. | .other _ | .request _ => isTrue trivial

/-! ### What always holds -/

variable {s : State ρ}

/-- What holds in every run. -/
structure Inv (s : State ρ) : Prop where
  waiters : Waiters.Inv s.waiters
  typed : Waiters.Typed s.waiters
  /-- A waiter for navigations is resolved by a completion on its tab. -/
  resolved : ∀ w, (s.waiters.waiter w).awaited = navigation →
    (s.waiters.waiter w).outcome = some true → ∃ c ∈ s.completions,
      s.resolvedBy w = some c ∧ c.tabID = some (s.waiters.waiter w).tabID

omit [DecidableEq ρ] in
theorem Inv.init : Inv ({} : State ρ) where
  waiters := .init
  typed := List.forall_mem_nil _
  resolved w _ h := absurd h (by simp)

omit [DecidableEq ρ] in
/-- A step that has nothing to do with waiters. -/
theorem Inv.of_eq (hI : Inv s) {s' : State ρ} (h_waiters : s'.waiters = s.waiters)
    (h_completions : s'.completions = s.completions) (h_resolvedBy : s'.resolvedBy = s.resolvedBy) :
    Inv s' := by
  constructor
  · rw [h_waiters]
    exact hI.waiters
  · rw [h_waiters]
    exact hI.typed
  · rw [h_waiters, h_completions, h_resolvedBy]
    exact hI.resolved

/-- What has completed stays so. -/
theorem subset_emit (s : State ρ) (e : ServiceEvent) (top : Bool) :
    s.completions ⊆ (s.emit e top).completions := by
  intro c hc
  show c ∈ if e.Completes then s.completions ++ [⟨e.tabID, top⟩] else s.completions
  split_ifs
  · exact List.mem_append_left _ hc
  · exact hc

omit [DecidableEq ρ] in
/-- Who waits for a navigation is resolved by a completion on its tab. -/
theorem completes_of_awaits {s : Waiters.State ρ} {w : ρ × ℕ} {type : String}
    {tabID openerTabID : Option String} (h_awaited : (s.waiter w).awaited = navigation)
    (h : s.awaits type tabID openerTabID w = true) :
    type = "navigation.completed" ∧ tabID = some (s.waiter w).tabID := by
  rw [Waiters.State.awaits, h_awaited] at h
  simp only [navigation, Bool.false_and, Bool.or_false, Bool.and_eq_true, decide_eq_true_eq] at h
  exact ⟨h.1.symm, h.2⟩

/-- An event is told. -/
theorem Inv.emit (hI : Inv s) (e : ServiceEvent) (top : Bool) : Inv (s.emit e top) := by
  have h_enabled : Waiters.enabled s.waiters (.emit e.type e.tabID e.openerTabID) := trivial
  refine ⟨hI.waiters.step h_enabled, hI.typed.step hI.waiters h_enabled, ?_⟩
  intro w h_awaited h_outcome
  have h_moved := Waiters.moved hI.waiters h_enabled w
  change ((s.waiters.emit ..).waiter w).awaited = _ at h_awaited
  change ((s.waiters.emit ..).waiter w).outcome = _ at h_outcome
  show ∃ c ∈ (s.emit e top).completions, (s.emit e top).resolvedBy w = some c ∧
    c.tabID = some ((s.waiters.emit e.type e.tabID e.openerTabID).waiter w).tabID
  cases h_moved with
  | same h h_set =>
    change (s.waiters.emit ..).waiter w = _ at h
    rw [h] at h_awaited h_outcome ⊢
    obtain ⟨c, hc, h_by, h_tab⟩ := hI.resolved w h_awaited h_outcome
    -- A waiter that was resolved before is not in the set any more.
    have h_notMem : w ∉ s.waiters.waiters := by
      intro h_mem
      have h_none := (hI.waiters.unsettled w (List.mem_append_left _ h_mem)).2
      rw [h_none] at h_outcome
      cases h_outcome
    refine ⟨c, subset_emit s e top hc, ?_, h_tab⟩
    exact (if_neg fun h_new => h_notMem h_new.2.1).trans h_by
  | armed tabID awaited h_outside h h_set =>
    change (s.waiters.emit ..).waiter w = _ at h
    rw [h] at h_outcome
    cases h_outcome
  -- The waiter is settled by this event, which is recorded with its own frame.
  | settled ok h_old h_new h h_ok =>
    change (s.waiters.emit ..).waiter w = _ at h
    rw [h] at h_awaited h_outcome ⊢
    have h_none := (hI.waiters.unsettled w h_old).2
    have h_true : ok = true := by
      simpa [Waiters.Waiter.settled, h_none] using h_outcome
    have h_awaits := h_ok h_true
    obtain ⟨h_type, h_tab⟩ := completes_of_awaits h_awaited h_awaits
    -- It is not one of those for downloads, so it is in the set that is searched.
    have h_mem : w ∈ s.waiters.waiters := by
      refine (List.mem_append.mp h_old).resolve_right fun h_download => ?_
      have h_event : (s.waiters.waiter w).awaited = navigation := h_awaited
      rw [hI.typed w h_download] at h_event
      cases h_event
    refine ⟨⟨e.tabID, top⟩, ?_, if_pos ⟨h_type, h_mem, h_awaits⟩, h_tab⟩
    have h_completions : (s.emit e top).completions = s.completions ++ [⟨e.tabID, top⟩] :=
      if_pos h_type
    rw [h_completions]
    exact List.mem_append_right _ (List.mem_singleton_self _)
  | bound downloadID h_binds => exact absurd h_binds id

/-- The requests resolve no waiter for a navigation by themselves. -/
theorem Inv.request (hI : Inv s) {e : Waiters.Event ρ} (he : Waiters.enabled s.waiters e)
    (h_request : IsRequest e) : Inv (next s (.request e)) := by
  refine ⟨hI.waiters.step he, hI.typed.step hI.waiters he, ?_⟩
  intro w h_awaited h_outcome
  have h_moved := Waiters.moved hI.waiters he w
  change ((Waiters.next s.waiters e).waiter w).awaited = _ at h_awaited
  change ((Waiters.next s.waiters e).waiter w).outcome = _ at h_outcome
  show ∃ c ∈ s.completions, s.resolvedBy w = some c ∧
    c.tabID = some ((Waiters.next s.waiters e).waiter w).tabID
  cases h_moved with
  | same h h_set =>
    rw [h] at h_awaited h_outcome ⊢
    exact hI.resolved w h_awaited h_outcome
  | armed tabID awaited h_outside h h_set =>
    rw [h] at h_outcome
    cases h_outcome
  -- A request settles a waiter only with a failure.
  | settled ok h_old h_new h h_ok =>
    rw [h] at h_awaited h_outcome
    have h_none := (hI.waiters.unsettled w h_old).2
    have h_true : ok = true := by
      simpa [Waiters.Waiter.settled, h_none] using h_outcome
    have h_resolves := h_ok h_true
    cases e with
    | emit type tabID openerTabID => exact absurd h_request id
    | completeDownload downloadID complete =>
      have h_event : (s.waiters.waiter w).awaited = navigation := h_awaited
      rw [hI.typed w h_resolves.2.1] at h_event
      cases h_event
    | _ => exact absurd h_resolves id
  -- a waiter for a navigation is bound to no download
  | bound downloadID h_binds h_old h_none h h_set =>
    rw [h] at h_awaited
    have h_event : (s.waiters.waiter w).awaited = navigation := h_awaited
    rw [hI.typed w h_old] at h_event
    cases h_event

/-- Some events are emitted one after the other. -/
theorem Inv.emitAll (hI : Inv s) (es : List ServiceEvent) (top : Bool) :
    Inv (es.foldl (fun s e => s.emit e top) s) := by
  induction es generalizing s with
  | nil => exact hI
  | cons e es ih => exact ih (hI.emit e top)

/-- Every step keeps the invariant. -/
theorem Inv.step (hI : Inv s) {e : Event ρ} (he : enabled s e) : Inv (next s e) := by
  cases e with
  | webNavigation listener chromeTabID frameID => exact hI.emitAll _ _
  | debugger source event =>
    simp only [next]
    split
    · exact hI
    · exact hI.emit _ _
  -- The tab counts as detached from here on, and one event says so.
  | onDetach chromeTabID =>
    simp only [next]
    split_ifs
    · exact hI
    · have h_detached :
          Inv { s with attached := Function.update s.attached chromeTabID false } :=
        hI.of_eq rfl rfl rfl
      exact h_detached.emit _ _
  | other e => exact hI.emit e false
  | request e => exact hI.request he.1 he.2
  | attach _ | detach _ | register _ _ | remove _ | topFrame _ _ => exact hI.of_eq rfl rfl rfl

/-! ### What is emitted -/

/-- What is emitted for a tab is about its top frame. -/
def Emitted (s : State ρ) : Prop := ∀ c ∈ s.completions, c.tabID.isSome = true → c.top = true

omit [DecidableEq ρ] in
/-- Where only the top frame was told of, only it completes a wait. -/
theorem Inv.topOnly (hI : Inv s) (hE : Emitted s) : TopOnly s where
  emitted := hE
  resolved w h_awaited h_outcome := by
    obtain ⟨c, hc, h_by, h_tab⟩ := hI.resolved w h_awaited h_outcome
    exact ⟨c, hc, h_by, h_tab, hE c hc (by rw [h_tab]; rfl)⟩

/-- An event that completes is one of the top frame. -/
theorem Emitted.emit (hE : Emitted s) {e : ServiceEvent} {top : Bool}
    (h : e.Completes → e.tabID.isSome = true → top = true) : Emitted (s.emit e top) := by
  intro c hc h_tab
  change c ∈ if e.Completes then s.completions ++ [⟨e.tabID, top⟩] else s.completions at hc
  split_ifs at hc with h_completes
  · rcases List.mem_append.mp hc with hc | hc
    · exact hE c hc h_tab
    · rw [List.mem_singleton] at hc
      subst hc
      exact h h_completes h_tab
  · exact hE c hc h_tab

/-- Several events of the top frame. -/
theorem Emitted.emitAll (hE : Emitted s) (es : List ServiceEvent) :
    Emitted (es.foldl (fun s e => s.emit e true) s) := by
  induction es generalizing s with
  | nil => exact hE
  | cons e es ih => exact ih (hE.emit fun _ _ => rfl)

/-- The listeners of `webNavigation` tell of the top frame only. -/
theorem Emitted.webNavigation (hE : Emitted s) (listener : WebNavigation)
    (chromeTabID frameID : ℕ) : Emitted (next s (.webNavigation listener chromeTabID frameID)) := by
  by_cases h : frameID = 0
  · subst h
    exact hE.emitAll _
  · have h_none : onWebNavigation s listener chromeTabID frameID = [] := if_pos h
    rw [next, h_none]
    exact hE

omit [DecidableEq ρ] in
/-- The debugger completes a navigation when a frame of an attached tab loads, and only then. -/
theorem completes_iff {source : Debuggee} {event : DebuggerEvent} {type : String}
    {payload : Payload}
    (h : onEvent s source event = some (type, payload)) :
    (onDebuggerEvent s type payload).Completes ↔ ∃ tabID frameID,
      source.tabID = some tabID ∧ s.attached tabID = true ∧ event = .lifecycleEvent frameID "load" ∧
      payload = { chromeTabID := tabID, frameID := some frameID, lifecycle := some "load",
                  sessionID := source.sessionID } := by
  obtain ⟨sourceTab, sessionID⟩ := source
  cases sourceTab with
  -- an event of another debuggee is not for the service
  | none => cases h
  | some tabID =>
    simp only [onEvent] at h
    split_ifs at h with h_attached
    have h_attached : s.attached tabID = true := by simpa using h_attached
    cases event with
    -- the one event that becomes `navigation.completed`
    | lifecycleEvent frameID name =>
      simp only at h
      split_ifs at h with h_name
      cases h
      by_cases h_load : name = "load"
      · subst h_load
        exact iff_of_true rfl ⟨tabID, frameID, rfl, h_attached, rfl, rfl⟩
      · refine iff_of_false ?_ ?_
        · simp [ServiceEvent.Completes, onDebuggerEvent, h_load]
        · rintro ⟨tabID, frameID, -, -, h_event, -⟩
          cases h_event
          exact h_load rfl
    | silent => cases h
    | _ =>
      cases h
      refine iff_of_false (by simp [ServiceEvent.Completes, onDebuggerEvent]) ?_
      rintro ⟨tabID, frameID, -, -, h_event, -⟩
      cases h_event

/-- A type that the rest of the service emits is none of a navigation. -/
theorem not_completes_of_other {e : ServiceEvent} (h : e.type ∈ otherTypes) : ¬ e.Completes := by
  intro h_completes
  rw [ServiceEvent.Completes] at h_completes
  rw [h_completes] at h
  exact absurd h (by decide)

/-- Every step that meets the condition. -/
theorem Emitted.step (hE : Emitted s) {e : Event ρ} (he : enabled s e) (h : LoadsTop s e) :
    Emitted (next s e) := by
  cases e with
  | webNavigation listener chromeTabID frameID =>
    exact hE.webNavigation listener chromeTabID frameID
  -- the debugger's events: only the load of a top frame completes
  | debugger source event =>
    simp only [next]
    split
    case h_1 => exact hE
    case h_2 type payload h_event =>
      refine hE.emit fun h_completes h_tab => ?_
      obtain ⟨tabID, frameID, h_source, h_attached, rfl, rfl⟩ :=
        (completes_iff h_event).mp h_completes
      obtain ⟨h_session, h_top⟩ := h rfl tabID h_source h_attached h_tab
      simp [State.isTopFrame, h_session, h_top]
  | onDetach chromeTabID =>
    simp only [next]
    split_ifs
    · exact hE
    · have h_other : ¬ (onDebuggerEvent s "debugger.detached" { chromeTabID }).Completes := by
        simp [ServiceEvent.Completes, onDebuggerEvent]
      exact Emitted.emit (s := { s with attached := _ }) hE fun h => absurd h h_other
  -- the other listeners emit other types
  | other e => exact hE.emit fun h => absurd h (not_completes_of_other he)
  | attach _ | detach _ | register _ _ | remove _ | topFrame _ _ | request _ => exact hE

/-- Another frame that loads is taken for the tab. -/
theorem not_topOnly_of_not_loadsTop {e : Event ρ} (h : ¬ LoadsTop s e) : ¬ TopOnly (next s e) := by
  intro h_top
  cases e with
  | debugger source event =>
    cases event with
    -- the load of a sub-frame is the only way out of the condition
    | lifecycleEvent frameID name =>
      simp only [LoadsTop, not_forall] at h
      obtain ⟨rfl, tabID, h_source, h_attached, h_handle, h_not⟩ := h
      have h_event : onEvent s source (.lifecycleEvent frameID "load") =
          some ("navigation.lifecycle",
            { chromeTabID := tabID
              frameID := some frameID
              lifecycle := some "load"
              sessionID := source.sessionID }) := by
        simp [onEvent, Option.mem_def.mp h_source, h_attached]
      have h_next : (next s (.debugger source (.lifecycleEvent frameID "load"))).completions =
          s.completions ++ [⟨s.handles tabID, s.isTopFrame
            { chromeTabID := tabID
              frameID := some frameID
              lifecycle := some "load"
              sessionID := source.sessionID }⟩] := by
        simp only [next, h_event]
        rfl
      have h_emitted := h_top.emitted
      rw [h_next] at h_emitted
      have h_is := h_emitted _ (List.mem_append_right _ (List.mem_singleton_self _)) h_handle
      refine h_not ?_
      simpa [State.isTopFrame] using h_is
    | _ => exact h trivial
  | _ => exact h trivial

/-- **A completed navigation is one of the top frame, unless another frame of an attached tab
loads**: in a run, each completion that is emitted for a tab is one of its top frame, and so is the
one that resolves a waiter, if and only if each frame that the debugger sees loading is the top
frame. -/
theorem topOnly_iff {es : List (Event ρ)} (h : (machine ρ).Runs (machine ρ).init es) :
    (∀ es₁, es₁ <+: es → TopOnly ((machine ρ).exec (machine ρ).init es₁)) ↔
      ((machine ρ).restrict LoadsTop).Runs (machine ρ).init es := by
  refine h.restrict_iff (I := fun s => Inv s ∧ Emitted s)
    ⟨.init, fun _ hc => absurd hc List.not_mem_nil⟩ ?_ ?_ ?_
  · intro s e h_inv he h_loads
    exact ⟨h_inv.1.step he, h_inv.2.step he h_loads⟩
  · intro s h_inv
    exact h_inv.1.topOnly h_inv.2
  · intro s e _ _ h_not
    exact not_topOnly_of_not_loadsTop h_not

/-- A tab whose navigation is waited for. -/
def awaiting : List (Event ℕ) :=
  [.register 1 "tab_1", .topFrame 1 (some "A"), .attach 1,
    .request (.wait 0 "tab_1" (.ofFields [("type", .str "navigation")]))]

/-- The top frame loads, and a sub-frame commits. -/
theorem topOnly_iff_awaiting :
    (machine ℕ).Runs (machine ℕ).init
      (awaiting ++ [.webNavigation .committed 1 7, .debugger ⟨some 1, none⟩
        (.lifecycleEvent "A" "load")]) ∧
      ∀ es₁, es₁ <+: awaiting ++ [.webNavigation .committed 1 7, .debugger ⟨some 1, none⟩
        (.lifecycleEvent "A" "load")] →
      TopOnly ((machine ℕ).exec (machine ℕ).init es₁) :=
  ⟨by decide, (topOnly_iff (by decide)).mpr (by decide)⟩

/-- An iframe of the tab loads. -/
theorem not_topOnly_iframeLoad :
    ¬ ∀ es : List (Event ℕ), (machine ℕ).Runs (machine ℕ).init es →
      TopOnly ((machine ℕ).exec (machine ℕ).init es) := by
  intro h
  have h_top := h (awaiting ++ [.debugger ⟨some 1, some "S"⟩ (.lifecycleEvent "B" "load")])
    (by decide)
  exact absurd (h_top.emitted ⟨some "tab_1", false⟩ (by decide) rfl) Bool.false_ne_true

end BrowserControl.Extension.Navigation
