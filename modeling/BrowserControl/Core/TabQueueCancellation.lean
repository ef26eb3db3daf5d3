import BrowserControl.Core.TabQueueSafety

/-!
# Cancellation generations of the tab queue

`cancelAll` stops the calls before it in four ways: an error on a waiter, the generation a
call compares before it starts, the active cancel function, and nothing at all where the
call is over. `cancelAll_stops` says that together these reach every call that entered
before, and that a call which enters later is not touched.

A call that was not active when `cancelAll` came is `Doomed` from then on, wherever it
stands: it fails as cancelled without calling its `fn`. `Fate` is the invariant that places
each call before the cancellation; `Untouched` is what stays true of a later call.
-/

namespace BrowserControl.Core.TabQueue

open Encoding Protocol Transition

variable {ι ρ : Type*} [DecidableEq ι]

/-! ### What becomes of a call -/

/-- A call fails as cancelled. -/
def IsCancelled (outcome : Outcome ρ) : Prop :=
  ∃ rpcErr, outcome = .error rpcErr ∧ errorKind (some rpcErr) = "CANCELLED"

/-- The error of a context that is done is a cancellation. -/
theorem isCancelled_cancelledError (message : String) :
    IsCancelled (.error (cancelledError message) : Outcome ρ) :=
  ⟨_, rfl, errorKind_newError _ _ _ _ rfl⟩

/-- The error of a call that is stopped before it runs is a cancellation. -/
theorem isCancelled_revokedBeforeRun : IsCancelled (.error State.revokedBeforeRun : Outcome ρ) :=
  ⟨_, rfl, errorKind_newError _ _ _ _ rfl⟩

/-- The error of a queue that is cancelled is a cancellation. -/
theorem errorKind_revoked (reason : String) :
    errorKind (some (State.revoked reason)) = "CANCELLED" := by
  refine errorKind_newError _ _ _ _ ?_
  simp [Object.ofFields, Object.get_set]

/-- The calls made active by an event. -/
def activates (s : State ι ρ) : Event ι ρ → List ι
  | .start c => if (s.waiter c).generation = s.generation then [c] else []
  | _ => []

/-- The calls that were made active. -/
def activatedLog (es : List (Event ι ρ)) : List ι :=
  (machine ι ρ).log activates (machine ι ρ).init es

@[simp] theorem activatedLog_snoc (es : List (Event ι ρ)) (e : Event ι ρ) :
    activatedLog (es ++ [e]) =
      activatedLog es ++ activates ((machine ι ρ).exec (machine ι ρ).init es) e := by
  simp [activatedLog]

/-- A call that has not been active is on its way to `fn`, or has failed as cancelled. -/
def Phase.Uncalled : Phase ρ → Prop
  | .outside => True
  | .waiting => True
  | .ctxDone _ => True
  | .starting => True
  | .activated => False
  | .invoked => False
  | .releasing outcome => IsCancelled outcome
  | .returned outcome => IsCancelled outcome

/-- What became of each call. -/
structure Fate (es : List (Event ι ρ)) (s : State ι ρ) : Prop where
  outside : ∀ c, s.phase c = .outside → c ∉ activatedLog es ∧ (s.calls c).cancelled = false
  uncalled : ∀ c, c ∉ activatedLog es → (s.phase c).Uncalled
  /-- An active call that is over has called its cancel function. -/
  called : ∀ c, c ∈ activatedLog es →
    (s.phase c).isActive = true ∨ (s.calls c).cancelled = true
  err : ∀ c rpcErr, (s.waiter c).err = some rpcErr → errorKind (some rpcErr) = "CANCELLED"

/-- A step that moves one call without making it active. -/
theorem Fate.of_move {es : List (Event ι ρ)} {s : State ι ρ} {e : Event ι ρ} (hF : Fate es s)
    (h_state : (machine ι ρ).exec (machine ι ρ).init es = s) (h_activates : activates s e = [])
    {c : ι} {call : Call ρ} {waiters : List ι} {active : Option ι} {running : Bool}
    (h_outside : call.phase ≠ .outside)
    (h_uncalled : c ∉ activatedLog es → call.phase.Uncalled)
    (h_called : c ∈ activatedLog es → call.phase.isActive = true ∨ call.cancelled = true)
    (h_err : ∀ rpcErr, call.waiter.err = some rpcErr → errorKind (some rpcErr) = "CANCELLED") :
    Fate (es ++ [e])
      ({ s with waiters, running, activeCancel := active }.setCall c call) := by
  -- the event activates nobody
  have h_log : activatedLog (es ++ [e]) = activatedLog es := by
    rw [activatedLog_snoc, h_state, h_activates, List.append_nil]
  constructor
  case outside =>
    rw [h_log]
    exact forall_setCall (s := s) (fun d k => k.phase = .outside →
      d ∉ activatedLog es ∧ k.cancelled = false) (fun h => absurd h h_outside)
      fun d _ => hF.outside d
  case uncalled =>
    rw [h_log]
    exact forall_setCall (s := s) (fun d k => d ∉ activatedLog es → k.phase.Uncalled)
      h_uncalled fun d _ => hF.uncalled d
  case called =>
    rw [h_log]
    exact forall_setCall (s := s) (fun d k => d ∈ activatedLog es →
      k.phase.isActive = true ∨ k.cancelled = true) h_called fun d _ => hF.called d
  case err =>
    exact forall_setCall (s := s) (fun _ k => ∀ rpcErr, k.waiter.err = some rpcErr →
      errorKind (some rpcErr) = "CANCELLED") h_err fun d _ => hF.err d

theorem Fate.init : Fate [] ({} : State ι ρ) where
  outside := by simp [activatedLog]
  uncalled := fun _ _ => trivial
  called := by simp [activatedLog]
  err := by simp [State.waiter]

section Release

variable (s : State ι ρ) (c : ι)

@[simp] theorem State.phase_release : s.release.phase c = s.phase c := by
  unfold State.release
  split
  · rfl
  · next w _ _ => by_cases h : c = w <;> simp [State.phase, State.setCall, h]

@[simp] theorem State.cancelled_release :
    (s.release.calls c).cancelled = (s.calls c).cancelled := by
  unfold State.release
  split
  · rfl
  · next w _ _ => by_cases h : c = w <;> simp [State.setCall, h]

@[simp] theorem State.err_release : (s.release.waiter c).err = (s.waiter c).err := by
  unfold State.release
  split
  · rfl
  · next w _ _ => by_cases h : c = w <;> simp [State.waiter, State.setCall, h]

end Release

/-- A call that has returned or goes for `release` keeps its fate when the slot moves. -/
theorem Fate.release {es : List (Event ι ρ)} {s : State ι ρ} (hF : Fate es s)
    (h_state : (machine ι ρ).exec (machine ι ρ).init es = s) {c : ι} {outcome : Outcome ρ}
    (h_phase : s.phase c = .releasing outcome) :
    Fate (es ++ [.release c]) (s.setPhase c (.returned outcome)).release := by
  have h_returned : Fate (es ++ [.release c]) (s.setPhase c (.returned outcome)) := by
    refine hF.of_move h_state rfl (by simp) (fun h => ?_) (fun h => ?_) (hF.err c)
    · have h_uncalled := hF.uncalled c h
      rwa [h_phase] at h_uncalled
    · have h_called := hF.called c h
      rw [h_phase] at h_called
      exact h_called.imp (by simp [Phase.isActive]) id
  -- The grant changes neither phases nor errors.
  constructor
  case outside => simpa using h_returned.outside
  case uncalled => simpa using h_returned.uncalled
  case called => simpa using h_returned.called
  case err => simpa using h_returned.err

/-- Those who wait are failed, and the active one is cancelled. -/
theorem Fate.cancelAll {es : List (Event ι ρ)} {s : State ι ρ} (hF : Fate es s) (hI : Inv s)
    (reason : String) :
    Fate (es ++ [.cancelAll reason]) (s.cancelAll reason) := by
  have h_log : activatedLog (es ++ [.cancelAll reason]) = activatedLog es := by
    simp [activates]
  constructor
  case outside =>
    intro c h
    have h_old := hF.outside c h
    have h_active : s.activeCancel ≠ some c := by
      intro h_eq
      have h_own := hI.active c h_eq
      simp only [Call.owns, Bool.and_eq_true] at h_own
      exact ((hI.ok c).granted h_own.1).2 h
    exact ⟨h_log ▸ h_old.1, by simp [State.cancelAll, h_old.2, h_active]⟩
  case uncalled => exact fun c h => hF.uncalled c (h_log ▸ h)
  -- a call that was activated has its cancellation, or is the active one now
  case called =>
    intro c h
    refine (hF.called c (h_log ▸ h)).imp id fun h => ?_
    simp [State.cancelAll, h]
  case err =>
    intro c rpcErr h
    by_cases h_waiter : c ∈ s.waiters
    · simp only [State.cancelAll, State.waiter, if_pos h_waiter, Option.some.injEq] at h
      exact h ▸ errorKind_revoked reason
    · simp only [State.cancelAll, State.waiter, if_neg h_waiter] at h
      exact hF.err c rpcErr h

/-- `start` makes the call active, or finds its generation over. -/
theorem Fate.start {es : List (Event ι ρ)} {s : State ι ρ} (hF : Fate es s)
    (h_state : (machine ι ρ).exec (machine ι ρ).init es = s) (c : ι) :
    Fate (es ++ [.start c]) (s.start c) := by
  unfold State.start
  split
  · next h_generation =>
    have h_log : activatedLog (es ++ [.start c]) = activatedLog es ++ [c] := by
      rw [activatedLog_snoc, h_state, activates, if_pos h_generation]
    constructor
    -- the call that starts is in the log now, and the others are where they were
    case outside =>
      refine forall_setCall (s := s) (fun d k => k.phase = .outside →
        d ∉ activatedLog (es ++ [Event.start c]) ∧ k.cancelled = false) ?_ fun d hd h => ?_
      · simp
      · rw [h_log]
        simpa [hd] using hF.outside d h
    case uncalled =>
      refine forall_setCall (s := s) (fun d k => d ∉ activatedLog (es ++ [Event.start c]) →
        k.phase.Uncalled) ?_ fun d _ h => hF.uncalled d ?_
      · rw [h_log]
        exact fun h => absurd (by simp) h
      · rw [h_log] at h
        exact fun h_mem => h (List.mem_append_left _ h_mem)
    case called =>
      refine forall_setCall (s := s) (fun d k => d ∈ activatedLog (es ++ [Event.start c]) →
        k.phase.isActive = true ∨ k.cancelled = true) ?_ fun d hd h => ?_
      · exact fun _ => .inl rfl
      · rw [h_log] at h
        exact hF.called d (by simpa [hd] using h)
    case err =>
      exact forall_setCall (s := s) (fun _ k => ∀ rpcErr, k.waiter.err = some rpcErr →
        errorKind (some rpcErr) = "CANCELLED") (hF.err c) fun d _ => hF.err d
  -- another generation: the call fails as revoked, and is not called
  · next h_generation =>
    refine hF.of_move h_state ?_ (by simp) (fun _ => isCancelled_revokedBeforeRun)
      (fun _ => .inr rfl) (hF.err c)
    rw [activates, if_neg h_generation]

/-- Every step keeps what is known of the fate of a call. -/
theorem Fate.step {es : List (Event ι ρ)} {s : State ι ρ} {e : Event ι ρ} (hF : Fate es s)
    (hI : Inv s) (h_state : (machine ι ρ).exec (machine ι ρ).init es = s) (he : enabled s e) :
    Fate (es ++ [e]) (next s e) := by
  -- the calls that the step does not move keep their fate
  cases e with
  | enter c =>
    have h_out := hF.outside c (enabled_enter.mp he)
    simp only [next, State.enter]
    split <;> refine hF.of_move h_state rfl (by simp) (fun _ => trivial)
      (fun h => absurd h h_out.1) (by simp)
  | callerDone c message =>
    -- a call that waits is not active, so it was not called or is cancelled
    have h_phase := enabled_callerDone.mp he
    refine hF.of_move h_state rfl (by simp) (fun _ => trivial) (fun h => ?_) (hF.err c)
    exact (hF.called c h).imp (by simp [h_phase, Phase.isActive]) id
  | takeReady c =>
    have h_phase := (enabled_takeReady.mp he).1
    simp only [next, State.takeReady]
    split
    · next rpcErr h_err =>
      refine hF.of_move h_state rfl (by simp) (fun _ => ⟨rpcErr, rfl, hF.err c rpcErr h_err⟩)
        (fun h => ?_) (hF.err c)
      exact (hF.called c h).imp (by simp [h_phase, Phase.isActive]) id
    · refine hF.of_move h_state rfl (by simp) (fun _ => trivial) (fun h => ?_) (hF.err c)
      exact (hF.called c h).imp (by simp [h_phase, Phase.isActive]) id
  | quit c =>
    obtain ⟨message, h_phase⟩ := enabled_quit.mp he
    simp only [next, h_phase, State.quit]
    split <;> refine hF.of_move h_state rfl (by simp)
      (fun _ => isCancelled_cancelledError message) (fun h => ?_) (hF.err c) <;>
      exact (hF.called c h).imp (by simp [h_phase, Phase.isActive]) id
  | start c => exact hF.start h_state c
  -- the function of a call runs only after its start
  | invoke c =>
    refine hF.of_move h_state rfl (by simp) (fun h => ?_) (fun _ => .inl rfl) (hF.err c)
    have h_uncalled := hF.uncalled c h
    rw [enabled_invoke.mp he] at h_uncalled
    exact h_uncalled.elim
  | finish c outcome =>
    refine hF.of_move h_state rfl (by simp) (fun h => ?_) (fun _ => .inr rfl) (hF.err c)
    have h_uncalled := hF.uncalled c h
    rw [enabled_finish.mp he] at h_uncalled
    exact h_uncalled.elim
  | release c =>
    obtain ⟨outcome, h_phase⟩ := enabled_release.mp he
    simp only [next, h_phase]
    exact hF.release h_state h_phase
  | cancelAll reason => exact hF.cancelAll hI reason

/-- What is known of the fate of a call holds in every run. -/
theorem fate {es : List (Event ι ρ)} (h : (machine ι ρ).Runs (machine ι ρ).init es) :
    Fate es ((machine ι ρ).exec (machine ι ρ).init es) := by
  refine Machine.Runs.history (P := Fate) .init ?_ h
  intro es s e h_runs h_state hF he
  exact hF.step (h_state ▸ (history h_runs).inv) h_state he

/-! ### Calls before the cancellation -/

/-- A call of an older generation that is not active: `fn` is out of its reach. -/
structure Doomed (s : State ι ρ) (c : ι) : Prop where
  entered : s.phase c ≠ .outside
  generation : (s.waiter c).generation < s.generation
  uncalled : (s.phase c).Uncalled
  err : ∀ rpcErr, (s.waiter c).err = some rpcErr → errorKind (some rpcErr) = "CANCELLED"
  /-- It does not wait for anybody. -/
  ready : s.phase c = .waiting → (s.waiter c).ready = true

/-- `cancelAll` dooms the calls that are not active. -/
theorem doomed_of_cancelAll {s : State ι ρ} (hI : Inv s) {c : ι} (reason : String)
    (h_entered : s.phase c ≠ .outside) (h_uncalled : (s.phase c).Uncalled)
    (h_err : ∀ rpcErr, (s.waiter c).err = some rpcErr → errorKind (some rpcErr) = "CANCELLED") :
    Doomed (s.cancelAll reason) c := by
  have h_ok := hI.ok c
  have h_generation := h_ok.generation h_entered
  by_cases h_waiter : c ∈ s.waiters
  · have h_waiter' : (s.cancelAll reason).waiter c =
        { s.waiter c with err := some (State.revoked reason), ready := true } := by
      simp [State.cancelAll, State.waiter, h_waiter]
    refine ⟨h_entered, ?_, h_uncalled, ?_, fun _ => by rw [h_waiter']⟩
    · rw [h_waiter']
      exact Nat.lt_succ_of_le h_generation
    · intro rpcErr h
      rw [h_waiter', Option.some.injEq] at h
      exact h ▸ errorKind_revoked reason
  · have h_waiter' : (s.cancelAll reason).waiter c = s.waiter c := by
      simp [State.cancelAll, State.waiter, h_waiter]
    refine ⟨h_entered, ?_, h_uncalled, h_waiter' ▸ h_err, ?_⟩
    · rw [h_waiter']
      exact Nat.lt_succ_of_le h_generation
    · intro h_phase
      have h_phase : (s.calls c).phase = .waiting := h_phase
      rw [h_waiter']
      -- A waiting call that is not listed was granted the slot or has an error.
      have h_unlisted := (hI.listed c).not.mp h_waiter
      refine (h_ok.ready h_phase).trans ?_
      simpa [Call.listed, h_phase, Phase.isQueueing, or_iff_not_imp_left,
        ← Option.ne_none_iff_isSome] using h_unlisted

omit [DecidableEq ι] in
/-- What other calls do leaves a doomed call doomed. -/
theorem Doomed.of_frame {s s' : State ι ρ} {c : ι} (hD : Doomed s c)
    (h_phase : s'.phase c = s.phase c)
    (h_generation : (s'.waiter c).generation = (s.waiter c).generation)
    (h_le : s.generation ≤ s'.generation) (h_err : (s'.waiter c).err = (s.waiter c).err)
    (h_ready : (s.waiter c).ready = true → (s'.waiter c).ready = true) : Doomed s' c where
  entered := h_phase ▸ hD.entered
  generation := h_generation ▸ lt_of_lt_of_le hD.generation h_le
  uncalled := h_phase ▸ hD.uncalled
  err := h_err ▸ hD.err
  ready := fun h => h_ready (hD.ready (h_phase ▸ h))

/-- A doomed call moves to another phase without `fn`. -/
theorem Doomed.setPhase {s : State ι ρ} {c : ι} (hD : Doomed s c) {phase : Phase ρ}
    (h_entered : phase ≠ .outside) (h_waiting : phase ≠ .waiting) (h_uncalled : phase.Uncalled) :
    Doomed (s.setPhase c phase) c where
  entered := by simpa using h_entered
  generation := (State.waiter_setPhase s c phase c).symm ▸ hD.generation
  uncalled := by simpa using h_uncalled
  err := by simpa using hD.err
  ready := fun h => absurd (by simpa using h) h_waiting

section Frame

variable {s : State ι ρ} {c d : ι}

theorem State.phase_setCall_of_ne (h : c ≠ d) (call : Call ρ) :
    (s.setCall d call).phase c = s.phase c := by simp [State.phase, State.setCall, h]

theorem State.waiter_setCall_of_ne (h : c ≠ d) (call : Call ρ) :
    (s.setCall d call).waiter c = s.waiter c := by simp [State.waiter, State.setCall, h]

@[simp] theorem State.generation_release : s.release.generation = s.generation := by
  unfold State.release
  split <;> rfl

/-- A release does not change the generation of a waiter. -/
theorem State.waiter_generation_release :
    (s.release.waiter c).generation = (s.waiter c).generation := by
  unfold State.release
  split
  · rfl
  · next w _ _ => by_cases h : c = w <;> simp [State.waiter, State.setCall, h]

/-- A waiter that is ready stays so. -/
theorem State.ready_release (h_ready : (s.waiter c).ready = true) :
    (s.release.waiter c).ready = true := by
  unfold State.release
  split
  · exact h_ready
  · next w _ _ =>
    by_cases h : c = w
    · simp [State.waiter, State.setCall, h]
    · simpa [State.waiter, State.setCall, h] using h_ready

/-- A call that is replaced leaves the others as they are. -/
theorem Doomed.setCall_of_ne (hD : Doomed s c) (h : c ≠ d) {running : Bool}
    {waiters : List ι} {active : Option ι} (call : Call ρ) :
    Doomed ({ s with running, waiters, activeCancel := active }.setCall d call) c :=
  hD.of_frame (State.phase_setCall_of_ne h call)
    (by rw [State.waiter_setCall_of_ne h]; rfl) le_rfl
    (by rw [State.waiter_setCall_of_ne h]; rfl)
    (fun h_ready => by rwa [State.waiter_setCall_of_ne h])

end Frame

/-- A release does not save a call. -/
theorem Doomed.release {s : State ι ρ} {c : ι} (hD : Doomed s c) : Doomed s.release c :=
  hD.of_frame (State.phase_release s c) State.waiter_generation_release
    State.generation_release.ge (State.err_release s c) State.ready_release

/-- A call stays where it is while others move. -/
theorem phase_next_of_ne (s : State ι ρ) {e : Event ι ρ} {c : ι} (h : e.caller ≠ some c) :
    (next s e).phase c = s.phase c := by
  have h_ne : ∀ d, e.caller = some d → c ≠ d := fun d h_d h_eq => h (h_eq ▸ h_d)
  -- every event writes the entry of its own call only
  cases e with
  | enter d =>
    simp only [next, State.enter]
    split <;> exact State.phase_setCall_of_ne (h_ne d rfl) _
  | callerDone d message => exact State.phase_setCall_of_ne (h_ne d rfl) _
  | takeReady d =>
    simp only [next, State.takeReady]
    split <;> exact State.phase_setCall_of_ne (h_ne d rfl) _
  | quit d =>
    simp only [next]
    split
    · rw [State.quit]
      split <;> exact State.phase_setCall_of_ne (h_ne d rfl) _
    · rfl
  | start d =>
    simp only [next, State.start]
    split <;> exact State.phase_setCall_of_ne (h_ne d rfl) _
  | invoke d => exact State.phase_setCall_of_ne (h_ne d rfl) _
  | finish d outcome => exact State.phase_setCall_of_ne (h_ne d rfl) _
  | release d =>
    simp only [next]
    split
    · rw [State.phase_release]
      exact State.phase_setCall_of_ne (h_ne d rfl) _
    · rfl
  | cancelAll reason => rfl

/-- A call keeps its generation once it has entered, and the generation of the queue grows. -/
theorem generation_next (s : State ι ρ) {e : Event ι ρ} {c : ι} (he : enabled s e)
    (h : s.phase c ≠ .outside) :
    ((next s e).waiter c).generation = (s.waiter c).generation ∧
      s.generation ≤ (next s e).generation := by
  -- no step but `enter` writes the generation of a call
  have h_set : ∀ (s' : State ι ρ) (d : ι) (call : Call ρ), s'.calls = s.calls →
      call.waiter.generation = (s.waiter d).generation →
      ((s'.setCall d call).waiter c).generation = (s.waiter c).generation := by
    intro s' d call h_calls h_call
    by_cases h_eq : c = d
    · have h_self : (s'.setCall d call).waiter d = call.waiter :=
        congrArg Call.waiter (Function.update_self ..)
      rw [h_eq, h_self, h_call]
    · rw [State.waiter_setCall_of_ne h_eq, State.waiter, h_calls, State.waiter]
  cases e with
  | enter d =>
    have h_ne : c ≠ d := by
      rintro rfl
      exact h (enabled_enter.mp he)
    simp only [next, State.enter]
    split <;> exact ⟨congrArg _ (State.waiter_setCall_of_ne h_ne _), le_rfl⟩
  | callerDone d message => exact ⟨h_set s d _ rfl rfl, le_rfl⟩
  | takeReady d =>
    simp only [next, State.takeReady]
    split <;> exact ⟨h_set s d _ rfl rfl, le_rfl⟩
  | quit d =>
    obtain ⟨message, h_phase⟩ := enabled_quit.mp he
    simp only [next, h_phase, State.quit]
    split <;> exact ⟨h_set _ d _ rfl rfl, le_rfl⟩
  | start d =>
    simp only [next, State.start]
    split <;> exact ⟨h_set _ d _ rfl rfl, le_rfl⟩
  | invoke d => exact ⟨h_set s d _ rfl rfl, le_rfl⟩
  | finish d outcome => exact ⟨h_set s d _ rfl rfl, le_rfl⟩
  | release d =>
    obtain ⟨outcome, h_phase⟩ := enabled_release.mp he
    simp only [next, h_phase]
    rw [State.waiter_generation_release, State.generation_release]
    exact ⟨h_set s d _ rfl rfl, le_rfl⟩
  -- `cancelAll` counts the generation of the queue up
  | cancelAll reason =>
    refine ⟨?_, Nat.le_succ _⟩
    by_cases h_waiter : c ∈ s.waiters <;>
      simp [next, State.cancelAll, State.waiter, h_waiter]

/-- **A doomed call stays doomed.** -/
theorem Doomed.step {s : State ι ρ} {c : ι} {e : Event ι ρ} (hD : Doomed s c)
    (he : enabled s e) : Doomed (next s e) c := by
  have h_uncalled := hD.uncalled
  cases e with
  -- the call is in the queue already
  | enter d =>
    have h_ne : c ≠ d := by
      rintro rfl
      exact hD.entered (enabled_enter.mp he)
    simp only [next, State.enter]
    split <;> exact hD.setCall_of_ne h_ne _
  | callerDone d message =>
    by_cases h : c = d
    · subst h
      exact hD.setPhase (by simp) (by simp) trivial
    · exact hD.setCall_of_ne h _
  | takeReady d =>
    simp only [next, State.takeReady]
    by_cases h : c = d
    · subst h
      split
      -- the slot comes with an error
      · next rpcErr h_err =>
        exact hD.setPhase (by simp) (by simp) ⟨rpcErr, rfl, hD.err rpcErr h_err⟩
      · exact hD.setPhase (by simp) (by simp) trivial
    · split <;> exact hD.setCall_of_ne h _
  | quit d =>
    obtain ⟨message, h_phase⟩ := enabled_quit.mp he
    simp only [next, h_phase, State.quit]
    by_cases h : c = d
    · subst h
      have h_left : Doomed { s with waiters := s.waiters.erase c } c :=
        hD.of_frame rfl rfl le_rfl rfl id
      split
      · exact hD.setPhase (by simp) (by simp) (isCancelled_cancelledError message)
      · exact h_left.setPhase (by simp) (by simp) (isCancelled_cancelledError message)
    · split <;> exact hD.setCall_of_ne h _
  | start d =>
    simp only [next, State.start]
    by_cases h : c = d
    · subst h
      -- The generations differ, so the call goes for `release` with an error.
      rw [if_neg hD.generation.ne]
      refine ⟨?_, ?_, ?_, ?_, ?_⟩
      · simp [State.phase, State.setCall]
      · simpa [State.waiter, State.setCall] using hD.generation
      · simp only [State.phase, State.setCall, Function.update_self]
        exact isCancelled_revokedBeforeRun
      · simpa [State.waiter, State.setCall] using hD.err
      · simp [State.phase, State.setCall]
    · split <;> exact hD.setCall_of_ne h _
  -- it is not called, so it neither runs nor finishes
  | invoke d =>
    by_cases h : c = d
    · subst h
      rw [enabled_invoke.mp he] at h_uncalled
      exact h_uncalled.elim
    · exact hD.setCall_of_ne h _
  | finish d outcome =>
    by_cases h : c = d
    · subst h
      rw [enabled_finish.mp he] at h_uncalled
      exact h_uncalled.elim
    · exact hD.setCall_of_ne h _
  | release d =>
    obtain ⟨outcome, h_phase⟩ := enabled_release.mp he
    simp only [next, h_phase]
    refine Doomed.release ?_
    by_cases h : c = d
    · subst h
      rw [h_phase] at h_uncalled
      exact hD.setPhase (by simp) (by simp) h_uncalled
    · exact hD.setCall_of_ne h _
  -- another cancellation revokes it again, if it still waits
  | cancelAll reason =>
    by_cases h : c ∈ s.waiters
    · refine ⟨hD.entered, ?_, hD.uncalled, ?_, fun _ => ?_⟩
      · simpa [next, State.cancelAll, State.waiter, h] using Nat.lt_succ_of_lt hD.generation
      · intro rpcErr h_err
        simp only [next, State.cancelAll, State.waiter, if_pos h, Option.some.injEq] at h_err
        exact h_err ▸ errorKind_revoked reason
      · simp [next, State.cancelAll, State.waiter, h]
    · refine hD.of_frame rfl ?_ (Nat.le_succ _) ?_ ?_ <;>
        simp [next, State.cancelAll, State.waiter, h]

/-- A doomed call never calls its `fn`. -/
theorem Doomed.not_invoked {s : State ι ρ} {c : ι} (hD : Doomed s c) {es : List (Event ι ρ)}
    (h : (machine ι ρ).Runs s es) : c ∉ invokedLog es ∧ Doomed ((machine ι ρ).exec s es) c := by
  refine Machine.Runs.history (P := fun es s => c ∉ invokedLog es ∧ Doomed s c)
    ⟨by simp, hD⟩ ?_ h
  rintro es s e - - ⟨h_log, hD⟩ he
  refine ⟨?_, hD.step he⟩
  rw [invokedLog_append, List.mem_append, not_or]
  refine ⟨h_log, fun h_mem => ?_⟩
  rw [mem_invokedLog, List.mem_singleton] at h_mem
  have h_uncalled := hD.uncalled
  rw [enabled_invoke.mp (h_mem ▸ he)] at h_uncalled
  exact h_uncalled

/-- Steps of the call alone lead it to returning. -/
def CanReturn (s : State ι ρ) (c : ι) : Prop :=
  ∃ fs, (∀ e ∈ fs, e.caller = some c) ∧ (machine ι ρ).Runs s fs ∧
    (((machine ι ρ).exec s fs).phase c).isReturned = true

/-- A call that can return after its own step can return. -/
theorem CanReturn.of_next {s : State ι ρ} {c : ι} {e : Event ι ρ}
    (h_caller : e.caller = some c) (he : enabled s e) (h : CanReturn (next s e) c) :
    CanReturn s c := by
  obtain ⟨fs, h_fs, h_runs, h_returned⟩ := h
  refine ⟨e :: fs, ?_, ⟨he, h_runs⟩, h_returned⟩
  simpa [h_caller] using h_fs

/-- A call that has returned. -/
theorem canReturn_of_returned {s : State ι ρ} {c : ι} {outcome : Outcome ρ}
    (h : s.phase c = .returned outcome) : CanReturn s c :=
  ⟨[], by simp, trivial, by simp [h, Phase.isReturned]⟩

/-- A call that releases its slot returns next. -/
theorem canReturn_of_releasing {s : State ι ρ} {c : ι} {outcome : Outcome ρ}
    (h : s.phase c = .releasing outcome) : CanReturn s c := by
  refine CanReturn.of_next (e := .release c) rfl (enabled_release.mpr ⟨outcome, h⟩) ?_
  simp only [next, h]
  exact canReturn_of_returned ((State.phase_release _ c).trans (State.phase_setPhase ..))

/-- A doomed call that starts finds that its generation is over. -/
theorem Doomed.canReturn_of_starting {s : State ι ρ} {c : ι} (hD : Doomed s c)
    (h : s.phase c = .starting) : CanReturn s c := by
  refine CanReturn.of_next (e := .start c) rfl (enabled_start.mpr h) ?_
  simp only [next, State.start]
  rw [if_neg hD.generation.ne]
  have h_next : (s.setCall c { s.calls c with
      phase := .releasing (.error State.revokedBeforeRun), cancelled := true }).phase c =
        .releasing (.error State.revokedBeforeRun) := by
    simp [State.phase, State.setCall]
  exact canReturn_of_releasing h_next

/-- A doomed call waits for nobody. -/
theorem Doomed.canReturn {s : State ι ρ} {c : ι} (hD : Doomed s c) : CanReturn s c := by
  have h_uncalled := hD.uncalled
  cases h_phase : s.phase c with
  | outside => exact absurd h_phase hD.entered
  -- the cancelled waiter is ready, so it can be taken
  | waiting =>
    have h_enabled := enabled_takeReady.mpr ⟨h_phase, hD.ready h_phase⟩
    have h_doomed := hD.step h_enabled
    refine CanReturn.of_next (e := .takeReady c) rfl h_enabled ?_
    simp only [next, State.takeReady] at h_doomed ⊢
    split
    · exact canReturn_of_returned (State.phase_setPhase ..)
    · next h_err =>
      rw [h_err] at h_doomed
      exact h_doomed.canReturn_of_starting (State.phase_setPhase ..)
  -- whoever holds the slot gives it back first
  | ctxDone message =>
    refine CanReturn.of_next (e := .quit c) rfl (enabled_quit.mpr ⟨message, h_phase⟩) ?_
    simp only [next, h_phase, State.quit]
    split
    · exact canReturn_of_releasing (State.phase_setPhase ..)
    · exact canReturn_of_returned (State.phase_setPhase ..)
  | starting => exact hD.canReturn_of_starting h_phase
  | activated =>
    rw [h_phase] at h_uncalled
    exact h_uncalled.elim
  | invoked =>
    rw [h_phase] at h_uncalled
    exact h_uncalled.elim
  | releasing outcome => exact canReturn_of_releasing h_phase
  | returned outcome => exact canReturn_of_returned h_phase

/-! ### Calls after the cancellation -/

/-- A call for which no `cancelAll` came since it entered: it is stopped by its own caller
or by the end of its `fn` only. -/
structure Untouched (es : List (Event ι ρ)) (s : State ι ρ) (c : ι) : Prop where
  generation : s.phase c ≠ .outside → (s.waiter c).generation = s.generation
  err : s.phase c ≠ .outside → (s.waiter c).err = none
  cancelled : (s.calls c).cancelled = true → ∃ outcome, .finish c outcome ∈ es
  ctxDone : ∀ message, s.phase c = .ctxDone message → .callerDone c message ∈ es
  ended : ∀ outcome, s.phase c = .releasing outcome ∨ s.phase c = .returned outcome →
    .finish c outcome ∈ es ∨
      ∃ message, .callerDone c message ∈ es ∧ outcome = .error (cancelledError message)

omit [DecidableEq ι] in
/-- A step that changes nothing of a call. -/
theorem Untouched.mono {es : List (Event ι ρ)} {s s' : State ι ρ} {c : ι} {e : Event ι ρ}
    (hU : Untouched es s c) (h_phase : s'.phase c = s.phase c)
    (h_generation : (s'.waiter c).generation = (s.waiter c).generation)
    (h_queue : s'.generation = s.generation) (h_err : (s'.waiter c).err = (s.waiter c).err)
    (h_cancelled : (s'.calls c).cancelled = (s.calls c).cancelled) :
    Untouched (es ++ [e]) s' c where
  generation := by
    rw [h_phase, h_generation, h_queue]
    exact hU.generation
  err := by
    rw [h_phase, h_err]
    exact hU.err
  cancelled := by
    rw [h_cancelled]
    exact fun h => (hU.cancelled h).imp fun _ => List.mem_append_left _
  ctxDone := by
    rw [h_phase]
    exact fun message h => List.mem_append_left _ (hU.ctxDone message h)
  ended := by
    rw [h_phase]
    intro outcome h
    exact (hU.ended outcome h).imp (List.mem_append_left _)
      (Exists.imp fun _ => And.imp_left (List.mem_append_left _))

theorem Untouched.setCall_of_ne {es : List (Event ι ρ)} {s : State ι ρ} {c d : ι}
    {e : Event ι ρ} (hU : Untouched es s c) (h : c ≠ d) {running : Bool} {waiters : List ι}
    {active : Option ι} (call : Call ρ) :
    Untouched (es ++ [e])
      ({ s with running, waiters, activeCancel := active }.setCall d call) c := by
  refine hU.mono (State.phase_setCall_of_ne h call) ?_ rfl ?_ ?_
  · rw [State.waiter_setCall_of_ne h]
    rfl
  · rw [State.waiter_setCall_of_ne h]
    rfl
  · simp [State.setCall, h]

/-- The call itself moves, and its record tells why. -/
theorem Untouched.of_move {es : List (Event ι ρ)} {s : State ι ρ} {c : ι} {e : Event ι ρ}
    {call : Call ρ} {running : Bool} {waiters : List ι} {active : Option ι}
    (h_generation : call.waiter.generation = s.generation) (h_err : call.waiter.err = none)
    (h_cancelled : call.cancelled = true → ∃ outcome, .finish c outcome ∈ es ++ [e])
    (h_ctxDone : ∀ message, call.phase = .ctxDone message → .callerDone c message ∈ es ++ [e])
    (h_ended : ∀ outcome, call.phase = .releasing outcome ∨ call.phase = .returned outcome →
      .finish c outcome ∈ es ++ [e] ∨ ∃ message, .callerDone c message ∈ es ++ [e] ∧
        outcome = .error (cancelledError message)) :
    Untouched (es ++ [e])
      ({ s with running, waiters, activeCancel := active }.setCall c call) c where
  generation := by
    intro _
    simpa [State.waiter, State.setCall] using h_generation
  err := by
    intro _
    simpa [State.waiter, State.setCall] using h_err
  cancelled := by simpa [State.setCall] using h_cancelled
  ctxDone := by simpa [State.phase, State.setCall] using h_ctxDone
  ended := by simpa [State.phase, State.setCall] using h_ended

/-- **Only `cancelAll` touches a call from outside.** -/
theorem Untouched.step {es : List (Event ι ρ)} {s : State ι ρ} {c : ι} {e : Event ι ρ}
    (hU : Untouched es s c) (he : enabled s e) (h_cancelAll : ∀ reason, e ≠ .cancelAll reason) :
    Untouched (es ++ [e]) (next s e) c := by
  have h_cancelled : (s.calls c).cancelled = true →
      ∃ outcome, .finish c outcome ∈ es ++ [e] :=
    fun h => (hU.cancelled h).imp fun _ => List.mem_append_left _
  cases e with
  -- a call that enters has the generation of now
  | enter d =>
    simp only [next, State.enter]
    by_cases h : c = d
    · subst h
      split <;> exact Untouched.of_move rfl rfl (by simp) (by simp) (by simp)
    · split <;> exact hU.setCall_of_ne h _
  | callerDone d message =>
    by_cases h : c = d
    · subst h
      have h_entered : s.phase c ≠ .outside := by simp [enabled_callerDone.mp he]
      exact Untouched.of_move (hU.generation h_entered) (hU.err h_entered) h_cancelled
        (by simp) (by simp)
    · exact hU.setCall_of_ne h _
  -- no cancellation has given the slot with an error
  | takeReady d =>
    simp only [next, State.takeReady]
    by_cases h : c = d
    · subst h
      have h_entered : s.phase c ≠ .outside := by simp [(enabled_takeReady.mp he).1]
      rw [hU.err h_entered]
      exact Untouched.of_move (hU.generation h_entered) (hU.err h_entered) h_cancelled
        (by simp) (by simp)
    · split <;> exact hU.setCall_of_ne h _
  -- it leaves because its context was done
  | quit d =>
    obtain ⟨message, h_phase⟩ := enabled_quit.mp he
    simp only [next, h_phase, State.quit]
    by_cases h : c = d
    · subst h
      have h_entered : s.phase c ≠ .outside := by simp [h_phase]
      have h_done := List.mem_append_left [Event.quit c] (hU.ctxDone message h_phase)
      split <;> refine Untouched.of_move (hU.generation h_entered) (hU.err h_entered)
        h_cancelled (by simp) fun outcome h_outcome => .inr ⟨message, h_done, ?_⟩
      · simpa [eq_comm] using h_outcome
      · simpa [eq_comm] using h_outcome
    · split <;> exact hU.setCall_of_ne h _
  -- the generation is still the queue's
  | start d =>
    simp only [next, State.start]
    by_cases h : c = d
    · subst h
      have h_entered : s.phase c ≠ .outside := by simp [enabled_start.mp he]
      rw [if_pos (hU.generation h_entered)]
      exact Untouched.of_move (hU.generation h_entered) (hU.err h_entered) h_cancelled
        (by simp) (by simp)
    · split <;> exact hU.setCall_of_ne h _
  | invoke d =>
    by_cases h : c = d
    · subst h
      have h_entered : s.phase c ≠ .outside := by simp [enabled_invoke.mp he]
      exact Untouched.of_move (hU.generation h_entered) (hU.err h_entered) h_cancelled
        (by simp) (by simp)
    · exact hU.setCall_of_ne h _
  | finish d outcome =>
    by_cases h : c = d
    · subst h
      have h_entered : s.phase c ≠ .outside := by simp [enabled_finish.mp he]
      refine Untouched.of_move (hU.generation h_entered) (hU.err h_entered)
        (fun _ => ⟨outcome, by simp⟩) (by simp) fun outcome' h => .inl ?_
      obtain rfl : outcome = outcome' := by simpa using h
      simp
    · exact hU.setCall_of_ne h _
  | release d =>
    obtain ⟨outcome, h_phase⟩ := enabled_release.mp he
    simp only [next, h_phase]
    -- the call returns with the outcome of its function, and the slot goes on
    have h_set : Untouched (es ++ [.release d]) (s.setPhase d (.returned outcome)) c := by
      by_cases h : c = d
      · subst h
        have h_entered : s.phase c ≠ .outside := by simp [h_phase]
        refine Untouched.of_move (hU.generation h_entered) (hU.err h_entered) h_cancelled
          (by simp) fun outcome' h => ?_
        obtain rfl : outcome = outcome' := by simpa using h
        exact (hU.ended outcome (.inl h_phase)).imp (List.mem_append_left _)
          (Exists.imp fun _ => And.imp_left (List.mem_append_left _))
      · exact hU.setCall_of_ne h _
    constructor
    case generation =>
      rw [State.phase_release, State.waiter_generation_release, State.generation_release]
      exact h_set.generation
    case err =>
      rw [State.phase_release, State.err_release]
      exact h_set.err
    case cancelled =>
      rw [State.cancelled_release]
      exact h_set.cancelled
    case ctxDone =>
      rw [State.phase_release]
      exact h_set.ctxDone
    case ended =>
      rw [State.phase_release]
      exact h_set.ended
  | cancelAll reason => exact absurd rfl (h_cancelAll reason)

/-! ### The claim of `cancelAll` -/

/-- What a `cancelAll` after `es` means for a call that entered before it, when `fs` has
happened since. -/
inductive Stopped (es fs : List (Event ι ρ)) (reason : String) (c : ι) : Prop where
  /-- Its `fn` is not called any more; the call fails as cancelled, and waits for nobody
  until it does. -/
  | fails (h_inactive : c ∉ activatedLog es) (h_fn : c ∉ invokedLog fs)
      (h_outcome : ∀ outcome, ((machine ι ρ).exec (machine ι ρ).init
        (es ++ .cancelAll reason :: fs)).phase c = .returned outcome → IsCancelled outcome)
      (h_returns : CanReturn ((machine ι ρ).exec (machine ι ρ).init
        (es ++ .cancelAll reason :: fs)) c)
  /-- It was active, and its run context is cancelled as soon as `cancelAll` is done. Unless
  its `fn` had already returned, it is `cancelAll` that has called its cancel function. -/
  | interrupted (h_active : c ∈ activatedLog es)
      (h_cancelled : (((machine ι ρ).exec (machine ι ρ).init
        (es ++ [.cancelAll reason])).calls c).cancelled = true)
      (h_by : (((machine ι ρ).exec (machine ι ρ).init es).phase c).isActive = true →
        ((machine ι ρ).exec (machine ι ρ).init es).activeCancel = some c)

/-- A call that has not entered is untouched. -/
theorem Fate.untouched {es : List (Event ι ρ)} {s : State ι ρ} (hF : Fate es s) {c : ι}
    (h_phase : s.phase c = .outside) : Untouched [] s c where
  generation := fun h => absurd h_phase h
  err := fun h => absurd h_phase h
  cancelled := by simp [(hF.outside c h_phase).2]
  ctxDone := by simp [h_phase]
  ended := by simp [h_phase]

/-- The active call is cancelled. -/
theorem cancelled_cancelAll {s : State ι ρ} {c : ι} (reason : String)
    (h : (s.calls c).cancelled = true ∨ s.activeCancel = some c) :
    ((s.cancelAll reason).calls c).cancelled = true := by
  simpa [State.cancelAll] using h

/-- What a `cancelAll` between `es` and `fs` does. -/
structure Cancellation (es fs : List (Event ι ρ)) (reason : String) : Prop where
  /-- It stops the calls that entered before. -/
  before : ∀ c ∈ enteredLog es, Stopped es fs reason c
  /-- A call that had not entered after `gs` is untouched until the next `cancelAll`. -/
  after : ∀ gs hs c, fs = gs ++ hs →
    ((machine ι ρ).exec (machine ι ρ).init (es ++ .cancelAll reason :: gs)).phase c = .outside →
    (∀ reason', .cancelAll reason' ∉ hs) →
    Untouched hs ((machine ι ρ).exec (machine ι ρ).init (es ++ .cancelAll reason :: fs)) c

/-- **`cancelAll` stops the calls before it and no call after it.** -/
theorem cancelAll_stops {es fs : List (Event ι ρ)} {reason : String}
    (h : (machine ι ρ).Runs (machine ι ρ).init (es ++ .cancelAll reason :: fs)) :
    Cancellation es fs reason := by
  constructor
  -- a call from before is interrupted if it was called, and else it fails
  case before =>
    intro c hc
    rw [Machine.runs_append, Machine.runs_cons] at h
    obtain ⟨h_es, -, h_fs⟩ := h
    have hH := history h_es
    have hF := fate h_es
    by_cases h_active : c ∈ activatedLog es
    · refine .interrupted h_active ?_ fun h => hH.inv.activated c h
      rw [Machine.exec_append]
      exact cancelled_cancelAll reason ((hF.called c h_active).symm.imp id (hH.inv.activated c))
    · have h_doomed := doomed_of_cancelAll hH.inv reason
        (hH.order.entered c (mem_enteredLog.mp hc)) (hF.uncalled c h_active) (hF.err c)
      obtain ⟨h_fn, h_end⟩ := h_doomed.not_invoked h_fs
      have h_end : Doomed ((machine ι ρ).exec (machine ι ρ).init
          (es ++ .cancelAll reason :: fs)) c := by
        rw [Machine.exec_append]
        exact h_end
      refine .fails h_active h_fn (fun outcome h_outcome => ?_) h_end.canReturn
      have h_uncalled := h_end.uncalled
      rwa [h_outcome] at h_uncalled
  -- a call that enters later is not touched
  case after =>
    rintro gs hs c rfl h_outside h_none
    have h_split : es ++ .cancelAll reason :: (gs ++ hs) =
        (es ++ .cancelAll reason :: gs) ++ hs := by
      simp
    rw [h_split, Machine.runs_append] at h
    rw [h_split, Machine.exec_append]
    have h_first := (fate h.1).untouched h_outside
    refine (Machine.Runs.history (P := fun es s => (∀ reason', .cancelAll reason' ∉ es) →
      Untouched es s c) (fun _ => h_first) ?_ h.2) h_none
    intro es s e _ _ hU he h_none
    refine (hU fun reason' h => h_none reason' (by simp [h])).step he fun reason' h => ?_
    exact h_none reason' (by simp [h])

/-- The owner is interrupted, the waiter fails, and a call that enters later runs. -/
theorem cancelAll_stops_takenOver :
    Cancellation (ι := ℕ) (ρ := Unit) [.enter 0, .enter 1, .start 0, .invoke 0]
      [.enter 2, .takeReady 1, .finish 0 (.ok ()), .release 0, .takeReady 2, .start 2]
      "lease taken over" :=
  cancelAll_stops (by
    simp only [List.cons_append, List.nil_append, Machine.runs_cons, Machine.runs_nil, and_true]
    exact ⟨rfl, rfl, rfl, rfl, trivial, rfl, ⟨rfl, rfl⟩, rfl, rfl, ⟨rfl, rfl⟩, rfl⟩)

end BrowserControl.Core.TabQueue
