import BrowserControl.Server.Coherence
import Mathlib.Data.Set.Subsingleton

/-!
# One handler for a tab at a time

The queue of a tab has one slot (`TabQueue.Inv.single`), and a request that needs a lease sends
its messages while it has the slot. It gives the slot back when the call of the bridge returns
in the daemon. That is when the extension has answered, or when the deadline of the call passes,
the operation is cancelled, the client disconnects or the connection fails; the handler in the
extension goes on in the latter cases.

`serialized` says that this is all: in the runs where no request gives the slot back while its
handler runs (`Settled`), no two handlers of requests that need a lease run for one tab. The
invariant is `Holding`: while the handler of a request runs, the request has the slot.
-/

namespace BrowserControl.Server

open Encoding Protocol BrowserControl.Core Transition

variable {κ : Type*} [DecidableEq κ] {lib : Library} {leaseTTL : Duration}

/-- The handler of the last message of the request runs. -/
def Request.handled (q : Request) : Bool := (q.handler matches .running _ _)

/-- The slot of the tab is given back only when the handler has settled. -/
def Settled (s : State κ) : Event κ → Prop
  | .release r => (s.requests r).handled = false
  | _ => True

instance (s : State κ) (e : Event κ) : Decidable (Settled s e) := by
  apply Event.casesOn (motive := fun e => Decidable (Settled s e)) e <;> intros <;>
    dsimp only [Settled] <;> infer_instance

/-- The call is in its function or on its way back from it. -/
def inFunction : TabQueue.Phase Json → Bool
  | .invoked => true
  | .releasing _ => true
  | _ => false

/-- While its handler runs, a request that needs a lease has the slot of its tab. -/
def Holding (s : State κ) (r : κ) : Prop :=
  requiresLease (s.requests r).method = true → (s.requests r).handled = true →
    inFunction (s.queuePhase r) = true

section Step

variable {s : State κ} {e : Event κ} {r : κ}

omit [DecidableEq κ] in
/-- A check does nothing at the extension. -/
theorem pass_handler (q : Request) (phase : Phase) (rpcErr : Option RPCError) :
    (q.pass phase rpcErr).handler = q.handler := by
  cases rpcErr <;> rfl

/-- Only sending starts a handler. -/
theorem handled_of_requestEvent {q : Request} (h : requestEvent lib s e = some (r, q))
    (h_handled : q.handled = true) : (s.requests r).handled = true ∨ ∃ b, e = .send r b := by
  -- Most events leave the handler as it is.
  have h_same : q.handler = (s.requests r).handler → (s.requests r).handled = true := by
    intro h_handler
    rw [Request.handled, ← h_handler]
    exact h_handled
  cases e with
  | arrive d method params =>
    cases h
    contradiction
  -- only here does the extension begin to handle the request
  | send d browserInstanceID =>
    cases h
    exact .inr ⟨_, rfl⟩
  | settle d outcome =>
    cases h
    contradiction
  | screen | getSession | requireCapability | validateLease =>
    cases h
    exact .inl (h_same (pass_handler ..))
  | renewLease d now =>
    cases h
    refine .inl (h_same ?_)
    split
    · rfl
    · unfold Request.renewedBy
      split <;> rfl
  | prepare d files =>
    cases h
    refine .inl (h_same ?_)
    unfold Request.prepare
    split
    · rfl
    · exact pass_handler ..
  | refuse | abandon =>
    cases h
    exact .inl (h_same (by rw [Request.failBridge_eq]))
  | receive d =>
    cases h
    exact .inl (h_same (by rw [Request.receive_eq]))
  | finishCall d =>
    simp only [requestEvent] at h
    split at h
    · cases h
      exact .inl h_handled
    · contradiction
  | respond d =>
    simp only [requestEvent] at h
    split at h
    · cases h
      exact .inl h_handled
    · split at h
      · cases h
        exact .inl h_handled
      · contradiction
  | _ => cases h <;> exact .inl h_handled

/-- A call that is in its function stays so until it gives the slot back. -/
theorem inFunction_next {q : TabQueue.State κ Json} {e' : TabQueue.Event κ Json} {c : κ}
    (he : TabQueue.enabled q e') (h_release : e' ≠ .release c)
    (h : inFunction (q.phase c) = true) : inFunction ((TabQueue.next q e').phase c) = true := by
  by_cases h_caller : e'.caller = some c
  case neg =>
    rw [TabQueue.phase_next_of_ne q h_caller]
    exact h
  have h_not : ∀ phase, q.phase c = phase → inFunction phase = false → False := by
    rintro phase rfl h_phase
    rw [h_phase] at h
    exact Bool.false_ne_true h
  -- of the events of the call only `finish` and `release` come after the function has begun
  cases e' with
  | enter d =>
    cases h_caller
    exact (h_not _ (TabQueue.enabled_enter.mp he) rfl).elim
  | callerDone d message =>
    cases h_caller
    exact (h_not _ (TabQueue.enabled_callerDone.mp he) rfl).elim
  | takeReady d =>
    cases h_caller
    exact (h_not _ (TabQueue.enabled_takeReady.mp he).1 rfl).elim
  | quit d =>
    cases h_caller
    obtain ⟨message, h_phase⟩ := TabQueue.enabled_quit.mp he
    exact (h_not _ h_phase rfl).elim
  | start d =>
    cases h_caller
    exact (h_not _ (TabQueue.enabled_start.mp he) rfl).elim
  | invoke d =>
    cases h_caller
    exact (h_not _ (TabQueue.enabled_invoke.mp he) rfl).elim
  | finish d outcome =>
    cases h_caller
    show inFunction (Function.update q.calls c _ c).phase = true
    rw [Function.update_self]
    rfl
  | release d =>
    cases h_caller
    exact absurd rfl h_release
  | cancelAll reason => contradiction

/-- A request sends its messages from its function. -/
theorem inFunction_of_send {b : String} (hs : (machine lib leaseTTL).Reachable s)
    (he : enabled s (.send r b)) (h_method : requiresLease (s.requests r).method = true) :
    inFunction (s.queuePhase r) = true := by
  have h_working := he.1.1
  rw [State.working, Bool.and_eq_true, Bool.or_eq_true, decide_eq_true_eq] at h_working
  obtain ⟨h_calling, h_called⟩ := h_working
  have h_checked : (s.requests r).phase.isChecked = true := by
    cases h_phase : (s.requests r).phase with
    | calling => rfl
    | _ =>
      rw [h_phase] at h_calling
      contradiction
  -- The method needs a lease, so the call went through the queue.
  have h_invoked := h_called.resolve_left ((coherent hs r).tab h_checked h_method)
  cases h_phase : s.queuePhase r with
  | invoked => rfl
  | _ =>
    rw [h_phase] at h_invoked
    contradiction

/-- A request that is in its function stays there until it gives the slot back. -/
theorem inFunction_queuePhase_next (hs : (machine lib leaseTTL).Reachable s) (he : enabled s e)
    (h_request : e.request? = some r) (h_release : e ≠ .release r)
    (h : inFunction (s.queuePhase r) = true) :
    inFunction ((next lib s e).queuePhase r) = true := by
  have hC := coherent hs r
  have h_entered : s.queuePhase r ≠ .outside := by
    intro h_outside
    rw [h_outside] at h
    contradiction
  have h_phase : (s.requests r).phase ≠ .outside := by
    intro h_outside
    have h_late := hC.late_of_queue h_entered
    rw [h_outside] at h_late
    contradiction
  have h_tab : ((next lib s e).requests r).tabID = (s.requests r).tabID :=
    stringField_next hC he h_phase (by decide)
  cases h_event : queueEvent s e with
  -- no step of the queue
  | none =>
    rw [queuePhase_next_none h_event h_tab]
    exact h
  -- a step of the call in its queue
  | some p =>
    obtain ⟨d, q⟩ := p
    obtain ⟨h_eq, -⟩ := caller_of_queueEvent h_event
    rw [h_request, Option.some_inj] at h_eq
    subst h_eq
    rw [queuePhase_next_some h_event h_tab]
    refine inFunction_next (he.2.2 _ h_event) ?_ h
    rintro rfl
    cases e with
    | release d =>
      cases h_event
      exact h_release rfl
    | leave d =>
      rw [queueEvent] at h_event
      split at h_event <;> cases h_event
    | _ => cases h_event

/-- A step that gives no slot back while a handler runs. -/
theorem Holding.step (hH : Holding s r) (hs : (machine lib leaseTTL).Reachable s)
    (he : enabled s e) (h_settled : Settled s e) : Holding (next lib s e) r := by
  intro h_method h_handled
  by_cases h_request : e.request? = some r
  case neg =>
    have h_same := requests_next_of_ne lib (s := s) h_request
    rw [State.queuePhase, h_same]
    rw [h_same] at h_method h_handled
    rw [show ((next lib s e).queues _).phase r = _ from phase_nextQueues_of_ne h_request _]
    exact hH h_method h_handled
  cases h_event : requestEvent lib s e with
  | none =>
    rw [requests_next_none h_event] at h_method h_handled
    refine inFunction_queuePhase_next hs he h_request ?_ (hH h_method h_handled)
    rintro rfl
    rw [show (s.requests r).handled = false from h_settled] at h_handled
    exact Bool.false_ne_true h_handled
  | some p =>
    obtain ⟨d, q⟩ := p
    have h_eq := request?_of_requestEvent lib h_event
    rw [h_request, Option.some_inj] at h_eq
    subst h_eq
    rw [requests_next_self h_event] at h_method h_handled
    have h_kept : (s.requests r).method = q.method := by
      rcases kept_of_requestEvent h_event with ⟨method, params, rfl⟩ | h_kept
      · cases h_event
        contradiction
      · exact h_kept.method.symm
    rw [← h_kept] at h_method
    -- the handler was running before, or is begun by this step
    rcases handled_of_requestEvent h_event h_handled with h_before | ⟨b, rfl⟩
    · refine inFunction_queuePhase_next hs he h_request ?_ (hH h_method h_before)
      rintro rfl
      contradiction
    · exact inFunction_queuePhase_next hs he h_request (by rintro ⟨⟩)
        (inFunction_of_send hs he h_method)

end Step

/-- So it is in every state. -/
theorem Holding.reachable {s : State κ}
    (hs : ((machine lib leaseTTL).restrict Settled).Reachable s) (r : κ) : Holding s r := by
  refine hs.induction (P := fun s => Holding s r) ?_ ?_
  · intro _ h; contradiction
  · exact fun s e hs hH he => hH.step hs.of_restrict he.1 he.2

/-- The requests that need a lease and that the extension executes for the tab: their message
is written and its handler has not settled. -/
def State.executing (s : State κ) (tabID : String) : Set κ :=
  {r | requiresLease (s.requests r).method = true ∧ (s.requests r).tabID = tabID ∧
    (s.requests r).handled = true}

/-- **Serialization.** In every run in which no request gives the slot of its tab back while its
handler in the extension runs, the extension executes one request at a time for a tab, of those
that need a lease. -/
theorem serialized {s : State κ} (hs : ((machine lib leaseTTL).restrict Settled).Reachable s)
    (tabID : String) : (s.executing tabID).Subsingleton := by
  have hI := TabQueue.Inv.reachable
    ((queueProjection lib leaseTTL tabID).reachable hs.of_restrict)
  -- Whoever executes owns the slot of the tab, and the slot has one owner.
  have h_owns : ∀ r ∈ s.executing tabID, ((s.queues tabID).calls r).owns = true := by
    rintro r ⟨h_method, rfl, h_handled⟩
    have h_fn := Holding.reachable hs r h_method h_handled
    refine hI.owns_of_holding (c := r) rfl ?_
    show (s.queuePhase r).isHolding = true
    cases h_phase : s.queuePhase r with
    | invoked | releasing => rfl
    | _ =>
      rw [h_phase] at h_fn
      contradiction
  intro r₁ h₁ r₂ h₂
  exact hI.single r₁ r₂ (h_owns r₁ h₁) (h_owns r₂ h₂)

/-- The second request runs. -/
def handover : List (Event (Fin 2)) := queued ++ resumed ++ [.start 1, .run 1, .send 1 ""]

/-- The slot is handed over after the first handler has settled. -/
theorem serialized_handover :
    1 ∈ ((machine sampleLibrary 0).exec (machine sampleLibrary 0).init handover).executing "7" ∧
      (((machine sampleLibrary 0).exec (machine sampleLibrary 0).init handover).executing
        "7").Subsingleton := by
  have h : ((machine sampleLibrary 0).restrict Settled).Runs (machine sampleLibrary 0).init
      handover ∧
      let q := ((machine sampleLibrary 0).exec (machine sampleLibrary 0).init handover).requests 1
      requiresLease q.method = true ∧ q.tabID = "7" ∧ q.handled = true := by
    decide +kernel
  refine ⟨h.2, serialized ⟨handover, h.1, ?_⟩ "7"⟩
  rw [Machine.exec_restrict, Machine.restrict_init]

/-- The deadline of the first call passes while its handler runs. -/
def overtaken : List (Event (Fin 2)) :=
  queued ++ [.abandon 0 (.timeout "context deadline exceeded" "chrome_1"), .leave 0, .release 0,
    .takeReady 1, .start 1, .run 1, .send 1 ""]

/-- After a timeout two handlers run for one tab. -/
theorem not_serialized_timeout :
    (machine sampleLibrary 0).Runs (machine sampleLibrary 0).init overtaken ∧
      ¬ (((machine sampleLibrary 0).exec (machine sampleLibrary 0).init overtaken).executing
        "7").Subsingleton := by
  have h : (machine sampleLibrary 0).Runs (machine sampleLibrary 0).init overtaken ∧
      ∀ r : Fin 2,
        let q := ((machine sampleLibrary 0).exec (machine sampleLibrary 0).init
          overtaken).requests r
        requiresLease q.method = true ∧ q.tabID = "7" ∧ q.handled = true := by
    decide +kernel
  refine ⟨h.1, fun h_single => ?_⟩
  exact absurd (h_single (h.2 0) (h.2 1)) (by decide)

end BrowserControl.Server
