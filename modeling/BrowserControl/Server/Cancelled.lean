import BrowserControl.Server.Exposure

/-!
# Operations that are cancelled

Cancelling an operation cancels the context of its callback. What the operation is recorded with
depends on who looks at the context next. The queue of the tab fails a call that waits as
cancelled; the bridge fails a call that is sent, or that is about to be sent, as timed out
(`BridgeFailure.timeout`), and `ExecuteOperation` records that as a failure.

The module follows the outcome of a request from the place where it comes from to its record.
`RequestMoves`, `OperationMoves` and `QueueMoves` say what a step does to the three parts of a
request, `Stands` what the parts have to do with each other, and `Yields` that all the outcomes a
request has at hand have a property. As long as the function of a request was not called, its
outcomes are those of the queue (`yields_of_idle`); from then on they are those of the bridge
(`yields_of_called`). So an operation whose context is cancelled, and that gets no answer, is
recorded as cancelled if and only if its function is never called (`recorded_cancelled_iff`).
-/

namespace BrowserControl.Server

open Encoding Protocol BrowserControl.Core Transition

variable {κ : Type*} [DecidableEq κ] {lib : Library} {leaseTTL : Duration}
  {s : State κ} {e : Event κ} {r : κ}

/-! ### What a step does to a request -/

/-- A message is about to be sent, or its answer is waited for. -/
def Work.isBusy (work : Work) : Bool := work.isReady || work.isWaiting

/-- The function has returned. -/
def Work.isDone : Work → Bool
  | .done _ _ => true
  | _ => false

/-- Everything a step can do to a request. -/
inductive RequestMoves (s : State κ) (e : Event κ) (r : κ) : Request → Prop where
  | stays (handler : Handler) (clientGone : Bool) :
      RequestMoves s e r { s.requests r with handler, clientGone }
  | checked {q : Request} (h_early : (s.requests r).phase.isEarly = true) (h_work : q.work = .idle)
      (h_phase : q.phase.isEarly = true ∨ ∃ outcome, q.phase = .answered outcome) :
      RequestMoves s e r q
  -- the operation
  | executes {now : Time} (h_event : e = .execute r now)
      (h_phase : (s.requests r).phase = .prepared) :
      RequestMoves s e r ((s.requests r).setPhase .executing)
  | begins (h_event : e = .invoke r ∧ (s.requests r).phase = .executing ∨
      e = .call r ∧ (s.requests r).phase = .prepared) :
      RequestMoves s e r (s.requests r).begin
  | finishes {outcome : Outcome Json} (h_event : e = .finish r)
      (h_phase : (s.requests r).phase = .called outcome) :
      RequestMoves s e r ((s.requests r).setPhase .executing)
  | returns {outcome : Outcome Json} (h_event : e = .finishCall r)
      (h_phase : (s.requests r).phase = .calling) (h_outcome : s.runTabOutcome r = some outcome) :
      RequestMoves s e r ((s.requests r).setPhase (.called (reportEffect (s.requests r).method
        (s.requests r).params (s.requests r).dispatched outcome)))
  | answers {outcome : Outcome Json} (h_event : e = .respond r)
      (h_phase : (s.requests r).phase ≠ .calling) :
      RequestMoves s e r ((s.requests r).setPhase (.answered outcome))
  -- the function in the slot
  | runs (h_event : e = .run r) :
      RequestMoves s e r { s.requests r with work := (s.requests r).firstWork }
  | sends {b : String} (h_event : e = .send r b) (h_working : s.working r = true)
      (h_ready : (s.requests r).work.isReady = true) : RequestMoves s e r ((s.requests r).send b)
  | fails {failure : BridgeFailure} (h_event : e = .refuse r failure ∨ e = .abandon r failure)
      (h_working : s.working r = true) (h_busy : (s.requests r).work.isBusy = true) :
      RequestMoves s e r ((s.requests r).failBridge failure)
  | receives (h_event : e = .receive r) (h_working : s.working r = true)
      (h_waiting : (s.requests r).work.isWaiting = true) :
      RequestMoves s e r (s.requests r).receive

omit [DecidableEq κ] in
/-- A handler that comes to its next check. -/
theorem RequestMoves.pass (h_early : (s.requests r).phase.isEarly = true)
    (h_idle : (s.requests r).work = .idle) {phase : Phase} (h_phase : phase.isEarly = true)
    (rpcErr : Option RPCError) : RequestMoves s e r ((s.requests r).pass phase rpcErr) := by
  cases rpcErr with
  | none => exact .checked h_early h_idle (.inl h_phase)
  | some rpcErr => exact .checked h_early h_idle (.inr ⟨_, rfl⟩)

variable (lib) in
/-- Every step moves a request in one of these ways. -/
theorem requestMoves (hC : Coherent s r) (he : enabled s e) :
    RequestMoves s e r ((next lib s e).requests r) := by
  by_cases h_request : e.request? = some r
  -- the event of another request: the handler or the client may move at most
  case neg =>
    rw [requests_next_of_ne lib h_request]
    exact .stays (s.requests r).handler (s.requests r).clientGone
  obtain ⟨h_takes, -, -⟩ := he
  have h_idle : (s.requests r).phase.isEarly = true → (s.requests r).work = .idle :=
    fun h_early => (hC.early h_early).2.1
  cases e with
  | arrive d method params =>
    cases h_request
    have h_phase := (takes_arrive.mp h_takes).1
    rw [requests_next_self rfl]
    exact .checked (by rw [h_phase]; rfl) rfl (.inl rfl)
  | clientGone d =>
    cases h_request
    rw [requests_next_self rfl]
    exact .stays (s.requests r).handler true
  | command k now => contradiction
  -- the checks: each of them passes or answers with an error
  | screen d now =>
    cases h_request
    have h_early : (s.requests r).phase.isEarly = true := by
      rw [takes_screen.mp h_takes]
      rfl
    rw [requests_next_self rfl]
    exact .pass h_early (h_idle h_early) rfl _
  | getSession d =>
    cases h_request
    have h_early : (s.requests r).phase.isEarly = true := by
      rw [takes_getSession.mp h_takes]
      rfl
    rw [requests_next_self rfl]
    exact .pass h_early (h_idle h_early) rfl _
  | requireCapability d =>
    cases h_request
    have h_early : (s.requests r).phase.isEarly = true := by
      rw [takes_requireCapability.mp h_takes]
      rfl
    rw [requests_next_self rfl]
    exact .pass h_early (h_idle h_early) rfl _
  | validateLease d now =>
    cases h_request
    have h_early : (s.requests r).phase.isEarly = true := by
      rw [(takes_validateLease.mp h_takes).1]
      rfl
    rw [requests_next_self rfl]
    exact .pass h_early (h_idle h_early) rfl _
  | renewLease d now =>
    cases h_request
    have h_early : (s.requests r).phase.isEarly = true := by
      rw [takes_renewLease.mp h_takes]
      rfl
    rw [requests_next_self rfl]
    split
    · exact .checked h_early (h_idle h_early) (.inr ⟨_, rfl⟩)
    · unfold Request.renewedBy
      split
      · exact .checked h_early (h_idle h_early) (.inr ⟨_, rfl⟩)
      · exact .checked h_early (h_idle h_early) (.inl rfl)
  | prepare d files =>
    cases h_request
    have h_early : (s.requests r).phase.isEarly = true := by
      rcases takes_prepare.mp h_takes with h_phase | ⟨h_phase, -⟩
      · rw [h_phase]
        rfl
      · rw [h_phase]
        rfl
    rw [requests_next_self rfl]
    unfold Request.prepare
    split
    · exact .checked h_early (h_idle h_early) (.inr ⟨_, rfl⟩)
    · next params _ =>
      cases checkForwarded (s.requests r).method params ((s.requests r).hasEpoch lib) with
      | none => exact .checked h_early (h_idle h_early) (.inl rfl)
      | some rpcErr => exact .checked h_early (h_idle h_early) (.inr ⟨_, rfl⟩)
  -- the operation and the call
  | execute d now =>
    cases h_request
    rw [requests_next_self rfl]
    exact .executes rfl (takes_execute.mp h_takes).1
  | invoke d =>
    cases h_request
    rw [requests_next_self rfl]
    exact .begins (.inl ⟨rfl, takes_invoke.mp h_takes⟩)
  | call d =>
    cases h_request
    rw [requests_next_self rfl]
    exact .begins (.inr ⟨rfl, (takes_call.mp h_takes).1⟩)
  | finish d =>
    cases h_request
    obtain ⟨⟨outcome, h_phase⟩, -⟩ := takes_finish.mp h_takes
    rw [requests_next_self rfl]
    exact .finishes rfl h_phase
  | finishCall d =>
    cases h_request
    obtain ⟨h_phase, outcome, h_outcome⟩ := takes_finishCall.mp h_takes
    have h_event : requestEvent lib s (.finishCall r) = some (r, (s.requests r).setPhase
        (.called (reportEffect (s.requests r).method (s.requests r).params
          (s.requests r).dispatched outcome))) := by
      rw [requestEvent, h_outcome]
    rw [requests_next_self h_event]
    exact .returns rfl h_phase h_outcome
  -- the function and the extension
  | run d =>
    cases h_request
    rw [requests_next_self rfl]
    exact .runs rfl
  | send d b =>
    cases h_request
    rw [requests_next_self rfl]
    exact .sends rfl h_takes.1 h_takes.2
  | refuse d failure =>
    cases h_request
    rw [requests_next_self rfl]
    exact .fails (.inl rfl) h_takes.1 (Bool.or_eq_true_iff.mpr (.inl h_takes.2))
  | abandon d failure =>
    cases h_request
    rw [requests_next_self rfl]
    exact .fails (.inr rfl) h_takes.1 (Bool.or_eq_true_iff.mpr (.inr h_takes.2))
  | settle d outcome =>
    cases h_request
    rw [requests_next_self rfl]
    exact .stays (.settled outcome) (s.requests r).clientGone
  | receive d =>
    cases h_request
    rw [requests_next_self rfl]
    exact .receives rfl h_takes.1 h_takes.2.1
  -- the answer, to a call that has returned or to an operation that has ended
  | respond d =>
    cases h_request
    rcases takes_respond.mp h_takes with
      ⟨⟨outcome, h_phase⟩, -⟩ | ⟨h_phase, outcome, replayed, h_result⟩
    · have h_event : requestEvent lib s (.respond r) =
          some (r, (s.requests r).setPhase (.answered outcome)) := by
        rw [requestEvent, h_phase]
      rw [requests_next_self h_event]
      exact .answers rfl (by rw [h_phase]; rintro ⟨⟩)
    · have h_event : requestEvent lib s (.respond r) = some (r, (s.requests r).setPhase
          (.answered (operationAnswer (s.requests r).operationID outcome replayed))) := by
        rw [requestEvent, h_phase, h_result]
      rw [requests_next_self h_event]
      exact .answers rfl (by rw [h_phase]; rintro ⟨⟩)
  | _ =>
    rw [requests_next_none rfl]
    exact .stays (s.requests r).handler (s.requests r).clientGone

/-! ### What a step does to a call in the queue of its tab -/

/-- Everything a step of a queue can do to a call. -/
inductive QueueMoves (s : TabQueue.State κ Json) (q : TabQueue.Event κ Json) (c : κ) :
    TabQueue.Phase Json → Prop where
  | stays : QueueMoves s q c (s.phase c)
  | enters (h_event : q = .enter c) (h : s.phase c = .outside) {phase : TabQueue.Phase Json}
      (h_phase : phase.isPending = true) : QueueMoves s q c phase
  | waits (h : (s.phase c).isPending = true) {phase : TabQueue.Phase Json}
      (h_phase : phase.isPending = true) : QueueMoves s q c phase
  -- A wait that fails ends with the cancellation.
  | fails (h : (s.phase c).isPending = true) {outcome : Outcome Json}
      (h_cancelled : TabQueue.IsCancelled outcome) {phase : TabQueue.Phase Json}
      (h_phase : phase = .releasing outcome ∨ phase = .returned outcome) : QueueMoves s q c phase
  | runs (h_event : q = .invoke c) (h : s.phase c = .activated) : QueueMoves s q c .invoked
  | leaves {outcome : Outcome Json} (h_event : q = .finish c outcome) (h : s.phase c = .invoked) :
      QueueMoves s q c (.releasing outcome)
  | releases {outcome : Outcome Json} (h : s.phase c = .releasing outcome) :
      QueueMoves s q c (.returned outcome)

/-- Every step of a queue moves a call in one of these ways. -/
theorem queueMoves {s : TabQueue.State κ Json} {q : TabQueue.Event κ Json} {c : κ}
    (h_err : ∀ rpcErr, (s.waiter c).err = some rpcErr → errorKind (some rpcErr) = "CANCELLED")
    (he : TabQueue.enabled s q) : QueueMoves s q c ((TabQueue.next s q).phase c) := by
  by_cases h_caller : q.caller = some c
  case neg =>
    rw [TabQueue.phase_next_of_ne s h_caller]
    exact .stays
  -- a step of the call writes its own entry
  have h_set : ∀ (s' : TabQueue.State κ Json) (call : TabQueue.Call Json),
      (s'.setCall c call).phase c = call.phase := by
    intro s' call
    show (Function.update s'.calls c call c).phase = call.phase
    rw [Function.update_self]
  cases q with
  | enter d =>
    cases h_caller
    have h_outside := TabQueue.enabled_enter.mp he
    rw [TabQueue.next, TabQueue.State.enter]
    split
    · rw [h_set]
      exact .enters rfl h_outside rfl
    · rw [h_set]
      exact .enters rfl h_outside rfl
  | callerDone d message =>
    cases h_caller
    have h_pending : (s.phase c).isPending = true := by
      rw [TabQueue.enabled_callerDone.mp he]
      rfl
    rw [TabQueue.next, TabQueue.State.setPhase, h_set]
    exact .waits h_pending rfl
  | takeReady d =>
    cases h_caller
    have h_pending : (s.phase c).isPending = true := by
      rw [(TabQueue.enabled_takeReady.mp he).1]
      rfl
    rw [TabQueue.next, TabQueue.State.takeReady]
    split
    case h_1 rpcErr h_some =>
      rw [TabQueue.State.setPhase, h_set]
      exact .fails h_pending ⟨rpcErr, rfl, h_err rpcErr h_some⟩ (.inr rfl)
    case h_2 =>
      rw [TabQueue.State.setPhase, h_set]
      exact .waits h_pending rfl
  -- a call that leaves the queue has failed with `CANCELLED`
  | quit d =>
    cases h_caller
    obtain ⟨message, h_phase⟩ := TabQueue.enabled_quit.mp he
    have h_pending : (s.phase c).isPending = true := by
      rw [h_phase]
      rfl
    have h_cancelled := TabQueue.isCancelled_cancelledError (ρ := Json) message
    simp only [TabQueue.next, h_phase, TabQueue.State.quit]
    split
    · rw [TabQueue.State.setPhase, h_set]
      exact .fails h_pending h_cancelled (.inl rfl)
    · rw [TabQueue.State.setPhase, h_set]
      exact .fails h_pending h_cancelled (.inr rfl)
  -- its turn: it begins, unless the generation has changed
  | start d =>
    cases h_caller
    have h_pending : (s.phase c).isPending = true := by
      rw [TabQueue.enabled_start.mp he]
      rfl
    rw [TabQueue.next, TabQueue.State.start]
    split
    · rw [TabQueue.State.setPhase, h_set]
      exact .waits h_pending rfl
    · rw [h_set]
      exact .fails h_pending TabQueue.isCancelled_revokedBeforeRun (.inl rfl)
  | invoke d =>
    cases h_caller
    rw [TabQueue.next, TabQueue.State.setPhase, h_set]
    exact .runs rfl (TabQueue.enabled_invoke.mp he)
  | finish d outcome =>
    cases h_caller
    rw [TabQueue.next, TabQueue.State.finish, h_set]
    exact .leaves rfl (TabQueue.enabled_finish.mp he)
  | release d =>
    cases h_caller
    obtain ⟨outcome, h_phase⟩ := TabQueue.enabled_release.mp he
    simp only [TabQueue.next, h_phase]
    rw [TabQueue.State.phase_release, TabQueue.State.phase_setPhase]
    exact .releases h_phase
  | cancelAll reason => contradiction

/-- Only `cancelAll` leaves errors on waiters. -/
theorem errorKind_waiter (hs : (machine lib leaseTTL).Reachable s) (tab : String)
    {rpcErr : RPCError}
    (h : ((s.queues tab).waiter r).err = some rpcErr) : errorKind (some rpcErr) = "CANCELLED" := by
  obtain ⟨qs, h_runs, h_exec⟩ := (queueProjection lib leaseTTL tab).reachable hs
  have hF := TabQueue.fate h_runs
  rw [h_exec] at hF
  exact hF.err r rpcErr h

/-! ### What a step does to an operation -/

/-- Everything a step can do to the operation of a request. -/
inductive OperationMoves (s : State κ) (e : Event κ) (r : κ) : Operations.Phase κ → Prop where
  | stays : OperationMoves s e r (s.operations.phase r)
  /-- The call looks its operation id up, or is done waiting for the record it has found. -/
  | looks (h_phase : (s.requests r).phase = .prepared ∨ ∃ c, s.operations.phase r = .waiting c)
      {phase : Operations.Phase κ} (h_new : phase = .admitted → (s.requests r).phase = .prepared)
      (h_before : ∀ outcome, phase ≠ .ended outcome ∧ phase ≠ .recorded outcome) :
      OperationMoves s e r phase
  | invokes (h_event : e = .invoke r) (h : s.operations.phase r = .admitted) :
      OperationMoves s e r .running
  | ends {outcome : Outcome Json} (h_event : e = .finish r)
      (h_phase : (s.requests r).phase = .called outcome) : OperationMoves s e r (.ended outcome)
  | records {outcome : Outcome Json} (h : s.operations.phase r = .ended outcome) :
      OperationMoves s e r (.recorded outcome)

variable (lib r) in
/-- Every step moves an operation in one of these ways. -/
theorem operationMoves (he : enabled s e) :
    OperationMoves s e r ((next lib s e).operations.phase r) := by
  cases h_event : operationEvent s e with
  -- no step of the operations: the phase is as before
  | none =>
    rw [operations_next_none h_event]
    exact .stays
  | some e' =>
    have he' := he.2.1 e' h_event
    rw [operations_next_some h_event]
    by_cases h_call : e'.call? = some r
    case neg =>
      rw [Operations.State.phase, Operations.calls_next_of_ne lib.hash _ h_call]
      exact .stays
    -- a step of this call
    have h_request := request?_of_operationEvent h_event h_call
    cases e with
    | execute d now =>
      cases h_request
      cases h_event
      have h_prepared := (takes_execute.mp he.1).1
      refine .looks (.inl h_prepared) (fun _ => h_prepared) fun outcome => ?_
      -- None of the ways through the first critical section comes to an outcome.
      have h_execute := Operations.executes lib.hash s.operations r now
        { sessionID := (s.requests r).sessionID
          tabID := (s.requests r).tabID
          operationID := (s.requests r).operationID
          request := fingerprintParams (s.requests r).params }
      show (s.operations.execute lib.hash r now _).phase r ≠ _ ∧
        (s.operations.execute lib.hash r now _).phase r ≠ _
      generalize s.operations.execute lib.hash r now _ = s' at h_execute ⊢
      cases h_execute with
      | admitted =>
        rw [Operations.State.register, Operations.State.phase_setCall_self]
        exact ⟨by rintro ⟨⟩, by rintro ⟨⟩⟩
      | _ =>
        rw [Operations.State.phase_setCall_self]
        exact ⟨by rintro ⟨⟩, by rintro ⟨⟩⟩
    | giveUp d message =>
      cases h_request
      cases h_event
      obtain ⟨c, h_wait⟩ := Operations.enabled_ctxDone.mp he'
      rw [Operations.next, Operations.State.setPhase, Operations.State.phase_setCall_self]
      exact .looks (.inr ⟨c, h_wait⟩) (by rintro ⟨⟩) fun _ => ⟨by rintro ⟨⟩, by rintro ⟨⟩⟩
    | replay d =>
      cases h_request
      cases h_event
      obtain ⟨c, h_wait, -⟩ := Operations.enabled_takeDone.mp he'
      simp only [Operations.next, h_wait]
      rw [Operations.State.setPhase, Operations.State.phase_setCall_self]
      exact .looks (.inr ⟨c, h_wait⟩) (by rintro ⟨⟩) fun _ => ⟨by rintro ⟨⟩, by rintro ⟨⟩⟩
    | invoke d =>
      cases h_request
      cases h_event
      rw [Operations.next, Operations.State.setPhase, Operations.State.phase_setCall_self]
      exact .invokes rfl (Operations.enabled_invoke.mp he')
    | finish d =>
      cases h_request
      obtain ⟨⟨outcome, h_phase⟩, -⟩ := takes_finish.mp he.1
      rw [operationEvent, h_phase] at h_event
      cases h_event
      rw [Operations.next, Operations.State.finish, Operations.State.setPhase,
        Operations.State.phase_setCall_self]
      exact .ends rfl h_phase
    | record d now =>
      cases h_request
      cases h_event
      obtain ⟨outcome, h_ended⟩ := Operations.enabled_record.mp he'
      simp only [Operations.next, h_ended]
      rw [Operations.State.record, Operations.State.setPhase, Operations.State.phase_setCall_self]
      exact .records h_ended
    | screen d now =>
      simp only [operationEvent] at h_event
      split at h_event
      · cases h_event
        contradiction
      · contradiction
    | validateLease d now =>
      simp only [operationEvent] at h_event
      split at h_event
      · cases h_event
        contradiction
      · contradiction
    | renewLease d now =>
      cases h_event
      contradiction
    | _ => contradiction

/-! ### Where the parts of a request are -/

/-- What the three parts of a request have to do with each other. -/
structure Stands (s : State κ) (r : κ) : Prop where
  /-- The callback of an operation runs while the request is in `RunTab`. -/
  calling : (s.requests r).phase = .calling →
    s.operations.phase r = .outside ∨ s.operations.phase r = .running
  /-- A request is in the queue of its tab only while it is in `RunTab`. -/
  inside : (s.queuePhase r).isInside = true → (s.requests r).phase = .calling
  /-- Messages are sent while the queue runs the function. -/
  busy : (s.requests r).work.isBusy = true → s.working r = true
  /-- Nothing was sent before the callback is called. -/
  admitted : s.operations.phase r = .admitted → (s.requests r).work = .idle

omit [DecidableEq κ] in
/-- When a handler works. -/
theorem working_iff : s.working r = true ↔ (s.requests r).phase = .calling ∧
    ((s.requests r).tabID = "" ∨ s.queuePhase r = .invoked) := by
  unfold State.working
  rw [Bool.and_eq_true, Bool.or_eq_true, decide_eq_true_iff]
  refine and_congr ?_ (or_congr_right ?_)
  · cases (s.requests r).phase <;> simp
  · cases s.queuePhase r <;> simp

omit [DecidableEq κ] in
theorem Stands.init (r : κ) :
    Stands ({ operations := { manager := .new leaseTTL } } : State κ) r where
  calling h := by contradiction
  inside h := by contradiction
  busy h := by contradiction
  admitted h := by contradiction

/-- The queue of its tab leaves the call of a request where it is, or moves it. -/
theorem queuePhase_next (hs : (machine lib leaseTTL).Reachable s) (he : enabled s e)
    (h_phase : (s.requests r).phase ≠ .outside) :
    (next lib s e).queuePhase r = s.queuePhase r ∨
      ∃ q, queueEvent s e = some (r, q) ∧
        QueueMoves (s.queues (s.requests r).tabID) q r ((next lib s e).queuePhase r) := by
  have h_tab : ((next lib s e).requests r).tabID = (s.requests r).tabID :=
    stringField_next (coherent hs r) he h_phase (by decide)
  by_cases h_request : e.request? = some r
  case neg =>
    left
    rw [State.queuePhase, h_tab]
    exact phase_nextQueues_of_ne h_request _
  -- the event has no step for the queue, or it is one of this call
  cases h_event : queueEvent s e with
  | none => exact .inl (queuePhase_next_none h_event h_tab)
  | some p =>
    obtain ⟨d, q⟩ := p
    obtain ⟨h_eq, -⟩ := caller_of_queueEvent h_event
    rw [h_request, Option.some_inj] at h_eq
    subst h_eq
    refine .inr ⟨q, rfl, ?_⟩
    rw [queuePhase_next_some h_event h_tab]
    exact queueMoves (fun _ => errorKind_waiter hs _) (he.2.2 _ h_event)

omit [DecidableEq κ] in
/-- A request enters the queue of its tab from `RunTab`. -/
theorem takes_enter_of {q : TabQueue.Event κ Json} (h_event : queueEvent s e = some (r, q))
    (h_enter : q = .enter r) (he : enabled s e) :
    (s.requests r).phase = .calling ∧ (s.requests r).tabID ≠ "" := by
  subst h_enter
  cases e with
  | enter d =>
    cases h_event
    exact takes_enter.mp he.1
  | leave d =>
    rw [queueEvent] at h_event
    split at h_event <;> cases h_event
  | _ => cases h_event

/-- A call that waits is in the queue. -/
theorem isInside_of_isPending {phase : TabQueue.Phase Json} (h : phase.isPending = true) :
    phase.isInside = true := by
  cases phase <;> first | rfl | contradiction

/-- A request that calls stands where it should. -/
theorem Stands.calling_next (hS : Stands s r) (hC : Coherent s r) (he : enabled s e)
    (h_calling : ((next lib s e).requests r).phase = .calling) :
    (next lib s e).operations.phase r = .outside ∨
      (next lib s e).operations.phase r = .running := by
  -- while the request is calling its operation stays invoked, or there is none
  have h_stays : (s.requests r).phase = .calling → (next lib s e).operations.phase r = .outside ∨
      (next lib s e).operations.phase r = .running := by
    intro h_before
    have h_where := hS.calling h_before
    have h_moves := operationMoves lib r he
    generalize (next lib s e).operations.phase r = phase at h_moves ⊢
    cases h_moves with
    | stays => exact h_where
    | looks h_phase =>
      rcases h_phase with h_prepared | ⟨c, h_wait⟩
      · have h := h_prepared.symm.trans h_before
        contradiction
      · rw [h_wait] at h_where
        rcases h_where with h | h
        · contradiction
        · contradiction
    | invokes h_event => exact .inr rfl
    | ends h_event h_phase =>
      have h := h_phase.symm.trans h_before
      contradiction
    | records h_ended =>
      rw [h_ended] at h_where
      rcases h_where with h | h
      · contradiction
      · contradiction
  have h_moves := requestMoves lib hC he
  generalize (next lib s e).requests r = q at h_moves h_calling
  cases h_moves with
  | stays => exact h_stays h_calling
  | checked h_early h_work h_phase =>
    rw [h_calling] at h_phase
    rcases h_phase with h | ⟨outcome, h⟩
    · contradiction
    · contradiction
  -- the call begins here, with an operation or without
  | begins h_event =>
    rcases h_event with ⟨rfl, -⟩ | ⟨rfl, h_prepared⟩
    · right
      rw [operations_next_some rfl, Operations.next, Operations.State.setPhase,
        Operations.State.phase_setCall_self]
    · left
      rw [operations_next_none rfl]
      exact (hC.early (by rw [h_prepared]; rfl)).1
  | runs => exact h_stays h_calling
  | sends =>
    rw [Request.send_eq] at h_calling
    exact h_stays h_calling
  | fails =>
    rw [Request.failBridge_eq] at h_calling
    exact h_stays h_calling
  | receives =>
    rw [Request.receive_eq] at h_calling
    exact h_stays h_calling
  | _ => contradiction

/-- Nothing happens in a queue to a request that is still checked. -/
theorem phase_nextQueues_of_early (hC : Coherent s r) (he : enabled s e)
    (h_early : (s.requests r).phase.isEarly = true) (tab : String) :
    ((next lib s e).queues tab).phase r = .outside := by
  have h_before := (hC.early h_early).2.2
  by_cases h_request : e.request? = some r
  case neg => exact (phase_nextQueues_of_ne h_request tab).trans (h_before tab)
  cases h_event : queueEvent s e with
  | none => exact (phase_nextQueues_of_none h_event tab).trans (h_before tab)
  | some p =>
    obtain ⟨d, q⟩ := p
    obtain ⟨h_eq, h_caller⟩ := caller_of_queueEvent h_event
    rw [h_request, Option.some_inj] at h_eq
    subst h_eq
    -- The request enters a queue only once it is being called.
    by_cases h_enter : q = .enter r
    · have h_calling := (takes_enter_of h_event h_enter he).1
      rw [h_calling] at h_early
      contradiction
    · exact absurd (h_before _) (entered_of_enabled (he.2.2 _ h_event) h_caller h_enter)

/-- A request leaves `RunTab` only when it is done with the queue of its tab. -/
theorem Stands.inside_next (hS : Stands s r) (hs : (machine lib leaseTTL).Reachable s)
    (he : enabled s e) (h_inside : ((next lib s e).queuePhase r).isInside = true) :
    ((next lib s e).requests r).phase = .calling := by
  have hC := coherent hs r
  have h_late : (s.requests r).phase.isEarly = false := by
    by_contra h_early
    rw [Bool.not_eq_false] at h_early
    rw [State.queuePhase, phase_nextQueues_of_early hC he h_early] at h_inside
    contradiction
  have h_phase : (s.requests r).phase ≠ .outside := by
    intro h_outside
    rw [h_outside] at h_late
    contradiction
  -- The call was in the queue before the step, or enters it at the step.
  have h_calling : (s.requests r).phase = .calling ∧
      (queueEvent s e = none → (s.queuePhase r).isInside = true) := by
    rcases queuePhase_next hs he h_phase with h_same | ⟨q, h_queue, h_moves⟩
    · rw [h_same] at h_inside
      exact ⟨hS.inside h_inside, fun _ => h_inside⟩
    · refine ⟨?_, fun h_none => by rw [h_none] at h_queue; contradiction⟩
      have h_before : ∀ phase, s.queuePhase r = phase → phase.isInside = true →
          (s.requests r).phase = .calling := by
        rintro phase rfl h
        exact hS.inside h
      generalize (next lib s e).queuePhase r = phase at h_moves h_inside
      cases h_moves with
      | stays => exact hS.inside h_inside
      | enters h_event => exact (takes_enter_of h_queue h_event he).1
      | waits h | fails h => exact hS.inside (isInside_of_isPending h)
      | runs h_event h => exact h_before _ h rfl
      | leaves h_event h => exact h_before _ h rfl
      | releases h => contradiction
  obtain ⟨h_calling, h_before⟩ := h_calling
  have h_moves := requestMoves lib hC he
  generalize (next lib s e).requests r = q at h_moves
  cases h_moves with
  | stays => exact h_calling
  | checked h_early =>
    rw [h_calling] at h_early
    contradiction
  | executes h_event h =>
    rw [h_calling] at h
    contradiction
  | begins => rfl
  | finishes h_event h =>
    rw [h_calling] at h
    contradiction
  -- `RunTab` returns only after the call has left the queue
  | returns h_event h h_outcome =>
    subst h_event
    have h_before := h_before rfl
    unfold State.runTabOutcome at h_outcome
    split at h_outcome
    case isTrue h_tab =>
      rw [State.queuePhase, h_tab, queues_unnamed hs] at h_before
      contradiction
    case isFalse =>
      split at h_outcome
      · next h_returned =>
        rw [h_returned] at h_before
        contradiction
      · contradiction
  | answers h_event h => exact absurd h_calling h
  | runs => exact h_calling
  | sends =>
    rw [Request.send_eq]
    exact h_calling
  | fails =>
    rw [Request.failBridge_eq]
    exact h_calling
  | receives =>
    rw [Request.receive_eq]
    exact h_calling

/-- The queue waits for a function that works. -/
theorem Stands.invoked_next (hS : Stands s r) (hs : (machine lib leaseTTL).Reachable s)
    (he : enabled s e) (h_busy : (s.requests r).work.isBusy = true) :
    (s.requests r).phase = .calling ∧
      ((s.requests r).tabID = "" ∨ (next lib s e).queuePhase r = .invoked) := by
  obtain ⟨h_calling, h_where⟩ := working_iff.mp (hS.busy h_busy)
  refine ⟨h_calling, h_where.imp_right fun h_invoked => ?_⟩
  -- the function is running, and only its end moves the call in the queue
  rcases queuePhase_next hs he (by rw [h_calling]; rintro ⟨⟩) with h_same | ⟨q, h_queue, h_moves⟩
  · exact h_same.trans h_invoked
  · have h_invoked : (s.queues (s.requests r).tabID).phase r = .invoked := h_invoked
    generalize (next lib s e).queuePhase r = phase at h_moves ⊢
    cases h_moves with
    | stays => exact h_invoked
    | enters h_event h =>
      have h := h.symm.trans h_invoked
      contradiction
    | waits h | fails h =>
      rw [h_invoked] at h
      contradiction
    | runs => rfl
    | leaves h_event =>
      subst h_event
      cases e with
      | leave d =>
        cases (caller_of_queueEvent h_queue).1
        obtain ⟨outcome, dispatched, h_done⟩ := takes_leave.mp he.1
        rw [h_done] at h_busy
        contradiction
      | _ => cases h_queue
    | releases h =>
      have h := h.symm.trans h_invoked
      contradiction

/-- So does one that works. -/
theorem Stands.busy_next (hS : Stands s r) (hs : (machine lib leaseTTL).Reachable s)
    (he : enabled s e) (h_busy : ((next lib s e).requests r).work.isBusy = true) :
    (next lib s e).working r = true := by
  have hC := coherent hs r
  rw [working_iff]
  have h_moves := requestMoves lib hC he
  generalize (next lib s e).requests r = q at h_moves h_busy
  cases h_moves with
  | stays => exact hS.invoked_next hs he h_busy
  | checked h_early h_work =>
    rw [h_work] at h_busy
    contradiction
  | executes h_event h =>
    have h_calling := (hS.invoked_next hs he h_busy).1
    rw [h] at h_calling
    contradiction
  -- a call without a tab runs its function at once
  | begins =>
    refine ⟨rfl, .inl ?_⟩
    by_contra h_tab
    have h_tab : (s.requests r).tabID ≠ "" := h_tab
    rw [Request.begin, if_neg h_tab] at h_busy
    contradiction
  | finishes h_event h =>
    have h_calling := (hS.invoked_next hs he h_busy).1
    rw [h] at h_calling
    contradiction
  | returns h_event h h_outcome =>
    -- `RunTab` has returned, so the function does not work any more.
    have h_busy : (s.requests r).work.isBusy = true := h_busy
    unfold State.runTabOutcome at h_outcome
    split at h_outcome
    case isTrue h_tab =>
      split at h_outcome
      · next h_done =>
        rw [h_done] at h_busy
        contradiction
      · contradiction
    case isFalse h_tab =>
      have h_invoked := ((working_iff.mp (hS.busy h_busy)).2).resolve_left h_tab
      rw [h_invoked] at h_outcome
      contradiction
  | answers h_event h => exact absurd (hS.invoked_next hs he h_busy).1 h
  -- a call with a tab begins its function when its turn has come
  | runs h_event =>
    subst h_event
    have h_activated : s.queuePhase r = .activated :=
      TabQueue.enabled_invoke.mp (he.2.2 (r, .invoke r) rfl)
    have h_calling := hS.inside (by rw [h_activated]; rfl)
    refine ⟨h_calling, .inr ?_⟩
    have h_self : (next lib s (.run r)).requests r =
        { s.requests r with work := (s.requests r).firstWork } := requests_next_self rfl
    rw [queuePhase_next_some rfl (by rw [h_self]; rfl), TabQueue.next,
      TabQueue.State.phase_setPhase]
  | sends h_event h_working h_ready =>
    rw [Request.send_eq]
    exact hS.invoked_next hs he (Bool.or_eq_true_iff.mpr (.inl h_ready))
  | fails h_event h_working h_before =>
    rw [Request.failBridge_eq]
    exact hS.invoked_next hs he h_before
  | receives h_event h_working h_waiting =>
    rw [Request.receive_eq]
    exact hS.invoked_next hs he (Bool.or_eq_true_iff.mpr (.inr h_waiting))

/-- So does one that is admitted. -/
theorem Stands.admitted_next (hS : Stands s r) (hC : Coherent s r) (he : enabled s e)
    (h_admitted : (next lib s e).operations.phase r = .admitted) :
    ((next lib s e).requests r).work = .idle := by
  -- the operation was admitted before, so the function has not begun
  have h_before : (s.requests r).phase ≠ .calling ∧ (s.requests r).work = .idle := by
    have h_moves := operationMoves lib r he
    rw [h_admitted] at h_moves
    generalize h_phase : Operations.Phase.admitted = phase at h_moves
    cases h_moves with
    | stays =>
      refine ⟨fun h_calling => ?_, hS.admitted h_phase.symm⟩
      have h_where := hS.calling h_calling
      rw [← h_phase] at h_where
      rcases h_where with h | h
      · contradiction
      · contradiction
    | looks h h_new =>
      have h_prepared := h_new h_phase.symm
      refine ⟨?_, (hC.early (by rw [h_prepared]; rfl)).2.1⟩
      rw [h_prepared]
      rintro ⟨⟩
    | _ => contradiction
  obtain ⟨h_phase, h_idle⟩ := h_before
  have h_moves := requestMoves lib hC he
  generalize (next lib s e).requests r = q at h_moves
  cases h_moves with
  | checked h_early h_work => exact h_work
  | begins h_event =>
    exfalso
    rcases h_event with ⟨rfl, -⟩ | ⟨rfl, h_prepared⟩
    · rw [operations_next_some rfl, Operations.next, Operations.State.setPhase,
        Operations.State.phase_setCall_self] at h_admitted
      contradiction
    · rw [operations_next_none rfl, (hC.early (by rw [h_prepared]; rfl)).1] at h_admitted
      contradiction
  | runs h_event =>
    subst h_event
    have h_activated : s.queuePhase r = .activated :=
      TabQueue.enabled_invoke.mp (he.2.2 (r, .invoke r) rfl)
    exact absurd (hS.inside (by rw [h_activated]; rfl)) h_phase
  | sends h_event h_working h_ready =>
    rw [h_idle] at h_ready
    contradiction
  | fails h_event h_working h_busy =>
    rw [h_idle] at h_busy
    contradiction
  | receives h_event h_working h_waiting =>
    rw [h_idle] at h_waiting
    contradiction
  | _ => exact h_idle

/-- Every request does, in every state. -/
theorem stands (hs : (machine lib leaseTTL).Reachable s) (r : κ) : Stands s r := by
  refine hs.induction (P := fun s => Stands s r) (Stands.init r) fun s e hs hS he => ?_
  exact ⟨hS.calling_next (coherent hs r) he, hS.inside_next hs he, hS.busy_next hs he,
    hS.admitted_next (coherent hs r) he⟩

/-! ### The outcomes of a request -/

/-- The request has failed with an error of one of the kinds. -/
def FailsAs (kinds : List String) (outcome : Outcome Json) : Prop :=
  ∃ rpcErr, outcome = .error rpcErr ∧ errorKind (some rpcErr) ∈ kinds

/-- The kinds of the errors of a bridge that does not answer. -/
def bridgeKinds : List String := ["TIMEOUT", "EXTENSION_DISCONNECTED", "CHROME_DISCONNECTED"]

/-- A failure of the bridge is one of these errors. -/
theorem failsAs_toError (failure : BridgeFailure) (method : String) :
    FailsAs bridgeKinds (.error (failure.toError method)) := by
  have h_details : ∀ id, (BridgeFailure.toError.details method id).get "kind" = none := by
    intro id
    simp [BridgeFailure.toError.details, Object.ofFields, Object.get_set]
  -- each failure of the bridge has its own kind
  cases failure with
  | unavailable id =>
    refine ⟨_, rfl, ?_⟩
    rw [BridgeFailure.toError, errorKind_newError]
    · simp [bridgeKinds]
    · cases id <;> simp [Object.ofFields, Object.get_set]
  | timeout message id =>
    refine ⟨_, rfl, ?_⟩
    rw [BridgeFailure.toError, errorKind_newError _ _ _ _ (h_details id)]
    simp [bridgeKinds]
  | disconnected message id =>
    refine ⟨_, rfl, ?_⟩
    rw [BridgeFailure.toError, errorKind_newError _ _ _ _ (h_details id)]
    simp [bridgeKinds]
  | broken message id =>
    refine ⟨_, rfl, ?_⟩
    rw [BridgeFailure.toError, errorKind_newError _ _ _ _ (h_details id)]
    simp [bridgeKinds]

/-- What `forward` reports is of the same kind. -/
theorem FailsAs.report {kinds : List String} {outcome : Outcome Json} (h_kinds : "" ∉ kinds)
    (h : FailsAs kinds outcome) (method : String) (params : Object) (dispatched : Bool) :
    FailsAs kinds (reportEffect method params dispatched outcome) := by
  obtain ⟨rpcErr, rfl, h_kind⟩ := h
  unfold reportEffect
  dsimp only
  split
  · refine ⟨_, rfl, ?_⟩
    have h_ne : errorKind (some rpcErr) ≠ "" := fun h_empty => h_kinds (h_empty ▸ h_kind)
    rw [errorKind_withEffect _ h_ne (by simp [Object.ofFields, Object.get_set])]
    exact h_kind
  · exact ⟨_, rfl, h_kind⟩

/-- All the outcomes that the request has at hand are failures of these kinds. -/
structure Yields (kinds : List String) (s : State κ) (r : κ) : Prop where
  done : ∀ outcome dispatched, (s.requests r).work = .done outcome dispatched →
    FailsAs kinds outcome
  queue : ∀ outcome, s.queuePhase r = .releasing outcome ∨ s.queuePhase r = .returned outcome →
    FailsAs kinds outcome
  called : ∀ outcome, (s.requests r).phase = .called outcome → FailsAs kinds outcome
  recorded : ∀ outcome, s.operations.phase r = .ended outcome ∨
    s.operations.phase r = .recorded outcome → FailsAs kinds outcome

/-- An outcome is handed on until it is recorded. -/
theorem Yields.step {kinds : List String} (h_kinds : "" ∉ kinds) (hY : Yields kinds s r)
    (hs : (machine lib leaseTTL).Reachable s) (he : enabled s e)
    (h_work : ∀ outcome dispatched,
      ((next lib s e).requests r).work = .done outcome dispatched →
      (s.requests r).work = .done outcome dispatched ∨ FailsAs kinds outcome)
    (h_queue : (s.queuePhase r).isPending = true → ∀ outcome : Outcome Json,
      TabQueue.IsCancelled outcome → FailsAs kinds outcome) : Yields kinds (next lib s e) r where
  done outcome dispatched h := (h_work outcome dispatched h).elim (hY.done outcome dispatched) id
  -- in the queue: the outcome of the function, or a cancellation
  queue outcome h := by
    by_cases h_outside : (s.requests r).phase = .outside
    · rw [State.queuePhase, phase_nextQueues_of_early (coherent hs r) he
        (by rw [h_outside]; rfl)] at h
      rcases h with h | h
      · contradiction
      · contradiction
    rcases queuePhase_next hs he h_outside with h_same | ⟨q, h_event, h_moves⟩
    · exact hY.queue outcome (h_same ▸ h)
    generalize (next lib s e).queuePhase r = phase at h h_moves
    cases h_moves with
    | stays => exact hY.queue outcome h
    | enters _ _ h_pending | waits _ h_pending =>
      rcases h with rfl | rfl
      · contradiction
      · contradiction
    | fails h_pending h_cancelled h_phase =>
      have h_same := h_queue h_pending _ h_cancelled
      rcases h_phase with rfl | rfl
      · rcases h with h | h
        · cases h
          exact h_same
        · contradiction
      · rcases h with h | h
        · contradiction
        · cases h
          exact h_same
    | runs =>
      rcases h with h | h
      · contradiction
      · contradiction
    | leaves h_finish =>
      subst h_finish
      rcases h with h | h
      case inr => contradiction
      cases h
      cases e with
      | leave d =>
        cases (caller_of_queueEvent h_event).1
        obtain ⟨outcome', dispatched, h_done⟩ := takes_leave.mp he.1
        rw [queueEvent, h_done] at h_event
        cases h_event
        exact hY.done _ dispatched h_done
      | _ => cases h_event
    | releases h_releasing =>
      rcases h with h | h
      · contradiction
      · cases h
        exact hY.queue _ (.inl h_releasing)
  -- what `RunTab` returns is what the queue or the function has given
  called outcome h := by
    have h_moves := requestMoves lib (coherent hs r) he
    generalize (next lib s e).requests r = q at h h_moves
    cases h_moves with
    | stays => exact hY.called outcome h
    | checked _ _ h_phase =>
      rw [h] at h_phase
      rcases h_phase with h | ⟨_, h⟩
      · contradiction
      · contradiction
    | @returns outcome' h_event h_calling h_outcome =>
      have h_same : FailsAs kinds outcome' := by
        unfold State.runTabOutcome at h_outcome
        split at h_outcome
        · split at h_outcome
          · next h_done =>
            cases h_outcome
            exact hY.done _ _ h_done
          · contradiction
        · split at h_outcome
          · next h_returned =>
            cases h_outcome
            exact hY.queue _ (.inr h_returned)
          · contradiction
      cases h
      exact h_same.report h_kinds _ _ _
    | runs => exact hY.called outcome h
    | sends =>
      rw [Request.send_eq] at h
      exact hY.called outcome h
    | fails =>
      rw [Request.failBridge_eq] at h
      exact hY.called outcome h
    | receives =>
      rw [Request.receive_eq] at h
      exact hY.called outcome h
    | _ => contradiction
  -- what is recorded is what the call has returned
  recorded outcome h := by
    have h_moves := operationMoves lib r he
    generalize (next lib s e).operations.phase r = phase at h h_moves
    cases h_moves with
    | stays => exact hY.recorded outcome h
    | looks _ _ h_before => exact (h.elim (h_before outcome).1 (h_before outcome).2).elim
    | invokes =>
      rcases h with h | h
      · contradiction
      · contradiction
    | ends _ h_called =>
      rcases h with h | h
      · cases h
        exact hY.called _ h_called
      · contradiction
    | records h_ended =>
      rcases h with h | h
      · contradiction
      · cases h
        exact hY.recorded _ (.inl h_ended)

/-! ### Before the function is called -/

/-- The step calls the function of the request. -/
def Calls (s : State κ) (r : κ) (e : Event κ) : Prop :=
  e = .run r ∨ e = .invoke r ∧ (s.requests r).tabID = ""

omit [DecidableEq κ] in
/-- The first work is to do something. -/
theorem isBusy_firstWork (q : Request) : q.firstWork.isBusy = true := by
  unfold Request.firstWork
  split <;> rfl

omit [DecidableEq κ] in
/-- With a tab, the work waits for the queue. -/
theorem begin_work (q : Request) :
    q.begin.work = if q.tabID = "" then q.firstWork else .idle := rfl

/-- A request that is sent is at work. -/
theorem isBusy_send (q : Request) (b : String) (h : q.work.isReady = true) :
    (q.send b).work.isBusy = true := by
  unfold Request.send
  cases h_work : q.work with
  | preflight | ready => rfl
  | _ =>
    rw [h_work] at h
    contradiction

/-- A request that fails at the bridge is done. -/
theorem failBridge_work (q : Request) (failure : BridgeFailure) (h : q.work.isBusy = true) :
    ∃ method dispatched,
      (q.failBridge failure).work = .done (.error (failure.toError method)) dispatched := by
  unfold Request.failBridge
  cases h_work : q.work with
  | preflight | preflighting | ready | sent => exact ⟨_, _, rfl⟩
  | _ =>
    rw [h_work] at h
    contradiction

/-- A request that the extension has received is not idle. -/
theorem receive_work_ne (q : Request) (h : q.work.isWaiting = true) : q.receive.work ≠ .idle := by
  have h_work : q.work ≠ .idle := by
    intro h_idle
    rw [h_idle] at h
    contradiction
  unfold Request.receive
  split
  · split
    · split
      · rintro ⟨⟩
      · split <;> rintro ⟨⟩
    · rintro ⟨⟩
    · exact h_work
  · exact h_work

/-- The work of an operation begins with the call of its function. -/
theorem idle_next_iff (hs : (machine lib leaseTTL).Reachable s) (he : enabled s e)
    (h_late : (s.requests r).phase.isEarly = false) :
    ((next lib s e).requests r).work = .idle ↔ (s.requests r).work = .idle ∧ ¬ Calls s r e := by
  have hC := coherent hs r
  have h_busy_ne : ∀ work : Work, work.isBusy = true → work ≠ .idle := by
    rintro work h rfl
    contradiction
  -- the function begins by two events only
  by_cases h_calls : Calls s r e
  · refine iff_of_false ?_ fun h => h.2 h_calls
    rcases h_calls with rfl | ⟨rfl, h_tab⟩
    · rw [requests_next_self rfl]
      exact h_busy_ne _ (isBusy_firstWork _)
    · rw [requests_next_self rfl, begin_work, if_pos h_tab]
      exact h_busy_ne _ (isBusy_firstWork _)
  · refine Iff.trans ?_ (and_iff_left h_calls).symm
    have h_moves := requestMoves lib hC he
    generalize (next lib s e).requests r = q at h_moves
    cases h_moves with
    | checked h_early =>
      rw [h_early] at h_late
      contradiction
    | begins h_event =>
      rcases h_event with ⟨rfl, -⟩ | ⟨rfl, h_prepared⟩
      · have h_tab : (s.requests r).tabID ≠ "" := fun h_tab => h_calls (.inr ⟨rfl, h_tab⟩)
        rw [begin_work, if_neg h_tab]
        exact iff_of_true rfl ((stands hs r).admitted (Operations.enabled_invoke.mp (he.2.1 _ rfl)))
      · rw [h_prepared] at h_late
        contradiction
    | runs h_event => exact absurd (.inl h_event) h_calls
    | sends _ _ h_ready =>
      refine iff_of_false (h_busy_ne _ (isBusy_send _ _ h_ready)) (h_busy_ne _ ?_)
      exact Bool.or_eq_true_iff.mpr (.inl h_ready)
    | fails _ _ h_busy =>
      refine iff_of_false ?_ (h_busy_ne _ h_busy)
      obtain ⟨method, dispatched, h_done⟩ := failBridge_work _ _ h_busy
      rw [h_done]
      rintro ⟨⟩
    | receives _ _ h_waiting =>
      refine iff_of_false (receive_work_ne _ h_waiting) (h_busy_ne _ ?_)
      exact Bool.or_eq_true_iff.mpr (.inr h_waiting)
    | _ => rfl

/-- Until the function of a request is called, the request fails as cancelled if at all: in the
queue of its tab. -/
theorem yields_of_idle (hs : (machine lib leaseTTL).Reachable s)
    (h_idle : (s.requests r).work = .idle) : Yields ["CANCELLED"] s r := by
  revert h_idle
  -- Along the run: as long as the request is idle, its own steps cannot finish it otherwise.
  refine hs.induction (P := fun s => (s.requests r).work = .idle → Yields ["CANCELLED"] s r) ?_ ?_
  · intro _
    exact ⟨fun _ _ h => by contradiction, fun _ h => by rcases h with h | h <;> contradiction,
      fun _ h => by contradiction, fun _ h => by rcases h with h | h <;> contradiction⟩
  · intro s e hs ih he h_idle
    have h_before : (s.requests r).work = .idle := by
      by_cases h_early : (s.requests r).phase.isEarly = true
      · exact ((coherent hs r).early h_early).2.1
      · exact ((idle_next_iff hs he (Bool.eq_false_of_not_eq_true h_early)).mp h_idle).1
    refine (ih h_before).step (by simp) hs he ?_ ?_
    · intro outcome dispatched h_done
      have h := h_idle.symm.trans h_done
      contradiction
    · rintro - outcome ⟨rpcErr, rfl, h_kind⟩
      exact ⟨rpcErr, rfl, List.mem_singleton.mpr h_kind⟩

/-! ### After the function is called -/

/-- The function of the request does not return with an answer of the extension. -/
def Unanswered (r : κ) (s : State κ) : Event κ → Prop
  | .receive d => d = r → (s.requests r).receive.work.isDone = false
  | _ => True

/-- As long as the function works there is no outcome. -/
theorem yields_of_busy (kinds : List String) (hs : (machine lib leaseTTL).Reachable s)
    (h_busy : (s.requests r).work.isBusy = true) : Yields kinds s r := by
  have hS := stands hs r
  obtain ⟨h_calling, h_where⟩ := working_iff.mp (hS.busy h_busy)
  -- the function runs, so the call has not left its queue
  have h_queue : ∀ outcome, ¬ (s.queuePhase r = .releasing outcome ∨
      s.queuePhase r = .returned outcome) := by
    intro outcome h
    have h_phase : s.queuePhase r = .outside ∨ s.queuePhase r = .invoked := by
      refine h_where.imp_left fun h_tab => ?_
      rw [State.queuePhase, h_tab]
      exact queues_unnamed hs r
    rcases h_phase with h_phase | h_phase <;> rw [h_phase] at h <;> rcases h with h | h <;>
      contradiction
  refine ⟨?_, fun outcome h => absurd h (h_queue outcome), ?_, ?_⟩
  · intro outcome dispatched h_done
    rw [h_done] at h_busy
    contradiction
  · intro outcome h_called
    have h := h_called.symm.trans h_calling
    contradiction
  · intro outcome h
    rcases hS.calling h_calling with h_phase | h_phase <;> rw [h_phase] at h <;>
      rcases h with h | h <;> contradiction

/-- Once the function of an operation is called, and as long as it gets no answer, the operation
fails with an error of the bridge if at all. -/
theorem Yields.called_step (hY : Yields bridgeKinds s r)
    (hs : (machine lib leaseTTL).Reachable s) (he : enabled s e)
    (h_unanswered : Unanswered r s e) (h_called : (s.requests r).work ≠ .idle) :
    Yields bridgeKinds (next lib s e) r := by
  refine hY.step (by simp [bridgeKinds]) hs he ?_ ?_
  -- the function ends with this event
  · intro outcome dispatched h_done
    have h_not : ∀ work : Work, work.isBusy = true → work ≠ .done outcome dispatched := by
      rintro work h rfl
      contradiction
    have h_moves := requestMoves lib (coherent hs r) he
    generalize (next lib s e).requests r = q at h_moves h_done
    cases h_moves with
    | checked _ h_work =>
      rw [h_work] at h_done
      contradiction
    | begins =>
      rw [begin_work] at h_done
      split at h_done
      · exact absurd h_done (h_not _ (isBusy_firstWork _))
      · contradiction
    | runs => exact absurd h_done (h_not _ (isBusy_firstWork _))
    | sends _ _ h_ready => exact absurd h_done (h_not _ (isBusy_send _ _ h_ready))
    | fails _ _ h_busy =>
      obtain ⟨method, dispatched', h_work⟩ := failBridge_work _ _ h_busy
      rw [h_work] at h_done
      cases h_done
      exact .inr (failsAs_toError _ _)
    | receives h_event =>
      subst h_event
      have h_open := h_unanswered rfl
      rw [h_done] at h_open
      contradiction
    | _ => exact .inl h_done
  -- a call that is pending in the queue has not begun its function
  · intro h_pending
    exfalso
    by_cases h_tab : (s.requests r).tabID = ""
    · rw [State.queuePhase, h_tab, queues_unnamed hs] at h_pending
      contradiction
    · have h_has := (coherent hs r).work h_called h_tab
      generalize s.queuePhase r = phase at h_pending h_has
      cases phase <;> contradiction

/-! ### From the cancellation to the record -/

/-- A step that calls the bridge leaves the request at work. -/
theorem isBusy_next_of_calls (h_calls : Calls s r e) :
    ((next lib s e).requests r).work.isBusy = true := by
  rcases h_calls with rfl | ⟨rfl, h_tab⟩
  · rw [requests_next_self rfl]
    exact isBusy_firstWork _
  · rw [requests_next_self rfl, begin_work, if_pos h_tab]
    exact isBusy_firstWork _

/-- In a run without an answer the function of an operation is not called, or fails with an error
of the bridge. -/
theorem idle_or_yields {es : List (Event κ)} (hs : (machine lib leaseTTL).Reachable s)
    (h_entered : s.operations.phase r ≠ .outside)
    (h_start : (s.requests r).work = .idle ∨ Yields bridgeKinds s r)
    (h_runs : ((machine lib leaseTTL).restrict (Unanswered r)).Runs s es) :
    (((machine lib leaseTTL).exec s es).requests r).work = .idle ∨
      Yields bridgeKinds ((machine lib leaseTTL).exec s es) r := by
  induction es generalizing s with
  | nil => exact h_start
  | cons e es ih =>
    obtain ⟨⟨he, h_unanswered⟩, h_runs⟩ := h_runs
    have hs' : (machine lib leaseTTL).Reachable (next lib s e) := hs.next he
    refine ih hs' (entered_next he h_entered) ?_ h_runs
    -- the function has not begun yet, or from here on it only fails
    by_cases h_next : ((next lib s e).requests r).work = .idle
    · exact .inl h_next
    · right
      by_cases h_idle : (s.requests r).work = .idle
      · have h_late := (coherent hs r).late_of_operation h_entered
        have h_calls : Calls s r e := by
          by_contra h_calls
          exact h_next ((idle_next_iff hs he h_late).mpr ⟨h_idle, h_calls⟩)
        exact yields_of_busy _ hs' (isBusy_next_of_calls h_calls)
      · exact (h_start.resolve_left h_idle).called_step hs he h_unanswered h_idle

/-- The function of the operation was not called, and is not called in the steps that follow. -/
structure StaysQueued (s : State κ) (es : List (Event κ)) (r : κ) : Prop where
  idle : (s.requests r).work = .idle
  run : .run r ∉ es
  /-- Without a tab there is no queue, and the callback calls the function at once. -/
  invoke : (s.requests r).tabID = "" → .invoke r ∉ es

/-- The request has not worked just where its call stayed in the queue. -/
theorem idle_iff_staysQueued {es : List (Event κ)} (hs : (machine lib leaseTTL).Reachable s)
    (h_entered : s.operations.phase r ≠ .outside) (h_runs : (machine lib leaseTTL).Runs s es) :
    (((machine lib leaseTTL).exec s es).requests r).work = .idle ↔ StaysQueued s es r := by
  induction es generalizing s with
  | nil =>
    constructor
    · intro h_idle
      exact ⟨h_idle, List.not_mem_nil, fun _ => List.not_mem_nil⟩
    · exact StaysQueued.idle
  -- the first step leaves the function idle, and the rest is by induction
  | cons e es ih =>
    obtain ⟨he, h_runs⟩ := h_runs
    have h_late := (coherent hs r).late_of_operation h_entered
    have h_tab : ((next lib s e).requests r).tabID = (s.requests r).tabID := by
      refine stringField_next (coherent hs r) he ?_ (by decide)
      intro h_outside
      rw [h_outside] at h_late
      contradiction
    refine (ih (hs.next he) (entered_next he h_entered) h_runs).trans ?_
    constructor
    · intro h
      obtain ⟨h_idle, h_calls⟩ := (idle_next_iff hs he h_late).mp h.idle
      refine ⟨h_idle, ?_, fun h_empty => ?_⟩
      · rw [List.mem_cons, not_or]
        exact ⟨fun h_run => h_calls (.inl h_run.symm), h.run⟩
      · rw [List.mem_cons, not_or]
        exact ⟨fun h_invoke => h_calls (.inr ⟨h_invoke.symm, h_empty⟩),
          h.invoke (h_tab.trans h_empty)⟩
    · intro h
      refine ⟨(idle_next_iff hs he h_late).mpr ⟨h.idle, ?_⟩, fun h_run => ?_,
        fun h_empty h_invoke => ?_⟩
      · rintro (rfl | ⟨rfl, h_empty⟩)
        · exact h.run List.mem_cons_self
        · exact h.invoke h_empty List.mem_cons_self
      · exact h.run (List.mem_cons_of_mem _ h_run)
      · exact h.invoke (h_tab.symm.trans h_empty) (List.mem_cons_of_mem _ h_invoke)

/-- The step is a critical section of the manager that cancels the context of an operation, whose
function has not returned yet. -/
structure Cuts (lib : Library) (s : State κ) (e : Event κ) (r : κ) : Prop where
  command : ∃ k now, operationEvent s e = some (.command k now)
  before : (s.manager.records r).cancelled = false
  after : ((next lib s e).manager.records r).cancelled = true
  unfinished : (s.requests r).work.isDone = false

/-- A command cancels contexts of operations that run only. -/
theorem Cuts.entered (h : Cuts lib s e r) (hs : (machine lib leaseTTL).Reachable s) :
    s.operations.phase r ≠ .outside := by
  obtain ⟨k, now, h_event⟩ := h.command
  have hI : Operations.Inv lib.hash s.operations :=
    Operations.Inv.reachable ((operationsProjection lib leaseTTL).reachable hs)
  have h_before := h.before
  have h_after := h.after
  rw [State.manager, operations_next_some h_event] at h_after
  -- the command has cancelled a record that was running
  have h_evolves := (k.frame s.manager now).evolves r
  change ((k.run s.manager now).manager.records r).cancelled = true at h_after
  generalize (k.run s.manager now).manager.records r = op at h_evolves h_after
  cases h_evolves with
  | same =>
    rw [h_before] at h_after
    contradiction
  | cancel h_running =>
    exact inside_of_hasRecord (Operations.Phase.hasRecord_of_active ((hI.running r).mp h_running))
  | finish =>
    rw [h_before] at h_after
    contradiction

/-- The operation is recorded as cancelled. -/
def CancelledRecord (s : State κ) (r : κ) : Prop :=
  (s.manager.records r).status = .cancelled ∧
    errorKind (s.manager.records r).err = "CANCELLED"

instance (s : State κ) (r : κ) : Decidable (CancelledRecord s r) :=
  inferInstanceAs (Decidable (_ ∧ _))

/-- A failure is recorded as cancelled if its error says so. -/
theorem cancelledRecord_iff {kinds : List String} (hs : (machine lib leaseTTL).Reachable s)
    (h_recorded : (s.operations.phase r).isRecorded = true) (hY : Yields kinds s r)
    (h_asks : "CONFIRMATION_REQUIRED" ∉ kinds) :
    ∃ kind ∈ kinds, CancelledRecord s r ↔ kind = "CANCELLED" := by
  have h_phase : ∃ outcome, s.operations.phase r = .recorded outcome := by
    generalize s.operations.phase r = phase at h_recorded
    cases phase with
    | recorded outcome => exact ⟨outcome, rfl⟩
    | _ => contradiction
  obtain ⟨outcome, h_phase⟩ := h_phase
  obtain ⟨rpcErr, rfl, h_kind⟩ := hY.recorded outcome (.inr h_phase)
  refine ⟨_, h_kind, ?_⟩
  -- the error is not the one that asks for a confirmation
  have h_not : errorKind (Operations.rpcError (.error rpcErr)) ≠ "CONFIRMATION_REQUIRED" :=
    fun h => h_asks (h ▸ h_kind)
  obtain ⟨h_status, h_err⟩ := Operations.records_of_recorded
    ((operationsProjection lib leaseTTL).reachable hs) h_phase h_not
  unfold CancelledRecord
  constructor
  · rintro ⟨-, h⟩
    exact (congrArg errorKind h_err).symm.trans h
  -- the kind decides the status of the record
  · intro h
    have h_cancelled : errorKind (Operations.rpcError (.error rpcErr)) = "CANCELLED" := h
    refine ⟨h_status.trans ?_, (congrArg errorKind h_err).trans h⟩
    rw [Operations.statusOf, if_neg h_not, if_pos h_cancelled]

/-- **Cancelled operations.** An operation whose context is cancelled before its function has
returned, and that is recorded without an answer of the extension, is recorded as cancelled if and
only if its function was not called when the context was cancelled, and was not called after
that: the request left the queue of its tab instead of taking its turn. -/
theorem recorded_cancelled_iff {es : List (Event κ)} (hs : (machine lib leaseTTL).Reachable s)
    (he : enabled s e) (h_cuts : Cuts lib s e r)
    (h_runs : ((machine lib leaseTTL).restrict (Unanswered r)).Runs (next lib s e) es)
    (h_recorded :
      (((machine lib leaseTTL).exec (next lib s e) es).operations.phase r).isRecorded = true) :
    CancelledRecord ((machine lib leaseTTL).exec (next lib s e) es) r ↔
      StaysQueued (next lib s e) es r := by
  have h_entered := h_cuts.entered hs
  have hs' : (machine lib leaseTTL).Reachable (next lib s e) := hs.next he
  have h_end := hs'.exec h_runs.of_restrict
  -- at the cut the function has not begun, or it yields one of the errors of the bridge
  have h_start : (s.requests r).work = .idle ∨ Yields bridgeKinds s r := by
    have h_unfinished := h_cuts.unfinished
    cases h_work : (s.requests r).work with
    | idle => exact .inl rfl
    | done outcome dispatched =>
      rw [h_work] at h_unfinished
      contradiction
    | _ =>
      right
      refine yields_of_busy _ hs ?_
      rw [h_work]
      rfl
  -- the cut is a command, which receives no answer
  have h_cut : Unanswered r s e := by
    obtain ⟨k, now, h_event⟩ := h_cuts.command
    cases e with
    | receive d => cases h_event
    | _ => trivial
  rw [← idle_iff_staysQueued hs' (entered_next he h_entered) h_runs.of_restrict]
  have h_runs' : ((machine lib leaseTTL).restrict (Unanswered r)).Runs s (e :: es) :=
    ⟨⟨he, h_cut⟩, h_runs⟩
  have h_outcome := idle_or_yields hs h_entered h_start h_runs'
  constructor
  -- an error of the bridge is not recorded as cancelled
  · intro h_cancelled
    refine h_outcome.resolve_right fun hY => ?_
    obtain ⟨kind, h_kind, h_iff⟩ := cancelledRecord_iff h_end h_recorded hY (by simp [bridgeKinds])
    rw [h_iff.mp h_cancelled] at h_kind
    simp [bridgeKinds] at h_kind
  -- a call that never runs its function is cancelled in the queue
  · intro h_idle
    obtain ⟨kind, h_kind, h_iff⟩ :=
      cancelledRecord_iff h_end h_recorded (yields_of_idle h_end h_idle) (by simp)
    exact h_iff.mpr (List.mem_singleton.mp h_kind)

omit [DecidableEq κ] in
/-- What is neither at work nor done is idle. -/
theorem Work.eq_idle {work : Work} (h_busy : work.isBusy = false) (h_done : work.isDone = false) :
    work = .idle := by
  cases work <;> first | rfl | contradiction

/-- The second request waits for its tab, and leaves the queue. -/
def leaving : List (Event (Fin 2)) :=
  [.callerDone 1 "context canceled", .quit 1, .finishCall 1, .finish 1, .record 1 3]

/-- The second operation is cancelled while it waits for its tab, and is recorded as cancelled. -/
theorem recorded_cancelled_iff_queued :
    CancelledRecord ((machine sampleLibrary 0).exec (next sampleLibrary
      ((machine sampleLibrary 0).exec (machine sampleLibrary 0).init queued)
      (.command (.cancelOperation "ses_1" "op_2") 2)) leaving) 1 := by
  have h : (machine sampleLibrary 0).Runs (machine sampleLibrary 0).init queued ∧
      let s := (machine sampleLibrary 0).exec (machine sampleLibrary 0).init queued
      let e : Event (Fin 2) := .command (.cancelOperation "ses_1" "op_2") 2
      let s' := next sampleLibrary s e
      enabled s e ∧ (s.manager.records 1).cancelled = false ∧
        (s'.manager.records 1).cancelled = true ∧ (s.requests 1).work.isDone = false ∧
        (machine sampleLibrary 0).Runs s' leaving ∧
        (((machine sampleLibrary 0).exec s' leaving).operations.phase 1).isRecorded = true ∧
        (s'.requests 1).work.isBusy = false ∧ (s'.requests 1).work.isDone = false := by
    decide +kernel
  obtain ⟨h_runs, he, h_before, h_after, h_unfinished, h_leaving, h_recorded, h_busy, h_done⟩ := h
  -- The request leaves without an answer of the bridge.
  have h_unanswered := h_leaving.restrict (C := Unanswered 1) (by simp [leaving, Unanswered])
  refine (recorded_cancelled_iff ⟨queued, h_runs, rfl⟩ he ⟨⟨_, _, rfl⟩, h_before, h_after,
    h_unfinished⟩ h_unanswered h_recorded).mpr ⟨Work.eq_idle h_busy h_done, ?_, fun _ => ?_⟩
  · simp [leaving]
  · simp [leaving]

/-- The first request is sent, and given up when its context is cancelled. -/
def givingUp : List (Event (Fin 2)) :=
  [.abandon 0 (.timeout "context canceled" "chrome_1"), .leave 0, .release 0, .finishCall 0,
    .finish 0, .record 0 3]

/-- The first operation is cancelled while the extension works for it, and is recorded as failed. -/
theorem not_cancelledRecord_failed :
    ¬ ∀ (s : State (Fin 2)) (e : Event (Fin 2)) (r : Fin 2) (es : List (Event (Fin 2))),
      (machine sampleLibrary 0).Reachable s → enabled s e → Cuts sampleLibrary s e r →
      ((machine sampleLibrary 0).restrict (Unanswered r)).Runs (next sampleLibrary s e) es →
      (((machine sampleLibrary 0).exec (next sampleLibrary s e) es).operations.phase
        r).isRecorded = true →
      CancelledRecord ((machine sampleLibrary 0).exec (next sampleLibrary s e) es) r := by
  intro h
  have h_run : (machine sampleLibrary 0).Runs (machine sampleLibrary 0).init queued ∧
      let s := (machine sampleLibrary 0).exec (machine sampleLibrary 0).init queued
      let e : Event (Fin 2) := .command (.cancelOperation "ses_1" "op_1") 2
      let s' := next sampleLibrary s e
      enabled s e ∧ (s.manager.records 0).cancelled = false ∧
        (s'.manager.records 0).cancelled = true ∧ (s.requests 0).work.isDone = false ∧
        (machine sampleLibrary 0).Runs s' givingUp ∧
        (((machine sampleLibrary 0).exec s' givingUp).operations.phase 0).isRecorded = true ∧
        ¬ CancelledRecord ((machine sampleLibrary 0).exec s' givingUp) 0 := by
    decide +kernel
  obtain ⟨h_runs, he, h_before, h_after, h_unfinished, h_givingUp, h_recorded, h_not⟩ := h_run
  have h_unanswered := h_givingUp.restrict (C := Unanswered 0) (by simp [givingUp, Unanswered])
  exact h_not (h _ _ 0 givingUp ⟨queued, h_runs, rfl⟩ he ⟨⟨_, _, rfl⟩, h_before, h_after,
    h_unfinished⟩ h_unanswered h_recorded)

end BrowserControl.Server
