import BrowserControl.Server.Coherence

/-!
# Requests that are past their checks

`forward` checks the lease of a request when it renews it, and never again. From then on a
request is stopped in two ways only: `ExecuteOperation` refuses it if its session is closed, and
the queue of its tab fails it if it is cancelled while the request waits there, or between that
and the start of its function. Whatever else cancels a request cancels a context, and nobody
looks at the context before the message is written.

`State.exposed` lists the places where neither of the two can stop a request any more, or would
not: whoever is there when its session is closed or its queue is cancelled may still be sent.
`exposed_next` says that the list is complete: a request that is not exposed to a step is not
exposed after it (`State.free`), and stays so (`free_next`). A request that is not exposed does
not start a call of the bridge (`not_starts`).
-/

namespace BrowserControl.Server

open Encoding Protocol BrowserControl.Core Transition

variable {κ : Type*} [DecidableEq κ] {lib : Library} {leaseTTL : Duration}

/-! ### The places -/

/-- The queue lets the call come to its function; `cancelled` says whether the queue is
cancelled now. -/
def admits (s : TabQueue.State κ Json) (c : κ) (cancelled : Bool) : Bool :=
  match s.phase c with
  | .outside => true
  | .waiting => (s.waiter c).generation = s.generation && !cancelled
  | .starting => (s.waiter c).generation = s.generation && !cancelled
  | .activated => true
  | .invoked => true
  | _ => false

/-- The function may still send a message. -/
def Request.unsent (q : Request) : Bool :=
  match q.work with
  | .idle => true
  | .preflight => true
  | .preflighting _ =>
    match q.handler with
    | .settled (.error _) => false
    | .settled (.ok answer) => (preflightObject answer).isSome
    | _ => true
  | .ready _ => true
  | .sent => false
  | .done _ _ => false

/-- Nothing stops the request, where `closed` says whether its session is closed, `operation`
where its call of `ExecuteOperation` stands and `admitted` whether the queue of its tab lets it
come to its function. -/
def Request.exposed (lib : Library) (q : Request) (operation : Operations.Phase κ)
    (admitted closed : Bool) : Bool :=
  match q.phase with
  | .renewed =>
    (checkForwarded q.method q.params (q.hasEpoch lib)).isNone && (q.operationID = "" || !closed)
  | .prepared => q.operationID = "" || !closed
  | .executing => (operation matches .admitted)
  | .calling => q.unsent && (q.tabID = "" || admitted)
  | _ => false

/-- Nothing will stop the request. -/
def State.free (lib : Library) (s : State κ) (r : κ) : Bool :=
  (s.requests r).exposed lib (s.operations.phase r)
    (admits (s.queues (s.requests r).tabID) r false) (s.manager.closed (s.requests r).sessionID)

/-- A step does not stop the request. -/
def State.exposed (lib : Library) (s : State κ) (e : Event κ) (r : κ) : Bool :=
  (s.requests r).exposed lib (s.operations.phase r)
    (admits (s.queues (s.requests r).tabID) r (cancelledQueues s e (s.requests r).tabID).isSome)
    ((next lib s e).manager.closed (s.requests r).sessionID)

section Places

omit [DecidableEq κ]

variable {q : Request} {operation : Operations.Phase κ} {admitted closed : Bool}

/-- After the renewal come the checks of the parameters and of the session. -/
theorem exposed_renewed (h : q.phase = .renewed) : q.exposed lib operation admitted closed =
    ((checkForwarded q.method q.params (q.hasEpoch lib)).isNone &&
      (q.operationID = "" || !closed)) := by
  unfold Request.exposed
  rw [h]

/-- `ExecuteOperation` looks at the session, and a call without an operation does not. -/
theorem exposed_prepared (h : q.phase = .prepared) :
    q.exposed lib operation admitted closed = (q.operationID = "" || !closed) := by
  unfold Request.exposed
  rw [h]

/-- An operation that is admitted is run. -/
theorem exposed_executing (h : q.phase = .executing) :
    q.exposed lib operation admitted closed = (operation matches .admitted) := by
  unfold Request.exposed
  rw [h]

/-- A function that has not sent anything yet is stopped by the queue of its tab only. -/
theorem exposed_calling (h : q.phase = .calling) :
    q.exposed lib operation admitted closed = (q.unsent && (q.tabID = "" || admitted)) := by
  unfold Request.exposed
  rw [h]

end Places

omit [DecidableEq κ] in
/-- A request that is as far as another one, and of which no more is to be sent, is exposed at
most where the other one is. -/
theorem exposed_mono {q q' : Request} {operation operation' : Operations.Phase κ}
    {admitted admitted' closed closed' : Bool} (h_phase : q'.phase = q.phase)
    (h_method : q'.method = q.method) (h_params : q'.params = q.params)
    (h_unsent : q'.unsent = true → q.unsent = true)
    (h_operation : (operation' matches .admitted) = true → (operation matches .admitted) = true)
    (h_admitted : admitted' = true → admitted = true) (h_closed : closed = true → closed' = true)
    (h : q.exposed lib operation admitted closed = false) :
    q'.exposed lib operation' admitted' closed' = false := by
  have h_operationID : q'.operationID = q.operationID := by
    rw [Request.operationID, h_params, Request.operationID]
  have h_tabID : q'.tabID = q.tabID := by rw [Request.tabID, h_params, Request.tabID]
  have h_epoch : q'.hasEpoch lib = q.hasEpoch lib := by
    rw [Request.hasEpoch, h_params, Request.hasEpoch]
  have h_open : (!closed') = true → (!closed) = true := by
    rw [Bool.not_eq_true', Bool.not_eq_true', ← Bool.not_eq_true, ← Bool.not_eq_true]
    exact mt h_closed
  rw [← Bool.not_eq_true] at h ⊢
  refine fun h' => h ?_
  -- at each place the request that is further has no more ways to go on
  cases h_at : q.phase with
  | renewed =>
    rw [exposed_renewed (h_phase.trans h_at), h_method, h_params, h_operationID, h_epoch] at h'
    rw [exposed_renewed h_at]
    rw [Bool.and_eq_true, Bool.or_eq_true] at h' ⊢
    exact ⟨h'.1, h'.2.imp_right h_open⟩
  | prepared =>
    rw [exposed_prepared (h_phase.trans h_at), h_operationID, Bool.or_eq_true] at h'
    rw [exposed_prepared h_at, Bool.or_eq_true]
    exact h'.imp_right h_open
  | executing =>
    rw [exposed_executing (h_phase.trans h_at)] at h'
    rw [exposed_executing h_at]
    exact h_operation h'
  | calling =>
    rw [exposed_calling (h_phase.trans h_at), h_tabID] at h'
    rw [exposed_calling h_at]
    rw [Bool.and_eq_true, Bool.or_eq_true] at h' ⊢
    exact ⟨h_unsent h'.1, h'.2.imp_right h_admitted⟩
  | _ =>
    unfold Request.exposed at h'
    rw [h_phase, h_at] at h'
    contradiction

omit [DecidableEq κ] in
/-- A session that is closed is not open. -/
theorem not_sessionOpen {m : Manager κ} {sessionID : String} (h : m.closed sessionID = true) :
    ¬ Operations.SessionOpen m sessionID := by
  rintro ⟨session, h_session, h_open⟩
  obtain ⟨session', h_session', h_closed⟩ := Manager.closed_iff.mp h
  rw [h_session, Option.some_inj] at h_session'
  rw [h_session', h_closed] at h_open
  contradiction

/-- The checks do not look at what `forward` rewrites. -/
theorem checkForwarded_rewrites {params params' : Object} (h : Rewrites params params')
    (method : String) (hasEpoch : Bool) :
    checkForwarded method params' hasEpoch = checkForwarded method params hasEpoch := by
  unfold checkForwarded
  rw [h.stringField (by decide), h _ (by decide), h _ (by decide)]

/-! ### The queue -/

section Queue

variable {s : TabQueue.State κ Json} {q : TabQueue.Event κ Json} {c : κ}

omit [DecidableEq κ] in
/-- Who has not entered may enter, and whose function is called is past the queue. -/
theorem admits_of_phase {cancelled : Bool} (h : s.phase c = .outside ∨ s.phase c = .activated ∨
    s.phase c = .invoked) : admits s c cancelled = true := by
  unfold admits
  rcases h with h | h | h <;> rw [h]

omit [DecidableEq κ] in
/-- Who waits comes to its function while the queue has not been cancelled since it entered. -/
theorem admits_queueing (h : s.phase c = .waiting ∨ s.phase c = .starting) (cancelled : Bool) :
    admits s c cancelled = true ↔
      (s.waiter c).generation = s.generation ∧ cancelled = false := by
  unfold admits
  rcases h with h | h <;> rw [h] <;> simp

/-- A call that its queue will not let come to its function is not let so later. -/
theorem admits_next (hI : TabQueue.Inv s) (he : TabQueue.enabled s q)
    (h : admits (TabQueue.next s q) c false = true) :
    admits s c (q matches .cancelAll _) = true := by
  by_cases h_outside : s.phase c = .outside
  · exact admits_of_phase (.inl h_outside)
  obtain ⟨h_same, h_le⟩ := TabQueue.generation_next s he h_outside
  have h_generation : (s.waiter c).generation ≤ s.generation := (hI.ok c).generation h_outside
  -- a call that is queueing afterwards has the generation of the queue now, so it had it before
  have h_current : (TabQueue.next s q).phase c = .waiting ∨
      (TabQueue.next s q).phase c = .starting → (s.waiter c).generation = s.generation := by
    intro h_phase
    rw [admits_queueing h_phase, h_same] at h
    exact le_antisymm h_generation (h.1 ▸ h_le)
  have h_not : ∀ outcome, (TabQueue.next s q).phase c ≠ .releasing outcome ∧
      (TabQueue.next s q).phase c ≠ .returned outcome := by
    refine fun outcome => ⟨fun h_phase => ?_, fun h_phase => ?_⟩ <;>
      · unfold admits at h
        rw [h_phase] at h
        exact Bool.false_ne_true h
  by_cases h_caller : q.caller = some c
  case neg =>
    -- The call itself stays where it is.
    have h_phase := TabQueue.phase_next_of_ne s h_caller
    by_cases h_queueing : s.phase c = .waiting ∨ s.phase c = .starting
    · rw [admits_queueing h_queueing]
      rw [admits_queueing (h_phase ▸ h_queueing), h_same] at h
      refine ⟨h_current (h_phase ▸ h_queueing), ?_⟩
      cases q with
      | cancelAll reason =>
        have h_later : s.generation < (TabQueue.next s (.cancelAll reason)).generation :=
          Nat.lt_succ_self _
        omega
      | _ => rfl
    · unfold admits at h ⊢
      rw [h_phase] at h
      cases h_at : s.phase c with
      | waiting => exact absurd (.inl h_at) h_queueing
      | starting => exact absurd (.inr h_at) h_queueing
      | outside | activated | invoked => rfl
      | ctxDone | releasing | returned =>
        rw [h_at] at h
        exact h
  -- the call moves: where it may still wait afterwards, it waited with the generation of the queue
  cases q with
  | enter d =>
    cases h_caller
    exact absurd (TabQueue.enabled_enter.mp he) h_outside
  | callerDone d message =>
    cases h_caller
    unfold admits at h
    rw [TabQueue.next, TabQueue.State.phase_setPhase] at h
    exact absurd h Bool.false_ne_true
  | takeReady d =>
    cases h_caller
    have h_waiting := (TabQueue.enabled_takeReady.mp he).1
    rw [admits_queueing (.inl h_waiting)]
    refine ⟨h_current ?_, rfl⟩
    right
    simp only [TabQueue.next, TabQueue.State.takeReady] at h_not ⊢
    split
    case h_1 rpcErr h_err =>
      rw [h_err] at h_not
      exact absurd (TabQueue.State.phase_setPhase ..) (h_not (.error rpcErr)).2
    case h_2 => exact TabQueue.State.phase_setPhase ..
  | quit d =>
    cases h_caller
    obtain ⟨message, h_phase⟩ := TabQueue.enabled_quit.mp he
    simp only [TabQueue.next, h_phase, TabQueue.State.quit] at h_not
    split at h_not
    · exact absurd (TabQueue.State.phase_setPhase ..) (h_not _).1
    · exact absurd (TabQueue.State.phase_setPhase ..) (h_not _).2
  | start d =>
    cases h_caller
    have h_starting := TabQueue.enabled_start.mp he
    rw [admits_queueing (.inr h_starting)]
    refine ⟨?_, rfl⟩
    by_contra h_other
    simp only [TabQueue.next, TabQueue.State.start, if_neg h_other] at h_not
    refine (h_not (.error TabQueue.State.revokedBeforeRun)).1 ?_
    show (Function.update s.calls c _ c).phase = _
    rw [Function.update_self]
  | invoke d =>
    cases h_caller
    exact admits_of_phase (.inr (.inl (TabQueue.enabled_invoke.mp he)))
  | finish d outcome =>
    cases h_caller
    exact admits_of_phase (.inr (.inr (TabQueue.enabled_finish.mp he)))
  | release d =>
    cases h_caller
    obtain ⟨outcome, h_phase⟩ := TabQueue.enabled_release.mp he
    refine absurd ?_ (h_not outcome).2
    simp only [TabQueue.next, h_phase]
    rw [TabQueue.State.phase_release, TabQueue.State.phase_setPhase]
  | cancelAll reason => contradiction

end Queue

/-! ### Steps -/

section Steps

variable {s : State κ} {e : Event κ} {r : κ}

/-- Nobody queues for a tab without a name. -/
theorem queues_unnamed (hs : (machine lib leaseTTL).Reachable s) (c : κ) :
    (s.queues "").phase c = .outside := by
  refine hs.induction (P := fun s => (s.queues "").phase c = .outside) rfl ?_
  intro s e hs h_outside he
  show (nextQueues s e "").phase c = .outside
  -- others do not move the call
  by_cases h_request : e.request? = some c
  case neg => exact (phase_nextQueues_of_ne h_request "").trans h_outside
  cases h_event : queueEvent s e with
  | none => exact (phase_nextQueues_of_none h_event "").trans h_outside
  | some p =>
    obtain ⟨d, q⟩ := p
    obtain ⟨h_eq, h_caller⟩ := caller_of_queueEvent h_event
    rw [h_request, Option.some_inj] at h_eq
    subst h_eq
    unfold nextQueues
    rw [h_event]
    dsimp only
    split
    case isFalse => exact h_outside
    case isTrue h_tab =>
      -- Only a request with a tab enters, and the others are inside already.
      have h_enabled := he.2.2 _ h_event
      rw [h_tab] at h_enabled
      by_cases h_enter : q = .enter c
      · subst h_enter
        cases e with
        | enter d =>
          cases h_event
          exact absurd h_tab (takes_enter.mp he.1).2
        | leave d =>
          rw [queueEvent] at h_event
          split at h_event <;> cases h_event
        | _ => cases h_event
      · exact absurd h_outside (entered_of_enabled h_enabled h_caller h_enter)

omit [DecidableEq κ] in
/-- An event that moves a queue leaves the manager alone. -/
theorem operationEvent_of_queueEvent {p : κ × TabQueue.Event κ Json}
    (h : queueEvent s e = some p) : operationEvent s e = none := by
  cases e <;> first | rfl | contradiction

/-- What an event does to a queue stops nobody later whom it does not stop now. -/
theorem admits_nextQueues (hs : (machine lib leaseTTL).Reachable s) (he : enabled s e)
    (tab : String) (h : admits (nextQueues s e tab) r false = true) :
    admits (s.queues tab) r (cancelledQueues s e tab).isSome = true := by
  have hI := TabQueue.Inv.reachable ((queueProjection lib leaseTTL tab).reachable hs)
  unfold nextQueues at h
  cases h_event : queueEvent s e with
  -- a step of a call of this queue, which is not cancelled by it
  | some p =>
    obtain ⟨d, q⟩ := p
    have h_none : cancelledQueues s e tab = none := by
      rw [cancelledQueues, operationEvent_of_queueEvent h_event]
    rw [h_none]
    rw [h_event] at h
    dsimp only at h
    split at h
    case isTrue h_tab =>
      have h_enabled := he.2.2 _ h_event
      rw [h_tab] at h_enabled
      have h_admits := admits_next hI h_enabled h
      cases q with
      | cancelAll reason => cases (caller_of_queueEvent h_event).2
      | _ => exact h_admits
    case isFalse => exact h
  -- no step of a call: the queue is cancelled, or left alone
  | none =>
    rw [h_event] at h
    dsimp only at h
    cases h_cancelled : cancelledQueues s e tab with
    | none =>
      rw [h_cancelled] at h
      exact h
    | some reason =>
      rw [h_cancelled] at h
      have h_enabled : TabQueue.enabled (s.queues tab) (.cancelAll reason) := trivial
      exact admits_next hI h_enabled h

/-- The request is where the steps of the manager or the queue can stop it. -/
def Phase.isPassing : Phase → Bool
  | .renewed => true
  | .prepared => true
  | .executing => true
  | .calling => true
  | _ => false

omit [DecidableEq κ] in
/-- A request that is still checked, or has its answer, is not sent. -/
theorem free_of_phase (h : (s.requests r).phase.isPassing = false) : s.free lib r = false := by
  unfold State.free Request.exposed
  cases h_phase : (s.requests r).phase with
  | renewed | prepared | executing | calling =>
    rw [h_phase] at h
    contradiction
  | _ => rfl

/-- A step that leaves the request where it is. -/
theorem free_of_kept (hs : (machine lib leaseTTL).Reachable s) (he : enabled s e) {q : Request}
    (h_request : (next lib s e).requests r = q) (h_phase : q.phase = (s.requests r).phase)
    (h_method : q.method = (s.requests r).method) (h_params : q.params = (s.requests r).params)
    (h_unsent : q.unsent = true → (s.requests r).unsent = true)
    (h_operation : ((next lib s e).operations.phase r matches .admitted) = true →
      (s.operations.phase r matches .admitted) = true)
    (h : s.exposed lib e r = false) : (next lib s e).free lib r = false := by
  have h_tabID : q.tabID = (s.requests r).tabID := by
    rw [Request.tabID, h_params, Request.tabID]
  have h_sessionID : q.sessionID = (s.requests r).sessionID := by
    rw [Request.sessionID, h_params, Request.sessionID]
  unfold State.free
  rw [h_request, h_tabID, h_sessionID]
  exact exposed_mono h_phase h_method h_params h_unsent h_operation
    (admits_nextQueues hs he _) id h

/-- A check leads to the next phase or to an error. -/
theorem free_of_pass {phase : Phase} {rpcErr : Option RPCError}
    (h_request : requestEvent lib s e = some (r, (s.requests r).pass phase rpcErr))
    (h_phase : phase.isPassing = false) : (next lib s e).free lib r = false := by
  apply free_of_phase
  rw [requests_next_self h_request]
  cases rpcErr with
  | none => exact h_phase
  | some rpcErr => rfl

/-- A step of the queue of a request. -/
theorem free_of_queue (hs : (machine lib leaseTTL).Reachable s) (he : enabled s e)
    {p : κ × TabQueue.Event κ Json} (h_queue : queueEvent s e = some p)
    (h_request : requestEvent lib s e = none) (h : s.exposed lib e r = false) :
    (next lib s e).free lib r = false := by
  refine free_of_kept hs he (requests_next_none h_request) rfl rfl rfl id ?_ h
  rw [operations_next_none (operationEvent_of_queueEvent h_queue)]
  exact id

/-- A step of the operation of a request, by which it is not admitted. -/
theorem free_of_operation (hs : (machine lib leaseTTL).Reachable s) (he : enabled s e)
    (h_request : requestEvent lib s e = none)
    (h_phase : ((next lib s e).operations.phase r matches .admitted) = false)
    (h : s.exposed lib e r = false) : (next lib s e).free lib r = false := by
  refine free_of_kept hs he (requests_next_none h_request) rfl rfl rfl id ?_ h
  rw [h_phase]
  exact fun h => absurd h Bool.false_ne_true

/-- A step of the function that `RunTab` runs. -/
theorem free_of_work (hs : (machine lib leaseTTL).Reachable s) (he : enabled s e) {work : Work}
    {handler : Handler}
    (h_request : requestEvent lib s e = some (r, { s.requests r with work, handler }))
    (h_operation : operationEvent s e = none)
    (h_unsent : ({ s.requests r with work, handler } : Request).unsent = true →
      (s.requests r).unsent = true)
    (h : s.exposed lib e r = false) : (next lib s e).free lib r = false := by
  refine free_of_kept hs he (requests_next_self h_request) rfl rfl rfl h_unsent ?_ h
  rw [operations_next_none h_operation]
  exact id

end Steps

namespace Request

variable {q : Request}

/-- A function that is ready has not sent its message. -/
theorem unsent_of_isReady (h : q.work.isReady = true) : q.unsent = true := by
  unfold unsent
  cases h_work : q.work with
  | idle | preflight | ready => rfl
  | preflighting | sent | done =>
    rw [h_work] at h
    contradiction

/-- A function whose call has failed sends nothing more. -/
theorem unsent_failBridge (h : q.work.isWaiting = true) (failure : BridgeFailure) :
    (q.failBridge failure).unsent = false := by
  unfold failBridge
  cases h_work : q.work with
  | preflight | preflighting | ready | sent => rfl
  | idle | done =>
    rw [h_work] at h
    contradiction

/-- An answer to the preflight lets the request be sent only if it is an object. -/
theorem unsent_receive (h_waiting : q.work.isWaiting = true) (h : q.receive.unsent = true) :
    q.unsent = true := by
  unfold receive at h
  cases h_handler : q.handler with
  -- the answer of the handler is there: what follows depends on the call that was made
  | settled outcome =>
    rw [h_handler] at h
    cases h_work : q.work with
    | preflighting params =>
      rw [h_work] at h
      unfold unsent
      rw [h_work, h_handler]
      cases outcome with
      | error rpcErr => contradiction
      | ok answer =>
        dsimp only at h ⊢
        cases h_object : preflightObject answer with
        | none =>
          rw [h_object] at h
          contradiction
        | some preflight => rfl
    | sent =>
      rw [h_work] at h
      contradiction
    | _ =>
      rw [h_work] at h_waiting
      contradiction
  | _ =>
    rw [h_handler] at h
    exact h

/-- A handler that runs may still let the request be sent. -/
theorem unsent_settle {method : String} {params : Object} {outcome : Outcome Json}
    (h_handler : q.handler = .running method params)
    (h : ({ q with handler := .settled outcome } : Request).unsent = true) :
    q.unsent = true := by
  unfold unsent at h ⊢
  cases h_work : q.work with
  | preflighting params => rw [h_handler]
  | idle | preflight | ready => rfl
  | sent | done =>
    rw [h_work] at h
    exact h

end Request

section Steps

variable {s : State κ} {e : Event κ} {r : κ}

/-- The checks after the lease leave a request exposed that was exposed before. -/
theorem free_of_prepare {files : Except RPCError (List String)}
    (he : enabled s (.prepare r files))
    (h_permitted : (s.requests r).phase = .permitted → requiresLease (s.requests r).method = true)
    (h : s.exposed lib (.prepare r files) r = false) :
    (next lib s (.prepare r files)).free lib r = false := by
  have h_renewed : (s.requests r).phase = .renewed := by
    rcases takes_prepare.mp he.1 with h_phase | ⟨h_phase, h_lease⟩
    · exact h_phase
    · exact absurd (h_permitted h_phase) h_lease
  have h_request : requestEvent lib s (.prepare r files) =
      some (r, (s.requests r).prepare lib files) := rfl
  unfold Request.prepare at h_request
  split at h_request
  -- the files are refused
  case h_1 rpcErr h_uploads =>
    apply free_of_phase
    rw [requests_next_self h_request]
    rfl
  case h_2 params h_uploads =>
    have h_rewrites := rewrites_uploads h_uploads
    rcases Request.pass_cases { s.requests r with params } .prepared
      (checkForwarded (s.requests r).method params ((s.requests r).hasEpoch lib))
      with ⟨h_pass, h_none⟩ | ⟨rpcErr, h_fail⟩
    · rw [checkForwarded_rewrites h_rewrites] at h_none
      rw [State.exposed, exposed_renewed h_renewed, h_none, Option.isNone_none,
        Bool.true_and] at h
      rw [h_pass] at h_request
      rw [State.free, requests_next_self h_request, exposed_prepared rfl, Request.setPhase,
        Request.operationID, Request.sessionID, h_rewrites.stringField (by decide),
        h_rewrites.stringField (by decide)]
      exact h
    · rw [h_fail] at h_request
      apply free_of_phase
      rw [requests_next_self h_request]
      rfl

/-- The record of a request whose session is closed is not registered. -/
theorem free_of_execute {now : Time} (he : enabled s (.execute r now))
    (h : s.exposed lib (.execute r now) r = false) :
    (next lib s (.execute r now)).free lib r = false := by
  obtain ⟨h_prepared, h_id⟩ := takes_execute.mp he.1
  rw [State.exposed, exposed_prepared h_prepared, Bool.or_eq_false_iff, Bool.not_eq_false'] at h
  have h_self : (next lib s (.execute r now)).requests r = (s.requests r).setPhase .executing :=
    requests_next_self rfl
  have h_executing : ((s.requests r).setPhase .executing).phase = .executing := rfl
  rw [State.free, h_self, exposed_executing h_executing]
  have h_closed : (next lib s (.execute r now)).operations.manager.closed
      (s.requests r).sessionID = true := h.2
  rw [operations_next_some rfl] at h_closed ⊢
  have h_execute := Operations.executes lib.hash s.operations r now ((s.requests r).call κ)
  revert h_closed
  show (s.operations.execute lib.hash r now ((s.requests r).call κ)).manager.closed _ = true →
    ((s.operations.execute lib.hash r now ((s.requests r).call κ)).phase r matches .admitted) =
      false
  generalize s.operations.execute lib.hash r now ((s.requests r).call κ) = s' at h_execute ⊢
  intro h_closed
  -- an operation is admitted only in an open session
  cases h_execute with
  | admitted h_id h_open => exact absurd h_open (not_sessionOpen h_closed)
  | _ => rw [Operations.State.phase_setCall_self]

/-- The lease of the request is not renewed: `forward` answers with an error. -/
theorem free_of_renewLease {now : Time} (h_renew : ∀ l, (s.manager.renewLease now
      (s.requests r).sessionID (s.requests r).tabID (s.requests r).leaseID 0).result ≠ .ok l) :
    (next lib s (.renewLease r now)).free lib r = false := by
  apply free_of_phase
  rw [requests_next_self rfl]
  cases h_result : (s.manager.renewLease now (s.requests r).sessionID (s.requests r).tabID
      (s.requests r).leaseID 0).result with
  | error rpcErr => rfl
  | ok l => exact absurd h_result (h_renew l)

/-- What `ExecuteOperation` returns is not admitted any more. -/
theorem free_of_finish {outcome : Outcome Json} (h_phase : (s.requests r).phase = .called outcome) :
    (next lib s (.finish r)).free lib r = false := by
  have h_event : operationEvent s (.finish r) = some (.finish r outcome) := by
    rw [operationEvent, h_phase]
  have h_self : (next lib s (.finish r)).requests r = (s.requests r).setPhase .executing :=
    requests_next_self rfl
  have h_executing : ((s.requests r).setPhase .executing).phase = .executing := rfl
  rw [State.free, h_self, operations_next_some h_event, exposed_executing h_executing,
    Operations.next, Operations.State.finish, Operations.State.setPhase,
    Operations.State.phase_setCall_self]

/-- An admitted request is exposed. -/
theorem exposed_of_invoke (he : enabled s (.invoke r)) :
    s.exposed lib (.invoke r) r = true := by
  rw [State.exposed, exposed_executing (takes_invoke.mp he.1),
    Operations.enabled_invoke.mp (he.2.1 _ rfl)]

/-- A prepared request without an operation id is exposed. -/
theorem exposed_of_call (he : enabled s (.call r)) : s.exposed lib (.call r) r = true := by
  obtain ⟨h_phase, h_operationID⟩ := takes_call.mp he.1
  rw [State.exposed, exposed_prepared h_phase, h_operationID]
  rfl

/-- The function that the queue calls has not sent anything. -/
theorem free_of_run (hs : (machine lib leaseTTL).Reachable s) (he : enabled s (.run r))
    (h : s.exposed lib (.run r) r = false) : (next lib s (.run r)).free lib r = false := by
  have h_activated := TabQueue.enabled_invoke.mp (he.2.2 _ rfl)
  have h_tab : (s.requests r).tabID ≠ "" := by
    intro h_tab
    rw [h_tab, queues_unnamed hs r] at h_activated
    contradiction
  -- The request holds the slot of its tab, and its work has not begun.
  have h_idle : (s.requests r).work = .idle := by
    by_contra h_work
    have h_called := (coherent hs r).work h_work h_tab
    rw [State.queuePhase, h_activated] at h_called
    contradiction
  have h_unsent : (s.requests r).unsent = true := by
    rw [Request.unsent, h_idle]
  refine free_of_kept hs he (requests_next_self rfl) rfl rfl rfl (fun _ => h_unsent) ?_ h
  rw [operations_next_none rfl]
  exact id

/-- A call that has its outcome sends nothing more. -/
theorem free_of_finishCall {outcome : Outcome Json} (h_outcome : s.runTabOutcome r = some outcome) :
    (next lib s (.finishCall r)).free lib r = false := by
  have h_event : requestEvent lib s (.finishCall r) = some (r, (s.requests r).setPhase
      (.called (reportEffect (s.requests r).method (s.requests r).params
        (s.requests r).dispatched outcome))) := by
    rw [requestEvent, h_outcome]
  apply free_of_phase
  rw [requests_next_self h_event]
  rfl

/-- The answer of the extension may still let the request be sent, but no more than before. -/
theorem free_of_settle {outcome : Outcome Json} (hs : (machine lib leaseTTL).Reachable s)
    (he : enabled s (.settle r outcome)) (h : s.exposed lib (.settle r outcome) r = false) :
    (next lib s (.settle r outcome)).free lib r = false := by
  obtain ⟨method, params, h_handler⟩ := takes_settle.mp he.1
  refine free_of_kept hs he (requests_next_self rfl) rfl rfl rfl
    (Request.unsent_settle h_handler) ?_ h
  rw [operations_next_none rfl]
  exact id

/-- A request that is answered sends nothing more. -/
theorem free_of_respond (h_takes : takes s (.respond r)) :
    (next lib s (.respond r)).free lib r = false := by
  apply free_of_phase
  rcases takes_respond.mp h_takes with
    ⟨⟨outcome, h_phase⟩, -⟩ | ⟨h_phase, outcome, replayed, h_result⟩
  · have h_event : requestEvent lib s (.respond r) =
        some (r, (s.requests r).setPhase (.answered outcome)) := by
      rw [requestEvent, h_phase]
    rw [requests_next_self h_event]
    rfl
  · have h_event : requestEvent lib s (.respond r) = some (r, (s.requests r).setPhase
        (.answered (operationAnswer (s.requests r).operationID outcome replayed))) := by
      rw [requestEvent, h_phase, h_result]
    rw [requests_next_self h_event]
    rfl

/-- **A step that does not find the request exposed stops it.** -/
theorem exposed_next (hs : (machine lib leaseTTL).Reachable s) (he : enabled s e)
    (h_permitted : (s.requests r).phase = .permitted → requiresLease (s.requests r).method = true)
    (h_renew : ∀ now l, e = .renewLease r now → (s.manager.renewLease now (s.requests r).sessionID
      (s.requests r).tabID (s.requests r).leaseID 0).result ≠ .ok l)
    (h : s.exposed lib e r = false) : (next lib s e).free lib r = false := by
  by_cases h_request : e.request? = some r
  case neg =>
    -- another request moves; of this one at most the queue and its session change
    refine free_of_kept hs he (requests_next_of_ne lib h_request) rfl rfl rfl id ?_ h
    rw [Operations.State.phase, calls_next_of_ne lib h_request]
    exact id
  have h_takes := he.1
  cases e with
  | command k now => contradiction
  | arrive d method params =>
    cases h_request
    apply free_of_phase
    rw [requests_next_self rfl]
    rfl
  | clientGone d =>
    cases h_request
    exact free_of_kept hs he (requests_next_self rfl) rfl rfl rfl id id h
  -- the checks before the lease is renewed
  | screen d now =>
    cases h_request
    exact free_of_pass rfl rfl
  | getSession d =>
    cases h_request
    exact free_of_pass rfl rfl
  | requireCapability d =>
    cases h_request
    exact free_of_pass rfl rfl
  | validateLease d now =>
    cases h_request
    exact free_of_pass rfl rfl
  | renewLease d now =>
    cases h_request
    exact free_of_renewLease fun l => h_renew now l rfl
  | prepare d files =>
    cases h_request
    exact free_of_prepare he h_permitted h
  -- `ExecuteOperation`
  | execute d now =>
    cases h_request
    exact free_of_execute he h
  | giveUp d message =>
    cases h_request
    refine free_of_operation hs he rfl ?_ h
    rw [operations_next_some rfl, Operations.next, Operations.State.setPhase,
      Operations.State.phase_setCall_self]
  | replay d =>
    cases h_request
    obtain ⟨c, h_wait, -⟩ := Operations.enabled_takeDone.mp (he.2.1 _ rfl)
    refine free_of_operation hs he rfl ?_ h
    rw [operations_next_some rfl]
    simp only [Operations.next, h_wait]
    rw [Operations.State.setPhase, Operations.State.phase_setCall_self]
  | invoke d =>
    cases h_request
    rw [exposed_of_invoke he] at h
    contradiction
  | finish d =>
    cases h_request
    obtain ⟨⟨outcome, h_phase⟩, -⟩ := takes_finish.mp h_takes
    exact free_of_finish h_phase
  | record d now =>
    cases h_request
    obtain ⟨outcome, h_ended⟩ := Operations.enabled_record.mp (he.2.1 _ rfl)
    refine free_of_operation hs he rfl ?_ h
    rw [operations_next_some rfl]
    simp only [Operations.next, h_ended]
    rw [Operations.State.record, Operations.State.setPhase, Operations.State.phase_setCall_self]
  | call d =>
    cases h_request
    rw [exposed_of_call he] at h
    contradiction
  -- the queue
  | enter d => exact free_of_queue hs he rfl rfl h
  | callerDone d message => exact free_of_queue hs he rfl rfl h
  | takeReady d => exact free_of_queue hs he rfl rfl h
  | quit d => exact free_of_queue hs he rfl rfl h
  | start d => exact free_of_queue hs he rfl rfl h
  | run d =>
    cases h_request
    exact free_of_run hs he h
  | leave d =>
    cases h_request
    obtain ⟨outcome, dispatched, h_work⟩ := takes_leave.mp h_takes
    have h_event : queueEvent s (.leave r) = some (r, .finish r outcome) := by
      rw [queueEvent, h_work]
    exact free_of_queue hs he h_event rfl h
  | release d => exact free_of_queue hs he rfl rfl h
  -- the function and the extension
  | send d browserInstanceID =>
    cases h_request
    exact free_of_work hs he (congrArg (fun q => some (r, q)) (Request.send_eq ..)) rfl
      (fun _ => Request.unsent_of_isReady h_takes.2) h
  | refuse d failure =>
    cases h_request
    exact free_of_work hs he (congrArg (fun q => some (r, q)) (Request.failBridge_eq ..)) rfl
      (fun _ => Request.unsent_of_isReady h_takes.2) h
  | settle d outcome =>
    cases h_request
    exact free_of_settle hs he h
  | receive d =>
    cases h_request
    refine free_of_work hs he (congrArg (fun q => some (r, q)) (Request.receive_eq ..)) rfl ?_ h
    rw [← Request.receive_eq]
    exact Request.unsent_receive h_takes.2.1
  | abandon d failure =>
    cases h_request
    refine free_of_work hs he (congrArg (fun q => some (r, q)) (Request.failBridge_eq ..)) rfl ?_ h
    rw [← Request.failBridge_eq, Request.unsent_failBridge h_takes.2]
    exact fun h => absurd h Bool.false_ne_true
  -- the answer
  | finishCall d =>
    cases h_request
    obtain ⟨-, outcome, h_outcome⟩ := takes_finishCall.mp h_takes
    exact free_of_finishCall h_outcome
  | respond d =>
    cases h_request
    exact free_of_respond h_takes

/-- A session that is closed stays closed. -/
theorem closed_next (he : enabled s e) {sessionID : String}
    (h : s.manager.closed sessionID = true) :
    (next lib s e).manager.closed sessionID = true := by
  rw [State.manager]
  cases h_event : operationEvent s e with
  | none =>
    rw [operations_next_none h_event]
    exact h
  | some e' =>
    rw [operations_next_some h_event]
    exact Operations.closed_next (he.2.1 e' h_event) h

/-- A request that is stopped already is not exposed to any step. -/
theorem exposed_of_free (he : enabled s e) (h : s.free lib r = false) :
    s.exposed lib e r = false := by
  refine exposed_mono rfl rfl rfl id id ?_ (closed_next he) h
  unfold admits
  cases (s.queues (s.requests r).tabID).phase r with
  | waiting | starting =>
    rw [Bool.and_eq_true, Bool.and_eq_true]
    exact fun h => ⟨h.1, rfl⟩
  | _ => exact id

/-- **A request that is stopped stays so.** -/
theorem free_next (hs : (machine lib leaseTTL).Reachable s) (he : enabled s e)
    (h_permitted : (s.requests r).phase = .permitted → requiresLease (s.requests r).method = true)
    (h_renew : ∀ now l, e = .renewLease r now → (s.manager.renewLease now (s.requests r).sessionID
      (s.requests r).tabID (s.requests r).leaseID 0).result ≠ .ok l)
    (h : s.free lib r = false) : (next lib s e).free lib r = false :=
  exposed_next hs he h_permitted h_renew (exposed_of_free he h)

/-- The event starts a call of the bridge for the request. -/
def Event.starts (r : κ) : Event κ → Bool
  | .send d _ => d = r
  | .refuse d _ => d = r
  | _ => false

omit [DecidableEq κ] in
/-- The function of a request that is stopped sends nothing. -/
theorem not_working (h : s.free lib r = false) (h_ready : (s.requests r).work.isReady = true) :
    s.working r = false := by
  rw [← Bool.not_eq_true]
  intro h_working
  rw [State.working, Bool.and_eq_true, Bool.or_eq_true, decide_eq_true_eq] at h_working
  obtain ⟨h_calling, h_called⟩ := h_working
  have h_phase : (s.requests r).phase = .calling := by
    cases h_phase : (s.requests r).phase with
    | calling => rfl
    | _ =>
      rw [h_phase] at h_calling
      contradiction
  rw [State.free, exposed_calling h_phase, Request.unsent_of_isReady h_ready, Bool.true_and,
    Bool.or_eq_false_iff, decide_eq_false_iff_not] at h
  -- a call that has a tab works while its function runs
  have h_invoked := h_called.resolve_left h.1
  have h_queue : (s.queues (s.requests r).tabID).phase r = .invoked := by
    rw [State.queuePhase] at h_invoked
    cases h_queue : (s.queues (s.requests r).tabID).phase r with
    | invoked => rfl
    | _ =>
      rw [h_queue] at h_invoked
      contradiction
  rw [admits_of_phase (.inr (.inr h_queue))] at h
  cases h.2

/-- A request that is stopped does not start a call of the bridge. -/
theorem not_starts (h : s.free lib r = false) (he : enabled s e) : e.starts r = false := by
  rw [← Bool.not_eq_true]
  intro h_starts
  cases e with
  | send d browserInstanceID | refuse d failure =>
    have h_eq : d = r := of_decide_eq_true h_starts
    subst h_eq
    have h_not := not_working h he.1.2
    rw [he.1.1] at h_not
    contradiction
  | _ => contradiction

end Steps

end BrowserControl.Server
