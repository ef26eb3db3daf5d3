import BrowserControl.Server.Dispatch
import BrowserControl.Core.OperationsInvariant
import BrowserControl.Core.TabQueueCancellation

/-!
# A request and its parts

A request has a record of its own, a call in `Operations` and a call in the queue of its tab.
The daemon runs all three, and this module says what they have to do with each other: an event
moves the parts of one request only (`requests_next_of_ne`, `calls_next_of_ne`,
`queuePhase_next_of_ne`), each part of the daemon runs on its own machine
(`operationsProjection`, `queueProjection`), and the parts of a request agree on where it stands
(`Coherent`).
-/

namespace BrowserControl.Server

open Encoding Protocol BrowserControl.Core Transition

variable {κ : Type*} [DecidableEq κ] {lib : Library} {leaseTTL : Duration}

attribute [local simp] requestEvent operationEvent queueEvent nextQueues next takes

/-! ### The parts an event moves -/

/-- The request an event moves. -/
def Event.request? : Event κ → Option κ
  | .arrive r _ _ => some r
  | .clientGone r => some r
  -- A command of another connection moves no request.
  | .command _ _ => none
  | .screen r _ => some r
  | .getSession r => some r
  | .requireCapability r => some r
  | .validateLease r _ => some r
  | .renewLease r _ => some r
  | .prepare r _ => some r
  | .execute r _ => some r
  | .giveUp r _ => some r
  | .replay r => some r
  | .invoke r => some r
  | .finish r => some r
  | .record r _ => some r
  | .call r => some r
  | .enter r => some r
  | .callerDone r _ => some r
  | .takeReady r => some r
  | .quit r => some r
  | .start r => some r
  | .run r => some r
  | .leave r => some r
  | .release r => some r
  | .finishCall r => some r
  | .send r _ => some r
  | .refuse r _ => some r
  | .settle r _ => some r
  | .receive r => some r
  | .abandon r _ => some r
  | .respond r => some r

variable (lib) in
/-- An event that changes a request moves this request and no other. -/
theorem request?_of_requestEvent {s : State κ} {e : Event κ} {r : κ} {q : Request}
    (h : requestEvent lib s e = some (r, q)) : e.request? = some r := by
  -- By the kind of event: two of them move a request under a condition.
  cases e with
  | finishCall d =>
    simp only [requestEvent] at h
    split at h
    · exact congrArg (Option.map Prod.fst) h
    · contradiction
  | respond d =>
    simp only [requestEvent] at h
    split at h
    · exact congrArg (Option.map Prod.fst) h
    · split at h
      · exact congrArg (Option.map Prod.fst) h
      · contradiction
  | _ => cases h <;> rfl

omit [DecidableEq κ] in
/-- An event that changes a call of `ExecuteOperation` moves the request that makes it. -/
theorem request?_of_operationEvent {s : State κ} {e : Event κ} {e' : Operations.Event κ}
    (h : operationEvent s e = some e') {r : κ} (h_call : e'.call? = some r) :
    e.request? = some r := by
  -- an event of the operations is the one of the request that moves
  cases e with
  | screen d now =>
    simp only [operationEvent] at h
    split at h
    · cases h
      contradiction
    · contradiction
  | validateLease d now =>
    simp only [operationEvent] at h
    split at h
    · cases h
      contradiction
    · contradiction
  | finish d =>
    simp only [operationEvent] at h
    split at h
    · cases h
      exact h_call
    · contradiction
  | command k now =>
    cases h
    contradiction
  | renewLease d now =>
    cases h
    contradiction
  | _ => cases h <;> exact h_call

omit [DecidableEq κ] in
/-- An event that changes a call in a queue moves the request that waits there. -/
theorem caller_of_queueEvent {s : State κ} {e : Event κ} {r : κ} {q : TabQueue.Event κ Json}
    (h : queueEvent s e = some (r, q)) : e.request? = some r ∧ q.caller = some r := by
  cases e with
  | leave d =>
    simp only [queueEvent] at h
    split at h
    · cases h
      exact ⟨rfl, rfl⟩
    · contradiction
  | _ => cases h <;> exact ⟨rfl, rfl⟩

section Others

variable {s : State κ} {e : Event κ} {r : κ}

variable (lib) in
theorem requests_next_of_ne (h : e.request? ≠ some r) :
    (next lib s e).requests r = s.requests r := by
  unfold next
  cases h_event : requestEvent lib s e with
  | none => rfl
  | some p =>
    have h_ne : r ≠ p.1 := fun h_eq => h (h_eq ▸ request?_of_requestEvent lib h_event)
    exact Function.update_of_ne h_ne ..

variable (lib) in
theorem calls_next_of_ne (h : e.request? ≠ some r) :
    (next lib s e).operations.calls r = s.operations.calls r := by
  simp only [next]
  split
  case h_1 e' h_event =>
    exact Operations.calls_next_of_ne lib.hash _ fun h_call =>
      h (request?_of_operationEvent h_event h_call)
  case h_2 => rfl

theorem phase_nextQueues_of_ne (h : e.request? ≠ some r) (tab : String) :
    (nextQueues s e tab).phase r = (s.queues tab).phase r := by
  unfold nextQueues
  split
  case h_1 d q h_event =>
    split
    · refine TabQueue.phase_next_of_ne _ fun h_call => h ?_
      obtain ⟨h_request, h_caller⟩ := caller_of_queueEvent h_event
      rw [h_caller] at h_call
      rw [h_request, h_call]
    · rfl
  case h_2 =>
    split <;> rfl

/-- An event that has no part in a queue moves nobody in it. -/
theorem phase_nextQueues_of_none (h : queueEvent s e = none) (tab : String) :
    (nextQueues s e tab).phase r = (s.queues tab).phase r := by
  unfold nextQueues
  rw [h]
  dsimp only
  split <;> rfl

end Others

/-! ### The parts as machines -/

/-- The operations of the daemon. -/
def operationsProjection (lib : Library) (leaseTTL : Duration) :
    Projection (machine lib leaseTTL : Machine (State κ) (Event κ))
      (Operations.machine lib.hash leaseTTL :
        Machine (Operations.State κ) (Operations.Event κ)) where
  state s := s.operations
  -- At most one event of the operations for an event of the server.
  events s e := (operationEvent s e).toList
  init := rfl
  runs s e _ _ he := by
    cases h : operationEvent s e with
    | none => exact trivial
    | some e' => exact ⟨he.2.1 e' h, trivial⟩
  next s e _ _ _ := by
    show (next lib s e).operations = _
    simp only [next]
    cases operationEvent s e <;> rfl

/-- What an event does to the queue of a tab. -/
def queueEvents (s : State κ) (e : Event κ) (tab : String) : List (TabQueue.Event κ Json) :=
  match queueEvent s e with
  | some (r, q) => if (s.requests r).tabID = tab then [q] else []
  | none =>
    match cancelledQueues s e tab with
    | some reason => [.cancelAll reason]
    | none => []

/-- The queue of a tab. -/
def queueProjection (lib : Library) (leaseTTL : Duration) (tab : String) :
    Projection (machine lib leaseTTL : Machine (State κ) (Event κ)) (TabQueue.machine κ Json) where
  state s := s.queues tab
  -- An event of the queue itself, or the cancellation by a command.
  events s e := queueEvents s e tab
  init := rfl
  runs s e _ _ he := by
    unfold queueEvents
    split
    case h_1 r q h_event =>
      split
      case isTrue h_tab => exact ⟨h_tab ▸ he.2.2 _ h_event, trivial⟩
      case isFalse => exact trivial
    case h_2 =>
      split
      · exact ⟨trivial, trivial⟩
      · exact trivial
  next s e _ _ _ := by
    show nextQueues s e tab = _
    unfold nextQueues queueEvents
    cases queueEvent s e with
    | some p =>
      dsimp only
      split <;> rfl
    | none =>
      dsimp only
      cases cancelledQueues s e tab <;> rfl

/-! ### What the parts of a request agree on -/

/-- `ExecuteOperation` and `RunTab` are still to come. -/
def Phase.isEarly : Phase → Bool
  | .outside => true
  | .arrived => true
  | .screened => true
  | .identified => true
  | .permitted => true
  | .validated => true
  | .renewed => true
  | .prepared => true
  | _ => false

/-- The lease of the request has been checked, and `forward` goes on with it. -/
def Phase.isChecked : Phase → Bool
  | .validated => true
  | .renewed => true
  | .prepared => true
  | .executing => true
  | .calling => true
  | .called _ => true
  | _ => false

/-- The function of the call has been called. -/
def hasCalled : TabQueue.Phase Json → Bool
  | .invoked => true
  | .releasing _ => true
  | .returned _ => true
  | _ => false

/-- What `forward` passes to `ExecuteOperation`. -/
def Request.arguments (q : Request) : String × String × String × Object :=
  (q.sessionID, q.tabID, q.operationID, fingerprintParams q.params)

/-- The call of `ExecuteOperation` that the request makes. -/
def Request.call (κ : Type*) (q : Request) : Operations.Call κ where
  sessionID := q.sessionID
  tabID := q.tabID
  operationID := q.operationID
  request := fingerprintParams q.params

/-- The parts of a request agree on where it stands. -/
structure Coherent (s : State κ) (r : κ) : Prop where
  /-- The parameters are those that were sent but for the keys that `forward` rewrites. -/
  rewrites : Rewrites (s.requests r).raw (s.requests r).params
  /-- Nothing runs for the request while it is checked. -/
  early : (s.requests r).phase.isEarly = true → s.operations.phase r = .outside ∧
    (s.requests r).work = .idle ∧ ∀ tab, (s.queues tab).phase r = .outside
  arguments : s.operations.phase r ≠ .outside →
    (s.operations.calls r).arguments = (s.requests r).arguments
  /-- A request that needs a lease names a tab. -/
  tab : (s.requests r).phase.isChecked = true → requiresLease (s.requests r).method = true →
    (s.requests r).tabID ≠ ""
  /-- The function works only once the queue of the tab has called it. -/
  work : (s.requests r).work ≠ .idle → (s.requests r).tabID ≠ "" →
    hasCalled (s.queuePhase r) = true

/-! ### Steps of one request -/

section Steps

variable {s : State κ} {e : Event κ} {r : κ} {q : Request}

theorem requests_next_self (h : requestEvent lib s e = some (r, q)) :
    (next lib s e).requests r = q := by
  unfold next
  rw [h]
  exact Function.update_self ..

/-- An event of a part only leaves all records. -/
theorem requests_next_none (h : requestEvent lib s e = none) :
    (next lib s e).requests r = s.requests r := by
  unfold next
  rw [h]

/-- An event without a part in the operations leaves them. -/
theorem operations_next_none (h : operationEvent s e = none) :
    (next lib s e).operations = s.operations := by
  unfold next
  rw [h]

/-- An event with a part in the operations is a step of their machine. -/
theorem operations_next_some {e' : Operations.Event κ} (h : operationEvent s e = some e') :
    (next lib s e).operations = Operations.next lib.hash s.operations e' := by
  unfold next
  rw [h]

/-- A step of the checks leaves the calls of the request alone. -/
theorem calls_next_of_check (h : ∀ e' ∈ operationEvent s e, e'.call? = none) :
    (next lib s e).operations.calls r = s.operations.calls r := by
  cases h_event : operationEvent s e with
  | none => rw [operations_next_none h_event]
  | some e' =>
    rw [operations_next_some h_event]
    refine Operations.calls_next_of_ne lib.hash _ ?_
    rw [h e' h_event]
    rintro ⟨⟩

/-- A check of the request goes on or fails. -/
theorem Coherent.checks (hC : Coherent s r) (h_early : (s.requests r).phase.isEarly = true)
    (h_request : requestEvent lib s e = some (r, q)) (h_queue : queueEvent s e = none)
    (h_operation : ∀ e' ∈ operationEvent s e, e'.call? = none)
    (h_rewrites : Rewrites q.raw q.params) (h_work : q.work = .idle)
    (h_tab : q.phase.isChecked = true → requiresLease q.method = true → q.tabID ≠ "") :
    Coherent (next lib s e) r := by
  obtain ⟨h_outside, -, h_queues⟩ := hC.early h_early
  -- nothing of the request has reached the operations or a queue
  have h_outside' : (next lib s e).operations.phase r = .outside := by
    rw [Operations.State.phase, calls_next_of_check h_operation]
    exact h_outside
  refine ⟨?_, ?_, fun h => absurd h_outside' h, ?_, ?_⟩
  · rw [requests_next_self h_request]
    exact h_rewrites
  · intro _
    refine ⟨h_outside', ?_, fun tab => ?_⟩
    · rw [requests_next_self h_request]
      exact h_work
    · exact (phase_nextQueues_of_none h_queue tab).trans (h_queues tab)
  · rw [requests_next_self h_request]
    exact h_tab
  · rw [requests_next_self h_request]
    exact fun h => absurd h_work h

/-- A request moves on once it is checked. -/
theorem Coherent.proceeds (hC : Coherent s r) (h_request : (next lib s e).requests r = q)
    (h_raw : q.raw = (s.requests r).raw) (h_method : q.method = (s.requests r).method)
    (h_params : q.params = (s.requests r).params) (h_late : q.phase.isEarly = false)
    (h_checked : q.phase.isChecked = true → (s.requests r).phase.isChecked = true)
    (h_arguments : (next lib s e).operations.phase r ≠ .outside →
      ((next lib s e).operations.calls r).arguments = (s.requests r).arguments)
    (h_work : q.work ≠ .idle → q.tabID ≠ "" → hasCalled ((next lib s e).queuePhase r) = true) :
    Coherent (next lib s e) r := by
  -- the parameters are the same, so is all that is read from them
  refine ⟨?_, ?_, fun h_outside => ?_, ?_, ?_⟩
  · rw [h_request, h_raw, h_params]
    exact hC.rewrites
  · rw [h_request, h_late]
    exact fun h => absurd h Bool.false_ne_true
  · rw [h_request, h_arguments h_outside]
    unfold Request.arguments Request.sessionID Request.tabID Request.operationID
    rw [h_params]
  · rw [h_request, h_method, Request.tabID, h_params]
    exact fun h => hC.tab (h_checked h)
  · rw [h_request]
    exact h_work

/-- A step that others take. -/
theorem Coherent.of_ne (hC : Coherent s r) (h : e.request? ≠ some r) :
    Coherent (next lib s e) r := by
  have h_request := requests_next_of_ne lib (s := s) h
  have h_call := calls_next_of_ne lib (s := s) h
  -- neither its operation nor its place in a queue moves
  have h_phase : (next lib s e).operations.phase r = s.operations.phase r :=
    congrArg Operations.Call.phase h_call
  refine ⟨?_, ?_, ?_, ?_, ?_⟩
  · rw [h_request]
    exact hC.rewrites
  · rw [h_request, h_phase]
    intro h_early
    obtain ⟨h_outside, h_work, h_queues⟩ := hC.early h_early
    exact ⟨h_outside, h_work, fun tab => (phase_nextQueues_of_ne h tab).trans (h_queues tab)⟩
  · rw [h_request, h_phase, h_call]
    exact hC.arguments
  · rw [h_request]
    exact hC.tab
  · rw [h_request]
    intro h_work h_tab
    have h_queue : (next lib s e).queuePhase r = s.queuePhase r := by
      rw [State.queuePhase, h_request]
      exact phase_nextQueues_of_ne h _
    rw [h_queue]
    exact hC.work h_work h_tab

/-- A step that changes nothing but the handler and the connection of the client. -/
theorem Coherent.of_aside (hC : Coherent s r) (handler : Handler) (clientGone : Bool)
    (h_request : requestEvent lib s e = some (r, { s.requests r with handler, clientGone }))
    (h_queue : queueEvent s e = none) (h_operation : operationEvent s e = none) :
    Coherent (next lib s e) r := by
  have h_phase : (next lib s e).operations = s.operations := operations_next_none h_operation
  -- only the handler or the client moves
  have h_queues : ∀ tab, (nextQueues s e tab).phase r = (s.queues tab).phase r :=
    phase_nextQueues_of_none h_queue
  refine ⟨?_, ?_, ?_, ?_, ?_⟩
  · rw [requests_next_self h_request]
    exact hC.rewrites
  · rw [requests_next_self h_request, h_phase]
    intro h_early
    obtain ⟨h_outside, h_work, h_none⟩ := hC.early h_early
    exact ⟨h_outside, h_work, fun tab => (h_queues tab).trans (h_none tab)⟩
  · rw [requests_next_self h_request, h_phase]
    exact hC.arguments
  · rw [requests_next_self h_request]
    exact hC.tab
  · rw [State.queuePhase, requests_next_self h_request]
    intro h_work h_tab
    rw [show ((next lib s e).queues _).phase r = _ from h_queues _]
    exact hC.work h_work h_tab

end Steps

/-! ### The checks -/

/-- A check that finds nothing lets the request pass, and one that finds an error fails it. -/
theorem Request.pass_cases (q : Request) (phase : Phase) (rpcErr : Option RPCError) :
    q.pass phase rpcErr = q.setPhase phase ∧ rpcErr = none ∨
      ∃ rpcErr', q.pass phase rpcErr = q.fail rpcErr' := by
  cases rpcErr with
  | none => exact .inl ⟨rfl, rfl⟩
  | some rpcErr => exact .inr ⟨rpcErr, rfl⟩

/-- A check that passes a request on to a phase in which its lease is not checked. -/
theorem Coherent.passes {s : State κ} {e : Event κ} {r : κ} {phase : Phase}
    {rpcErr : Option RPCError} (hC : Coherent s r)
    (h_early : (s.requests r).phase.isEarly = true)
    (h_request : requestEvent lib s e = some (r, (s.requests r).pass phase rpcErr))
    (h_queue : queueEvent s e = none)
    (h_operation : ∀ e' ∈ operationEvent s e, e'.call? = none)
    (h_tab : rpcErr = none → phase.isChecked = true →
      requiresLease (s.requests r).method = true → (s.requests r).tabID ≠ "") :
    Coherent (next lib s e) r := by
  obtain ⟨-, h_work, -⟩ := hC.early h_early
  -- It passes to the next phase, or it fails and is answered.
  rcases (s.requests r).pass_cases phase rpcErr with ⟨h_pass, h_none⟩ | ⟨rpcErr', h_fail⟩
  · rw [h_pass] at h_request
    exact hC.checks h_early h_request h_queue h_operation hC.rewrites h_work (h_tab h_none)
  · rw [h_fail] at h_request
    exact hC.checks h_early h_request h_queue h_operation hC.rewrites h_work
      fun h => absurd h Bool.false_ne_true

/-- Nothing is missing only if there is a tab. -/
theorem Request.tabID_ne_of_missing {q : Request} (h : q.missing = []) : q.tabID ≠ "" := by
  intro h_tab
  rw [Request.missing, missingFields, if_pos h_tab] at h
  simp at h

/-- The canonical files take the place of the paths, and nothing else changes. -/
theorem rewrites_uploads {q : Request} {files : Except RPCError (List String)} {params : Object}
    (h : q.uploads files = .ok params) : Rewrites q.params params := by
  unfold Request.uploads at h
  split at h
  · cases files with
    | error rpcErr => contradiction
    | ok files =>
      cases h
      exact rewrites_canonicalFiles _ _
  · cases h
    exact .refl _

/-- A renewal binds the request to the browser of its lease. -/
theorem Coherent.renews {s : State κ} {r : κ} {now : Time} (hC : Coherent s r)
    (h_phase : (s.requests r).phase = .validated) :
    Coherent (next lib s (.renewLease r now)) r := by
  have h_early : (s.requests r).phase.isEarly = true := by
    rw [h_phase]
    rfl
  obtain ⟨-, h_work, -⟩ := hC.early h_early
  have h_operation : ∀ e' ∈ operationEvent s (.renewLease r now), e'.call? = none := by
    rintro e' ⟨⟩
    rfl
  cases h_result : (s.manager.renewLease now (s.requests r).sessionID (s.requests r).tabID
      (s.requests r).leaseID 0).result with
  -- the lease is not valid any more
  | error rpcErr =>
    have h_request : requestEvent lib s (.renewLease r now) =
        some (r, (s.requests r).fail rpcErr) := by
      rw [requestEvent, h_result]
    exact hC.checks h_early h_request rfl h_operation hC.rewrites h_work
      fun h => absurd h Bool.false_ne_true
  | ok l =>
    have h_request : requestEvent lib s (.renewLease r now) =
        some (r, (s.requests r).renewedBy l) := by
      rw [requestEvent, h_result]
    unfold Request.renewedBy at h_request
    split at h_request
    case h_1 rpcErr h_bind =>
      exact hC.checks h_early h_request rfl h_operation hC.rewrites h_work
        fun h => absurd h Bool.false_ne_true
    case h_2 params h_bind =>
      have h_rewrites := rewrites_bindBrowser h_bind
      refine hC.checks h_early h_request rfl h_operation (hC.rewrites.trans h_rewrites) h_work ?_
      intro _ h_lease
      have h_tab := hC.tab (by rw [h_phase]; rfl) h_lease
      rw [Request.tabID, h_rewrites.stringField (by decide)]
      exact h_tab

/-- The rewriting of the parameters leaves the tab of the request as it is. -/
theorem Coherent.prepares {s : State κ} {r : κ} {files : Except RPCError (List String)}
    (hC : Coherent s r) (h_phase : (s.requests r).phase = .renewed ∨
      (s.requests r).phase = .permitted ∧ ¬ requiresLease (s.requests r).method = true) :
    Coherent (next lib s (.prepare r files)) r := by
  have h_early : (s.requests r).phase.isEarly = true := by
    rcases h_phase with h | ⟨h, -⟩ <;> rw [h] <;> rfl
  obtain ⟨-, h_work, -⟩ := hC.early h_early
  have h_tab : requiresLease (s.requests r).method = true → (s.requests r).tabID ≠ "" := by
    intro h_lease
    rcases h_phase with h | ⟨-, h⟩
    · exact hC.tab (by rw [h]; rfl) h_lease
    · exact absurd h_lease h
  have h_request : requestEvent lib s (.prepare r files) =
      some (r, (s.requests r).prepare lib files) := rfl
  unfold Request.prepare at h_request
  split at h_request
  -- a file of the upload is refused
  case h_1 rpcErr h_uploads =>
    exact hC.checks h_early h_request rfl (by rintro _ ⟨⟩) hC.rewrites h_work
      fun h => absurd h Bool.false_ne_true
  case h_2 params h_uploads =>
    have h_rewrites := hC.rewrites.trans (rewrites_uploads h_uploads)
    rcases Request.pass_cases { s.requests r with params } .prepared
      (checkForwarded (s.requests r).method params ((s.requests r).hasEpoch lib))
      with ⟨h_pass, -⟩ | ⟨rpcErr, h_fail⟩
    · rw [h_pass] at h_request
      refine hC.checks h_early h_request rfl (by rintro _ ⟨⟩) h_rewrites h_work fun _ h_lease => ?_
      rw [Request.setPhase, Request.tabID, (rewrites_uploads h_uploads).stringField (by decide)]
      exact h_tab h_lease
    · rw [h_fail] at h_request
      exact hC.checks h_early h_request rfl (by rintro _ ⟨⟩) h_rewrites h_work
        fun h => absurd h Bool.false_ne_true

/-! ### The steps after the checks -/

/-- A function that has been called stays so. -/
theorem hasCalled_next {s : TabQueue.State κ Json} {q : TabQueue.Event κ Json} {c : κ}
    (he : TabQueue.enabled s q) (h : hasCalled (s.phase c) = true) :
    hasCalled ((TabQueue.next s q).phase c) = true := by
  -- only the steps of the call itself move it, and all but the last two come before its function
  by_cases h_caller : q.caller = some c
  case neg =>
    rw [TabQueue.phase_next_of_ne s h_caller]
    exact h
  have h_not : ∀ phase, s.phase c = phase → hasCalled phase = false → False := by
    rintro phase rfl h_phase
    rw [h_phase] at h
    exact Bool.false_ne_true h
  cases q with
  | enter d =>
    cases h_caller
    exact (h_not _ (TabQueue.enabled_enter.mp he) rfl).elim
  | callerDone d message =>
    cases h_caller
    exact (h_not _ (TabQueue.enabled_callerDone.mp he) rfl).elim
  | takeReady d =>
    cases h_caller
    exact (h_not _ (TabQueue.enabled_takeReady.mp he).1 rfl).elim
  | quit d =>
    cases h_caller
    obtain ⟨message, h_phase⟩ := TabQueue.enabled_quit.mp he
    exact (h_not _ h_phase rfl).elim
  | start d =>
    cases h_caller
    exact (h_not _ (TabQueue.enabled_start.mp he) rfl).elim
  | invoke d =>
    cases h_caller
    exact (h_not _ (TabQueue.enabled_invoke.mp he) rfl).elim
  -- the last two: the function is over, and the slot is released
  | finish d outcome =>
    cases h_caller
    simp only [TabQueue.next, TabQueue.State.finish, TabQueue.State.phase,
      TabQueue.State.setCall, Function.update_self]
    rfl
  | release d =>
    cases h_caller
    obtain ⟨outcome, h_phase⟩ := TabQueue.enabled_release.mp he
    simp only [TabQueue.next, h_phase, TabQueue.State.phase_release]
    rw [TabQueue.State.phase_setPhase]
    rfl
  | cancelAll reason => contradiction

omit [DecidableEq κ] in
/-- A call that takes part in a step of its queue, other than entering it, is inside. -/
theorem entered_of_enabled {s : TabQueue.State κ Json} {q : TabQueue.Event κ Json} {c : κ}
    (he : TabQueue.enabled s q) (h_caller : q.caller = some c) (h_enter : q ≠ .enter c) :
    s.phase c ≠ .outside := by
  -- every event but `enter` has a phase inside the queue before it
  cases q with
  | enter d =>
    cases h_caller
    exact absurd rfl h_enter
  | callerDone d message =>
    cases h_caller
    rw [TabQueue.enabled_callerDone.mp he]
    rintro ⟨⟩
  | takeReady d =>
    cases h_caller
    rw [(TabQueue.enabled_takeReady.mp he).1]
    rintro ⟨⟩
  | quit d =>
    cases h_caller
    obtain ⟨message, h_phase⟩ := TabQueue.enabled_quit.mp he
    rw [h_phase]
    rintro ⟨⟩
  | start d =>
    cases h_caller
    rw [TabQueue.enabled_start.mp he]
    rintro ⟨⟩
  | invoke d =>
    cases h_caller
    rw [TabQueue.enabled_invoke.mp he]
    rintro ⟨⟩
  | finish d outcome =>
    cases h_caller
    rw [TabQueue.enabled_finish.mp he]
    rintro ⟨⟩
  | release d =>
    cases h_caller
    obtain ⟨outcome, h_phase⟩ := TabQueue.enabled_release.mp he
    rw [h_phase]
    rintro ⟨⟩
  | cancelAll reason => contradiction

section Late

variable {s : State κ} {e : Event κ} {r : κ} {q : Request}

/-- An event without a part in a queue leaves the call of the request where it is. -/
theorem queuePhase_next_none (h_event : queueEvent s e = none)
    (h_tab : ((next lib s e).requests r).tabID = (s.requests r).tabID) :
    (next lib s e).queuePhase r = s.queuePhase r := by
  rw [State.queuePhase, h_tab]
  exact phase_nextQueues_of_none h_event _

/-- An event with a part in a queue moves the call of the request there. -/
theorem queuePhase_next_some {q : TabQueue.Event κ Json} (h_event : queueEvent s e = some (r, q))
    (h_tab : ((next lib s e).requests r).tabID = (s.requests r).tabID) :
    (next lib s e).queuePhase r =
      (TabQueue.next (s.queues (s.requests r).tabID) q).phase r := by
  rw [State.queuePhase, h_tab]
  show (nextQueues s e _).phase r = _
  unfold nextQueues
  rw [h_event]
  dsimp only
  rw [if_pos rfl]

omit [DecidableEq κ] in
/-- A request that is in `ExecuteOperation` has been checked. -/
theorem Coherent.late_of_operation (hC : Coherent s r) (h : s.operations.phase r ≠ .outside) :
    (s.requests r).phase.isEarly = false := by
  rw [← Bool.not_eq_true]
  exact fun h_early => h (hC.early h_early).1

omit [DecidableEq κ] in
/-- A request that is in a queue has been checked. -/
theorem Coherent.late_of_queue (hC : Coherent s r) (h : s.queuePhase r ≠ .outside) :
    (s.requests r).phase.isEarly = false := by
  rw [← Bool.not_eq_true]
  exact fun h_early => h ((hC.early h_early).2.2 _)

/-- A step of the operation of a request, which moves the request at most to another phase. -/
theorem Coherent.operates (hC : Coherent s r) {e' : Operations.Event κ}
    (h_event : operationEvent s e = some e') (he : Operations.enabled s.operations e')
    (h_outside : s.operations.phase r ≠ .outside) (h_queue : queueEvent s e = none)
    (h_request : (next lib s e).requests r = q) (h_raw : q.raw = (s.requests r).raw)
    (h_method : q.method = (s.requests r).method) (h_params : q.params = (s.requests r).params)
    (h_late : q.phase.isEarly = false)
    (h_checked : q.phase.isChecked = true → (s.requests r).phase.isChecked = true)
    (h_work : q.work ≠ .idle → q.tabID ≠ "" → (s.requests r).work ≠ .idle) :
    Coherent (next lib s e) r := by
  -- The tab of a request is read from its parameters once.
  have h_tab : q.tabID = (s.requests r).tabID := by
    rw [Request.tabID, h_params, Request.tabID]
  refine hC.proceeds h_request h_raw h_method h_params h_late h_checked (fun _ => ?_) ?_
  · rw [operations_next_some h_event, Operations.arguments_next he h_outside]
    exact hC.arguments h_outside
  · intro h_idle h_ne
    rw [queuePhase_next_none h_queue (h_request ▸ h_tab)]
    exact hC.work (h_work h_idle h_ne) (h_tab ▸ h_ne)

/-- A step of the queue of a request, which moves the request at most to another work. -/
theorem Coherent.queues (hC : Coherent s r) {q' : TabQueue.Event κ Json}
    (h_event : queueEvent s e = some (r, q')) (he : TabQueue.enabled (s.queues
      (s.requests r).tabID) q') (h_operation : operationEvent s e = none)
    (h_late : (s.requests r).phase.isEarly = false) (h_request : requestEvent lib s e = none) :
    Coherent (next lib s e) r := by
  have h_same := requests_next_none (r := r) h_request
  have h_operations : (next lib s e).operations = s.operations := operations_next_none h_operation
  refine hC.proceeds h_same rfl rfl rfl h_late id (fun h => ?_) ?_
  · rw [h_operations] at h ⊢
    exact hC.arguments h
  · intro h_work h_tab
    rw [queuePhase_next_some h_event (by rw [h_same])]
    exact hasCalled_next he (hC.work h_work h_tab)

/-- A request moves on to the end. -/
theorem Coherent.ends (hC : Coherent s r) {phase : Phase}
    (h_request : requestEvent lib s e = some (r, (s.requests r).setPhase phase))
    (h_late : phase.isEarly = false) (h_queue : queueEvent s e = none)
    (h_operation : operationEvent s e = none)
    (h_checked : phase.isChecked = true → (s.requests r).phase.isChecked = true) :
    Coherent (next lib s e) r := by
  have h_self := requests_next_self h_request
  have h_operations : (next lib s e).operations = s.operations := operations_next_none h_operation
  refine hC.proceeds h_self rfl rfl rfl h_late h_checked (fun h => ?_) ?_
  · rw [h_operations] at h ⊢
    exact hC.arguments h
  · rw [queuePhase_next_none h_queue (by rw [h_self]; rfl)]
    exact hC.work

/-- A step of the function that the queue has called. -/
theorem Coherent.works (hC : Coherent s r) (h_working : s.working r = true) (work : Work)
    (handler : Handler)
    (h_request : requestEvent lib s e = some (r, { s.requests r with work, handler }))
    (h_queue : queueEvent s e = none) (h_operation : operationEvent s e = none) :
    Coherent (next lib s e) r := by
  rw [State.working, Bool.and_eq_true] at h_working
  obtain ⟨h_calling, h_called⟩ := h_working
  -- the request is calling while its function works
  have h_late : (s.requests r).phase.isEarly = false := by
    cases h : (s.requests r).phase with
    | calling => rfl
    | _ => rw [h] at h_calling; contradiction
  have h_self := requests_next_self h_request
  have h_operations : (next lib s e).operations = s.operations := operations_next_none h_operation
  refine hC.proceeds h_self rfl rfl rfl h_late id (fun h => ?_) ?_
  · rw [h_operations] at h ⊢
    exact hC.arguments h
  · intro _ h_tab
    rw [queuePhase_next_none h_queue (by rw [h_self]; rfl)]
    rw [Bool.or_eq_true, decide_eq_true_eq] at h_called
    have h_invoked := h_called.resolve_left h_tab
    cases h : s.queuePhase r with
    | invoked => rfl
    | _ => rw [h] at h_invoked; contradiction

end Late

/-! ### Where a request is when it takes an event -/

section Takes

variable {s : State κ} {r : κ}

omit [DecidableEq κ]

/-- A request arrives once. -/
theorem takes_arrive {method : String} {params : Object} :
    takes s (.arrive r method params) ↔
      (s.requests r).phase = .outside ∧ reachesForward method = true := by
  cases h : (s.requests r).phase <;> simp [takes, h]

/-- When a request is screened. -/
theorem takes_screen {now : Time} : takes s (.screen r now) ↔ (s.requests r).phase = .arrived := by
  cases h : (s.requests r).phase <;> simp [takes, h]

/-- When its session is looked up. -/
theorem takes_getSession : takes s (.getSession r) ↔ (s.requests r).phase = .screened := by
  cases h : (s.requests r).phase <;> simp [takes, h]

/-- When its capability is asked for. -/
theorem takes_requireCapability :
    takes s (.requireCapability r) ↔ (s.requests r).phase = .identified := by
  cases h : (s.requests r).phase <;> simp [takes, h]

/-- Only the lease of a method that requires one is validated. -/
theorem takes_validateLease {now : Time} : takes s (.validateLease r now) ↔
    (s.requests r).phase = .permitted ∧ requiresLease (s.requests r).method = true := by
  cases h : (s.requests r).phase <;> simp [takes, h]

/-- When its lease is renewed. -/
theorem takes_renewLease {now : Time} :
    takes s (.renewLease r now) ↔ (s.requests r).phase = .validated := by
  cases h : (s.requests r).phase <;> simp [takes, h]

/-- The parameters are rewritten when the lease is renewed, or if none is required. -/
theorem takes_prepare {files : Except RPCError (List String)} : takes s (.prepare r files) ↔
    (s.requests r).phase = .renewed ∨
      (s.requests r).phase = .permitted ∧ ¬ requiresLease (s.requests r).method = true := by
  cases h : (s.requests r).phase <;> simp [takes, h]

/-- A request with an operation id is executed as an operation. -/
theorem takes_execute {now : Time} : takes s (.execute r now) ↔
    (s.requests r).phase = .prepared ∧ (s.requests r).operationID ≠ "" := by
  cases h : (s.requests r).phase <;> simp [takes, h]

/-- When it is run without an operation. -/
theorem takes_invoke : takes s (.invoke r) ↔ (s.requests r).phase = .executing := by
  cases h : (s.requests r).phase <;> simp [takes, h]

/-- When its operation is finished. -/
theorem takes_finish : takes s (.finish r) ↔
    (∃ outcome, (s.requests r).phase = .called outcome) ∧ (s.requests r).operationID ≠ "" := by
  cases h : (s.requests r).phase <;> simp [takes, h]

/-- A request without an operation id is called directly. -/
theorem takes_call : takes s (.call r) ↔
    (s.requests r).phase = .prepared ∧ (s.requests r).operationID = "" := by
  cases h : (s.requests r).phase <;> simp [takes, h]

/-- A call for a tab goes through the queue of the tab. -/
theorem takes_enter : takes s (.enter r) ↔
    (s.requests r).phase = .calling ∧ (s.requests r).tabID ≠ "" := by
  cases h : (s.requests r).phase <;> simp [takes, h]

/-- When it leaves the queue. -/
theorem takes_leave : takes s (.leave r) ↔
    ∃ outcome dispatched, (s.requests r).work = .done outcome dispatched := by
  cases h : (s.requests r).work <;> simp [takes, h]

/-- When the queue has finished its call. -/
theorem takes_finishCall : takes s (.finishCall r) ↔
    (s.requests r).phase = .calling ∧ ∃ outcome, s.runTabOutcome r = some outcome := by
  cases h : (s.requests r).phase <;> simp [takes, h, Option.isSome_iff_exists]

/-- When the handler of the extension settles. -/
theorem takes_settle {outcome : Outcome Json} : takes s (.settle r outcome) ↔
    ∃ method params, (s.requests r).handler = .running method params := by
  cases h : (s.requests r).handler <;> simp [takes, h]

/-- The answer is that of the call or that of the operation. -/
theorem takes_respond : takes s (.respond r) ↔
    (∃ outcome, (s.requests r).phase = .called outcome) ∧ (s.requests r).operationID = "" ∨
      (s.requests r).phase = .executing ∧
        ∃ outcome replayed, (s.operations.calls r).result = some (outcome, replayed) := by
  cases h : (s.requests r).phase <;> simp [takes, h, Option.isSome_iff_exists]

end Takes

/-! ### Coherence in every run -/

/-- Sending changes the work and the handler only. -/
theorem Request.send_eq (q : Request) (browserInstanceID : String) :
    q.send browserInstanceID = { q with
      work := (q.send browserInstanceID).work, handler := (q.send browserInstanceID).handler } := by
  unfold send
  cases q.work <;> rfl

/-- A failure of the bridge changes the work only. -/
theorem Request.failBridge_eq (q : Request) (failure : BridgeFailure) :
    q.failBridge failure = { q with work := (q.failBridge failure).work } := by
  unfold failBridge
  cases q.work <;> rfl

/-- An answer changes the work only. -/
theorem Request.receive_eq (q : Request) : q.receive = { q with work := q.receive.work } := by
  unfold receive
  split
  · split
    · split
      · rfl
      · split <;> rfl
    · rfl
    · rfl
  · rfl

section OneByOne

variable {s : State κ} {e : Event κ} {r : κ}

/-- The lease of a command may be looked at by a check; nobody is called then. -/
theorem Coherent.screens {now : Time} (hC : Coherent s r)
    (h_phase : (s.requests r).phase = .arrived) : Coherent (next lib s (.screen r now)) r := by
  have h_event : ∀ e' ∈ operationEvent s (.screen r now), e'.call? = none := by
    intro e' h
    rw [operationEvent] at h
    split at h
    · cases h
      rfl
    · contradiction
  exact hC.passes (by rw [h_phase]; rfl) rfl rfl h_event fun _ h => absurd h Bool.false_ne_true

/-- A lease that is valid is one of a tab with a name. -/
theorem Coherent.validates {now : Time} (hC : Coherent s r)
    (h_phase : (s.requests r).phase = .permitted) :
    Coherent (next lib s (.validateLease r now)) r := by
  have h_event : ∀ e' ∈ operationEvent s (.validateLease r now), e'.call? = none := by
    intro e' h
    rw [operationEvent] at h
    split at h
    · cases h
      rfl
    · contradiction
  refine hC.passes (by rw [h_phase]; rfl) rfl rfl h_event fun h_none _ _ => ?_
  split at h_none
  case isTrue h_missing => exact Request.tabID_ne_of_missing h_missing
  case isFalse => contradiction

/-- The arguments of the call are those of the request. -/
theorem Coherent.executes {now : Time} (hC : Coherent s r)
    (h_phase : (s.requests r).phase = .prepared) : Coherent (next lib s (.execute r now)) r := by
  obtain ⟨-, h_idle, -⟩ := hC.early (by rw [h_phase]; rfl)
  refine hC.proceeds (requests_next_self rfl) rfl rfl rfl rfl (fun _ => by rw [h_phase]; rfl)
    (fun _ => ?_) fun h => absurd h_idle h
  rw [operations_next_some rfl]
  exact Operations.arguments_execute _ r now _

/-- A step of `ExecuteOperation` that the request does not take part in. -/
theorem Coherent.operatesAlone (hC : Coherent s r) {e' : Operations.Event κ}
    (h_event : operationEvent s e = some e') (he : Operations.enabled s.operations e')
    (h_outside : s.operations.phase r ≠ .outside) (h_queue : queueEvent s e = none)
    (h_request : requestEvent lib s e = none) : Coherent (next lib s e) r :=
  hC.operates h_event he h_outside h_queue (requests_next_none h_request) rfl rfl rfl
    (hC.late_of_operation h_outside) id fun h _ => h

omit [DecidableEq κ] in
/-- Before the function of a tab's request works, it has to come through the queue. -/
theorem Request.idle_begin {q : Request} (h_tab : q.tabID ≠ "") : q.begin.work = .idle := by
  rw [Request.begin, if_neg h_tab]

/-- `ExecuteOperation` calls its function, which is `RunTab` for a request with a tab. -/
theorem Coherent.invokes (hC : Coherent s r) (h_phase : (s.requests r).phase = .executing)
    (he : Operations.enabled s.operations (.invoke r)) :
    Coherent (next lib s (.invoke r)) r := by
  have h_outside : s.operations.phase r ≠ .outside := by
    rw [Operations.enabled_invoke.mp he]
    rintro ⟨⟩
  refine hC.operates rfl he h_outside rfl (requests_next_self rfl) rfl rfl rfl rfl
    (fun _ => by rw [h_phase]; rfl) fun h_work h_tab => ?_
  exact absurd (Request.idle_begin h_tab) h_work

/-- The same without an operation. -/
theorem Coherent.calls (hC : Coherent s r) (h_phase : (s.requests r).phase = .prepared) :
    Coherent (next lib s (.call r)) r := by
  obtain ⟨h_outside, -, -⟩ := hC.early (by rw [h_phase]; rfl)
  refine hC.proceeds (requests_next_self rfl) rfl rfl rfl rfl (fun _ => by rw [h_phase]; rfl)
    (fun h => ?_) fun h_work h_tab => ?_
  · rw [operations_next_none rfl] at h
    exact absurd h_outside h
  · exact absurd (Request.idle_begin h_tab) h_work

/-- `ExecuteOperation` is told what the function has returned. -/
theorem Coherent.finishes {outcome : Outcome Json} (hC : Coherent s r)
    (h_phase : (s.requests r).phase = .called outcome)
    (h_operation : ∀ e' ∈ operationEvent s (.finish r), Operations.enabled s.operations e') :
    Coherent (next lib s (.finish r)) r := by
  have h_event : operationEvent s (.finish r) = some (.finish r outcome) := by
    rw [operationEvent, h_phase]
  have h_enabled := h_operation _ h_event
  have h_outside : s.operations.phase r ≠ .outside := by
    rw [Operations.enabled_finish.mp h_enabled]
    rintro ⟨⟩
  exact hC.operates h_event h_enabled h_outside rfl (requests_next_self rfl) rfl rfl rfl rfl
    (fun _ => by rw [h_phase]; rfl) fun h _ => h

/-- A step of a call that is in the queue already. -/
theorem Coherent.queuesInside (hC : Coherent s r) {q' : TabQueue.Event κ Json}
    (h_event : queueEvent s e = some (r, q'))
    (he : TabQueue.enabled (s.queues (s.requests r).tabID) q') (h_caller : q'.caller = some r)
    (h_enter : q' ≠ .enter r) (h_operation : operationEvent s e = none)
    (h_request : requestEvent lib s e = none) : Coherent (next lib s e) r :=
  hC.queues h_event he h_operation (hC.late_of_queue (entered_of_enabled he h_caller h_enter))
    h_request

/-- The queue calls the function, which begins to work. -/
theorem Coherent.runs (hC : Coherent s r)
    (he : TabQueue.enabled (s.queues (s.requests r).tabID) (.invoke r)) :
    Coherent (next lib s (.run r)) r := by
  have h_late := hC.late_of_queue (entered_of_enabled he rfl (by rintro ⟨⟩))
  have h_self : (next lib s (.run r)).requests r =
      { s.requests r with work := (s.requests r).firstWork } := requests_next_self rfl
  refine hC.proceeds h_self rfl rfl rfl h_late id (fun h => ?_) fun _ _ => ?_
  · rw [operations_next_none rfl] at h ⊢
    exact hC.arguments h
  · rw [queuePhase_next_some rfl (by rw [h_self]; rfl)]
    rw [TabQueue.next, TabQueue.State.phase_setPhase]
    rfl

/-- The queue is told what the function has returned. -/
theorem Coherent.leaves {outcome : Outcome Json} {dispatched : Bool} (hC : Coherent s r)
    (h_work : (s.requests r).work = .done outcome dispatched)
    (h_queue : ∀ p ∈ queueEvent s (.leave r),
      TabQueue.enabled (s.queues (s.requests p.1).tabID) p.2) :
    Coherent (next lib s (.leave r)) r := by
  have h_event : queueEvent s (.leave r) = some (r, .finish r outcome) := by
    rw [queueEvent, h_work]
  exact hC.queuesInside h_event (h_queue _ h_event) rfl (by rintro ⟨⟩) rfl rfl

/-- The outcome of `RunTab` is what the request has been called with. -/
theorem Coherent.finishesCall {outcome : Outcome Json} (hC : Coherent s r)
    (h_phase : (s.requests r).phase = .calling) (h_outcome : s.runTabOutcome r = some outcome) :
    Coherent (next lib s (.finishCall r)) r := by
  have h_event : requestEvent lib s (.finishCall r) = some (r, (s.requests r).setPhase
      (.called (reportEffect (s.requests r).method (s.requests r).params
        (s.requests r).dispatched outcome))) := by
    rw [requestEvent, h_outcome]
  exact hC.ends h_event rfl rfl rfl fun _ => by rw [h_phase]; rfl

/-- The answer is that of the call, or of the operation. -/
theorem Coherent.responds (hC : Coherent s r) (h_takes : takes s (.respond r)) :
    Coherent (next lib s (.respond r)) r := by
  rcases takes_respond.mp h_takes with
    ⟨⟨outcome, h_phase⟩, -⟩ | ⟨h_phase, outcome, replayed, h_result⟩
  · have h_event : requestEvent lib s (.respond r) =
        some (r, (s.requests r).setPhase (.answered outcome)) := by
      rw [requestEvent, h_phase]
    exact hC.ends h_event rfl rfl rfl fun h => absurd h Bool.false_ne_true
  · have h_event : requestEvent lib s (.respond r) = some (r, (s.requests r).setPhase
        (.answered (operationAnswer (s.requests r).operationID outcome replayed))) := by
      rw [requestEvent, h_phase, h_result]
    exact hC.ends h_event rfl rfl rfl fun h => absurd h Bool.false_ne_true

end OneByOne

/-- **A step keeps the parts of a request together**: its own steps by the lemma about each of them,
and those of other requests because they do not move it. -/
theorem Coherent.step {s : State κ} {e : Event κ} {r : κ} (hC : Coherent s r)
    (he : enabled s e) : Coherent (next lib s e) r := by
  by_cases h_request : e.request? = some r
  -- the parts of other requests do not move
  case neg => exact hC.of_ne h_request
  obtain ⟨h_takes, h_operation, h_queue⟩ := he
  cases e with
  | command k now => contradiction
  -- the client
  | arrive d method params =>
    cases h_request
    have h_phase := (takes_arrive.mp h_takes).1
    exact hC.checks (by rw [h_phase]; rfl) rfl rfl (by rintro _ ⟨⟩) (.refl params) rfl
      fun h => absurd h Bool.false_ne_true
  | clientGone d =>
    cases h_request
    exact hC.of_aside (s.requests r).handler true rfl rfl rfl
  -- the checks
  | screen d now =>
    cases h_request
    exact hC.screens (takes_screen.mp h_takes)
  | getSession d =>
    cases h_request
    have h_phase := takes_getSession.mp h_takes
    exact hC.passes (by rw [h_phase]; rfl) rfl rfl (by rintro _ ⟨⟩)
      fun _ h => absurd h Bool.false_ne_true
  | requireCapability d =>
    cases h_request
    have h_phase := takes_requireCapability.mp h_takes
    exact hC.passes (by rw [h_phase]; rfl) rfl rfl (by rintro _ ⟨⟩)
      fun _ h => absurd h Bool.false_ne_true
  | validateLease d now =>
    cases h_request
    exact hC.validates (takes_validateLease.mp h_takes).1
  | renewLease d now =>
    cases h_request
    exact hC.renews (takes_renewLease.mp h_takes)
  | prepare d files =>
    cases h_request
    exact hC.prepares (takes_prepare.mp h_takes)
  -- `ExecuteOperation`
  | execute d now =>
    cases h_request
    exact hC.executes (takes_execute.mp h_takes).1
  | giveUp d message =>
    cases h_request
    have h_enabled := h_operation _ rfl
    obtain ⟨c, h_wait⟩ := Operations.enabled_ctxDone.mp h_enabled
    exact hC.operatesAlone rfl h_enabled (by rw [h_wait]; rintro ⟨⟩) rfl rfl
  | replay d =>
    cases h_request
    have h_enabled := h_operation _ rfl
    obtain ⟨c, h_wait, -⟩ := Operations.enabled_takeDone.mp h_enabled
    exact hC.operatesAlone rfl h_enabled (by rw [h_wait]; rintro ⟨⟩) rfl rfl
  | invoke d =>
    cases h_request
    exact hC.invokes (takes_invoke.mp h_takes) (h_operation _ rfl)
  | finish d =>
    cases h_request
    obtain ⟨⟨outcome, h_phase⟩, -⟩ := takes_finish.mp h_takes
    exact hC.finishes h_phase h_operation
  | record d now =>
    cases h_request
    have h_enabled := h_operation _ rfl
    obtain ⟨outcome, h_ended⟩ := Operations.enabled_record.mp h_enabled
    exact hC.operatesAlone rfl h_enabled (by rw [h_ended]; rintro ⟨⟩) rfl rfl
  | call d =>
    cases h_request
    exact hC.calls (takes_call.mp h_takes).1
  -- the queue
  | enter d =>
    cases h_request
    obtain ⟨h_phase, -⟩ := takes_enter.mp h_takes
    exact hC.queues rfl (h_queue _ rfl) rfl (by rw [h_phase]; rfl) rfl
  | callerDone d message =>
    cases h_request
    exact hC.queuesInside rfl (h_queue _ rfl) rfl (by rintro ⟨⟩) rfl rfl
  | takeReady d =>
    cases h_request
    exact hC.queuesInside rfl (h_queue _ rfl) rfl (by rintro ⟨⟩) rfl rfl
  | quit d =>
    cases h_request
    exact hC.queuesInside rfl (h_queue _ rfl) rfl (by rintro ⟨⟩) rfl rfl
  | start d =>
    cases h_request
    exact hC.queuesInside rfl (h_queue _ rfl) rfl (by rintro ⟨⟩) rfl rfl
  | run d =>
    cases h_request
    exact hC.runs (h_queue _ rfl)
  | leave d =>
    cases h_request
    obtain ⟨outcome, dispatched, h_work⟩ := takes_leave.mp h_takes
    exact hC.leaves h_work h_queue
  | release d =>
    cases h_request
    exact hC.queuesInside rfl (h_queue _ rfl) rfl (by rintro ⟨⟩) rfl rfl
  -- the function and the extension
  | send d browserInstanceID =>
    cases h_request
    exact hC.works h_takes.1 _ _ (congrArg (fun q => some (r, q)) (Request.send_eq ..)) rfl rfl
  | refuse d failure =>
    cases h_request
    exact hC.works h_takes.1 _ _ (congrArg (fun q => some (r, q)) (Request.failBridge_eq ..)) rfl
      rfl
  | settle d outcome =>
    cases h_request
    exact hC.of_aside (.settled outcome) (s.requests r).clientGone rfl rfl rfl
  | receive d =>
    cases h_request
    exact hC.works h_takes.1 _ _ (congrArg (fun q => some (r, q)) (Request.receive_eq ..)) rfl rfl
  | abandon d failure =>
    cases h_request
    exact hC.works h_takes.1 _ _ (congrArg (fun q => some (r, q)) (Request.failBridge_eq ..)) rfl
      rfl
  -- the answer
  | finishCall d =>
    cases h_request
    obtain ⟨h_phase, outcome, h_outcome⟩ := takes_finishCall.mp h_takes
    exact hC.finishesCall h_phase h_outcome
  | respond d =>
    cases h_request
    exact hC.responds h_takes

omit [DecidableEq κ] in
theorem Coherent.init (r : κ) :
    Coherent ({ operations := { manager := .new leaseTTL } } : State κ) r where
  rewrites := .refl _
  early _ := ⟨rfl, rfl, fun _ => rfl⟩
  arguments h := absurd rfl h
  tab h := absurd h Bool.false_ne_true
  work h := absurd rfl h

/-- The parts of every request agree in every run. -/
theorem coherent {s : State κ} (hs : (machine lib leaseTTL).Reachable s) (r : κ) :
    Coherent s r :=
  hs.induction (P := fun s => Coherent s r) (Coherent.init r) fun _ _ _ hC he => hC.step he

/-! ### What a request keeps -/

/-- The request is still about the same. -/
structure Request.Kept (q q' : Request) : Prop where
  method : q'.method = q.method
  raw : q'.raw = q.raw

theorem Request.Kept.refl (q : Request) : q.Kept q := ⟨rfl, rfl⟩

/-- A check does not change what a request is about. -/
theorem Request.Kept.pass {q q' : Request} (h : q.Kept q') (phase : Phase)
    (rpcErr : Option RPCError) : q.Kept (q'.pass phase rpcErr) := by
  cases rpcErr <;> exact ⟨h.method, h.raw⟩

/-- A request is about the same from its arrival on. -/
theorem kept_of_requestEvent {s : State κ} {e : Event κ} {r : κ} {q : Request}
    (h : requestEvent lib s e = some (r, q)) :
    (∃ method params, e = .arrive r method params) ∨ (s.requests r).Kept q := by
  cases e with
  -- the only event that sets the method and the parameters anew
  | arrive d method params =>
    cases h
    exact .inl ⟨method, params, rfl⟩
  | screen d now =>
    cases h
    exact .inr (.pass (.refl _) _ _)
  | getSession d =>
    cases h
    exact .inr (.pass (.refl _) _ _)
  | requireCapability d =>
    cases h
    exact .inr (.pass (.refl _) _ _)
  | validateLease d now =>
    cases h
    exact .inr (.pass (.refl _) _ _)
  | renewLease d now =>
    cases h
    right
    split
    · exact ⟨rfl, rfl⟩
    · unfold Request.renewedBy
      split <;> exact ⟨rfl, rfl⟩
  -- the files are replaced by canonical ones
  | prepare d files =>
    cases h
    right
    unfold Request.prepare
    split
    · exact ⟨rfl, rfl⟩
    · next params _ =>
      have h_kept : (s.requests r).Kept { s.requests r with params } := ⟨rfl, rfl⟩
      exact h_kept.pass _ _
  | send d browserInstanceID =>
    cases h
    rw [Request.send_eq]
    exact .inr ⟨rfl, rfl⟩
  | refuse d failure =>
    cases h
    rw [Request.failBridge_eq]
    exact .inr ⟨rfl, rfl⟩
  | abandon d failure =>
    cases h
    rw [Request.failBridge_eq]
    exact .inr ⟨rfl, rfl⟩
  | receive d =>
    cases h
    rw [Request.receive_eq]
    exact .inr ⟨rfl, rfl⟩
  | finishCall d =>
    simp only [requestEvent] at h
    split at h
    · cases h
      exact .inr ⟨rfl, rfl⟩
    · contradiction
  -- the answer leaves the parameters alone
  | respond d =>
    simp only [requestEvent] at h
    split at h
    · cases h
      exact .inr ⟨rfl, rfl⟩
    · split at h
      · cases h
        exact .inr ⟨rfl, rfl⟩
      · contradiction
  | _ => cases h <;> exact .inr ⟨rfl, rfl⟩

variable {s : State κ} {e : Event κ} {r : κ}

/-- A request that has arrived is about the same after any step. -/
theorem kept_next (he : enabled s e) (h : (s.requests r).phase ≠ .outside) :
    (s.requests r).Kept ((next lib s e).requests r) := by
  cases h_event : requestEvent lib s e with
  | none =>
    rw [requests_next_none h_event]
    exact .refl _
  | some p =>
    obtain ⟨d, q⟩ := p
    -- Another request's step keeps this one as it is.
    by_cases h_eq : r = d
    · rw [← h_eq] at h_event
      rw [requests_next_self h_event]
      rcases kept_of_requestEvent h_event with ⟨method, params, rfl⟩ | h_kept
      · exact absurd (takes_arrive.mp he.1).1 h
      · exact h_kept
    · have h_ne : e.request? ≠ some r := by
        rw [request?_of_requestEvent lib h_event]
        exact fun h => h_eq (Option.some_inj.mp h).symm
      rw [requests_next_of_ne lib h_ne]
      exact .refl _

/-- The fields of a request that `forward` does not rewrite stay as they are. -/
theorem stringField_next (hC : Coherent s r) (he : enabled s e)
    (h : (s.requests r).phase ≠ .outside) {k : String} (hk : k ∉ rewrittenKeys) :
    stringField ((next lib s e).requests r).params k = stringField (s.requests r).params k := by
  have hC' : Coherent (next lib s e) r := hC.step he
  rw [hC'.rewrites.stringField hk, hC.rewrites.stringField hk, (kept_next he h).raw]
omit [DecidableEq κ] in
/-- A call with a record has entered `ExecuteOperation`. -/
theorem inside_of_hasRecord (h : (s.operations.phase r).hasRecord = true) :
    s.operations.phase r ≠ .outside := by
  intro h_outside
  rw [h_outside] at h
  contradiction

/-- A request that has entered `ExecuteOperation` has done so for good. -/
theorem entered_next (he : enabled s e) (h : s.operations.phase r ≠ .outside) :
    (next lib s e).operations.phase r ≠ .outside := by
  cases h_event : operationEvent s e with
  | none =>
    rw [operations_next_none h_event]
    exact h
  | some e' =>
    rw [operations_next_some h_event]
    exact Operations.entered_next lib.hash (he.2.1 e' h_event) h

/-- A request passes the same arguments to `ExecuteOperation` as before. -/
theorem arguments_next (hC : Coherent s r) (he : enabled s e)
    (h : s.operations.phase r ≠ .outside) :
    ((next lib s e).requests r).arguments = (s.requests r).arguments := by
  have hC' : Coherent (next lib s e) r := hC.step he
  have h_calls : ((next lib s e).operations.calls r).arguments =
      (s.operations.calls r).arguments := by
    cases h_event : operationEvent s e with
    | none => rw [operations_next_none h_event]
    | some e' =>
      rw [operations_next_some h_event]
      exact Operations.arguments_next (he.2.1 e' h_event) h
  rw [← hC'.arguments (entered_next he h), h_calls, hC.arguments h]

end BrowserControl.Server
