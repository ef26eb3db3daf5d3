import BrowserControl.Server.Forward

/-!
# The daemon

`Server.machine` runs any number of public requests through `Server.forward`. A request passes
its checks one after the other (`Phase`): those that look at the state of the manager are
critical sections of their own, between which anything can happen. A request with an operation
id then runs as an operation (`Operations`), its callback runs in the queue of its tab
(`TabQueue`), and the function that the queue runs sends the request over the bridge (`Work`);
`action.perform` sends a preflight before it.

The machine is a product. An event of a request moves the request itself and at most one of the
parts it shares: the manager with its operations (`operationEvent`) or the queue of its tab
(`queueEvent`). A critical section of the manager that cancels tab queues takes their locks
while it holds its own; since nobody sees the table of leases until the lock of the manager is
dropped, the section is one step here, with the queues cancelled in the same step
(`cancelledQueues`).

What the environment chooses is in the events: the requests that arrive and their order, the
commands of other clients and of the trusted side, when a client disconnects, what the file
system says about uploads, and for each message whether the bridge takes it, what its handler in
the extension answers and whether the daemon waits for the answer. What `tabOpen` and `tabClose`
do after `forward` (marking the tab as owned, releasing the lease) is a command as well.
-/

namespace BrowserControl.Server

open Encoding Protocol BrowserControl.Core Transition

/-! ### State -/

/-- Where a request stands in `forward`. -/
inductive Phase where
  | outside
  | arrived
  /-- What `tabOpen` and `tabClose` check before `forward` is checked. -/
  | screened
  /-- Its session exists. -/
  | identified
  /-- Its session holds the capability it needs. -/
  | permitted
  /-- Its lease is valid. -/
  | validated
  /-- Its lease is renewed. -/
  | renewed
  | prepared
  /-- It is in `ExecuteOperation`, outside the callback. -/
  | executing
  /-- It is in `RunTab`. -/
  | calling
  /-- `RunTab` has returned. -/
  | called (outcome : Outcome Json)
  | answered (outcome : Outcome Json)

/-- What the function that `RunTab` runs has done. -/
inductive Work where
  | idle
  /-- It is about to send the preflight. -/
  | preflight
  /-- It waits for the answer to the preflight it has sent with `params`. -/
  | preflighting (params : Object)
  /-- It is about to send the request. -/
  | ready (params : Object)
  /-- It waits for the answer to the request. -/
  | sent
  /-- It has returned; `dispatched` says whether it came to sending the request. -/
  | done (outcome : Outcome Json) (dispatched : Bool)

/-- A message is about to be sent. -/
def Work.isReady : Work → Bool
  | .preflight => true
  | .ready _ => true
  | _ => false

/-- An answer is waited for. -/
def Work.isWaiting : Work → Bool
  | .preflighting _ => true
  | .sent => true
  | _ => false

/-- The extension's handler of the last message of a request. -/
inductive Handler where
  | idle
  | running (method : String) (params : Object)
  | settled (outcome : Outcome Json)

/-- A public request. -/
structure Request where
  method : String := ""
  /-- The parameters as they were sent. -/
  raw : Object := .empty
  /-- The parameters as they were rewritten so far. -/
  params : Object := .empty
  phase : Phase := .outside
  work : Work := .idle
  handler : Handler := .idle
  /-- The connection of the client is closed. -/
  clientGone : Bool := false

/-- The parts of the daemon, and the handlers in the extension. -/
structure State (κ : Type*) where
  operations : Operations.State κ
  queues : String → TabQueue.State κ Json := fun _ => {}
  requests : κ → Request := fun _ => {}
  /-- The lease ids handed out so far. -/
  leaseIDs : List String := []

/-- The functions of Go's library that the model leaves open. -/
structure Library where
  /-- The hex digest of SHA-256. -/
  hash : String → String
  /-- The literal reads as a floating-point number that is not negative. -/
  notNegative : Number → Bool

namespace Request

variable (r : Request)

/-- The session that the request names. -/
def sessionID : String := stringField r.params "sessionId"

/-- The tab that it names. -/
def tabID : String := stringField r.params "tabId"

/-- The lease that it names. -/
def leaseID : String := stringField r.params "leaseId"

/-- The operation that it names. -/
def operationID : String := stringField r.params "operationId"

/-- The request changes its phase. -/
def setPhase (phase : Phase) : Request := { r with phase }

/-- The request is answered with an error. -/
def fail (rpcErr : RPCError) : Request := r.setPhase (.answered (.error rpcErr))

/-- The request goes on to another phase unless there is an error. -/
def pass (phase : Phase) : Option RPCError → Request
  | none => r.setPhase phase
  | some rpcErr => r.fail rpcErr

/-- The first thing the function does that `RunTab` runs. -/
def firstWork : Work := if r.method = "action.perform" then .preflight else .ready r.params

/-- `RunTab` begins; without a tab it runs the function at once. -/
def begin : Request :=
  { r with phase := .calling, work := if r.tabID = "" then r.firstWork else .idle }

/-- The lease fields the request lacks. -/
def missing : List String := missingFields r.sessionID r.tabID r.leaseID

/-- The lease is renewed: the parameters are bound to its Chrome instance. -/
def renewedBy (l : Lease) : Request :=
  match bindBrowser r.params r.tabID l with
  | .error rpcErr => r.fail rpcErr
  | .ok params => { r with params, phase := .renewed }

/-- `expectedDocumentEpoch` is there and reads as a number that is not negative. -/
def hasEpoch (lib : Library) : Bool :=
  match r.params.get "expectedDocumentEpoch" with
  | some (.num n) => lib.notNegative n
  | _ => false

/-- The parameters with the uploads; `files` is what `validateUploadFiles` says. -/
def uploads (files : Except RPCError (List String)) : Except RPCError Object :=
  if r.method = "fileChooser.setFiles" then files.map (canonicalFiles r.params)
  else .ok r.params

/-- The checks after the lease. -/
def prepare (lib : Library) (files : Except RPCError (List String)) : Request :=
  match r.uploads files with
  | .error rpcErr => r.fail rpcErr
  | .ok params =>
    { r with params }.pass .prepared (checkForwarded r.method params (r.hasEpoch lib))

/-- The message is written to the connection of the extension. -/
def send (browserInstanceID : String) : Request :=
  match r.work with
  | .preflight =>
    let params := preflightParams r.params browserInstanceID
    { r with work := .preflighting params, handler := .running "action.preflight" params }
  | .ready params => { r with work := .sent, handler := .running r.method params }
  | _ => r

/-- The function returns an error of the bridge. -/
def failBridge (failure : BridgeFailure) : Request :=
  match r.work with
  | .preflight => { r with work := .done (.error (failure.toError "action.preflight")) false }
  | .preflighting _ => { r with work := .done (.error (failure.toError "action.preflight")) false }
  | .ready _ => { r with work := .done (.error (failure.toError r.method)) true }
  | .sent => { r with work := .done (.error (failure.toError r.method)) true }
  | _ => r

/-- The function takes the answer of the extension. -/
def receive : Request :=
  match r.handler with
  | .settled outcome =>
    match r.work with
    -- The answer of the preflight decides the authorization, and then the action is sent.
    | .preflighting params =>
      match outcome with
      | .error rpcErr => { r with work := .done (.error rpcErr) false }
      | .ok answer =>
        match preflightObject answer with
        | none => { r with work := .done (.error invalidPreflight) false }
        | some preflight => { r with work := .ready (authorizedParams params preflight) }
    | .sent => { r with work := .done outcome true }
    | _ => r
  | _ => r

/-- The request itself was about to be sent when the function returned. -/
def dispatched : Bool :=
  match r.work with
  | .done _ dispatched => dispatched
  | _ => false

end Request

/-! ### Events -/

/-- What can happen. -/
inductive Event (κ : Type*) where
  | arrive (r : κ) (method : String) (params : Object)
  | clientGone (r : κ)
  /-- A command of another request, of the trusted side or of the janitor. -/
  | command (k : Command) (now : Time)
  -- The checks of `forward`.
  | screen (r : κ) (now : Time)
  | getSession (r : κ)
  | requireCapability (r : κ)
  | validateLease (r : κ) (now : Time)
  | renewLease (r : κ) (now : Time)
  | prepare (r : κ) (files : Except RPCError (List String))
  -- `ExecuteOperation`.
  | execute (r : κ) (now : Time)
  | giveUp (r : κ) (message : String)
  | replay (r : κ)
  | invoke (r : κ)
  | finish (r : κ)
  | record (r : κ) (now : Time)
  -- `RunTab`.
  | call (r : κ)
  | enter (r : κ)
  | callerDone (r : κ) (message : String)
  | takeReady (r : κ)
  | quit (r : κ)
  | start (r : κ)
  | run (r : κ)
  | leave (r : κ)
  | release (r : κ)
  | finishCall (r : κ)
  -- The bridge.
  | send (r : κ) (browserInstanceID : String)
  | refuse (r : κ) (failure : BridgeFailure)
  | settle (r : κ) (outcome : Outcome Json)
  | receive (r : κ)
  | abandon (r : κ) (failure : BridgeFailure)
  | respond (r : κ)

variable {κ : Type*} [DecidableEq κ]

namespace State

variable (s : State κ)

/-- The manager. -/
def manager : Manager κ := s.operations.manager

/-- The call of a request in the queue of its tab. -/
def queuePhase (r : κ) : TabQueue.Phase Json :=
  (s.queues (s.requests r).tabID).phase r

/-- The context of the callback of a request is done. -/
def ctxDone (r : κ) : Bool :=
  (s.requests r).clientGone ||
    ((s.requests r).operationID ≠ "" && (s.manager.records r).cancelled)

/-- The function that `RunTab` was given runs. -/
def working (r : κ) : Bool :=
  ((s.requests r).phase matches .calling) &&
    ((s.requests r).tabID = "" || (s.queuePhase r matches .invoked))

/-- What `RunTab` has returned. -/
def runTabOutcome (r : κ) : Option (Outcome Json) :=
  if (s.requests r).tabID = "" then
    match (s.requests r).work with
    | .done outcome _ => some outcome
    | _ => none
  else
    match s.queuePhase r with
    | .returned outcome => some outcome
    | _ => none

end State

/-- What an event does to the manager and its operations. -/
def operationEvent (s : State κ) : Event κ → Option (Operations.Event κ)
  | .command k now => some (.command k now)
  -- Only `tab.close` is checked against its lease this early.
  | .screen r now =>
    let q := s.requests r
    if q.method = "tab.close" then
      some (.command (.validateLease q.sessionID q.tabID q.leaseID) now)
    else none
  | .validateLease r now =>
    let q := s.requests r
    if q.missing = [] then
      some (.command (.validateLease q.sessionID q.tabID q.leaseID) now)
    else none
  -- A lifetime of 0: the usual one.
  | .renewLease r now =>
    let q := s.requests r
    some (.command (.renewLease q.sessionID q.tabID q.leaseID 0) now)
  | .execute r now =>
    let q := s.requests r
    some (.execute r q.sessionID q.tabID q.operationID (fingerprintParams q.params) now)
  | .giveUp r message => some (.ctxDone r message)
  | .replay r => some (.takeDone r)
  | .invoke r => some (.invoke r)
  | .finish r =>
    match (s.requests r).phase with
    | .called outcome => some (.finish r outcome)
    | _ => none
  | .record r now => some (.record r now)
  | _ => none

/-- What an event does to the queue of the tab of a request. -/
def queueEvent (s : State κ) : Event κ → Option (κ × TabQueue.Event κ Json)
  | .enter r => some (r, .enter r)
  | .callerDone r message => some (r, .callerDone r message)
  | .takeReady r => some (r, .takeReady r)
  | .quit r => some (r, .quit r)
  | .start r => some (r, .start r)
  | .run r => some (r, .invoke r)
  -- The function returns what the work ended with.
  | .leave r =>
    match (s.requests r).work with
    | .done outcome _ => some (r, .finish r outcome)
    | _ => none
  | .release r => some (r, .release r)
  | _ => none

/-- The queues that the critical section of an event cancels. -/
def cancelledQueues (s : State κ) (e : Event κ) (tab : String) : Option String :=
  match operationEvent s e with
  | some (.command k now) => (k.run s.manager now).cancelledQueues tab
  | _ => none

/-- What an event does to a request. -/
def requestEvent (lib : Library) (s : State κ) : Event κ → Option (κ × Request)
  | .arrive r method params =>
    some (r, { method, raw := params, params, phase := .arrived })
  | .clientGone r => some (r, { s.requests r with clientGone := true })
  | .command _ _ => none
  | .screen r now =>
    let q := s.requests r
    some (r, q.pass .screened <|
      if q.method = "tab.close" then
        (s.manager.validateLease now q.sessionID q.tabID q.leaseID).result
      else if q.method = "tab.open" then
        match s.manager.getSession q.sessionID with
        | .error rpcErr => some rpcErr
        | .ok _ => none
      else none)
  | .getSession r =>
    let q := s.requests r
    some (r, q.pass .identified <|
      if q.sessionID = "" then none
      else match s.manager.getSession q.sessionID with
        | .error rpcErr => some rpcErr
        | .ok _ => none)
  -- The checks in the order of `forward`; each ends the request if it fails.
  | .requireCapability r =>
    let q := s.requests r
    let capability := capabilityForRequest q.method q.params
    some (r, q.pass .permitted <|
      if capability = "" then none
      else if q.sessionID = "" then some (sessionRequired q.method)
      else s.manager.requireCapability q.sessionID capability)
  | .validateLease r now =>
    let q := s.requests r
    some (r, q.pass .validated <|
      if q.missing = [] then (s.manager.validateLease now q.sessionID q.tabID q.leaseID).result
      else some (missingFieldsError q.method q.missing))
  | .renewLease r now =>
    let q := s.requests r
    some (r, match (s.manager.renewLease now q.sessionID q.tabID q.leaseID 0).result with
      | .error rpcErr => q.fail rpcErr
      | .ok l => q.renewedBy l)
  | .prepare r files => some (r, (s.requests r).prepare lib files)
  | .execute r _ => some (r, (s.requests r).setPhase .executing)
  | .giveUp _ _ => none
  | .replay _ => none
  | .invoke r => some (r, (s.requests r).begin)
  | .finish r => some (r, (s.requests r).setPhase .executing)
  | .record _ _ => none
  | .call r => some (r, (s.requests r).begin)
  | .enter _ => none
  | .callerDone _ _ => none
  | .takeReady _ => none
  | .quit _ => none
  | .start _ => none
  | .run r => some (r, { s.requests r with work := (s.requests r).firstWork })
  | .leave _ => none
  | .release _ => none
  | .finishCall r =>
    let q := s.requests r
    match s.runTabOutcome r with
    | some outcome =>
      some (r, q.setPhase (.called (reportEffect q.method q.params q.dispatched outcome)))
    | none => none
  | .send r browserInstanceID => some (r, (s.requests r).send browserInstanceID)
  | .refuse r failure => some (r, (s.requests r).failBridge failure)
  | .settle r outcome => some (r, { s.requests r with handler := .settled outcome })
  | .receive r => some (r, (s.requests r).receive)
  | .abandon r failure => some (r, (s.requests r).failBridge failure)
  -- A call without an operation answers with its own outcome.
  | .respond r =>
    let q := s.requests r
    match q.phase with
    | .called outcome => some (r, q.setPhase (.answered outcome))
    | _ =>
      match (s.operations.calls r).result with
      | some (outcome, replayed) =>
        some (r, q.setPhase (.answered (operationAnswer q.operationID outcome replayed)))
      | none => none

/-- When a request takes an event. -/
def takes (s : State κ) : Event κ → Prop
  | .arrive r method _ => ((s.requests r).phase matches .outside) ∧ reachesForward method
  | .clientGone _ => True
  -- A command that makes a lease brings a new id for it.
  | .command k _ => ∀ id ∈ k.leaseID, id ∉ s.leaseIDs
  | .screen r _ => ((s.requests r).phase matches .arrived)
  | .getSession r => ((s.requests r).phase matches .screened)
  | .requireCapability r => ((s.requests r).phase matches .identified)
  | .validateLease r _ =>
    ((s.requests r).phase matches .permitted) ∧ requiresLease (s.requests r).method
  | .renewLease r _ => ((s.requests r).phase matches .validated)
  -- Methods that need no lease skip the checks of it.
  | .prepare r _ => ((s.requests r).phase matches .renewed) ∨
    ((s.requests r).phase matches .permitted) ∧ ¬ requiresLease (s.requests r).method
  | .execute r _ => ((s.requests r).phase matches .prepared) ∧ (s.requests r).operationID ≠ ""
  | .giveUp r _ => (s.requests r).clientGone
  | .replay _ => True
  | .invoke r => ((s.requests r).phase matches .executing)
  | .finish r => ((s.requests r).phase matches .called _) ∧ (s.requests r).operationID ≠ ""
  | .record _ _ => True
  | .call r => ((s.requests r).phase matches .prepared) ∧ (s.requests r).operationID = ""
  | .enter r => ((s.requests r).phase matches .calling) ∧ (s.requests r).tabID ≠ ""
  | .callerDone r _ => s.ctxDone r
  | .takeReady _ => True
  | .quit _ => True
  | .start _ => True
  | .run _ => True
  | .leave r => ((s.requests r).work matches .done _ _)
  | .release _ => True
  | .finishCall r => ((s.requests r).phase matches .calling) ∧ (s.runTabOutcome r).isSome
  | .send r _ => s.working r ∧ (s.requests r).work.isReady
  | .refuse r _ => s.working r ∧ (s.requests r).work.isReady
  -- The extension settles its handler when it likes, whether somebody still waits or not.
  | .settle r _ => ((s.requests r).handler matches .running _ _)
  | .receive r =>
    s.working r ∧ (s.requests r).work.isWaiting ∧ ((s.requests r).handler matches .settled _)
  | .abandon r _ => s.working r ∧ (s.requests r).work.isWaiting
  | .respond r =>
    (((s.requests r).phase matches .called _) ∧ (s.requests r).operationID = "") ∨
      (((s.requests r).phase matches .executing) ∧ ((s.operations.calls r).result).isSome)

instance (s : State κ) (e : Event κ) : Decidable (takes s e) := by
  cases e <;> unfold takes <;> infer_instance

/-! ### The machine -/

/-- When an event can happen: all parts it moves take it. -/
def enabled (s : State κ) (e : Event κ) : Prop :=
  takes s e ∧ (∀ e' ∈ operationEvent s e, Operations.enabled s.operations e') ∧
    ∀ q ∈ queueEvent s e, TabQueue.enabled (s.queues (s.requests q.1).tabID) q.2

instance (s : State κ) (e : Event κ) : Decidable (enabled s e) :=
  inferInstanceAs (Decidable (_ ∧ _ ∧ _))

/-- The queues after an event. -/
def nextQueues (s : State κ) (e : Event κ) (tab : String) : TabQueue.State κ Json :=
  match queueEvent s e with
  | some (r, q) =>
    if (s.requests r).tabID = tab then TabQueue.next (s.queues tab) q else s.queues tab
  | none =>
    match cancelledQueues s e tab with
    | some reason => (s.queues tab).cancelAll reason
    | none => s.queues tab

/-- What an event does. -/
def next (lib : Library) (s : State κ) (e : Event κ) : State κ where
  operations := match operationEvent s e with
    | some e' => Operations.next lib.hash s.operations e'
    | none => s.operations
  queues := nextQueues s e
  requests := match requestEvent lib s e with
    | some (r, q) => Function.update s.requests r q
    | none => s.requests
  leaseIDs := match e with
    | .command k _ => k.leaseID.toList ++ s.leaseIDs
    | _ => s.leaseIDs

/-- The daemon with any number of public requests. -/
def machine (lib : Library) (leaseTTL : Duration) : Machine (State κ) (Event κ) where
  init := { operations := { manager := .new leaseTTL } }
  enabled := enabled
  next := next lib

instance (lib : Library) (leaseTTL : Duration) (s : State κ) (e : Event κ) :
    Decidable ((machine lib leaseTTL).enabled s e) := inferInstanceAs (Decidable (enabled s e))

/-! ### A request from end to end -/

/-- The number 1. -/
def one : Number where
  literal := ['1']
  nonempty := List.cons_ne_nil _ _
  chars _ h := by rw [List.mem_singleton.mp h]; rfl

/-- The parameters of a request on the lease `lease_1` for the tab `7`. -/
def sampleParams (operationID : String) : Object :=
  .ofFields [("sessionId", .str "ses_1"), ("tabId", .str "7"), ("leaseId", .str "lease_1"),
    ("operationId", .str operationID), ("expectedDocumentEpoch", .num one)]

/-- The text that is recorded for these parameters. -/
def sampleText (operationID : String) : String :=
  "\x7b\"browserInstanceId\":\"chrome_1\",\"expectedDocumentEpoch\":1," ++
    "\"leaseId\":\"lease_1\",\"operationId\":\"" ++ operationID ++
    "\",\"sessionId\":\"ses_1\",\"tabId\":\"7\"\x7d"

/-- SHA-256 on these texts. -/
def sampleHash (text : String) : String :=
  if text = sampleText "op_1" then
    "4c7d7afc77699befbb59f51faa09d872fd13d95c9b146615f8754515c5a87a66"
  else if text = sampleText "op_2" then
    "048ee0a4fbcb7f5e15660f31d940815701b808a34185f5b542ab0cededf2df6e"
  else ""

/-- A library for samples. -/
def sampleLibrary : Library := ⟨sampleHash, fun _ => true⟩

/-- A session claims the tab. -/
def opening : List (Event κ) :=
  [.command (.openSession "ses_1" "" "") 0, .command (.claimTab "lease_1" "ses_1" "7" 0 false) 0,
    .command (.bindLeaseBrowser "ses_1" "7" "lease_1" "chrome_1") 0]

/-- The checks of a request, up to its fingerprint. -/
def checks (r : κ) (method operationID : String) : List (Event κ) :=
  [.arrive r method (sampleParams operationID), .screen r 1, .getSession r, .requireCapability r,
    .validateLease r 1, .renewLease r 1, .prepare r (.ok [])]

/-- The callback of a request takes the slot of the tab and is called. -/
def entry (r : κ) : List (Event κ) := [.invoke r, .enter r, .start r, .run r]

/-- The request crosses the bridge and its answer comes back. -/
def exchange (r : κ) : List (Event κ) := [.send r "", .settle r (.ok .null), .receive r]

/-- The callback returns and the request is answered. -/
def completion (r : κ) : List (Event κ) :=
  [.leave r, .release r, .finishCall r, .finish r, .record r 2, .respond r]

/-- One request is sent and another one waits for it. -/
def queued : List (Event (Fin 2)) :=
  opening ++ .command (.openSession "ses_2" "" "") 0 :: checks 0 "tab.reload" "op_1" ++
    .execute 0 1 :: entry 0 ++ .send 0 "" :: checks 1 "tab.reload" "op_2" ++
    [.execute 1 1, .invoke 1, .enter 1]

/-- The first request is answered and the second one goes on. -/
def resumed : List (Event (Fin 2)) :=
  [.settle 0 (.ok .null), .receive 0, .leave 0, .release 0, .takeReady 1]

example : (machine sampleLibrary 0).Runs (machine sampleLibrary 0).init
    (opening ++ checks 0 "tab.back" "op_1" ++ .execute 0 1 :: entry 0 ++ exchange 0 ++
      completion 0 : List (Event ℕ)) := by
  decide +kernel

end BrowserControl.Server
