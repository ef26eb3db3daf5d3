import BrowserControl.Core.CommandEffects
import BrowserControl.Core.TabQueue

/-!
# Operations

`Operations.machine` interleaves any number of `ExecuteOperation` calls with the other methods
of the manager. A call takes the lock twice: to look its operation id up and register a record
(`Event.execute`), and to complete the record once the callback has returned
(`Event.record`). In between the callback runs without the lock (`Event.invoke`,
`Event.finish`). A call that finds a running record of the same request waits for it, and
leaves its `select` because its own context is done (`Event.ctxDone`) or because the record is
done (`Event.takeDone`).

A call is named by an element of `κ`, which also names the record it registers. `hash` stands
for the hex digest of SHA-256. The parameters of a request were decoded from JSON, so encoding
them does not fail.
-/

namespace BrowserControl.Core

open Encoding Protocol Transition

namespace Operations

/-! ### State -/

/-- Where an `ExecuteOperation` call stands. -/
inductive Phase (κ : Type*) where
  | outside
  /-- It has returned an error without a record. -/
  | refused (rpcErr : RPCError)
  /-- It waits for the run of another call. -/
  | waiting (record : κ)
  /-- It was done waiting before the record was; `message` is the error of its context. -/
  | gaveUp (message : String)
  /-- It has returned what the record of another call says. -/
  | replayed (record : κ) (outcome : Outcome Json)
  /-- Its record is registered; the callback is not called yet. -/
  | admitted
  /-- The callback runs. -/
  | running
  /-- The callback has returned; the record is not completed yet. -/
  | ended (outcome : Outcome Json)
  /-- It has completed its record and returned. -/
  | recorded (outcome : Outcome Json)

/-- An `ExecuteOperation` call and its arguments. -/
structure Call (κ : Type*) where
  sessionID : String := ""
  tabID : String := ""
  operationID : String := ""
  request : Object := .empty
  phase : Phase κ := .outside

/-- The manager and the calls. -/
structure State (κ : Type*) where
  manager : Manager κ
  calls : κ → Call κ := fun _ => {}

variable {κ : Type*} [DecidableEq κ]

/-- The fingerprint of a request. -/
def fingerprint (hash : String → String) (request : Object) : String := hash request.encode

/-- The error for an id under which another request has been made. -/
def operationConflict (operationID : String) : RPCError :=
  newError codeOperationConflict "INVALID_REQUEST"
    "operationId was already used for a different request" false
    (.ofFields [("operationId", .str operationID)])

/-- The error of a call that has given up waiting. -/
def waitCancelled (operationID message : String) : RPCError :=
  newError codeCancelled "CANCELLED" message true
    (.ofFields [("operationId", .str operationID)])

/-- The error of an outcome. -/
def rpcError (outcome : Outcome Json) : Option RPCError :=
  match outcome with
  | .error rpcErr => some rpcErr
  | .ok _ => none

/-- The status a run ends with. -/
def statusOf (outcome : Outcome Json) : OperationStatus :=
  if errorKind (rpcError outcome) = "CONFIRMATION_REQUIRED" then .awaitingConfirmation
  else if errorKind (rpcError outcome) = "CANCELLED" then .cancelled
  else match outcome with
    | .error _ => .failed
    | .ok _ => .completed

/-- A completed record. -/
def complete (op : Operation) (now : Time) (outcome : Outcome Json) : Operation :=
  { op with
    result := match outcome with
      | .error _ => .null
      | .ok result => result
    err := rpcError outcome
    completedAt := now
    status := statusOf outcome
    done := true }

/-- What a call returns, and whether it says that the outcome is replayed. -/
def Call.result (call : Call κ) : Option (Outcome Json × Bool) :=
  match call.phase with
  | .refused rpcErr => some (.error rpcErr, false)
  | .gaveUp message => some (.error (waitCancelled call.operationID message), true)
  | .replayed _ outcome => some (outcome, true)
  | .recorded outcome => some (outcome, false)
  | _ => none

namespace State

/-- The phase of a call. -/
def phase (s : State κ) (c : κ) : Phase κ := (s.calls c).phase

/-- Replaces a call. -/
def setCall (s : State κ) (c : κ) (call : Call κ) : State κ :=
  { s with calls := Function.update s.calls c call }

/-- Moves a call to another phase. -/
def setPhase (s : State κ) (c : κ) (phase : Phase κ) : State κ :=
  s.setCall c { s.calls c with phase }

/-- Replaces the record of a call. -/
def setRecord (s : State κ) (c : κ) (op : Operation) : State κ :=
  { s with manager := { s.manager with records := Function.update s.manager.records c op } }

/-- Binds the operation id of a call to a new record. -/
def register (s : State κ) (hash : String → String) (c : κ) (now : Time) (call : Call κ) :
    State κ :=
  -- The record takes the place of one that waits for a confirmation, if there is one.
  { s with
    manager := { s.manager with
      operations := Function.update s.manager.operations call.operationID (some c) } }
    |>.setRecord c
      { id := call.operationID
        sessionID := call.sessionID
        tabID := call.tabID
        fingerprint := fingerprint hash call.request
        status := .running
        createdAt := now }
    |>.setCall c { call with phase := .admitted }

/-- The first critical section of `ExecuteOperation`, with what comes before it. -/
def execute (s : State κ) (hash : String → String) (c : κ) (now : Time) (call : Call κ) :
    State κ :=
  if call.operationID = "" then
    s.setCall c { call with phase := .refused (invalidParams "operationId is required" .empty) }
  else
    match s.manager.openSessionLocked call.sessionID with
    | .error rpcErr => s.setCall c { call with phase := .refused rpcErr }
    | .ok _ =>
      match s.manager.operations call.operationID with
      | none => s.register hash c now call
      | some r =>
        let existing := s.manager.records r
        if existing.sessionID ≠ call.sessionID ∨
            existing.fingerprint ≠ fingerprint hash call.request then
          s.setCall c { call with phase := .refused (operationConflict call.operationID) }
        else
          match existing.status with
          -- A call that was sent back for a confirmation runs anew.
          | .awaitingConfirmation => s.register hash c now call
          | .running => s.setCall c { call with phase := .waiting r }
          | _ => s.setCall c { call with phase := .replayed r existing.outcome }

/-- The callback has returned, and its context is cancelled. -/
def finish (s : State κ) (c : κ) (outcome : Outcome Json) : State κ :=
  s.setRecord c { s.manager.records c with cancelled := true } |>.setPhase c (.ended outcome)

/-- The second critical section of `ExecuteOperation`. -/
def record (s : State κ) (c : κ) (now : Time) (outcome : Outcome Json) : State κ :=
  s.setRecord c (complete (s.manager.records c) now outcome) |>.setPhase c (.recorded outcome)

end State

/-! ### The machine -/

/-- What can happen. -/
inductive Event (κ : Type*) where
  | execute (c : κ) (sessionID tabID operationID : String) (request : Object) (now : Time)
  | ctxDone (c : κ) (message : String)
  | takeDone (c : κ)
  | invoke (c : κ)
  /-- `outcome` is what the callback returns, where a panic counts as an internal error. -/
  | finish (c : κ) (outcome : Outcome Json)
  | record (c : κ) (now : Time)
  | command (k : Command) (now : Time)

/-- When an event can happen. -/
def enabled (s : State κ) : Event κ → Prop
  | .execute c _ _ _ _ _ => (s.phase c matches .outside)
  | .ctxDone c _ => (s.phase c matches .waiting _)
  | .takeDone c =>
    (match s.phase c with
      | .waiting r => (s.manager.records r).done
      | _ => false) = true
  | .invoke c => (s.phase c matches .admitted)
  | .finish c _ => (s.phase c matches .running)
  | .record c _ => (s.phase c matches .ended _)
  | .command k _ => k.Fresh s.manager

instance (s : State κ) (e : Event κ) : Decidable (enabled s e) := by
  cases e <;> unfold enabled <;> infer_instance

/-- What an event does. -/
def next (hash : String → String) (s : State κ) : Event κ → State κ
  | .execute c sessionID tabID operationID request now =>
    s.execute hash c now { sessionID, tabID, operationID, request }
  | .ctxDone c message => s.setPhase c (.gaveUp message)
  -- The outcome is read when the waiter wakes, from the record of the call it waits for.
  | .takeDone c =>
    match s.phase c with
    | .waiting r => s.setPhase c (.replayed r (s.manager.records r).outcome)
    | _ => s
  | .invoke c => s.setPhase c .running
  | .finish c outcome => s.finish c outcome
  | .record c now =>
    match s.phase c with
    | .ended outcome => s.record c now outcome
    | _ => s
  | .command k now => { s with manager := (k.run s.manager now).manager }

/-- Any number of `ExecuteOperation` calls on a manager. -/
def machine (hash : String → String) (leaseTTL : Duration) : Machine (State κ) (Event κ) where
  init := { manager := .new leaseTTL }
  enabled := enabled
  next := next hash

instance (hash : String → String) (leaseTTL : Duration) (s : State κ) (e : Event κ) :
    Decidable ((machine hash leaseTTL).enabled s e) := inferInstanceAs (Decidable (enabled s e))

end Operations

end BrowserControl.Core
