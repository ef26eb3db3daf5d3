import BrowserControl.Transition.Machine
import BrowserControl.Protocol.Error
import Mathlib.Logic.Function.Basic

/-!
# The tab queue

`TabQueue.machine` is the cancellable FIFO executor of one tab: any number of `run` calls
and `cancelAll` calls, interleaved at the points where the code takes or drops the lock of
the queue, or waits.

A `run` call passes through the phases of `Phase`. It takes the lock to enter
(`Event.enter`), where it either takes the slot or waits; a waiting call leaves its `select`
because its own context is done (`Event.callerDone`, after which `Event.quit` takes the lock
again) or because its channel is closed (`Event.takeReady`); then it takes the lock a second
time to compare generations (`Event.start`), calls `fn` (`Event.invoke`, `Event.finish`) and
gives the slot back (`Event.release`). What the environment chooses is in the event: which
branch of the `select` runs when both are open, the error of a context that is done, and
what `fn` returns.

A call is named by an element of `ι`. The names stand for the pointers to waiters, and
`activeCancel` holds the name of the call whose cancel function it is.
-/

namespace BrowserControl.Core

open Encoding Protocol Transition

/-- What a unit of browser work returns. -/
abbrev Outcome (ρ : Type*) := Except RPCError ρ

namespace TabQueue

/-! ### State -/

/-- The record a `run` call queues. -/
structure TabWaiter where
  /-- The channel `ready` is closed. -/
  ready : Bool := false
  generation : ℕ := 0
  granted : Bool := false
  err : Option RPCError := none

/-- Where a `run` call stands. -/
inductive Phase (ρ : Type*) where
  /-- It has not taken the lock yet. -/
  | outside
  /-- It waits in the `select`. -/
  | waiting
  /-- The `select` took the branch of the caller's context, whose error is `message`. -/
  | ctxDone (message : String)
  /-- It goes for the second critical section. -/
  | starting
  /-- Its cancel function is the active one; `fn` is not called yet. -/
  | activated
  /-- `fn` runs. -/
  | invoked
  /-- It goes for `release`, after which it returns `outcome`. -/
  | releasing (outcome : Outcome ρ)
  | returned (outcome : Outcome ρ)

/-- A `run` call. -/
structure Call (ρ : Type*) where
  phase : Phase ρ := .outside
  waiter : TabWaiter := {}
  /-- The cancel function of its run context was called. -/
  cancelled : Bool := false

/-- The queue and the calls on it. -/
structure State (ι ρ : Type*) where
  running : Bool := false
  /-- A counter that `cancelAll` increments. It has 64 bits in the code; a call reads it at
  two adjacent places, between which it does not come round. -/
  generation : ℕ := 0
  activeCancel : Option ι := none
  waiters : List ι := []
  calls : ι → Call ρ := fun _ => {}

variable {ι ρ : Type*} [DecidableEq ι]

namespace State

/-- The waiter of a call. -/
def waiter (s : State ι ρ) (c : ι) : TabWaiter := (s.calls c).waiter

/-- The phase of a call. -/
def phase (s : State ι ρ) (c : ι) : Phase ρ := (s.calls c).phase

/-- Replaces the record of a call. -/
def setCall (s : State ι ρ) (c : ι) (call : Call ρ) : State ι ρ :=
  { s with calls := Function.update s.calls c call }

/-- Moves a call to another phase. -/
def setPhase (s : State ι ρ) (c : ι) (phase : Phase ρ) : State ι ρ :=
  s.setCall c { s.calls c with phase }

/-- The waiters from the first one without an error on, to the first of which `release` gives
the slot. -/
def eligible (s : State ι ρ) : List ι :=
  s.waiters.dropWhile fun c => (s.waiter c).err.isSome

/-- The first critical section of `run`. -/
def enter (s : State ι ρ) (c : ι) : State ι ρ :=
  if s.running then
    { s with waiters := s.waiters ++ [c] }.setCall c
      { phase := .waiting, waiter := { generation := s.generation } }
  else
    { s with running := true }.setCall c
      { phase := .starting, waiter := { generation := s.generation, granted := true } }

/-- The error of a call whose generation is over when it starts. -/
def revokedBeforeRun : RPCError :=
  newError codeCancelled "CANCELLED" "tab control was revoked before the request ran" true .empty

/-- The error `cancelAll` leaves on a waiter. -/
def revoked (reason : String) : RPCError :=
  newError codeCancelled "CANCELLED" "tab control was revoked" true
    (.ofFields [("reason", .str reason)])

/-- A call whose channel is closed goes on. -/
def takeReady (s : State ι ρ) (c : ι) : State ι ρ :=
  match (s.waiter c).err with
  | some rpcErr => s.setPhase c (.returned (.error rpcErr))
  | none => s.setPhase c .starting

/-- A call whose caller is done leaves the queue, or gives back the slot it was granted. -/
def quit (s : State ι ρ) (c : ι) (message : String) : State ι ρ :=
  if (s.waiter c).granted then s.setPhase c (.releasing (.error (cancelledError message)))
  else
    { s with waiters := s.waiters.erase c }.setPhase c
      (.returned (.error (cancelledError message)))

/-- The second critical section of `run`. -/
def start (s : State ι ρ) (c : ι) : State ι ρ :=
  if (s.waiter c).generation = s.generation then
    { s with activeCancel := some c }.setPhase c .activated
  else
    s.setCall c
      { s.calls c with phase := .releasing (.error revokedBeforeRun), cancelled := true }

/-- `fn` has returned, and `run` has called the cancel function of its context. -/
def finish (s : State ι ρ) (c : ι) (outcome : Outcome ρ) : State ι ρ :=
  s.setCall c { s.calls c with phase := .releasing outcome, cancelled := true }

/-- `release`: hands the slot to the first eligible waiter, or leaves it free. -/
def release (s : State ι ρ) : State ι ρ :=
  match s.eligible with
  | [] => { s with activeCancel := none, waiters := [], running := false }
  | c :: rest =>
    { s with activeCancel := none, waiters := rest }.setCall c
      { s.calls c with waiter := { s.waiter c with granted := true, ready := true } }

/-- `cancelAll`: a new generation; the active call is cancelled and every waiter is removed
with an error. -/
def cancelAll (s : State ι ρ) (reason : String) : State ι ρ :=
  { s with
    generation := s.generation + 1
    waiters := []
    calls := fun c =>
      let call := s.calls c
      { call with
        cancelled := call.cancelled || s.activeCancel = some c
        waiter :=
          if c ∈ s.waiters then
            { call.waiter with err := some (revoked reason), ready := true }
          else call.waiter } }

end State

/-! ### The machine -/

/-- What can happen on a queue. -/
inductive Event (ι ρ : Type*) where
  | enter (c : ι)
  | callerDone (c : ι) (message : String)
  | takeReady (c : ι)
  | quit (c : ι)
  | start (c : ι)
  | invoke (c : ι)
  | finish (c : ι) (outcome : Outcome ρ)
  | release (c : ι)
  | cancelAll (reason : String)

/-- When an event can happen. -/
def enabled (s : State ι ρ) : Event ι ρ → Prop
  | .enter c => (s.phase c matches .outside)
  | .callerDone c _ => (s.phase c matches .waiting)
  | .takeReady c => (s.phase c matches .waiting) ∧ (s.waiter c).ready
  | .quit c => (s.phase c matches .ctxDone _)
  | .start c => (s.phase c matches .starting)
  | .invoke c => (s.phase c matches .activated)
  | .finish c _ => (s.phase c matches .invoked)
  | .release c => (s.phase c matches .releasing _)
  | .cancelAll _ => True

instance (s : State ι ρ) (e : Event ι ρ) : Decidable (enabled s e) := by
  cases e <;> unfold enabled <;> infer_instance

/-- What an event does. -/
def next (s : State ι ρ) : Event ι ρ → State ι ρ
  | .enter c => s.enter c
  -- `select` in `enter`: the context ends, or the slot becomes ready.
  | .callerDone c message => s.setPhase c (.ctxDone message)
  | .takeReady c => s.takeReady c
  | .quit c =>
    match s.phase c with
    | .ctxDone message => s.quit c message
    | _ => s
  | .start c => s.start c
  | .invoke c => s.setPhase c .invoked
  | .finish c outcome => s.finish c outcome
  | .release c =>
    match s.phase c with
    | .releasing outcome => (s.setPhase c (.returned outcome)).release
    | _ => s
  | .cancelAll reason => s.cancelAll reason

/-- The tab queue of one tab. -/
def machine (ι ρ : Type*) [DecidableEq ι] : Machine (State ι ρ) (Event ι ρ) where
  init := {}
  enabled := enabled
  next := next

/-! ### What a run has done -/

/-- The calls that have taken the queue lock, in the order in which they took it. -/
def enteredLog (es : List (Event ι ρ)) : List ι :=
  es.filterMap fun
    | .enter c => some c
    | _ => none

/-- The calls whose `fn` was called, in this order. -/
def invokedLog (es : List (Event ι ρ)) : List ι :=
  es.filterMap fun
    | .invoke c => some c
    | _ => none

/-- The calls that have given the slot back. -/
def givenLog (es : List (Event ι ρ)) : List ι :=
  es.filterMap fun
    | .release c => some c
    | _ => none

/-- The calls that take the slot at an event: the call that enters an idle queue, or the
waiter that `release` grants it to. -/
def takes (s : State ι ρ) : Event ι ρ → List ι
  | .enter c => if s.running then [] else [c]
  | .release _ => s.eligible.head?.toList
  | _ => []

/-- The calls that have taken the slot. -/
def takenLog (es : List (Event ι ρ)) : List ι := (machine ι ρ).log takes (machine ι ρ).init es

end TabQueue

end BrowserControl.Core
