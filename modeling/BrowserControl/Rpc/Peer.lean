import BrowserControl.Protocol.Error
import BrowserControl.Transition.Machine
import Mathlib.Data.List.DropRight
import Mathlib.Logic.Function.Basic

/-!
# A peer of the wire protocol

`Peer.machine` is one end of a connection: any number of `Call`s, the read loop `Serve`, which
hands responses to the calls they are for, and `Close`. A call registers a channel under the text
of its id, writes its request, and waits for its context, for the end of the peer or for the
channel. Whoever takes the channel from the table may send to it: `Serve` takes one and sends
after it has dropped the lock of the table, `Close` takes all of them and sends while it holds
it.

The channel of a call has room for one value; it is `Call.waiter`. Whether a write fails, when
contexts end and what comes over the connection is up to the environment. Requests, responses and
notifications are written under one lock. Anyone may call `Close` at any time, and two have to:
a writer whose write has failed, while it still has the lock, and the read loop when it returns.
-/

namespace BrowserControl.Rpc

open Encoding Protocol Transition

/-! ### Messages -/

/-- The text of a JSON value. -/
abbrev RawMessage := List Char

/-- The space characters of Unicode. -/
def isSpace (c : Char) : Bool :=
  c.toNat ∈ [0x09, 0x0a, 0x0b, 0x0c, 0x0d, 0x20, 0x85, 0xa0, 0x1680, 0x2028, 0x2029, 0x202f, 0x205f,
    0x3000] || (0x2000 ≤ c.toNat && c.toNat ≤ 0x200a)

/-- `IDKey`: the text of an id without the space around it. -/
def idKey (id : RawMessage) : RawMessage := (id.dropWhile isSpace).rdropWhile isSpace

/-- A response as it is on the wire. -/
structure Response where
  jsonrpc : String
  id : RawMessage
  result : RawMessage
  error : Option RPCError

/-- What the read loop reads of a message; the text of what is missing is empty. -/
structure Header where
  jsonrpc : String
  id : RawMessage
  method : String
  result : RawMessage
  error : Option RPCError

/-- The response that a message is. -/
def Header.response (header : Header) : Response where
  jsonrpc := header.jsonrpc
  id := header.id
  result := header.result
  error := header.error

/-- What the decoder finds next. -/
inductive Incoming where
  | envelope (header : Header)
  /-- A JSON value that is no envelope. -/
  | badEnvelope
  /-- The other side or this one has closed the connection. -/
  | eof
  | badJSON (message : String)

/-- The message gets an error response from the read loop: it is no envelope, or it is a request
with an id that is not valid. The id of a message that has been decoded is valid JSON. -/
def Incoming.refused : Incoming → Bool
  | .envelope header => header.method ≠ "" ∧ header.jsonrpc ≠ "2.0" ∧ header.id ≠ []
  | .badEnvelope => true
  | _ => false

/-- The response of a message that has no method and has an id. -/
def Incoming.response : Incoming → Option Response
  | .envelope header =>
    if header.method ≠ "" then none
    else if header.id = [] then none
    else some header.response
  | _ => none

/-- The text of the id of a call: `"peer-1"` and so on. -/
def idRaw (id : ℕ) : RawMessage := (Json.str ("peer-" ++ Nat.repr id)).encode

/-! ### State -/

namespace Peer

/-- The errors with which `Call` returns. -/
inductive CallError where
  /-- The peer was closed. -/
  | closed
  /-- The error of the context of the call. -/
  | context (message : String)
  /-- The error of a read or a write. -/
  | connection (message : String)

/-- What the channel of a call is given. -/
abbrev CallResult := Except CallError Response

/-- Where a `Call` stands. -/
inductive Phase where
  | outside
  /-- It has taken an id. -/
  | numbered
  /-- Its channel is in the table. -/
  | registered
  /-- It has the lock of the writers, and the peer was not closed. -/
  | writing
  /-- Its write has failed, and it closes the peer. -/
  | failing (err : CallError)
  /-- It will delete its key and return an error. -/
  | unregistering (err : CallError)
  /-- It waits in its `select`. -/
  | waiting
  | returned (result : CallResult)

/-- A call of `Call`, with its context and its channel. -/
structure Call where
  id : ℕ := 0
  phase : Phase := .outside
  /-- The error of its context, once that is done. -/
  ctxErr : Option String := none
  /-- What the channel holds. -/
  waiter : Option CallResult := none

/-- Where the read loop stands. -/
inductive ServePhase (κ : Type*) where
  | reading
  /-- It has taken the channel of a call from the table. -/
  | delivering (c : κ) (response : Response)
  /-- It will write an error response, and returns after the last one. -/
  | replying (last : Bool)
  /-- It has the lock of the writers, and the peer was not closed. -/
  | writing (last : Bool)
  /-- Its write has failed, and it closes the peer. -/
  | failing (last : Bool)
  /-- It returns, and its deferred `Close` is not over. -/
  | closing
  | stopped

/-- Where `Close` stands, whose body runs once. -/
inductive ClosePhase (κ : Type*) where
  | open
  /-- The connection is closed. -/
  | closing
  /-- The channel `closed` is closed. -/
  | signalled
  /-- It holds the lock of the table, and the channel of a call that it has taken from it. -/
  | draining (hand : Option κ)
  | done

/-- Who holds the lock of the writers. -/
inductive Writer (κ : Type*) where
  | call (c : κ)
  | serve
  /-- The goroutine of a request, or of a notification. -/
  | other
  /-- Its write has failed, and it closes the peer. -/
  | otherFailing

/-- The peer, its calls, and its `Serve`. -/
structure State (κ : Type*) where
  nextID : ℕ := 0
  pending : List (RawMessage × κ) := []
  calls : κ → Call := fun _ => {}
  serve : ServePhase κ := .reading
  close : ClosePhase κ := .open
  writeMu : Option (Writer κ) := none
  serveErr : Option String := none

variable {κ : Type*}

namespace State

/-- Where a call is. -/
def phase (s : State κ) (c : κ) : Phase := (s.calls c).phase

/-- What its channel holds. -/
def waiter (s : State κ) (c : κ) : Option CallResult := (s.calls c).waiter

/-- The key of a call in the table. -/
def key (s : State κ) (c : κ) : RawMessage := idKey (idRaw (s.calls c).id)

/-- The channel `closed` is closed. -/
def closed (s : State κ) : Bool :=
  match s.close with
  | .open => false
  | .closing => false
  | _ => true

/-- Nobody holds the lock of the table for longer than a step. -/
def unlocked (s : State κ) : Bool :=
  match s.close with
  | .draining _ => false
  | _ => true

/-- `Err`. -/
def err (s : State κ) : CallError :=
  match s.serveErr with
  | some message => .connection message
  | none => .closed

/-- The first error is kept. -/
def setServeErr (s : State κ) (message : String) : State κ :=
  { s with serveErr := some (s.serveErr.getD message) }

/-- The call under a key in the table. -/
def lookup (s : State κ) (key : RawMessage) : Option κ :=
  (s.pending.find? fun entry => entry.1 = key).map Prod.snd

/-- A key leaves the table. -/
def delete (s : State κ) (key : RawMessage) : State κ :=
  { s with pending := s.pending.filter fun entry => entry.1 ≠ key }

variable [DecidableEq κ]

/-- One call changes. -/
def setCall (s : State κ) (c : κ) (call : Call) : State κ :=
  { s with calls := Function.update s.calls c call }

/-- One call comes to another phase. -/
def setPhase (s : State κ) (c : κ) (phase : Phase) : State κ :=
  s.setCall c { s.calls c with phase }

/-- A value is sent to the channel of a call. -/
def send (s : State κ) (c : κ) (result : CallResult) : State κ :=
  s.setCall c { s.calls c with waiter := some result }

end State

/-! ### The machine -/

/-- What can happen. -/
inductive Event (κ : Type*) where
  | call (c : κ)
  | register (c : κ)
  /-- The call takes the lock of the writers and looks whether the peer is closed. -/
  | check (c : κ)
  | write (c : κ) (err : Option String)
  /-- The call that has closed the peer goes on. -/
  | failed (c : κ)
  | unregister (c : κ)
  /-- The context of the call is done. -/
  | cancel (c : κ) (message : String)
  | ctxDone (c : κ)
  | closedDone (c : κ)
  | take (c : κ)
  /-- The read loop reads a message. -/
  | receive (incoming : Incoming)
  /-- The read loop sends to the channel it has taken. -/
  | deliver
  /-- The read loop takes the lock of the writers and looks whether the peer is closed. -/
  | reply
  | replied (err : Option String)
  /-- The read loop that has closed the peer goes on. -/
  | replyFailed
  /-- The deferred `Close` of the read loop is over. -/
  | stop
  /-- A response or a notification is written. -/
  | respond
  | responded (err : Option String)
  /-- The goroutine that has closed the peer drops the lock of the writers. -/
  | respondFailed
  | close
  | signal
  | drain
  | drainTake (key : RawMessage)
  | drainSend
  | drained

variable [DecidableEq κ]

/-- When an event can happen. -/
def enabled (s : State κ) : Event κ → Prop
  -- `Call`
  | .call c => (s.phase c matches .outside)
  | .register c => (s.phase c matches .numbered) ∧ s.unlocked = true
  | .check c => (s.phase c matches .registered) ∧ s.writeMu.isNone = true
  | .write c _ => (s.phase c matches .writing)
  | .failed c => (s.phase c matches .failing _) ∧ (s.close matches .done)
  | .unregister c => (s.phase c matches .unregistering _) ∧ s.unlocked = true
  | .cancel c _ => (s.calls c).ctxErr.isNone = true
  | .ctxDone c => (s.phase c matches .waiting) ∧ (s.calls c).ctxErr.isSome = true
  | .closedDone c => (s.phase c matches .waiting) ∧ s.closed = true
  | .take c => (s.phase c matches .waiting) ∧ (s.waiter c).isSome = true
  -- `Serve`; a response needs the lock of the table of pending calls
  | .receive incoming =>
    (s.serve matches .reading) ∧ (incoming.response.isSome = true → s.unlocked = true)
  | .deliver =>
    (match s.serve with
      | .delivering c _ => (s.waiter c).isNone
      | _ => false) = true
  | .reply => (s.serve matches .replying _) ∧ s.writeMu.isNone = true
  | .replied _ => (s.serve matches .writing _)
  | .replyFailed => (s.serve matches .failing _) ∧ (s.close matches .done)
  | .stop => (s.serve matches .closing) ∧ (s.close matches .done)
  -- the other writers: a handler's response or a notification
  | .respond => s.writeMu.isNone = true ∧ s.closed = false
  | .responded _ => (s.writeMu matches some .other)
  | .respondFailed => (s.writeMu matches some .otherFailing) ∧ (s.close matches .done)
  -- `Close`: first the signal, then the calls that wait are drained
  | .close => (s.close matches .open)
  | .signal => (s.close matches .closing)
  | .drain => (s.close matches .signalled)
  | .drainTake key => (s.close matches .draining none) ∧ (s.lookup key).isSome = true
  | .drainSend =>
    (match s.close with
      | .draining (some c) => (s.waiter c).isNone
      | _ => false) = true
  | .drained => (s.close matches .draining none) ∧ s.pending.isEmpty = true

instance (s : State κ) (e : Event κ) : Decidable (enabled s e) := by
  cases e <;> unfold enabled <;> infer_instance

/-- What the read loop does with a message. A request that is valid gets a goroutine of its own. -/
def receive (s : State κ) (incoming : Incoming) : State κ :=
  match incoming with
  -- `Serve` returns, and its deferred `Close` runs.
  | .eof => { s with serve := .closing }
  -- A message that cannot be read is answered, and `Serve` returns the error.
  | .badJSON message => { s.setServeErr message with serve := .replying true }
  | incoming =>
    if incoming.refused then { s with serve := .replying false }
    else
      match incoming.response with
      | none => s
      | some response =>
        match s.lookup (idKey response.id) with
        | none => s
        | some c => { s.delete (idKey response.id) with serve := .delivering c response }

/-- The read loop goes on after an error response. -/
def ServePhase.after (last : Bool) : ServePhase κ := if last then .closing else .reading

/-- What an event does. -/
def next (s : State κ) : Event κ → State κ
  | .call c =>
    { s with nextID := s.nextID + 1 }.setCall c
      { s.calls c with id := s.nextID + 1, phase := .numbered }
  | .register c =>
    { s.delete (s.key c) with pending := (s.key c, c) :: (s.delete (s.key c)).pending }.setPhase c
      .registered
  | .check c =>
    if s.closed then s.setPhase c (.unregistering .closed)
    else { s with writeMu := some (.call c) }.setPhase c .writing
  -- A write that fails closes the peer before the lock is dropped.
  | .write c err =>
    match err with
    | none => { s with writeMu := none }.setPhase c .waiting
    | some message => (s.setServeErr message).setPhase c (.failing (.connection message))
  | .failed c =>
    match s.phase c with
    | .failing err => { s with writeMu := none }.setPhase c (.unregistering err)
    | _ => s
  | .unregister c =>
    match s.phase c with
    | .unregistering err => (s.delete (s.key c)).setPhase c (.returned (.error err))
    | _ => s
  | .cancel c message => s.setCall c { s.calls c with ctxErr := some message }
  | .ctxDone c => s.setPhase c (.unregistering (.context ((s.calls c).ctxErr.getD "")))
  | .closedDone c => s.setPhase c (.returned (.error s.err))
  | .take c =>
    match s.waiter c with
    | some result => s.setCall c { s.calls c with waiter := none, phase := .returned result }
    | none => s
  | .receive incoming => receive s incoming
  -- The channel has room for one result, and the call's entry is gone: the send does not block.
  | .deliver =>
    match s.serve with
    | .delivering c response => { s with serve := .reading }.send c (.ok response)
    | _ => s
  | .reply =>
    match s.serve with
    | .replying last =>
      if s.closed then { s with serve := .after last }
      else { s with writeMu := some .serve, serve := .writing last }
    | _ => s
  | .replied err =>
    match s.serve with
    | .writing last =>
      match err with
      | none => { s with writeMu := none, serve := .after last }
      | some message => { s.setServeErr message with serve := .failing last }
    | _ => s
  | .replyFailed =>
    match s.serve with
    | .failing last => { s with writeMu := none, serve := .after last }
    | _ => s
  | .stop => { s with serve := .stopped }
  | .respond => { s with writeMu := some .other }
  -- `writeJSON` of a response: a failed write closes the peer as well.
  | .responded err =>
    match err with
    | none => { s with writeMu := none }
    | some message => { s.setServeErr message with writeMu := some .otherFailing }
  | .respondFailed => { s with writeMu := none }
  | .close => { s with close := .closing }
  | .signal => { s with close := .signalled }
  | .drain => { s with close := .draining none }
  -- `Close` takes the calls out one by one and sends each the error.
  | .drainTake key =>
    match s.lookup key with
    | some c => { s.delete key with close := .draining (some c) }
    | none => s
  | .drainSend =>
    match s.close with
    | .draining (some c) => { s with close := .draining none }.send c (.error .closed)
    | _ => s
  | .drained => { s with close := .done }

/-- One end of a connection. -/
def machine (κ : Type*) [DecidableEq κ] : Machine (State κ) (Event κ) where
  init := {}
  enabled := enabled
  next := next

instance (s : State κ) (e : Event κ) : Decidable ((machine κ).enabled s e) :=
  inferInstanceAs (Decidable (enabled s e))

end Peer

end BrowserControl.Rpc
