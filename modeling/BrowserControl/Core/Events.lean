import BrowserControl.Encoding.Json
import BrowserControl.Protocol.Error
import BrowserControl.Transition.Machine
import Mathlib.Algebra.Order.Ring.Int
import Mathlib.Logic.Function.Basic

/-!
# The event log

The manager numbers its events and keeps the last `eventLimit` of them. A consumer names the
number of the event it received last and gets what came after it: `ReplayEvents` returns what
the log holds, and `NextEvent` waits until there is something.

A consumer that waits parks on a channel that the next emission closes. It takes the channel
and looks at the log in one critical section, so no event comes in between.

* `Cursor` is about reading a list with increasing keys from some key on, a few at a time.
* `EventLog` is the log and the methods on it.
* `Events.machine` interleaves emissions with any number of consumers. Its state also has all
  the events that were emitted, to compare with what a consumer has received.
-/

namespace BrowserControl.Core

open Encoding Protocol Transition

/-! ### Reading by a cursor -/

namespace Cursor

variable {α : Type*} (key : α → ℕ)

/-- The elements up to a key. -/
def upTo (a : ℕ) (l : List α) : List α := l.filter fun x => key x ≤ a

/-- The elements beyond a key. -/
def beyond (a : ℕ) (l : List α) : List α := l.filter fun x => a < key x

/-- The key of the last element, or `a` if there is none. -/
def lastKey (a : ℕ) (l : List α) : ℕ := (l.getLast?.map key).getD a

variable {key} {a b : ℕ} {l l₁ l₂ : List α}

/-- Where the keys increase, the elements beyond a key come last. -/
theorem upTo_append_beyond (h : (l.map key).Pairwise (· < ·)) (a : ℕ) :
    upTo key a l ++ beyond key a l = l := by
  induction l with
  | nil => rfl
  | cons x l ih =>
    rw [List.map_cons, List.pairwise_cons] at h
    rw [upTo, beyond, List.filter_cons, List.filter_cons]
    -- The keys grow: the list is cut before the first key beyond `a`.
    by_cases h_x : key x ≤ a
    · rw [if_pos (decide_eq_true h_x), if_neg (by simpa using h_x), List.cons_append]
      exact congrArg (x :: ·) (ih h.2)
    · -- Everything that follows is beyond the key too.
      have h_beyond : ∀ y ∈ l, a < key y := fun y hy =>
        (not_le.mp h_x).trans (h.1 (key y) (List.mem_map_of_mem hy))
      have h_none : l.filter (fun y => key y ≤ a) = [] :=
        List.filter_eq_nil_iff.mpr fun y hy => by simpa using h_beyond y hy
      have h_all : l.filter (fun y => a < key y) = l :=
        List.filter_eq_self.mpr fun y hy => by simpa using h_beyond y hy
      rw [if_neg (by simpa using h_x), if_pos (by simpa using h_x), h_none, h_all, List.nil_append]

theorem upTo_append (a : ℕ) (l₁ l₂ : List α) :
    upTo key a (l₁ ++ l₂) = upTo key a l₁ ++ upTo key a l₂ := List.filter_append ..

theorem upTo_eq_self (h : ∀ x ∈ l, key x ≤ a) : upTo key a l = l :=
  List.filter_eq_self.mpr fun x hx => decide_eq_true (h x hx)

theorem upTo_eq_nil (h : ∀ x ∈ l, a < key x) : upTo key a l = [] :=
  List.filter_eq_nil_iff.mpr fun x hx => by simpa using h x hx

/-- What is among the first has a small key. -/
theorem mem_upTo {x : α} (h : x ∈ upTo key a l) : key x ≤ a :=
  of_decide_eq_true (List.mem_filter.mp h).2

/-- What is beyond has a greater key. -/
theorem mem_beyond {x : α} (h : x ∈ beyond key a l) : a < key x :=
  of_decide_eq_true (List.mem_filter.mp h).2

/-- **A read.** Whoever has read up to `a` and reads the next `k` elements has read up to the
last of them. -/
theorem upTo_read (h : (l.map key).Pairwise (· < ·)) (a k : ℕ) :
    upTo key a l ++ (beyond key a l).take k =
      upTo key (lastKey key a ((beyond key a l).take k)) l := by
  cases h_last : ((beyond key a l).take k).getLast? with
  | none =>
    rw [lastKey, h_last, List.getLast?_eq_none_iff.mp h_last, List.append_nil]
    rfl
  | some x =>
    -- The list falls into what was read before, what is read now, and the rest.
    obtain ⟨read, h_read⟩ := List.getLast?_eq_some_iff.mp h_last
    have h_split : l = upTo key a l ++ (beyond key a l).take k ++ (beyond key a l).drop k := by
      rw [List.append_assoc, List.take_append_drop, upTo_append_beyond h]
    have h_x : x ∈ (beyond key a l).take k := h_read ▸ List.mem_append_right read List.mem_cons_self
    have h_sorted := h
    rw [h_split, List.append_assoc, h_read, List.map_append, List.pairwise_append] at h_sorted
    obtain ⟨-, h_rest, -⟩ := h_sorted
    rw [List.map_append, List.pairwise_append, List.map_append, List.pairwise_append] at h_rest
    obtain ⟨⟨-, -, h_before⟩, -, h_after⟩ := h_rest
    -- Up to the last key read there are the first two parts, and nothing of the third.
    have h_old : upTo key (key x) (upTo key a l) = upTo key a l :=
      upTo_eq_self fun y hy => (mem_upTo hy).trans (mem_beyond (List.mem_of_mem_take h_x)).le
    have h_new : upTo key (key x) ((beyond key a l).take k) = (beyond key a l).take k := by
      refine upTo_eq_self fun y hy => ?_
      rw [h_read, List.mem_append, List.mem_singleton] at hy
      rcases hy with hy | rfl
      · exact (h_before (key y) (List.mem_map_of_mem hy) (key x)
          (List.mem_map_of_mem List.mem_cons_self)).le
      · exact le_rfl
    have h_later : upTo key (key x) ((beyond key a l).drop k) = [] :=
      upTo_eq_nil fun y hy => h_after (key x)
        (List.mem_append_right _ (List.mem_map_of_mem List.mem_cons_self)) (key y)
        (List.mem_map_of_mem hy)
    have h_all : upTo key (key x) l = upTo key a l ++ (beyond key a l).take k := by
      conv_lhs => rw [h_split]
      rw [upTo_append, upTo_append, h_old, h_new, h_later, List.append_nil]
    rw [lastKey, h_last, Option.map_some, Option.getD_some, h_all]

end Cursor

namespace Events

/-! ### The log -/

/-- An event of the daemon, as far as its filters look at it. -/
structure Event where
  seq : ℕ := 0
  /-- The time is filled in if it is not given. -/
  time : Option ℤ := none
  type : String
  sessionID : String := ""
  tabID : String := ""
  documentEpoch : Option ℕ := none
  payload : Option Json := none

/-- What a consumer asks for. A text or a list that is empty stands for everything. -/
structure EventFilter where
  afterSeq : ℕ := 0
  types : List String := []
  sessionID : String := ""
  tabID : String := ""

/-- The event is of the kind that is asked for. -/
def EventFilter.selects (filter : EventFilter) (event : Event) : Bool :=
  (filter.types = [] || event.type ∈ filter.types) &&
    (filter.sessionID = "" || event.sessionID = filter.sessionID) &&
    (filter.tabID = "" || event.tabID = filter.tabID)

/-- The event is one that is asked for. -/
def EventFilter.matches (filter : EventFilter) (event : Event) : Bool :=
  filter.afterSeq < event.seq && filter.selects event

/-- The log of the manager. A channel is named by the number of channels made before it. -/
structure EventLog where
  events : List Event
  nextEventSeq : ℕ
  eventSignal : ℕ
  closed : ℕ → Bool
  eventLimit : ℕ

namespace EventLog

/-- The log of a new manager. -/
def new (eventLimit : ℤ) : EventLog where
  events := []
  nextEventSeq := 0
  eventSignal := 0
  closed _ := false
  eventLimit := if eventLimit ≤ 0 then 1024 else eventLimit.toNat

/-- The event as it is stored. -/
def numbered (log : EventLog) (now : ℤ) (event : Event) : Event :=
  { event with seq := log.nextEventSeq + 1, time := some (event.time.getD now) }

/-- Only the last `eventLimit` events are kept. -/
def trim (log : EventLog) (events : List Event) : List Event :=
  if log.eventLimit < events.length then events.drop (events.length - log.eventLimit) else events

/-- An event gets its number, and everybody who waits is woken. -/
def emitLocked (log : EventLog) (now : ℤ) (event : Event) : EventLog :=
  { log with
    nextEventSeq := log.nextEventSeq + 1
    events := log.trim (log.events ++ [log.numbered now event])
    closed := Function.update log.closed log.eventSignal true
    eventSignal := log.eventSignal + 1 }

/-- The loop of `matchEventsLocked`, which ends when `result` has `limit` events. -/
def collect (filter : EventFilter) (limit : ℕ) : List Event → List Event → List Event
  | [], result => result
  | event :: events, result =>
    if filter.matches event then
      let result := result ++ [event]
      if result.length = limit then result else collect filter limit events result
    else collect filter limit events result

/-- The number of events that a call returns at most. -/
def clamp (log : EventLog) (limit : ℤ) : ℕ :=
  if limit ≤ 0 ∨ log.eventLimit < limit then log.eventLimit else limit.toNat

/-- The events that the filter lets through, up to a limit. -/
def matchEventsLocked (log : EventLog) (filter : EventFilter) (limit : ℤ) : List Event :=
  collect filter (log.clamp limit) log.events []

/-- The oldest events are dropped. -/
theorem trim_eq_drop (log : EventLog) (events : List Event) :
    log.trim events = events.drop (events.length - log.eventLimit) := by
  unfold trim
  split
  · rfl
  case isFalse h => rw [Nat.sub_eq_zero_of_le (not_lt.mp h), List.drop_zero]

/-- The loop returns the first events that match. -/
theorem collect_eq {filter : EventFilter} {limit : ℕ} {events result : List Event}
    (h : result.length < limit) :
    collect filter limit events result =
      result ++ (events.filter filter.matches).take (limit - result.length) := by
  induction events generalizing result with
  | nil => rw [collect, List.filter_nil, List.take_nil, List.append_nil]
  | cons event events ih =>
    rw [collect, List.filter_cons]
    split
    case isFalse => exact ih h
    -- the event is taken, and with it the limit may be reached
    case isTrue =>
      have h_take : limit - result.length = limit - (result ++ [event]).length + 1 := by
        rw [List.length_append, List.length_singleton]
        omega
      have h_more : result ++ (event :: events.filter filter.matches).take (limit - result.length) =
          result ++ [event] ++
            (events.filter filter.matches).take (limit - (result ++ [event]).length) := by
        rw [h_take, List.take_succ_cons, List.append_assoc, List.singleton_append]
      rw [h_more]
      dsimp only
      split
      case isTrue h_full =>
        rw [h_full, Nat.sub_self, List.take_zero, List.append_nil]
      case isFalse h_full =>
        refine ih ?_
        rw [List.length_append, List.length_singleton] at h_full ⊢
        omega

/-- A limit is never zero. -/
theorem clamp_pos {log : EventLog} (h : 0 < log.eventLimit) (limit : ℤ) : 0 < log.clamp limit := by
  unfold clamp
  split <;> omega

/-- The loop takes the first events that match. -/
theorem matchEventsLocked_eq {log : EventLog} (h : 0 < log.eventLimit) (filter : EventFilter)
    (limit : ℤ) : log.matchEventsLocked filter limit =
      (log.events.filter filter.matches).take (log.clamp limit) := by
  rw [matchEventsLocked, collect_eq (by exact clamp_pos h limit), List.nil_append,
    List.length_nil, Nat.sub_zero]

end EventLog

/-! ### The machine -/

/-- Where a consumer stands. -/
inductive Phase where
  | idle
  /-- `NextEvent` is called and will look at the log. -/
  | looking
  /-- `NextEvent` waits until the channel is closed or its context is done. -/
  | parked (signal : ℕ)
  deriving DecidableEq

/-- A consumer: what it asks for next and what it has received. -/
structure Consumer where
  filter : EventFilter
  phase : Phase := .idle
  received : List Event := []

/-- The log and its consumers, and all the events that were emitted. -/
structure State (ι : Type*) where
  log : EventLog
  consumers : ι → Consumer
  emitted : List Event := []

/-- What can happen. -/
inductive Step (ι : Type*) where
  /-- A method of the manager emits an event. -/
  | emit (event : Event) (now : ℤ)
  /-- A consumer calls `NextEvent`. -/
  | next (c : ι)
  /-- The critical section of `NextEvent`. -/
  | look (c : ι)
  | wake (c : ι)
  /-- The call returns a timeout. -/
  | ctxDone (c : ι)
  /-- A consumer calls `ReplayEvents`. -/
  | replay (c : ι) (limit : ℤ)

variable {ι : Type*} [DecidableEq ι]

/-- The consumer has received events, and asks for those after the last one. -/
def Consumer.receive (consumer : Consumer) (events : List Event) : Consumer where
  filter := { consumer.filter with
    afterSeq := Cursor.lastKey Event.seq consumer.filter.afterSeq events }
  phase := .idle
  received := consumer.received ++ events

/-- One consumer moves. -/
def State.setConsumer (s : State ι) (c : ι) (consumer : Consumer) : State ι :=
  { s with consumers := Function.update s.consumers c consumer }

theorem State.consumers_setConsumer_self (s : State ι) (c : ι) (consumer : Consumer) :
    (s.setConsumer c consumer).consumers c = consumer := Function.update_self ..

theorem State.consumers_setConsumer_of_ne (s : State ι) {c d : ι} (h : c ≠ d)
    (consumer : Consumer) : (s.setConsumer d consumer).consumers c = s.consumers c :=
  Function.update_of_ne h ..

/-- When a step can happen. -/
def enabled (s : State ι) : Step ι → Prop
  | .emit _ _ => True
  | .next c => (s.consumers c).phase = .idle
  | .look c => (s.consumers c).phase = .looking
  | .wake c =>
    (match (s.consumers c).phase with
      | .parked signal => s.log.closed signal
      | _ => false) = true
  | .ctxDone c => ((s.consumers c).phase matches .parked _)
  | .replay c _ => (s.consumers c).phase = .idle

instance (s : State ι) (e : Step ι) : Decidable (enabled s e) := by
  cases e <;> unfold enabled <;> infer_instance

/-- The critical section of `NextEvent`. -/
def look (s : State ι) (c : ι) : State ι :=
  match s.log.matchEventsLocked (s.consumers c).filter 1 with
  | event :: _ => s.setConsumer c ((s.consumers c).receive [event])
  | [] => s.setConsumer c { s.consumers c with phase := .parked s.log.eventSignal }

/-- What a step does. -/
def next (s : State ι) : Step ι → State ι
  | .emit event now =>
    { s with
      log := s.log.emitLocked now event
      emitted := s.emitted ++ [s.log.numbered now event] }
  | .next c => s.setConsumer c { s.consumers c with phase := .looking }
  | .look c => look s c
  | .wake c => s.setConsumer c { s.consumers c with phase := .looking }
  | .ctxDone c => s.setConsumer c { s.consumers c with phase := .idle }
  | .replay c limit =>
    s.setConsumer c ((s.consumers c).receive
      (s.log.matchEventsLocked (s.consumers c).filter limit))

/-- Consumers that start with the given filters, while events are emitted. -/
def machine (eventLimit : ℤ) (filters : ι → EventFilter) : Machine (State ι) (Step ι) where
  init := { log := .new eventLimit, consumers := fun c => { filter := filters c } }
  enabled := enabled
  next := next

instance (eventLimit : ℤ) (filters : ι → EventFilter) (s : State ι) (e : Step ι) :
    Decidable ((machine eventLimit filters).enabled s e) :=
  inferInstanceAs (Decidable (enabled s e))

/-- The consumer that a step looks at the log for. -/
def Step.looks : Step ι → Option ι
  | .look c => some c
  | .replay c _ => some c
  | _ => none

/-- Of the events a consumer asks for, none is so old that it has left the log: since the first
of them fewer than `eventLimit` events were emitted. -/
def InTime (s : State ι) (c : ι) : Prop :=
  ∀ event ∈ s.emitted, (s.consumers c).filter.matches event →
    s.log.nextEventSeq < event.seq + s.log.eventLimit

instance (s : State ι) (c : ι) : Decidable (InTime s c) :=
  inferInstanceAs (Decidable (∀ event ∈ s.emitted, _ → _))

/-- A consumer looks at the log in time. -/
def Timely (c : ι) (s : State ι) (e : Step ι) : Prop := e.looks = some c → InTime s c

instance (c : ι) (s : State ι) (e : Step ι) : Decidable (Timely c s e) :=
  inferInstanceAs (Decidable (_ → _))

/-! ### The log and what was emitted -/

variable {eventLimit : ℤ} {filters : ι → EventFilter} {s : State ι} {e : Step ι} {c : ι}

/-- The invariant of the log. -/
structure LogInv (s : State ι) : Prop where
  limit : 0 < s.log.eventLimit
  /-- The events are numbered as they are emitted. -/
  seqs : s.emitted.map Event.seq = List.range' 1 s.log.nextEventSeq
  /-- The log forgets the oldest events, and only when it is full. -/
  suffix : ∃ forgotten, s.emitted = forgotten ++ s.log.events ∧
    (forgotten ≠ [] → s.log.eventLimit ≤ s.log.events.length)
  /-- Each channel but the last is closed. -/
  channels : ∀ signal, s.log.closed signal = decide (signal < s.log.eventSignal)

/-- An event is added to the log. -/
theorem LogInv.emit (h : LogInv s) (event : Event) (now : ℤ) :
    LogInv (next s (.emit event now)) where
  limit := h.limit
  seqs := by
    show (s.emitted ++ [s.log.numbered now event]).map Event.seq =
      List.range' 1 (s.log.nextEventSeq + 1)
    rw [List.map_append, h.seqs, List.range'_concat, Nat.one_mul, Nat.add_comm]
    rfl
  suffix := by
    -- What is trimmed now comes after what was trimmed before.
    obtain ⟨forgotten, h_emitted, h_full⟩ := h.suffix
    let events := s.log.events ++ [s.log.numbered now event]
    let k := events.length - s.log.eventLimit
    refine ⟨forgotten ++ events.take k, ?_, fun h_some => ?_⟩
    · show s.emitted ++ [s.log.numbered now event] = _ ++ s.log.trim events
      rw [EventLog.trim_eq_drop, List.append_assoc, List.take_append_drop, h_emitted,
        List.append_assoc]
    · show s.log.eventLimit ≤ (s.log.trim events).length
      have h_length : events.length = s.log.events.length + 1 := List.length_append
      rw [EventLog.trim_eq_drop, List.length_drop]
      by_cases h_old : forgotten = []
      · have h_k : k ≠ 0 := by
          rintro h_zero
          rw [h_old, h_zero] at h_some
          exact h_some rfl
        omega
      · have h_limit := h_full h_old
        omega
  channels signal := by
    show Function.update s.log.closed s.log.eventSignal true signal = _
    -- The signal is closed, and the next one is open.
    by_cases h_signal : signal = s.log.eventSignal
    · rw [h_signal, Function.update_self]
      exact (decide_eq_true (Nat.lt_succ_self _)).symm
    · rw [Function.update_of_ne h_signal, h.channels]
      exact decide_eq_decide.mpr (by show _ ↔ signal < s.log.eventSignal + 1; omega)

/-- Consumers do not change the log. -/
theorem LogInv.setConsumer (h : LogInv s) (c : ι) (consumer : Consumer) :
    LogInv (s.setConsumer c consumer) := ⟨h.limit, h.seqs, h.suffix, h.channels⟩

/-- Every step keeps the invariant of the log. -/
theorem LogInv.next (h : LogInv s) (e : Step ι) : LogInv (next s e) := by
  cases e with
  | emit event now => exact h.emit event now
  | look c =>
    show LogInv (look s c)
    unfold look
    split <;> exact h.setConsumer c _
  | _ => exact h.setConsumer _ _

/-- The invariant of the log holds in every run. -/
theorem logInv (h : (machine eventLimit filters).Reachable s) : LogInv s := by
  refine h.induction ⟨?_, rfl, ⟨[], rfl, fun h => absurd rfl h⟩, fun _ => rfl⟩
    fun s e _ h_inv _ => h_inv.next e
  show 0 < if eventLimit ≤ 0 then 1024 else eventLimit.toNat
  split <;> omega

omit [DecidableEq ι] in
/-- The numbers of what is forgotten and of the log follow each other. -/
theorem LogInv.split (h : LogInv s) {forgotten : List Event}
    (h_emitted : s.emitted = forgotten ++ s.log.events) :
    forgotten.map Event.seq = List.range' 1 forgotten.length ∧
      s.log.events.map Event.seq = List.range' (1 + forgotten.length) s.log.events.length ∧
      forgotten.length + s.log.events.length = s.log.nextEventSeq := by
  have h_seqs := h.seqs
  have h_length := congrArg List.length h_seqs
  rw [h_emitted, List.length_map, List.length_append, List.length_range'] at h_length
  rw [h_emitted, List.map_append, ← h_length, ← List.range'_append_1] at h_seqs
  obtain ⟨h_old, h_new⟩ := List.append_inj h_seqs (by rw [List.length_map, List.length_range'])
  exact ⟨h_old, h_new, h_length⟩

omit [DecidableEq ι] in
/-- The numbers of the emitted events increase. -/
theorem LogInv.sorted (h : LogInv s) (p : Event → Bool) :
    ((s.emitted.filter p).map Event.seq).Pairwise (· < ·) := by
  have h_all : (s.emitted.map Event.seq).Pairwise (· < ·) := by
    rw [h.seqs]
    exact List.pairwise_lt_range'
  rw [List.pairwise_map] at h_all ⊢
  exact h_all.filter p

omit [DecidableEq ι] in
/-- The numbers of events are given in order. -/
theorem LogInv.seq_le (h : LogInv s) {event : Event} (h_mem : event ∈ s.emitted) :
    event.seq ≤ s.log.nextEventSeq := by
  have h_seq := List.mem_map_of_mem (f := Event.seq) h_mem
  rw [h.seqs, List.mem_range'_1] at h_seq
  omega

omit [DecidableEq ι] in
/-- What is forgotten is older than the last `eventLimit` events. -/
theorem LogInv.forgotten (h : LogInv s) {forgotten : List Event}
    (h_emitted : s.emitted = forgotten ++ s.log.events)
    (h_full : forgotten ≠ [] → s.log.eventLimit ≤ s.log.events.length) {event : Event}
    (h_mem : event ∈ forgotten) : event.seq + s.log.eventLimit ≤ s.log.nextEventSeq := by
  obtain ⟨h_old, -, h_length⟩ := h.split h_emitted
  have h_limit := h_full (List.ne_nil_of_mem h_mem)
  have h_seq := List.mem_map_of_mem (f := Event.seq) h_mem
  rw [h_old, List.mem_range'_1] at h_seq
  omega

omit [DecidableEq ι] in
/-- A consumer that is in time finds in the log whatever it asks for. -/
theorem InTime.filter_eq (h : InTime s c) (h_inv : LogInv s) :
    s.log.events.filter (s.consumers c).filter.matches =
      s.emitted.filter (s.consumers c).filter.matches := by
  obtain ⟨forgotten, h_emitted, h_full⟩ := h_inv.suffix
  have h_none : forgotten.filter (s.consumers c).filter.matches = [] := by
    refine List.filter_eq_nil_iff.mpr fun event h_mem h_match => ?_
    have h_recent := h event (h_emitted ▸ List.mem_append_left _ h_mem) h_match
    have h_old := h_inv.forgotten h_emitted h_full h_mem
    omega
  rw [h_emitted, List.filter_append, h_none, List.nil_append]

/-! ### The calls that wait -/

/-- A call that waits took the last channel there was, or the channel is closed; while it is
open there is nothing in the log for the call. -/
def Waits (s : State ι) (c : ι) : Prop :=
  ∀ signal, (s.consumers c).phase = .parked signal → signal ≤ s.log.eventSignal ∧
    (s.log.closed signal = false → ∀ event ∈ s.log.events, ¬ (s.consumers c).filter.matches event)

omit [DecidableEq ι] in
/-- Nothing is asked of a consumer that does not wait. -/
theorem Waits.of_not_parked (h : ∀ signal, (s.consumers c).phase ≠ .parked signal) : Waits s c :=
  fun signal h_parked => absurd h_parked (h signal)

/-- Steps of other consumers do not matter. -/
theorem Waits.setConsumer (h : Waits s c) {d : ι} {consumer : Consumer}
    (h_new : Waits (s.setConsumer d consumer) d) : Waits (s.setConsumer d consumer) c := by
  by_cases h_eq : c = d
  · rwa [h_eq]
  · have h_same : (s.setConsumer d consumer).consumers c = s.consumers c :=
      Function.update_of_ne h_eq ..
    intro signal h_parked
    rw [h_same] at h_parked ⊢
    exact h signal h_parked

/-- Whoever finds nothing parks, and nothing is what the log has. -/
theorem Waits.look (h : Waits s c) (h_inv : LogInv s) (d : ι) : Waits (look s d) c := by
  unfold Events.look
  split
  case h_1 event events h_found =>
    refine h.setConsumer (.of_not_parked fun signal => ?_)
    rw [State.consumers_setConsumer_self]
    rintro ⟨⟩
  case h_2 h_none =>
    refine h.setConsumer fun signal h_parked => ?_
    rw [State.consumers_setConsumer_self] at h_parked ⊢
    rw [EventLog.matchEventsLocked_eq h_inv.limit, List.take_eq_nil_iff] at h_none
    have h_filter := h_none.resolve_left (EventLog.clamp_pos h_inv.limit 1).ne'
    exact ⟨(Phase.parked.inj h_parked).ge, fun _ => List.filter_eq_nil_iff.mp h_filter⟩

/-- A consumer that waits is woken by the next event. -/
theorem Waits.next (h : Waits s c) (h_inv : LogInv s) (e : Step ι) : Waits (next s e) c := by
  have h_moves : ∀ d (consumer : Consumer), (∀ signal, consumer.phase ≠ .parked signal) →
      Waits (s.setConsumer d consumer) c := by
    intro d consumer h_phase
    refine h.setConsumer (.of_not_parked fun signal => ?_)
    rw [State.consumers_setConsumer_self]
    exact h_phase signal
  cases e with
  | emit event now =>
    intro signal h_parked
    obtain ⟨h_made, -⟩ := h signal h_parked
    refine ⟨Nat.le_succ_of_le h_made, fun h_open => ?_⟩
    -- The emission has closed the channel.
    rw [(h_inv.next (.emit event now)).channels] at h_open
    exact absurd (Nat.lt_succ_of_le h_made) (of_decide_eq_false h_open)
  | next d => exact h_moves d _ fun _ => (by rintro ⟨⟩)
  | look d => exact h.look h_inv d
  | wake d => exact h_moves d _ fun _ => (by rintro ⟨⟩)
  | ctxDone d => exact h_moves d _ fun _ => (by rintro ⟨⟩)
  | replay d limit => exact h_moves d _ fun _ => (by rintro ⟨⟩)

/-- Whoever waits has seen all there is, in every run. -/
theorem waits (h : (machine eventLimit filters).Reachable s) (c : ι) : Waits s c := by
  refine h.induction (P := fun s => Waits s c) ?_ fun s e hs h_waits _ =>
    h_waits.next (logInv hs) e
  refine .of_not_parked fun signal h_parked => ?_
  change Phase.idle = .parked signal at h_parked
  contradiction

/-! ### What a consumer has received -/

/-- A consumer that started with the filter `start` has received what it asked for up to the
event it names. -/
structure Reads (start : EventFilter) (s : State ι) (c : ι) : Prop where
  filter : (s.consumers c).filter =
    { start with afterSeq := (s.consumers c).filter.afterSeq }
  starts : start.afterSeq ≤ (s.consumers c).filter.afterSeq
  /-- It does not ask for what comes after events that are yet to be emitted, unless it always
  did. -/
  bound : (s.consumers c).filter.afterSeq ≤ max s.log.nextEventSeq start.afterSeq
  received : (s.consumers c).received =
    Cursor.upTo Event.seq (s.consumers c).filter.afterSeq (s.emitted.filter start.matches)

variable {start : EventFilter}

omit [DecidableEq ι] in
/-- What a consumer asks for is beyond what it has received. -/
theorem Reads.beyond (h : Reads start s c) (l : List Event) :
    l.filter (s.consumers c).filter.matches =
      Cursor.beyond Event.seq (s.consumers c).filter.afterSeq (l.filter start.matches) := by
  rw [Cursor.beyond, List.filter_filter, h.filter]
  refine List.filter_congr fun event _ => ?_
  have h_start := h.starts
  have h_selects : EventFilter.selects
      { start with afterSeq := (s.consumers c).filter.afterSeq } event = start.selects event := rfl
  rw [EventFilter.matches, EventFilter.matches, h_selects, ← Bool.and_assoc, ← Bool.decide_and]
  congr 1
  exact decide_eq_decide.mpr (by dsimp only; omega)

omit [DecidableEq ι] in
/-- What a consumer has received depends on its own steps and on the log only. -/
theorem Reads.of_eq {s' : State ι} (h : Reads start s c) (h_log : s'.log = s.log)
    (h_emitted : s'.emitted = s.emitted)
    (h_filter : (s'.consumers c).filter = (s.consumers c).filter)
    (h_received : (s'.consumers c).received = (s.consumers c).received) : Reads start s' c := by
  constructor
  · rw [h_filter]
    exact h.filter
  · rw [h_filter]
    exact h.starts
  · rw [h_filter, h_log]
    exact h.bound
  · rw [h_filter, h_received, h_emitted]
    exact h.received

/-- An emission is beyond what the consumer has received. -/
theorem Reads.emit (h : Reads start s c) (event : Event) (now : ℤ) :
    Reads start (Events.next s (.emit event now)) c where
  filter := h.filter
  starts := h.starts
  bound := h.bound.trans (max_le_max (Nat.le_succ _) le_rfl)
  received := by
    have h_bound := h.bound
    -- the new event is beyond what the consumer has read
    have h_new : Cursor.upTo Event.seq (s.consumers c).filter.afterSeq
        ([s.log.numbered now event].filter start.matches) = [] := by
      refine Cursor.upTo_eq_nil fun event' h_mem => ?_
      obtain ⟨h_event, h_match⟩ := List.mem_filter.mp h_mem
      rw [List.mem_singleton.mp h_event, EventFilter.matches, Bool.and_eq_true,
        decide_eq_true_iff] at h_match
      rw [List.mem_singleton.mp h_event]
      have h_seq : (s.log.numbered now event).seq = s.log.nextEventSeq + 1 := rfl
      omega
    show (s.consumers c).received = Cursor.upTo Event.seq (s.consumers c).filter.afterSeq
      ((s.emitted ++ [s.log.numbered now event]).filter start.matches)
    rw [List.filter_append, Cursor.upTo_append, h_new, List.append_nil]
    exact h.received

/-- A consumer that is in time receives the next events. -/
theorem Reads.receive (h : Reads start s c) (h_inv : LogInv s) (h_time : InTime s c)
    (limit : ℤ) : Reads start (s.setConsumer c ((s.consumers c).receive
      (s.log.matchEventsLocked (s.consumers c).filter limit))) c := by
  -- The log holds everything after the cursor, since the consumer is in time.
  have h_match : s.log.matchEventsLocked (s.consumers c).filter limit =
      (Cursor.beyond Event.seq (s.consumers c).filter.afterSeq
        (s.emitted.filter start.matches)).take (s.log.clamp limit) := by
    rw [EventLog.matchEventsLocked_eq h_inv.limit, h_time.filter_eq h_inv, h.beyond]
  rw [h_match]
  generalize h_read : (Cursor.beyond Event.seq (s.consumers c).filter.afterSeq
    (s.emitted.filter start.matches)).take (s.log.clamp limit) = read
  -- The cursor goes to the last event that was read, which has been emitted.
  have h_key : (s.consumers c).filter.afterSeq ≤
        Cursor.lastKey Event.seq (s.consumers c).filter.afterSeq read ∧
      Cursor.lastKey Event.seq (s.consumers c).filter.afterSeq read ≤
        max s.log.nextEventSeq start.afterSeq := by
    rw [Cursor.lastKey]
    cases h_last : read.getLast? with
    | none => exact ⟨le_rfl, h.bound⟩
    | some event =>
      have h_mem := List.mem_of_mem_take (h_read ▸ List.mem_of_getLast? h_last)
      have h_emitted := List.mem_of_mem_filter (List.mem_of_mem_filter h_mem)
      exact ⟨(Cursor.mem_beyond h_mem).le, le_max_of_le_left (h_inv.seq_le h_emitted)⟩
  have h_self := s.consumers_setConsumer_self c ((s.consumers c).receive read)
  constructor
  · rw [h_self, Consumer.receive]
    exact congrArg (fun filter : EventFilter => { filter with
      afterSeq := Cursor.lastKey Event.seq (s.consumers c).filter.afterSeq read }) h.filter
  · rw [h_self]
    exact h.starts.trans h_key.1
  · rw [h_self]
    exact h_key.2
  · rw [h_self]
    show (s.consumers c).received ++ read = _
    rw [h.received, ← h_read, Cursor.upTo_read (h_inv.sorted _)]
    rfl

/-- Of the consumer's own steps only looks at the log change what it has read. -/
theorem Reads.next (h : Reads start s c) (h_inv : LogInv s) (h_timely : Timely c s e) :
    Reads start (Events.next s e) c := by
  -- Another consumer's step, and a change of phase, leave what was read.
  have h_other : ∀ d consumer, c ≠ d → Reads start (s.setConsumer d consumer) c := by
    intro d consumer h_ne
    have h_same := s.consumers_setConsumer_of_ne h_ne consumer
    exact h.of_eq rfl rfl (by rw [h_same]) (by rw [h_same])
  have h_phase : ∀ d phase, Reads start (s.setConsumer d { s.consumers d with phase }) c := by
    intro d phase
    by_cases h_eq : c = d
    · rw [← h_eq]
      have h_self := s.consumers_setConsumer_self c { s.consumers c with phase }
      exact h.of_eq rfl rfl (by rw [h_self]) (by rw [h_self])
    · exact h_other d _ h_eq
  cases e with
  | emit event now => exact h.emit event now
  | next d => exact h_phase d _
  | look d =>
    show Reads start (look s d) c
    unfold look
    split
    case h_1 event events h_found =>
      by_cases h_eq : c = d
      · rw [← h_eq] at h_found ⊢
        -- At most one event is asked for.
        have h_clamp : s.log.clamp 1 = 1 := by
          have h_limit := h_inv.limit
          rw [EventLog.clamp, if_neg (by omega)]
          rfl
        have h_one : s.log.matchEventsLocked (s.consumers c).filter 1 = [event] := by
          have h_length := congrArg List.length h_found
          rw [EventLog.matchEventsLocked_eq h_inv.limit, h_clamp, List.length_take,
            List.length_cons] at h_length
          rw [h_found, List.length_eq_zero_iff.mp (by omega : events.length = 0)]
        rw [← h_one]
        exact h.receive h_inv (h_timely (h_eq ▸ rfl)) 1
      · exact h_other d _ h_eq
    · exact h_phase d _
  | wake d => exact h_phase d _
  | ctxDone d => exact h_phase d _
  | replay d limit =>
    show Reads start (s.setConsumer d _) c
    by_cases h_eq : c = d
    · rw [← h_eq]
      exact h.receive h_inv (h_timely (h_eq ▸ rfl)) limit
    · exact h_other d _ h_eq

/-- A consumer that reads in time has received all that match, in every run. -/
theorem reads (h : ((machine eventLimit filters).restrict (Timely c)).Reachable s) :
    Reads (filters c) s c := by
  refine h.induction (P := fun s => Reads (filters c) s c) ⟨rfl, le_rfl, le_max_right _ _, rfl⟩ ?_
  exact fun s e hs h_reads h_enabled => h_reads.next (logInv hs.of_restrict) h_enabled.2

/-- **The event stream.** In every reachable state the events that were emitted are numbered in
order, and so are those of the log; and while a call waits on a channel that is not closed, the
log has no event for it. A consumer that has always looked at the log in time has received
every event it asks for up to the one it names, once and in order; and if it looks in time
again, it gets the next ones. -/
theorem eventStream (h : (machine eventLimit filters).Reachable s) :
    s.emitted.map Event.seq = List.range' 1 s.log.nextEventSeq ∧
    (∃ first, s.log.events.map Event.seq = List.range' first s.log.events.length ∧
      first + s.log.events.length = s.log.nextEventSeq + 1) ∧
    (∀ c signal, (s.consumers c).phase = .parked signal → s.log.closed signal = false →
      ∀ event ∈ s.log.events, ¬ (s.consumers c).filter.matches event) ∧
    ∀ c, ((machine eventLimit filters).restrict (Timely c)).Reachable s →
      (s.consumers c).filter = { filters c with afterSeq := (s.consumers c).filter.afterSeq } ∧
      (s.consumers c).received = s.emitted.filter (fun event =>
        event.seq ≤ (s.consumers c).filter.afterSeq && (filters c).matches event) ∧
      (InTime s c → ∀ limit, s.log.matchEventsLocked (s.consumers c).filter limit =
        (s.emitted.filter (s.consumers c).filter.matches).take (s.log.clamp limit)) := by
  have h_inv := logInv h
  refine ⟨h_inv.seqs, ?_, fun c signal h_parked h_open =>
    (waits h c signal h_parked).2 h_open, fun c h_timely => ?_⟩
  -- the log is the end of what was emitted
  · obtain ⟨forgotten, h_emitted, -⟩ := h_inv.suffix
    obtain ⟨-, h_new, h_length⟩ := h_inv.split h_emitted
    exact ⟨1 + forgotten.length, h_new, by omega⟩
  -- the consumer has received what it asked for, in order
  · have h_reads := reads h_timely
    refine ⟨h_reads.filter, ?_, fun h_time limit => ?_⟩
    · rw [h_reads.received, Cursor.upTo, List.filter_filter]
    · rw [EventLog.matchEventsLocked_eq h_inv.limit, h_time.filter_eq h_inv]

/-- An event of no session and tab. -/
def tick : Step Unit := .emit { type := "tick" } 0

/-- With a log of two events, a consumer reads one of them and comes back after two more. -/
def lagging : List (Step Unit) :=
  [tick, tick, .next (), .look ()] ++ [tick, tick] ++ [.next (), .look ()]

/-- The second event is lost to the consumer, though between its two calls no more events are
emitted than the log holds. -/
theorem eventStream_trimmed :
    (machine 2 fun _ => {}).Runs (machine 2 fun _ => {}).init lagging ∧
    (((machine 2 fun _ => {}).exec (machine 2 fun _ => {}).init lagging).consumers
      ()).received.map Event.seq = [1, 3] ∧
    (((machine 2 fun _ => {}).exec (machine 2 fun _ => {}).init lagging).emitted.filter
      fun event => EventFilter.matches {} event && event.seq ≤ 3).map Event.seq = [1, 2, 3] := by
  decide +kernel

/-- The consumer waits first, and is there in time for what comes. -/
def waiting : List (Step Unit) :=
  [.next (), .look (), tick, tick, .wake (), .look (), .replay () 5]

/-- Then it receives both events. -/
theorem eventStream_waiting :
    (((machine 2 fun _ => {}).exec (machine 2 fun _ => {}).init waiting).consumers
      ()).received.map Event.seq = [1, 2] := by
  have h_runs : (machine 2 fun _ => {}).Runs (machine 2 fun _ => {}).init waiting ∧
      ((machine 2 fun _ => {}).restrict (Timely ())).Runs (machine 2 fun _ => {}).init waiting ∧
      (((machine 2 fun _ => {}).exec (machine 2 fun _ => {}).init waiting).emitted.filter
        fun event => event.seq ≤ 2 && EventFilter.matches {} event).map Event.seq = [1, 2] ∧
      (((machine 2 fun _ => {}).exec (machine 2 fun _ => {}).init waiting).consumers
        ()).filter.afterSeq = 2 := by decide +kernel
  obtain ⟨h_run, h_timely, h_emitted, h_after⟩ := h_runs
  have h_stream := (eventStream h_run.reachable).2.2.2 () ⟨waiting, h_timely, rfl⟩
  rw [h_stream.2.1, h_after]
  exact h_emitted

end Events

end BrowserControl.Core
