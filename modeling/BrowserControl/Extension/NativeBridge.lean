import BrowserControl.Transition.Machine
import Mathlib.Algebra.Group.Nat.Defs
import Mathlib.Data.Fin.Basic
import Mathlib.Data.List.Basic

/-!
# The native bridge and its reconnections

`NativeBridge` holds the port to the native host. When the host disconnects, `#onDisconnect`
forgets the port, awaits the callback `onDisconnected` and schedules a reconnection. When the
`bridge.hello` of a port is rejected, `#connect` disconnects the port at the extension's end.

`Port.onDisconnect` is not fired at the end that disconnects. So after a rejected hello nothing
forgets the port and nothing schedules a reconnection: the bridge is stranded, and stays so
(`Stranded.exec`). It is stranded too when `onDisconnected` rejects, since what comes after the
`await` is then not run. Where neither happens the bridge always recovers (`recovers_of_obliging`).
-/

namespace BrowserControl.Extension

open Transition

namespace Bridge

/-! ### The state -/

/-- What the popup shows of the bridge. -/
structure BridgeState where
  connected : Bool
  helloComplete : Bool
  lastError : Option String
  reconnectAttempt : ℕ
  deriving DecidableEq

/-- Who is told how a request ended. -/
inductive Waiter where
  /-- `#connect`, about the `bridge.hello` it has sent on a port. -/
  | hello (port : ℕ)
  /-- Another caller of `request`. -/
  | caller
  deriving DecidableEq

/-- The reactions that the promise of a request has to run when it is settled. -/
def Waiter.reactions (error : Option String) : Waiter → List (ℕ × Option String)
  | .hello port => [(port, error)]
  | .caller => []

/-- The fields of the class. Ports and requests have numbers, in the order in which they were
made. -/
structure NativeBridge where
  pending : List (ℕ × Waiter)
  queuedNotifications : List String
  port : Option ℕ
  /-- The delay of the timer that is scheduled. -/
  reconnectTimer : Option ℕ
  stopped : Bool
  state : BridgeState
  deriving DecidableEq

/-- The bridge, with the ports and promises of the browser. -/
structure State extends NativeBridge where
  /-- The number of requests made. -/
  requests : ℕ
  /-- The number of ports opened. -/
  opened : ℕ
  /-- The ports that one side has disconnected. -/
  closed : List ℕ
  /-- The promises of `bridge.hello` that are settled and whose reaction has not run: the port and
  the message of the error. -/
  reactions : List (ℕ × Option String)
  /-- The number of calls of `onDisconnected` that are pending. -/
  callbacks : ℕ
  deriving DecidableEq

namespace State

variable (s : State)

/-! ### The methods of the class -/

/-- The part of `request` that registers the caller. -/
def request (w : Waiter) : State :=
  { s with pending := s.pending ++ [(s.requests, w)], requests := s.requests + 1 }

/-- The delay before a reconnection. -/
def delay (reconnectAttempt : ℕ) (jitter : Fin 250) : ℕ :=
  min 30000 (500 * 2 ^ min (max 1 reconnectAttempt - 1) 6) + jitter

/-- `#scheduleReconnect`: not after `stop`, and not when one is scheduled already. -/
def scheduleReconnect (jitter : Fin 250) : State :=
  if s.stopped ∨ s.reconnectTimer.isSome then s
  else { s with reconnectTimer := some (delay s.state.reconnectAttempt jitter) }

/-- `#connect`, and the error that `connectNative` throws, if it does. -/
def connect (connectNative : Option String) (jitter : Fin 250) : State :=
  if s.stopped ∨ s.port.isSome then s
  else match connectNative with
    | none =>
      { s with
        port := some s.opened
        opened := s.opened + 1
        state := ⟨true, false, none, s.state.reconnectAttempt⟩ }.request (.hello s.opened)
    | some message =>
      { s with
        state := { s.state with connected := false, lastError := some message } }.scheduleReconnect
          jitter

/-- The promise of a request is settled, if the request is still pending. -/
def settle (id : ℕ) (error : Option String) : State :=
  match s.pending.lookup id with
  | none => s
  | some w =>
    { s with
      pending := s.pending.filter fun entry => entry.1 ≠ id
      reactions := s.reactions ++ w.reactions error }

/-- `#rejectPending`: all requests fail. -/
def rejectPending (error : String) : State :=
  { s with
    pending := []
    reactions := s.reactions ++ s.pending.flatMap fun entry => entry.2.reactions (some error) }

/-- `notify`; a notification that is sent leaves nothing behind. -/
def notify (method : String) : State :=
  if s.port = none then s
  else if s.state.helloComplete = false ∧ method ≠ "bridge.goodbye" then
    { s with
      queuedNotifications :=
        (if s.queuedNotifications.length ≥ 256 then s.queuedNotifications.drop 1
          else s.queuedNotifications) ++ [method] }
  else s

/-- The notifications that were queued are sent. -/
def flushNotifications : State :=
  s.queuedNotifications.foldl notify { s with queuedNotifications := [] }

/-- `port.disconnect()`, which fires no event at this end. -/
def disconnect (port : ℕ) : State := { s with closed := port :: s.closed }

/-- The reaction of `#connect` to the promise of `bridge.hello`. -/
def react : State :=
  match s.reactions with
  | [] => s
  | (_, none) :: rest =>
    { s with reactions := rest, state := ⟨true, true, none, 0⟩ }.flushNotifications
  | (port, some message) :: rest =>
    { s with
      reactions := rest
      state := { s.state with lastError := some message } }.disconnect port

/-- `#onDisconnect` up to its `await`. -/
def onDisconnect (reason : String) : State :=
  { { s with port := none, queuedNotifications := [] }.rejectPending reason with
    state := ⟨false, false, some reason, s.state.reconnectAttempt + 1⟩
    callbacks := s.callbacks + 1 }

/-- `#onDisconnect` from its `await` on. -/
def onDisconnected (resolved : Bool) (jitter : Fin 250) : State :=
  if resolved then { s with callbacks := s.callbacks - 1 }.scheduleReconnect jitter
  else { s with callbacks := s.callbacks - 1 }

/-- `start`, once it has the identifier of the browser. -/
def start (connectNative : Option String) (jitter : Fin 250) : State :=
  { s with stopped := false }.connect connectNative jitter

/-- The timer fires. -/
def reconnect (connectNative : Option String) (jitter : Fin 250) : State :=
  { s with reconnectTimer := none }.connect connectNative jitter

end State

/-- A new instance. -/
def State.new : State where
  pending := []
  queuedNotifications := []
  port := none
  reconnectTimer := none
  stopped := false
  state := ⟨false, false, none, 0⟩
  requests := 0
  opened := 0
  closed := []
  reactions := []
  callbacks := 0

/-! ### Runs -/

/-- What happens to the bridge. -/
inductive Event where
  /-- The reconnection timer fires, and `connectNative` throws or does not. -/
  | timer (connectNative : Option String) (jitter : Fin 250)
  /-- A request is made by another caller than `#connect`. -/
  | request
  | notify (method : String)
  /-- A request is answered, times out or cannot be sent; with an error, if it is rejected. -/
  | settle (id : ℕ) (error : Option String)
  /-- The next reaction to a settled `bridge.hello` runs. -/
  | react
  /-- The host disconnects a port. -/
  | hostDisconnect (port : ℕ) (reason : String)
  /-- A pending `onDisconnected` resolves or rejects. -/
  | callback (resolved : Bool) (jitter : Fin 250)

/-- A port that neither side has disconnected. -/
def State.Open (s : State) (port : ℕ) : Prop := port < s.opened ∧ port ∉ s.closed

instance (s : State) (port : ℕ) : Decidable (s.Open port) :=
  inferInstanceAs (Decidable (_ ∧ _))

/-- What can happen. -/
def Enabled (s : State) : Event → Prop
  | .timer _ _ => s.reconnectTimer.isSome
  | .settle id _ => id ∈ s.pending.map Prod.fst
  | .react => s.reactions ≠ []
  | .hostDisconnect port _ => s.Open port
  | .callback _ _ => 0 < s.callbacks
  | .request | .notify _ => True

instance decidableEnabled (s : State) : ∀ e, Decidable (Enabled s e)
  | .timer _ _ => inferInstanceAs (Decidable (s.reconnectTimer.isSome = true))
  | .settle id _ => inferInstanceAs (Decidable (id ∈ s.pending.map Prod.fst))
  | .react => inferInstanceAs (Decidable (s.reactions ≠ []))
  | .hostDisconnect port _ => inferInstanceAs (Decidable (s.Open port))
  | .callback _ _ => inferInstanceAs (Decidable (0 < s.callbacks))
  | .request | .notify _ => inferInstanceAs (Decidable True)

/-- Runs after `start`, without `stop`. -/
def machine (connectNative : Option String) (jitter : Fin 250) : Machine State Event where
  init := State.new.start connectNative jitter
  enabled := Enabled
  next
    | s, .timer connectNative jitter => s.reconnect connectNative jitter
    | s, .request => s.request .caller
    | s, .notify method => s.notify method
    | s, .settle id error => s.settle id error
    | s, .react => s.react
    | s, .hostDisconnect port reason =>
      { s with closed := port :: s.closed }.onDisconnect reason
    | s, .callback resolved jitter => s.onDisconnected resolved jitter

instance (connectNative : Option String) (jitter : Fin 250) (s : State) (e : Event) :
    Decidable ((machine connectNative jitter).enabled s e) :=
  inferInstanceAs (Decidable (Enabled s e))

/-- When no callback is pending, there is an open port or a reconnection is scheduled. -/
def Recovers (s : State) : Prop :=
  s.callbacks = 0 → (∃ port, s.port = some port ∧ s.Open port) ∨ s.reconnectTimer.isSome

/-- No `bridge.hello` is rejected on an open port, and `onDisconnected` does not reject. -/
def Obliging (s : State) : Event → Prop
  | .settle id (some _) =>
    ∀ port < s.opened, (id, Waiter.hello port) ∈ s.pending → port ∈ s.closed
  | .callback resolved _ => resolved = true
  | _ => True

instance decidableObliging (s : State) : ∀ e, Decidable (Obliging s e)
  | .settle id (some _) => inferInstanceAs (Decidable
    (∀ port < s.opened, (id, Waiter.hello port) ∈ s.pending → port ∈ s.closed))
  | .callback resolved _ => inferInstanceAs (Decidable (resolved = true))
  | .settle _ none | .timer .. | .request | .notify _ | .react | .hostDisconnect .. =>
    inferInstanceAs (Decidable True)

/-! ### Notifications -/

/-- A notification changes the queue of notifications and nothing else. -/
theorem notify_eq (s : State) (method : String) :
    ∃ queued, s.notify method = { s with queuedNotifications := queued } := by
  unfold State.notify
  split
  · exact ⟨s.queuedNotifications, rfl⟩
  · split
    · exact ⟨_, rfl⟩
    · exact ⟨s.queuedNotifications, rfl⟩

theorem foldl_notify_eq (methods : List String) (s : State) :
    ∃ queued, methods.foldl State.notify s = { s with queuedNotifications := queued } := by
  induction methods generalizing s with
  | nil => exact ⟨s.queuedNotifications, rfl⟩
  | cons method methods ih =>
    obtain ⟨queued, h_notify⟩ := notify_eq s method
    obtain ⟨queued', h_rest⟩ := ih (s.notify method)
    refine ⟨queued', ?_⟩
    rw [List.foldl_cons, h_rest, h_notify]

/-- Notifications change the queue of notifications and nothing else. -/
theorem flushNotifications_eq (s : State) :
    ∃ queued, s.flushNotifications = { s with queuedNotifications := queued } :=
  foldl_notify_eq s.queuedNotifications { s with queuedNotifications := [] }

/-! ### The invariant -/

/-- Which ports there are, in any run. -/
structure Consistent (s : State) : Prop where
  running : s.stopped = false
  port_lt : ∀ port, s.port = some port → port < s.opened
  closed_lt : ∀ port ∈ s.closed, port < s.opened
  hello_lt : ∀ id port, (id, Waiter.hello port) ∈ s.pending → port < s.opened
  /-- A port that is open is the one the bridge holds. -/
  held : ∀ port, s.Open port → s.port = some port

/-- A bridge that recovers: the port it holds is open, and a bridge without port awaits a callback
or a reconnection. -/
structure Alive (s : State) : Prop extends Consistent s where
  is_open : ∀ port, s.port = some port → port ∉ s.closed
  awaited : s.port = none → 0 < s.callbacks ∨ s.reconnectTimer.isSome
  /-- A reaction that disconnects its port comes too late for it. -/
  late : ∀ port message, (port, some message) ∈ s.reactions → port ∈ s.closed

/-- A bridge that is alive recovers. -/
theorem Alive.recovers {s : State} (h : Alive s) : Recovers s := by
  intro h_callbacks
  cases h_port : s.port with
  | none =>
    right
    exact (h.awaited h_port).resolve_left (by omega)
  | some port =>
    left
    exact ⟨port, rfl, h.port_lt port h_port, h.is_open port h_port⟩

/-! ### Every step keeps it -/

/-- A notification. -/
theorem Alive.notify {s : State} (h : Alive s) (method : String) : Alive (s.notify method) := by
  obtain ⟨queued, h_notify⟩ := notify_eq s method
  rw [h_notify]
  exact ⟨⟨h.running, h.port_lt, h.closed_lt, h.hello_lt, h.held⟩, h.is_open, h.awaited, h.late⟩

/-- A request, of the extension or of the bridge itself. -/
theorem Alive.request {s : State} (h : Alive s) {w : Waiter}
    (h_w : ∀ port, w = .hello port → port < s.opened) : Alive (s.request w) := by
  refine ⟨⟨h.running, h.port_lt, h.closed_lt, ?_, h.held⟩, h.is_open, h.awaited, h.late⟩
  intro id port h_mem
  rcases List.mem_append.mp h_mem with h_mem | h_new
  · exact h.hello_lt id port h_mem
  · exact h_w port (Prod.mk.inj (List.mem_singleton.mp h_new)).2.symm

/-- When a reconnection has been scheduled, one is. -/
theorem isSome_scheduleReconnect {s : State} (h_running : s.stopped = false) (jitter : Fin 250) :
    (s.scheduleReconnect jitter).reconnectTimer.isSome := by
  unfold State.scheduleReconnect
  split
  case isTrue h_or =>
    rcases h_or with h_stopped | h_timer
    · rw [h_running] at h_stopped
      contradiction
    · exact h_timer
  case isFalse => rfl

/-- Scheduling changes the timer and nothing else. -/
theorem scheduleReconnect_eq (s : State) (jitter : Fin 250) :
    ∃ timer, s.scheduleReconnect jitter = { s with reconnectTimer := timer } := by
  unfold State.scheduleReconnect
  split
  · exact ⟨s.reconnectTimer, rfl⟩
  · exact ⟨_, rfl⟩

/-- A state with a port or without, after the timer has fired or a callback has ended. -/
structure Waiting (s : State) : Prop extends Consistent s where
  is_open : ∀ port, s.port = some port → port ∉ s.closed
  late : ∀ port message, (port, some message) ∈ s.reactions → port ∈ s.closed

/-- What is alive may lose its port. -/
theorem Alive.waiting {s : State} (h : Alive s) : Waiting s :=
  ⟨h.toConsistent, h.is_open, h.late⟩

/-- With a reconnection it is alive again. -/
theorem Waiting.scheduleReconnect {s : State} (h : Waiting s) (jitter : Fin 250) :
    Alive (s.scheduleReconnect jitter) := by
  have h_timer := isSome_scheduleReconnect h.running jitter
  obtain ⟨timer, h_eq⟩ := scheduleReconnect_eq s jitter
  rw [h_eq] at h_timer ⊢
  exact ⟨⟨h.running, h.port_lt, h.closed_lt, h.hello_lt, h.held⟩, h.is_open,
    fun _ => .inr h_timer, h.late⟩

/-- `#connect` opens a new port or schedules another try. -/
theorem Waiting.connect {s : State} (h : Waiting s) (connectNative : Option String)
    (jitter : Fin 250) : Alive (s.connect connectNative jitter) := by
  unfold State.connect
  split
  case isTrue h_or =>
    -- There is a port already.
    have h_port : s.port ≠ none := by
      rcases h_or with h_stopped | h_port
      · rw [h.running] at h_stopped
        contradiction
      · exact Option.isSome_iff_ne_none.mp h_port
    exact ⟨h.toConsistent, h.is_open, fun h_none => absurd h_none h_port, h.late⟩
  case isFalse h_or =>
    rw [not_or, Option.not_isSome_iff_eq_none] at h_or
    cases connectNative with
    -- the port opens, and a hello is sent
    | none =>
      dsimp only
      refine Alive.request ?_ ?_
      rotate_left
      · intro port h_port
        rw [← Waiter.hello.inj h_port]
        exact Nat.lt_succ_self _
      refine ⟨⟨h.running, ?_, ?_, ?_, ?_⟩, ?_, ?_, h.late⟩
      · intro port h_port
        rw [← Option.some.inj h_port]
        exact Nat.lt_succ_self _
      · exact fun port h_port => Nat.lt_succ_of_lt (h.closed_lt port h_port)
      · exact fun id port h_port => Nat.lt_succ_of_lt (h.hello_lt id port h_port)
      · -- No port was open before.
        intro port h_open
        rcases Nat.lt_succ_iff_lt_or_eq.mp h_open.1 with h_lt | rfl
        · have h_held := h.held port ⟨h_lt, h_open.2⟩
          rw [h_or.2] at h_held
          contradiction
        · rfl
      · intro port h_port h_closed
        rw [← Option.some.inj h_port] at h_closed
        exact absurd (h.closed_lt _ h_closed) (lt_irrefl _)
      · intro h_none
        contradiction
    -- `connectNative` throws, so a reconnection is planned
    | some message =>
      dsimp only
      apply Waiting.scheduleReconnect
      exact ⟨⟨h.running, h.port_lt, h.closed_lt, h.hello_lt, h.held⟩, h.is_open, h.late⟩

/-- The answer to a request, if it rejects no hello on an open port. -/
theorem Alive.settle {s : State} (h : Alive s) {id : ℕ} {error : Option String}
    (h_obliging : Obliging s (.settle id error)) : Alive (s.settle id error) := by
  unfold State.settle
  split
  case h_1 => exact h
  case h_2 w h_lookup =>
    -- the promise is settled, and its reactions are queued
    refine ⟨⟨h.running, h.port_lt, h.closed_lt, ?_, h.held⟩, h.is_open, h.awaited, ?_⟩
    · exact fun id' port h_mem => h.hello_lt id' port (List.mem_of_mem_filter h_mem)
    intro port message h_mem
    rcases List.mem_append.mp h_mem with h_mem | h_new
    · exact h.late port message h_mem
    · -- A `bridge.hello` that is rejected has no open port.
      cases w with
      | caller => cases h_new
      | hello p =>
        obtain ⟨rfl, rfl⟩ := Prod.mk.inj (List.mem_singleton.mp h_new)
        obtain ⟨before, after, h_pending, -⟩ := List.lookup_eq_some_iff.mp h_lookup
        have h_mem : (id, Waiter.hello port) ∈ s.pending := by
          rw [h_pending]
          exact List.mem_append_right before List.mem_cons_self
        exact h_obliging port (h.hello_lt id port h_mem) h_mem

/-- A reaction to an answer. -/
theorem Alive.react {s : State} (h : Alive s) : Alive s.react := by
  unfold State.react
  split
  -- nothing is left to react to
  case h_1 => exact h
  -- a hello is answered: what was queued is sent now
  case h_2 port rest h_reactions =>
    have h_late : ∀ port message, (port, some message) ∈ rest → port ∈ s.closed := by
      intro port message h_mem
      refine h.late port message ?_
      rw [h_reactions]
      exact List.mem_cons_of_mem _ h_mem
    obtain ⟨queued, h_flush⟩ := flushNotifications_eq
      { s with reactions := rest, state := ⟨true, true, none, 0⟩ }
    rw [h_flush]
    exact ⟨⟨h.running, h.port_lt, h.closed_lt, h.hello_lt, h.held⟩, h.is_open, h.awaited, h_late⟩
  case h_3 port message rest h_reactions =>
    -- The port that is disconnected is closed already.
    have h_closed : port ∈ s.closed := by
      refine h.late port message ?_
      rw [h_reactions]
      exact List.mem_cons_self
    have h_mem : ∀ p, p ∈ port :: s.closed ↔ p ∈ s.closed := by
      intro p
      rw [List.mem_cons, or_iff_right_of_imp]
      rintro rfl
      exact h_closed
    refine ⟨⟨h.running, h.port_lt, ?_, h.hello_lt, ?_⟩, ?_, h.awaited, ?_⟩
    · exact fun p h_p => h.closed_lt p ((h_mem p).mp h_p)
    · exact fun p h_open => h.held p ⟨h_open.1, (h_mem p).not.mp h_open.2⟩
    · exact fun p h_port => (h_mem p).not.mpr (h.is_open p h_port)
    · intro p message' h_p
      refine (h_mem p).mpr (h.late p message' ?_)
      rw [h_reactions]
      exact List.mem_cons_of_mem _ h_p

/-- The host goes: the port is forgotten, and a callback awaited. -/
theorem Alive.hostDisconnect {s : State} (h : Alive s) {port : ℕ} (h_open : s.Open port)
    (reason : String) :
    Alive ({ s with closed := port :: s.closed }.onDisconnect reason) := by
  have h_lt : ∀ p ∈ port :: s.closed, p < s.opened := by
    intro p h_p
    rcases List.mem_cons.mp h_p with rfl | h_p
    · exact h_open.1
    · exact h.closed_lt p h_p
  have h_held : ∀ p < s.opened, p ∈ port :: s.closed := by
    intro p h_p
    by_contra h_not
    rw [List.mem_cons, not_or] at h_not
    -- The bridge holds one port, and that one is closed now.
    have h_port := h.held port h_open
    rw [h.held p ⟨h_p, h_not.2⟩, Option.some_inj] at h_port
    exact h_not.1 h_port
  -- The port is closed and a reconnection is planned; the requests in flight are rejected.
  refine ⟨⟨h.running, ?_, h_lt, ?_, ?_⟩, ?_, fun _ => .inl (Nat.succ_pos _), ?_⟩
  · intro p h_none
    contradiction
  · intro id p h_mem
    cases h_mem
  · intro p h_p
    exact absurd (h_held p h_p.1) h_p.2
  · intro p h_none
    contradiction
  · intro p message h_mem
    rcases List.mem_append.mp h_mem with h_mem | h_new
    · exact List.mem_cons_of_mem _ (h.late p message h_mem)
    · -- All promises are rejected, and no port is open.
      obtain ⟨⟨id, w⟩, h_pending, h_reaction⟩ := List.mem_flatMap.mp h_new
      cases w with
      | caller => cases h_reaction
      | hello q =>
        rw [(Prod.mk.inj (List.mem_singleton.mp h_reaction)).1]
        exact h_held q (h.hello_lt id q h_pending)

/-- The callback is over, and a reconnection is scheduled. -/
theorem Alive.callback {s : State} (h : Alive s) (jitter : Fin 250) :
    Alive (s.onDisconnected true jitter) := by
  rw [State.onDisconnected, if_pos rfl]
  apply Waiting.scheduleReconnect
  exact ⟨⟨h.running, h.port_lt, h.closed_lt, h.hello_lt, h.held⟩, h.is_open, h.late⟩

/-- A reconnection takes a new port, or schedules the next try. -/
theorem Alive.timer {s : State} (h : Alive s) (connectNative : Option String) (jitter : Fin 250) :
    Alive (s.reconnect connectNative jitter) := by
  apply Waiting.connect
  exact ⟨⟨h.running, h.port_lt, h.closed_lt, h.hello_lt, h.held⟩, h.is_open, h.late⟩

/-- `start` takes a port, or schedules a reconnection. -/
theorem alive_start (connectNative : Option String) (jitter : Fin 250) :
    Alive (State.new.start connectNative jitter) := by
  apply Waiting.connect
  -- A new bridge waits: it has no port, no pending request and no message.
  refine ⟨⟨rfl, ?_, ?_, ?_, ?_⟩, ?_, ?_⟩
  · intro port h_none
    contradiction
  · intro port h_mem
    cases h_mem
  · intro id port h_mem
    cases h_mem
  · intro port h_open
    exact absurd h_open.1 (Nat.not_lt_zero port)
  · intro port h_none
    contradiction
  · intro port message h_mem
    cases h_mem

variable {connectNative : Option String} {jitter : Fin 250}

/-- Every step where nothing is rejected. -/
theorem Alive.next {s : State} (h : Alive s) {e : Event}
    (h_enabled : (machine connectNative jitter).enabled s e) (h_obliging : Obliging s e) :
    Alive ((machine connectNative jitter).next s e) := by
  cases e with
  | timer connectNative jitter => exact h.timer connectNative jitter
  | request => exact h.request fun port h_caller => by contradiction
  | notify method => exact h.notify method
  | settle id error => exact h.settle h_obliging
  | react => exact h.react
  | hostDisconnect port reason => exact h.hostDisconnect h_enabled reason
  | callback resolved jitter =>
    have h_resolved : resolved = true := h_obliging
    rw [h_resolved]
    exact h.callback jitter

/-- **The bridge recovers.** If no `bridge.hello` is rejected on an open port and `onDisconnected`
does not reject, then there is an open port or a reconnection is scheduled whenever no callback is
pending. -/
theorem recovers_of_obliging {es : List Event}
    (h_run : ((machine connectNative jitter).restrict Obliging).Runs
      ((machine connectNative jitter).restrict Obliging).init es) :
    Recovers ((machine connectNative jitter).exec (machine connectNative jitter).init es) := by
  apply Alive.recovers
  refine h_run.reachable.induction (P := Alive) (alive_start connectNative jitter) ?_
  intro s e _ h_alive h_enabled
  exact h_alive.next h_enabled.1 h_enabled.2

/-- The host disconnects, `onDisconnected` resolves, the timer fires and the host is there again. -/
theorem recovers_of_obliging_reconnected :
    Recovers ((machine none 0).exec (machine none 0).init
      [.hostDisconnect 0 "exited", .react, .callback true 7, .timer none 0, .settle 1 none,
        .react]) :=
  @recovers_of_obliging none 0 _ (by decide)

/-! ### A bridge that does not recover -/

/-- No callback is pending, no reconnection is scheduled and no port is open. -/
structure Stranded (s : State) : Prop where
  callbacks : s.callbacks = 0
  reconnectTimer : s.reconnectTimer = none
  shut : ∀ port, ¬ s.Open port

/-- What is stranded does not recover. -/
theorem Stranded.not_recovers {s : State} (h : Stranded s) : ¬ Recovers s := by
  intro h_recovers
  rcases h_recovers h.callbacks with ⟨port, -, h_open⟩ | h_timer
  · exact h.shut port h_open
  · rw [h.reconnectTimer] at h_timer
    contradiction

/-- What is neither connected nor disconnected keeps a bridge stranded. -/
theorem Stranded.of_eq {s s' : State} (h : Stranded s) (h_callbacks : s'.callbacks = s.callbacks)
    (h_timer : s'.reconnectTimer = s.reconnectTimer) (h_opened : s'.opened = s.opened)
    (h_closed : ∀ port ∈ s.closed, port ∈ s'.closed) : Stranded s' where
  callbacks := h_callbacks.trans h.callbacks
  reconnectTimer := h_timer.trans h.reconnectTimer
  shut port h_open :=
    h.shut port ⟨h_opened ▸ h_open.1, fun h_mem => h_open.2 (h_closed port h_mem)⟩

/-- A reaction opens no port. -/
theorem Stranded.react {s : State} (h : Stranded s) : Stranded s.react := by
  unfold State.react
  split
  case h_1 => exact h
  case h_2 port rest h_reactions =>
    obtain ⟨queued, h_flush⟩ := flushNotifications_eq
      { s with reactions := rest, state := ⟨true, true, none, 0⟩ }
    rw [h_flush]
    exact h.of_eq rfl rfl rfl fun _ h_mem => h_mem
  case h_3 port message rest h_reactions =>
    exact h.of_eq rfl rfl rfl fun _ h_mem => List.mem_cons_of_mem port h_mem

/-- Nothing that can happen connects a stranded bridge. -/
theorem Stranded.next {s : State} (h : Stranded s) {e : Event}
    (h_enabled : (machine connectNative jitter).enabled s e) :
    Stranded ((machine connectNative jitter).next s e) := by
  cases e with
  -- no timer is set
  | timer connectNative jitter =>
    have h_timer : s.reconnectTimer.isSome := h_enabled
    rw [h.reconnectTimer] at h_timer
    contradiction
  | request => exact h.of_eq rfl rfl rfl fun _ h_mem => h_mem
  | notify method =>
    obtain ⟨queued, h_notify⟩ := notify_eq s method
    show Stranded (s.notify method)
    rw [h_notify]
    exact h.of_eq rfl rfl rfl fun _ h_mem => h_mem
  | settle id error =>
    show Stranded (s.settle id error)
    unfold State.settle
    split
    · exact h
    · exact h.of_eq rfl rfl rfl fun _ h_mem => h_mem
  | react => exact h.react
  | hostDisconnect port reason => exact absurd h_enabled (h.shut port)
  -- no callback is due
  | callback resolved jitter =>
    have h_callbacks : 0 < s.callbacks := h_enabled
    rw [h.callbacks] at h_callbacks
    exact absurd h_callbacks (lt_irrefl 0)

/-- **A stranded bridge stays stranded**, whatever happens, until it is started anew. -/
theorem Stranded.exec {s : State} (h : Stranded s) {es : List Event}
    (h_run : (machine connectNative jitter).Runs s es) :
    Stranded ((machine connectNative jitter).exec s es) := by
  induction es generalizing s with
  | nil => exact h
  | cons e es ih => exact ih (h.next h_run.1) h_run.2

/-- The host does not answer the `bridge.hello`. -/
def helloTimeout : List Event := [.settle 0 (some "bridge request timed out: bridge.hello"), .react]

/-- The host disconnects, and the claims of the tabs cannot be given up. -/
def callbackRejects : List Event :=
  [.hostDisconnect 0 "native host disconnected", .callback false 0]

/-- Both ways in which a bridge is stranded. -/
theorem stranded_of_not_obliging :
    Stranded ((machine none 0).exec (machine none 0).init helloTimeout) ∧
      Stranded ((machine none 0).exec (machine none 0).init callbackRejects) := by
  constructor
  -- No timer runs, and the one port there was is closed.
  · refine ⟨rfl, rfl, ?_⟩
    intro port h_open
    have h_lt : port < 1 := h_open.1
    have h_not : port ∉ [0] := h_open.2
    rw [List.mem_singleton] at h_not
    omega
  · refine ⟨rfl, rfl, ?_⟩
    intro port h_open
    have h_lt : port < 1 := h_open.1
    have h_not : port ∉ [0] := h_open.2
    rw [List.mem_singleton] at h_not
    omega

/-- The bridge does not recover in every run. -/
theorem not_recovers_helloTimeout :
    ¬ ∀ (connectNative : Option String) (jitter : Fin 250) (es : List Event),
      (machine connectNative jitter).Runs (machine connectNative jitter).init es →
        Recovers ((machine connectNative jitter).exec (machine connectNative jitter).init es) := by
  intro h
  have h_run : (machine none 0).Runs (machine none 0).init helloTimeout := by decide
  exact stranded_of_not_obliging.1.not_recovers (h none 0 helloTimeout h_run)

end Bridge
end BrowserControl.Extension
