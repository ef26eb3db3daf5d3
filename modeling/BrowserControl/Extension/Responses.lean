import BrowserControl.Extension.NativeBridge
import BrowserControl.Rpc.Steps

/-!
# Responses over reconnections

The daemon numbers the calls of every connection from `"peer-1"` on, and a request that the
extension receives carries this id only. `#respond` awaits the handler of the request and then sends
the response over the port that the bridge has by then. When the bridge has reconnected meanwhile,
this is another port than the one the request came over, and the daemon's end of it may have a call
of its own under the same id.

`machine` puts the bridge, the daemon's ends of all its ports, and the calls of `#respond`
together. A call of the daemon names the request it writes. `returned_answer` says whose response
a call can return in any run, and `returned_answer_of_prompt` that it is its own, if no request is
still being handled or answered when the bridge has another port than the one the request came
over.
-/

namespace BrowserControl.Extension.Responses

open Encoding Protocol Rpc Transition

variable {κ : Type*} [DecidableEq κ]

/-- Where a request stands, and the call of `#respond` about it. -/
inductive Phase where
  | outside
  /-- The daemon has written it. -/
  | written
  /-- `handleRequest` is awaited. -/
  | handling
  /-- The result is being encoded for the port that `#send` has taken. -/
  | result (port : ℕ) (response : Response)
  /-- So is an error, for which there is no other attempt. -/
  | error (port : ℕ) (response : Response)
  /-- The response is on its way through a port. -/
  | posted (port : ℕ) (response : Response)
  /-- The response has been read, or there will be none. -/
  | over

/-- The bridge, the daemon's ends of its ports, and the requests. -/
structure State (κ : Type*) where
  bridge : Bridge.State
  peers : ℕ → Peer.State κ := fun _ => {}
  /-- The port a call is made on. -/
  port : κ → Option ℕ := fun _ => none
  phase : κ → Phase := fun _ => .outside
  /-- What has been posted about a request. -/
  answer : κ → Option Response := fun _ => none

namespace State

variable (s : State κ)

/-- The number in the id of a request. -/
def number (c : κ) : ℕ :=
  match s.port c with
  | some port => ((s.peers port).calls c).id
  | none => 0

/-- One request comes to another phase. -/
def setPhase (c : κ) (phase : Phase) : State κ :=
  { s with phase := Function.update s.phase c phase }

/-- The response with the result of a request. -/
def success (c : κ) (result : RawMessage) : Response where
  jsonrpc := "2.0"
  id := idRaw (s.number c)
  result := result
  error := none

/-- The response with an error. -/
def failure (c : κ) (err : RPCError) : Response where
  jsonrpc := "2.0"
  id := idRaw (s.number c)
  result := []
  error := some err

/-- What `#send` throws when the port it has taken is gone. -/
def disconnected : RPCError :=
  newError codeBridgeUnavailable "EXTENSION_DISCONNECTED" "native host disconnected while sending"
    true .empty

/-- `#send` of an error, up to its `await`. -/
def sendError (c : κ) (err : RPCError) : State κ :=
  match s.bridge.port with
  | some port => s.setPhase c (.error port (s.failure c err))
  | none => s.setPhase c .over

/-- `handleRequest` returns or throws. Without a port `#send` throws, also the second time. -/
def respond (c : κ) (outcome : Except RPCError RawMessage) : State κ :=
  match outcome with
  | .ok result =>
    match s.bridge.port with
    | some port => s.setPhase c (.result port (s.success c result))
    | none => s.setPhase c .over
  | .error err => s.sendError c err

/-- The frames of a response are posted. -/
def post (c : κ) (port : ℕ) (response : Response) : State κ :=
  { s.setPhase c (.posted port response) with answer := Function.update s.answer c (some response) }

/-- `#send` from its `await` on, where `thrown` is what `encodeMessage` or `postMessage` throws. -/
def send (c : κ) (thrown : Option RPCError) : State κ :=
  match s.phase c with
  | .result port response =>
    match thrown with
    | some err => s.sendError c err
    | none =>
      if s.bridge.port = some port then s.post c port response else s.sendError c disconnected
  | .error port response =>
    if thrown.isNone ∧ s.bridge.port = some port then s.post c port response
    else s.setPhase c .over
  | _ => s

/-- The daemon's end of one port changes. -/
def setPeer (port : ℕ) (peer : Peer.State κ) : State κ :=
  { s with peers := Function.update s.peers port peer }

omit [DecidableEq κ] in
@[simp] theorem peers_setPeer_self (port : ℕ) (peer : Peer.State κ) :
    (s.setPeer port peer).peers port = peer := Function.update_self ..

omit [DecidableEq κ] in
theorem peers_setPeer_of_ne {port port' : ℕ} (h : port' ≠ port) (peer : Peer.State κ) :
    (s.setPeer port peer).peers port' = s.peers port' := Function.update_of_ne h ..

end State

/-- The message a response is. -/
def incoming (response : Response) : Incoming :=
  .envelope ⟨response.jsonrpc, response.id, "", response.result, response.error⟩

/-- The steps of the bridge, of the daemon's ends, and of the requests. -/
inductive Event (κ : Type*) where
  | bridge (e : Bridge.Event)
  /-- An event of the daemon's end of a port, other than that a response is read. -/
  | peer (port : ℕ) (e : Peer.Event κ)
  /-- The extension receives a request. -/
  | request (c : κ)
  | respond (c : κ) (outcome : Except RPCError RawMessage)
  | send (c : κ) (thrown : Option RPCError)
  /-- The daemon's end of its port reads a response. -/
  | read (c : κ)

/-- The response that is on its way, and its port. -/
def Phase.arriving : Phase → Option (ℕ × Response)
  | .posted port response => some (port, response)
  | _ => none

/-- A call is made once, and responses are not made up. -/
def State.admits (s : State κ) : Peer.Event κ → Bool
  | .call c => (s.port c).isNone
  | .receive incoming => incoming.response.isNone
  | _ => true

/-- When an event can happen. The daemon's ends are those of ports that have been opened. -/
def enabled (s : State κ) : Event κ → Prop
  | .bridge e => Bridge.Enabled s.bridge e
  | .peer port e =>
    port < s.bridge.opened ∧ s.admits e = true ∧ Peer.enabled (s.peers port) e
  | .request c => (s.phase c matches .written) ∧ ∃ port ∈ s.port c, s.bridge.Open port
  | .respond c _ => (s.phase c matches .handling)
  | .send c _ => (s.phase c matches .result ..) ∨ (s.phase c matches .error ..)
  | .read c => ∃ a ∈ (s.phase c).arriving, Peer.enabled (s.peers a.1) (.receive (incoming a.2))

instance (s : State κ) (e : Event κ) : Decidable (enabled s e) := by
  cases e <;> unfold enabled <;> infer_instance

/-- No random part of a delay. The steps of the bridge do not depend on how it was started. -/
def noJitter : Fin 250 := ⟨0, Nat.succ_pos 249⟩

/-- What an event does. -/
def next (s : State κ) : Event κ → State κ
  | .bridge e => { s with bridge := (Bridge.machine none noJitter).next s.bridge e }
  -- A step of the daemon's peer behind this port; ours only notes the call and the write.
  | .peer port e =>
    let s' := s.setPeer port (Peer.next (s.peers port) e)
    match e with
    | .call c => { s' with port := Function.update s.port c (some port) }
    | .write c none => s'.setPhase c .written
    | _ => s'
  | .request c => s.setPhase c .handling
  | .respond c outcome => s.respond c outcome
  | .send c thrown => s.send c thrown
  -- The response arrives at the peer of the port it was sent through.
  | .read c =>
    match (s.phase c).arriving with
    | some (port, response) =>
      (s.setPeer port (Peer.next (s.peers port) (.receive (incoming response)))).setPhase c .over
    | none => s

variable (κ) in
/-- The bridge after `start`, and the daemon. -/
def machine (connectNative : Option String) (jitter : Fin 250) : Machine (State κ) (Event κ) where
  init := { bridge := Bridge.State.new.start connectNative jitter }
  enabled := enabled
  next := next

instance (connectNative : Option String) (jitter : Fin 250) (s : State κ) (e : Event κ) :
    Decidable ((machine κ connectNative jitter).enabled s e) :=
  inferInstanceAs (Decidable (enabled s e))

/-! ### The ports of the bridge -/

/-- The port the bridge has is the last one that was opened. -/
def Latest (s : Bridge.State) : Prop := ∀ port, s.port = some port → port + 1 = s.opened

/-- A step opens ports or forgets the one the bridge has. -/
def Follows (s s' : Bridge.State) : Prop := s.opened ≤ s'.opened ∧ (Latest s → Latest s')

/-- A bridge that keeps its port. -/
theorem Follows.of_eq {s s' : Bridge.State} (h_port : s'.port = s.port)
    (h_opened : s'.opened = s.opened) : Follows s s' := by
  unfold Follows Latest
  rw [h_port, h_opened]
  exact ⟨le_rfl, id⟩

/-- `#connect` takes the newest port. -/
theorem follows_connect (s : Bridge.State) (connectNative : Option String) (jitter : Fin 250) :
    Follows s (s.connect connectNative jitter) := by
  unfold Bridge.State.connect
  split
  · exact .of_eq rfl rfl
  · split
    · refine ⟨Nat.le_succ _, ?_⟩
      rintro - _ ⟨⟩
      rfl
    · obtain ⟨timer, h_timer⟩ := Bridge.scheduleReconnect_eq _ jitter
      rw [h_timer]
      exact .of_eq rfl rfl

/-- Every step of the bridge. -/
theorem follows_next (s : Bridge.State) (e : Bridge.Event) :
    Follows s ((Bridge.machine none noJitter).next s e) := by
  cases e with
  -- the only event that opens a port
  | timer connectNative jitter => exact follows_connect { s with reconnectTimer := none } _ _
  | request => exact .of_eq rfl rfl
  -- the others send, settle or close, which is no matter of the ports' order
  | notify method =>
    obtain ⟨queued, h_notify⟩ := Bridge.notify_eq s method
    show Follows s (s.notify method)
    rw [h_notify]
    exact .of_eq rfl rfl
  | settle id error =>
    show Follows s (s.settle id error)
    unfold Bridge.State.settle
    split <;> exact .of_eq rfl rfl
  | react =>
    show Follows s s.react
    unfold Bridge.State.react
    split
    · exact .of_eq rfl rfl
    · obtain ⟨queued, h_flush⟩ := Bridge.flushNotifications_eq _
      rw [h_flush]
      exact .of_eq rfl rfl
    · exact .of_eq rfl rfl
  | hostDisconnect port reason =>
    refine ⟨le_rfl, ?_⟩
    rintro - _ ⟨⟩
  | callback resolved jitter =>
    show Follows s (s.onDisconnected resolved jitter)
    unfold Bridge.State.onDisconnected
    split
    · obtain ⟨timer, h_timer⟩ :=
        Bridge.scheduleReconnect_eq { s with callbacks := s.callbacks - 1 } jitter
      rw [h_timer]
      exact .of_eq rfl rfl
    · exact .of_eq rfl rfl

/-! ### Every step keeps it -/

/-- A call has been made on its port, and has tried to write its request. -/
def State.Made (s : State κ) (c : κ) : Prop :=
  ∃ port, s.port c = some port ∧ ((s.peers port).phase c).tried = true

/-- A response to a request and the port it is sent over: it has the id of the request, and the port
of the request is in the relation `R` to it. -/
structure Fits (R : ℕ → ℕ → Prop) (s : State κ) (c : κ) (port : ℕ) (response : Response) :
    Prop where
  id : response.id = idRaw (s.number c)
  port : ∃ port', s.port c = some port' ∧ R port' port

/-- The port that `#send` would take about a request now is in the relation `R` to the port of the
request. -/
def Chooses (R : ℕ → ℕ → Prop) (s : State κ) (c : κ) : Prop :=
  ∀ port ∈ s.bridge.port, ∀ port' ∈ s.port c, R port' port

omit [DecidableEq κ] in
/-- A response is sent on a port that fits its request. -/
theorem Chooses.fits {R : ℕ → ℕ → Prop} {s : State κ} {c : κ} (h : Chooses R s c)
    (h_made : s.Made c) {port : ℕ} (h_port : s.bridge.port = some port) {response : Response}
    (h_id : response.id = idRaw (s.number c)) : Fits R s c port response := by
  obtain ⟨port', h_conn, -⟩ := h_made
  exact ⟨h_id, port', h_conn, h port h_port port' h_conn⟩

/-- The request whose `#send` takes a port. -/
def Event.sends : Event κ → Option κ
  | .respond c _ => some c
  | .send c _ => some c
  | _ => none

/-- A response that `#send` has taken a port for. -/
def Phase.taken : Phase → Option (ℕ × Response)
  | .result port response => some (port, response)
  | .error port response => some (port, response)
  | _ => none

omit [DecidableEq κ] in
/-- When a request is received. -/
theorem enabled_request {s : State κ} {c : κ} : enabled s (.request c) ↔
    s.phase c = .written ∧ ∃ port ∈ s.port c, s.bridge.Open port := by
  cases h : s.phase c <;> simp [enabled, h]

omit [DecidableEq κ] in
/-- When a handler answers. -/
theorem enabled_respond {s : State κ} {c : κ} {outcome : Except RPCError RawMessage} :
    enabled s (.respond c outcome) ↔ s.phase c = .handling := by
  cases h : s.phase c <;> simp [enabled, h]

omit [DecidableEq κ] in
/-- When a response is sent. -/
theorem enabled_send {s : State κ} {c : κ} {thrown : Option RPCError} :
    enabled s (.send c thrown) ↔ ∃ a, (s.phase c).taken = some a := by
  cases h : s.phase c <;> simp [enabled, h, Phase.taken]

/-- What a response does at the daemon. -/
theorem next_read {s : State κ} {c : κ} {port : ℕ} {response : Response}
    (h : (s.phase c).arriving = some (port, response)) :
    next s (.read c) = (s.setPeer port
      (Peer.next (s.peers port) (.receive (incoming response)))).setPhase c .over := by
  simp only [next, h]

/-- What is still to be sent does not arrive. -/
theorem Phase.arriving_of_taken {phase : Phase} {a : ℕ × Response} (h : phase.taken = some a) :
    phase.arriving = none := by
  cases phase with
  | posted port response => cases h
  | _ => rfl

/-- The invariant, for the relation `R` between the port of a request and that of the response. -/
structure Inv (R : ℕ → ℕ → Prop) (s : State κ) : Prop where
  latest : Latest s.bridge
  reachable : ∀ port, (Peer.machine κ).Reachable (s.peers port)
  opened : ∀ c port, s.port c = some port → port < s.bridge.opened
  begun : ∀ c port, ((s.peers port).phase c).begun = true → s.port c = some port
  made : ∀ c, s.phase c ≠ .outside → s.Made c
  taken : ∀ c port response, (s.phase c).taken = some (port, response) → Fits R s c port response
  posted : ∀ c port response, (s.phase c).arriving = some (port, response) →
    s.answer c = some response ∧ Fits R s c port response
  /-- There is an answer when the response has been posted. -/
  answer : ∀ c, s.answer c ≠ none → (s.phase c).arriving ≠ none ∨ s.phase c = .over
  delivered : ∀ c port response, Peer.Delivered (s.peers port) c response →
    ∃ d, s.answer d = some response ∧ Fits R s d port response

namespace Inv

variable {R : ℕ → ℕ → Prop} {s : State κ} {c : κ}

/-- A request comes to a phase that agrees with its answer. -/
theorem setPhase (h : Inv R s) {phase : Phase} (h_made : s.Made c)
    (h_answer : s.answer c = none ∨ phase = .over)
    (h_taken : ∀ port response, phase.taken = some (port, response) → Fits R s c port response)
    (h_arriving : phase.arriving = none) : Inv R (s.setPhase c phase) := by
  have h_phase : ∀ d, (s.setPhase c phase).phase d = if d = c then phase else s.phase d := fun d =>
    Function.update_apply ..
  have h_fits : ∀ {d port response}, Fits R s d port response →
      Fits R (s.setPhase c phase) d port response := fun h => ⟨h.id, h.port⟩
  refine ⟨h.latest, h.reachable, h.opened, h.begun, ?_, ?_, ?_, ?_, ?_⟩
  -- each part of the invariant: for the request itself by assumption, for the others as before
  · intro d
    by_cases h_eq : d = c
    · rw [h_eq]
      exact fun _ => h_made
    · rw [h_phase, if_neg h_eq]
      exact h.made d
  · intro d port response
    by_cases h_eq : d = c
    · rw [h_phase, if_pos h_eq, h_eq]
      exact fun h => h_fits (h_taken port response h)
    · rw [h_phase, if_neg h_eq]
      exact fun h' => h_fits (h.taken d port response h')
  · intro d port response
    by_cases h_eq : d = c
    · rw [h_phase, if_pos h_eq, h_arriving]
      rintro ⟨⟩
    · rw [h_phase, if_neg h_eq]
      intro h_posted
      obtain ⟨h_answer, h_posted⟩ := h.posted d port response h_posted
      exact ⟨h_answer, h_fits h_posted⟩
  · intro d h_some
    by_cases h_eq : d = c
    · rw [h_phase, if_pos h_eq]
      refine .inr (h_answer.resolve_left ?_)
      exact h_eq ▸ h_some
    · rw [h_phase, if_neg h_eq]
      exact h.answer d h_some
  · intro d port response h_delivered
    obtain ⟨d', h_answer, h_port⟩ := h.delivered d port response h_delivered
    exact ⟨d', h_answer, h_fits h_port⟩

/-- A request whose response is not posted has no answer. -/
theorem answer_eq_none (h : Inv R s) (h_arriving : (s.phase c).arriving = none)
    (h_phase : s.phase c ≠ .over) : s.answer c = none := by
  by_contra h_some
  rcases h.answer c h_some with h_posted | h_over
  · exact h_posted h_arriving
  · exact h_phase h_over

/-- An error is chosen as the response. -/
theorem sendError (h : Inv R s) (h_chooses : Chooses R s c) (h_made : s.Made c)
    (h_answer : s.answer c = none) (err : RPCError) : Inv R (s.sendError c err) := by
  unfold State.sendError
  split
  case h_1 port h_port =>
    refine h.setPhase h_made (.inl h_answer) ?_ rfl
    rintro _ _ ⟨⟩
    exact h_chooses.fits h_made h_port rfl
  case h_2 =>
    refine h.setPhase h_made (.inr rfl) ?_ rfl
    rintro _ _ ⟨⟩

/-- A result or an error is chosen as the response. -/
theorem respond (h : Inv R s) (h_chooses : Chooses R s c) (h_phase : s.phase c = .handling)
    (outcome : Except RPCError RawMessage) : Inv R (s.respond c outcome) := by
  have h_made : s.Made c := h.made c (by rw [h_phase]; rintro ⟨⟩)
  -- A call that is being handled has not been answered.
  have h_answer : s.answer c = none := h.answer_eq_none (by rw [h_phase]; rfl)
    (by rw [h_phase]; rintro ⟨⟩)
  unfold State.respond
  split
  · split
    case h_1 port h_port =>
      refine h.setPhase h_made (.inl h_answer) ?_ rfl
      rintro _ _ ⟨⟩
      exact h_chooses.fits h_made h_port rfl
    case h_2 =>
      refine h.setPhase h_made (.inr rfl) ?_ rfl
      rintro _ _ ⟨⟩
  · exact h.sendError h_chooses h_made h_answer _

/-- The response is on its way. -/
theorem post (h : Inv R s) {port : ℕ} {response : Response}
    (h_taken : (s.phase c).taken = some (port, response)) (h_answer : s.answer c = none) :
    Inv R (s.post c port response) := by
  -- the answer is in the air now, on the port it was taken for
  have h_phase : ∀ d, (s.post c port response).phase d =
      if d = c then .posted port response else s.phase d := fun d => Function.update_apply ..
  have h_fits : ∀ {d port' response'}, Fits R s d port' response' →
      Fits R (s.post c port response) d port' response' := fun h => ⟨h.id, h.port⟩
  -- The others keep their answers.
  have h_others : ∀ {d response'}, s.answer d = some response' →
      (s.post c port response).answer d = some response' := by
    intro d response' h_some
    have h_ne : d ≠ c := by
      rintro rfl
      rw [h_answer] at h_some
      cases h_some
    exact (Function.update_of_ne h_ne ..).trans h_some
  refine ⟨h.latest, h.reachable, h.opened, h.begun, ?_, ?_, ?_, ?_, ?_⟩
  · intro d h_ne
    by_cases h_eq : d = c
    · rw [h_eq]
      refine h.made c fun h_outside => ?_
      rw [h_outside] at h_taken
      cases h_taken
    · rw [h_phase, if_neg h_eq] at h_ne
      exact h.made d h_ne
  · intro d port' response'
    by_cases h_eq : d = c
    · rw [h_phase, if_pos h_eq]
      rintro ⟨⟩
    · rw [h_phase, if_neg h_eq]
      exact fun h' => h_fits (h.taken d port' response' h')
  -- what is in the air is the answer of its call
  · intro d port' response' h_posted
    by_cases h_eq : d = c
    · rw [h_phase, if_pos h_eq] at h_posted
      cases h_posted
      rw [h_eq]
      exact ⟨Function.update_self .., h_fits (h.taken c port response h_taken)⟩
    · rw [h_phase, if_neg h_eq] at h_posted
      obtain ⟨h_some, h_posted⟩ := h.posted d port' response' h_posted
      exact ⟨h_others h_some, h_fits h_posted⟩
  · intro d h_some
    by_cases h_eq : d = c
    · rw [h_phase, if_pos h_eq]
      left
      rintro ⟨⟩
    · rw [h_phase, if_neg h_eq]
      have h_answer' : (s.post c port response).answer d = s.answer d :=
        Function.update_of_ne h_eq ..
      rw [h_answer'] at h_some
      exact h.answer d h_some
  -- what was delivered before stays answered
  · intro d port' response' h_delivered
    obtain ⟨d', h_some, h_port⟩ := h.delivered d port' response' h_delivered
    exact ⟨d', h_others h_some, h_fits h_port⟩

/-- The response is sent, or what replaces it. -/
theorem send (h : Inv R s) (h_chooses : Chooses R s c) {a : ℕ × Response}
    (h_taken : (s.phase c).taken = some a) (thrown : Option RPCError) :
    Inv R (s.send c thrown) := by
  have h_made : s.Made c := h.made c fun h_outside => by
    rw [h_outside] at h_taken
    cases h_taken
  -- nothing was answered for the request so far
  have h_answer : s.answer c = none := h.answer_eq_none (Phase.arriving_of_taken h_taken) (by
    intro h_over
    rw [h_over] at h_taken
    cases h_taken)
  unfold State.send
  split
  case h_1 port response h_phase =>
    rw [h_phase] at h_taken
    split
    · exact h.sendError h_chooses h_made h_answer _
    · split
      · exact h.post (by rw [h_phase]; rfl) h_answer
      · exact h.sendError h_chooses h_made h_answer _
  -- the second attempt, with an error in place of the result
  case h_2 port response h_phase =>
    split
    · exact h.post (by rw [h_phase]; rfl) h_answer
    · refine h.setPhase h_made (.inr rfl) ?_ rfl
      rintro _ _ ⟨⟩
  case h_3 => exact h

/-- The daemon's end of a port takes a step. -/
theorem setPeer (h : Inv R s) {port : ℕ} {peer : Peer.State κ}
    (h_reachable : (Peer.machine κ).Reachable peer)
    (h_same : ∀ c, Peer.Same (s.peers port) peer c)
    (h_delivered : ∀ c response, Peer.Delivered peer c response →
      ∃ d, s.answer d = some response ∧ Fits R s d port response) :
    Inv R (s.setPeer port peer) := by
  have h_peers : ∀ port' c, Peer.Same (s.peers port') ((s.setPeer port peer).peers port') c := by
    intro port' c
    by_cases h_eq : port' = port
    · rw [h_eq, State.peers_setPeer_self]
      exact h_same c
    · rw [State.peers_setPeer_of_ne s h_eq]
      exact .of_calls rfl
  -- the numbers of the calls are those that the peers gave them
  have h_number : ∀ d, (s.setPeer port peer).number d = s.number d := by
    intro d
    simp only [State.number, State.setPeer]
    split
    · exact (h_peers _ d).id
    · rfl
  have h_fits : ∀ {d port' response}, Fits R s d port' response →
      Fits R (s.setPeer port peer) d port' response := by
    intro d port' response h'
    refine ⟨?_, h'.port⟩
    rw [h_number]
    exact h'.id
  refine ⟨h.latest, ?_, h.opened, ?_, ?_, ?_, ?_, h.answer, ?_⟩
  · intro port'
    by_cases h_eq : port' = port
    · rw [h_eq, State.peers_setPeer_self]
      exact h_reachable
    · rw [State.peers_setPeer_of_ne s h_eq]
      exact h.reachable port'
  · intro c port' h_begun
    rw [(h_peers port' c).begun] at h_begun
    exact h.begun c port' h_begun
  · intro c h_phase
    obtain ⟨port', h_port, h_tried⟩ := h.made c h_phase
    exact ⟨port', h_port, (h_peers port' c).tried h_tried⟩
  · exact fun c port' response h_taken => h_fits (h.taken c port' response h_taken)
  · intro c port' response h_posted
    obtain ⟨h_answer, h_port⟩ := h.posted c port' response h_posted
    exact ⟨h_answer, h_fits h_port⟩
  -- a response that is delivered now is one that was answered
  · intro c port' response h'
    by_cases h_eq : port' = port
    · rw [h_eq, State.peers_setPeer_self] at h'
      obtain ⟨d, h_answer, h_port⟩ := h_delivered c response h'
      exact ⟨d, h_answer, h_eq ▸ h_fits h_port⟩
    · rw [State.peers_setPeer_of_ne s h_eq] at h'
      obtain ⟨d, h_answer, h_port⟩ := h.delivered c port' response h'
      exact ⟨d, h_answer, h_fits h_port⟩

/-- A response is read that has been posted, or no response is. -/
theorem peer (h : Inv R s) {port : ℕ} {e : Peer.Event κ} (he : Peer.enabled (s.peers port) e)
    (h_call : ∀ c, e ≠ .call c)
    (h_read : ∀ incoming response, e = .receive incoming → incoming.response = some response →
      ∃ d, s.answer d = some response ∧ Fits R s d port response) :
    Inv R (s.setPeer port (Peer.next (s.peers port) e)) := by
  refine h.setPeer (Peer.reachable_next (h.reachable port) he)
    (fun c => Peer.same_next he fun d h_eq => absurd h_eq (h_call d)) ?_
  intro c response h'
  rcases Peer.delivered_of_next he h' with h_before | ⟨incoming, h_eq, h_response⟩
  · exact h.delivered c port response h_before
  · exact h_read incoming response h_eq h_response

/-- A call is made on a port that has been opened. -/
theorem call (h : Inv R s) {port : ℕ} (h_opened : port < s.bridge.opened) (h_port : s.port c = none)
    (he : Peer.enabled (s.peers port) (.call c)) :
    Inv R { s.setPeer port (Peer.next (s.peers port) (.call c)) with
      port := Function.update s.port c (some port) } := by
  set s' : State κ := { s.setPeer port (Peer.next (s.peers port) (.call c)) with
    port := Function.update s.port c (some port) } with h_next
  have h_peer : s'.peers port = Peer.next (s.peers port) (.call c) := Function.update_self ..
  have h_peer_of_ne : ∀ {port'}, port' ≠ port → s'.peers port' = s.peers port' := fun h_ne =>
    Function.update_of_ne h_ne ..
  -- The other calls are as they were, and `c` was on no port.
  have h_port_of_ne : ∀ {d}, d ≠ c → s'.port d = s.port d := fun h_ne =>
    Function.update_of_ne h_ne ..
  have h_same : ∀ {d}, d ≠ c → ∀ port', Peer.Same (s.peers port') (s'.peers port') d := by
    intro d h_ne port'
    by_cases h_eq : port' = port
    · rw [h_eq, h_peer]
      refine Peer.same_next he ?_
      rintro _ ⟨⟩ h_eq'
      exact h_ne h_eq'.symm
    · rw [h_peer_of_ne h_eq]
      exact .of_calls rfl
  have h_ne_of_port : ∀ {d port'}, s.port d = some port' → d ≠ c := by
    rintro d port' h_some rfl
    rw [h_port] at h_some
    cases h_some
  have h_fits : ∀ {d port' response}, Fits R s d port' response → Fits R s' d port' response := by
    intro d port' response h'
    obtain ⟨port'', h_conn, h_le⟩ := h'.port
    have h_ne := h_ne_of_port h_conn
    refine ⟨?_, port'', (h_port_of_ne h_ne).trans h_conn, h_le⟩
    rw [h'.id, State.number, State.number, h_port_of_ne h_ne, h_conn]
    exact congrArg idRaw (h_same h_ne port'').id.symm
  refine ⟨h.latest, ?_, ?_, ?_, ?_, ?_, ?_, h.answer, ?_⟩
  · intro port'
    by_cases h_eq : port' = port
    · rw [h_eq, h_peer]
      exact Peer.reachable_next (h.reachable port) he
    · rw [h_peer_of_ne h_eq]
      exact h.reachable port'
  · intro d port' h_some
    by_cases h_eq : d = c
    · rw [h_eq] at h_some
      have h_self : s'.port c = some port := Function.update_self ..
      cases h_self.symm.trans h_some
      exact h_opened
    · rw [h_port_of_ne h_eq] at h_some
      exact h.opened d port' h_some
  · intro d port' h_begun
    by_cases h_eq : d = c
    · rw [h_eq] at h_begun ⊢
      by_cases h_eq' : port' = port
      · rw [h_eq']
        exact Function.update_self ..
      · rw [h_peer_of_ne h_eq'] at h_begun
        cases h_port.symm.trans (h.begun c port' h_begun)
    · rw [(h_same h_eq port').begun] at h_begun
      exact (h_port_of_ne h_eq).trans (h.begun d port' h_begun)
  · intro d h_phase
    obtain ⟨port', h_conn, h_tried⟩ := h.made d h_phase
    have h_ne := h_ne_of_port h_conn
    exact ⟨port', (h_port_of_ne h_ne).trans h_conn, (h_same h_ne port').tried h_tried⟩
  · exact fun d port' response h_taken => h_fits (h.taken d port' response h_taken)
  · intro d port' response h_posted
    obtain ⟨h_answer, h_some⟩ := h.posted d port' response h_posted
    exact ⟨h_answer, h_fits h_some⟩
  · intro d port' response h'
    by_cases h_eq : port' = port
    · rw [h_eq, h_peer] at h'
      rcases Peer.delivered_of_next he h' with h_before | ⟨_, ⟨⟩, -⟩
      obtain ⟨d', h_answer, h_some⟩ := h.delivered d port response h_before
      exact ⟨d', h_answer, h_eq ▸ h_fits h_some⟩
    · rw [h_peer_of_ne h_eq] at h'
      obtain ⟨d', h_answer, h_some⟩ := h.delivered d port' response h'
      exact ⟨d', h_answer, h_fits h_some⟩

/-- A step of the bridge alone. -/
theorem bridge (h : Inv R s) (e : Bridge.Event) :
    Inv R { s with bridge := (Bridge.machine none noJitter).next s.bridge e } := by
  obtain ⟨h_opened, h_latest⟩ := follows_next s.bridge e
  have h_fits : ∀ {d port response}, Fits R s d port response →
      Fits R { s with bridge := (Bridge.machine none noJitter).next s.bridge e } d port response :=
    fun h => ⟨h.id, h.port⟩
  refine ⟨h_latest h.latest, h.reachable, ?_, h.begun, h.made, ?_, ?_, h.answer, ?_⟩
  · exact fun c port h_port => (h.opened c port h_port).trans_le h_opened
  · exact fun c port response h_taken => h_fits (h.taken c port response h_taken)
  · intro c port response h_posted
    obtain ⟨h_answer, h_port⟩ := h.posted c port response h_posted
    exact ⟨h_answer, h_fits h_port⟩
  · intro c port response h_delivered
    obtain ⟨d, h_answer, h_port⟩ := h.delivered c port response h_delivered
    exact ⟨d, h_answer, h_fits h_port⟩

/-- A call that has begun has tried to write its request when the request is written. -/
theorem write (h : Inv R s) {port : ℕ} (he : Peer.enabled (s.peers port) (.write c none)) :
    Inv R ((s.setPeer port (Peer.next (s.peers port) (.write c none))).setPhase c .written) := by
  have h_writing := Peer.enabled_write.mp he
  have h_port : s.port c = some port := h.begun c port (by rw [h_writing]; rfl)
  -- the call is only being written, so the extension has not seen it
  have h_outside : s.phase c = .outside := by
    by_contra h_ne
    obtain ⟨port', h_port', h_tried⟩ := h.made c h_ne
    cases h_port.symm.trans h_port'
    rw [h_writing] at h_tried
    cases h_tried
  have h_answer : s.answer c = none := h.answer_eq_none (by rw [h_outside]; rfl)
    (by rw [h_outside]; rintro ⟨⟩)
  have h_peer : Inv R (s.setPeer port (Peer.next (s.peers port) (.write c none))) :=
    h.peer he (by rintro _ ⟨⟩) (by rintro _ _ ⟨⟩)
  refine h_peer.setPhase ⟨port, h_port, ?_⟩ (.inl h_answer) (by rintro _ _ ⟨⟩) rfl
  -- it waits in the peer of its port
  have h_waiting :
      ((s.setPeer port (Peer.next (s.peers port) (.write c none))).peers port).phase c =
      .waiting := by
    rw [State.peers_setPeer_self]
    exact Peer.phase_setCall_self ..
  rw [h_waiting]
  rfl

/-- The daemon's end of its port reads a response. -/
theorem read (h : Inv R s) {port : ℕ} {response : Response}
    (h_posted : (s.phase c).arriving = some (port, response))
    (he : Peer.enabled (s.peers port) (.receive (incoming response))) :
    Inv R ((s.setPeer port (Peer.next (s.peers port) (.receive (incoming response)))).setPhase c
      .over) := by
  -- the peer reads the response that was posted for the call
  have h_peer :
      Inv R (s.setPeer port (Peer.next (s.peers port) (.receive (incoming response)))) := by
    refine h.peer he (by rintro _ ⟨⟩) ?_
    rintro _ response' ⟨⟩ h_response
    have h_eq : response' = response := by
      simp only [incoming, Incoming.response, ne_eq, not_true_eq_false, if_false] at h_response
      split at h_response
      · cases h_response
      · exact (Option.some.inj h_response).symm
    obtain ⟨h_answer, h_fits⟩ := h.posted c port response h_posted
    rw [h_eq]
    exact ⟨c, h_answer, h_fits⟩
  refine h_peer.setPhase ?_ (.inr rfl) (by rintro _ _ ⟨⟩) rfl
  refine h_peer.made c fun h_outside => ?_
  have h_outside : s.phase c = .outside := h_outside
  rw [h_outside] at h_posted
  cases h_posted

/-- Every step keeps the invariant. -/
theorem next (h : Inv R s) {e : Event κ} (he : enabled s e)
    (h_chooses : ∀ c ∈ e.sends, Chooses R s c) : Inv R (next s e) := by
  cases e with
  | bridge e => exact h.bridge e
  | peer port e =>
    obtain ⟨h_opened, h_admits, h_peer⟩ := he
    have h_read : ∀ incoming response, e = .receive incoming → incoming.response = some response →
        ∃ d, s.answer d = some response ∧ Fits R s d port response := by
      rintro incoming response rfl h_response
      -- No response is made up.
      have h_none : incoming.response = none := Option.isNone_iff_eq_none.mp h_admits
      cases h_none.symm.trans h_response
    cases e with
    | call c => exact h.call h_opened (Option.isNone_iff_eq_none.mp h_admits) h_peer
    | write c err =>
      cases err with
      | none => exact h.write h_peer
      | some message => exact h.peer h_peer (by rintro _ ⟨⟩) h_read
    | _ => exact h.peer h_peer (by rintro _ ⟨⟩) h_read
  -- the extension: it takes the request, answers it, and sends the answer
  | request c =>
    have h_written := (enabled_request.mp he).1
    refine h.setPhase (h.made c (by rw [h_written]; rintro ⟨⟩)) (.inl ?_) (by rintro _ _ ⟨⟩) rfl
    exact h.answer_eq_none (by rw [h_written]; rfl) (by rw [h_written]; rintro ⟨⟩)
  | respond c outcome => exact h.respond (h_chooses c rfl) (enabled_respond.mp he) outcome
  | send c thrown =>
    obtain ⟨a, h_taken⟩ := enabled_send.mp he
    exact h.send (h_chooses c rfl) h_taken thrown
  -- the host reads the answer from the port
  | read c =>
    obtain ⟨⟨port, response⟩, h_posted, h_peer⟩ := he
    have h_posted : (s.phase c).arriving = some (port, response) := h_posted
    rw [next_read h_posted]
    exact h.read h_posted h_peer

end Inv

/-- There is no request at first. -/
theorem inv_init (R : ℕ → ℕ → Prop) (connectNative : Option String) (jitter : Fin 250) :
    Inv R (machine κ connectNative jitter).init := by
  have h_latest : Latest (Bridge.State.new.start connectNative jitter) := by
    refine (follows_connect { Bridge.State.new with stopped := false } connectNative jitter).2 ?_
    rintro _ ⟨⟩
  refine ⟨h_latest, fun _ => .init, by rintro _ _ ⟨⟩, by rintro _ _ ⟨⟩, fun _ h => absurd rfl h,
    by rintro _ _ _ ⟨⟩, by rintro _ _ _ ⟨⟩, fun _ h => absurd rfl h, ?_⟩
  rintro c port response (⟨⟨⟩⟩ | ⟨⟨⟩⟩ | ⟨⟨⟩⟩)

/-- The bridge has no port that is older than the port of a request. -/
theorem Inv.chooses {R : ℕ → ℕ → Prop} {s : State κ} (h : Inv R s) (c : κ) :
    Chooses (· ≤ ·) s c := by
  intro port h_port port' h_conn
  have h_opened := h.opened c port' h_conn
  have h_latest := h.latest port h_port
  show port' ≤ port
  omega

variable {connectNative : Option String} {jitter : Fin 250} {s : State κ}

/-- The port of a response is at least as new as the one of its request. -/
theorem inv (hs : (machine κ connectNative jitter).Reachable s) : Inv (· ≤ ·) s :=
  hs.induction (P := Inv (· ≤ ·)) (inv_init _ connectNative jitter)
    fun _ _ _ h he => h.next he fun c _ => h.chooses c

/-- No request is being handled or answered when the bridge has another port than the one the
request came over. -/
def Prompt (s : State κ) (e : Event κ) : Prop := ∀ c ∈ e.sends, Chooses (· = ·) s c

omit [DecidableEq κ] in
instance (s : State κ) (e : Event κ) : Decidable (Prompt s e) := by
  unfold Prompt Chooses
  infer_instance

/-- In a prompt run it is the same. -/
theorem inv_of_prompt (hs : ((machine κ connectNative jitter).restrict Prompt).Reachable s) :
    Inv (· = ·) s := by
  refine Machine.Reachable.induction (M := (machine κ connectNative jitter).restrict Prompt)
    (inv_init _ connectNative jitter) ?_ hs
  intro s e _ h he
  exact h.next he.1 he.2

/-! ### Whose response it is -/

/-- What a call returns has been posted about a request of the same number, over the port of the
call; on one port there is only one call of a number. -/
theorem Inv.posted_of_returned {R : ℕ → ℕ → Prop} (h : Inv R s) {c : κ} {port : ℕ}
    {response : Response}
    (h_returned : (s.peers port).phase c = .returned (.ok response)) :
    ∃ d port', s.answer d = some response ∧ s.port d = some port' ∧ R port' port ∧
      s.number d = s.number c ∧ (port' = port → d = c) := by
  have h_delivered : Peer.Delivered (s.peers port) c response := .returned h_returned
  obtain ⟨d, h_answer, h_id, port', h_conn, h_port⟩ := h.delivered c port response h_delivered
  obtain ⟨h_key, h_begun⟩ := h_delivered.key_eq (h.reachable port)
  have h_number : s.number c = ((s.peers port).calls c).id := by
    rw [State.number, h.begun c port h_begun]
  -- the response has the number of the call
  have h_numbers : s.number d = s.number c := by
    refine key_injective ?_
    rw [← h_id, h_key, h_number]
    rfl
  refine ⟨d, port', h_answer, h_conn, h_port, h_numbers, ?_⟩
  rintro rfl
  -- on one port a number stands for one call
  have h_made : s.Made d := by
    refine h.made d fun h_outside => ?_
    rcases h.answer d (by rw [h_answer]; rintro ⟨⟩) with h_arriving | h_over
    · rw [h_outside] at h_arriving
      exact h_arriving rfl
    · rw [h_outside] at h_over
      cases h_over
  obtain ⟨port'', h_conn', h_tried⟩ := h_made
  cases h_conn.symm.trans h_conn'
  refine (Peer.inv (h.reachable port')).ids d c (Peer.Phase.begun_of_tried h_tried) h_begun ?_
  have h_number' : s.number d = ((s.peers port').calls d).id := by
    rw [State.number, h_conn]
  rw [← h_number', h_numbers, h_number]

/-- **Whose response a call returns.** In every run: the response a call of the daemon returns has
been posted about a request with the same number; this is its own request, or one that came over a
port that was opened earlier. -/
theorem returned_answer (hs : (machine κ connectNative jitter).Reachable s) {c : κ} {port : ℕ}
    {response : Response} (h_returned : (s.peers port).phase c = .returned (.ok response)) :
    ∃ d, s.answer d = some response ∧ s.number d = s.number c ∧
      (d = c ∨ ∃ port', s.port d = some port' ∧ port' < port) := by
  obtain ⟨d, port', h_answer, h_conn, h_le, h_number, h_same⟩ :=
    (inv hs).posted_of_returned h_returned
  refine ⟨d, h_answer, h_number, ?_⟩
  rcases eq_or_lt_of_le h_le with h_eq | h_lt
  · exact .inl (h_same h_eq)
  · exact .inr ⟨port', h_conn, h_lt⟩

/-- A request of a call on a port is written and received. -/
def asked (port : ℕ) (c : Bool) : List (Event Bool) :=
  [.peer port (.call c), .peer port (.register c), .peer port (.check c),
    .peer port (.write c none),
    .request c]

/-- The handler of a request returns, and the response is posted and read. -/
def told (port : ℕ) (c d : Bool) : List (Event Bool) :=
  [.respond c (.ok ['1']), .send c none, .read c, .peer port .deliver, .peer port (.take d)]

/-- A system with two calls. -/
def twoCalls : Machine (State Bool) (Event Bool) := machine Bool none noJitter

instance (s : State Bool) (e : Event Bool) : Decidable (twoCalls.enabled s e) :=
  inferInstanceAs (Decidable (enabled s e))

/-- The bridge reconnects while the first request is being handled. -/
def reconnected : List (Event Bool) :=
  asked 0 false ++ [.bridge (.hostDisconnect 0 "native host disconnected"),
    .bridge (.callback true noJitter), .bridge (.timer none noJitter)] ++ asked 1 true ++
    told 1 false true

/-- The second call has returned what was posted about the first request. -/
theorem returned_answer_reconnected :
    ∃ d, (twoCalls.exec twoCalls.init reconnected).answer d = some ⟨"2.0", idRaw 1, ['1'], none⟩ ∧
      (twoCalls.exec twoCalls.init reconnected).number d =
        (twoCalls.exec twoCalls.init reconnected).number true ∧
      (d = true ∨ ∃ port', (twoCalls.exec twoCalls.init reconnected).port d = some port' ∧
        port' < 1) := by
  have h_run : twoCalls.Runs twoCalls.init reconnected := by decide +kernel
  exact returned_answer (Machine.Runs.reachable h_run) rfl

/-- **Own responses.** In every run in which no request is being handled or answered when the bridge
has another port than the one the request came over: the response a call of the daemon returns has
been posted about its own request. -/
theorem returned_answer_of_prompt
    (hs : ((machine κ connectNative jitter).restrict Prompt).Reachable s)
    {c : κ} {port : ℕ} {response : Response}
    (h_returned : (s.peers port).phase c = .returned (.ok response)) :
    s.answer c = some response := by
  obtain ⟨d, port', h_answer, -, h_eq, -, h_same⟩ :=
    (inv_of_prompt hs).posted_of_returned h_returned
  rw [← h_same h_eq]
  exact h_answer

/-- Without a reconnection a call returns what was posted about its request. -/
theorem returned_answer_told :
    (twoCalls.exec twoCalls.init (asked 0 false ++ told 0 false false)).answer false =
      some ⟨"2.0", idRaw 1, ['1'], none⟩ := by
  have h_run : (twoCalls.restrict Prompt).Runs twoCalls.init
    (asked 0 false ++ told 0 false false) := by
    decide +kernel
  have h_reachable : (twoCalls.restrict Prompt).Reachable
      (twoCalls.exec twoCalls.init (asked 0 false ++ told 0 false false)) := ⟨_, h_run, rfl⟩
  exact @returned_answer_of_prompt Bool _ none noJitter _ h_reachable false 0 _ rfl

end BrowserControl.Extension.Responses
