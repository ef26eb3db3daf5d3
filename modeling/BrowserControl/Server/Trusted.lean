import BrowserControl.Bridge.Registry
import BrowserControl.Core.Events
import BrowserControl.Core.LeaseTable
import BrowserControl.Server.Forward

/-!
# The trusted side of the daemon

`Trusted.machine` runs any number of bridge connections. A connection is served until it ends;
then `acceptLoop` forgets that it was authenticated, removes its instances from the registry and
revokes their leases one instance after the other, and stops everything if it was the last one.
Every request on a connection has a handler of its own (`handleBridge`), which may still run when
the connection has ended, and the public requests `tab.claim` hand out leases over the connections
(`tabClaim`).

A step is one critical section, of the manager, the registry or the set of authenticated
connections; between two of them anything can happen. What a section does to these parts is
collected in `Effects`, and a handler keeps what it knows in its phase.

Connections are numbered in the order in which they are accepted. A call over the bridge reaches
the connection that owns the instance, or fails: a peer that loses an instance is closed by the
registry, so finding the peer and writing to it are one step here. The instances of a peer are
seen (`Touch`) whenever a call or a notification over it succeeds; where nothing else depends on
the call, this is an event of its own.

The state also records who has registered what and which leases were claimed over which
connections.
-/

namespace BrowserControl.Server.Trusted

open Encoding Protocol BrowserControl.Core BrowserControl.Bridge Transition

/-- The functions of Go's library that the model leaves open. -/
structure Library where
  /-- SHA-256. -/
  hash : String → String
  /-- The stored token as it is written. -/
  token : String
  decodeHello : Object → Option Hello
  /-- The number of milliseconds, unless it is negative. -/
  duration : Number → Option Duration
  /-- The number without its fraction, unless it is negative. -/
  natural : Number → Option ℕ
  confirmationJson : Confirmation → Json
  artifactJson : Artifact → Json

/-! ### State -/

/-- Where `acceptLoop` stands with a connection. -/
inductive ConnectionPhase where
  | outside
  | serving
  /-- `Serve` has returned. -/
  | ended
  | forgotten
  /-- The instances are removed, and the leases of `rest` are still to be revoked. -/
  | disconnected (rest : List String)
  /-- The leases of `id` are about to be revoked. -/
  | revoking (id : String) (rest : List String)
  /-- There was no instance left. -/
  | stopping
  | finished
  deriving DecidableEq

/-- Where the handler of a request on a connection stands. -/
inductive HandlerPhase where
  | outside
  | received
  | authenticated
  /-- The connection has completed a hello, or this is one. -/
  | admitted
  /-- A hello has registered an instance. -/
  | registered (browserInstanceID : String)
  /-- The instances of the peer were seen. -/
  | touched
  /-- A confirmation is asked for by an instance. -/
  | identified (browserInstanceID : String)
  /-- The event is about to be emitted. -/
  | accepted (payload : Json)
  | found (c : Confirmation)
  /-- The peer owned the instance of the confirmation. -/
  | owned (c : Confirmation)
  | answered (rpcErr : Option RPCError)

/-- A request on a connection. -/
structure Request where
  peer : ℕ := 0
  method : String := ""
  /-- The parameters, if they are an object. -/
  params : Option Object := none
  notification : Bool := false
  phase : HandlerPhase := .outside

/-- Where a `tab.claim` stands. -/
inductive ClaimPhase where
  | outside
  | started
  | resolved (browserInstanceID : String)
  | claimed (browserInstanceID : String) (l : Lease)
  | bound (browserInstanceID : String) (l : Lease)
  /-- The extension was told over a connection. -/
  | sent (peer : ℕ) (l : Lease)
  /-- The lease is about to be released, and the error returned. -/
  | releasing (l : Lease) (reason : String) (rpcErr : RPCError)
  | answered (rpcErr : Option RPCError)

/-- A public request `tab.claim`. -/
structure Claim where
  params : Object := .empty
  phase : ClaimPhase := .outside

/-- The extension was told over a connection that a lease for a tab was claimed. -/
structure Sent where
  leaseID : String
  tabID : String
  peer : ℕ

/-- The daemon with its connections, requests and claims. -/
structure State (ρ γ κ : Type*) where
  /-- The manager. -/
  table : LeaseTable.State κ
  log : Events.EventLog
  registry : Registry ℕ := .new
  bridgeAuth : ℕ → Bool := fun _ => false
  /-- The number of connections accepted so far. -/
  accepted : ℕ := 0
  connections : ℕ → ConnectionPhase := fun _ => .outside
  requests : ρ → Request := fun _ => {}
  claims : γ → Claim := fun _ => {}
  /-- What was registered so far, the last first. -/
  registrations : List (String × ℕ) := []
  /-- The leases claimed over connections so far, the last first. -/
  sent : List Sent := []

/-- What a critical section does to the parts of the daemon. -/
structure Effects where
  command : Option LeaseTable.Event := none
  action : Option (Action ℕ) := none
  event : Option (Events.Event × Time) := none
  /-- A connection becomes authenticated, or is forgotten. -/
  auth : Option (ℕ × Bool) := none

/-- What the environment gives to a step: the time, a new id, what was written to the disk for an
artifact, and whether a call over the bridge succeeds. -/
structure Input where
  now : Time := 0
  id : String := ""
  artifact : Except RPCError Artifact := .error internal
  answer : Except BridgeFailure (Option RPCError) := .ok none

/-! ### Fields -/

/-- `durationMS` -/
def durationMS (lib : Library) (params : Object) (key : String) (fallback : Duration) : Duration :=
  match params.get key with
  | some (.num n) => (lib.duration n).getD fallback
  | _ => fallback

/-- `uintField` -/
def uintField (lib : Library) (params : Object) (key : String) : Option ℕ :=
  match params.get key with
  | some (.num n) => lib.natural n
  | _ => none

/-- A hexadecimal digit. -/
def isHexDigit (c : Char) : Bool :=
  ('0' ≤ c && c ≤ '9') || ('a' ≤ c && c ≤ 'f') || ('A' ≤ c && c ≤ 'F')

/-- `isSHA256` -/
def isSHA256 (value : String) : Bool := value.length = 64 && value.toList.all isHexDigit

/-- The fields of a payload; what is no object has none. -/
def payloadFields (params : Object) : List (String × Json) :=
  match params.get "payload" with
  | some (.obj fields) => fields
  | _ => []

/-- The parameters of a request, where none are taken for the empty object. -/
def Request.object (q : Request) : Object := q.params.getD .empty

/-- `bridgeauth.Matches`: the hashes of the tokens are compared. -/
def Library.tokenMatches (lib : Library) (provided : String) : Bool :=
  lib.hash provided = lib.hash lib.token

/-- The method that authenticates a connection. -/
def authenticateMethod : String := "bridge.transport.authenticate"

variable {ρ γ κ : Type*} [DecidableEq κ]

namespace State

variable (s : State ρ γ κ)

/-- The manager with its leases. -/
def manager : Manager κ := s.table.manager

end State

/-! ### Requests on a connection -/

/-- `permissionDenied` -/
def permissionDenied (message : String) : RPCError :=
  newError codeCapabilityDenied "PERMISSION_DENIED" message false .empty

/-- The handler is answered, and nothing happens. -/
def refuse (rpcErr : RPCError) : HandlerPhase × Effects := (.answered (some rpcErr), {})

/-- The handler goes on, and nothing happens. -/
def proceed (phase : HandlerPhase) : HandlerPhase × Effects := (phase, {})

/-- The error of a method that returns nothing else of interest. -/
def errorOf {α : Type*} : Except RPCError α → Option RPCError
  | .error rpcErr => some rpcErr
  | .ok _ => none

/-- `authenticateBridgeTransport` -/
def authenticateBridgeTransport (lib : Library) (q : Request) : HandlerPhase × Effects :=
  if q.notification ∨ ¬ lib.tokenMatches (stringField q.object "token") then
    refuse (permissionDenied "bridge transport authentication failed")
  else (.answered none, { auth := some (q.peer, true) })

/-- The first section of `handleBridge`. -/
def handleBridge (lib : Library) (s : State ρ γ κ) (q : Request) : HandlerPhase × Effects :=
  match q.params with
  | none => refuse (invalidParams "params must be a JSON object" .empty)
  | some _ =>
    if q.method = authenticateMethod then authenticateBridgeTransport lib q
    else if ¬ s.bridgeAuth q.peer then
      refuse (permissionDenied "bridge transport authentication is required")
    else if q.method = "bridge.hello" then proceed .admitted
    else proceed .authenticated

/-- A method other than a hello is admitted on a connection that owns an instance. -/
def checkHelloFirst (s : State ρ γ κ) (q : Request) : HandlerPhase × Effects :=
  if s.registry.idForPeer q.peer = "" then
    refuse (permissionDenied "trusted bridge must complete bridge.hello first")
  else proceed .admitted

/-- `bridgeHello` -/
def bridgeHello (lib : Library) (s : State ρ γ κ) (q : Request) (now : Time) :
    HandlerPhase × Effects :=
  match lib.decodeHello q.object with
  | none => refuse (invalidParams "invalid bridge hello" .empty)
  | some hello =>
    match s.registry.register q.peer hello now with
    | .error rpcErr => refuse rpcErr
    | .ok _ =>
      (.registered hello.browserInstanceID, { action := some (.register q.peer hello now) })

/-- An event about an instance that the daemon emits itself. -/
def browserEvent (type browserInstanceID : String) : Events.Event where
  type := type
  payload := some (.obj [("browserInstanceId", .str browserInstanceID)])

/-- `admin.revoke` -/
def adminRevoke (s : State ρ γ κ) (q : Request) (now : Time) : HandlerPhase × Effects :=
  let tabID := stringField q.object "tabId"
  let reason := stringField q.object "reason"
  (.answered (errorOf (s.manager.revokeTab now tabID reason).result),
    { command := some ⟨.revokeTab tabID reason, now⟩ })

/-- The extensions of the other instances are told afterwards, which changes nothing here. -/
def adminStopAll (q : Request) (now : Time) : HandlerPhase × Effects :=
  let reason := stringField q.object "reason"
  (.answered none,
    { command := some ⟨.stopAll (if reason = "" then "admin stop" else reason), now⟩ })

/-- There is no such confirmation. -/
def confirmationMissing (id : String) : RPCError :=
  newError codeInvalidState "INVALID_REQUEST" "confirmation does not exist" false
    (.ofFields [("confirmationId", .str id)])

/-- `GetConfirmation` in `adminConfirmation`. -/
def getConfirmation (s : State ρ γ κ) (q : Request) : HandlerPhase × Effects :=
  let id := stringField q.object "confirmationId"
  match s.manager.confirmations.find? (·.confirmationID = id) with
  | none => refuse (confirmationMissing id)
  | some c => proceed (.found c)

/-- A request that is admitted. -/
def dispatch (lib : Library) (s : State ρ γ κ) (q : Request) (now : Time) :
    HandlerPhase × Effects :=
  if q.method = "bridge.hello" then bridgeHello lib s q now
  else if q.method = "bridge.event" then (.touched, { action := some (.touch q.peer now) })
  else if q.method = "bridge.goodbye" then proceed (.answered none)
  else if q.method = "bridge.admin.lease.revoke" then adminRevoke s q now
  else if q.method = "bridge.admin.stopAll" then adminStopAll q now
  else if q.method = "bridge.admin.confirmation.respond" then getConfirmation s q
  else
    refuse (newError codeMethodNotFound "METHOD_NOT_FOUND" "trusted bridge method is not supported"
      false (.ofFields [("method", .str q.method)]))

/-- The critical section of `StoreArtifactBase64`; what comes before it, and the fields that are
made there, are in `input`. -/
def storeBridgeArtifact (lib : Library) (s : State ρ γ κ) (q : Request) (input : Input) :
    HandlerPhase × Effects :=
  match q.object.get "payload" with
  | some (.obj payload) =>
    if stringFieldOf payload "dataBase64" = "" then
      refuse (invalidParams "artifact.created payload requires dataBase64" .empty)
    else
      -- The file is written outside the lock; here the outcome of it is an input.
      match input.artifact with
      | .error rpcErr => refuse rpcErr
      | .ok written =>
        let artifact : Artifact :=
          { written with
            sessionID := stringField q.object "sessionId"
            tabID := stringField q.object "tabId"
            kind := stringFieldOf payload "kind"
            mimeType := stringFieldOf payload "mimeType" }
        match (s.manager.storeArtifact artifact).result with
        | .error rpcErr => refuse rpcErr
        | .ok _ =>
          (.accepted (lib.artifactJson artifact),
            { command := some ⟨.storeArtifact artifact, input.now⟩ })
  | _ => refuse (invalidParams "artifact.created payload must be an object" .empty)

/-- `bridgeEvent` after `Touch`. -/
def bridgeEvent (lib : Library) (s : State ρ γ κ) (q : Request) (input : Input) :
    HandlerPhase × Effects :=
  let eventType := stringField q.object "type"
  if eventType = "" then refuse (invalidParams "bridge event type is required" .empty)
  else if eventType = "confirmation.requested" then
    proceed (.identified (s.registry.idForPeer q.peer))
  else if eventType = "artifact.created" then storeBridgeArtifact lib s q input
  else proceed (.accepted ((q.object.get "payload").getD .null))

/-- `CreateActionConfirmation` in `bridgeEvent`. -/
def requestConfirmation (lib : Library) (s : State ρ γ κ) (q : Request) (input : Input)
    (browserInstanceID : String) : HandlerPhase × Effects :=
  let sessionID := stringField q.object "sessionId"
  let tabID := stringField q.object "tabId"
  let operationID := stringFieldOf (payloadFields q.object) "operationId"
  let hash := stringFieldOf (payloadFields q.object) "requestHash"
  -- A hash that is none counts as missing.
  let requestHash := if isSHA256 hash then hash else ""
  let ttl := durationMS lib q.object "timeoutMs" (2 * minute)
  match (s.manager.createActionConfirmation input.now input.id sessionID tabID browserInstanceID
      operationID requestHash ttl).result with
  | .error rpcErr => refuse rpcErr
  | .ok c =>
    (.accepted (lib.confirmationJson c),
      { command := some ⟨.createActionConfirmation input.id sessionID tabID browserInstanceID
          operationID requestHash ttl, input.now⟩ })

/-- The event of `bridgeEvent`. -/
def emitted (lib : Library) (q : Request) (payload : Json) : Events.Event where
  type := stringField q.object "type"
  sessionID := stringField q.object "sessionId"
  tabID := stringField q.object "tabId"
  documentEpoch := uintField lib q.object "documentEpoch"
  payload := some payload

/-- `PeerOwns` in `adminConfirmation`. -/
def checkOwner (s : State ρ γ κ) (q : Request) (c : Confirmation) : HandlerPhase × Effects :=
  if c.browserInstanceID = "" ∨ ¬ s.registry.peerOwns q.peer c.browserInstanceID then
    refuse (permissionDenied "confirmation belongs to a different trusted Chrome instance")
  else proceed (.owned c)

/-- `ResolveConfirmation` in `adminConfirmation`. -/
def resolveConfirmation (s : State ρ γ κ) (q : Request) (c : Confirmation) (now : Time) :
    HandlerPhase × Effects :=
  let decision := stringField q.object "decision"
  (.answered (errorOf (s.manager.resolveConfirmation now c.confirmationID decision).result),
    { command := some ⟨.resolveConfirmation c.confirmationID decision, now⟩ })

/-- The next section of the handler of a request. -/
def handle (lib : Library) (s : State ρ γ κ) (q : Request) (input : Input) :
    HandlerPhase × Effects :=
  match q.phase with
  -- One critical section after the other, each by the phase before it.
  | .received => handleBridge lib s q
  | .authenticated => checkHelloFirst s q
  | .admitted => dispatch lib s q input.now
  | .registered id =>
    (.answered none, { event := some (browserEvent "browser.connected" id, input.now) })
  | .touched => bridgeEvent lib s q input
  | .identified browserInstanceID => requestConfirmation lib s q input browserInstanceID
  | .accepted payload =>
    (.answered none, { event := some (emitted lib q payload, input.now) })
  | .found c => checkOwner s q c
  | .owned c => resolveConfirmation s q c input.now
  | phase => proceed phase

/-! ### What a handler does -/

/-- The commands that also other requests and the janitor give. A lease is claimed and bound in
`tabClaim` only, and a confirmation resolved in `adminConfirmation` only. -/
def publicCommand : Command → Bool
  | .claimTab .. => false
  | .bindLeaseBrowser .. => false
  | .resolveConfirmation .. => false
  | _ => true

/-- The request carries the stored token, and an answer to it is expected. -/
def Request.presents (lib : Library) (q : Request) : Bool :=
  q.method = authenticateMethod && !q.notification &&
    lib.tokenMatches (stringField q.object "token")

/-- **A step of a handler**: its next phase and what it does. -/
inductive HandlerStep (lib : Library) (s : State ρ γ κ) (q : Request) :
    HandlerPhase → Effects → Prop where
  | idle (h : q.phase matches .outside | .answered _) : HandlerStep lib s q q.phase {}
  | answered (rpcErr : Option RPCError) : HandlerStep lib s q (.answered rpcErr) {}
  | authenticated (h : q.presents lib) :
      HandlerStep lib s q (.answered none) { auth := some (q.peer, true) }
  | screened (h_phase : q.phase = .received) (h_auth : s.bridgeAuth q.peer = true)
      {phase : HandlerPhase}
      (h : phase = if q.method = "bridge.hello" then .admitted else .authenticated) :
      HandlerStep lib s q phase {}
  | admitted (h_phase : q.phase = .authenticated) (h : s.registry.idForPeer q.peer ≠ "") :
      HandlerStep lib s q .admitted {}
  -- The two methods that change the registry.
  | registered (h_phase : q.phase = .admitted) (h_method : q.method = "bridge.hello")
      (hello : Hello) (now : Time) :
      HandlerStep lib s q (.registered hello.browserInstanceID)
        { action := some (.register q.peer hello now) }
  | touched (h_phase : q.phase = .admitted) (h_method : q.method = "bridge.event") (now : Time) :
      HandlerStep lib s q .touched { action := some (.touch q.peer now) }
  | continued {phase : HandlerPhase} (h_phase : q.phase = .touched)
      (h : phase matches .identified _ | .accepted _) : HandlerStep lib s q phase {}
  | commanded {phase : HandlerPhase}
      (h_phase : q.phase matches .admitted | .touched | .identified _)
      (h_method : q.phase = .admitted → q.method ≠ "bridge.hello")
      (h : phase matches .answered _ | .accepted _) {k : Command} (h_public : publicCommand k)
      (now : Time) : HandlerStep lib s q phase { command := some ⟨k, now⟩ }
  | emitted (h_phase : q.phase matches .registered _ | .accepted _) (event : Events.Event)
      (now : Time) : HandlerStep lib s q (.answered none) { event := some (event, now) }
  -- `confirmation.resolve`: found, owned by the browser of the connection, resolved.
  | found (h_phase : q.phase = .admitted) (h_method : q.method ≠ "bridge.hello")
      {c : Confirmation} (h : c ∈ s.manager.confirmations) : HandlerStep lib s q (.found c) {}
  | owned {c : Confirmation} (h_phase : q.phase = .found c)
      (h : s.registry.owner c.browserInstanceID = some q.peer) : HandlerStep lib s q (.owned c) {}
  | resolved {c : Confirmation} (h_phase : q.phase = .owned c) (rpcErr : Option RPCError)
      (decision : String) (now : Time) :
      HandlerStep lib s q (.answered rpcErr)
        { command := some ⟨.resolveConfirmation c.confirmationID decision, now⟩ }

section HandlerStep

variable {lib : Library} {s : State ρ γ κ} {q : Request} {input : Input}

omit [DecidableEq κ] in
/-- Every step of `handleBridge`. -/
theorem handleBridge_step (h : q.phase = .received) :
    HandlerStep lib s q (handleBridge lib s q).1 (handleBridge lib s q).2 := by
  unfold handleBridge
  split
  · exact .answered _
  · split
    -- the first message of a connection authenticates it
    case isTrue h_method =>
      unfold authenticateBridgeTransport
      split
      · exact .answered _
      case isFalse h_token =>
        rw [not_or, not_not] at h_token
        refine .authenticated ?_
        simp only [Request.presents, h_method, h_token, decide_true, Bool.and_true, Bool.true_and]
        simp
    · split
      · exact .answered _
      case isFalse h_auth =>
        rw [not_not] at h_auth
        split
        case isTrue h_hello => exact .screened h h_auth (if_pos h_hello).symm
        case isFalse h_hello => exact .screened h h_auth (if_neg h_hello).symm

/-- Every step of `dispatch`. -/
theorem dispatch_step (h : q.phase = .admitted) (now : Time) :
    HandlerStep lib s q (dispatch lib s q now).1 (dispatch lib s q now).2 := by
  have h_phase : q.phase matches .admitted | .touched | .identified _ := by rw [h]
  unfold dispatch
  split
  -- `bridge.hello` is checked and registered
  case isTrue h_method =>
    unfold bridgeHello
    split
    · exact .answered _
    · split
      · exact .answered _
      · exact .registered h h_method _ _
  -- any other method is for an instance that is registered
  case isFalse h_hello =>
    split
    case isTrue h_method => exact .touched h h_method now
    · split
      · exact .answered _
      · split
        · exact .commanded h_phase (fun _ => h_hello) rfl rfl _
        · split
          · exact .commanded h_phase (fun _ => h_hello) rfl rfl _
          · split
            · unfold getConfirmation
              dsimp only
              split
              · exact .answered _
              case h_2 c h_find => exact .found h h_hello (List.mem_of_find?_eq_some h_find)
            · exact .answered _

omit [DecidableEq κ] in
/-- Every step of `bridgeEvent`. -/
theorem bridgeEvent_step (h : q.phase = .touched) :
    HandlerStep lib s q (bridgeEvent lib s q input).1 (bridgeEvent lib s q input).2 := by
  have h_phase : q.phase matches .admitted | .touched | .identified _ := by rw [h]
  -- an event is no hello
  have h_ne : q.phase = .admitted → q.method ≠ "bridge.hello" := by
    rw [h]
    rintro ⟨⟩
  unfold bridgeEvent
  dsimp only
  split
  · exact .answered _
  · split
    · exact .continued h rfl
    · split
      · unfold storeBridgeArtifact
        split
        · split
          · exact .answered _
          · split
            · exact .answered _
            · dsimp only
              split
              · exact .answered _
              · exact .commanded h_phase h_ne rfl rfl _
        · exact .answered _
      · exact .continued h rfl

/-- **Handlers.** What a handler does in its next section. -/
theorem handle_step (lib : Library) (s : State ρ γ κ) (q : Request) (input : Input) :
    HandlerStep lib s q (handle lib s q input).1 (handle lib s q input).2 := by
  unfold handle
  split
  -- the phases in the order of `handle`
  case h_1 h => exact handleBridge_step h
  case h_2 h =>
    unfold checkHelloFirst
    split
    · exact .answered _
    case isFalse h_owner => exact .admitted h h_owner
  case h_3 h => exact dispatch_step h input.now
  case h_4 h => exact .emitted (by rw [h]) _ _
  case h_5 h => exact bridgeEvent_step h
  case h_6 id h =>
    unfold requestConfirmation
    dsimp only
    split
    · exact .answered _
    · exact .commanded (by rw [h]) (by rw [h]; rintro ⟨⟩) rfl rfl _
  case h_7 h => exact .emitted (by rw [h]) _ _
  case h_8 c h =>
    unfold checkOwner
    split
    · exact .answered _
    case isFalse h_owner =>
      rw [not_or, not_not, Registry.peerOwns_iff] at h_owner
      exact .owned h h_owner.2
  case h_9 c h => exact .resolved h _ _ _
  case h_10 =>
    refine .idle ?_
    cases h_phase : q.phase <;> simp_all

end HandlerStep

/-! ### The end of a connection -/

/-- The next section of `acceptLoop` after `Serve`. A walk through a map goes to `pick`. -/
def acceptLoop (s : State ρ γ κ) (p : ℕ) (pick : String) (now : Time) :
    ConnectionPhase × Effects :=
  match s.connections p with
  | .ended => (.forgotten, { auth := some (p, false) })
  | .forgotten =>
    let ids := (s.registry.disconnect p pick).2
    (if ids = [] then .finished else .disconnected ids,
      { action := some (.disconnect p pick) })
  -- `len(registry.List()) == 0` is asked after all of them are revoked.
  | .disconnected [] => (if s.registry.list = [] then .stopping else .finished, {})
  | .disconnected rest =>
    (.revoking pick (rest.erase pick),
      { event := some (browserEvent "browser.disconnected" pick, now) })
  | .revoking id rest =>
    (.disconnected rest, { command := some ⟨.revokeBrowser id "extension disconnected", now⟩ })
  | .stopping => (.finished, { command := some ⟨.stopAll "extension disconnected", now⟩ })
  | phase => (phase, {})

/-! ### Claiming a tab -/

/-- The claim is answered with an error, and nothing happens. -/
def refuseClaim (rpcErr : RPCError) : ClaimPhase × Effects := (.answered (some rpcErr), {})

/-- The section that finds the instance: the one that is named, or the default. -/
def resolveBrowser (s : State ρ γ κ) (params : Object) : ClaimPhase × Effects :=
  let named := stringField params "browserInstanceId"
  let browserInstanceID := if named = "" then s.registry.defaultID else named
  if browserInstanceID = "" then
    refuseClaim ((BridgeFailure.unavailable none).toError "tab.claim")
  else (.resolved browserInstanceID, {})

/-- The claim is forced. -/
def forced (params : Object) : Bool := params.get "force" matches some (.bool true)

/-- `ClaimTabForce` in `tabClaim`. -/
def claimTab (lib : Library) (s : State ρ γ κ) (params : Object) (input : Input)
    (browserInstanceID : String) : ClaimPhase × Effects :=
  let sessionID := stringField params "sessionId"
  let tabID := stringField params "tabId"
  let ttl := durationMS lib params "leaseTtlMs" 0
  let effects : Effects :=
    { command := some ⟨.claimTab input.id sessionID tabID ttl (forced params), input.now⟩ }
  match (s.manager.claimTabForce input.now (fun _ => "") input.id sessionID tabID ttl
      (forced params)).result with
  | .error rpcErr => (.answered (some rpcErr), effects)
  | .ok l => (.claimed browserInstanceID l, effects)

/-- `BindLeaseBrowser` in `tabClaim`. -/
def bindLease (s : State ρ γ κ) (params : Object) (now : Time) (browserInstanceID : String)
    (claimedLease : Lease) : ClaimPhase × Effects :=
  let sessionID := stringField params "sessionId"
  let tabID := stringField params "tabId"
  let effects : Effects :=
    { command :=
        some ⟨.bindLeaseBrowser sessionID tabID claimedLease.leaseID browserInstanceID, now⟩ }
  match (s.manager.bindLeaseBrowser now sessionID tabID claimedLease.leaseID
      browserInstanceID).result with
  | .error rpcErr =>
    -- A lease that was bound before is the session's own, and stays.
    (if claimedLease.browserInstanceID = "" then
        .releasing claimedLease "browser binding rejected" rpcErr
      else .answered (some rpcErr), effects)
  | .ok l => (.bound browserInstanceID l, effects)

/-- The extension has rejected the claim. -/
def rejected (l : Lease) (rpcErr : RPCError) : ClaimPhase :=
  .releasing l "claim rejected by extension" rpcErr

/-- The connection that a call for an instance is written to. -/
def State.reaches (s : State ρ γ κ) (browserInstanceID : String) (input : Input) : Option ℕ :=
  match s.registry.owner browserInstanceID, input.answer with
  | some peer, .ok _ => if s.connections peer = .serving then some peer else none
  | _, _ => none

/-- Why a call over the bridge fails. -/
def State.failure (s : State ρ γ κ) (browserInstanceID : String) (input : Input) :
    BridgeFailure :=
  match s.registry.owner browserInstanceID, input.answer with
  | none, _ => .unavailable (some browserInstanceID)
  | some _, .error failure => failure
  | some _, .ok _ => .disconnected "use of closed network connection" browserInstanceID

/-- The message of `callBridge` is written. -/
def sendClaim (s : State ρ γ κ) (input : Input) (browserInstanceID : String) (l : Lease) :
    ClaimPhase × Effects :=
  match s.reaches browserInstanceID input with
  | some peer => (.sent peer l, {})
  | none => (rejected l ((s.failure browserInstanceID input).toError "tab.claim"), {})

/-- `callBridge` returns. -/
def answerClaim (peer : ℕ) (l : Lease) (input : Input) : ClaimPhase × Effects :=
  match input.answer with
  | .error failure => (rejected l (failure.toError "tab.claim"), {})
  | .ok (some rpcErr) => (rejected l rpcErr, { action := some (.touch peer input.now) })
  | .ok none => (.answered none, { action := some (.touch peer input.now) })

/-- The lease of a claim that failed is released. -/
def releaseClaim (params : Object) (now : Time) (l : Lease) (reason : String)
    (rpcErr : RPCError) : ClaimPhase × Effects :=
  (.answered (some rpcErr),
    { command := some ⟨.releaseTab (stringField params "sessionId") (stringField params "tabId")
        l.leaseID reason, now⟩ })

/-- The first thing that `tabClaim` does. -/
def startClaim (params : Object) : ClaimPhase :=
  if stringField params "sessionId" = "" ∨ stringField params "tabId" = "" then
    .answered (some (invalidParams "sessionId and tabId are required" .empty))
  else .started

/-- The next section of a `tabClaim`. -/
def tabClaim (lib : Library) (s : State ρ γ κ) (c : Claim) (input : Input) :
    ClaimPhase × Effects :=
  match c.phase with
  | .started => resolveBrowser s c.params
  | .resolved browserInstanceID => claimTab lib s c.params input browserInstanceID
  | .claimed browserInstanceID l => bindLease s c.params input.now browserInstanceID l
  | .bound browserInstanceID l => sendClaim s input browserInstanceID l
  | .sent peer l => answerClaim peer l input
  | .releasing l reason rpcErr => releaseClaim c.params input.now l reason rpcErr
  | phase => (phase, {})

/-! ### What a claim does -/

/-- The claim was not started, or is answered. -/
def ClaimPhase.isIdle : ClaimPhase → Bool
  | .outside => true
  | .answered _ => true
  | _ => false

/-- The call of `ClaimTabForce`. -/
def claimCommand (lib : Library) (params : Object) (id : String) : Command :=
  .claimTab id (stringField params "sessionId") (stringField params "tabId")
    (durationMS lib params "leaseTtlMs" 0) (forced params)

/-- The call of `BindLeaseBrowser`. -/
def bindCommand (params : Object) (l : Lease) (browserInstanceID : String) : Command :=
  .bindLeaseBrowser (stringField params "sessionId") (stringField params "tabId") l.leaseID
    browserInstanceID

/-- The call of `ReleaseTab`. -/
def releaseCommand (params : Object) (l : Lease) (reason : String) : Command :=
  .releaseTab (stringField params "sessionId") (stringField params "tabId") l.leaseID reason

/-- What `ClaimTabForce` returns to a claim. -/
def State.claimResult (lib : Library) (s : State ρ γ κ) (params : Object) (input : Input) :
    Except RPCError Lease :=
  (s.manager.claimTabForce input.now (fun _ => "") input.id (stringField params "sessionId")
    (stringField params "tabId") (durationMS lib params "leaseTtlMs" 0) (forced params)).result

/-- What `BindLeaseBrowser` returns to a claim. -/
def State.bindResult (s : State ρ γ κ) (params : Object) (now : Time) (l : Lease)
    (browserInstanceID : String) : Except RPCError Lease :=
  (s.manager.bindLeaseBrowser now (stringField params "sessionId") (stringField params "tabId")
    l.leaseID browserInstanceID).result

/-- **A step of a claim**: its next phase and what it does. -/
inductive ClaimStep (lib : Library) (s : State ρ γ κ) (c : Claim) (input : Input) :
    ClaimPhase → Effects → Prop where
  | idle (h : c.phase.isIdle = true) : ClaimStep lib s c input c.phase {}
  | refused (h_phase : c.phase = .started) (rpcErr : RPCError) :
      ClaimStep lib s c input (.answered (some rpcErr)) {}
  | resolved (h_phase : c.phase = .started) {browserInstanceID : String}
      (h : browserInstanceID ≠ "") : ClaimStep lib s c input (.resolved browserInstanceID) {}
  | declined {browserInstanceID : String} {rpcErr : RPCError}
      (h_phase : c.phase = .resolved browserInstanceID)
      (h_result : s.claimResult lib c.params input = .error rpcErr) :
      ClaimStep lib s c input (.answered (some rpcErr))
        { command := some ⟨claimCommand lib c.params input.id, input.now⟩ }
  | claimed {browserInstanceID : String} {l : Lease}
      (h_phase : c.phase = .resolved browserInstanceID)
      (h_result : s.claimResult lib c.params input = .ok l) :
      ClaimStep lib s c input (.claimed browserInstanceID l)
        { command := some ⟨claimCommand lib c.params input.id, input.now⟩ }
  -- the binding to the browser
  | bound {browserInstanceID : String} {l l' : Lease}
      (h_phase : c.phase = .claimed browserInstanceID l)
      (h_result : s.bindResult c.params input.now l browserInstanceID = .ok l') :
      ClaimStep lib s c input (.bound browserInstanceID l')
        { command := some ⟨bindCommand c.params l browserInstanceID, input.now⟩ }
  | conflicted {browserInstanceID : String} {l : Lease} {rpcErr : RPCError}
      (h_phase : c.phase = .claimed browserInstanceID l)
      (h_result : s.bindResult c.params input.now l browserInstanceID = .error rpcErr)
      (h_bound : l.browserInstanceID ≠ "") :
      ClaimStep lib s c input (.answered (some rpcErr))
        { command := some ⟨bindCommand c.params l browserInstanceID, input.now⟩ }
  | unbound {browserInstanceID : String} {l : Lease} {rpcErr : RPCError}
      (h_phase : c.phase = .claimed browserInstanceID l)
      (h_result : s.bindResult c.params input.now l browserInstanceID = .error rpcErr)
      (h_bound : l.browserInstanceID = "") :
      ClaimStep lib s c input (.releasing l "browser binding rejected" rpcErr)
        { command := some ⟨bindCommand c.params l browserInstanceID, input.now⟩ }
  -- the call of the extension, and what comes back
  | sent {browserInstanceID : String} {l : Lease} {peer : ℕ}
      (h_phase : c.phase = .bound browserInstanceID l)
      (h_reaches : s.reaches browserInstanceID input = some peer) :
      ClaimStep lib s c input (.sent peer l) {}
  | unsent {browserInstanceID : String} {l : Lease}
      (h_phase : c.phase = .bound browserInstanceID l) (rpcErr : RPCError) :
      ClaimStep lib s c input (rejected l rpcErr) {}
  | failed {peer : ℕ} {l : Lease} (h_phase : c.phase = .sent peer l) (rpcErr : RPCError)
      {action : Option (Action ℕ)}
      (h_action : action = none ∨ action = some (.touch peer input.now)) :
      ClaimStep lib s c input (rejected l rpcErr) { action }
  | succeeded {peer : ℕ} {l : Lease} (h_phase : c.phase = .sent peer l) :
      ClaimStep lib s c input (.answered none) { action := some (.touch peer input.now) }
  | released {l : Lease} {reason : String} {rpcErr : RPCError}
      (h_phase : c.phase = .releasing l reason rpcErr) :
      ClaimStep lib s c input (.answered (some rpcErr))
        { command := some ⟨releaseCommand c.params l reason, input.now⟩ }

/-- **Claims.** What a claim does in its next section. -/
theorem tabClaim_step (lib : Library) (s : State ρ γ κ) (c : Claim) (input : Input) :
    ClaimStep lib s c input (tabClaim lib s c input).1 (tabClaim lib s c input).2 := by
  unfold tabClaim
  split
  -- the critical sections of `tab.claim`, one after the other
  case h_1 h_phase =>
    unfold resolveBrowser
    dsimp only
    generalize (if stringField c.params "browserInstanceId" = "" then s.registry.defaultID
      else stringField c.params "browserInstanceId") = browserInstanceID
    split
    · exact .refused h_phase _
    case isFalse h_id => exact .resolved h_phase h_id
  case h_2 browserInstanceID h_phase =>
    unfold claimTab
    dsimp only
    split
    case h_1 rpcErr h_result => exact .declined h_phase h_result
    case h_2 l h_result => exact .claimed h_phase h_result
  case h_3 browserInstanceID l h_phase =>
    unfold bindLease
    dsimp only
    split
    case h_1 rpcErr h_result =>
      split
      case isTrue h_bound => exact .unbound h_phase h_result h_bound
      case isFalse h_bound => exact .conflicted h_phase h_result h_bound
    case h_2 l' h_result => exact .bound h_phase h_result
  case h_4 browserInstanceID l h_phase =>
    unfold sendClaim
    split
    case h_1 peer h_reaches => exact .sent h_phase h_reaches
    case h_2 => exact .unsent h_phase _
  case h_5 peer l h_phase =>
    unfold answerClaim
    split
    · exact .failed h_phase _ (.inl rfl)
    · exact .failed h_phase _ (.inr rfl)
    · exact .succeeded h_phase
  case h_6 l reason rpcErr h_phase => exact .released h_phase
  case h_7 =>
    refine .idle ?_
    cases h_phase : c.phase <;> simp_all [ClaimPhase.isIdle]

/-! ### Events -/

/-- What can happen. -/
inductive Event (ρ γ : Type*) where
  | accept
  | ended (p : ℕ)
  | acceptLoop (p : ℕ) (pick : String) (now : Time)
  | request (r : ρ) (p : ℕ) (method : String) (params : Option Object) (notification : Bool)
  | handle (r : ρ) (input : Input)
  | startClaim (t : γ) (params : Object)
  | claim (t : γ) (input : Input)
  /-- A call or a notification over a connection has succeeded. -/
  | touch (p : ℕ) (now : Time)
  /-- A command of a public request or of the janitor. -/
  | command (k : Command) (now : Time)

/-- What an event does to the parts of the daemon. -/
def effects (lib : Library) (s : State ρ γ κ) : Event ρ γ → Effects
  | .acceptLoop p pick now => (acceptLoop s p pick now).2
  | .handle r input => (handle lib s (s.requests r) input).2
  | .claim t input => (tabClaim lib s (s.claims t) input).2
  | .touch p now => { action := some (.touch p now) }
  | .command k now => { command := some ⟨k, now⟩ }
  | _ => {}

/-- The ids that a command makes up are new. -/
def fresh (s : State ρ γ κ) (e : LeaseTable.Event) : Prop :=
  LeaseTable.enabled s.table e ∧ ∀ id ∈ e.command.confirmationID.toList,
    ∀ c ∈ s.manager.confirmations, c.confirmationID ≠ id

instance (s : State ρ γ κ) (e : LeaseTable.Event) : Decidable (fresh s e) :=
  inferInstanceAs (Decidable (_ ∧ _))

/-- `acceptLoop` has something left to do, and a walk through a map goes to `pick`. -/
def ConnectionPhase.proceeds (pick : String) : ConnectionPhase → Bool
  | .outside => false
  | .serving => false
  | .finished => false
  | .disconnected rest => rest = [] || pick ∈ rest
  | _ => true

/-- When a connection, a request or a claim takes an event. -/
def takes (s : State ρ γ κ) : Event ρ γ → Prop
  | .accept => True
  | .ended p => s.connections p = .serving
  | .acceptLoop p pick _ => (s.connections p).proceeds pick
  | .request r p _ _ _ => ((s.requests r).phase matches .outside) ∧ s.connections p = .serving
  | .handle r _ =>
    ¬ ((s.requests r).phase matches .outside) ∧ ¬ ((s.requests r).phase matches .answered _)
  | .startClaim t _ => ((s.claims t).phase matches .outside)
  | .claim t _ =>
    ¬ ((s.claims t).phase matches .outside) ∧ ¬ ((s.claims t).phase matches .answered _)
  | .touch _ _ => True
  | .command k _ => publicCommand k

instance (s : State ρ γ κ) (e : Event ρ γ) : Decidable (takes s e) := by
  cases e <;> unfold takes <;> infer_instance

/-! ### The machine -/

variable [DecidableEq ρ] [DecidableEq γ]

/-- When a step can happen. -/
def enabled (lib : Library) (s : State ρ γ κ) (e : Event ρ γ) : Prop :=
  takes s e ∧ ∀ e' ∈ (effects lib s e).command.toList, fresh s e'

instance (lib : Library) (s : State ρ γ κ) (e : Event ρ γ) : Decidable (enabled lib s e) :=
  inferInstanceAs (Decidable (_ ∧ _))

/-- The connections after a step. -/
def nextConnections (s : State ρ γ κ) : Event ρ γ → ℕ → ConnectionPhase
  | .accept => Function.update s.connections s.accepted .serving
  | .ended p => Function.update s.connections p .ended
  | .acceptLoop p pick now => Function.update s.connections p (acceptLoop s p pick now).1
  | _ => s.connections

/-- The requests after a step. -/
def nextRequests (lib : Library) (s : State ρ γ κ) : Event ρ γ → ρ → Request
  | .request r peer method params notification =>
    Function.update s.requests r { peer, method, params, notification, phase := .received }
  | .handle r input =>
    Function.update s.requests r
      { s.requests r with phase := (handle lib s (s.requests r) input).1 }
  | _ => s.requests

/-- The claims after a step. -/
def nextClaims (lib : Library) (s : State ρ γ κ) : Event ρ γ → γ → Claim
  | .startClaim t params => Function.update s.claims t { params, phase := startClaim params }
  | .claim t input =>
    Function.update s.claims t
      { s.claims t with phase := (tabClaim lib s (s.claims t) input).1 }
  | _ => s.claims

/-- The claim that an event sends to an extension. -/
def sends (s : State ρ γ κ) : Event ρ γ → Option Sent
  | .claim t input =>
    match (s.claims t).phase with
    | .bound browserInstanceID l =>
      (s.reaches browserInstanceID input).map fun peer =>
        { leaseID := l.leaseID, tabID := stringField (s.claims t).params "tabId", peer }
    | _ => none
  | _ => none

/-- One step of the daemon. -/
def next (lib : Library) (s : State ρ γ κ) (e : Event ρ γ) : State ρ γ κ where
  table := match (effects lib s e).command with
    | some e' => LeaseTable.next s.table e'
    | none => s.table
  log := match (effects lib s e).event with
    | some (event, now) => s.log.emitLocked now event
    | none => s.log
  -- Each part moves by its own effect of the event, so that a frame lemma is one line.
  registry := match (effects lib s e).action with
    | some action => action.run s.registry
    | none => s.registry
  bridgeAuth := match (effects lib s e).auth with
    | some (p, b) => Function.update s.bridgeAuth p b
    | none => s.bridgeAuth
  accepted := match e with
    | .accept => s.accepted + 1
    | _ => s.accepted
  connections := nextConnections s e
  requests := nextRequests lib s e
  claims := nextClaims lib s e
  registrations := ((effects lib s e).action.bind Action.registration).toList ++ s.registrations
  sent := (sends s e).toList ++ s.sent

/-- The daemon with any number of bridge connections. -/
def machine (ρ γ κ : Type*) [DecidableEq ρ] [DecidableEq γ] [DecidableEq κ] (lib : Library)
    (leaseTTL : Duration) (eventLimit : ℤ) : Machine (State ρ γ κ) (Event ρ γ) where
  init := { table := { manager := .new leaseTTL }, log := .new eventLimit }
  enabled := enabled lib
  next := next lib

instance (lib : Library) (leaseTTL : Duration) (eventLimit : ℤ) (s : State ρ γ κ)
    (e : Event ρ γ) : Decidable ((machine ρ γ κ lib leaseTTL eventLimit).enabled s e) :=
  inferInstanceAs (Decidable (enabled lib s e))

/-- The state after a run from the start. -/
abbrev after (κ : Type*) [DecidableEq κ] (lib : Library) (leaseTTL : Duration) (eventLimit : ℤ)
    (es : List (Event ρ γ)) : State ρ γ κ :=
  (machine ρ γ κ lib leaseTTL eventLimit).exec (machine ρ γ κ lib leaseTTL eventLimit).init es

/-! ### The parts after an event -/

section Parts

variable (lib : Library) (s : State ρ γ κ) (e : Event ρ γ)

/-- The leases after a step. -/
theorem table_next : (next lib s e).table = match (effects lib s e).command with
    | some e' => LeaseTable.next s.table e'
    | none => s.table := rfl

/-- The events after a step. -/
theorem log_next : (next lib s e).log = match (effects lib s e).event with
    | some (event, now) => s.log.emitLocked now event
    | none => s.log := rfl

/-- The instances after a step. -/
theorem registry_next : (next lib s e).registry = match (effects lib s e).action with
    | some action => action.run s.registry
    | none => s.registry := rfl

/-- The authenticated connections after a step. -/
theorem bridgeAuth_next : (next lib s e).bridgeAuth = match (effects lib s e).auth with
    | some (p, b) => Function.update s.bridgeAuth p b
    | none => s.bridgeAuth := rfl

end Parts

/-! ### Connections -/

/-- The instances of the connection were removed from the registry. -/
def ConnectionPhase.isDisconnected : ConnectionPhase → Bool
  | .disconnected _ => true
  | .revoking _ _ => true
  | .stopping => true
  | .finished => true
  | _ => false

/-- The event runs `Disconnect` for the connection. -/
def disconnects (s : State ρ γ κ) (p : ℕ) : Event ρ γ → Bool
  | .acceptLoop p' _ _ => p' = p && s.connections p = .forgotten
  | _ => false

section Connections

variable {lib : Library} {leaseTTL : Duration} {eventLimit : ℤ} {s : State ρ γ κ} {e : Event ρ γ}

/-- A connection that is not accepted yet. -/
theorem outside_of_le (h : (machine ρ γ κ lib leaseTTL eventLimit).Reachable s) :
    ∀ p, s.accepted ≤ p → s.connections p = .outside := by
  refine h.induction (P := fun s => ∀ p, s.accepted ≤ p → s.connections p = .outside)
    (fun _ _ => rfl) ?_
  intro s e _ ih he p hp
  have h_takes := he.1
  cases e with
  -- the counter has passed the new connection
  | accept =>
    have h_lt : s.accepted < p := hp
    exact (Function.update_of_ne h_lt.ne' ..).trans (ih p h_lt.le)
  | ended p' =>
    have h_ne : p ≠ p' := by
      rintro rfl
      cases (ih p hp).symm.trans h_takes
    exact (Function.update_of_ne h_ne ..).trans (ih p hp)
  | acceptLoop p' pick now =>
    have h_ne : p ≠ p' := by
      rintro rfl
      have h_proceeds : (s.connections p).proceeds pick = true := h_takes
      rw [ih p hp] at h_proceeds
      contradiction
    exact (Function.update_of_ne h_ne ..).trans (ih p hp)
  | _ => exact ih p hp

/-- A connection is disconnected by its own `Disconnect` only, and for good. -/
theorem isDisconnected_next (h : (machine ρ γ κ lib leaseTTL eventLimit).Reachable s)
    (he : enabled lib s e) (p : ℕ) :
    ((next lib s e).connections p).isDisconnected =
      ((s.connections p).isDisconnected || disconnects s p e) := by
  have h_takes := he.1
  cases e with
  -- a new connection is not disconnected
  | accept =>
    show (Function.update s.connections s.accepted .serving p).isDisconnected = (_ || false)
    rw [Bool.or_false]
    by_cases hp : p = s.accepted
    · rw [hp, Function.update_self, outside_of_le h _ le_rfl]
      rfl
    · rw [Function.update_of_ne hp]
  | ended p' =>
    show (Function.update s.connections p' .ended p).isDisconnected = (_ || false)
    rw [Bool.or_false]
    by_cases hp : p = p'
    · have h_serving : s.connections p' = .serving := h_takes
      rw [hp, Function.update_self, h_serving]
      rfl
    · rw [Function.update_of_ne hp]
  -- a connection is disconnected by its own loop only
  | acceptLoop p' pick now =>
    show (Function.update s.connections p' (acceptLoop s p' pick now).1 p).isDisconnected = _
    by_cases hp : p = p'
    · subst hp
      have h_disconnects : disconnects s p (.acceptLoop p pick now : Event ρ γ) =
          decide (s.connections p = .forgotten) := by simp [disconnects]
      rw [Function.update_self, h_disconnects]
      unfold acceptLoop
      cases h_phase : s.connections p with
      | forgotten =>
        dsimp only
        split <;> simp [ConnectionPhase.isDisconnected]
      | disconnected rest =>
        cases rest with
        | nil =>
          dsimp only
          split <;> rfl
        | cons id rest => rfl
      | _ => rfl
    · have h_disconnects : disconnects s p (.acceptLoop p' pick now : Event ρ γ) = false := by
        simp [disconnects, Ne.symm hp]
      rw [Function.update_of_ne hp, h_disconnects, Bool.or_false]
  | _ => exact (Bool.or_false _).symm

end Connections

/-! ### Who changes the registry -/

omit [DecidableEq ρ] [DecidableEq γ] [DecidableEq κ] in
/-- Only a connection that was forgotten is disconnected. -/
theorem disconnects_of_ne {s : State ρ γ κ} {p : ℕ} (h : s.connections p ≠ .forgotten)
    (pick : String) (now : Time) (p' : ℕ) :
    disconnects s p' (.acceptLoop p pick now : Event ρ γ) = false := by
  by_cases hp : p = p'
  · simp [disconnects, ← hp, h]
  · simp [disconnects, hp]

/-- **The registry.** Which events change it, and how. -/
inductive Acts (s : State ρ γ κ) (e : Event ρ γ) : Option (Action ℕ) → Prop where
  | nothing (h : ∀ p, disconnects s p e = false) : Acts s e none
  | touched (h : ∀ p, disconnects s p e = false) (p : ℕ) (now : Time) :
      Acts s e (some (.touch p now))
  | registered {r : ρ} {input : Input} (h : e = .handle r input)
      (h_phase : (s.requests r).phase = .admitted)
      (h_method : (s.requests r).method = "bridge.hello") (hello : Hello) (now : Time) :
      Acts s e (some (.register (s.requests r).peer hello now))
  | disconnected {p : ℕ} {pick : String} {now : Time} (h : e = .acceptLoop p pick now)
      (h_phase : s.connections p = .forgotten) : Acts s e (some (.disconnect p pick))

omit [DecidableEq ρ] [DecidableEq γ] in
/-- What a step does to the registry. -/
theorem acts (lib : Library) (s : State ρ γ κ) (e : Event ρ γ) :
    Acts s e (effects lib s e).action := by
  cases e with
  -- a connection that ends may disconnect
  | acceptLoop p pick now =>
    show Acts s _ (acceptLoop s p pick now).2.action
    unfold acceptLoop
    split
    case h_2 h_phase => exact .disconnected rfl h_phase
    all_goals exact .nothing (disconnects_of_ne (by simp_all) pick now)
  -- a request may register, or touch
  | handle r input =>
    have h_step := handle_step lib s (s.requests r) input
    have h_none : ∀ p, disconnects s p (.handle r input : Event ρ γ) = false := fun _ => rfl
    show Acts s _ (handle lib s (s.requests r) input).2.action
    generalize (handle lib s (s.requests r) input).1 = phase,
      (handle lib s (s.requests r) input).2 = effects at h_step ⊢
    cases h_step with
    | registered h_phase h_method hello now => exact .registered rfl h_phase h_method hello now
    | touched => exact .touched h_none _ _
    | _ => exact .nothing h_none
  | claim t input =>
    have h_none : ∀ p, disconnects s p (.claim t input : Event ρ γ) = false := fun _ => rfl
    have h_step := tabClaim_step lib s (s.claims t) input
    show Acts s _ (tabClaim lib s (s.claims t) input).2.action
    generalize (tabClaim lib s (s.claims t) input).1 = phase,
      (tabClaim lib s (s.claims t) input).2 = effects at h_step ⊢
    cases h_step with
    | failed _ _ h_action =>
      obtain rfl | rfl := h_action
      · exact .nothing h_none
      · exact .touched h_none _ _
    | succeeded => exact .touched h_none _ _
    | _ => exact .nothing h_none
  | touch p now => exact .touched (fun _ => rfl) p now
  | _ => exact .nothing fun _ => rfl

/-! ### A connection from end to end -/

/-- A token for samples. -/
def sampleToken : String := "AAECAwQFBgcICQoLDA0ODxAREhMUFRYXGBkaGxwdHh8"

/-- SHA-256 on this token. -/
def sampleHash (text : String) : String :=
  if text = sampleToken then "ea866a757e4c38babfa8127cbe9a409d3e1f93a00ff1488ff735fcf917afffd0"
  else ""

/-- A hello whose fields are texts. -/
def sampleHello (params : Object) : Hello where
  protocolVersion := stringField params "protocolVersion"
  browserInstanceID := stringField params "browserInstanceId"

/-- A library for samples. -/
def sampleLibrary : Library where
  hash := sampleHash
  token := sampleToken
  decodeHello params := some (sampleHello params)
  duration _ := none
  natural _ := none
  confirmationJson c := .obj [("confirmationId", .str c.confirmationID)]
  artifactJson artifact := .obj [("artifactId", .str artifact.artifactID)]

/-- Only the token has its hash. -/
theorem sampleHash_token {text : String} (h : sampleHash text = sampleHash sampleToken) :
    text = sampleToken := by
  by_contra h_ne
  rw [sampleHash, if_neg h_ne, sampleHash, if_pos rfl] at h
  exact absurd h (by decide)

/-- A connection is accepted and authenticated by the request `r`. -/
def opening (p : ℕ) (r : ρ) : List (Event ρ γ) :=
  [.accept, .request r p authenticateMethod (some (.ofFields [("token", .str sampleToken)])) false,
    .handle r {}]

/-- The handler of a hello has looked whether the connection is authenticated. -/
def greeting (p : ℕ) (r : ρ) (id : String) : List (Event ρ γ) :=
  [.request r p "bridge.hello" (some (.ofFields [("protocolVersion", .str "1.0"),
    ("browserInstanceId", .str id)])) false, .handle r {}]

/-- A connection that is opened and has registered an instance. -/
def connection (p : ℕ) (r r' : ρ) (id : String) : List (Event ρ γ) :=
  opening p r ++ greeting p r' id ++ [.handle r' {}, .handle r' {}]

/-- A connection ends, and its `Disconnect` runs. -/
def disconnection (p : ℕ) : List (Event ρ γ) :=
  [.ended p, .acceptLoop p "" 0, .acceptLoop p "" 0]

/-- The leases of its only instance are revoked, and the connection is done. -/
def revocation (p : ℕ) (id : String) : List (Event ρ γ) :=
  [.acceptLoop p id 0, .acceptLoop p "" 0, .acceptLoop p "" 0]

example : (machine ℕ ℕ ℕ sampleLibrary 0 0).Runs (machine ℕ ℕ ℕ sampleLibrary 0 0).init
    (connection 0 0 1 "chrome_1" ++ disconnection 0 ++ revocation 0 "chrome_1" ++
      [.acceptLoop 0 "" 0]) := by
  decide +kernel

end BrowserControl.Server.Trusted
