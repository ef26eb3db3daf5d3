import BrowserControl.Extension.Control
import BrowserControl.NativeMessaging.Chunk

/-!
# Secure input

An agent asks for a value without seeing it: `secureInput.request` binds a request to an element
of a controlled tab and opens a window in which the user types the value, and the `submit` of that
window fills it into the element. Both look at the address of the tab, search the target in the
frames of the tab and prepare it there. They await each of these, and in between the pages, the
claims, the clock and the other handlers go on.

A `submit` compares the identity of the element that it has found with the one that was bound, and
the frame does so twice more. So a value gets into the element that was bound and into no other
(`fills_bound`), wherever this element is. The origin that the user is shown is the one of the
tab, and a frame of the tab can have another one: what the promise is worth is decided when the
request is made (`origin_of_fillsPromised`).
-/

namespace BrowserControl.Extension

namespace SecureInput

open Encoding Transition NativeMessaging

/-! ### Pages -/

/-- A document with the origin that the browser gives it, unless that is an opaque one. -/
structure Document where
  id : ℕ
  origin : Option String
  deriving DecidableEq

/-- What a frame shows. The address can change while the document stays. -/
structure Frame where
  document : Document
  url : String
  deriving DecidableEq

/-- An element by its document and its place there. -/
structure Element where
  document : Document
  node : ℕ
  deriving DecidableEq

/-- What the two handlers use of other modules. -/
structure Platform where
  /-- The origin of an address, or the empty text. -/
  safeOrigin : String → String
  locatorFrom : Json → Except RpcError Json

/-! ### Requests -/

/-- How a request names its element. -/
inductive Target where
  | locator (locator : Json)
  | node (snapshotID nodeRef : String)

/-- A snapshot, with the frames it has. -/
structure Snapshot where
  snapshotID : String
  tabID : String
  documentEpoch : ℕ
  frames : List ℕ

/-- Random identifiers are numbers, in the order in which they are drawn. -/
structure SecureInputRequest where
  requestID : ℕ
  tabID : String
  sessionID : String
  leaseID : String
  documentEpoch : ℕ
  frameID : ℕ
  elementIdentity : ℕ
  target : Target
  label : Option String
  origin : String
  secret : Bool
  autocomplete : Option String
  createdAt : ℕ

/-- `record(value)` -/
def record : Option Json → Except RpcError Object
  | some (.obj fields) => .ok (.ofFields fields)
  | _ => .error { kind := "INVALID_REQUEST", message := "params must be an object" }

/-- A value that counts as true. -/
def truthy : Option Json → Bool
  | none | some .null => false
  | some (.bool b) => b
  | some (.num n) => numberValue n ≠ 0
  | some (.str s) => s ≠ ""
  | some (.arr _) | some (.obj _) => true

/-- `nodeRef` with the frame it is bound to. -/
def parseNodeRef (nodeRef : String) : Option (ℕ × String) :=
  match nodeRef.toList with
  | 'f' :: cs =>
    match cs.takeWhile Char.isDigit, cs.dropWhile Char.isDigit with
    | d :: ds, '_' :: c :: rest =>
      if (c :: rest).any fun c => c = '\n' ∨ c = '\r' ∨ c = '\u2028' ∨ c = '\u2029' then none
      else some (Nat.ofDigitChars 10 (d :: ds) 0, String.ofList (c :: rest))
    | _, _ => none
  | _ => none

/-- `#claimed` -/
def claimed (R : TabRegistry) (params : Object) : Except RpcError TabState := do
  let tabID ← requiredString params "tabId"
  let state ← R.assertClaimed tabID (optionalString params "sessionId")
    (optionalString params "leaseId")
  match params.get "expectedDocumentEpoch" with
  -- The epoch is compared only if the caller sends one, and only if it is a number.
  | some (.num n) =>
    if numberValue n ≠ state.documentEpoch then
      .error {
        kind := "STALE_REFERENCE"
        message := "document changed after the caller observed it"
        retryable := true
        details := .ofFields [("expectedDocumentEpoch", .num n),
          ("actualDocumentEpoch", .num (Reader.ofNat state.documentEpoch))] }
    else .ok state
  | _ => .ok state

/-! ### Handlers -/

/-- What `submit` waits for. -/
inductive SubmitPhase where
  /-- `chrome.tabs.get`. -/
  | checking
  /-- The search of the target in the frames. -/
  | searching
  /-- `prepare` in a frame. -/
  | preparing (frameID : ℕ)
  /-- `markSensitive` in the frame of the request. -/
  | marking
  /-- `perform` in the frame of the request. -/
  | performing

/-- Where a request waits, and what for. -/
inductive Handler where
  | outside
  /-- `#secureInputRequest` waits for `chrome.tabs.get`. -/
  | checking (params : Object) (tab : Held)
  | searching (params : Object) (tab : Held) (origin : String) (target : Target)
  | preparing (params : Object) (tab : Held) (origin : String) (target : Target) (frameID : ℕ)
  /-- It waits for `chrome.windows.create`. -/
  | opening
  | submit (request : SecureInputRequest) (chromeTabID : ℕ) (phase : SubmitPhase)
  | settled

/-- The request has not begun. -/
def Handler.isOutside : Handler → Bool
  | .outside => true
  | _ => false

/-- The handler waits for something. -/
def Handler.waits : Handler → Bool
  | .outside | .settled => false
  | _ => true

/-- The handler waits for `chrome.tabs.get`. -/
def Handler.awaitsTab : Handler → Bool
  | .checking .. | .submit _ _ .checking => true
  | _ => false

/-- The request waits for an element. -/
def Handler.searches : Handler → Bool
  | .searching .. | .submit _ _ .searching => true
  | _ => false

/-- The tab and the frame in which the handler waits for the runtime. -/
def Handler.place : Handler → Option (ℕ × ℕ)
  | .preparing _ tab _ _ frameID => some (tab.chromeTabID, frameID)
  | .submit _ chromeTabID (.preparing frameID) => some (chromeTabID, frameID)
  | .submit request chromeTabID .marking => some (chromeTabID, request.frameID)
  | .submit request chromeTabID .performing => some (chromeTabID, request.frameID)
  | _ => none

/-- The request whose value the handler has got. -/
def Handler.submission : Handler → Option SecureInputRequest
  | .submit request _ _ => some request
  | _ => none

/-- The origin that the handler is about to promise. -/
def Handler.promise : Handler → Option String
  | .preparing _ _ origin _ _ => some origin
  | _ => none

/-- A value that has got into an element: when, and what the tab was then. -/
structure Fill where
  request : SecureInputRequest
  element : Element
  time : ℕ
  tab : Option TabState

/-- The extension, its tabs, and what has become of its requests. -/
structure State (ρ : Type*) where
  control : Control
  /-- The frames of the tabs of Chrome; the frame 0 is the tab's own. -/
  frames : ℕ → ℕ → Option Frame
  snapshots : List Snapshot
  secureInputs : List SecureInputRequest
  /-- The elements that a runtime has given an identity. -/
  identities : List Element
  handlers : ρ → Handler
  now : ℕ
  /-- The elements to which the requests made so far were bound. -/
  bindings : List Element
  /-- What was filled so far. -/
  fills : List Fill
  /-- The requests that were cancelled so far. -/
  cancelled : List ℕ

/-- After five minutes a request is no longer valid. -/
def lifetime : ℕ := 5 * 60000

variable {ρ : Type*}

namespace State

variable [DecidableEq ρ] (P : Platform) (s : State ρ)

/-- One handler comes to another place. -/
def setHandler (h : ρ) (handler : Handler) : State ρ :=
  { s with handlers := Function.update s.handlers h handler }

/-- The handler ends, with an error or not. -/
def settle (h : ρ) : State ρ := s.setHandler h .settled

/-- The origin of what the tab shows. -/
def tabOrigin (chromeTabID : ℕ) : String :=
  match s.frames chromeTabID 0 with
  | none => ""
  | some frame => P.safeOrigin frame.url

/-- `#snapshot` -/
def snapshot (snapshotID : String) (state : TabState) : Except RpcError Snapshot :=
  match s.snapshots.find? (·.snapshotID = snapshotID) with
  | some snapshot =>
    -- A snapshot of another tab or of an earlier document counts as none.
    if snapshot.tabID ≠ state.tabID ∨ snapshot.documentEpoch ≠ state.documentEpoch then
      .error {
        kind := "STALE_REFERENCE"
        message := "snapshot does not belong to the current document"
        retryable := true }
    else .ok snapshot
  | none =>
    .error {
      kind := "STALE_REFERENCE"
      message := "snapshot does not belong to the current document"
      retryable := true }

/-- `#prepareTarget` up to its first `await`: the frame, unless it has to be searched. -/
def prepareTarget (state : TabState) : Target → Except RpcError (Option ℕ)
  -- For a locator the frame is looked for later.
  | .locator _ => .ok none
  | .node snapshotID nodeRef => do
    let snapshot ← s.snapshot snapshotID state
    match parseNodeRef nodeRef with
    | none =>
      .error { kind := "STALE_REFERENCE", message := "node reference is not bound to a frame" }
    | some (frameID, _) =>
      if frameID ∈ snapshot.frames then .ok (some frameID)
      else
        .error {
          kind := "FRAME_UNAVAILABLE"
          message := "snapshot frame is unavailable"
          retryable := true }

/-! ### `#secureInputRequest` -/

/-- `#secureInputRequest`, up to its first wait. -/
def secureInputRequest (h : ρ) (params : Object) : State ρ :=
  match claimed s.control.registry params with
  | .error _ => s.settle h
  | .ok state => s.setHandler h (.checking params state.held)

/-- The origin and the target of a request. -/
def requested (params : Object) (chromeTabID : ℕ) : Except RpcError (String × Target) := do
  let requestedOrigin ← P.safeOrigin <$> requiredString params "origin"
  -- A page without an origin of its own is refused.
  if s.tabOrigin P chromeTabID = "" ∨ s.tabOrigin P chromeTabID ≠ requestedOrigin then
    .error {
      kind := "PERMISSION_DENIED"
      message := "secure input origin does not match the claimed tab" }
  else
    let target ← record (params.get "target")
    -- A locator wins over a node reference.
    if truthy (target.get "locator") then
      let locator ← P.locatorFrom ((target.get "locator").getD .null)
      return (requestedOrigin, .locator locator)
    else
      let snapshotID ← requiredString target "snapshotId"
      let nodeRef ← requiredString target "nodeRef"
      return (requestedOrigin, .node snapshotID nodeRef)

/-- The request, once its target is prepared. -/
def request (params : Object) (tab : Held) (origin : String) (target : Target)
    (frameID identity : ℕ) (state : TabState) (claim : Claim) : SecureInputRequest where
  requestID := s.bindings.length
  tabID := tab.tabID
  sessionID := claim.sessionID
  leaseID := claim.leaseID
  documentEpoch := state.documentEpoch
  frameID := frameID
  elementIdentity := identity
  target := target
  label := (optionalString params "label").map fun text =>
    String.ofList (sliceUnits 120 text.toList)
  origin := origin
  -- Secret unless it is `false`.
  secret := match params.get "secret" with
    | some (.bool false) => false
    | _ => true
  autocomplete := (optionalString params "autocomplete").map fun text =>
    String.ofList (sliceUnits 80 text.toList)
  createdAt := s.now

/-- The request is stored if the tab still has a claim. -/
def bind (h : ρ) (request : TabState → Claim → SecureInputRequest) (tabID : String)
    (element : Element) : State ρ :=
  match s.control.registry.objects tabID with
  | none => s.settle h
  | some state =>
    match state.claim with
    | none => s.settle h
    | some claim =>
      { s with
        secureInputs := s.secureInputs ++ [request state claim]
        bindings := s.bindings ++ [element] }.setHandler h .opening

/-! ### Messages of the window -/

/-- What the window is told of a request. -/
def get (requestID : ℕ) : Option SecureInputRequest :=
  match s.secureInputs.find? (·.requestID = requestID) with
  | none => none
  | some request => if s.now - request.createdAt > lifetime then none else some request

/-- `secureInput.cancel`. -/
def cancel (requestID : ℕ) : State ρ :=
  match s.secureInputs.find? (·.requestID = requestID) with
  | none => s
  | some _ =>
    { s with
      secureInputs := s.secureInputs.filter (·.requestID ≠ requestID)
      cancelled := s.cancelled ++ [requestID] }

/-- `submit` up to its first `await`. The request is used up, whatever follows. -/
def submit (h : ρ) (requestID : ℕ) (value : String) : State ρ :=
  match s.secureInputs.find? (·.requestID = requestID) with
  | none => s.settle h
  | some request =>
    -- An empty value leaves the request open.
    if value = "" then s.settle h
    else
      -- From here on the request is used up, also if it fails.
      let s := { s with secureInputs := s.secureInputs.filter (·.requestID ≠ requestID) }
      match s.control.registry.assertClaimed request.tabID (some request.sessionID)
        (some request.leaseID) with
      | .error _ => s.settle h
      | .ok state =>
        if state.documentEpoch ≠ request.documentEpoch then s.settle h
        else s.setHandler h (.submit request state.chromeTabID .checking)

/-! ### Steps of the handlers -/

/-- `chrome.tabs.get` resolves. -/
def gotTab (h : ρ) : State ρ :=
  match s.handlers h with
  | .checking params tab =>
    match s.requested P params tab.chromeTabID, s.control.registry.objects tab.tabID with
    | .ok (origin, target), some state =>
      match s.prepareTarget state target with
      | .error _ => s.settle h
      | .ok none => s.setHandler h (.searching params tab origin target)
      | .ok (some frameID) => s.setHandler h (.preparing params tab origin target frameID)
    | _, _ => s.settle h
  -- The same checks again, with the request as it was recorded.
  | .submit request chromeTabID .checking =>
    if s.tabOrigin P chromeTabID ≠ request.origin then s.settle h
    else
      match s.control.registry.objects request.tabID with
      | none => s.settle h
      | some state =>
        match s.prepareTarget state request.target with
        | .error _ => s.settle h
        | .ok none => s.setHandler h (.submit request chromeTabID .searching)
        | .ok (some frameID) => s.setHandler h (.submit request chromeTabID (.preparing frameID))
  | _ => s

/-- One element was found, in this frame. -/
def found (h : ρ) (frameID : ℕ) : State ρ :=
  match s.handlers h with
  | .searching params tab origin target =>
    s.setHandler h (.preparing params tab origin target frameID)
  | .submit request chromeTabID .searching =>
    s.setHandler h (.submit request chromeTabID (.preparing frameID))
  | _ => s

/-- The element to which the target leads in the frame the handler waits for. -/
def element (h : ρ) (node : ℕ) : Option Element :=
  (s.handlers h).place.bind fun place =>
    (s.frames place.1 place.2).map fun frame => ⟨frame.document, node⟩

/-- The runtime knows the element by this identity, or draws it. -/
def Identifies (identity : ℕ) (element : Element) : Prop :=
  s.identities[identity]? = some element ∨ identity = s.identities.length

instance (identity : ℕ) (element : Element) : Decidable (s.Identifies identity element) :=
  inferInstanceAs (Decidable (_ ∨ _))

/-- The frame gives an element its identity, the first time that it is asked. -/
def identify (identity : ℕ) (element : Element) : State ρ :=
  if identity = s.identities.length then { s with identities := s.identities ++ [element] } else s

/-- The value of a request gets into an element now. -/
def fill (request : SecureInputRequest) (element : Element) : Fill where
  request := request
  element := element
  time := s.now
  tab := (s.control.registry.fromHandle request.tabID).toOption

/-- The runtime has dealt with the element to which the target leads. -/
def answered (h : ρ) (element : Element) (identity : ℕ) : State ρ :=
  match s.handlers h with
  | .preparing params tab origin target frameID =>
    s.bind h (s.request params tab origin target frameID identity) tab.tabID element
  -- It must be the element of the first look, in the frame of the first look.
  | .submit request chromeTabID (.preparing frameID) =>
    if frameID ≠ request.frameID ∨ identity ≠ request.elementIdentity then s.settle h
    else s.setHandler h (.submit request chromeTabID .marking)
  | .submit request chromeTabID .marking =>
    if identity ≠ request.elementIdentity then s.settle h
    else s.setHandler h (.submit request chromeTabID .performing)
  | .submit request _ .performing =>
    if identity ≠ request.elementIdentity then s.settle h
    else
      { s with
        fills := s.fills ++ [s.fill request element] }.settle h
  | _ => s

/-- The frame answers with the element it has found. -/
def inFrame (h : ρ) (node identity : ℕ) : State ρ :=
  match s.element h node with
  | none => s
  | some element => (s.identify identity element).answered h element identity

end State

/-! ### Runs -/

/-- The calls, what they wait for, and what the pages do. -/
inductive Event (ρ : Type*) where
  | secureInputRequest (h : ρ) (params : Object)
  | submit (h : ρ) (requestID : ℕ) (value : String)
  | cancel (requestID : ℕ)
  /-- `chrome.tabs.get` resolves. -/
  | gotTab (h : ρ)
  /-- The search finds one element, in a frame. -/
  | found (h : ρ) (frameID : ℕ)
  /-- The runtime of the frame has dealt with the element to which the target leads. -/
  | inFrame (h : ρ) (node identity : ℕ)
  /-- What the handler waits for ends it. -/
  | finish (h : ρ)
  /-- A frame shows something else. -/
  | navigate (chromeTabID frameID : ℕ) (frame : Option Frame)
  /-- The clock is read from now on as this. -/
  | clock (now : ℕ)
  /-- The registry is changed. -/
  | registry (op : Op)
  /-- Snapshots are stored or dropped. -/
  | store (snapshots : List Snapshot)
  /-- `stopAll` drops the requests. -/
  | clear

/-- When a step can happen. -/
def Enabled (s : State ρ) : Event ρ → Prop
  | .secureInputRequest h _ | .submit h _ _ => (s.handlers h).isOutside
  | .gotTab h => (s.handlers h).awaitsTab
  | .found h _ => (s.handlers h).searches
  | .inFrame h node identity => ∃ element ∈ s.element h node, s.Identifies identity element
  | .finish h => (s.handlers h).waits
  -- `#tabClaim` requires that session and lease are not empty.
  | .registry (.claim _ sessionID leaseID _) => sessionID ≠ "" ∧ leaseID ≠ ""
  | _ => True

instance decidableEnabled (s : State ρ) : ∀ e, Decidable (Enabled s e)
  | .secureInputRequest h _ | .submit h _ _ =>
    inferInstanceAs (Decidable ((s.handlers h).isOutside = true))
  | .gotTab h => inferInstanceAs (Decidable ((s.handlers h).awaitsTab = true))
  | .found h _ => inferInstanceAs (Decidable ((s.handlers h).searches = true))
  | .inFrame h node identity =>
    inferInstanceAs (Decidable (∃ element ∈ s.element h node, s.Identifies identity element))
  | .finish h => inferInstanceAs (Decidable ((s.handlers h).waits = true))
  | .registry (.claim _ sessionID leaseID _) =>
    inferInstanceAs (Decidable (sessionID ≠ "" ∧ leaseID ≠ ""))
  | .registry (.release ..) | .registry .releaseAll | .registry (.attach _)
  | .registry (.detach ..) | .registry .detachAll | .registry (.onDetach _)
  | .registry (.ensure ..) | .registry (.noteNavigation _) | .registry (.remove _)
  | .cancel _ | .navigate .. | .clock _ | .store _ | .clear => inferInstanceAs (Decidable True)

/-- The extension at its start. -/
def State.new (now : ℕ) : State ρ where
  control := ⟨.empty, ∅⟩
  frames _ _ := none
  snapshots := []
  secureInputs := []
  identities := []
  handlers _ := .outside
  now := now
  bindings := []
  fills := []
  cancelled := []

/-- The extension with its tabs. -/
def machine (P : Platform) (ρ : Type*) [DecidableEq ρ] (now : ℕ) : Machine (State ρ) (Event ρ) where
  init := .new now
  enabled := Enabled
  next
    | s, .secureInputRequest h params => s.secureInputRequest h params
    | s, .submit h requestID value => s.submit h requestID value
    | s, .cancel requestID => s.cancel requestID
    | s, .gotTab h => s.gotTab P h
    | s, .found h frameID => s.found h frameID
    | s, .inFrame h node identity => s.inFrame h node identity
    | s, .finish h => s.settle h
    -- The page, the clock and the rest of the service move when they like.
    | s, .navigate chromeTabID frameID frame =>
      { s with
        frames := Function.update s.frames chromeTabID
          (Function.update (s.frames chromeTabID) frameID frame) }
    | s, .clock now => { s with now }
    | s, .registry op => { s with control := s.control.apply op }
    | s, .store snapshots => { s with snapshots }
    | s, .clear => { s with secureInputs := [] }

instance (P : Platform) (ρ : Type*) [DecidableEq ρ] (now : ℕ) (s : State ρ) (e : Event ρ) :
    Decidable ((machine P ρ now).enabled s e) := inferInstanceAs (Decidable (Enabled s e))

/-! ### What a step does to the requests -/

/-- A request that can still lead to a `submit`, or whose `submit` is under way. -/
def State.Known (s : State ρ) (r : SecureInputRequest) : Prop :=
  r ∈ s.secureInputs ∨ ∃ h, r ∈ (s.handlers h).submission

/-- A step of a handler that makes no request, takes none up and fills none in. -/
structure Quiet (s s' : State ρ) : Prop where
  secureInputs : s'.secureInputs.Sublist s.secureInputs
  submission : ∀ h, ∀ r ∈ (s'.handlers h).submission, r ∈ (s.handlers h).submission
  identities : s.identities <+: s'.identities
  bindings : s'.bindings = s.bindings
  fills : s'.fills = s.fills
  cancelled : s'.cancelled = s.cancelled
  control : s'.control = s.control
  now : s'.now = s.now

theorem Quiet.refl (s : State ρ) : Quiet s s :=
  ⟨.refl _, fun _ _ h_r => h_r, List.prefix_rfl, rfl, rfl, rfl, rfl, rfl⟩

theorem Quiet.trans {s s' s'' : State ρ} (h : Quiet s s') (h' : Quiet s' s'') : Quiet s s'' where
  secureInputs := h'.secureInputs.trans h.secureInputs
  submission handler r h_r := h.submission handler r (h'.submission handler r h_r)
  identities := h.identities.trans h'.identities
  bindings := h'.bindings.trans h.bindings
  fills := h'.fills.trans h.fills
  cancelled := h'.cancelled.trans h.cancelled
  control := h'.control.trans h.control
  now := h'.now.trans h.now

/-- A quiet step makes no request. -/
theorem Quiet.known {s s' : State ρ} (h : Quiet s s') {r : SecureInputRequest}
    (h_known : s'.Known r) : s.Known r := by
  rcases h_known with h_mem | ⟨handler, h_r⟩
  · exact .inl (h.secureInputs.subset h_mem)
  · exact .inr ⟨handler, h.submission handler r h_r⟩

/-- To give an identity is quiet. -/
theorem quiet_identify (s : State ρ) (identity : ℕ) (el : Element) :
    Quiet s (s.identify identity el) := by
  unfold State.identify
  split
  · exact ⟨.refl _, fun _ _ h_r => h_r, List.prefix_append _ _, rfl, rfl, rfl, rfl, rfl⟩
  · exact .refl s

/-! ### The invariant -/

/-- The requests of which the value has got to a page. -/
def State.filled (s : State ρ) : List ℕ := s.fills.map (·.request.requestID)

/-- The stored requests. -/
def State.stored (s : State ρ) : List ℕ := s.secureInputs.map (·.requestID)

/-- The requests agree with what they were bound to. -/
structure Inv (s : State ρ) : Prop where
  /-- The identity in a request is that of the element to which it was bound. -/
  linked : ∀ r, s.Known r → ∃ el, s.bindings[r.requestID]? = some el ∧
    s.identities[r.elementIdentity]? = some el
  bound : ∀ fill ∈ s.fills, s.bindings[fill.request.requestID]? = some fill.element
  stored_nodup : s.stored.Nodup
  /-- A request is in one place. -/
  once : ∀ h, ∀ r ∈ (s.handlers h).submission, ∀ h', ∀ r' ∈ (s.handlers h').submission,
    r.requestID = r'.requestID → h = h'
  taken : ∀ h, ∀ r ∈ (s.handlers h).submission, r.requestID ∉ s.stored
  /-- What was filled or cancelled is in none. -/
  spent : ∀ id, id ∈ s.filled ∨ id ∈ s.cancelled →
    id < s.bindings.length ∧ ∀ r, s.Known r → r.requestID ≠ id
  filled_nodup : s.filled.Nodup
  kept : ∀ id ∈ s.filled, id ∉ s.cancelled

/-- There is no request at first. -/
theorem Inv.new (now : ℕ) : Inv (State.new now : State ρ) := by
  have h_known : ∀ r, ¬ (State.new now : State ρ).Known r := by
    rintro r (h_mem | ⟨h, h_r⟩)
    · cases h_mem
    · cases h_r
  refine ⟨fun r h_r => absurd h_r (h_known r), ?_, List.nodup_nil, ?_, ?_, ?_, List.nodup_nil, ?_⟩
  · intro fill h_mem
    cases h_mem
  · intro h r h_r
    cases h_r
  · intro h r h_r
    cases h_r
  · rintro id (h_mem | h_mem) <;> cases h_mem
  · intro id h_mem
    cases h_mem

/-- A request that is known was made. -/
theorem Inv.lt {s : State ρ} (h : Inv s) {r : SecureInputRequest} (h_r : s.Known r) :
    r.requestID < s.bindings.length := by
  obtain ⟨el, h_el, -⟩ := h.linked r h_r
  exact (List.getElem?_eq_some_iff.mp h_el).1

/-- A quiet step keeps the invariant. -/
theorem Inv.quiet {s s' : State ρ} (h : Inv s) (h_quiet : Quiet s s') : Inv s' := by
  have h_filled : s'.filled = s.filled := by
    rw [State.filled, h_quiet.fills, State.filled]
  have h_stored : s'.stored.Sublist s.stored := h_quiet.secureInputs.map _
  refine ⟨?_, ?_, h.stored_nodup.sublist h_stored, ?_, ?_, ?_, ?_, ?_⟩
  -- a request that is known was known before, and its element is bound
  · intro r h_r
    obtain ⟨el, h_bound, h_identity⟩ := h.linked r (h_quiet.known h_r)
    obtain ⟨more, h_more⟩ := h_quiet.identities
    refine ⟨el, h_quiet.bindings ▸ h_bound, ?_⟩
    rw [← h_more, List.getElem?_append_left (List.getElem?_eq_some_iff.mp h_identity).1]
    exact h_identity
  · rw [h_quiet.fills, h_quiet.bindings]
    exact h.bound
  · intro handler r h_r handler' r' h_r'
    exact h.once handler r (h_quiet.submission _ r h_r) handler' r' (h_quiet.submission _ r' h_r')
  · intro handler r h_r h_mem
    exact h.taken handler r (h_quiet.submission _ r h_r) (h_stored.subset h_mem)
  · intro id h_id
    rw [h_filled, h_quiet.cancelled] at h_id
    rw [h_quiet.bindings]
    exact ⟨(h.spent id h_id).1, fun r h_r => (h.spent id h_id).2 r (h_quiet.known h_r)⟩
  · rw [h_filled]
    exact h.filled_nodup
  · rw [h_filled, h_quiet.cancelled]
    exact h.kept

/-- What removes a request leaves the others. -/
theorem mem_stored_filter {s : State ρ} {requestID id : ℕ} :
    id ∈ (s.secureInputs.filter (·.requestID ≠ requestID)).map (·.requestID) ↔
      id ∈ s.stored ∧ id ≠ requestID := by
  simp only [State.stored, List.mem_map, List.mem_filter, decide_eq_true_eq]
  constructor
  · rintro ⟨r, ⟨h_mem, h_ne⟩, rfl⟩
    exact ⟨⟨r, h_mem, rfl⟩, h_ne⟩
  · rintro ⟨⟨r, h_mem, rfl⟩, h_ne⟩
    exact ⟨r, ⟨h_mem, h_ne⟩, rfl⟩

/-! ### What the handlers do to the requests -/

variable [DecidableEq ρ]

/-- A handler that goes on with the request it has, or with none. -/
theorem quiet_setHandler (s : State ρ) {h : ρ} {handler : Handler}
    (h_submission : ∀ r ∈ handler.submission, r ∈ (s.handlers h).submission) :
    Quiet s (s.setHandler h handler) := by
  refine ⟨.refl _, ?_, List.prefix_rfl, rfl, rfl, rfl, rfl, rfl⟩
  intro h' r h_r
  by_cases h_eq : h' = h
  · subst h_eq
    exact h_submission r (by simpa [State.setHandler] using h_r)
  · simpa [State.setHandler, h_eq] using h_r

/-- A request that ends without effect is quiet. -/
theorem quiet_settle (s : State ρ) (h : ρ) : Quiet s (s.settle h) :=
  quiet_setHandler s fun r h_r => by contradiction

/-- The reply of `chrome.tabs.get` is quiet. -/
theorem quiet_gotTab (P : Platform) (s : State ρ) (h : ρ) : Quiet s (s.gotTab P h) := by
  unfold State.gotTab
  split
  -- a request for an input
  case h_1 params tab h_handler =>
    split
    · split
      · exact quiet_settle s h
      · exact quiet_setHandler s fun r h_r => by contradiction
      · exact quiet_setHandler s fun r h_r => by contradiction
    · exact quiet_settle s h
  -- a submission, which keeps its request in every phase
  case h_2 request n h_handler =>
    have h_same : ∀ phase, ∀ r ∈ (Handler.submit request n phase).submission,
        r ∈ (s.handlers h).submission := by
      intro phase r h_r
      rw [h_handler]
      exact h_r
    split
    · exact quiet_settle s h
    · split
      · exact quiet_settle s h
      · split
        · exact quiet_settle s h
        · exact quiet_setHandler s (h_same _)
        · exact quiet_setHandler s (h_same _)
  case h_3 => exact .refl s

/-- A frame that is found is quiet. -/
theorem quiet_found (s : State ρ) (h : ρ) (frameID : ℕ) : Quiet s (s.found h frameID) := by
  unfold State.found
  split
  case h_1 => exact quiet_setHandler s fun r h_r => by contradiction
  case h_2 request n h_handler =>
    refine quiet_setHandler s fun r h_r => ?_
    rw [h_handler]
    exact h_r
  case h_3 => exact .refl s

/-- A submission takes up a request that is stored and removes it, or does nothing. -/
theorem submit_cases (s : State ρ) (h : ρ) (requestID : ℕ) (value : String) :
    Quiet s (s.submit h requestID value) ∨
      ∃ r ∈ s.secureInputs, ∃ state,
        r.requestID = requestID ∧
        s.control.registry.assertClaimed r.tabID (some r.sessionID) (some r.leaseID) =
          .ok state ∧
        state.documentEpoch = r.documentEpoch ∧
        s.submit h requestID value =
          { s with secureInputs := s.secureInputs.filter (·.requestID ≠ requestID) }.setHandler h
            (.submit r state.chromeTabID .checking) := by
  unfold State.submit
  split
  case h_1 => exact .inl (quiet_settle s h)
  -- the request is taken out before anything is checked
  case h_2 r h_find =>
    have h_mem := List.mem_of_find?_eq_some h_find
    have h_id : r.requestID = requestID := by
      simpa using List.find?_some h_find
    have h_removed : Quiet s
        { s with secureInputs := s.secureInputs.filter (·.requestID ≠ requestID) } :=
      ⟨List.filter_sublist, fun _ _ h_r => h_r, List.prefix_rfl, rfl, rfl, rfl, rfl, rfl⟩
    split
    · exact .inl (quiet_settle s h)
    · dsimp only
      split
      case h_1 => exact .inl (h_removed.trans (quiet_settle _ h))
      case h_2 state h_claimed =>
        split
        case isTrue => exact .inl (h_removed.trans (quiet_settle _ h))
        case isFalse h_epoch =>
          exact .inr ⟨r, h_mem, state, h_id, h_claimed, not_not.mp h_epoch, rfl⟩

/-- What an answer of the runtime leads to: nothing, a request that is bound to the element, or a
value that gets into it. -/
theorem answered_cases (s : State ρ) (h : ρ) (el : Element) (identity : ℕ) :
    Quiet s (s.answered h el identity) ∨
      (∃ params tab origin target frameID, ∃ state : TabState, ∃ claim,
        s.handlers h = .preparing params tab origin target frameID ∧
        s.control.registry.objects tab.tabID = some state ∧ state.claim = some claim ∧
        s.answered h el identity =
          { s with
            secureInputs := s.secureInputs ++
              [s.request params tab origin target frameID identity state claim]
            bindings := s.bindings ++ [el] }.setHandler h .opening) ∨
      ∃ r n, s.handlers h = .submit r n .performing ∧ identity = r.elementIdentity ∧
        s.answered h el identity = { s with fills := s.fills ++ [s.fill r el] }.settle h := by
  unfold State.answered
  split
  -- the element is bound to the request
  case h_1 params tab origin target frameID h_handler =>
    unfold State.bind
    split
    case h_1 => exact .inl (quiet_settle s h)
    case h_2 state h_object =>
      split
      case h_1 => exact .inl (quiet_settle s h)
      case h_2 claim h_claim =>
        exact .inr (.inl ⟨params, tab, origin, target, frameID, state, claim, h_handler, h_object,
          h_claim, rfl⟩)
  -- a submission on its way to the element
  case h_2 r n frameID h_handler =>
    split
    · exact .inl (quiet_settle s h)
    · refine .inl (quiet_setHandler s fun r' h_r => ?_)
      rw [h_handler]
      exact h_r
  case h_3 r n h_handler =>
    split
    · exact .inl (quiet_settle s h)
    · refine .inl (quiet_setHandler s fun r' h_r => ?_)
      rw [h_handler]
      exact h_r
  -- the identity is compared, and the value written
  case h_4 r n h_handler =>
    split
    case isTrue => exact .inl (quiet_settle s h)
    case isFalse h_identity => exact .inr (.inr ⟨r, n, h_handler, not_not.mp h_identity, rfl⟩)
  case h_5 => exact .inl (.refl s)

/-! ### Every step keeps the invariant -/

omit [DecidableEq ρ] in
/-- A request is cancelled. -/
theorem Inv.cancel {s : State ρ} (h : Inv s) (requestID : ℕ) : Inv (s.cancel requestID) := by
  unfold State.cancel
  split
  case h_1 => exact h
  case h_2 r h_find =>
    have h_known : s.Known r := .inl (List.mem_of_find?_eq_some h_find)
    have h_id : r.requestID = requestID := by
      simpa using List.find?_some h_find
    -- Removing the request is quiet; that it was cancelled is new.
    have h_removed :
        Inv { s with secureInputs := s.secureInputs.filter (·.requestID ≠ requestID) } :=
      h.quiet ⟨List.filter_sublist, fun _ _ h_r => h_r, List.prefix_rfl, rfl, rfl, rfl, rfl, rfl⟩
    refine ⟨h_removed.linked, h.bound, h_removed.stored_nodup, h.once, h_removed.taken, ?_,
      h.filled_nodup, ?_⟩
    -- the request is known to nobody any more
    · intro id h_spent
      have h_or : (id ∈ s.filled ∨ id ∈ s.cancelled) ∨ id = requestID := by
        rcases h_spent with h_filled | h_cancelled
        · exact .inl (.inl h_filled)
        · rcases List.mem_append.mp h_cancelled with h_cancelled | h_new
          · exact .inl (.inr h_cancelled)
          · exact .inr (List.mem_singleton.mp h_new)
      rcases h_or with h_old | rfl
      · exact h_removed.spent id h_old
      · refine ⟨h_id ▸ h.lt h_known, ?_⟩
        rintro r' (h_mem | ⟨handler, h_r⟩) h_eq
        · have h_ne := (List.mem_filter.mp h_mem).2
          exact absurd h_eq (by simpa using h_ne)
        · -- The request was stored, and so no handler had it.
          refine h.taken handler r' h_r ?_
          rw [h_eq, ← h_id]
          exact List.mem_map_of_mem (List.mem_of_find?_eq_some h_find)
    · intro id h_filled h_cancelled
      rcases List.mem_append.mp h_cancelled with h_cancelled | h_new
      · exact h.kept id h_filled h_cancelled
      · rw [List.mem_singleton.mp h_new, ← h_id] at h_filled
        exact (h.spent _ (.inl h_filled)).2 r h_known rfl

/-- A submission begins. -/
theorem Inv.submit {s : State ρ} (h : Inv s) {handler : ρ}
    (h_outside : (s.handlers handler).isOutside) (requestID : ℕ) (value : String) :
    Inv (s.submit handler requestID value) := by
  rcases submit_cases s handler requestID value with h_quiet | ⟨r, h_mem, state, rfl, -, -, h_eq⟩
  · exact h.quiet h_quiet
  rw [h_eq]
  have h_removed :
      Inv { s with secureInputs := s.secureInputs.filter (·.requestID ≠ r.requestID) } :=
    h.quiet ⟨List.filter_sublist, fun _ _ h_r => h_r, List.prefix_rfl, rfl, rfl, rfl, rfl, rfl⟩
  -- Only the handler has the request now.
  have h_submission : ∀ h', ∀ r' ∈ ((Function.update s.handlers handler
      (.submit r state.chromeTabID .checking)) h').submission,
      (h' = handler ∧ r' = r) ∨ (h' ≠ handler ∧ r' ∈ (s.handlers h').submission) := by
    intro h' r' h_r
    by_cases h_h : h' = handler
    · subst h_h
      rw [Function.update_self] at h_r
      exact .inl ⟨rfl, (Option.some_inj.mp h_r).symm⟩
    · rw [Function.update_of_ne h_h] at h_r
      exact .inr ⟨h_h, h_r⟩
  -- no other handler has it
  have h_free : ∀ h', ∀ r' ∈ (s.handlers h').submission, r'.requestID ≠ r.requestID :=
    fun h' r' h_r h_id => h.taken h' r' h_r (h_id ▸ List.mem_map_of_mem h_mem)
  have h_known : ∀ r', (State.setHandler
      { s with secureInputs := s.secureInputs.filter (·.requestID ≠ r.requestID) } handler
      (.submit r state.chromeTabID .checking)).Known r' → s.Known r' := by
    rintro r' (h_r | ⟨h', h_r⟩)
    · exact .inl (List.mem_of_mem_filter h_r)
    · rcases h_submission h' r' h_r with ⟨-, rfl⟩ | ⟨-, h_r⟩
      · exact .inl h_mem
      · exact .inr ⟨h', h_r⟩
  refine ⟨fun r' h_r => h.linked r' (h_known r' h_r), h.bound, h_removed.stored_nodup, ?_, ?_,
    fun id h_id => ⟨(h.spent id h_id).1, fun r' h_r => (h.spent id h_id).2 r' (h_known r' h_r)⟩,
    h.filled_nodup, h.kept⟩
  · intro h₁ r₁ h_r₁ h₂ r₂ h_r₂ h_id
    rcases h_submission h₁ r₁ h_r₁ with ⟨h_h₁, h_eq₁⟩ | ⟨-, h_old₁⟩ <;>
      rcases h_submission h₂ r₂ h_r₂ with ⟨h_h₂, h_eq₂⟩ | ⟨-, h_old₂⟩
    · exact h_h₁.trans h_h₂.symm
    · exact absurd (h_id.symm.trans (congrArg _ h_eq₁)) (h_free h₂ r₂ h_old₂)
    · exact absurd (h_id.trans (congrArg _ h_eq₂)) (h_free h₁ r₁ h_old₁)
    · exact h.once h₁ r₁ h_old₁ h₂ r₂ h_old₂ h_id
  · intro h' r' h_r h_stored
    have h_stored := mem_stored_filter.mp h_stored
    rcases h_submission h' r' h_r with ⟨-, rfl⟩ | ⟨-, h_r⟩
    · exact h_stored.2 rfl
    · exact h.taken h' r' h_r h_stored.1

/-- A new request has a new number. -/
theorem Inv.bind {s : State ρ} (h : Inv s) {handler : ρ} {r : SecureInputRequest} {el : Element}
    (h_id : r.requestID = s.bindings.length) (h_el : s.identities[r.elementIdentity]? = some el)
    (h_handler : (s.handlers handler).submission = none) :
    Inv ({ s with
      secureInputs := s.secureInputs ++ [r]
      bindings := s.bindings ++ [el] }.setHandler handler .opening) := by
  have h_submission : ∀ h', ((Function.update s.handlers handler .opening) h').submission =
      (s.handlers h').submission := by
    intro h'
    by_cases h_h : h' = handler
    · subst h_h
      rw [Function.update_self, h_handler]
      rfl
    · rw [Function.update_of_ne h_h]
  have h_known : ∀ r', (State.setHandler { s with
      secureInputs := s.secureInputs ++ [r]
      bindings := s.bindings ++ [el] } handler .opening).Known r' → s.Known r' ∨ r' = r := by
    rintro r' (h_mem | ⟨h', h_r⟩)
    · rcases List.mem_append.mp h_mem with h_mem | h_new
      · exact .inl (.inl h_mem)
      · exact .inr (List.mem_singleton.mp h_new)
    · exact .inl (.inr ⟨h', by rwa [← h_submission]⟩)
  -- the bindings that there were stay
  have h_before : ∀ {i : ℕ} {el' : Element}, s.bindings[i]? = some el' →
      (s.bindings ++ [el])[i]? = some el' := by
    intro i el' h_get
    rw [List.getElem?_append_left (List.getElem?_eq_some_iff.mp h_get).1]
    exact h_get
  refine ⟨?_, ?_, ?_, ?_, ?_, ?_, h.filled_nodup, h.kept⟩
  · intro r' h_r
    rcases h_known r' h_r with h_r | rfl
    · obtain ⟨el', h_bound, h_identity⟩ := h.linked r' h_r
      exact ⟨el', h_before h_bound, h_identity⟩
    · refine ⟨el, ?_, h_el⟩
      rw [h_id]
      exact List.getElem?_concat_length
  · exact fun fill h_fill => h_before (h.bound fill h_fill)
  · show ((s.secureInputs ++ [r]).map (·.requestID)).Nodup
    rw [List.map_append, List.map_singleton]
    refine h.stored_nodup.append (List.nodup_singleton _) ?_
    intro id h_mem h_new
    obtain ⟨r', h_r, rfl⟩ := List.mem_map.mp h_mem
    have h_lt := h.lt (.inl h_r)
    rw [List.mem_singleton.mp h_new, h_id] at h_lt
    exact lt_irrefl _ h_lt
  · intro h₁ r₁ h_r₁ h₂ r₂ h_r₂
    exact h.once h₁ r₁ (by rwa [← h_submission]) h₂ r₂ (by rwa [← h_submission])
  · intro h' r' h_r h_mem
    have h_r : r' ∈ (s.handlers h').submission := by rwa [← h_submission]
    have h_stored : r'.requestID ∈ (s.secureInputs ++ [r]).map (·.requestID) := h_mem
    rw [List.map_append, List.mem_append] at h_stored
    rcases h_stored with h_stored | h_new
    · exact h.taken h' r' h_r h_stored
    · have h_eq : r'.requestID = r.requestID := List.mem_singleton.mp h_new
      have h_lt := h.lt (.inr ⟨h', h_r⟩)
      rw [h_eq, h_id] at h_lt
      exact lt_irrefl _ h_lt
  -- the number of the request is new, so it is not spent
  · intro id h_spent
    obtain ⟨h_lt, h_none⟩ := h.spent id h_spent
    refine ⟨by simpa [State.setHandler] using Nat.lt_succ_of_lt h_lt, ?_⟩
    intro r' h_r
    rcases h_known r' h_r with h_r | rfl
    · exact h_none r' h_r
    · rw [h_id]
      exact h_lt.ne'

/-- What is filled in was bound to this element, and is filled in for the first time. -/
theorem Inv.fill {s : State ρ} (h : Inv s) {handler : ρ} {r : SecureInputRequest} {el : Element}
    (h_r : r ∈ (s.handlers handler).submission)
    (h_el : s.identities[r.elementIdentity]? = some el) :
    Inv ({ s with fills := s.fills ++ [s.fill r el] }.settle handler) := by
  have h_known : s.Known r := .inr ⟨handler, h_r⟩
  have h_settled : Inv (s.settle handler) := h.quiet (quiet_settle s handler)
  -- the request is neither filled nor cancelled
  have h_new : r.requestID ∉ s.filled ∧ r.requestID ∉ s.cancelled :=
    ⟨fun h_mem => (h.spent _ (.inl h_mem)).2 r h_known rfl,
      fun h_mem => (h.spent _ (.inr h_mem)).2 r h_known rfl⟩
  have h_filled : (State.settle { s with fills := s.fills ++ [s.fill r el] } handler).filled =
      s.filled ++ [r.requestID] := List.map_append
  refine ⟨h_settled.linked, ?_, h.stored_nodup, h_settled.once, h_settled.taken, ?_, ?_, ?_⟩
  -- the new fill goes to the element that was bound
  · intro fill h_fill
    rcases List.mem_append.mp h_fill with h_fill | h_last
    · exact h.bound fill h_fill
    · rw [List.mem_singleton.mp h_last]
      obtain ⟨el', h_bound, h_identity⟩ := h.linked r h_known
      rw [h_el] at h_identity
      rw [Option.some_inj.mp h_identity]
      exact h_bound
  · intro id h_spent
    rw [h_filled] at h_spent
    have h_or : (id ∈ s.filled ∨ id ∈ s.cancelled) ∨ id = r.requestID := by
      rcases h_spent with h_mem | h_cancelled
      · rcases List.mem_append.mp h_mem with h_mem | h_last
        · exact .inl (.inl h_mem)
        · exact .inr (List.mem_singleton.mp h_last)
      · exact .inl (.inr h_cancelled)
    rcases h_or with h_old | rfl
    · exact h_settled.spent id h_old
    · refine ⟨h.lt h_known, ?_⟩
      rintro r' (h_mem | ⟨h', h_r'⟩) h_id
      · exact h.taken handler r h_r (h_id ▸ List.mem_map_of_mem h_mem)
      · -- The handler that had the request is settled.
        by_cases h_h : h' = handler
        · subst h_h
          simp [State.settle, State.setHandler, Handler.submission] at h_r'
        · have h_old := (quiet_settle s handler).submission h' r' h_r'
          exact h_h (h.once h' r' h_old handler r h_r h_id)
  · rw [h_filled]
    refine h.filled_nodup.append (List.nodup_singleton _) ?_
    intro id h_mem h_last
    rw [List.mem_singleton.mp h_last] at h_mem
    exact h_new.1 h_mem
  · intro id h_mem
    rw [h_filled] at h_mem
    rcases List.mem_append.mp h_mem with h_mem | h_last
    · exact h.kept id h_mem
    · rw [List.mem_singleton.mp h_last]
      exact h_new.2

omit [DecidableEq ρ] in
/-- After it was asked for, the identity is that of the element. -/
theorem getElem?_identify {s : State ρ} {identity : ℕ} {el : Element}
    (h : s.Identifies identity el) :
    (s.identify identity el).identities[identity]? = some el := by
  unfold State.identify
  split
  case isTrue h_new =>
    rw [h_new]
    exact List.getElem?_concat_length
  case isFalse h_old => exact h.resolve_right h_old

/-- A frame answers, and a request may be made or filled. -/
theorem Inv.inFrame {s : State ρ} (h : Inv s) {handler : ρ} {node identity : ℕ}
    (h_enabled : Enabled s (.inFrame handler node identity)) :
    Inv (s.inFrame handler node identity) := by
  obtain ⟨el, h_el, h_identifies⟩ := h_enabled
  unfold State.inFrame
  rw [Option.mem_def.mp h_el]
  dsimp only
  have h_identity := getElem?_identify h_identifies
  have h := h.quiet (quiet_identify s identity el)
  generalize s.identify identity el = s' at h h_identity ⊢
  -- The frame's answer changes nothing, binds the target or fills the field.
  rcases answered_cases s' handler el identity with h_quiet |
      ⟨params, tab, origin, target, frameID, state, claim, h_handler, -, -, h_eq⟩ |
      ⟨r, n, h_handler, rfl, h_eq⟩
  · exact h.quiet h_quiet
  · rw [h_eq]
    exact h.bind rfl h_identity (by rw [h_handler]; rfl)
  · rw [h_eq]
    exact h.fill (by rw [h_handler]; rfl) h_identity

variable {P : Platform} {now : ℕ}

/-- Every step keeps the invariant. -/
theorem Inv.next {s : State ρ} (h : Inv s) {e : Event ρ} (h_enabled : Enabled s e) :
    Inv ((machine P ρ now).next s e) := by
  cases e with
  | secureInputRequest handler params =>
    refine h.quiet ?_
    show Quiet s (s.secureInputRequest handler params)
    unfold State.secureInputRequest
    split
    · exact quiet_settle s handler
    · exact quiet_setHandler s fun r h_r => by contradiction
  -- the popup
  | submit handler requestID value => exact h.submit h_enabled requestID value
  | cancel requestID => exact h.cancel requestID
  -- the answers of Chrome
  | gotTab handler => exact h.quiet (quiet_gotTab P s handler)
  | found handler frameID => exact h.quiet (quiet_found s handler frameID)
  | inFrame handler node identity => exact h.inFrame h_enabled
  | finish handler => exact h.quiet (quiet_settle s handler)
  | navigate | clock | registry | store =>
    exact ⟨h.linked, h.bound, h.stored_nodup, h.once, h.taken, h.spent, h.filled_nodup, h.kept⟩
  | clear =>
    exact h.quiet ⟨List.nil_sublist _, fun _ _ h_r => h_r, List.prefix_rfl, rfl, rfl, rfl, rfl, rfl⟩

/-- The invariant holds in every state. -/
theorem inv_of_reachable {s : State ρ} (h : (machine P ρ now).Reachable s) : Inv s :=
  h.induction (Inv.new now) fun _ _ _ h_inv h_enabled => h_inv.next h_enabled

/-- **A value gets into the element that was bound**, in every run. -/
theorem fills_bound {s : State ρ} (h : (machine P ρ now).Reachable s) {fill : Fill}
    (h_fill : fill ∈ s.fills) : s.bindings[fill.request.requestID]? = some fill.element :=
  (inv_of_reachable h).bound fill h_fill

/-! ### The promise -/

/-- When a request is bound to an element, the document of the frame in which this was found has
the origin of the request. -/
def Promised (s : State ρ) : Event ρ → Prop
  | .inFrame h node _ => ∀ origin ∈ (s.handlers h).promise, ∀ el ∈ s.element h node,
    el.document.origin = some origin
  | _ => True

instance decidablePromised (s : State ρ) : ∀ e, Decidable (Promised s e)
  | .inFrame h node _ => inferInstanceAs (Decidable (∀ origin ∈ (s.handlers h).promise,
    ∀ el ∈ s.element h node, el.document.origin = some origin))
  | .secureInputRequest .. | .submit .. | .gotTab _ | .found .. | .finish _ | .registry _
  | .cancel _ | .navigate .. | .clock _ | .store _ | .clear => inferInstanceAs (Decidable True)

/-- The promise of a request, of what it was bound to. -/
def Kept (s : State ρ) (r : SecureInputRequest) : Prop :=
  ∀ el, s.bindings[r.requestID]? = some el → el.document.origin = some r.origin

/-- The requests that are known, and those that were filled in. -/
def State.Made (s : State ρ) (r : SecureInputRequest) : Prop :=
  s.Known r ∨ ∃ fill ∈ s.fills, fill.request = r

omit [DecidableEq ρ] in
/-- No request is made, and the promises of the others stay what they are. -/
theorem kept_of_made {s s' : State ρ} (h_made : ∀ r, s'.Made r → s.Made r)
    (h_bindings : s'.bindings = s.bindings) (h : ∀ r, s.Made r → Kept s r) :
    ∀ r, s'.Made r → Kept s' r := by
  intro r h_r el h_el
  exact h r (h_made r h_r) el (h_bindings ▸ h_el)

omit [DecidableEq ρ] in
/-- A quiet step makes no request, in any sense. -/
theorem Quiet.made {s s' : State ρ} (h : Quiet s s') {r : SecureInputRequest}
    (h_made : s'.Made r) : s.Made r := by
  rcases h_made with h_known | ⟨fill, h_fill, h_r⟩
  · exact .inl (h.known h_known)
  · exact .inr ⟨fill, h.fills ▸ h_fill, h_r⟩

omit [DecidableEq ρ] in
/-- Neither does a cancellation. -/
theorem made_cancel (s : State ρ) (requestID : ℕ) {r : SecureInputRequest}
    (h_made : (s.cancel requestID).Made r) : s.Made r := by
  unfold State.cancel at h_made
  split at h_made
  case h_1 => exact h_made
  case h_2 =>
    rcases h_made with (h_mem | h_taken) | h_filled
    · exact .inl (.inl (List.mem_of_mem_filter h_mem))
    · exact .inl (.inr h_taken)
    · exact .inr h_filled

/-- Nor a submission. -/
theorem made_submit (s : State ρ) (handler : ρ) (requestID : ℕ) (value : String)
    {r : SecureInputRequest} (h_made : (s.submit handler requestID value).Made r) : s.Made r := by
  rcases submit_cases s handler requestID value with h_quiet | ⟨r', h_mem, state, -, -, -, h_eq⟩
  · exact h_quiet.made h_made
  rw [h_eq] at h_made
  rcases h_made with (h_stored | ⟨h', h_r⟩) | h_filled
  · exact .inl (.inl (List.mem_of_mem_filter h_stored))
  · by_cases h_h : h' = handler
    · subst h_h
      have h_r : r ∈ some r' := by
        simpa [State.setHandler, Handler.submission] using h_r
      rw [← Option.some_inj.mp h_r]
      exact .inl (.inl h_mem)
    · exact .inl (.inr ⟨h', by simpa [State.setHandler, h_h] using h_r⟩)
  · exact .inr h_filled

/-- What the runtime answers. A request that is made keeps its promise if it is bound to an
element that does. -/
theorem kept_inFrame {s : State ρ} (h_inv : Inv s) {handler : ρ} {node identity : ℕ}
    (h_promised : Promised s (.inFrame handler node identity))
    (h : ∀ r, s.Made r → Kept s r) :
    ∀ r, (s.inFrame handler node identity).Made r →
      Kept (s.inFrame handler node identity) r := by
  unfold State.inFrame
  split
  case h_1 => exact h
  case h_2 el h_el =>
    have h_identify := quiet_identify s identity el
    have h_handlers : (s.identify identity el).handlers = s.handlers := by
      unfold State.identify
      split <;> rfl
    have h_inv := h_inv.quiet h_identify
    have h := kept_of_made (fun r => h_identify.made) h_identify.bindings h
    -- the promise: the element is asked for at the origin of the tab
    have h_origin : ∀ params tab origin target frameID,
        (s.identify identity el).handlers handler = .preparing params tab origin target frameID →
          el.document.origin = some origin := by
      intro params tab origin target frameID h_handler
      rw [h_handlers] at h_handler
      exact h_promised origin (by rw [h_handler]; rfl) el h_el
    generalize s.identify identity el = s' at h h_inv h_origin ⊢
    rcases answered_cases s' handler el identity with h_quiet |
        ⟨params, tab, origin, target, frameID, state, claim, h_handler, -, -, h_eq⟩ |
        ⟨r, n, h_handler, rfl, h_eq⟩
    · exact kept_of_made (fun r => h_quiet.made) h_quiet.bindings h
    · rw [h_eq]
      intro r h_made el' h_el'
      have h_get : (s'.bindings ++ [el])[r.requestID]? = some el' := h_el'
      have h_old_or_new : s'.Made r ∨
          r = s'.request params tab origin target frameID identity state claim := by
        rcases h_made with (h_mem | ⟨h', h_r⟩) | h_filled
        · rcases List.mem_append.mp h_mem with h_mem | h_new
          · exact .inl (.inl (.inl h_mem))
          · exact .inr (List.mem_singleton.mp h_new)
        · by_cases h_h : h' = handler
          · subst h_h
            simp [State.setHandler, Handler.submission] at h_r
          · exact .inl (.inl (.inr ⟨h', by simpa [State.setHandler, h_h] using h_r⟩))
        · exact .inl (.inr h_filled)
      rcases h_old_or_new with h_old | rfl
      · -- The element of an earlier request is the one it had.
        have h_lt : r.requestID < s'.bindings.length := by
          rcases h_old with h_known | ⟨fill, h_fill, rfl⟩
          · exact h_inv.lt h_known
          · exact (List.getElem?_eq_some_iff.mp (h_inv.bound fill h_fill)).1
        rw [List.getElem?_append_left h_lt] at h_get
        exact h r h_old el' h_get
      · have h_last : (s'.bindings ++ [el])[s'.bindings.length]? = some el :=
          List.getElem?_concat_length
        have h_same : some el' = some el := h_get.symm.trans h_last
        rw [Option.some_inj.mp h_same]
        exact h_origin params tab origin target frameID h_handler
    · rw [h_eq]
      refine @kept_of_made ρ s' _ ?_ rfl h
      rintro r' (h_known | ⟨fill, h_fill, rfl⟩)
      · exact .inl ((quiet_settle s' handler).known h_known)
      · rcases List.mem_append.mp h_fill with h_fill | h_last
        · exact .inr ⟨fill, h_fill, rfl⟩
        · rw [List.mem_singleton.mp h_last]
          exact .inl (.inr ⟨handler, by rw [h_handler]; rfl⟩)

/-- Every step under the condition keeps what was promised. -/
theorem kept_next {s : State ρ} (h_inv : Inv s) {e : Event ρ} (h_promised : Promised s e)
    (h : ∀ r, s.Made r → Kept s r) :
    ∀ r, ((machine P ρ now).next s e).Made r → Kept ((machine P ρ now).next s e) r := by
  cases e with
  | secureInputRequest handler params =>
    have h_quiet : Quiet s (s.secureInputRequest handler params) := by
      unfold State.secureInputRequest
      split
      · exact quiet_settle s handler
      · exact quiet_setHandler s fun r h_r => by contradiction
    exact kept_of_made (fun r => h_quiet.made) h_quiet.bindings h
  | submit handler requestID value =>
    refine kept_of_made (fun r => made_submit s handler requestID value) ?_ h
    show (s.submit handler requestID value).bindings = s.bindings
    rcases submit_cases s handler requestID value with h_quiet | ⟨_, -, _, -, -, -, h_eq⟩
    · exact h_quiet.bindings
    · rw [h_eq]
      rfl
  | cancel requestID =>
    refine kept_of_made (fun r => made_cancel s requestID) ?_ h
    show (s.cancel requestID).bindings = s.bindings
    unfold State.cancel
    split <;> rfl
  | gotTab handler =>
    have h_quiet := quiet_gotTab P s handler
    exact kept_of_made (fun r => h_quiet.made) h_quiet.bindings h
  | found handler frameID =>
    have h_quiet := quiet_found s handler frameID
    exact kept_of_made (fun r => h_quiet.made) h_quiet.bindings h
  -- a request is made only here
  | inFrame handler node identity => exact kept_inFrame h_inv h_promised h
  | finish handler =>
    have h_quiet := quiet_settle s handler
    exact kept_of_made (fun r => h_quiet.made) h_quiet.bindings h
  | navigate | clock | registry | store => exact kept_of_made (fun _ h_made => h_made) rfl h
  | clear =>
    refine @kept_of_made ρ s _ ?_ rfl h
    rintro r ((h_mem | h_taken) | h_filled)
    · cases h_mem
    · exact .inl (.inr h_taken)
    · exact .inr h_filled

/-- **The promised origin.** If every request is bound to an element of a document with the origin
that it promises, then every value gets into such a document. -/
theorem origin_of_fillsPromised {es : List (Event ρ)}
    (h_run : ((machine P ρ now).restrict Promised).Runs
      ((machine P ρ now).restrict Promised).init es) :
    ∀ fill ∈ ((machine P ρ now).exec (machine P ρ now).init es).fills,
      fill.element.document.origin = some fill.request.origin := by
  have h_kept : ∀ r, ((machine P ρ now).exec (machine P ρ now).init es).Made r →
      Kept ((machine P ρ now).exec (machine P ρ now).init es) r := by
    refine h_run.reachable.induction (P := fun s => ∀ r, s.Made r → Kept s r) ?_ ?_
    · intro r _ el h_el
      cases h_el
    · intro s e h_reachable h_made h_enabled
      exact @kept_next ρ _ P now s (inv_of_reachable h_reachable.of_restrict) e h_enabled.2 h_made
  intro fill h_fill
  exact h_kept fill.request (.inr ⟨fill, h_fill, rfl⟩) fill.element
    (fills_bound h_run.of_restrict.reachable h_fill)

/-- A page of a shop, with the addresses that are looked at. -/
def shop : Platform where
  safeOrigin url := if url = "https://shop.example/pay" ∨ url = "https://shop.example" then
    "https://shop.example" else ""
  locatorFrom := .ok

/-- A page of the shop with a frame of somebody else, under control; and a request for a value
whose target is found in this frame of the tab. -/
def asking (frameID : ℕ) : List (Event Bool) :=
  [.navigate 7 0 (some ⟨⟨1, some "https://shop.example"⟩, "https://shop.example/pay"⟩),
    .navigate 7 1 (some ⟨⟨2, some "https://ads.example"⟩, "https://ads.example/frame"⟩),
    .registry (.ensure 7 "t" false), .registry (.claim "t" "s" "l" false),
    .secureInputRequest false (.ofFields [("tabId", .str "t"), ("sessionId", .str "s"),
      ("leaseId", .str "l"), ("origin", .str "https://shop.example"),
      ("target", .obj [("locator", .obj [("by", .str "css"), ("value", .str "#card")])])]),
    .gotTab false, .found false frameID, .inFrame false 3 0, .finish false]

/-- The user types the value. -/
def typing (frameID : ℕ) : List (Event Bool) :=
  [.submit true 0 "4111", .gotTab true, .found true frameID, .inFrame true 3 0, .inFrame true 3 0,
    .inFrame true 3 0]

/-- A value for the page itself. -/
theorem origin_of_fillsPromised_page :
    ((machine shop Bool 0).exec (machine shop Bool 0).init (asking 0 ++ typing 0)).filled = [0] ∧
      ∀ fill ∈ ((machine shop Bool 0).exec (machine shop Bool 0).init
          (asking 0 ++ typing 0)).fills,
        fill.element.document.origin = some fill.request.origin :=
  ⟨by decide +kernel, origin_of_fillsPromised (by decide +kernel)⟩

/-- The user is shown the origin of the shop, and the value gets into the frame. -/
theorem not_fillsPromised_frameOrigin :
    ¬ ∀ (P : Platform) (now : ℕ) (es : List (Event Bool)),
      (machine P Bool now).Runs (machine P Bool now).init es →
        ∀ fill ∈ ((machine P Bool now).exec (machine P Bool now).init es).fills,
          fill.element.document.origin = some fill.request.origin := by
  intro h
  have h_run : (machine shop Bool 0).Runs (machine shop Bool 0).init (asking 1 ++ typing 1) := by
    decide +kernel
  have h_fill : ¬ ∀ fill ∈ ((machine shop Bool 0).exec (machine shop Bool 0).init
      (asking 1 ++ typing 1)).fills, fill.element.document.origin = some fill.request.origin := by
    decide +kernel
  exact h_fill (h shop 0 _ h_run)

end SecureInput

end BrowserControl.Extension
