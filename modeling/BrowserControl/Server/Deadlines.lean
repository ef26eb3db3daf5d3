import BrowserControl.Server.ArtifactRead

/-!
# Deadlines

`browserctl` gives a request a deadline (`effectiveRPCTimeout`) and disconnects when it has passed,
which cancels what the daemon does for the request. The daemon has deadlines of its own: for each
call over the bridge, and for the waits of `operation.wait` and `event.next`. The command line adds
five seconds to the timeout that it expects the daemon to grant, so that the daemon is the first to
give up.

`Situation.handlePublic` says which deadlines the daemon grants to a request, in the order in which
it grants them; what it finds on the way is a `Situation`. Both programs read the member
`timeoutMs` of the parameters, the daemon once for each deadline. The command line counts on one
deadline of at most ten minutes, but an action is preceded by a preflight with the same timeout,
`browser.list` asks one instance after the other, leases and instances are released one by one, and
the waits have no upper bound (`outwaits_iff`).
-/

namespace BrowserControl.Server.Deadlines

open Encoding Protocol BrowserControl.Core

/-- `time.Millisecond` -/
def millisecond : Duration := 1000000

/-! ### The command line -/

mutual

/-- Each number of the value is in the range of the floating-point numbers. -/
def inRange : Json → Bool
  | .num n => (Float64.ofRat (NativeMessaging.numberValue n)).isSome
  | .arr elems => elemsInRange elems
  | .obj fields => fieldsInRange fields
  | _ => true

/-- The same for a list. -/
def elemsInRange : List Json → Bool
  | [] => true
  | v :: vs => inRange v && elemsInRange vs

/-- The same for the fields of an object. -/
def fieldsInRange : List (String × Json) → Bool
  | [] => true
  | (_, v) :: fs => inRange v && fieldsInRange fs

end

/-- `json.Unmarshal` for a map, whose numbers are floating-point numbers. -/
def unmarshal (fields : List (String × Json)) : Option Object :=
  if fieldsInRange fields then some (.ofFields fields) else none

/-- A member that is a number. -/
def floatField (values : Object) (key : String) : Option ℚ :=
  match values.get key with
  | some (.num n) => Float64.ofRat (NativeMessaging.numberValue n)
  | _ => none

/-- The options of the command, with their defaults. -/
structure Options where
  timeout : Duration := 30 * second
  timeoutSet : Bool := false

/-- `effectiveRPCTimeout`, for parameters with the members `fields`. -/
def effectiveRPCTimeout (opts : Options) (fields : List (String × Json)) : Duration :=
  if opts.timeoutSet then opts.timeout
  else
    let timeout := opts.timeout + 5 * second
    match unmarshal fields with
    -- Parameters that cannot be read, or name no number, leave the usual deadline.
    | none => timeout
    | some values =>
      match floatField values "timeoutMs" with
      | none => timeout
      | some requested =>
        if requested ≤ 0 then timeout
        else
          let requestedTimeout := ⌊min requested 600000⌋ * millisecond
          if requestedTimeout + 5 * second > timeout then requestedTimeout + 5 * second else timeout

/-! ### Durations of the daemon -/

section Durations

variable (overflow : ℚ → ℤ)

/-- `time.Duration(value * float64(time.Millisecond))` -/
def nanoseconds (value : ℚ) : Duration :=
  (Float64.ofRat (value * 1000000)).elim (overflow (value * 1000000)) (Float64.toInt64 overflow)

/-- `durationMS` -/
def durationMS (params : Object) (key : String) (fallback : Duration) : Duration :=
  let value := ArtifactRead.numberOf (params.get key) (-1)
  if value < 0 then fallback else nanoseconds overflow value

/-- The deadline of a call over the bridge. -/
def callBridge (params : Object) : Duration :=
  let timeout := durationMS overflow params "timeoutMs" (30 * second)
  if timeout > 10 * minute then 10 * minute else timeout

end Durations

/-! ### What a request finds -/

/-- The critical sections that a request can pass. -/
inductive Section where
  /-- What `tabOpen` and `tabClose` check before `forward`. -/
  | screen
  | session
  | capability
  | lease
  | renewal
  | claim
  | binding
  | close

/-- What a request finds in the daemon and in the extension. -/
structure Situation (κ : Type*) where
  manager : Section → Manager κ
  now : Section → Time
  /-- The default of the registry, and the ids of its instances. -/
  defaultID : String
  instances : List String
  /-- What `validateUploadFiles` says. -/
  files : Except RPCError (List String)
  /-- The id of a new lease. -/
  leaseID : String
  /-- The leases that `CloseSession` releases. -/
  released : List Lease
  /-- The callback of the request is run, in the queue of its tab. -/
  runs : Bool
  /-- The answer to a preflight. -/
  preflight : Except RPCError Json
  /-- The instance answers `browser.list` with a list of browsers. -/
  lists : String → Bool

/-- An error that may be there. -/
def refusal : Option RPCError → Except RPCError Unit
  | some rpcErr => .error rpcErr
  | none => .ok ()

/-- What is done when the checks are passed. -/
def whenOk {α β : Type*} (checks : Except RPCError α) (default : β) (f : α → β) : β :=
  match checks with
  | .ok a => f a
  | .error _ => default

/-- `uintField` finds `expectedDocumentEpoch`. -/
def hasEpoch (params : Object) : Bool :=
  0 ≤ ArtifactRead.numberOf (params.get "expectedDocumentEpoch") (-1)

namespace Situation

variable {κ : Type*} [DecidableEq κ] (x : Situation κ)

/-! ### Checks -/

/-- The session that is named exists. -/
def checkSession (params : Object) : Except RPCError Unit :=
  let sessionID := stringField params "sessionId"
  if sessionID = "" then .ok ()
  else ((x.manager .session).getSession sessionID).map fun _ => ()

/-- It may do what is asked. -/
def checkCapability (method : String) (params : Object) : Except RPCError Unit :=
  let sessionID := stringField params "sessionId"
  let capability := capabilityForRequest method params
  if capability = "" then .ok ()
  else if sessionID = "" then .error (sessionRequired method)
  else refusal ((x.manager .capability).requireCapability sessionID capability)

/-- The parameters of a request with a lease, for the Chrome instance of the lease. -/
def leaseParams (method : String) (params : Object) : Except RPCError Object :=
  let sessionID := stringField params "sessionId"
  let tabID := stringField params "tabId"
  let leaseID := stringField params "leaseId"
  let missing := missingFields sessionID tabID leaseID
  if missing ≠ [] then .error (missingFieldsError method missing)
  else do
    refusal ((x.manager .lease).validateLease (x.now .lease) sessionID tabID leaseID).result
    let renewed ←
      ((x.manager .renewal).renewLease (x.now .renewal) sessionID tabID leaseID 0).result
    bindBrowser params tabID renewed

/-- The lease is looked at where the method needs one. -/
def checkLease (method : String) (params : Object) (leaseRequired : Bool) :
    Except RPCError Object :=
  if leaseRequired then x.leaseParams method params else .ok params

/-- The files are looked at where there are any. -/
def checkUploads (method : String) (params : Object) : Except RPCError Object :=
  if method = "fileChooser.setFiles" then x.files.map (canonicalFiles params) else .ok params

/-- What `forward` does before the request is called: its checks, and the parameters that are
sent. -/
def prepare (method : String) (params : Object) (leaseRequired : Bool) :
    Except RPCError Object := do
  x.checkSession params
  x.checkCapability method params
  let params ← x.checkLease method params leaseRequired
  let params ← x.checkUploads method params
  refusal (checkForwarded method params (hasEpoch params))
  return params

/-- The Chrome instance that is named, or the default. -/
def browserInstanceID (params : Object) : String :=
  if stringField params "browserInstanceId" = "" then x.defaultID
  else stringField params "browserInstanceId"

/-- What `authorizeAction` sends, unless there is no instance to ask. -/
def preflightRequest (params : Object) : Except RPCError Object :=
  if x.browserInstanceID params = "" then
    .error ((BridgeFailure.unavailable none).toError "action.preflight")
  else .ok (preflightParams params (x.browserInstanceID params))

/-- What `authorizeAction` makes of the answer. -/
def authorized (boundParams : Object) : Except RPCError Object := do
  let answer ← x.preflight
  match preflightObject answer with
  | none => .error invalidPreflight
  | some preflight => .ok (authorizedParams boundParams preflight)

/-- What `tabClaim` does before the call: the lease is claimed and bound. -/
def claim (overflow : ℚ → ℤ) (params : Object) : Except RPCError Lease :=
  let sessionID := stringField params "sessionId"
  let tabID := stringField params "tabId"
  if sessionID = "" ∨ tabID = "" then
    .error (invalidParams "sessionId and tabId are required" .empty)
  else if x.browserInstanceID params = "" then
    .error ((BridgeFailure.unavailable none).toError "tab.claim")
  -- The lease is claimed, and then bound to the browser, in two critical sections.
  else do
    let lease ← ((x.manager .claim).claimTabForce (x.now .claim) (fun _ => "") x.leaseID sessionID
      tabID (durationMS overflow params "leaseTtlMs" 0)
      (params.get "force" matches some (.bool true))).result
    ((x.manager .binding).bindLeaseBrowser (x.now .binding) sessionID tabID lease.leaseID
      (x.browserInstanceID params)).result

/-- What `tabClaim` sends. -/
def claimParams (params : Object) (lease : Lease) : Object :=
  let forwardParams := (params.set "leaseId" (.str lease.leaseID)).set "browserInstanceId"
    (.str (x.browserInstanceID params))
  match (x.manager .session).getSession (stringField params "sessionId") with
  | .error _ => forwardParams
  | .ok session => forwardParams.set "session" (.obj [("clientId", .str session.clientID),
      ("name", .str session.name), ("sessionId", .str session.sessionID)])

/-- What `tabRelease` does before the call, and what it sends. -/
def releaseParams (params : Object) : Except RPCError Object := do
  let sessionID := stringField params "sessionId"
  let tabID := stringField params "tabId"
  let requested := stringField params "browserInstanceId"
  let current ← ((x.manager .renewal).renewLease (x.now .renewal) sessionID tabID
    (stringField params "leaseId") 0).result
  if requested ≠ "" ∧ requested ≠ current.browserInstanceID then
    .error (newError codeLeaseConflict "LEASE_CONFLICT"
      "lease belongs to a different Chrome instance" false (.ofFields [("tabId", .str tabID)]))
  else .ok (params.set "browserInstanceId" (.str current.browserInstanceID))

/-- `CloseSession`, and the leases that it releases. -/
def closeSession (params : Object) (reason : String) : Except RPCError (List Lease) :=
  ((x.manager .close).closeSession (x.now .close) (stringField params "sessionId")
    reason).result.map fun _ => x.released

/-- A session is named. -/
def checkSessionGiven (params : Object) : Except RPCError Unit :=
  if stringField params "sessionId" = "" then .error (invalidParams "sessionId is required" .empty)
  else .ok ()

/-! ### The handlers -/

/-- The deadlines of releases on the extension, three seconds each. -/
def releases (count : ℕ) : List Duration := List.replicate count (3 * second)

/-- The function that the queue of the tab runs. -/
def call (overflow : ℚ → ℤ) (method : String) (params : Object) : List Duration :=
  if method = "action.perform" then
    whenOk (x.preflightRequest params) [] fun boundParams =>
      callBridge overflow boundParams ::
        whenOk (x.authorized boundParams) [] fun params => [callBridge overflow params]
  else [callBridge overflow params]

/-- The waits of `forward`. -/
def forward (overflow : ℚ → ℤ) (method : String) (params : Object) (leaseRequired : Bool) :
    List Duration :=
  whenOk (x.prepare method params leaseRequired) [] fun params =>
    if x.runs then x.call overflow method params else []

/-- The waits of `session.close`. -/
def sessionClose (method : String) (params : Object) : List Duration :=
  let reason := stringField params "reason"
  whenOk (checkSessionGiven params) [] fun _ =>
    whenOk (x.closeSession params (if reason = "" then method else reason)) [] fun released =>
      releases released.length

/-- The calls of `browserList`, one instance after the other. -/
def listInstances (overflow : ℚ → ℤ) (params : Object) : List String → List Duration
  | [] => []
  | id :: ids =>
    callBridge overflow (params.set "browserInstanceId" (.str id)) ::
      if x.lists id then listInstances overflow params ids else []

/-- The waits of `browser.list`. -/
def browserList (overflow : ℚ → ℤ) (params : Object) : List Duration :=
  if x.instances = [] then []
  else if stringField params "browserInstanceId" ≠ "" then [callBridge overflow params]
  else x.listInstances overflow params x.instances

/-- The waits of `browser.stop`. -/
def browserStop (params : Object) : List Duration :=
  let reason := stringField params "reason"
  if stringField params "sessionId" ≠ "" then
    whenOk (x.closeSession params (if reason = "" then "browser.stop" else reason)) []
      fun released => releases released.length
  else if stringField params "browserInstanceId" ≠ "" then releases 1
  else releases x.instances.length

/-- The waits of `tab.claim`. -/
def tabClaim (overflow : ℚ → ℤ) (params : Object) : List Duration :=
  whenOk (x.claim overflow params) [] fun lease =>
    [callBridge overflow (x.claimParams params lease)]

/-- The waits of `tab.release`. -/
def tabRelease (overflow : ℚ → ℤ) (params : Object) : List Duration :=
  whenOk (x.releaseParams params) [] fun params => [callBridge overflow params]

/-- The waits of `tab.open`. -/
def tabOpen (overflow : ℚ → ℤ) (params : Object) : List Duration :=
  whenOk ((x.manager .screen).getSession (stringField params "sessionId")) [] fun _ =>
    x.forward overflow "tab.open" params false

/-- The waits of `tab.close`. -/
def tabClose (overflow : ℚ → ℤ) (params : Object) : List Duration :=
  whenOk (refusal ((x.manager .screen).validateLease (x.now .screen)
    (stringField params "sessionId") (stringField params "tabId")
    (stringField params "leaseId")).result) [] fun _ => x.forward overflow "tab.close" params true

/-- The wait of `operation.wait`. -/
def operationWait (overflow : ℚ → ℤ) (params : Object) : List Duration :=
  whenOk (checkSessionGiven params) [] fun _ =>
    [durationMS overflow params "timeoutMs" (30 * second)]

/-- The wait of `event.next`. -/
def eventNext (overflow : ℚ → ℤ) (params : Object) : List Duration :=
  whenOk (checkSessionGiven params) [] fun _ =>
    whenOk (x.checkSession params) [] fun _ =>
      [durationMS overflow params "timeoutMs" (30 * second)]

/-- The methods that the daemon answers by itself. -/
def answeredAlone : List String :=
  ["daemon.hello", "daemon.status", "daemon.diagnostics", "session.open", "session.get",
    "session.requestCapabilities", "tab.lease.renew", "artifact.get", "artifact.readChunk",
    "artifact.delete", "operation.get", "operation.cancel", "event.replay", "confirmation.get",
    "confirmation.list"]

/-- The deadlines that `handlePublic` grants to a request. -/
def handlePublic (overflow : ℚ → ℤ) (method : String) (params : Object) : List Duration :=
  -- The cases of the source's `switch`, in its order.
  if method ∈ answeredAlone then []
  else if method = "session.close" ∨ method = "session.stop" then x.sessionClose method params
  else if method = "browser.list" then x.browserList overflow params
  else if method = "browser.stop" then x.browserStop params
  else if method = "tab.claim" then x.tabClaim overflow params
  else if method = "tab.release" then x.tabRelease overflow params
  else if method = "tab.open" then x.tabOpen overflow params
  else if method = "tab.close" then x.tabClose overflow params
  else if method = "operation.wait" then operationWait overflow params
  else if method = "event.next" then x.eventNext overflow params
  else if isForwarded method then x.forward overflow method params (requiresLease method)
  else []

end Situation

/-! ### Nanoseconds -/

section Nanoseconds

variable (overflow : ℚ → ℤ) {value : ℚ}

/-- The nanoseconds do not fit into 64 bits, so that what becomes of them depends on the machine. -/
def Overflows (value : ℚ) : Prop :=
  0 < value ∧ ∀ ns ∈ Float64.ofRat (value * 1000000), 2 ^ 63 ≤ ⌊ns⌋

/-- Up to ten minutes rounding keeps the nanoseconds between two milliseconds. -/
theorem exists_nanoseconds (h_nonneg : 0 ≤ value) (h : value ≤ 600000) :
    ∃ ns : ℚ, Float64.ofRat (value * 1000000) = some ns ∧ 0 ≤ ns ∧
      ⌊value⌋ * 1000000 ≤ ⌊ns⌋ ∧ ⌊ns⌋ ≤ (⌊value⌋ + 1) * 1000000 ∧ ⌊ns⌋ ≤ 600000000000 := by
  obtain ⟨n, h_n⟩ := Int.eq_ofNat_of_zero_le (Int.floor_nonneg.mpr h_nonneg)
  -- whole milliseconds and what is behind the point
  have h_floor : (n : ℚ) ≤ value := by
    have h_le := Int.floor_le value
    rwa [h_n] at h_le
  have h_succ : value < n + 1 := by
    have h_lt := Int.lt_floor_add_one value
    rwa [h_n] at h_lt
  have h_few : n ≤ 600000 := by exact_mod_cast h_floor.trans h
  -- The three bounds are natural numbers, and rounding does not go beyond them.
  have h_lower : ((n * 1000000 : ℕ) : ℚ) ≤ value * 1000000 := by
    push_cast
    linarith
  have h_upper : value * 1000000 ≤ (((n + 1) * 1000000 : ℕ) : ℚ) := by
    push_cast
    linarith
  have h_most : value * 1000000 ≤ ((600000000000 : ℕ) : ℚ) := by
    push_cast
    linarith
  have h_ns : 0 ≤ value * 1000000 := mul_nonneg h_nonneg (by norm_num)
  have h_le := Float64.natCast_le_nearest h_lower (by omega)
  have h_floor_le : ∀ m : ℕ, Float64.nearest (value * 1000000) ≤ m →
      ⌊Float64.nearest (value * 1000000)⌋ ≤ m := by
    intro m h_m
    exact_mod_cast (Int.floor_le _).trans h_m
  refine ⟨_, Float64.ofRat_of_le h_ns h_most (by norm_num), (Nat.cast_nonneg _).trans h_le,
    ?_, ?_, ?_⟩
  · rw [h_n]
    exact Int.le_floor.mpr (by exact_mod_cast h_le)
  · rw [h_n]
    exact_mod_cast h_floor_le _ (Float64.nearest_le_natCast h_ns h_upper (by omega))
  · exact h_floor_le _ (Float64.nearest_le_natCast h_ns h_most (by norm_num))

/-- Ten minutes in milliseconds are no overflow. -/
theorem not_overflows (h : value ≤ 600000) : ¬ Overflows value := by
  intro h_overflows
  obtain ⟨ns, h_ofRat, -, -, -, h_most⟩ := exists_nanoseconds h_overflows.1.le h
  have h_floor := h_overflows.2 ns h_ofRat
  omega

/-- The rounding of a time that is no overflow. -/
theorem nanoseconds_bounds (h_nonneg : 0 ≤ value) (h : value ≤ 600000) :
    ⌊value⌋ * millisecond ≤ nanoseconds overflow value ∧
      nanoseconds overflow value ≤ (⌊value⌋ + 1) * millisecond ∧
      nanoseconds overflow value ≤ 10 * minute := by
  obtain ⟨ns, h_ofRat, h_ns, h_le, h_ge, h_most⟩ := exists_nanoseconds h_nonneg h
  rw [nanoseconds, h_ofRat, Option.elim_some, Float64.toInt64_of_floor_lt overflow h_ns (by omega)]
  exact ⟨h_le, h_ge, h_most⟩

/-- From ten minutes on it does not get less than that. -/
theorem le_nanoseconds (h : 600000 ≤ value) (h_fits : ¬ Overflows value) :
    10 * minute ≤ nanoseconds overflow value := by
  unfold Overflows at h_fits
  push Not at h_fits
  obtain ⟨ns, h_ns, h_lt⟩ := h_fits (lt_of_lt_of_le (by norm_num) h)
  have h_ofRat : Float64.ofRat (value * 1000000) = some ns := h_ns
  -- The bound is itself a double, so rounding does not fall below it.
  have h_lower : ((600000000000 : ℕ) : ℚ) ≤ value * 1000000 := by
    push_cast
    linarith
  have h_le : ((600000000000 : ℕ) : ℚ) ≤ ns := by
    rw [Float64.eq_nearest h_ofRat]
    exact Float64.natCast_le_nearest h_lower (by norm_num)
  have h_floor : ((600000000000 : ℕ) : ℤ) ≤ ⌊ns⌋ := Int.le_floor.mpr (by exact_mod_cast h_le)
  rw [nanoseconds, h_ofRat, Option.elim_some,
    Float64.toInt64_of_floor_lt overflow ((Nat.cast_nonneg _).trans h_le) h_lt]
  exact h_floor

end Nanoseconds

/-! ### The timeout of a request -/

/-- `timeoutMs` as the daemon reads it; it is negative if there is none. -/
def timeoutMs (params : Object) : ℚ := ArtifactRead.numberOf (params.get "timeoutMs") (-1)

/-- The time that the client has given. -/
theorem timeoutMs_eq (params : Object) :
    timeoutMs params = (floatField params "timeoutMs").getD (-1) := by
  unfold timeoutMs ArtifactRead.numberOf floatField
  cases params.get "timeoutMs" with
  | none => rfl
  | some value => cases value <;> rfl

/-- Without a number that is out of range, both programs read the same timeout. -/
theorem effectiveRPCTimeout_of_inRange {fields : List (String × Json)}
    (h : fieldsInRange fields = true) : effectiveRPCTimeout {} fields =
      if timeoutMs (.ofFields fields) ≤ 0 then 35 * second
      else max (35 * second)
        (⌊min (timeoutMs (.ofFields fields)) 600000⌋ * millisecond + 5 * second) := by
  rw [effectiveRPCTimeout, if_neg Bool.false_ne_true, unmarshal, if_pos h, timeoutMs_eq]
  dsimp only
  cases floatField (Object.ofFields fields) "timeoutMs" with
  | none => exact (if_pos (by norm_num)).symm
  | some requested =>
    rw [Option.getD_some]
    dsimp only
    -- No timeout asked for; one beyond the usual; one below it.
    split_ifs with h_zero h_more
    · rfl
    · exact (max_eq_right h_more.le).symm
    · exact (max_eq_left (not_lt.mp h_more)).symm

/-- Where the parameters cannot be read, the default is taken. -/
theorem effectiveRPCTimeout_of_not_inRange {fields : List (String × Json)}
    (h : ¬ fieldsInRange fields = true) : effectiveRPCTimeout {} fields = 35 * second := by
  rw [effectiveRPCTimeout, if_neg Bool.false_ne_true, unmarshal, if_neg h]
  rfl

/-- Without a timeout, or with one of zero, a deadline has at most half a minute. -/
theorem durationMS_of_nonpos (overflow : ℚ → ℤ) {params : Object} (h : timeoutMs params ≤ 0) :
    0 ≤ durationMS overflow params "timeoutMs" (30 * second) ∧
      durationMS overflow params "timeoutMs" (30 * second) ≤ 30 * second := by
  show 0 ≤ (if timeoutMs params < 0 then _ else _) ∧ (if timeoutMs params < 0 then _ else _) ≤ _
  split_ifs with h_neg
  · exact ⟨by decide, le_rfl⟩
  · have h_zero : timeoutMs params = 0 := h.antisymm (not_lt.mp h_neg)
    change 0 ≤ nanoseconds overflow (timeoutMs params) ∧
      nanoseconds overflow (timeoutMs params) ≤ 30 * second
    rw [h_zero]
    obtain ⟨h_le, h_ge, -⟩ := nanoseconds_bounds overflow (le_refl (0 : ℚ)) (by norm_num)
    rw [Int.floor_zero] at h_le h_ge
    exact ⟨h_le, h_ge.trans (by decide)⟩

/-- A positive time is taken as it is. -/
theorem durationMS_of_pos (overflow : ℚ → ℤ) {params : Object} (h : 0 < timeoutMs params) :
    durationMS overflow params "timeoutMs" (30 * second) =
      nanoseconds overflow (timeoutMs params) := if_neg h.le.not_gt

/-- A call of the bridge waits ten minutes at most. -/
theorem callBridge_le (overflow : ℚ → ℤ) (params : Object) :
    callBridge overflow params ≤ 10 * minute := by
  unfold callBridge
  dsimp only
  split_ifs with h
  · exact le_rfl
  · exact not_lt.mp h

/-- It waits as long as it is told. -/
theorem callBridge_of_le (overflow : ℚ → ℤ) {params : Object}
    (h : durationMS overflow params "timeoutMs" (30 * second) ≤ 10 * minute) :
    callBridge overflow params = durationMS overflow params "timeoutMs" (30 * second) :=
  if_neg h.not_gt

/-- But not longer. -/
theorem callBridge_of_ge (overflow : ℚ → ℤ) {params : Object}
    (h : 10 * minute ≤ durationMS overflow params "timeoutMs" (30 * second)) :
    callBridge overflow params = 10 * minute := by
  unfold callBridge
  dsimp only
  split_ifs with h_more
  · rfl
  · exact (not_lt.mp h_more).antisymm h

/-! ### What a request needs -/

/-- The deadlines that a request needs. -/
inductive Demand where
  /-- Calls over the bridge, with the timeout of the request. -/
  | calls (count : ℕ)
  /-- Releases of leases or of instances on the extension. -/
  | releases (count : ℕ)
  /-- One wait. -/
  | wait

namespace Demand

/-- The waits of a handler that demands this. -/
def durations (overflow : ℚ → ℤ) (params : Object) : Demand → List Duration
  | .calls count => List.replicate count (callBridge overflow params)
  | .releases count => Situation.releases count
  | .wait => [durationMS overflow params "timeoutMs" (30 * second)]

/-- The deadlines fit into that of the command line. It is 35 seconds, and up to ten minutes and
five seconds if the parameters have a timeout and no number that is out of range. -/
def Fits (overflow : ℚ → ℤ) (fields : List (String × Json)) : Demand → Prop
  | .calls count =>
    count * callBridge overflow (.ofFields fields) < 35 * second ∨
      -- With a timeout in range one call is always waited out, more only if the timeout overflows.
      fieldsInRange fields = true ∧ (count ≤ 1 ∨ Overflows (timeoutMs (.ofFields fields)) ∧
        count * callBridge overflow (.ofFields fields) < 605 * second)
  | .releases count =>
    count * (3 * second) < 35 * second ∨
      fieldsInRange fields = true ∧ 0 < timeoutMs (.ofFields fields) ∧ count * (3 * second) <
        ⌊min (timeoutMs (.ofFields fields)) 600000⌋ * millisecond + 5 * second
  | .wait =>
    durationMS overflow (.ofFields fields) "timeoutMs" (30 * second) < 35 * second ∨
      fieldsInRange fields = true ∧
        durationMS overflow (.ofFields fields) "timeoutMs" (30 * second) < 605 * second

variable (overflow : ℚ → ℤ) (fields : List (String × Json))

/-- When releases end before the client does. -/
theorem releases_lt_iff (count : ℕ) :
    (durations overflow (.ofFields fields) (.releases count)).sum <
    effectiveRPCTimeout {} fields ↔ Fits overflow fields (.releases count) := by
  unfold durations Situation.releases Fits
  rw [List.sum_replicate, nsmul_eq_mul]
  by_cases h : fieldsInRange fields = true
  · rw [effectiveRPCTimeout_of_inRange h]
    split_ifs with h_nonpos
    · refine ⟨.inl, fun h_fits => h_fits.elim id fun h_more => ?_⟩
      exact absurd h_nonpos h_more.2.1.not_ge
    · rw [lt_max_iff]
      refine or_congr_right ⟨fun h_more => ⟨h, not_le.mp h_nonpos, h_more⟩, fun h_more =>
        h_more.2.2⟩
  · rw [effectiveRPCTimeout_of_not_inRange h]
    exact ⟨.inl, fun h_fits => h_fits.elim id fun h_more => absurd h_more.1 h⟩

/-- A timeout of more than ten minutes makes the command line wait for ten minutes and five
seconds. -/
theorem floor_min_of_lt {value : ℚ} (h : 600000 < value) :
    ⌊min value 600000⌋ * millisecond + 5 * second = 605 * second := by
  rw [min_eq_right h.le]
  have h_floor : ⌊(600000 : ℚ)⌋ = 600000 := by exact_mod_cast Int.floor_intCast (R := ℚ) 600000
  rw [h_floor]
  rfl

/-- When a wait does. -/
theorem wait_lt_iff : (durations overflow (.ofFields fields) .wait).sum <
    effectiveRPCTimeout {} fields ↔ Fits overflow fields .wait := by
  unfold durations Fits
  rw [List.sum_singleton]
  by_cases h : fieldsInRange fields = true
  · rw [effectiveRPCTimeout_of_inRange h]
    -- a timeout that is not positive means half a minute
    split_ifs with h_nonpos
    · have h_half := (durationMS_of_nonpos overflow h_nonpos).2
      have h_lt : durationMS overflow (.ofFields fields) "timeoutMs" (30 * second) < 35 * second :=
        h_half.trans_lt (by decide)
      exact iff_of_true h_lt (.inl h_lt)
    · have h_pos := not_le.mp h_nonpos
      rw [durationMS_of_pos overflow h_pos, lt_max_iff]
      by_cases h_few : timeoutMs (.ofFields fields) ≤ 600000
      · obtain ⟨-, h_ge, h_most⟩ := nanoseconds_bounds overflow h_pos.le h_few
        rw [min_eq_left h_few]
        refine iff_of_true (.inr (h_ge.trans_lt ?_)) (.inr ⟨h, h_most.trans_lt (by decide)⟩)
        show (⌊timeoutMs (.ofFields fields)⌋ + 1) * 1000000 <
          ⌊timeoutMs (.ofFields fields)⌋ * 1000000 + (5000000000 : ℤ)
        omega
      · rw [floor_min_of_lt (not_le.mp h_few)]
        exact or_congr_right ⟨fun h_more => ⟨h, h_more⟩, fun h_more => h_more.2⟩
  · rw [effectiveRPCTimeout_of_not_inRange h]
    exact ⟨.inl, fun h_fits => h_fits.elim id fun h_more => absurd h_more.1 h⟩

/-- A deadline of between `m` and `m + 1000000` nanoseconds: one fits into `m` and five seconds, and
where more of them fit, they also fit into 35 seconds. -/
theorem mul_lt_iff {count : ℕ} {t m : ℤ} (h_m : 0 ≤ m) (h_le : m ≤ t) (h_ge : t ≤ m + 1000000) :
    count * t < 35000000000 ∨ count * t < m + 5000000000 ↔
      count * t < 35000000000 ∨ count ≤ 1 := by
  obtain h_few | h_many := le_or_gt count 1
  · refine iff_of_true ?_ (.inr h_few)
    obtain rfl | rfl := Nat.le_one_iff_eq_zero_or_eq_one.mp h_few
    · left
      norm_num
    · right
      rw [Nat.cast_one, one_mul]
      omega
  · have h_two : 2 * t ≤ count * t :=
      mul_le_mul_of_nonneg_right (by exact_mod_cast h_many) (h_m.trans h_le)
    generalize (count : ℤ) * t = sum at h_two ⊢
    omega

/-- When calls of the bridge do. -/
theorem calls_lt_iff (count : ℕ) : (durations overflow (.ofFields fields) (.calls count)).sum <
    effectiveRPCTimeout {} fields ↔ Fits overflow fields (.calls count) := by
  unfold durations Fits
  rw [List.sum_replicate, nsmul_eq_mul]
  -- a timeout is given and within the range, or the default is taken
  by_cases h : fieldsInRange fields = true
  · rw [effectiveRPCTimeout_of_inRange h]
    simp only [h, true_and]
    split_ifs with h_nonpos
    · -- Each call has at most half a minute.
      obtain ⟨h_le, h_half⟩ := durationMS_of_nonpos overflow h_nonpos
      rw [callBridge_of_le overflow (h_half.trans (by decide))]
      refine ⟨.inl, fun h_fits => h_fits.elim id fun h_more => h_more.elim (fun h_few => ?_) ?_⟩
      · calc (count : ℤ) * durationMS overflow (.ofFields fields) "timeoutMs" (30 * second)
            ≤ 1 * durationMS overflow (.ofFields fields) "timeoutMs" (30 * second) :=
              mul_le_mul_of_nonneg_right (by exact_mod_cast h_few) h_le
          _ ≤ 30 * second := by rwa [one_mul]
          _ < 35 * second := by decide
      · intro h_overflows
        exact absurd h_nonpos h_overflows.1.1.not_ge
    · have h_pos := not_le.mp h_nonpos
      rw [lt_max_iff]
      by_cases h_few : timeoutMs (.ofFields fields) ≤ 600000
      · -- Each call has the timeout, up to a fraction of a millisecond.
        obtain ⟨h_le, h_ge, h_most⟩ := nanoseconds_bounds overflow h_pos.le h_few
        rw [← durationMS_of_pos overflow h_pos] at h_le h_ge h_most
        rw [callBridge_of_le overflow h_most, min_eq_left h_few]
        simp only [not_overflows h_few, false_and, or_false]
        refine mul_lt_iff (mul_nonneg (Int.floor_nonneg.mpr h_pos.le) (by decide)) h_le ?_
        rw [add_mul, one_mul] at h_ge
        exact h_ge
      · rw [floor_min_of_lt (not_le.mp h_few)]
        refine or_congr_right ?_
        by_cases h_overflows : Overflows (timeoutMs (.ofFields fields))
        · -- Nothing is known about a call but that it has no more than ten minutes.
          simp only [h_overflows, true_and]
          refine ⟨.inr, fun h_fits => h_fits.elim (fun h_one => ?_) id⟩
          obtain rfl | rfl := Nat.le_one_iff_eq_zero_or_eq_one.mp h_one
          · rw [Nat.cast_zero, zero_mul]
            decide
          · rw [Nat.cast_one, one_mul]
            exact (callBridge_le overflow _).trans_lt (by decide)
        · -- Each call has ten minutes.
          have h_ten := le_nanoseconds overflow (not_le.mp h_few).le h_overflows
          rw [← durationMS_of_pos overflow h_pos] at h_ten
          rw [callBridge_of_ge overflow h_ten]
          simp only [h_overflows, false_and, or_false]
          show (count : ℤ) * 600000000000 < 605000000000 ↔ count ≤ 1
          omega
  · rw [effectiveRPCTimeout_of_not_inRange h]
    exact ⟨.inl, fun h_fits => h_fits.elim id fun h_more => absurd h_more.1 h⟩

/-- Which demands fit. -/
theorem durations_lt_iff (demand : Demand) : (demand.durations overflow (.ofFields fields)).sum <
    effectiveRPCTimeout {} fields ↔ demand.Fits overflow fields := by
  cases demand with
  | calls count => exact calls_lt_iff overflow fields count
  | releases count => exact releases_lt_iff overflow fields count
  | wait => exact wait_lt_iff overflow fields

end Demand

/-! ### What the handlers grant -/

section WhenOk

variable {α β γ : Type*} (checks : Except RPCError α) (default : β) (f : α → β)

/-- A function of what follows on the checks. -/
theorem whenOk_map (g : β → γ) :
    g (whenOk checks default f) = whenOk checks (g default) fun a => g (f a) := by
  cases checks <;> rfl

/-- What follows on the checks may use that they succeeded. -/
theorem whenOk_congr {f' : α → β} (h : ∀ a, checks = .ok a → f a = f' a) :
    whenOk checks default f = whenOk checks default f' := by
  cases checks with
  | ok a => exact h a rfl
  | error => rfl

end WhenOk

/-- The daemon rewrites parameters, but not their timeout. -/
theorem callBridge_congr (overflow : ℚ → ℤ) {params params' : Object}
    (h : params'.get "timeoutMs" = params.get "timeoutMs") :
    callBridge overflow params' = callBridge overflow params := by
  unfold callBridge durationMS
  rw [h]

namespace Situation

variable {κ : Type*} (x : Situation κ)

/-- The files are written in their place, and nothing else. -/
theorem rewrites_checkUploads {method : String} {params params' : Object}
    (h : x.checkUploads method params = .ok params') : Rewrites params params' := by
  unfold checkUploads at h
  split_ifs at h
  · cases h_files : x.files with
    | error rpcErr =>
      rw [h_files] at h
      cases h
    | ok files =>
      rw [h_files] at h
      obtain rfl := Except.ok.inj h
      exact rewrites_canonicalFiles params files
  · obtain rfl := Except.ok.inj h
    exact .refl params

/-- The time is passed on to the first call. -/
theorem timeout_preflightRequest {params boundParams : Object}
    (h : x.preflightRequest params = .ok boundParams) :
    boundParams.get "timeoutMs" = params.get "timeoutMs" := by
  unfold preflightRequest at h
  split_ifs at h
  obtain rfl := Except.ok.inj h
  rw [preflightParams, Object.get_set_of_ne _ (by decide), Object.get_erase_of_ne _ (by decide),
    Object.get_erase_of_ne _ (by decide)]

/-- And to the second. -/
theorem timeout_authorized {boundParams params : Object}
    (h : x.authorized boundParams = .ok params) :
    params.get "timeoutMs" = boundParams.get "timeoutMs" := by
  unfold authorized at h
  obtain ⟨answer, -, h⟩ := of_bind_ok h
  split at h
  · contradiction
  · obtain rfl := Except.ok.inj h
    rw [authorizedParams, Object.get_set_of_ne _ (by decide)]

/-- And to the extension when a tab is claimed. -/
theorem timeout_claimParams (params : Object) (lease : Lease) :
    (x.claimParams params lease).get "timeoutMs" = params.get "timeoutMs" := by
  have h_forward : ((params.set "leaseId" (.str lease.leaseID)).set "browserInstanceId"
      (.str (x.browserInstanceID params))).get "timeoutMs" = params.get "timeoutMs" := by
    rw [Object.get_set_of_ne _ (by decide), Object.get_set_of_ne _ (by decide)]
  unfold claimParams
  dsimp only
  cases (x.manager .session).getSession (stringField params "sessionId") with
  | error rpcErr => exact h_forward
  | ok session => exact (Object.get_set_of_ne _ (by decide) _).trans h_forward

/-- The instances are asked up to the first that does not answer. -/
def askedCount (ids : List String) : ℕ := min ids.length ((ids.takeWhile x.lists).length + 1)

/-- Each instance is asked with the same time. -/
theorem listInstances_eq (overflow : ℚ → ℤ) (params : Object) (ids : List String) :
    x.listInstances overflow params ids =
      List.replicate (x.askedCount ids) (callBridge overflow params) := by
  induction ids with
  | nil => rfl
  | cons id ids ih =>
    have h_timeout : (params.set "browserInstanceId" (.str id)).get "timeoutMs" =
        params.get "timeoutMs" := Object.get_set_of_ne _ (by decide) _
    unfold listInstances askedCount
    rw [callBridge_congr overflow h_timeout, ih, List.takeWhile_cons]
    split_ifs
    · rw [List.length_cons, List.length_cons, Nat.add_min_add_right, List.replicate_succ]
      rfl
    · rw [List.length_cons, List.length_nil, Nat.zero_add, Nat.min_eq_right (Nat.le_add_left ..)]
      rfl

/-- How many instances are asked. -/
def listCount (params : Object) : ℕ :=
  if x.instances = [] then 0
  else if stringField params "browserInstanceId" ≠ "" then 1
  else x.askedCount x.instances

/-- So many waits of that time. -/
theorem browserList_eq (overflow : ℚ → ℤ) (params : Object) : x.browserList overflow params =
    List.replicate (x.listCount params) (callBridge overflow params) := by
  unfold browserList listCount
  split_ifs
  · rfl
  · rfl
  · exact x.listInstances_eq overflow params x.instances

/-- An action is called once more if its preflight is answered as it should be. -/
def callCount (method : String) (params : Object) : ℕ :=
  if method = "action.perform" then
    whenOk (x.preflightRequest params) 0 fun boundParams =>
      whenOk (x.authorized boundParams) 1 fun _ => 2
  else 1

/-- A forwarded call waits so many times. -/
theorem call_eq (overflow : ℚ → ℤ) (method : String) {params raw : Object}
    (h : params.get "timeoutMs" = raw.get "timeoutMs") : x.call overflow method params =
      List.replicate (x.callCount method params) (callBridge overflow raw) := by
  unfold call callCount
  split_ifs
  · rw [whenOk_map _ _ _ fun count => List.replicate count (callBridge overflow raw)]
    refine whenOk_congr _ _ _ fun boundParams h_bound => ?_
    have h_timeout := (x.timeout_preflightRequest h_bound).trans h
    rw [whenOk_map _ _ _ fun count => List.replicate count (callBridge overflow raw),
      callBridge_congr overflow h_timeout]
    -- A refused action makes no call of the bridge.
    cases h_authorized : x.authorized boundParams with
    | error rpcErr => rfl
    | ok params' =>
      have h_again := (x.timeout_authorized h_authorized).trans h_timeout
      show [callBridge overflow raw, callBridge overflow params'] = _
      rw [callBridge_congr overflow h_again]
      rfl
  · rw [callBridge_congr overflow h]
    rfl

variable [DecidableEq κ]

/-- The lease is written in its place, and nothing else. -/
theorem rewrites_checkLease {method : String} {params params' : Object} {leaseRequired : Bool}
    (h : x.checkLease method params leaseRequired = .ok params') : Rewrites params params' := by
  unfold checkLease leaseParams at h
  dsimp only at h
  split_ifs at h with h_required h_missing
  · obtain ⟨-, -, h⟩ := of_bind_ok h
    obtain ⟨renewed, -, h⟩ := of_bind_ok h
    exact rewrites_bindBrowser h
  · obtain rfl := Except.ok.inj h
    exact .refl params

/-- The checks write in these places only. -/
theorem rewrites_prepare {method : String} {params params' : Object} {leaseRequired : Bool}
    (h : x.prepare method params leaseRequired = .ok params') : Rewrites params params' := by
  unfold prepare at h
  obtain ⟨-, -, h⟩ := of_bind_ok h
  obtain ⟨-, -, h⟩ := of_bind_ok h
  obtain ⟨bound, h_bound, h⟩ := of_bind_ok h
  obtain ⟨sent, h_sent, h⟩ := of_bind_ok h
  obtain ⟨-, -, h⟩ := of_bind_ok h
  obtain rfl := Except.ok.inj h
  exact (x.rewrites_checkLease h_bound).trans (x.rewrites_checkUploads h_sent)

/-- The time is passed on when a tab is released. -/
theorem timeout_releaseParams {params params' : Object} (h : x.releaseParams params = .ok params') :
    params'.get "timeoutMs" = params.get "timeoutMs" := by
  unfold releaseParams at h
  obtain ⟨current, -, h⟩ := of_bind_ok h
  split_ifs at h
  obtain rfl := Except.ok.inj h
  exact Object.get_set_of_ne _ (by decide) _

/-- How many calls `forward` makes. -/
def forwardCount (method : String) (params : Object) (leaseRequired : Bool) : ℕ :=
  whenOk (x.prepare method params leaseRequired) 0 fun params =>
    if x.runs then x.callCount method params else 0

/-- The leases that a session loses. -/
def closeCount (method : String) (params : Object) : ℕ :=
  let reason := stringField params "reason"
  whenOk (x.closeSession params (if reason = "" then method else reason)) 0 List.length

/-- How many releases `browser.stop` makes. -/
def stopCount (params : Object) : ℕ :=
  if stringField params "sessionId" ≠ "" then x.closeCount "browser.stop" params
  else if stringField params "browserInstanceId" ≠ "" then 1
  else x.instances.length

/-- What a request needs. -/
def demand (overflow : ℚ → ℤ) (method : String) (params : Object) : Demand :=
  if method ∈ answeredAlone then .calls 0
  -- A release for each lease of the session.
  else if method = "session.close" ∨ method = "session.stop" then
    .releases (whenOk (checkSessionGiven params) 0 fun _ => x.closeCount method params)
  else if method = "browser.list" then .calls (x.listCount params)
  else if method = "browser.stop" then .releases (x.stopCount params)
  else if method = "tab.claim" then .calls (whenOk (x.claim overflow params) 0 fun _ => 1)
  else if method = "tab.release" then .calls (whenOk (x.releaseParams params) 0 fun _ => 1)
  else if method = "tab.open" then
    .calls (whenOk ((x.manager .screen).getSession (stringField params "sessionId")) 0 fun _ =>
      x.forwardCount "tab.open" params false)
  else if method = "tab.close" then
    .calls (whenOk (refusal ((x.manager .screen).validateLease (x.now .screen)
      (stringField params "sessionId") (stringField params "tabId")
      (stringField params "leaseId")).result) 0 fun _ => x.forwardCount "tab.close" params true)
  else if method = "operation.wait" then whenOk (checkSessionGiven params) (.calls 0) fun _ => .wait
  else if method = "event.next" then
    whenOk (checkSessionGiven params) (.calls 0) fun _ =>
      whenOk (x.checkSession params) (.calls 0) fun _ => .wait
  else if isForwarded method then .calls (x.forwardCount method params (requiresLease method))
  else .calls 0

/-- So many waits of that time. -/
theorem forward_eq (overflow : ℚ → ℤ) (method : String) (params : Object) (leaseRequired : Bool) :
    x.forward overflow method params leaseRequired =
      List.replicate (x.forwardCount method params leaseRequired) (callBridge overflow params) := by
  unfold forward forwardCount
  rw [whenOk_map _ _ _ fun count => List.replicate count (callBridge overflow params)]
  refine whenOk_congr _ _ _ fun sent h_sent => ?_
  split_ifs
  · exact x.call_eq overflow method (x.rewrites_prepare h_sent "timeoutMs" (by decide))
  · rfl

/-- So many releases. -/
theorem browserStop_eq (params : Object) :
    x.browserStop params = releases (x.stopCount params) := by
  unfold browserStop stopCount closeCount
  dsimp only
  split_ifs
  all_goals first | rfl | rw [whenOk_map _ _ _ releases]; rfl

/-- The same for `session.close`. -/
theorem sessionClose_eq (method : String) (params : Object) : x.sessionClose method params =
    releases (whenOk (checkSessionGiven params) 0 fun _ => x.closeCount method params) := by
  unfold sessionClose closeCount
  rw [whenOk_map _ _ _ releases]
  refine whenOk_congr _ _ _ fun _ _ => ?_
  rw [whenOk_map _ _ _ releases]
  rfl

/-- One call, where the claim succeeds. -/
theorem tabClaim_eq (overflow : ℚ → ℤ) (params : Object) : x.tabClaim overflow params =
    List.replicate (whenOk (x.claim overflow params) 0 fun _ => 1)
      (callBridge overflow params) := by
  unfold tabClaim
  rw [whenOk_map _ _ _ fun count => List.replicate count (callBridge overflow params)]
  refine whenOk_congr _ _ _ fun lease _ => ?_
  rw [callBridge_congr overflow (x.timeout_claimParams params lease)]
  rfl

/-- One call, where the release does. -/
theorem tabRelease_eq (overflow : ℚ → ℤ) (params : Object) : x.tabRelease overflow params =
    List.replicate (whenOk (x.releaseParams params) 0 fun _ => 1) (callBridge overflow params) := by
  unfold tabRelease
  rw [whenOk_map _ _ _ fun count => List.replicate count (callBridge overflow params)]
  refine whenOk_congr _ _ _ fun params' h => ?_
  rw [callBridge_congr overflow (x.timeout_releaseParams h)]
  rfl

/-- The calls of `forward`, where the session exists. -/
theorem tabOpen_eq (overflow : ℚ → ℤ) (params : Object) : x.tabOpen overflow params =
    List.replicate (whenOk ((x.manager .screen).getSession (stringField params "sessionId")) 0
      fun _ => x.forwardCount "tab.open" params false) (callBridge overflow params) := by
  unfold tabOpen
  rw [whenOk_map _ _ _ fun count => List.replicate count (callBridge overflow params)]
  exact whenOk_congr _ _ _ fun _ _ => x.forward_eq overflow "tab.open" params false

/-- The same, where the lease is valid. -/
theorem tabClose_eq (overflow : ℚ → ℤ) (params : Object) : x.tabClose overflow params =
    List.replicate (whenOk (refusal ((x.manager .screen).validateLease (x.now .screen)
      (stringField params "sessionId") (stringField params "tabId")
      (stringField params "leaseId")).result) 0 fun _ => x.forwardCount "tab.close" params true)
      (callBridge overflow params) := by
  unfold tabClose
  rw [whenOk_map _ _ _ fun count => List.replicate count (callBridge overflow params)]
  exact whenOk_congr _ _ _ fun _ _ => x.forward_eq overflow "tab.close" params true

/-- **What is granted** to a request is what it needs. -/
theorem handlePublic_eq (overflow : ℚ → ℤ) (method : String) (params : Object) :
    x.handlePublic overflow method params =
      (x.demand overflow method params).durations overflow params := by
  unfold handlePublic demand
  simp only [apply_ite (Demand.durations overflow params)]
  -- method after method, in the order of the switch
  refine ite_congr rfl (fun _ => rfl) fun _ => ?_
  refine ite_congr rfl (fun _ => x.sessionClose_eq method params) fun _ => ?_
  refine ite_congr rfl (fun _ => x.browserList_eq overflow params) fun _ => ?_
  refine ite_congr rfl (fun _ => x.browserStop_eq params) fun _ => ?_
  refine ite_congr rfl (fun _ => x.tabClaim_eq overflow params) fun _ => ?_
  refine ite_congr rfl (fun _ => x.tabRelease_eq overflow params) fun _ => ?_
  refine ite_congr rfl (fun _ => x.tabOpen_eq overflow params) fun _ => ?_
  refine ite_congr rfl (fun _ => x.tabClose_eq overflow params) fun _ => ?_
  refine ite_congr rfl (fun _ => ?_) fun _ => ?_
  · rw [whenOk_map _ _ _ (Demand.durations overflow params)]
    rfl
  refine ite_congr rfl (fun _ => ?_) fun _ => ?_
  · rw [whenOk_map _ _ _ (Demand.durations overflow params)]
    refine whenOk_congr _ _ _ fun _ _ => ?_
    rw [whenOk_map _ _ _ (Demand.durations overflow params)]
    rfl
  exact ite_congr rfl (fun _ => x.forward_eq overflow method params _) fun _ => rfl

end Situation

/-! ### The command line and the daemon -/

/-- **When the command line outwaits the daemon**: the deadlines that the daemon grants to a request
add up to less than that of the command line if and only if what the request needs fits. -/
theorem outwaits_iff {κ : Type*} [DecidableEq κ] (overflow : ℚ → ℤ) (x : Situation κ)
    (method : String) (fields : List (String × Json)) :
    (x.handlePublic overflow method (.ofFields fields)).sum < effectiveRPCTimeout {} fields ↔
      (x.demand overflow method (.ofFields fields)).Fits overflow fields := by
  rw [x.handlePublic_eq]
  exact Demand.durations_lt_iff overflow fields _

/-- A session that has claimed the tab `7` of the Chrome instance `chrome_1`. -/
def claimed : Manager ℕ :=
  let opened := ((Manager.new 0).openSession 0 "ses_1" "" "").manager
  let leased := (opened.claimTabForce 0 (fun _ => "") "lease_1" "ses_1" "7" 0 false).manager
  (leased.bindLeaseBrowser 0 "ses_1" "7" "lease_1" "chrome_1").manager

/-- The instance is connected, and answers a preflight. -/
def connected : Situation ℕ where
  manager _ := claimed
  now _ := 1
  defaultID := "chrome_1"
  instances := ["chrome_1"]
  files := .ok []
  leaseID := "lease_2"
  released := []
  runs := true
  preflight := .ok (.obj [])
  lists _ := true

/-- The parameters of an action without a timeout. -/
def click : List (String × Json) :=
  [("sessionId", .str "ses_1"), ("tabId", .str "7"), ("leaseId", .str "lease_1"),
    ("operationId", .str "op_1"), ("expectedDocumentEpoch", NativeMessaging.number 1)]

/-- The preflight and the action have half a minute each, and the command line waits for 35
seconds. -/
theorem not_outwaits_preflight :
    ¬ ∀ (overflow : ℚ → ℤ) (x : Situation ℕ) (method : String) (fields : List (String × Json)),
      (x.handlePublic overflow method (.ofFields fields)).sum < effectiveRPCTimeout {} fields := by
  intro h
  have h_outwaits := h (fun _ => 0) connected "action.perform" click
  exact absurd h_outwaits (by decide +kernel)

end BrowserControl.Server.Deadlines
