import BrowserControl.Core.Operations

/-!
# Forwarding a request

The checks and rewritings that `Server.forward` applies to a public request on its own, between
the critical sections it runs: which methods need a lease, a capability, an operation id or a
document epoch, how the parameters are rewritten before they cross the bridge, and which
parameters the fingerprint of an operation is made of.
-/

namespace BrowserControl.Server

open Encoding Protocol BrowserControl.Core

/-! ### Fields -/

/-- `stringField` -/
def stringField (params : Object) (key : String) : String :=
  match params.get key with
  | some (.str value) => value
  | _ => ""

/-- The fields of a nested object. -/
def stringFieldOf (fields : List (String × Json)) (key : String) : String :=
  match fields.find? (·.1 = key) with
  | some (_, .str value) => value
  | _ => ""

/-- The text begins with `head`. -/
def hasHead (value head : String) : Bool := head.toList.isPrefixOf value.toList

/-! ### Policies of the methods -/

/-- The methods that go to the extension. -/
def isForwarded (method : String) : Bool :=
  ["browser.", "tab.", "observation.", "locator.", "action.", "condition.", "dialog.",
    "clipboard.", "fileChooser.", "download.", "content.", "pageAssets.", "secureInput.",
    "unsafe."].any (hasHead method)

/-- The method is answered by `forward`; the others have handlers of their own. -/
def reachesForward (method : String) : Bool :=
  isForwarded method &&
    method ∉ ["browser.list", "browser.stop", "tab.claim", "tab.release", "tab.lease.renew"]

/-- `requiresLease` -/
def requiresLease (method : String) : Bool :=
  if method ∈ ["browser.history.query", "tab.list", "tab.get", "tab.open", "tab.claim",
      "browser.stop"] then false
  else !hasHead method "browser."

/-- `capabilityFor` -/
def capabilityFor (method : String) : String :=
  if method = "browser.history.query" then "history.read"
  else if method = "clipboard.read" then "clipboard.read"
  else if method = "clipboard.write" then "clipboard.write"
  else if method = "fileChooser.setFiles" then "files.upload"
  else if hasHead method "download." then "files.download"
  else if hasHead method "secureInput." then "secureInput"
  else if method = "unsafe.evaluate" then "unsafe.evaluate"
  else if method = "unsafe.cdp.send" then "unsafe.cdp"
  else ""

/-- The item of an `expect` list is about a download. -/
def expectsDownload : Json → Bool
  | .obj fields => stringFieldOf fields "type" = "download"
  | _ => false

/-- An action that needs the capability for downloads. -/
def downloads (params : Object) : Bool :=
  (match params.get "action" with
    | some (.obj fields) => stringFieldOf fields "type" = "downloadMedia"
    | _ => false) ||
  match params.get "expect" with
  | some (.arr expectations) => expectations.any expectsDownload
  | _ => false

/-- `capabilityForRequest` -/
def capabilityForRequest (method : String) (params : Object) : String :=
  if method = "action.perform" && downloads params then "files.download"
  else capabilityFor method

/-- `mutatingMethod` -/
def mutatingMethod (method : String) : Bool :=
  method ∈ ["tab.open", "tab.activate", "tab.close", "tab.navigate", "tab.back", "tab.forward",
    "tab.reload", "action.perform", "dialog.respond", "clipboard.write", "fileChooser.setFiles",
    "content.export", "pageAssets.export", "secureInput.request", "unsafe.evaluate",
    "unsafe.cdp.send"]

/-- `requiresDocumentEpoch` -/
def requiresDocumentEpoch (method : String) : Bool :=
  method ∈ ["tab.navigate", "tab.back", "tab.forward", "tab.reload", "action.perform",
    "dialog.respond", "fileChooser.setFiles", "secureInput.request", "unsafe.evaluate",
    "unsafe.cdp.send"]

/-! ### Checks -/

/-- The fields a lease-scoped request lacks. -/
def missingFields (sessionID tabID leaseID : String) : List String :=
  (if sessionID = "" then ["sessionId"] else []) ++ (if tabID = "" then ["tabId"] else []) ++
    if leaseID = "" then ["leaseId"] else []

/-- The error for fields that are missing. -/
def missingFieldsError (method : String) (missing : List String) : RPCError :=
  invalidParams (method ++ " requires " ++ ", ".intercalate missing)
    (.ofFields [("method", .str method), ("missing", .arr (missing.map .str))])

/-- The error of a request without a session for a method that needs a capability. -/
def sessionRequired (method : String) : RPCError :=
  invalidParams "sessionId is required for capability-protected methods"
    (.ofFields [("method", .str method)])

/-- The error of a preflight whose answer is not an object. -/
def invalidPreflight : RPCError :=
  newError codeInternalError "INTERNAL" "extension returned an invalid action preflight" false
    .empty

/-- The parameters with the Chrome instance of the lease. -/
def bindBrowser (params : Object) (tabID : String) (renewed : Lease) :
    Except RPCError Object :=
  let requested := stringField params "browserInstanceId"
  if requested ≠ "" ∧ requested ≠ renewed.browserInstanceID then
    .error (newError codeLeaseConflict "LEASE_CONFLICT"
      "lease belongs to a different Chrome instance" false (.ofFields [("tabId", .str tabID)]))
  else if renewed.browserInstanceID ≠ "" then
    .ok (params.set "browserInstanceId" (.str renewed.browserInstanceID))
  else .ok params

/-- The parameters of a file upload with the canonical paths, which `validateUploadFiles` has
found on the disk. -/
def canonicalFiles (params : Object) (files : List String) : Object :=
  (params.set "files" (.arr (files.map .str))).erase "paths"

/-- A caller-generated operation id. -/
def validOperationID (operationID : String) : Bool :=
  hasHead operationID "op_" && operationID.utf8ByteSize ≤ 160

/-- The checks of `forward` after the rewriting. `hasEpoch` says whether
`expectedDocumentEpoch` reads as a number that is not negative. -/
def checkForwarded (method : String) (params : Object) (hasEpoch : Bool) : Option RPCError :=
  if mutatingMethod method && !validOperationID (stringField params "operationId") then
    some (invalidParams
      (method ++ " requires a caller-generated operationId beginning with op_") .empty)
  else if requiresDocumentEpoch method && !hasEpoch then
    some (invalidParams (method ++ " requires expectedDocumentEpoch") .empty)
  else if method = "action.perform" && (params.get "__preflight").isSome then
    some (invalidParams "action.perform does not accept reserved __preflight data" .empty)
  else if method = "action.perform" && (params.get "__approvedRequestHash").isSome then
    some (invalidParams "action.perform does not accept reserved __approvedRequestHash data"
      .empty)
  else none

/-! ### Errors of the bridge -/

/-- Why a call of the bridge fails in the daemon. -/
inductive BridgeFailure where
  /-- No Chrome instance is connected, or not the one that is asked for. -/
  | unavailable (browserInstanceID : Option String)
  /-- The context of the call is done, by its deadline or because it was cancelled. -/
  | timeout (message browserInstanceID : String)
  /-- The connection is closed. -/
  | disconnected (message browserInstanceID : String)
  /-- The connection fails. -/
  | broken (message browserInstanceID : String)

/-- The error of a failed call of `method`. -/
def BridgeFailure.toError (method : String) : BridgeFailure → RPCError
  | .unavailable browserInstanceID =>
    newError codeBridgeUnavailable "EXTENSION_DISCONNECTED"
      "no compatible Chrome extension is connected" true
      (.ofFields (browserInstanceID.toList.map fun id => ("browserInstanceId", .str id)))
  | .timeout message browserInstanceID =>
    newError codeBridgeTimeout "TIMEOUT" message true (details browserInstanceID)
  | .disconnected message browserInstanceID =>
    newError codeBridgeUnavailable "EXTENSION_DISCONNECTED" message true (details browserInstanceID)
  | .broken message browserInstanceID =>
    newError codeBridgeUnavailable "CHROME_DISCONNECTED" message true (details browserInstanceID)
where
  details (browserInstanceID : String) : Object :=
    .ofFields [("browserInstanceId", .str browserInstanceID), ("method", .str method)]

/-! ### What is sent and recorded -/

/-- The parameters the fingerprint of an operation is made of. -/
def fingerprintParams (params : Object) : Object :=
  (params.erase "confirmationId").erase "__approvedRequestHash"

/-- The parameters of a preflight, for the Chrome instance `browserInstanceID`. -/
def preflightParams (params : Object) (browserInstanceID : String) : Object :=
  ((params.erase "__preflight").erase "__approvedRequestHash").set "browserInstanceId"
    (.str browserInstanceID)

/-- The object in the answer to a preflight. -/
def preflightObject : Json → Option Object
  | .null => some .empty
  | .obj fields => some (.ofFields fields)
  | _ => none

/-- The parameters of an action that a preflight has authorized. -/
def authorizedParams (params preflight : Object) : Object :=
  params.set "__preflight" (preflight.set "confirmationRequired" (.bool false)).toJson

/-- The errors after which the daemon does not know whether the request took effect. -/
def isUncertain (rpcErr : RPCError) : Bool :=
  errorKind (some rpcErr) ∈ ["TIMEOUT", "CANCELLED", "EXTENSION_DISCONNECTED",
    "CHROME_DISCONNECTED"]

/-- The outcome of a request as `forward` reports it: an error of a mutating request that may
have crossed the bridge says that an effect is possible. -/
def reportEffect (method : String) (params : Object) (dispatched : Bool)
    (outcome : Outcome Json) : Outcome Json :=
  match outcome with
  | .ok result => .ok result
  | .error rpcErr =>
    if dispatched ∧ stringField params "operationId" ≠ "" ∧ mutatingMethod method ∧
        isUncertain rpcErr then
      .error (withEffect rpcErr "possible"
        (.ofFields [("operationId", .str (stringField params "operationId")),
          ("sessionId", .str (stringField params "sessionId")),
          ("tabId", .str (stringField params "tabId"))]))
    else .error rpcErr

/-- The answer to a request that ran as an operation. -/
def operationAnswer (operationID : String) (outcome : Outcome Json) (replayed : Bool) :
    Outcome Json :=
  match outcome with
  | .error rpcErr => .error rpcErr
  | .ok result =>
    .ok (Object.ofFields [("operationId", .str operationID), ("replayed", .bool replayed),
      ("result", result)]).toJson

/-! ### What the rewriting leaves -/

/-- The keys that `forward` rewrites. -/
def rewrittenKeys : List String := ["browserInstanceId", "files", "paths"]

/-- `params` differs from `raw` in rewritten keys only. -/
def Rewrites (raw params : Object) : Prop := ∀ k, k ∉ rewrittenKeys → params.get k = raw.get k

theorem Rewrites.refl (raw : Object) : Rewrites raw raw := fun _ _ => rfl

theorem Rewrites.trans {raw params params' : Object} (h : Rewrites raw params)
    (h' : Rewrites params params') : Rewrites raw params' :=
  fun k hk => (h' k hk).trans (h k hk)

theorem Rewrites.stringField {raw params : Object} (h : Rewrites raw params) {k : String}
    (hk : k ∉ rewrittenKeys) : stringField params k = stringField raw k := by
  rw [Server.stringField, h k hk, Server.stringField]

/-- The lease is written. -/
theorem rewrites_bindBrowser {params params' : Object} {tabID : String} {l : Lease}
    (h : bindBrowser params tabID l = .ok params') : Rewrites params params' := by
  unfold bindBrowser at h
  dsimp only at h
  split at h
  · contradiction
  · split at h
    · cases h
      intro k hk
      have h_ne : "browserInstanceId" ≠ k := by
        rintro rfl
        exact hk (by decide)
      exact Object.get_set_of_ne _ h_ne _
    · cases h
      exact .refl params

/-- The files are written. -/
theorem rewrites_canonicalFiles (params : Object) (files : List String) :
    Rewrites params (canonicalFiles params files) := by
  intro k hk
  have h_paths : "paths" ≠ k := by
    rintro rfl
    exact hk (by decide)
  have h_files : "files" ≠ k := by
    rintro rfl
    exact hk (by decide)
  rw [canonicalFiles, Object.get_erase_of_ne _ h_paths, Object.get_set_of_ne _ h_files]

end BrowserControl.Server
