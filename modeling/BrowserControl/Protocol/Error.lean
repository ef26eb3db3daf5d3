import BrowserControl.Encoding.Json

/-!
# RPC errors

The error record of the wire protocol. Its structured data is a JSON object with the fields
`kind`, `retryable` and `effect`; `effect` says what may have happened in the browser before
the error, and `withEffect` is how the daemon corrects it once a request has crossed the
extension boundary.
-/

namespace BrowserControl.Protocol

open Encoding

/-! ### Codes -/

def codeMethodNotFound : ℤ := -32601
def codeInvalidParams : ℤ := -32602
def codeInternalError : ℤ := -32603
def codeSessionNotFound : ℤ := -32001
def codeSessionStopped : ℤ := -32002
def codeLeaseConflict : ℤ := -32004
def codeLeaseRequired : ℤ := -32005
def codeLeaseExpired : ℤ := -32006
def codeOperationConflict : ℤ := -32007
def codeBridgeUnavailable : ℤ := -32008
def codeBridgeTimeout : ℤ := -32009
def codeCapabilityDenied : ℤ := -32011
def codeInvalidState : ℤ := -32012
def codeArtifactNotFound : ℤ := -32013
def codeConfirmationNeeded : ℤ := -32014
def codeUnsupported : ℤ := -32015
def codeCancelled : ℤ := -32016
def codeProtocolMismatch : ℤ := -32017
def codeFileNotAllowed : ℤ := -32019

/-! ### Errors -/

/-- An error as it is sent to a client. -/
structure RPCError where
  code : ℤ
  message : String
  data : Object

/-- A new error; its effect is `none` unless the details say otherwise. -/
def newError (code : ℤ) (name message : String) (retryable : Bool) (details : Object) :
    RPCError where
  code := code
  message := message
  data := (Object.ofFields
    [("kind", .str name), ("retryable", .bool retryable), ("effect", .str "none")]).merge details

/-- Go reads a missing field and a `null` field alike. -/
def isNil : Option Json → Bool
  | none => true
  | some .null => true
  | some _ => false

/-- The error with another effect and more details, where details win. -/
def withEffect (rpcErr : RPCError) (effect : String) (details : Object) : RPCError :=
  let data := rpcErr.data
  let data := if isNil (data.get "kind") then data.set "kind" (.str "INTERNAL") else data
  let data := if isNil (data.get "retryable") then data.set "retryable" (.bool false) else data
  { rpcErr with data := (data.set "effect" (.str effect)).merge details }

/-- A field of the data, if it is a string. -/
def RPCError.stringData (rpcErr : RPCError) (key : String) : Option String :=
  match rpcErr.data.get key with
  | some (.str s) => some s
  | _ => none

/-- The kind of an error, empty where there is none. -/
def errorKind : Option RPCError → String
  | none => ""
  | some rpcErr => (rpcErr.stringData "kind").getD ""

/-- The effect an error reports. -/
def RPCError.effect (rpcErr : RPCError) : Option String := rpcErr.stringData "effect"

/-- The error of a request whose parameters are wrong. -/
def invalidParams (message : String) (details : Object) : RPCError :=
  newError codeInvalidParams "INVALID_REQUEST" message false details

/-- The error that hides the cause of an internal failure. -/
def internal : RPCError :=
  newError codeInternalError "INTERNAL" "internal error" false .empty

/-- The error of a caller whose context is done; `message` is the error of the context. -/
def cancelledError (message : String) : RPCError :=
  newError codeCancelled "CANCELLED" message true .empty

/-! ### What the fields of an error say -/

/-- A detail that is not given is not there. -/
theorem newError_get (code : ℤ) (name message : String) (retryable : Bool)
    (details : Object) {k : String} (h : details.get k = none) :
    (newError code name message retryable details).data.get k =
      if k = "kind" then some (.str name)
      else if k = "retryable" then some (.bool retryable)
      else if k = "effect" then some (.str "none")
      else none := by
  simp only [newError, Object.get_merge, h, Object.ofFields, List.foldl_cons, List.foldl_nil,
    Object.get_set, Object.get_empty, Option.none_or]
  by_cases h_kind : k = "kind"
  · simp [h_kind]
  · by_cases h_retryable : k = "retryable"
    · simp [h_retryable]
    · simp [h_kind, h_retryable, eq_comm]

@[simp] theorem newError_code (code : ℤ) (name message : String) (retryable : Bool)
    (details : Object) : (newError code name message retryable details).code = code := rfl

/-- An error has the kind it was made with. -/
theorem errorKind_newError (code : ℤ) (name message : String) (retryable : Bool)
    {details : Object} (h : details.get "kind" = none) :
    errorKind (some (newError code name message retryable details)) = name := by
  simp [errorKind, RPCError.stringData, newError_get _ _ _ _ _ h]

/-- A corrected error is of the same kind. -/
theorem errorKind_withEffect {rpcErr : RPCError} (effect : String) {details : Object}
    (h_kind : errorKind (some rpcErr) ≠ "") (h : details.get "kind" = none) :
    errorKind (some (withEffect rpcErr effect details)) = errorKind (some rpcErr) := by
  have h_data : ∃ name, rpcErr.data.get "kind" = some (.str name) := by
    have h_kind : (rpcErr.stringData "kind").getD "" ≠ "" := h_kind
    unfold RPCError.stringData at h_kind
    split at h_kind
    case h_1 name h_get => exact ⟨name, h_get⟩
    case h_2 => exact absurd rfl h_kind
  obtain ⟨name, h_data⟩ := h_data
  have h_kept : ∀ (p : Prop) [Decidable p],
      (if p then rpcErr.data.set "retryable" (.bool false) else rpcErr.data).get "kind" =
        some (.str name) := by
    intro p _
    split
    · rw [Object.get_set_of_ne _ (by decide), h_data]
    · exact h_data
  have h_get : (withEffect rpcErr effect details).data.get "kind" = some (.str name) := by
    have h_nil : isNil (rpcErr.data.get "kind") = false := by
      rw [h_data]
      rfl
    simp only [withEffect, h_nil, Bool.false_eq_true, if_false]
    rw [Object.get_merge, h, Option.none_or, Object.get_set_of_ne _ (by decide)]
    exact h_kept _
  show ((withEffect rpcErr effect details).stringData "kind").getD "" =
    (rpcErr.stringData "kind").getD ""
  unfold RPCError.stringData
  rw [h_get, h_data]

end BrowserControl.Protocol
