import BrowserControl.Server.Coherence

/-!
# Replayed operations

An operation id names one operation of one session. A request that comes with the id of a
recorded operation is answered with the recorded outcome if its fingerprint is the recorded one,
and refused otherwise (`ExecuteOperation`). `forward` makes the fingerprint of the parameters
alone, so the method is not in it: two methods with the same parameters, such as `tab.back` and
`tab.forward`, are one request to `ExecuteOperation`.

`replay_bound` says when a replay is of the same request: in the runs where no operation id is
used again with the recorded parameters and another method (`MethodKept`). The invariant is
`Replays.sound`: it speaks of the record a request has found, from the critical section that
finds it until the request is answered. A digest stands for its text here as far as the two
texts that are compared are concerned (`NoCollision`).
-/

namespace BrowserControl.Server

open Encoding Protocol BrowserControl.Core Transition

variable {κ : Type*} [DecidableEq κ] {lib : Library} {leaseTTL : Duration}

/-! ### The same request -/

/-- The keys that `forward` strips before it makes the fingerprint. -/
def strippedKeys : List String := ["confirmationId", "__approvedRequestHash"]

/-- The text that the fingerprint of the request is a digest of. -/
def Request.recorded (q : Request) : String := (fingerprintParams q.params).encode

/-- The requests have the same method and the same parameters but for the stripped keys: as
`forward` sends them on, and as they were sent but for the keys that `forward` rewrites. -/
structure SameRequest (q q' : Request) : Prop where
  method : q.method = q'.method
  params : fingerprintParams q.params = fingerprintParams q'.params
  raw : ∀ k, k ∉ strippedKeys → k ∉ rewrittenKeys → q.raw.get k = q'.raw.get k

/-- The two texts have different digests unless they are equal. -/
def NoCollision (lib : Library) (q q' : Request) : Prop :=
  lib.hash q.recorded = lib.hash q'.recorded → q.recorded = q'.recorded

instance (q q' : Request) : Decidable (NoCollision lib q q') :=
  inferInstanceAs (Decidable (_ → _))

/-- A request that finds the record of its operation id, which belongs to its own session. -/
structure Reuses (s : State κ) (r₁ r₂ : κ) : Prop where
  sessionOpen : Operations.SessionOpen s.manager (s.requests r₂).sessionID
  bound : s.manager.operations (s.requests r₂).operationID = some r₁
  session : (s.manager.records r₁).sessionID = (s.requests r₂).sessionID

/-- An operation id is not used again with the recorded parameters and another method. -/
def MethodKept (s : State κ) : Event κ → Prop
  | .execute r _ => ∀ r' ∈ s.manager.operations (s.requests r).operationID,
    (s.requests r').recorded = (s.requests r).recorded →
      (s.requests r').method = (s.requests r).method
  | _ => True

instance (s : State κ) (e : Event κ) : Decidable (MethodKept s e) := by
  apply Event.casesOn (motive := fun e => Decidable (MethodKept s e)) e <;> intros <;>
    dsimp only [MethodKept] <;> infer_instance

/-- The other fields are in the fingerprint. -/
theorem get_fingerprintParams (params : Object) {k : String} (h : k ∉ strippedKeys) :
    (fingerprintParams params).get k = params.get k := by
  have h_id : "confirmationId" ≠ k := by
    rintro rfl
    exact h (by decide)
  have h_hash : "__approvedRequestHash" ≠ k := by
    rintro rfl
    exact h (by decide)
  rw [fingerprintParams, Object.get_erase_of_ne _ h_hash, Object.get_erase_of_ne _ h_id]

/-- Requests with the same method and the same text are the same. -/
theorem SameRequest.of_recorded {q q' : Request} (h_method : q.method = q'.method)
    (h_text : q.recorded = q'.recorded) (h : Rewrites q.raw q.params)
    (h' : Rewrites q'.raw q'.params) : SameRequest q q' where
  method := h_method
  params := Object.encode_injective h_text
  raw k h_stripped h_rewritten := by
    have h_params := Object.encode_injective h_text
    calc q.raw.get k
      _ = q.params.get k := (h k h_rewritten).symm
      _ = (fingerprintParams q.params).get k := (get_fingerprintParams _ h_stripped).symm
      _ = (fingerprintParams q'.params).get k := by rw [h_params]
      _ = q'.params.get k := get_fingerprintParams _ h_stripped
      _ = q'.raw.get k := h' k h_rewritten

/-- Equal requests have equal fingerprints. -/
theorem SameRequest.recorded {q q' : Request} (h : SameRequest q q') :
    q.recorded = q'.recorded := congrArg Object.encode h.params

/-! ### What a request has found -/

section Found

variable {s : State κ} {r r₁ r₂ : κ}

/-- A request that is in `ExecuteOperation` keeps its text. -/
theorem recorded_next {e : Event κ} (hs : (machine lib leaseTTL).Reachable s) (he : enabled s e)
    (h : s.operations.phase r ≠ .outside) :
    ((next lib s e).requests r).recorded = (s.requests r).recorded := by
  have h_arguments : ((next lib s e).requests r).arguments = (s.requests r).arguments :=
    arguments_next (coherent hs r) he h
  have h_params : fingerprintParams ((next lib s e).requests r).params =
      fingerprintParams (s.requests r).params :=
    congrArg (fun a => a.2.2.2) h_arguments
  rw [Request.recorded, h_params, Request.recorded]

/-- A request that is in `ExecuteOperation` keeps its method. -/
theorem method_next {e : Event κ} (hs : (machine lib leaseTTL).Reachable s) (he : enabled s e)
    (h : s.operations.phase r ≠ .outside) :
    ((next lib s e).requests r).method = (s.requests r).method := by
  refine (kept_next he ?_).method
  intro h_outside
  exact h ((coherent hs r).early (by rw [h_outside]; rfl)).1

omit [DecidableEq κ] in
/-- A request that was found has entered. -/
theorem inside_of_found (h : (s.operations.phase r₂).found = some r₁) :
    s.operations.phase r₂ ≠ .outside := by
  intro h_outside
  rw [h_outside] at h
  contradiction

/-- The record of a request has the digest of its text. -/
theorem fingerprint_of_hasRecord (hs : (machine lib leaseTTL).Reachable s)
    (h : (s.operations.phase r).hasRecord = true) :
    (s.manager.records r).fingerprint = lib.hash (s.requests r).recorded := by
  have hI := Operations.Inv.reachable ((operationsProjection lib leaseTTL).reachable hs)
  have h_arguments := (coherent hs r).arguments (inside_of_hasRecord h)
  have h_request : (s.operations.calls r).request = fingerprintParams (s.requests r).params :=
    congrArg (fun a => a.2.2.2) h_arguments
  rw [Request.recorded, ← h_request]
  exact (hI.describes r h).1.fingerprint

/-- A request finds a record with its own text. -/
theorem recorded_of_found (hs : (machine lib leaseTTL).Reachable s)
    (h_hash : NoCollision lib (s.requests r₁) (s.requests r₂))
    (h : (s.operations.phase r₂).found = some r₁) :
    (s.requests r₁).recorded = (s.requests r₂).recorded := by
  have hI := Operations.Inv.reachable ((operationsProjection lib leaseTTL).reachable hs)
  obtain ⟨h_rec, h_desc⟩ := hI.found r₂ r₁ h
  have h_arguments := (coherent hs r₂).arguments (inside_of_found h)
  have h_request : (s.operations.calls r₂).request = fingerprintParams (s.requests r₂).params :=
    congrArg (fun a => a.2.2.2) h_arguments
  apply h_hash
  rw [← fingerprint_of_hasRecord hs h_rec, Request.recorded, ← h_request]
  exact h_desc.fingerprint

/-- A request finds a record when it looks its operation id up. -/
theorem found_next {e : Event κ} (he : enabled s e)
    (h : ((next lib s e).operations.phase r₂).found = some r₁) :
    (s.operations.phase r₂).found = some r₁ ∨ ∃ now, e = .execute r₂ now ∧
      s.manager.operations (s.requests r₂).operationID = some r₁ := by
  cases h_event : operationEvent s e with
  | none =>
    rw [operations_next_none h_event] at h
    exact .inl h
  -- a record is found when the call is executed, or was found before
  | some e' =>
    rw [operations_next_some h_event] at h
    rcases Operations.found_next (he.2.1 e' h_event) h with h_found | h_execute
    · exact .inl h_found
    · obtain ⟨sessionID, tabID, operationID, request, now, rfl, h_bound⟩ := h_execute
      right
      cases e with
      | execute d now' =>
        cases h_event
        exact ⟨now, rfl, h_bound⟩
      | screen d now' | validateLease d now' =>
        rw [operationEvent] at h_event
        split at h_event <;> cases h_event
      | finish d =>
        rw [operationEvent] at h_event
        split at h_event <;> cases h_event
      | _ => cases h_event

/-- A request has found a record of another method only if it has another text. -/
def Replays (s : State κ) (r₁ r₂ : κ) : Prop :=
  (s.operations.phase r₂).found = some r₁ → (s.requests r₁).recorded = (s.requests r₂).recorded →
    (s.requests r₁).method = (s.requests r₂).method

/-- Every step that keeps the method. -/
theorem Replays.step {e : Event κ} (hR : Replays s r₁ r₂)
    (hs : (machine lib leaseTTL).Reachable s) (he : enabled s e) (h_kept : MethodKept s e) :
    Replays (next lib s e) r₁ r₂ := by
  have hI := Operations.Inv.reachable ((operationsProjection lib leaseTTL).reachable hs)
  intro h_found h_text
  rcases found_next he h_found with h_found | ⟨now, rfl, h_bound⟩
  -- the record was found before, and both requests keep their texts
  · have h_rec := (hI.found r₂ r₁ h_found).1
    rw [recorded_next hs he (inside_of_hasRecord h_rec),
      recorded_next hs he (inside_of_found h_found)] at h_text
    rw [method_next hs he (inside_of_hasRecord h_rec),
      method_next hs he (inside_of_found h_found)]
    exact hR h_found h_text
  · -- The record is that of another request, which this step leaves alone.
    have h_outside : s.operations.phase r₂ = .outside :=
      ((coherent hs r₂).early (by rw [(takes_execute.mp he.1).1]; rfl)).1
    have h_rec := (hI.bound _ _ h_bound).2
    have h_ne : r₂ ≠ r₁ := by
      rintro rfl
      exact inside_of_hasRecord h_rec h_outside
    have h_first : (next lib s (.execute r₂ now)).requests r₁ = s.requests r₁ :=
      requests_next_of_ne lib fun h => h_ne (Option.some_inj.mp h)
    have h_second : (next lib s (.execute r₂ now)).requests r₂ =
        (s.requests r₂).setPhase .executing := requests_next_self rfl
    rw [h_first, h_second] at h_text ⊢
    exact h_kept r₁ h_bound h_text

/-- So it is in every state. -/
theorem Replays.reachable (hs : ((machine lib leaseTTL).restrict MethodKept).Reachable s)
    (r₁ r₂ : κ) : Replays s r₁ r₂ := by
  refine hs.induction (P := fun s => Replays s r₁ r₂) ?_ ?_
  · intro h; contradiction
  · exact fun s e hs hR he => hR.step hs.of_restrict he.1 he.2

/-! ### A reused operation id -/

/-- A request that reuses an operation id is refused exactly if its text is not the recorded
one. -/
theorem refused_iff {now : Time} (hs : (machine lib leaseTTL).Reachable s)
    (he : enabled s (.execute r₂ now)) (h : Reuses s r₁ r₂)
    (h_hash : NoCollision lib (s.requests r₁) (s.requests r₂)) :
    (next lib s (.execute r₂ now)).operations.phase r₂ =
        .refused (Operations.operationConflict (s.requests r₂).operationID) ↔
      (s.requests r₁).recorded ≠ (s.requests r₂).recorded := by
  have hI := Operations.Inv.reachable ((operationsProjection lib leaseTTL).reachable hs)
  -- the record has the fingerprint of the first request
  have h_print := fingerprint_of_hasRecord hs (hI.bound _ _ h.bound).2
  have h_id := (takes_execute.mp he.1).2
  rw [operations_next_some rfl]
  show (s.operations.execute lib.hash r₂ now ((s.requests r₂).call κ)).phase r₂ = _ ↔ _
  constructor
  -- with the same text the record would be found again
  · intro h_refused h_text
    have h_execute := Operations.executes lib.hash s.operations r₂ now ((s.requests r₂).call κ)
    revert h_refused
    generalize s.operations.execute lib.hash r₂ now ((s.requests r₂).call κ) = s' at h_execute ⊢
    intro h_refused
    cases h_execute with
    | refused rpcErr h_why =>
      rcases h_why with h_empty | h_closed | ⟨r, h_bound, h_other⟩
      · exact h_id h_empty
      · exact h_closed h.sessionOpen
      · have h_eq : r₁ = r := Option.some_inj.mp (h.bound.symm.trans h_bound)
        subst h_eq
        exact h_other ⟨h.session, h_print.trans (congrArg lib.hash h_text)⟩
    | admitted =>
      rw [Operations.State.register, Operations.State.phase_setCall_self] at h_refused
      contradiction
    | waits | replays =>
      rw [Operations.State.phase_setCall_self] at h_refused
      contradiction
  -- with another text the fingerprints differ, as there is no collision
  · intro h_text
    have h_other : ¬ Operations.SameRequest lib.hash (s.manager.records r₁)
        ((s.requests r₂).call κ) := fun h_same => h_text (h_hash (h_print.symm.trans h_same.2))
    have h_next : s.operations.execute lib.hash r₂ now ((s.requests r₂).call κ) =
        s.operations.setCall r₂ { (s.requests r₂).call κ with
          phase := .refused (Operations.operationConflict (s.requests r₂).operationID) } :=
      Operations.execute_conflict h_id h.sessionOpen h.bound h_other
    rw [h_next, Operations.State.phase_setCall_self]

/-- **Operation replay.** In every run in which no operation id is used again with the recorded
parameters and another method, a request is answered with the outcome of another one only if the
two are the same request. A request that reuses an operation id of its session gets the conflict
error whenever it is another request, exactly if it does not share the recorded parameters under
another method. -/
theorem replay_bound (hs : ((machine lib leaseTTL).restrict MethodKept).Reachable s) (r₁ r₂ : κ)
    (h_hash : NoCollision lib (s.requests r₁) (s.requests r₂)) :
    ((s.operations.phase r₂).replays = some r₁ → SameRequest (s.requests r₁) (s.requests r₂)) ∧
      ∀ now, enabled s (.execute r₂ now) → Reuses s r₁ r₂ →
        ((¬ SameRequest (s.requests r₁) (s.requests r₂) →
            (next lib s (.execute r₂ now)).operations.phase r₂ =
              .refused (Operations.operationConflict (s.requests r₂).operationID)) ↔
          ((s.requests r₁).recorded = (s.requests r₂).recorded →
            (s.requests r₁).method = (s.requests r₂).method)) := by
  have hs' := hs.of_restrict
  have h_same : (s.requests r₁).method = (s.requests r₂).method →
      (s.requests r₁).recorded = (s.requests r₂).recorded →
      SameRequest (s.requests r₁) (s.requests r₂) := fun h_method h_text =>
    .of_recorded h_method h_text (coherent hs' r₁).rewrites (coherent hs' r₂).rewrites
  constructor
  -- a replay has found the record of a request with the same text
  · intro h
    have h_found := Operations.Phase.found_of_replays h
    have h_text := recorded_of_found hs' h_hash h_found
    exact h_same (Replays.reachable hs r₁ r₂ h_found h_text) h_text
  -- at the step that executes the second request
  · intro now he h_reuses
    rw [refused_iff hs' he h_reuses h_hash]
    constructor
    · intro h_conflict h_text
      by_contra h_method
      exact h_conflict (fun h => h_method h.method) h_text
    · intro h_kept h_other h_text
      exact h_other (h_same (h_kept h_text) h_text)

end Found

/-- A request runs to its end, and comes again. -/
def retried (method : String) : List (Event ℕ) :=
  opening ++ checks 0 "tab.back" "op_1" ++ .execute 0 1 :: entry 0 ++ exchange 0 ++ completion 0 ++
    checks 1 method "op_1" ++ [.execute 1 3, .respond 1]

/-- The daemon after the two requests. -/
def afterRetry (method : String) : State ℕ :=
  (machine sampleLibrary 0).exec (machine sampleLibrary 0).init (retried method)

/-- An exact retry is answered with the recorded outcome. -/
theorem replay_bound_retry : ((afterRetry "tab.back").operations.phase 1).replays = some 0 ∧
    SameRequest ((afterRetry "tab.back").requests 0) ((afterRetry "tab.back").requests 1) := by
  have h : ((machine sampleLibrary 0).restrict MethodKept).Runs (machine sampleLibrary 0).init
      (retried "tab.back") ∧ NoCollision sampleLibrary ((afterRetry "tab.back").requests 0)
        ((afterRetry "tab.back").requests 1) ∧
      ((afterRetry "tab.back").operations.phase 1).replays = some 0 := by
    decide +kernel
  obtain ⟨h_runs, h_hash, h_replays⟩ := h
  have h_reachable : ((machine sampleLibrary 0).restrict MethodKept).Reachable
      (afterRetry "tab.back") := by
    refine ⟨_, h_runs, ?_⟩
    rw [Machine.exec_restrict, Machine.restrict_init, afterRetry]
  exact ⟨h_replays, (replay_bound h_reachable 0 1 h_hash).1 h_replays⟩

/-- `tab.forward` is answered with what `tab.back` has returned. -/
theorem not_replay_bound_otherMethod :
    (machine sampleLibrary 0).Runs (machine sampleLibrary 0).init (retried "tab.forward") ∧
      NoCollision sampleLibrary ((afterRetry "tab.forward").requests 0)
        ((afterRetry "tab.forward").requests 1) ∧
      ((afterRetry "tab.forward").operations.phase 1).replays = some 0 ∧
      ((afterRetry "tab.forward").requests 1).phase matches .answered (.ok _) ∧
      ¬ SameRequest ((afterRetry "tab.forward").requests 0)
        ((afterRetry "tab.forward").requests 1) := by
  have h : (machine sampleLibrary 0).Runs (machine sampleLibrary 0).init
      (retried "tab.forward") ∧ NoCollision sampleLibrary ((afterRetry "tab.forward").requests 0)
        ((afterRetry "tab.forward").requests 1) ∧
      ((afterRetry "tab.forward").operations.phase 1).replays = some 0 ∧
      ((afterRetry "tab.forward").requests 1).phase matches .answered (.ok _) ∧
      ((afterRetry "tab.forward").requests 0).method ≠
        ((afterRetry "tab.forward").requests 1).method := by
    decide +kernel
  obtain ⟨h_runs, h_hash, h_replays, h_answered, h_method⟩ := h
  exact ⟨h_runs, h_hash, h_replays, h_answered, fun h => h_method h.method⟩

end BrowserControl.Server
