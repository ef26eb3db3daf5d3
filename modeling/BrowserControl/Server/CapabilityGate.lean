import BrowserControl.Server.Coherence

/-!
# Capabilities never block

`forward` asks `RequireCapability` before it sends a request of a protected method, and that
method has three refusals: the session is not open, the capability waits for an approval in the
extension, or it is lacking. Sessions are granted every capability when they are opened, so that
no method waits for an approval. The grants of `session.requestCapabilities` and of approved
confirmations go to the same sets.

`Inv` is what keeps the sets full: each session has exactly the known capabilities, and each
confirmation asks for known ones, so approving it changes nothing. `capabilityGate` says what is
left of the check in any run: whether the session is open.
-/

namespace BrowserControl.Server.CapabilityGate

open Encoding Protocol BrowserControl.Core Transition

variable {κ : Type*} [DecidableEq κ]

/-! ### Full sessions -/

/-- Each session has exactly the known capabilities, and no confirmation asks for others. -/
structure Inv (m : Manager κ) : Prop where
  session : ∀ id session, m.sessions id = some session →
    ∀ c, session.capabilities c = Manager.knownCapability c
  confirmation : ∀ c ∈ m.confirmations, ∀ capability ∈ c.capabilities,
    Manager.knownCapability capability = true

/-- What has capabilities in `m'` has them in `m`. -/
structure Keeps (m m' : Manager κ) : Prop where
  session : ∀ id session', m'.sessions id = some session' →
    ∃ session, m.sessions id = some session ∧ session'.capabilities = session.capabilities
  confirmation : ∀ c' ∈ m'.confirmations, ∃ c ∈ m.confirmations, c'.capabilities = c.capabilities

section Keeps

variable {m m' m'' : Manager κ} {now : Time}

omit [DecidableEq κ]

/-- Sessions and confirmations stay. -/
theorem Keeps.of_eq (h_sessions : m'.sessions = m.sessions)
    (h_confirmations : m'.confirmations = m.confirmations) : Keeps m m' where
  session _ session h := ⟨session, h_sessions ▸ h, rfl⟩
  confirmation c h := ⟨c, h_confirmations ▸ h, rfl⟩

theorem Keeps.refl (m : Manager κ) : Keeps m m := .of_eq rfl rfl

theorem Keeps.trans (h : Keeps m m') (h' : Keeps m' m'') : Keeps m m'' where
  session id session'' h_session := by
    obtain ⟨session', h_session', h_same'⟩ := h'.session id session'' h_session
    obtain ⟨session, h_session, h_same⟩ := h.session id session' h_session'
    exact ⟨session, h_session, h_same'.trans h_same⟩
  confirmation c'' h_c := by
    obtain ⟨c', h_c', h_same'⟩ := h'.confirmation c'' h_c
    obtain ⟨c, h_c, h_same⟩ := h.confirmation c' h_c'
    exact ⟨c, h_c, h_same'.trans h_same⟩

/-- What is kept keeps the invariant. -/
theorem Inv.keeps (h : Inv m) (h_keeps : Keeps m m') : Inv m' where
  session id session' h_session := by
    obtain ⟨session, h_session, h_same⟩ := h_keeps.session id session' h_session
    rw [h_same]
    exact h.session id session h_session
  confirmation c' h_c := by
    obtain ⟨c, h_c, h_same⟩ := h_keeps.confirmation c' h_c
    rw [h_same]
    exact h.confirmation c h_c

/-- Confirmations are changed, but not what they ask for. -/
theorem keeps_map {f : Confirmation → Confirmation}
    (h : ∀ c, (f c).capabilities = c.capabilities) :
    Keeps m { m with confirmations := m.confirmations.map f } where
  session _ session h_session := ⟨session, h_session, rfl⟩
  confirmation c' h_c := by
    obtain ⟨c, h_mem, rfl⟩ := List.mem_map.mp h_c
    exact ⟨c, h_mem, h c⟩

/-- To cancel confirmations changes no capability. -/
theorem keeps_cancelConfirmations (m : Manager κ) (now : Time) (p : Confirmation → Bool) :
    Keeps m (m.cancelConfirmations now p) := by
  refine keeps_map fun c => ?_
  split <;> rfl

/-- Sessions are closed and confirmations cancelled. -/
theorem Keeps.of_closed {p : Confirmation → Bool}
    (h : ∀ id session', m'.sessions id = some session' →
      ∃ session, m.sessions id = some session ∧
        (session' = session ∨ session' = session.close now))
    (h_confirmations : m'.confirmations = (m.cancelConfirmations now p).confirmations) :
    Keeps m m' where
  session id session' h_session := by
    obtain ⟨session, h_old, rfl | rfl⟩ := h id session' h_session
    · exact ⟨_, h_old, rfl⟩
    · refine ⟨session, h_old, ?_⟩
      unfold Session.close
      split <;> rfl
  confirmation c h_c := by
    rw [h_confirmations] at h_c
    exact (keeps_cancelConfirmations m now p).confirmation c h_c

/-- Nor does it to resolve one. -/
theorem keeps_resolve (m : Manager κ) (now : Time) (id : String) (status : ConfirmationStatus) :
    Keeps m (m.resolve now id status) := by
  refine keeps_map fun c => ?_
  split <;> rfl

/-- A session is replaced by one with the same capabilities. -/
theorem keeps_setSession {id : String} {session session' : Session}
    (h : m.sessions id = some session) (h_same : session'.capabilities = session.capabilities) :
    Keeps m { m with sessions := Function.update m.sessions id (some session') } where
  session id' session'' h_session := by
    dsimp only at h_session
    by_cases h_id : id' = id
    · subst h_id
      rw [Function.update_self, Option.some_inj] at h_session
      exact ⟨session, h, h_session ▸ h_same⟩
    · rw [Function.update_of_ne h_id] at h_session
      exact ⟨session'', h_session, rfl⟩
  confirmation c h_c := ⟨c, h_c, rfl⟩

end Keeps

section Commands

variable {m : Manager κ} {now : Time}

/-- Nor to finish what waits for one. -/
theorem keeps_finishAwaiting (m : Manager κ) (now : Time) (operationID : String)
    (status : OperationStatus) (rpcErr : RPCError) :
    Keeps m (m.finishAwaitingOperationLocked now operationID status rpcErr) :=
  .of_eq (m.sessions_finishAwaiting now operationID status rpcErr)
    (m.confirmations_finishAwaiting now operationID status rpcErr)

/-- Nor to let them expire. -/
theorem keeps_expireConfirmations (m : Manager κ) (now : Time) :
    Keeps m (m.expireConfirmations now) := by
  unfold Manager.expireConfirmations
  generalize m.confirmations.filter (·.overdue now) = cs
  induction cs generalizing m with
  | nil => exact .refl m
  | cons c cs ih =>
    exact ((keeps_resolve m now c.confirmationID .expired).trans
      (keeps_finishAwaiting _ now c.operationID .failed _)).trans (ih _)

/-- Nor to look at a lease. -/
theorem keeps_validLease (m : Manager κ) (now : Time) (sessionID tabID leaseID : String)
    (requireOpenSession : Bool) :
    Keeps m (m.validLeaseLocked now sessionID tabID leaseID requireOpenSession).manager := by
  have h_valid := m.validLease now sessionID tabID leaseID requireOpenSession
  generalize m.validLeaseLocked now sessionID tabID leaseID requireOpenSession = locked at h_valid ⊢
  cases h_valid with
  | _ => exact .of_eq rfl rfl

omit [DecidableEq κ] in
/-- A session gets capabilities that are known. -/
theorem Inv.addCapabilities (h : Inv m) {id : String} {session : Session}
    (h_session : m.openSessionLocked id = .ok session) {capabilities : List String}
    (h_known : ∀ c ∈ capabilities, Manager.knownCapability c = true) :
    Inv (m.addCapabilities now id session capabilities) where
  session id' session' h_session' := by
    dsimp only [Manager.addCapabilities] at h_session'
    by_cases h_id : id' = id
    · subst h_id
      rw [Function.update_self, Option.some_inj] at h_session'
      intro c
      rw [← h_session']
      have h_old := h.session id' session (Manager.openSessionLocked_open h_session).1 c
      -- what is added was there before
      by_cases h_c : c ∈ capabilities
      · simp [h_old, h_known c h_c]
      · simp [h_old, h_c]
    · rw [Function.update_of_ne h_id] at h_session'
      exact h.session id' session' h_session'
  confirmation := h.confirmation

omit [DecidableEq κ] in
/-- A new confirmation names capabilities that are known. -/
theorem Inv.createConfirmationLocked (h : Inv m) {c : Confirmation}
    (h_known : ∀ capability ∈ c.capabilities, Manager.knownCapability capability = true) :
    Inv (m.createConfirmationLocked c).manager := by
  unfold Manager.createConfirmationLocked
  split
  · exact h
  · exact ⟨h.session, List.forall_mem_cons.mpr ⟨h_known, h.confirmation⟩⟩

/-- A decision changes no capability that is named. -/
theorem Inv.resolveConfirmation (h : Inv m) (id decision : String) :
    Inv (m.resolveConfirmation now id decision).manager := by
  unfold Manager.resolveConfirmation
  split
  · exact h
  -- an approved confirmation grants what it was created with
  case h_2 c h_found =>
    have h_known := h.confirmation c (List.mem_of_find?_eq_some h_found)
    split
    · exact h
    · split
      · exact h.keeps ((keeps_resolve m now id _).trans (keeps_finishAwaiting _ now _ _ _))
      · split
        · split
          · exact h.keeps (keeps_resolve m now id _)
          · split
            · refine h.keeps (keeps_map fun c => ?_)
              split <;> rfl
            case h_2 session h_session =>
              exact (h.keeps (keeps_resolve m now id .approved)).addCapabilities h_session h_known
        · split
          · exact h.keeps ((keeps_resolve m now id _).trans (keeps_finishAwaiting _ now _ _ _))
          · exact h

omit [DecidableEq κ] in
/-- What passes the check is known. -/
theorem known_of_find?_eq_none {requested : List String}
    (h : (Manager.uniqueSorted requested).find? (fun c => !Manager.knownCapability c) = none) :
    ∀ c ∈ Manager.uniqueSorted requested, Manager.knownCapability c = true := by
  intro c h_c
  simpa using List.find?_eq_none.mp h c h_c

/-- **Commands keep the sets full.** -/
theorem Inv.command (h : Inv m) (k : Command) : Inv (k.run m now).manager := by
  cases k with
  -- the new session has all capabilities
  | openSession id name clientID =>
    refine ⟨fun id' session' h_session => ?_, h.confirmation⟩
    dsimp only [Command.run, Locked.effects, Manager.openSession] at h_session
    by_cases h_id : id' = id
    · subst h_id
      rw [Function.update_self, Option.some_inj] at h_session
      rw [← h_session]
      exact fun _ => rfl
    · rw [Function.update_of_ne h_id] at h_session
      exact h.session id' session' h_session
  -- sessions: capabilities are only added
  | grantCapabilities id requested =>
    simp only [Command.run, Locked.effects, Manager.grantCapabilities]
    split
    · exact h
    case h_2 session h_session =>
      split
      · exact h
      · split
        · exact h
        case h_2 h_none => exact h.addCapabilities h_session (known_of_find?_eq_none h_none)
  | markOwnedTab id tabID =>
    simp only [Command.run, Locked.effects, Manager.markOwnedTab]
    split
    · exact h
    case h_2 session h_session =>
      exact h.keeps (keeps_setSession (Manager.openSessionLocked_open h_session).1 rfl)
  -- leases and tabs touch no capability
  | validateLease id tabID leaseID => exact h.keeps (keeps_validLease m now id tabID leaseID true)
  | renewLease id tabID leaseID ttl =>
    simp only [Command.run, Locked.effects, Manager.renewLease]
    split
    · exact h.keeps (keeps_validLease m now id tabID leaseID true)
    · exact h.keeps (.of_eq rfl rfl)
  | bindLeaseBrowser id tabID leaseID browserInstanceID =>
    simp only [Command.run, Locked.effects, Manager.bindLeaseBrowser]
    split
    · exact h
    · split
      · exact h.keeps (keeps_validLease m now id tabID leaseID true)
      · split
        · exact h
        · exact h.keeps (.of_eq rfl rfl)
  | claimTab id session tabID ttl force =>
    simp only [Command.run, Locked.effects, Manager.claimTabForce]
    repeat' split
    all_goals exact h.keeps (.of_eq rfl rfl)
  | releaseTab id tabID leaseID reason =>
    simp only [Command.run, Locked.effects, Manager.releaseTab]
    split
    · exact h.keeps (keeps_validLease m now id tabID leaseID false)
    · exact h.keeps (.of_eq rfl rfl)
  | revokeTab tabID reason =>
    simp only [Command.run, Locked.effects, Manager.revokeTab]
    split
    · exact h
    · exact h.keeps (.of_eq rfl rfl)
  | revokeBrowser browserInstanceID reason =>
    exact h.keeps (.of_closed (fun id session h_session => ⟨session, h_session, .inl rfl⟩) rfl)
  | closeSession id reason =>
    simp only [Command.run, Locked.effects, Manager.closeSession]
    split
    · exact h
    case h_2 session h_session =>
      split
      · exact h
      · refine h.keeps (.of_closed (fun id' session' h_session' => ?_) rfl)
        by_cases h_id : id' = id
        · subst h_id
          have h_closed : some (session.close now) = some session' := by
            rw [← h_session']
            exact (Function.update_self id' _ m.sessions).symm
          exact ⟨session, h_session, .inr (Option.some_inj.mp h_closed).symm⟩
        · refine ⟨session', ?_, .inl rfl⟩
          rw [← h_session']
          exact (Function.update_of_ne h_id _ m.sessions).symm
  | stopAll reason =>
    refine h.keeps (.of_closed (fun id session' h_session => ?_) rfl)
    obtain ⟨session, h_old, h_closed⟩ := Option.map_eq_some_iff.mp h_session
    exact ⟨session, h_old, .inr h_closed.symm⟩
  | cancelOperation id operationID =>
    simp only [Command.run, Locked.effects, Manager.cancelOperation]
    split
    · exact h
    · split
      · exact h.keeps ((keeps_finishAwaiting m now operationID _ _).trans
          (keeps_cancelConfirmations _ now _))
      · exact h.keeps (.of_eq rfl rfl)
      · exact h
  -- confirmations: one for an action asks for no capability
  | createActionConfirmation id session tabID browserInstanceID operationID requestHash ttl =>
    simp only [Command.run, Locked.effects, Manager.createActionConfirmation]
    split
    · exact h
    · exact h.createConfirmationLocked (List.forall_mem_nil _)
  | createCapabilityConfirmation id session browserInstanceID requestHash requested ttl =>
    simp only [Command.run, Locked.effects, Manager.createCapabilityConfirmation]
    split
    · exact h
    · split
      · exact h
      · split
        · exact h
        case h_2 h_none => exact h.createConfirmationLocked (known_of_find?_eq_none h_none)
  | resolveConfirmation id decision => exact h.resolveConfirmation id decision
  | authorizeActionConfirmation id session tabID browserInstanceID requestHash =>
    simp only [Command.run, Locked.effects, Manager.authorizeActionConfirmation]
    split
    · exact h
    · split
      · exact h
      · split
        · exact h.keeps ((keeps_resolve m now id _).trans (keeps_finishAwaiting _ now _ _ _))
        · repeat' split
          all_goals exact h
  | consumeActionConfirmation id =>
    simp only [Command.run, Locked.effects, Manager.consumeActionConfirmation]
    split
    · exact h
    · split
      · refine h.keeps (keeps_map fun c => ?_)
        split <;> rfl
      · exact h
      · exact h
  -- artifacts and the janitor change no session
  | storeArtifact artifact =>
    simp only [Command.run, Locked.effects, Manager.storeArtifact]
    repeat' split
    all_goals exact h.keeps (.of_eq rfl rfl)
  | deleteArtifact id =>
    simp only [Command.run, Locked.effects, Manager.deleteArtifact]
    repeat' split
    all_goals exact h.keeps (.of_eq rfl rfl)
  | janitor =>
    have h_swept : Keeps m ((((m.cancelLeaseOperations now (fun l => decide (l.expiresAt < now))
        "lease expired").removeLeases fun l => decide (l.expiresAt < now)).purge
        now).expireArtifacts now) := .of_eq rfl rfl
    exact h.keeps (h_swept.trans (keeps_expireConfirmations _ now))

end Commands

/-! ### The check in a run -/

/-- What `forward` says about a session that is not open. -/
def notOpen (m : Manager κ) (id : String) : Option RPCError :=
  match m.openSessionLocked id with
  | .error rpcErr => some rpcErr
  | .ok _ => none

/-- The refusals that are left of the check. -/
def refusal (m : Manager κ) (q : Request) : Option RPCError :=
  if capabilityForRequest q.method q.params = "" then none
  else if q.sessionID = "" then some (sessionRequired q.method)
  else notOpen m q.sessionID

section Runs

variable {hash : String → String} {leaseTTL : Duration}

/-- The invariant holds in every state. -/
theorem inv {s : Operations.State κ} (h : (Operations.machine hash leaseTTL).Reachable s) :
    Inv s.manager := by
  refine h.induction (P := fun s : Operations.State κ => Inv s.manager) ?_ ?_
  · refine ⟨fun id session h_session => ?_, List.forall_mem_nil _⟩
    cases h_session
  · intro s e _ h_inv _
    change Inv (Operations.next hash s e).manager
    by_cases h_command : ∃ k now, e = .command k now
    · obtain ⟨k, now, rfl⟩ := h_command
      exact h_inv.command k
    · rw [not_exists] at h_command
      obtain ⟨operations, records, h_manager⟩ :=
        Operations.manager_next hash s fun k now h => h_command k ⟨now, h⟩
      rw [h_manager]
      exact ⟨h_inv.session, h_inv.confirmation⟩

omit [DecidableEq κ] in
/-- With full sets, `RequireCapability` looks at the session only. -/
theorem Inv.requireCapability {m : Manager κ} (h : Inv m) (id : String) {capability : String}
    (h_known : Manager.knownCapability capability = true) :
    m.requireCapability id capability = notOpen m id := by
  unfold Manager.requireCapability notOpen
  cases h_session : m.openSessionLocked id with
  | error rpcErr => rfl
  | ok session =>
    have h_full := h.session id session (Manager.openSessionLocked_open h_session).1 capability
    exact if_pos (h_full.trans h_known)

/-- No method is protected by a capability that sessions do not have. -/
theorem known_capabilityForRequest (method : String) (params : Object)
    (h : capabilityForRequest method params ≠ "") :
    Manager.knownCapability (capabilityForRequest method params) = true := by
  revert h
  unfold capabilityForRequest capabilityFor
  repeat' split
  all_goals decide

variable {lib : Library}

/-- **Capabilities never block.** In every run of the daemon, the check of a request's capability
refuses it only because it names no session or one that is not open, and the error says so. No
request is told that a capability is lacking or waits for an approval, and neither is a call that
asks for the path of an artifact. -/
theorem capabilityGate {s : State κ} (hs : (machine lib leaseTTL).Reachable s) (r : κ) :
    (next lib s (.requireCapability r)).requests r =
        (s.requests r).pass .permitted (refusal s.manager (s.requests r)) ∧
      ∀ id, s.manager.requireCapability id "artifact.localPath" = notOpen s.manager id := by
  have h_inv : Inv s.manager := inv ((operationsProjection lib leaseTTL).reachable hs)
  refine ⟨?_, fun id => h_inv.requireCapability id (by decide)⟩
  -- What the step does with the request.
  have h_next : (next lib s (.requireCapability r)).requests r =
      (s.requests r).pass .permitted
        (if capabilityForRequest (s.requests r).method (s.requests r).params = "" then none
        else if (s.requests r).sessionID = "" then some (sessionRequired (s.requests r).method)
        else s.manager.requireCapability (s.requests r).sessionID
          (capabilityForRequest (s.requests r).method (s.requests r).params)) := by
    exact Function.update_self ..
  rw [h_next, refusal]
  by_cases h_capability : capabilityForRequest (s.requests r).method (s.requests r).params = ""
  · rw [if_pos h_capability, if_pos h_capability]
  · rw [if_neg h_capability, if_neg h_capability,
      h_inv.requireCapability _ (known_capabilityForRequest _ _ h_capability)]

end Runs

/-- A session reads the clipboard, which is protected. -/
def protectedRead : List (Event ℕ) :=
  opening ++ [.arrive 0 "clipboard.read" (sampleParams "op_1"), .screen 0 1, .getSession 0]

/-- A protected read before its check. -/
def beforeCheck : State ℕ :=
  (machine sampleLibrary 0).exec (machine sampleLibrary 0).init protectedRead

/-- The theorem for a read that is permitted. -/
theorem capabilityGate_permitted :
    (next sampleLibrary beforeCheck (.requireCapability 0)).requests 0 =
        (beforeCheck.requests 0).setPhase .permitted ∧
      capabilityForRequest (beforeCheck.requests 0).method (beforeCheck.requests 0).params =
        "clipboard.read" := by
  have h_reachable : (machine sampleLibrary 0).Reachable beforeCheck :=
    ⟨protectedRead, by decide +kernel, rfl⟩
  have h_none : refusal beforeCheck.manager (beforeCheck.requests 0) = none := by
    have h_isNone : (refusal beforeCheck.manager (beforeCheck.requests 0)).isNone = true := by
      decide +kernel
    exact Option.isNone_iff_eq_none.mp h_isNone
  refine ⟨?_, by decide +kernel⟩
  rw [(capabilityGate h_reachable 0).1, h_none]
  rfl

end BrowserControl.Server.CapabilityGate
