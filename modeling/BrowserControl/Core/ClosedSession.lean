import BrowserControl.Core.LeaseTable
import BrowserControl.Core.OperationsInvariant

/-!
# Closed sessions

Once a session is closed, nothing happens to it any more. Its record stays as it is, it owns no
lease and no pending confirmation names it (`Manager.Idle`), and whatever still belongs to it
belonged to it when it was closed (`AddsNothing`).

`CloseSession` and `StopAll` keep the sessions, the leases and the confirmations in step by
hand. What links the three maps is the invariant `Inv`: leases and pending confirmations are
those of open sessions. It is also why `ResolveConfirmation` never approves a capability that it
then cannot add (`approved_of_error`).
-/

namespace BrowserControl.Core

open Encoding Protocol Transition

variable {κ : Type*} [DecidableEq κ]

namespace ClosedSession

open Operations

/-- The invariant of the open sessions. -/
structure Inv (m : Manager κ) : Prop where
  /-- The empty text names no session. -/
  named : ∀ id, m.sessions id ≠ none → id ≠ ""
  lease : ∀ tabID l, m.leases tabID = some l → m.IsOpen l.sessionID
  pending : ∀ c ∈ m.confirmations, c.status = .pending → m.IsOpen c.sessionID

/-- The manager `m'` comes after `m` and has nothing more of the session. -/
structure AddsNothing (m m' : Manager κ) (sessionID : String) : Prop where
  session : m'.sessions sessionID = m.sessions sessionID
  artifact : ∀ id artifact, m'.artifacts id = some artifact → artifact.sessionID = sessionID →
    m.artifacts id = some artifact
  operation : ∀ id r, m'.operations id = some r → (m'.records r).sessionID = sessionID →
    m.operations id = some r ∧ (m.records r).sessionID = sessionID

variable {m m' m'' : Manager κ} {sessionID : String}

omit [DecidableEq κ] in
theorem AddsNothing.refl (m : Manager κ) (sessionID : String) : AddsNothing m m sessionID :=
  ⟨rfl, fun _ _ h _ => h, fun _ _ h h_session => ⟨h, h_session⟩⟩

omit [DecidableEq κ] in
theorem AddsNothing.trans (h : AddsNothing m m' sessionID) (h' : AddsNothing m' m'' sessionID) :
    AddsNothing m m'' sessionID where
  session := h'.session.trans h.session
  artifact id artifact ha h_session :=
    h.artifact id artifact (h'.artifact id artifact ha h_session) h_session
  operation id r hr h_session := by
    obtain ⟨h_bound, h_same⟩ := h'.operation id r hr h_session
    exact h.operation id r h_bound h_same

omit [DecidableEq κ] in
/-- A closed session has nothing left to do. -/
theorem Inv.idle (h : Inv m) (hc : m.closed sessionID = true) : m.Idle sessionID where
  lease tabID l hl h_session :=
    Manager.not_isOpen_of_closed hc (h_session ▸ h.lease tabID l hl)
  pending c h_mem h_pending h_session :=
    Manager.not_isOpen_of_closed hc (h_session ▸ h.pending c h_mem h_pending)

/-! ### Commands -/

/-- A session that something belongs to is open after a command if it was before. -/
theorem isOpen_run {now : Time} {k : Command} (h_open : m.IsOpen sessionID)
    (h_busy : ¬ (k.run m now).manager.Idle sessionID) : (k.run m now).manager.IsOpen sessionID :=
  (k.isOpen_or_idle m now h_open).resolve_right h_busy

/-- Every command keeps the invariant. -/
theorem Inv.command (h : Inv m) {now : Time} {k : Command} (h_fresh : k.Fresh m) :
    Inv (k.run m now).manager where
  named id h_session := by
    rcases k.sessionOrigin m now h_session with h_old | h_new
    · exact h.named id h_old
    · exact (h_fresh.session h_new).1
  lease tabID l hl := by
    -- The session of a lease was open when the command came.
    have h_open : m.IsOpen l.sessionID := by
      cases k.leaseOrigin m now hl with
      | kept h_lease h_renews => exact h_renews.sessionID ▸ h.lease tabID _ h_lease
      | claimed _ _ _ h_session => exact h_session
    exact isOpen_run h_open fun h_idle => h_idle.lease tabID l hl rfl
  pending c h_mem h_pending := by
    have h_open : m.IsOpen c.sessionID := by
      rcases k.confirmationOrigin m now h_mem h_pending with h_old | h_session
      · exact h.pending c h_old h_pending
      · exact h_session
    exact isOpen_run h_open fun h_idle => h_idle.pending c h_mem h_pending rfl

/-- No command adds anything to a closed session. -/
theorem Inv.addsNothing (h : Inv m) (hc : m.closed sessionID = true) {now : Time} {k : Command}
    (h_fresh : k.Fresh m) : AddsNothing m (k.run m now).manager sessionID where
  session := k.sessions_of_closed m now h_fresh hc
  artifact id artifact ha h_session := by
    rcases k.artifactOrigin m now ha with h_old | h_none | h_open
    · exact h_old
    · obtain ⟨session, h_some, -⟩ := Manager.closed_iff.mp hc
      exact absurd (h_session.symm.trans h_none) (h.named sessionID (h_some ▸ (by rintro ⟨⟩)))
    · exact absurd (h_session ▸ h_open) (Manager.not_isOpen_of_closed hc)
  operation id r hr h_session := by
    have h_frame := k.frame m now
    exact ⟨h_frame.of_bound hr, (h_frame.evolves r).sessionID_eq.symm.trans h_session⟩

/-! ### Steps -/

variable {hash : String → String} {leaseTTL : Duration} {s : State κ} {e : Event κ}

/-- Every step keeps the invariant. -/
theorem Inv.next (h : Inv s.manager) (he : enabled s e) : Inv (next hash s e).manager := by
  by_cases h_command : ∃ k now, e = .command k now
  · obtain ⟨k, now, rfl⟩ := h_command
    exact h.command he
  · rw [not_exists] at h_command
    obtain ⟨operations, records, h_manager⟩ :=
      manager_next hash s fun k now h => h_command k ⟨now, h⟩
    rw [h_manager]
    exact ⟨h.named, h.lease, h.pending⟩

/-- The invariant holds in every run. -/
theorem inv (h : (machine hash leaseTTL).Reachable s) : Inv s.manager := by
  refine h.induction (P := fun s => Inv s.manager) ?_ fun s e _ h_inv he => h_inv.next he
  exact ⟨fun _ h => absurd rfl h, by rintro _ _ ⟨⟩, by rintro _ ⟨⟩⟩

/-- A call registers a record only for an open session. -/
theorem addsNothing_execute (hc : s.manager.closed sessionID = true) (c : κ) (now : Time)
    (call : Call κ) :
    AddsNothing s.manager (s.execute hash c now call).manager sessionID := by
  have h_execute := executes hash s c now call
  generalize s.execute hash c now call = s' at h_execute ⊢
  cases h_execute with
  -- the call was admitted, so its session is open and another one
  | admitted _ h_open =>
    refine ⟨rfl, fun _ _ h _ => h, fun id r hr h_session => ?_⟩
    change Function.update s.manager.operations call.operationID (some c) id = some r at hr
    change (Function.update s.manager.records c _ r).sessionID = sessionID at h_session
    have h_ne : r ≠ c := by
      rintro rfl
      rw [Function.update_self] at h_session
      exact Manager.not_isOpen_of_closed hc (h_session ▸ h_open)
    rw [Function.update_of_ne h_ne] at h_session
    by_cases h_id : id = call.operationID
    · rw [h_id, Function.update_self, Option.some_inj] at hr
      exact absurd hr.symm h_ne
    · rw [Function.update_of_ne h_id] at hr
      exact ⟨hr, h_session⟩
  | _ => exact .refl _ _

/-- A record that is rewritten stays with its session. -/
theorem addsNothing_setRecord (s : State κ) {c : κ} {op : Operation} {phase : Phase κ}
    (h : op.sessionID = (s.manager.records c).sessionID) :
    AddsNothing s.manager ((s.setRecord c op).setPhase c phase).manager sessionID := by
  refine ⟨rfl, fun _ _ h _ => h, fun id r hr h_session => ⟨hr, ?_⟩⟩
  change (Function.update s.manager.records c op r).sessionID = sessionID at h_session
  by_cases h_eq : r = c
  · rw [h_eq, Function.update_self] at h_session
    exact h_eq ▸ h.symm.trans h_session
  · rw [Function.update_of_ne h_eq] at h_session
    exact h_session

/-- **One step.** Whatever happens, a closed session gets nothing more. -/
theorem addsNothing_next (h : Inv s.manager) (hc : s.manager.closed sessionID = true)
    (he : enabled s e) : AddsNothing s.manager (next hash s e).manager sessionID := by
  cases e with
  -- Two steps can add an operation or a lease: a new call and a command.
  | execute c sessionID tabID operationID request now => exact addsNothing_execute hc c now _
  | takeDone c =>
    simp only [next]
    split <;> exact .refl _ _
  | finish c outcome => exact addsNothing_setRecord s rfl
  | record c now =>
    simp only [next]
    split
    · exact addsNothing_setRecord s rfl
    · exact .refl _ _
  | command k now => exact h.addsNothing hc he
  | ctxDone => exact .refl _ _
  | invoke => exact .refl _ _

/-! ### Confirmations of closed sessions -/

/-- A decision that fails approves nothing: the session of a pending confirmation is open. -/
theorem approved_of_error (h : Inv m) {now : Time} {id decision : String} {rpcErr : RPCError}
    (h_error : (m.resolveConfirmation now id decision).result = .error rpcErr) :
    ∀ c ∈ (m.resolveConfirmation now id decision).manager.confirmations,
      c.status = .approved → c ∈ m.confirmations := by
  intro c hc h_approved
  unfold Manager.resolveConfirmation at h_error hc
  cases h_find : m.confirmations.find? (·.confirmationID = id) with
  | none =>
    rw [h_find] at hc
    exact hc
  | some c₀ =>
    simp only [h_find] at h_error hc
    split at hc
    case isTrue => exact hc
    case isFalse h_pending =>
      rw [if_neg h_pending] at h_error
      -- a pending confirmation whose time has run out expires
      split at hc
      case isTrue =>
        rw [Manager.confirmations_finishAwaiting] at hc
        exact Manager.mem_resolve hc (h_approved ▸ (by rintro ⟨⟩))
      case isFalse h_live =>
        rw [if_neg h_live] at h_error
        split at hc
        case isTrue h_approve =>
          rw [if_pos h_approve] at h_error
          -- Only a capability whose session is closed fails here, and it is not pending.
          have h_open := h.pending c₀ (List.mem_of_find?_eq_some h_find) (not_not.mp h_pending)
          obtain ⟨session, h_session⟩ := openSessionLocked_of_open h_open
          rw [h_session] at h_error
          split at h_error <;> contradiction
        -- what is neither approved nor denied stays pending
        case isFalse h_other =>
          rw [if_neg h_other] at h_error
          split at hc
          case isTrue h_deny =>
            rw [if_pos h_deny] at h_error
            contradiction
          case isFalse => exact hc

/-- **A closed session is inert.** In every reachable state and whatever happens afterwards: a
closed session stays closed and gets no capability, owned tab, artifact or record of an
operation, it owns no lease, and no pending confirmation names it. A decision on a confirmation
that fails approves nothing. -/
theorem closedSession (h : (machine hash leaseTTL).Reachable s) :
    (∀ sessionID, s.manager.closed sessionID = true → ∀ es, (machine hash leaseTTL).Runs s es →
      ((machine hash leaseTTL).exec s es).manager.closed sessionID = true ∧
      ((machine hash leaseTTL).exec s es).manager.Idle sessionID ∧
      AddsNothing s.manager ((machine hash leaseTTL).exec s es).manager sessionID) ∧
    ∀ now id decision rpcErr,
      (s.manager.resolveConfirmation now id decision).result = .error rpcErr →
      ∀ c ∈ (s.manager.resolveConfirmation now id decision).manager.confirmations,
        c.status = .approved → c ∈ s.manager.confirmations := by
  refine ⟨fun sessionID hc es h_runs => ?_, fun _ _ _ _ => approved_of_error (inv h)⟩
  -- Along the run: the session stays closed, and nothing of it is added.
  have h_stable := h_runs.stable (P := fun s' => s'.manager.closed sessionID = true ∧
    AddsNothing s.manager s'.manager sessionID) (Q := fun _ => True)
  obtain ⟨h_closed, h_adds⟩ := h_stable (fun s' e h' _ hP he =>
    ⟨closed_next he hP.1, hP.2.trans (addsNothing_next (inv h') hP.1 he)⟩) h
    ⟨hc, .refl _ _⟩ fun _ _ => trivial
  exact ⟨h_closed, (inv (h.exec h_runs)).idle h_closed, h_adds⟩

/-- A session that has a lease, a confirmation and an operation is closed. -/
def closing : List (Event Unit) :=
  [.command (.openSession "ses_1" "" "") 0,
    .command (.claimTab "lease_1" "ses_1" "tab_7" 0 false) 0,
    .execute () "ses_1" "tab_7" "op_1" .empty 1,
    .command (.createCapabilityConfirmation "cnf_1" "ses_1" "browser_1" "" ["unsafe.cdp"] 0) 2,
    .command (.closeSession "ses_1" "done") 3]

/-- Clients go on with the closed session. -/
def afterwards : List (Event Unit) :=
  [.command (.claimTab "lease_2" "ses_1" "tab_7" 0 true) 4,
    .command (.grantCapabilities "ses_1" ["unsafe.cdp"]) 5, .invoke (),
    .command (.resolveConfirmation "cnf_1" "approve") 6, .finish () (.ok .null), .record () 7]

/-- What is asked for a closed session is refused. -/
theorem closedSession_refused :
    ((machine id 0).exec ((machine id 0).exec (machine id 0).init closing) afterwards).manager.Idle
      "ses_1" := by
  have h_runs : (machine id 0).Runs (machine id 0).init closing ∧
      (machine id 0).Runs ((machine id 0).exec (machine id 0).init closing) afterwards ∧
      ((machine id 0).exec (machine id 0).init closing).manager.closed "ses_1" = true := by
    decide +kernel
  exact ((closedSession h_runs.1.reachable).1 "ses_1" h_runs.2.2 afterwards h_runs.2.1).2.1

end ClosedSession

end BrowserControl.Core
