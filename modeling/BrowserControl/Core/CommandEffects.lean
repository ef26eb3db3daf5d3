import BrowserControl.Core.Command

/-!
# What commands do to the parts of the manager

Facts about every command, for reasoning about interleavings of critical sections:

* to a record of an operation a command does one of two things (`Operation.Evolves`), and
  only while the record is bound to its id (`Manager.Frame`, `Command.frame`);
* a lease leaves the table of leases only together with the cancellation of the queue of its
  tab, and no lease enters it but a new one (`LeaseStep`, `Command.leaseStep`);
* a closed session stays as it is (`Command.sessions_of_closed`), and whatever closes a session
  leaves nothing to do for it (`Manager.Idle`, `Command.isOpen_or_idle`);
* a confirmation becomes pending only for a session that is open (`Command.confirmationOrigin`),
  and is decided only by the command that is about it (`Command.confirmations`).
-/

namespace BrowserControl.Core

open Encoding Protocol

variable {κ : Type*} [DecidableEq κ]

/-! ### What a command does to records -/

/-- What a command may do to a record: cancel the context of a run, or end the wait for a
confirmation. -/
inductive Operation.Evolves : Operation → Operation → Prop where
  | same (op : Operation) : Evolves op op
  | cancel {op : Operation} (h : op.status = .running) : Evolves op { op with cancelled := true }
  | finish {op : Operation} (h : op.status = .awaitingConfirmation) {status : OperationStatus}
      (h_running : status ≠ .running) (h_awaiting : status ≠ .awaitingConfirmation)
      (rpcErr : RPCError) (now : Time) :
      Evolves op { op with status, err := some rpcErr, completedAt := now }

namespace Operation.Evolves

variable {op op' op'' : Operation}

theorem trans (h : op.Evolves op') (h' : op'.Evolves op'') : op.Evolves op'' := by
  cases h with
  | same => exact h'
  | cancel h_running =>
    cases h' with
    | same => exact .cancel h_running
    | cancel => exact .cancel h_running
    | finish h_awaiting => simp [h_running] at h_awaiting
  | finish h_awaiting h_run h_wait rpcErr now =>
    cases h' with
    | same => exact .finish h_awaiting h_run h_wait rpcErr now
    | cancel h_running => exact absurd h_running h_run
    | finish h_awaiting' => exact absurd h_awaiting' h_wait

/-- A record keeps its id. -/
theorem id_eq (h : op.Evolves op') : op'.id = op.id := by cases h <;> rfl

/-- A record keeps its session. -/
theorem sessionID_eq (h : op.Evolves op') : op'.sessionID = op.sessionID := by cases h <;> rfl

/-- A record keeps its tab. -/
theorem tabID_eq (h : op.Evolves op') : op'.tabID = op.tabID := by cases h <;> rfl

/-- A record keeps its fingerprint. -/
theorem fingerprint_eq (h : op.Evolves op') : op'.fingerprint = op.fingerprint := by
  cases h <;> rfl

/-- A record keeps its channel. -/
theorem done_eq (h : op.Evolves op') : op'.done = op.done := by cases h <;> rfl

/-- Running is neither begun nor ended. -/
theorem running_iff (h : op.Evolves op') : op'.status = .running ↔ op.status = .running := by
  cases h with
  | same => rfl
  | cancel => rfl
  | finish h_awaiting h_run => simp [h_awaiting, h_run]

/-- Waiting for a confirmation is not begun. -/
theorem awaiting (h : op.Evolves op') (h' : op'.status = .awaitingConfirmation) :
    op' = op := by
  cases h with
  | same => rfl
  | cancel h_running => simp [h_running] at h'
  | finish _ _ h_wait => exact absurd h' h_wait

/-- What is over stays as it is. -/
theorem settled (h : op.Evolves op') (h_running : op.status ≠ .running)
    (h_awaiting : op.status ≠ .awaitingConfirmation) : op' = op := by
  cases h with
  | same => rfl
  | cancel h => exact absurd h h_running
  | finish h => exact absurd h h_awaiting

end Operation.Evolves

/-- Only a record that awaits a confirmation is given an outcome. -/
theorem Operation.evolves_finishAwaiting (op : Operation) (now : Time) {status : OperationStatus}
    (h_running : status ≠ .running) (h_awaiting : status ≠ .awaitingConfirmation)
    (rpcErr : RPCError) : op.Evolves (op.finishAwaiting now status rpcErr) := by
  unfold finishAwaiting
  split
  case isTrue h => exact .finish h h_running h_awaiting rpcErr now
  case isFalse => exact .same op

/-- A cancelled record awaits nothing, and one that runs goes on. -/
theorem Manager.evolves_cancelRecord (now : Time) (reason : String) (op : Operation) :
    op.Evolves (cancelRecord now reason op) := by
  unfold cancelRecord
  split
  case isTrue h => exact .cancel h
  case isFalse => exact op.evolves_finishAwaiting now (by decide) (by decide) _

/-- What a critical section leaves of the records: they evolve, those that are bound to no id
stay as they are, nothing is bound anew, and a record that runs stays bound. -/
structure Manager.Frame (m m' : Manager κ) : Prop where
  evolves : ∀ r, (m.records r).Evolves (m'.records r)
  unbound : ∀ r, (∀ id, m.operations id ≠ some r) → m'.records r = m.records r
  operations : ∀ id, m'.operations id = m.operations id ∨ m'.operations id = none ∧
    ∀ r, m.operations id = some r → (m.records r).status ≠ .running

namespace Manager

variable {m m' m'' : Manager κ}

omit [DecidableEq κ] in
/-- A command that does not touch operations. -/
theorem Frame.of_eq (h_records : m'.records = m.records)
    (h_operations : m'.operations = m.operations) : Frame m m' where
  evolves r := by rw [h_records]; exact .same _
  unbound r _ := by rw [h_records]
  operations id := .inl (by rw [h_operations])

omit [DecidableEq κ] in
theorem Frame.refl (m : Manager κ) : Frame m m := .of_eq rfl rfl

omit [DecidableEq κ] in
/-- A record that is bound afterwards was bound to the same id before. -/
theorem Frame.of_bound (h : Frame m m') {id : String} {r : κ} (hr : m'.operations id = some r) :
    m.operations id = some r := by
  rcases h.operations id with h_eq | ⟨h_none, -⟩
  · rw [← h_eq]
    exact hr
  · simp [h_none] at hr

omit [DecidableEq κ] in
/-- An operation that runs stays bound to its id. -/
theorem Frame.of_running (h : Frame m m') {id : String} {r : κ}
    (hr : m.operations id = some r) (h_running : (m.records r).status = .running) :
    m'.operations id = some r := by
  rcases h.operations id with h_eq | ⟨-, h_over⟩
  · rw [h_eq]
    exact hr
  · exact absurd h_running (h_over r hr)

omit [DecidableEq κ] in
theorem Frame.trans (h : Frame m m') (h' : Frame m' m'') : Frame m m'' where
  evolves r := (h.evolves r).trans (h'.evolves r)
  unbound r hr := by
    rw [h'.unbound r fun id h_bound => hr id (h.of_bound h_bound), h.unbound r hr]
  operations id := by
    rcases h'.operations id with h_eq | ⟨h_none, h_over⟩
    · rw [h_eq]
      exact h.operations id
    · rcases h.operations id with h_eq | h_gone
      · refine .inr ⟨h_none, fun r hr => ?_⟩
        exact (h.evolves r).running_iff.not.mp (h_over r (h_eq ▸ hr))
      · exact .inr ⟨h_none, h_gone.2⟩

omit [DecidableEq κ] in
/-- What comes before a frame may change anything but the operations. -/
theorem Frame.of_eq_left (h : Frame m' m'') (h_records : m'.records = m.records)
    (h_operations : m'.operations = m.operations) : Frame m m'' :=
  (Frame.of_eq h_records h_operations).trans h

/-! ### The parts of the commands -/

/-- One bound record evolves. -/
theorem frame_setRecord {m : Manager κ} {operationID : String} {r : κ}
    (h : m.operations operationID = some r) {op : Operation} (h_op : (m.records r).Evolves op) :
    Frame m { m with records := Function.update m.records r op } := by
  refine ⟨?_, ?_, fun id => .inl rfl⟩
  · exact (Function.forall_update_iff m.records fun d op => (m.records d).Evolves op).mpr
      ⟨h_op, fun _ _ => .same _⟩
  · intro d hd
    have hne : d ≠ r := fun h_eq => hd operationID (h_eq ▸ h)
    exact Function.update_of_ne hne ..

/-- One record may get an outcome. -/
theorem frame_finishAwaiting (m : Manager κ) (now : Time) (operationID : String)
    (status : OperationStatus) (h_running : status ≠ .running)
    (h_awaiting : status ≠ .awaitingConfirmation) (rpcErr : RPCError) :
    Frame m (m.finishAwaitingOperationLocked now operationID status rpcErr) := by
  unfold finishAwaitingOperationLocked
  split
  · exact .refl m
  case h_2 r h =>
    exact frame_setRecord h (Operation.evolves_finishAwaiting _ now h_running h_awaiting rpcErr)

omit [DecidableEq κ] in
/-- Cancelling the records that `p` selects, among those that are bound. -/
theorem frame_cancelRecords (m : Manager κ) (now : Time) (reason : String) (p : κ → Prop)
    [DecidablePred p] (h_bound : ∀ r, p r → m.Registered r) {records : κ → Operation}
    (h : ∀ r, records r = if p r then cancelRecord now reason (m.records r) else m.records r) :
    Frame m { m with records } := by
  refine ⟨?_, ?_, fun id => .inl rfl⟩
  · intro r
    show (m.records r).Evolves (records r)
    rw [h r]
    split
    · exact evolves_cancelRecord now reason _
    · exact .same _
  · intro r hr
    have h_not : ¬ p r := fun hp => hr _ (h_bound r hp)
    exact (h r).trans (if_neg h_not)

/-- The operations on a tab are cancelled. -/
theorem frame_cancelOperationsLocked (m : Manager κ) (now : Time)
    (sessionID tabID reason : String) :
    Frame m (m.cancelOperationsLocked now sessionID tabID reason) :=
  m.frame_cancelRecords now reason
    (fun r => m.Registered r ∧ (sessionID = "" ∨ (m.records r).sessionID = sessionID) ∧
      (tabID = "" ∨ (m.records r).tabID = tabID)) (fun _ h => h.1) fun _ => rfl

/-- The operations on some leases are cancelled. -/
theorem frame_cancelLeaseOperations (m : Manager κ) (now : Time) (p : Lease → Bool)
    (reason : String) : Frame m (m.cancelLeaseOperations now p reason) := by
  refine m.frame_cancelRecords now reason
    (fun r => m.Registered r ∧
      ∃ l ∈ m.selectLeases p (m.records r).tabID, (m.records r).sessionID = l.sessionID)
    (fun _ h => h.1) fun r => ?_
  cases h : m.selectLeases p (m.records r).tabID with
  | none => simp [h]
  | some l => simp [h]

/-- The operations on a lease that is dropped are cancelled. -/
theorem frame_dropLease (m : Manager κ) (now : Time) (l : Lease) (tabID reason : String) :
    Frame m (m.dropLease now l tabID reason).manager :=
  (frame_cancelOperationsLocked _ now l.sessionID tabID reason).of_eq_left rfl rfl

omit [DecidableEq κ] in
/-- Ids of operations that are over for an hour are forgotten. -/
theorem purge_operations (m : Manager κ) (now : Time) (id : String) :
    (m.purge now).operations id = (m.operations id).filter fun r =>
      !((m.records r).status ≠ .running && hour < now - (m.records r).completedAt) := rfl

omit [DecidableEq κ] in
/-- An operation that runs is not forgotten. -/
theorem frame_purge (m : Manager κ) (now : Time) : Frame m (m.purge now) where
  evolves r := .same _
  unbound r _ := rfl
  operations id := by
    rw [purge_operations]
    -- The purge filters the table of operations and touches nothing else.
    cases h : m.operations id with
    | none => exact .inl (Option.filter_none _)
    | some r =>
      rw [Option.filter_some]
      split
      · exact .inl rfl
      case isFalse h_over =>
        refine .inr ⟨rfl, fun r' hr' => ?_⟩
        rw [← Option.some_inj.mp hr']
        intro h_running
        simp [h_running] at h_over

/-- Each confirmation that has run out finishes one operation. -/
theorem frame_foldl_expire {m m' : Manager κ} (now : Time) (cs : List Confirmation)
    (h : Frame m m') :
    Frame m (cs.foldl (fun m c => (m.resolve now c.confirmationID
      .expired).finishAwaitingOperationLocked now c.operationID .failed
      (confirmationError "CONFIRMATION_EXPIRED" "confirmation expired" c)) m') := by
  induction cs generalizing m' with
  | nil => exact h
  | cons c cs ih =>
    have h_finish := (m'.resolve now c.confirmationID .expired).frame_finishAwaiting now
      c.operationID .failed (by decide) (by decide)
      (confirmationError "CONFIRMATION_EXPIRED" "confirmation expired" c)
    exact ih (h.trans (h_finish.of_eq_left rfl rfl))

/-- The operations that await confirmations that have run out get an outcome. -/
theorem frame_expireConfirmations (m : Manager κ) (now : Time) :
    Frame m (m.expireConfirmations now) := frame_foldl_expire now _ (.refl m)

end Manager

/-- **Commands and records.** A command cancels runs and ends waits of bound records, and
nothing else happens to records. -/
theorem Command.frame (m : Manager κ) (now : Time) (c : Command) :
    m.Frame (c.run m now).manager := by
  have h_leaves := c.leaves m now
  generalize (c.run m now).manager = m', (c.run m now).cancelledQueues = queues at h_leaves
  cases h_leaves with
  | dropped _ reason => exact m.frame_dropLease now _ _ reason
  | replaced _ _ _ reason => exact (m.frame_dropLease now _ _ reason).trans (.of_eq rfl rfl)
  | revoked p q reason => exact (m.frame_cancelLeaseOperations now p reason).trans (.of_eq rfl rfl)
  | closed _ _ reason =>
    exact ((Manager.frame_cancelOperationsLocked _ now _ "" reason).of_eq_left rfl rfl).trans
      (.of_eq rfl rfl)
  | stopped reason =>
    exact (Manager.frame_cancelOperationsLocked _ now "" "" reason).of_eq_left rfl rfl
  | cancelledRun h_bound h_running => exact Manager.frame_setRecord h_bound (.cancel h_running)
  | cancelledWait id q rpcErr =>
    exact (m.frame_finishAwaiting now id .cancelled (by decide) (by decide) rpcErr).trans
      (.of_eq rfl rfl)
  | failed id operationID _ rpcErr =>
    exact (Manager.frame_finishAwaiting _ now operationID .failed (by decide) (by decide)
      rpcErr).of_eq_left rfl rfl
  -- the janitor: leases first, then records, then artifacts
  | swept =>
    let p := fun l : Lease => decide (l.expiresAt < now)
    let m₁ := (m.cancelLeaseOperations now p "lease expired").removeLeases p
    have h_leases : Manager.Frame m m₁ :=
      (m.frame_cancelLeaseOperations now p "lease expired").trans (.of_eq rfl rfl)
    have h_artifacts : Manager.Frame m ((m₁.purge now).expireArtifacts now) :=
      (h_leases.trans (m₁.frame_purge now)).trans (.of_eq rfl rfl)
    exact h_artifacts.trans (Manager.frame_expireConfirmations _ now)
  | _ => exact .of_eq rfl rfl

/-! ### What a command does to leases -/

/-- What a critical section may do to the lease of one tab, where `cancelled` says whether it
cancels the queue of the tab and `fresh` is the id of a new lease. -/
inductive LeaseStep (fresh : Option String) : Option Lease → Option Lease → Option String → Prop
  where
  | kept (l : Option Lease) (cancelled : Option String) : LeaseStep fresh l l cancelled
  | renewed {l l' : Lease} (h_id : l'.leaseID = l.leaseID) (h_session : l'.sessionID = l.sessionID)
      (cancelled : Option String) : LeaseStep fresh (some l) (some l') cancelled
  | dropped (l : Lease) (reason : String) : LeaseStep fresh (some l) none (some reason)
  | claimed {l : Lease} (h_id : fresh = some l.leaseID) (cancelled : Option String) :
      LeaseStep fresh none (some l) cancelled
  | replaced {l l' : Lease} (h_id : fresh = some l'.leaseID) (reason : String) :
      LeaseStep fresh (some l) (some l') (some reason)

/-- A lease that is not there any more took the queue of its tab with it. -/
theorem LeaseStep.removed {fresh : Option String} {l : Lease} {new : Option Lease}
    {cancelled : Option String} (h : LeaseStep fresh (some l) new cancelled)
    (h_gone : ∀ l', new = some l' → l'.leaseID ≠ l.leaseID) : cancelled ≠ none := by
  cases h with
  | kept => exact absurd rfl (h_gone l rfl)
  | renewed h_id => exact absurd h_id (h_gone _ rfl)
  | dropped => exact Option.some_ne_none _
  | replaced => exact Option.some_ne_none _

/-- A lease that was not there before is new. -/
theorem LeaseStep.added {fresh : Option String} {old : Option Lease} {l : Lease}
    {cancelled : Option String} (h : LeaseStep fresh old (some l) cancelled) :
    (∃ l', old = some l' ∧ l.leaseID = l'.leaseID ∧ l.sessionID = l'.sessionID) ∨
      fresh = some l.leaseID := by
  cases h with
  | kept => exact .inl ⟨l, rfl, rfl, rfl⟩
  | renewed h_id h_session => exact .inl ⟨_, rfl, h_id, h_session⟩
  | claimed h_id => exact .inr h_id
  | replaced h_id => exact .inr h_id

/-- The critical section does such a step on every tab. -/
def Locked.LeaseSteps {α : Type*} (m : Manager κ) (fresh : Option String) (l : Locked κ α) : Prop :=
  ∀ tab, LeaseStep fresh (m.leases tab) (l.manager.leases tab) (l.cancelledQueues tab)

namespace Manager

omit [DecidableEq κ] in
/-- A command that does not touch leases. -/
theorem leaseSteps_of_eq {α : Type*} {m : Manager κ} {l : Locked κ α} {fresh : Option String}
    (h : l.manager.leases = m.leases) : l.LeaseSteps m fresh := by
  intro tab
  rw [h]
  exact .kept _ _

/-- A lease is dropped. -/
theorem leaseSteps_dropLease {α : Type*} {m : Manager κ} {now : Time} {l : Lease}
    {tabID reason : String} {fresh : Option String} (h : m.leases tabID = some l)
    {locked : Locked κ α}
    (h_manager : locked.manager = (m.dropLease now l tabID reason).manager)
    (h_queues : locked.cancelledQueues = (m.dropLease now l tabID reason).cancelledQueues) :
    locked.LeaseSteps m fresh := by
  intro tab
  rw [h_manager, h_queues]
  show LeaseStep fresh _ (Function.update m.leases tabID none tab)
    (Function.update (fun _ => none) tabID (some reason) tab)
  by_cases h_tab : tab = tabID
  · rw [h_tab, Function.update_self, Function.update_self, h]
    exact .dropped l reason
  · rw [Function.update_of_ne h_tab]
    exact .kept _ _

omit [DecidableEq κ] in
/-- The lease of one tab is renewed. -/
theorem leaseSteps_setLease {α : Type*} {m : Manager κ} {tabID : String} {l l' : Lease}
    {fresh : Option String} {locked : Locked κ α} (h : m.leases tabID = some l)
    (h_manager : locked.manager = m.setLease tabID l') (h_id : l'.leaseID = l.leaseID)
    (h_session : l'.sessionID = l.sessionID) : locked.LeaseSteps m fresh := by
  intro tab
  rw [h_manager]
  show LeaseStep fresh _ (Function.update m.leases tabID (some l') tab) _
  by_cases h_tab : tab = tabID
  · rw [h_tab, Function.update_self, h]
    exact .renewed h_id h_session _
  · rw [Function.update_of_ne h_tab]
    exact .kept _ _

omit [DecidableEq κ] in
/-- The leases that `p` selects are removed. -/
theorem leaseSteps_removeLeases {α : Type*} {m : Manager κ} {p : Lease → Bool} {reason : String}
    {fresh : Option String} {locked : Locked κ α}
    (h_leases : locked.manager.leases = (m.removeLeases p).leases)
    (h_queues : locked.cancelledQueues = m.queuesOf p reason) : locked.LeaseSteps m fresh := by
  intro tab
  rw [h_leases, h_queues, removeLeases, queuesOf, selectLeases]
  dsimp only
  cases h : m.leases tab with
  | none => exact .kept _ _
  | some l =>
    rw [Option.filter_some, Option.filter_some]
    cases h_p : p l with
    | true => exact .dropped l reason
    | false => exact .kept _ _

/-- An outcome does not touch leases. -/
theorem leases_finishAwaiting (m : Manager κ) (now : Time) (operationID : String)
    (status : OperationStatus) (rpcErr : RPCError) :
    (m.finishAwaitingOperationLocked now operationID status rpcErr).leases = m.leases := by
  unfold finishAwaitingOperationLocked
  split <;> rfl

/-- Confirmations do not touch leases. -/
theorem leases_expireConfirmations (m : Manager κ) (now : Time) :
    (m.expireConfirmations now).leases = m.leases := by
  unfold expireConfirmations
  generalize m.confirmations.filter (·.overdue now) = cs
  induction cs generalizing m with
  | nil => rfl
  | cons c cs ih => exact (ih _).trans (leases_finishAwaiting ..)

/-- A new lease takes the place of none, or of one that is dropped. -/
theorem leaseSteps_claim {α : Type*} {m : Manager κ} {now : Time} {l l' : Lease}
    {tabID reason : String} {fresh : Option String} {locked : Locked κ α}
    (h : m.leases tabID = some l)
    (h_manager : locked.manager = (m.dropLease now l tabID reason).manager.setLease tabID l')
    (h_queues : locked.cancelledQueues = (m.dropLease now l tabID reason).cancelledQueues)
    (h_fresh : fresh = some l'.leaseID) : locked.LeaseSteps m fresh := by
  intro tab
  rw [h_manager, h_queues]
  show LeaseStep _ _ (Function.update (Function.update m.leases tabID none) tabID (some l') tab)
    (Function.update (fun _ => none) tabID (some reason) tab)
  by_cases h_tab : tab = tabID
  · rw [h_tab, Function.update_self, Function.update_self, h]
    exact .replaced h_fresh reason
  · rw [Function.update_of_ne h_tab, Function.update_of_ne h_tab]
    exact .kept _ _

end Manager

/-- **Commands and leases.** A command that takes a lease from a tab cancels the queue of the
tab, and the only new lease is that of a claim. -/
theorem Command.leaseStep (m : Manager κ) (now : Time) (c : Command) :
    (c.run m now).LeaseSteps m c.leaseID := by
  suffices h : ∀ locked : Locked κ Unit,
      Leaves m now c locked.manager locked.cancelledQueues → locked.LeaseSteps m c.leaseID from
    h _ (c.leaves m now)
  rintro ⟨m', _, queues, expired⟩ h_leaves
  cases h_leaves with
  | renewed h_lease h =>
    exact Manager.leaseSteps_setLease h_lease rfl h.leaseID h.sessionID
  | dropped h_lease reason => exact Manager.leaseSteps_dropLease h_lease rfl rfl
  -- the tab had no lease, and has one now
  | @claimed id sessionID tabID ttl force session h_claim _ h_none =>
    subst h_claim
    intro tab
    show LeaseStep _ _ (Function.update m.leases tabID _ tab) _
    by_cases h_tab : tab = tabID
    · rw [h_tab, Function.update_self, h_none]
      exact .claimed (l := m.newLease now id sessionID tabID ttl) rfl _
    · rw [Function.update_of_ne h_tab]
      exact .kept _ _
  | replaced h_claim _ h_lease =>
    subst h_claim
    exact Manager.leaseSteps_claim h_lease rfl rfl rfl
  | revoked => exact Manager.leaseSteps_removeLeases rfl rfl
  | closed => exact Manager.leaseSteps_removeLeases rfl rfl
  | stopped => exact Manager.leaseSteps_removeLeases rfl rfl
  | cancelledWait => exact Manager.leaseSteps_of_eq (Manager.leases_finishAwaiting ..)
  | failed => exact Manager.leaseSteps_of_eq (Manager.leases_finishAwaiting ..)
  | swept => exact Manager.leaseSteps_removeLeases (Manager.leases_expireConfirmations ..) rfl
  | _ => exact Manager.leaseSteps_of_eq rfl

/-! ### What a command does to sessions -/

namespace Manager

/-- The session was closed. -/
def closed (m : Manager κ) (sessionID : String) : Bool :=
  match m.sessions sessionID with
  | some session => session.status = .closed
  | none => false

section Closed

variable {m m' : Manager κ} {sessionID : String}

omit [DecidableEq κ] in
/-- A closed session is there. -/
theorem closed_iff :
    m.closed sessionID = true ↔
      ∃ session, m.sessions sessionID = some session ∧ session.status = .closed := by
  unfold closed
  cases m.sessions sessionID <;> simp

omit [DecidableEq κ] in
/-- A session that is found open is another one. -/
theorem ne_of_openSessionLocked {id : String} {session : Session}
    (h : m.openSessionLocked id = .ok session) (hc : m.closed sessionID = true) :
    sessionID ≠ id := by
  rintro rfl
  obtain ⟨session', h_session, h_closed⟩ := closed_iff.mp hc
  rw [openSessionLocked, h_session] at h
  simp [h_closed] at h

/-- An outcome does not touch sessions. -/
theorem sessions_finishAwaiting (m : Manager κ) (now : Time) (operationID : String)
    (status : OperationStatus) (rpcErr : RPCError) :
    (m.finishAwaitingOperationLocked now operationID status rpcErr).sessions = m.sessions := by
  unfold finishAwaitingOperationLocked
  split <;> rfl

/-- Confirmations that run out do not touch sessions. -/
theorem sessions_expireConfirmations (m : Manager κ) (now : Time) :
    (m.expireConfirmations now).sessions = m.sessions := by
  unfold expireConfirmations
  generalize m.confirmations.filter (·.overdue now) = cs
  induction cs generalizing m with
  | nil => rfl
  | cons c cs ih => exact (ih _).trans (sessions_finishAwaiting ..)

/-- An outcome does not touch artifacts. -/
theorem artifacts_finishAwaiting (m : Manager κ) (now : Time) (operationID : String)
    (status : OperationStatus) (rpcErr : RPCError) :
    (m.finishAwaitingOperationLocked now operationID status rpcErr).artifacts = m.artifacts := by
  unfold finishAwaitingOperationLocked
  split <;> rfl

/-- Confirmations do not touch artifacts. -/
theorem artifacts_expireConfirmations (m : Manager κ) (now : Time) :
    (m.expireConfirmations now).artifacts = m.artifacts := by
  unfold expireConfirmations
  generalize m.confirmations.filter (·.overdue now) = cs
  induction cs generalizing m with
  | nil => rfl
  | cons c cs ih => exact (ih _).trans (artifacts_finishAwaiting ..)

end Closed

end Manager

/-- **Commands and sessions.** A closed session stays as it is. -/
theorem Command.sessions_of_closed (m : Manager κ) (now : Time) (k : Command)
    (h_fresh : k.Fresh m) {sessionID : String} (hc : m.closed sessionID = true) :
    (k.run m now).manager.sessions sessionID = m.sessions sessionID := by
  have h_leaves := k.leaves m now
  generalize (k.run m now).manager = m', (k.run m now).cancelledQueues = queues at h_leaves ⊢
  -- A command that writes a session has found it open, or opens a new one.
  cases h_leaves with
  | opened h_id =>
    refine Function.update_of_ne ?_ ..
    rintro rfl
    obtain ⟨session, h_session, -⟩ := Manager.closed_iff.mp hc
    rw [(h_fresh.session h_id).2] at h_session
    contradiction
  | updated h_session =>
    exact Function.update_of_ne (Manager.ne_of_openSessionLocked h_session hc) ..
  | granted h_session =>
    exact Function.update_of_ne (Manager.ne_of_openSessionLocked h_session hc) ..
  | closed h_session h_open =>
    refine Function.update_of_ne ?_ ..
    rintro rfl
    obtain ⟨session', h_session', h_closed⟩ := Manager.closed_iff.mp hc
    rw [h_session, Option.some_inj] at h_session'
    rw [h_session', h_closed] at h_open
    contradiction
  | stopped reason =>
    obtain ⟨session, h_session, h_closed⟩ := Manager.closed_iff.mp hc
    have h_same : Session.close now session = session := by
      rw [Session.close, h_closed]
      rfl
    show (m.sessions sessionID).map _ = _
    rw [h_session, Option.map_some, h_same]
  | cancelledWait => exact congrFun (Manager.sessions_finishAwaiting ..) sessionID
  | failed => exact congrFun (Manager.sessions_finishAwaiting ..) sessionID
  | swept => exact congrFun (Manager.sessions_expireConfirmations ..) sessionID
  | _ => rfl

/-- A closed session stays closed. -/
theorem Command.closed (m : Manager κ) (now : Time) (k : Command) (h_fresh : k.Fresh m)
    {sessionID : String} (hc : m.closed sessionID = true) :
    (k.run m now).manager.closed sessionID = true := by
  rw [Manager.closed, k.sessions_of_closed m now h_fresh hc]
  exact hc

/-! ### Open sessions and their confirmations -/

namespace Manager

/-- The session exists and is open. -/
def IsOpen (m : Manager κ) (sessionID : String) : Prop :=
  ∃ session, m.sessions sessionID = some session ∧ session.status = .open

/-- Nothing is left to do for the session: it owns no lease, and no pending confirmation names
it. -/
structure Idle (m : Manager κ) (sessionID : String) : Prop where
  lease : ∀ tabID l, m.leases tabID = some l → l.sessionID ≠ sessionID
  pending : ∀ c ∈ m.confirmations, c.status = .pending → c.sessionID ≠ sessionID

omit [DecidableEq κ] in
/-- Whoever gets past the check has an open session. -/
theorem isOpen_of_ok {m : Manager κ} {id : String} {session : Session}
    (h : m.openSessionLocked id = .ok session) : m.IsOpen id :=
  ⟨session, openSessionLocked_open h⟩

omit [DecidableEq κ] in
/-- A closed session does not get past the check. -/
theorem not_isOpen_of_closed {m : Manager κ} {id : String} (h : m.closed id = true) :
    ¬ m.IsOpen id := by
  rintro ⟨session, h_session, h_open⟩
  obtain ⟨session', h_session', h_closed⟩ := closed_iff.mp h
  rw [h_session, Option.some_inj] at h_session'
  rw [h_session', h_closed] at h_open
  contradiction

omit [DecidableEq κ] in
/-- A confirmation that is still pending has not been among the cancelled ones. -/
theorem mem_cancelConfirmations {m : Manager κ} {now : Time} {q : Confirmation → Bool}
    {c : Confirmation} (h : c ∈ (m.cancelConfirmations now q).confirmations)
    (h_pending : c.status = .pending) : c ∈ m.confirmations ∧ ¬ q c := by
  obtain ⟨c₀, h_mem, rfl⟩ := List.mem_map.mp h
  by_cases h_cancel : c₀.status = .pending ∧ q c₀
  · rw [if_pos h_cancel] at h_pending
    contradiction
  · rw [if_neg h_cancel] at h_pending ⊢
    exact ⟨h_mem, fun hq => h_cancel ⟨h_pending, hq⟩⟩

omit [DecidableEq κ] in
/-- A confirmation without the new status is an old one. -/
theorem mem_resolve {m : Manager κ} {now : Time} {id : String} {status : ConfirmationStatus}
    {c : Confirmation} (h : c ∈ (m.resolve now id status).confirmations)
    (h_status : c.status ≠ status) : c ∈ m.confirmations := by
  obtain ⟨c₀, h_mem, rfl⟩ := List.mem_map.mp h
  by_cases h_id : c₀.confirmationID = id
  · rw [if_pos h_id] at h_status
    exact absurd rfl h_status
  · rw [if_neg h_id]
    exact h_mem

/-- An outcome does not touch confirmations. -/
theorem confirmations_finishAwaiting (m : Manager κ) (now : Time) (operationID : String)
    (status : OperationStatus) (rpcErr : RPCError) :
    (m.finishAwaitingOperationLocked now operationID status rpcErr).confirmations =
      m.confirmations := by
  unfold finishAwaitingOperationLocked
  split <;> rfl

/-- A confirmation that has not run out is an old one. -/
theorem mem_expireConfirmations {m : Manager κ} {now : Time} {c : Confirmation}
    (h : c ∈ (m.expireConfirmations now).confirmations) (h_status : c.status ≠ .expired) :
    c ∈ m.confirmations := by
  unfold expireConfirmations at h
  generalize m.confirmations.filter (·.overdue now) = cs at h
  induction cs generalizing m with
  | nil => exact h
  | cons d ds ih =>
    have h_mem := ih h
    rw [confirmations_finishAwaiting] at h_mem
    exact mem_resolve h_mem h_status

end Manager

/-- **Commands and open sessions.** A session stays open, or nothing is left to do for it. -/
theorem Command.isOpen_or_idle (m : Manager κ) (now : Time) (k : Command) {sessionID : String}
    (h_open : m.IsOpen sessionID) :
    (k.run m now).manager.IsOpen sessionID ∨ (k.run m now).manager.Idle sessionID := by
  have h_leaves := k.leaves m now
  generalize (k.run m now).manager = m', (k.run m now).cancelledQueues = queues at h_leaves ⊢
  -- a session that is written is the one of the command, or another
  have h_update : ∀ {id : String} {session : Session}, session.status = .open →
      ∃ session', Function.update m.sessions id (some session) sessionID = some session' ∧
        session'.status = .open := by
    intro id session h_status
    by_cases h_id : sessionID = id
    · exact ⟨session, by rw [h_id, Function.update_self], h_status⟩
    · rw [Function.update_of_ne h_id]
      exact h_open
  obtain ⟨session, h_session, h_status⟩ := h_open
  cases h_leaves with
  | opened _ h_status => exact .inl (h_update h_status)
  | updated _ h_status => exact .inl (h_update h_status)
  | granted h_session => exact .inl (h_update (Manager.openSessionLocked_open h_session).2)
  | @closed id =>
    by_cases h_id : sessionID = id
    case pos =>
      refine .inr ⟨fun tabID l hl => ?_, fun c hc h_pending => ?_⟩
      · have h_other := (Option.filter_eq_some_iff.mp hl).2
        simpa [h_id] using h_other
      · have h_other := (Manager.mem_cancelConfirmations hc h_pending).2
        simpa [h_id] using h_other
    case neg =>
      exact .inl ⟨session, (Function.update_of_ne h_id _ _).trans h_session, h_status⟩
  -- nothing of any session is left
  | stopped =>
    refine .inr ⟨fun tabID l hl => ?_, fun c hc h_pending => ?_⟩
    · exact absurd (Option.filter_eq_some_iff.mp hl).2 (by simp)
    · exact absurd rfl (Manager.mem_cancelConfirmations hc h_pending).2
  | cancelledWait =>
    exact .inl ⟨session, (congrFun (Manager.sessions_finishAwaiting ..) _).trans h_session,
      h_status⟩
  | failed =>
    exact .inl ⟨session, (congrFun (Manager.sessions_finishAwaiting ..) _).trans h_session,
      h_status⟩
  | swept =>
    refine .inl ⟨session, ?_, h_status⟩
    exact (congrFun (Manager.sessions_expireConfirmations ..) _).trans h_session
  | _ => exact .inl ⟨session, h_session, h_status⟩

/-- **Commands and confirmations.** A pending confirmation was there before, or its session is
open. -/
theorem Command.confirmationOrigin (m : Manager κ) (now : Time) (k : Command) {c : Confirmation}
    (h : c ∈ (k.run m now).manager.confirmations) (h_pending : c.status = .pending) :
    c ∈ m.confirmations ∨ m.IsOpen c.sessionID := by
  have h_leaves := k.leaves m now
  generalize (k.run m now).manager = m', (k.run m now).cancelledQueues = queues at h h_leaves
  cases h_leaves with
  | revoked => exact .inl (Manager.mem_cancelConfirmations h h_pending).1
  | closed => exact .inl (Manager.mem_cancelConfirmations h h_pending).1
  | stopped => exact .inl (Manager.mem_cancelConfirmations h h_pending).1
  | cancelledWait =>
    have h_mem := (Manager.mem_cancelConfirmations h h_pending).1
    rw [Manager.confirmations_finishAwaiting] at h_mem
    exact .inl h_mem
  -- the one case with a new confirmation, for an open session
  | requested h_session =>
    rcases List.mem_cons.mp h with h_new | h_mem
    · exact .inr (h_new ▸ Manager.isOpen_of_ok h_session)
    · exact .inl h_mem
  -- an answer never makes a confirmation pending
  | answered h_answers =>
    obtain ⟨c₀, h_mem, rfl⟩ := List.mem_map.mp h
    rw [(h_answers c₀).2 h_pending]
    exact .inl h_mem
  | granted =>
    have h_status : c.status ≠ .approved := h_pending ▸ (by rintro ⟨⟩)
    exact .inl (Manager.mem_resolve h h_status)
  | failed _ _ h_status =>
    rw [Manager.confirmations_finishAwaiting] at h
    exact .inl (Manager.mem_resolve h (h_pending ▸ h_status.symm))
  | swept =>
    have h_status : c.status ≠ .expired := h_pending ▸ (by rintro ⟨⟩)
    have h_mem := Manager.mem_expireConfirmations h h_status
    exact .inl h_mem
  | _ => exact .inl h

/-- A session is there before a command, or the command opens it. -/
theorem Command.sessionOrigin (m : Manager κ) (now : Time) (k : Command) {id : String}
    (h : (k.run m now).manager.sessions id ≠ none) :
    m.sessions id ≠ none ∨ k.sessionID = some id := by
  have h_leaves := k.leaves m now
  generalize (k.run m now).manager = m', (k.run m now).cancelledQueues = queues at h h_leaves
  have h_update : ∀ {id' : String} {session : Option Session},
      Function.update m.sessions id' session id ≠ none → id ≠ id' → m.sessions id ≠ none := by
    intro id' session h_ne h_id
    rwa [Function.update_of_ne h_id] at h_ne
  have h_found : ∀ {id' : String} {session : Session}, m.sessions id' = some session →
      ∀ session', Function.update m.sessions id' session' id ≠ none → m.sessions id ≠ none := by
    intro id' session h_session session' h_ne
    by_cases h_id : id = id'
    · rw [h_id, h_session]
      exact Option.some_ne_none session
    · exact h_update h_ne h_id
  cases h_leaves with
  -- the one case with a new session
  | @opened id' _ h_id =>
    by_cases h_eq : id = id'
    · exact .inr (h_eq ▸ h_id)
    · exact .inl (h_update h h_eq)
  | updated h_session => exact .inl (h_found (Manager.openSessionLocked_open h_session).1 _ h)
  | granted h_session => exact .inl (h_found (Manager.openSessionLocked_open h_session).1 _ h)
  | closed h_session => exact .inl (h_found h_session _ h)
  | stopped => exact .inl (mt Option.map_eq_none_iff.mpr h)
  | cancelledWait =>
    exact .inl (congrFun (Manager.sessions_finishAwaiting m now ..) id ▸ h)
  | failed =>
    rw [Manager.sessions_finishAwaiting] at h
    exact .inl h
  | swept =>
    rw [Manager.janitor, Manager.sessions_expireConfirmations] at h
    exact .inl h
  | _ => exact .inl h

/-- **Commands and artifacts.** An artifact was there before, or it is of no session or of an
open one. -/
theorem Command.artifactOrigin (m : Manager κ) (now : Time) (k : Command) {id : String}
    {artifact : Artifact} (h : (k.run m now).manager.artifacts id = some artifact) :
    m.artifacts id = some artifact ∨ artifact.sessionID = "" ∨ m.IsOpen artifact.sessionID := by
  have h_leaves := k.leaves m now
  generalize (k.run m now).manager = m', (k.run m now).cancelledQueues = queues at h h_leaves
  cases h_leaves with
  -- the one case with a new artifact, for an open session or for none
  | @stored artifact' h_session =>
    change Function.update m.artifacts artifact'.artifactID _ id = _ at h
    by_cases h_id : id = artifact'.artifactID
    · rw [h_id, Function.update_self, Option.some_inj] at h
      refine .inr (h ▸ h_session.imp_right ?_)
      rintro ⟨_, h_open⟩
      exact Manager.isOpen_of_ok h_open
    · rw [Function.update_of_ne h_id] at h
      exact .inl h
  | deleted id' =>
    change Function.update m.artifacts id' none id = _ at h
    by_cases h_id : id = id'
    · rw [h_id, Function.update_self] at h
      contradiction
    · rw [Function.update_of_ne h_id] at h
      exact .inl h
  | cancelledWait =>
    exact .inl ((congrFun (Manager.artifacts_finishAwaiting m now ..) id).symm.trans h)
  | failed =>
    rw [Manager.artifacts_finishAwaiting] at h
    exact .inl h
  | swept =>
    rw [Manager.janitor, Manager.artifacts_expireConfirmations] at h
    exact .inl (Option.filter_eq_some_iff.mp h).1
  | _ => exact .inl h

/-! ### Who decides a confirmation -/

namespace Confirmation

variable {id : Option String} {f g : Confirmation → Confirmation}

theorem Keeps.refl (id : Option String) : Keeps id fun c => c :=
  ⟨fun _ => rfl, fun _ => rfl, fun _ h _ => h⟩

/-- Changes of confirmations can be made one after the other. -/
theorem Keeps.comp (hg : Keeps id g) (hf : Keeps id f) : Keeps id (g ∘ f) where
  confirmationID c := (hg.confirmationID (f c)).trans (hf.confirmationID c)
  browserInstanceID c := (hg.browserInstanceID (f c)).trans (hf.browserInstanceID c)
  decided c h_decided h_id := by
    refine hf.decided c (hg.decided (f c) h_decided ?_) h_id
    rwa [hf.confirmationID]

/-- A confirmation that runs out is not decided. -/
theorem keeps_expired (expired : String) (now : Time) : Keeps id fun c =>
    if c.confirmationID = expired then { c with status := .expired, resolvedAt := some now }
    else c := by
  have h_status :
      ConfirmationStatus.expired ≠ .approved ∧ ConfirmationStatus.expired ≠ .denied := by
    decide
  exact keeps_status (.inl h_status) fun _ => some now

/-- A confirmation that is cancelled is not decided. -/
theorem keeps_cancel (now : Time) (q : Confirmation → Bool) : Keeps id fun c =>
    if c.status = .pending ∧ q c then
      { c with status := .cancelled, resolvedAt := some now }
    else c where
  confirmationID c := by split <;> rfl
  browserInstanceID c := by split <;> rfl
  decided c h_decided _ := by
    split at h_decided
    · exact h_decided.elim (by rintro ⟨⟩) (by rintro ⟨⟩)
    · exact h_decided

end Confirmation

/-- The janitor decides nothing. -/
theorem Manager.keeps_expireConfirmations (m : Manager κ) (now : Time) (id : Option String) :
    ∃ f, Confirmation.Keeps id f ∧
      (m.expireConfirmations now).confirmations = m.confirmations.map f := by
  unfold expireConfirmations
  generalize m.confirmations.filter (·.overdue now) = cs
  induction cs generalizing m with
  | nil => exact ⟨_, .refl id, (List.map_id' _).symm⟩
  | cons c cs ih =>
    obtain ⟨f, h_keeps, h_rest⟩ := ih ((m.resolve now c.confirmationID
      .expired).finishAwaitingOperationLocked now c.operationID .failed
      (confirmationError "CONFIRMATION_EXPIRED" "confirmation expired" c))
    rw [confirmations_finishAwaiting] at h_rest
    refine ⟨_, h_keeps.comp (Confirmation.keeps_expired c.confirmationID now), ?_⟩
    rw [List.foldl_cons, h_rest, ← List.map_map]
    rfl

/-- **Commands and decisions.** The confirmations that are there keep what names them, and only
the one that the command is about is decided, or a new one comes first. -/
theorem Command.confirmations (m : Manager κ) (now : Time) (k : Command) :
    (∃ f, Confirmation.Keeps k.resolves f ∧
      (k.run m now).manager.confirmations = m.confirmations.map f) ∨
    ∃ c, k.confirmationID = some c.confirmationID ∧ c.status = .pending ∧
      (k.run m now).manager.confirmations = c :: m.confirmations := by
  have h_leaves := k.leaves m now
  generalize (k.run m now).manager = m', (k.run m now).cancelledQueues = queues at h_leaves ⊢
  cases h_leaves with
  | revoked => exact .inl ⟨_, Confirmation.keeps_cancel now _, rfl⟩
  | closed => exact .inl ⟨_, Confirmation.keeps_cancel now _, rfl⟩
  | stopped => exact .inl ⟨_, Confirmation.keeps_cancel now _, rfl⟩
  | cancelledWait id q rpcErr =>
    refine .inl ⟨_, Confirmation.keeps_cancel now q, ?_⟩
    exact congrArg (List.map _) (Manager.confirmations_finishAwaiting ..)
  -- the only way in which a confirmation is added
  | requested _ h_id h_pending => exact .inr ⟨_, h_id, h_pending, rfl⟩
  | answered _ h_keeps => exact .inl ⟨_, h_keeps, rfl⟩
  | granted _ _ h_resolves =>
    exact .inl ⟨_, Confirmation.keeps_status (.inr h_resolves) fun _ => some now, rfl⟩
  | @failed id operationID status _ _ h_resolves =>
    have h_status : (status ≠ .approved ∧ status ≠ .denied) ∨ k.resolves = some id := by
      refine h_resolves.imp_left ?_
      rintro rfl
      decide
    refine .inl ⟨_, Confirmation.keeps_status h_status fun _ => some now, ?_⟩
    exact Manager.confirmations_finishAwaiting ..
  | swept => exact .inl (Manager.keeps_expireConfirmations _ now k.resolves)
  | _ => exact .inl ⟨_, .refl _, (List.map_id' _).symm⟩

end BrowserControl.Core
