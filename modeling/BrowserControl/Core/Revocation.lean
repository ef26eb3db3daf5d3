import BrowserControl.Core.OperationsInvariant

/-!
# What the loss of a lease takes with it

`Revocation.machine` puts the manager with its operations beside the tab queues. The critical
sections of the manager cancel the queues they say they cancel (`Locked.cancelledQueues`)
while they hold the lock, and nobody else cancels a queue.

A lease leaves the table in many places. In each of them the operations of its session on its
tab are cancelled, in one walk over the operations or another (`Command.cancels`), and the
queue of the tab is (`Command.leaseStep`).
-/

namespace BrowserControl.Core

open Encoding Protocol Transition

variable {κ : Type*} [DecidableEq κ]

/-! ### Cancelled operations -/

/-- A run has its context cancelled, and a wait for a confirmation is over. -/
structure Operation.Cancels (op op' : Operation) : Prop where
  running : op.status = .running → op'.cancelled = true
  awaiting : op.status = .awaitingConfirmation → op'.status = .cancelled

/-- A cancelled context stays cancelled. -/
theorem Operation.Evolves.cancelled {op op' : Operation} (h : op.Evolves op')
    (h_cancelled : op.cancelled = true) : op'.cancelled = true := by
  cases h with
  | same => exact h_cancelled
  | cancel => rfl
  | finish => exact h_cancelled

/-- What else a critical section does to a record does not undo it. -/
theorem Operation.Cancels.evolves {op op' op'' : Operation} (h : op.Cancels op')
    (h' : op'.Evolves op'') : op.Cancels op'' where
  running h_running := h'.cancelled (h.running h_running)
  awaiting h_awaiting := by
    have h_status := h.awaiting h_awaiting
    rw [h'.settled (by simp [h_status]) (by simp [h_status])]
    exact h_status

namespace Manager

/-- A record of a tab that is taken away is cancelled. -/
theorem cancels_cancelRecord (now : Time) (reason : String) (op : Operation) :
    op.Cancels (cancelRecord now reason op) where
  running h := by rw [cancelRecord, if_pos h]
  awaiting h := by
    have h_not : op.status ≠ .running := by simp [h]
    rw [cancelRecord, if_neg h_not, Operation.finishAwaiting, if_pos h]

variable {m : Manager κ} {now : Time} {r : κ} {reason : String}

/-- The walk over all operations. -/
theorem cancels_cancelOperationsLocked (h : m.Registered r) {sessionID tabID : String}
    (h_session : sessionID = "" ∨ (m.records r).sessionID = sessionID)
    (h_tab : tabID = "" ∨ (m.records r).tabID = tabID) :
    (m.records r).Cancels
      ((m.cancelOperationsLocked now sessionID tabID reason).records r) := by
  have h_record : (m.cancelOperationsLocked now sessionID tabID reason).records r =
      cancelRecord now reason (m.records r) := if_pos ⟨h, h_session, h_tab⟩
  rw [h_record]
  exact cancels_cancelRecord now reason _

/-- A record of a lease that is dropped is cancelled. -/
theorem cancels_dropLease (h : m.Registered r) {l : Lease} {tabID : String}
    (h_session : (m.records r).sessionID = l.sessionID) (h_tab : (m.records r).tabID = tabID) :
    (m.records r).Cancels ((m.dropLease now l tabID reason).manager.records r) :=
  cancels_cancelOperationsLocked (m := { m with leases := Function.update m.leases tabID none }) h
    (.inr h_session) (.inr h_tab)

/-- The walk over the selected leases. -/
theorem cancels_cancelLeaseOperations (now : Time) (reason : String) (h : m.Registered r)
    {p : Lease → Bool} {l : Lease}
    (h_lease : m.leases (m.records r).tabID = some l) (h_p : p l = true)
    (h_session : (m.records r).sessionID = l.sessionID) :
    (m.records r).Cancels ((m.cancelLeaseOperations now p reason).records r) := by
  have h_select : m.selectLeases p (m.records r).tabID = some l :=
    Option.filter_eq_some_iff.mpr ⟨h_lease, h_p⟩
  have h_record : (m.cancelLeaseOperations now p reason).records r =
      cancelRecord now reason (m.records r) := by
    simp only [cancelLeaseOperations, h_select]
    exact if_pos ⟨h, h_session⟩
  rw [h_record]
  exact cancels_cancelRecord now reason _

end Manager

/-- The lease is not in the table of leases any more. -/
def Manager.Lost (m : Manager κ) (tabID : String) (l : Lease) : Prop :=
  ∀ l', m.leases tabID = some l' → l'.leaseID ≠ l.leaseID

/-- **The operations of a lost lease.** A command that takes a lease from the table cancels
the operations of its session on its tab. -/
theorem Command.cancels (m : Manager κ) (now : Time) (k : Command) {tabID : String} {l : Lease}
    (h_lease : m.leases tabID = some l) (h_lost : (k.run m now).manager.Lost tabID l) {r : κ}
    (h : m.Registered r) (h_session : (m.records r).sessionID = l.sessionID)
    (h_tab : (m.records r).tabID = tabID) :
    (m.records r).Cancels ((k.run m now).manager.records r) := by
  have h_leaves := k.leaves m now
  generalize (k.run m now).manager = m', (k.run m now).cancelledQueues = queues
    at h_lost h_leaves ⊢
  subst h_tab
  -- A command that leaves the lease where it was has not taken it.
  have h_same : m'.leases (m.records r).tabID ≠ m.leases (m.records r).tabID :=
    fun h_eq => h_lost l (h_eq.trans h_lease) rfl
  cases h_leaves with
  -- a renewed lease has the same id, so it is not lost
  | @renewed tabID l₀ l' h_lease₀ h_renews =>
    exfalso
    by_cases h_other : (m.records r).tabID = tabID
    · rw [← h_other, h_lease, Option.some_inj] at h_lease₀
      refine h_lost l' ?_ (h_lease₀ ▸ h_renews.leaseID)
      show Function.update m.leases tabID (some l') _ = _
      rw [h_other, Function.update_self]
    · exact h_same (Function.update_of_ne h_other ..)
  -- dropping a lease cancels the operations of its session on its tab
  | @dropped tabID l₀ h_lease₀ reason =>
    by_cases h_other : (m.records r).tabID = tabID
    · rw [← h_other, h_lease, Option.some_inj] at h_lease₀
      exact Manager.cancels_dropLease h (h_lease₀ ▸ h_session) h_other
    · exact (h_same (Function.update_of_ne h_other ..)).elim
  | @claimed _ _ tabID _ _ _ _ _ h_none =>
    have h_other : (m.records r).tabID ≠ tabID := by
      rintro h_eq
      rw [← h_eq, h_lease] at h_none
      contradiction
    exact (h_same (Function.update_of_ne h_other ..)).elim
  | @replaced _ _ tabID _ _ _ l₀ _ _ h_lease₀ reason =>
    by_cases h_other : (m.records r).tabID = tabID
    · rw [← h_other, h_lease, Option.some_inj] at h_lease₀
      exact Manager.cancels_dropLease h (h_lease₀ ▸ h_session) h_other
    · refine (h_same ?_).elim
      exact (Function.update_of_ne h_other ..).trans (Function.update_of_ne h_other ..)
  -- where many leases go, this one is among them
  | revoked p q reason =>
    have h_p : p l = true := by
      by_contra h_not
      refine h_same ?_
      show (m.leases _).filter _ = _
      rw [h_lease, Option.filter_some, if_pos (by simp [h_not])]
    exact Manager.cancels_cancelLeaseOperations now reason h h_lease h_p h_session
  | @closed id session h_id h_open reason =>
    have h_p : l.sessionID = id := by
      by_contra h_not
      refine h_same ?_
      show (m.leases _).filter _ = _
      rw [h_lease, Option.filter_some, if_pos (by simp [h_not])]
    exact Manager.cancels_cancelOperationsLocked
      (m := { m with sessions := Function.update m.sessions id (some (session.close now)) }
        |>.removeLeases fun l => l.sessionID = id) h (.inr (h_session.trans h_p)) (.inl rfl)
  | stopped reason =>
    exact Manager.cancels_cancelOperationsLocked
      (m := ({ m with sessions := fun id => (m.sessions id).map (Session.close now) }
        |>.removeLeases fun _ => true).cancelConfirmations now fun _ => true) h (.inl rfl)
      (.inl rfl)
  | cancelledWait => exact (h_same (congrFun (Manager.leases_finishAwaiting ..) _)).elim
  | failed => exact (h_same (congrFun (Manager.leases_finishAwaiting ..) _)).elim
  -- the janitor drops what has run out
  | swept =>
    have h_p : decide (l.expiresAt < now) = true := by
      by_contra h_not
      refine h_same ((congrFun (Manager.leases_expireConfirmations ..) _).trans ?_)
      show (m.leases _).filter _ = _
      rw [h_lease, Option.filter_some, if_pos (by simpa using h_not)]
    have h_cancels := Manager.cancels_cancelLeaseOperations now "lease expired"
      (p := fun l => decide (l.expiresAt < now)) h h_lease h_p h_session
    have h_frame := Manager.frame_expireConfirmations
      ((((m.cancelLeaseOperations now (fun l => decide (l.expiresAt < now))
        "lease expired").removeLeases fun l => decide (l.expiresAt < now)).purge
        now).expireArtifacts now) now
    exact h_cancels.evolves (h_frame.evolves r)
  | _ => exact (h_same rfl).elim

/-! ### The machine -/

namespace Revocation

/-- The manager with its operations, and the queue of each tab. -/
structure State (κ ι : Type*) where
  operations : Operations.State κ
  queues : String → TabQueue.State ι Json := fun _ => {}

/-- A step of the manager or of a call of it, or of a call on the queue of a tab. -/
inductive Event (κ ι : Type*) where
  | operation (e : Operations.Event κ)
  | queue (tabID : String) (e : TabQueue.Event ι Json)

variable {ι : Type*} [DecidableEq ι]

/-- Queues are cancelled by the manager only. -/
def enabled (s : State κ ι) : Event κ ι → Prop
  | .operation e => Operations.enabled s.operations e
  | .queue tabID e => ¬ (e matches .cancelAll _) ∧ TabQueue.enabled (s.queues tabID) e

instance (s : State κ ι) (e : Event κ ι) : Decidable (enabled s e) := by
  cases e <;> unfold enabled <;> infer_instance

/-- The queues that a step of the manager cancels. -/
def cancelledQueues (s : State κ ι) : Operations.Event κ → String → Option String
  | .command k now => (k.run s.operations.manager now).cancelledQueues
  | _ => fun _ => none

/-- The manager makes its step, and the queues that it names are cancelled. -/
def next (hash : String → String) (s : State κ ι) : Event κ ι → State κ ι
  | .operation e =>
    { operations := Operations.next hash s.operations e
      queues := fun tabID =>
        match cancelledQueues s e tabID with
        | some reason => (s.queues tabID).cancelAll reason
        | none => s.queues tabID }
  | .queue tabID e =>
    { s with queues := Function.update s.queues tabID (TabQueue.next (s.queues tabID) e) }

/-- Any number of `ExecuteOperation` and `RunTab` calls beside the methods of the manager. -/
def machine (κ ι : Type*) [DecidableEq κ] [DecidableEq ι] (hash : String → String)
    (leaseTTL : Duration) : Machine (State κ ι) (Event κ ι) where
  init := { operations := { manager := .new leaseTTL } }
  enabled := enabled
  next := next hash

instance (hash : String → String) (leaseTTL : Duration) (s : State κ ι) (e : Event κ ι) :
    Decidable ((machine κ ι hash leaseTTL).enabled s e) :=
  inferInstanceAs (Decidable (enabled s e))

/-- The steps of the manager and its calls are those of `Operations.machine`. -/
def operationsProjection (κ ι : Type*) [DecidableEq κ] [DecidableEq ι] (hash : String → String)
    (leaseTTL : Duration) :
    Projection (machine κ ι hash leaseTTL)
      (Operations.machine hash leaseTTL : Machine (Operations.State κ) (Operations.Event κ)) where
  state s := s.operations
  events _ e :=
    match e with
    | .operation e => [e]
    | .queue _ _ => []
  init := rfl
  runs s e _ _ h := by
    cases e with
    | operation e => exact ⟨h, trivial⟩
    | queue => trivial
  next s e _ _ _ := by cases e <;> rfl

variable {hash : String → String} {leaseTTL : Duration} {s : State κ ι} {e : Event κ ι}

/-- Only a command takes a lease from the table. -/
theorem command_of_lost {tabID : String} {l : Lease}
    (h_lease : s.operations.manager.leases tabID = some l)
    (h_lost : (next hash s e).operations.manager.Lost tabID l) :
    ∃ k now, e = .operation (.command k now) := by
  by_contra h_none
  rw [not_exists] at h_none
  refine h_lost l ?_ rfl
  cases e with
  | operation e =>
    have h_leases := Operations.leases_next hash s.operations
      fun k now h_eq => h_none k ⟨now, congrArg Event.operation h_eq⟩
    exact (congrFun h_leases tabID).trans h_lease
  | queue => exact h_lease

/-- The queue is cancelled: its generation is over and its waiters have failed. -/
structure Cancelled (q q' : TabQueue.State ι Json) : Prop where
  generation : q'.generation = q.generation + 1
  waiters : q'.waiters = []
  failed : ∀ c ∈ q.waiters, ∃ reason,
    (q'.waiter c).err = some (TabQueue.State.revoked reason) ∧ (q'.waiter c).ready = true

/-- A queue that is cancelled has a new generation and nobody who waits. -/
theorem cancelled_cancelAll (q : TabQueue.State ι Json) (reason : String) :
    Cancelled q (q.cancelAll reason) where
  generation := rfl
  waiters := rfl
  failed c hc := by
    have h_waiter : (q.cancelAll reason).waiter c =
        { q.waiter c with err := some (TabQueue.State.revoked reason), ready := true } :=
      if_pos hc
    rw [h_waiter]
    exact ⟨reason, rfl, rfl⟩

/-- **Losing a lease cancels its work.** A step that takes a lease from the table, whichever it
is, cancels the queue of its tab, and the operations of its session on its tab: those that run
have their context cancelled, and those that await a confirmation are over. -/
theorem revocation (h : (machine κ ι hash leaseTTL).Reachable s) {tabID : String} {l : Lease}
    (h_lease : s.operations.manager.leases tabID = some l)
    (h_lost : (next hash s e).operations.manager.Lost tabID l) :
    Cancelled (s.queues tabID) ((next hash s e).queues tabID) ∧
      ∀ id r, s.operations.manager.operations id = some r →
        (s.operations.manager.records r).sessionID = l.sessionID →
        (s.operations.manager.records r).tabID = tabID →
        (s.operations.manager.records r).Cancels
          ((next hash s e).operations.manager.records r) := by
  have h_inv : Operations.Inv hash s.operations :=
    Operations.Inv.reachable ((operationsProjection κ ι hash leaseTTL).reachable h)
  obtain ⟨k, now, rfl⟩ := command_of_lost h_lease h_lost
  constructor
  -- the queue of the tab is cancelled by the command that took the lease
  · have h_step := k.leaseStep s.operations.manager now tabID
    rw [h_lease] at h_step
    obtain ⟨reason, h_queue⟩ := Option.ne_none_iff_exists'.mp (h_step.removed h_lost)
    have h_next : (next hash s (.operation (.command k now))).queues tabID =
        (s.queues tabID).cancelAll reason := by
      simp only [next, cancelledQueues, h_queue]
    rw [h_next]
    exact cancelled_cancelAll _ reason
  -- and each operation of the lease that was not done
  · intro id r h_bound h_session h_tab
    have h_registered : s.operations.manager.Registered r := by
      obtain ⟨h_id, h_record⟩ := h_inv.bound id r h_bound
      rw [Manager.Registered, ((h_inv.describes r h_record).1).id, h_id]
      exact h_bound
    exact k.cancels s.operations.manager now h_lease h_lost h_registered h_session h_tab

/-- A tab is claimed, an operation on it is registered, and of two calls on its queue one
waits. -/
def busy : List (Event Unit Bool) :=
  [.operation (.command (.openSession "ses_1" "" "") 0),
    .operation (.command (.claimTab "lease_1" "ses_1" "tab_7" 0 false) 0),
    .operation (.execute () "ses_1" "tab_7" "op_1" .empty 1),
    .queue "tab_7" (.enter false), .queue "tab_7" (.enter true)]

/-- The state after `busy`. -/
def busyState : State Unit Bool := (machine Unit Bool id 0).exec (machine Unit Bool id 0).init busy

/-- The janitor finds the lease expired: the waiting call fails and the run is cancelled. -/
theorem revocation_expired :
    Cancelled (busyState.queues "tab_7")
      ((next id busyState (.operation (.command .janitor minute))).queues "tab_7") ∧
      ((next id busyState (.operation (.command .janitor minute))).operations.manager.records
        ()).cancelled = true := by
  have h_runs : (machine Unit Bool id 0).Runs (machine Unit Bool id 0).init busy ∧
      (busyState.operations.manager.leases "tab_7").map
        (fun l => (l.leaseID, l.sessionID)) = some ("lease_1", "ses_1") ∧
      ((next id busyState (.operation (.command .janitor minute))).operations.manager.leases
        "tab_7").isNone = true ∧
      busyState.operations.manager.operations "op_1" = some () ∧
      (busyState.operations.manager.records ()).sessionID = "ses_1" ∧
      (busyState.operations.manager.records ()).tabID = "tab_7" ∧
      (busyState.operations.manager.records ()).status = .running := by decide +kernel
  obtain ⟨h_busy, h_map, h_gone, h_bound, h_session, h_tab, h_running⟩ := h_runs
  -- the lease before the sweep, which is gone after it
  obtain ⟨l, h_lease, h_l⟩ := Option.map_eq_some_iff.mp h_map
  have h_lost : (next id busyState
      (.operation (.command .janitor minute))).operations.manager.Lost "tab_7" l := by
    intro l' h_l'
    rw [Option.isNone_iff_eq_none.mp h_gone] at h_l'
    contradiction
  obtain ⟨h_queue, h_operations⟩ := revocation h_busy.reachable h_lease h_lost
  have h_owner : l.sessionID = "ses_1" := (Prod.mk.inj h_l).2
  exact ⟨h_queue,
    (h_operations "op_1" () h_bound (h_session.trans h_owner.symm) h_tab).running h_running⟩

end Revocation

end BrowserControl.Core
