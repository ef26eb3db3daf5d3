import BrowserControl.Core.CommandEffects
import BrowserControl.Transition.Machine

/-!
# The table of leases

`LeaseTable.machine` runs the methods of the manager in any order and at any times. Its state
remembers the ids that leases were given, since an id is never given twice.

Where a lease of the table comes from is said once (`LeaseOrigin`, `Command.leaseOrigin`): it
was there before under the same tab, perhaps renewed or bound, or the command has just made it.
The invariant of the table follows, and so does that an id that has left the table never comes
back (`gone_next`), which is why a lease that is lost is lost for good.
-/

namespace BrowserControl.Core

open Encoding Protocol Transition

variable {κ : Type*} [DecidableEq κ]

/-! ### Where leases come from -/

/-- The leases that are left when one tab loses its own. -/
theorem Manager.lease_of_dropLease {m : Manager κ} {now : Time} {l₀ l : Lease}
    {id reason tabID : String} (h : (m.dropLease now l₀ id reason).manager.leases tabID = some l) :
    m.leases tabID = some l := by
  have h_leases : (m.dropLease now l₀ id reason).manager.leases =
      Function.update m.leases id none := rfl
  by_cases h_tab : tabID = id
  · rw [h_leases, h_tab, Function.update_self] at h
    contradiction
  · rwa [h_leases, Function.update_of_ne h_tab] at h

theorem Lease.Renews.refl (l : Lease) : l.Renews l := ⟨rfl, rfl, rfl, rfl, fun _ => rfl⟩

/-- Where the lease `l` of a tab comes from that is in the table after a command. -/
inductive LeaseOrigin (m : Manager κ) (k : Command) (tabID : String) (l : Lease) : Prop where
  | kept {l₀ : Lease} (h_lease : m.leases tabID = some l₀) (h : l₀.Renews l)
  | claimed {sessionID : String} {ttl : Duration} {force : Bool}
      (h_claim : k = .claimTab l.leaseID sessionID tabID ttl force) (h_tab : l.tabID = tabID)
      (h_revoked : l.revoked = false) (h_session : m.IsOpen l.sessionID)

namespace LeaseOrigin

variable {m : Manager κ} {k : Command} {tabID : String} {l : Lease}

omit [DecidableEq κ] in
/-- The lease stays. -/
theorem same (h : m.leases tabID = some l) : LeaseOrigin m k tabID l := .kept h (.refl l)

omit [DecidableEq κ] in
/-- The lease of one tab is replaced. -/
theorem of_update {id : String} {l' : Lease} {leases : String → Option Lease}
    (h_new : LeaseOrigin m k id l') (h_old : ∀ l, leases tabID = some l → m.leases tabID = some l)
    (h : Function.update leases id (some l') tabID = some l) : LeaseOrigin m k tabID l := by
  by_cases h_tab : tabID = id
  · subst h_tab
    rw [Function.update_self, Option.some_inj] at h
    exact h ▸ h_new
  · rw [Function.update_of_ne h_tab] at h
    exact .same (h_old l h)

omit [DecidableEq κ] in
/-- The lease is among those that stay. -/
theorem of_filter {p : Lease → Bool} (h : (m.leases tabID).filter p = some l) :
    LeaseOrigin m k tabID l := .same (Option.filter_eq_some_iff.mp h).1

omit [DecidableEq κ] in
/-- The lease is new, for an open session. -/
theorem of_new {now : Time} {id sessionID : String} {ttl : Duration} {force : Bool}
    {session : Session} (h_claim : k = .claimTab id sessionID tabID ttl force)
    (h_session : m.openSessionLocked sessionID = .ok session) :
    LeaseOrigin m k tabID (m.newLease now id sessionID tabID ttl) :=
  .claimed h_claim rfl rfl (Manager.isOpen_of_ok h_session)

end LeaseOrigin

/-- **Leases after a command.** A lease of the table was there before or is new. -/
theorem Command.leaseOrigin (m : Manager κ) (now : Time) (k : Command) {tabID : String}
    {l : Lease} (h : (k.run m now).manager.leases tabID = some l) :
    LeaseOrigin m k tabID l := by
  have h_leaves := k.leaves m now
  generalize (k.run m now).manager = m', (k.run m now).cancelledQueues = queues at h h_leaves
  -- a lease was there, or is made by a claim
  cases h_leaves with
  | renewed h_lease h_renews => exact .of_update (.kept h_lease h_renews) (fun _ => id) h
  | dropped => exact .same (Manager.lease_of_dropLease h)
  | claimed h_claim h_session =>
    exact .of_update (.of_new h_claim h_session) (fun _ => id) h
  | replaced h_claim h_session =>
    exact .of_update (.of_new h_claim h_session) (fun _ => Manager.lease_of_dropLease) h
  | revoked => exact .of_filter h
  | closed => exact .of_filter h
  | stopped => exact .of_filter h
  | cancelledWait =>
    have h_same := Manager.leases_finishAwaiting m now
    exact .same ((congrFun (h_same _ _ _) tabID).symm.trans h)
  | failed =>
    rw [Manager.leases_finishAwaiting] at h
    exact .same h
  | swept =>
    exact .of_filter ((congrFun (Manager.leases_expireConfirmations ..) tabID).symm.trans h)
  | _ => exact .same h

/-- The session of a lease that is in the table after a command is not closed by it. -/
theorem Command.isOpen (m : Manager κ) (now : Time) (k : Command) {tabID : String} {l : Lease}
    (h : (k.run m now).manager.leases tabID = some l) (h_open : m.IsOpen l.sessionID) :
    (k.run m now).manager.IsOpen l.sessionID := by
  rcases k.isOpen_or_idle m now h_open with h_still | h_idle
  · exact h_still
  · exact absurd rfl (h_idle.lease tabID l h)

/-! ### The machine -/

/-- A lease with this id is in the table. -/
def Manager.Holds (m : Manager κ) (leaseID : String) : Prop :=
  ∃ tabID l, m.leases tabID = some l ∧ l.leaseID = leaseID

/-- No call that names this lease succeeds. -/
def Manager.Refuses (m : Manager κ) (leaseID : String) : Prop :=
  ∀ now sessionID tabID,
    (m.validateLease now sessionID tabID leaseID).result ≠ none ∧
    (∀ ttl l, (m.renewLease now sessionID tabID leaseID ttl).result ≠ .ok l) ∧
    (∀ browserInstanceID l,
      (m.bindLeaseBrowser now sessionID tabID leaseID browserInstanceID).result ≠ .ok l) ∧
    ∀ reason l, (m.releaseTab now sessionID tabID leaseID reason).result ≠ .ok l

/-- A call succeeds only for a lease of the table. -/
theorem Manager.refuses_of_not_holds {m : Manager κ} {leaseID : String}
    (h : ¬ m.Holds leaseID) : m.Refuses leaseID := by
  intro now sessionID tabID
  -- no check succeeds for a lease that nobody holds
  have h_invalid : ∀ required l,
      (m.validLeaseLocked now sessionID tabID leaseID required).result ≠ .ok l := by
    intro required l h_ok
    have h_valid := (m.validLease now sessionID tabID leaseID required).of_ok h_ok
    exact h ⟨tabID, l, h_valid.1, h_valid.2.2.1⟩
  refine ⟨?_, ?_, ?_, ?_⟩
  · unfold validateLease
    cases h_result : (m.validLeaseLocked now sessionID tabID leaseID true).result with
    | error rpcErr => simp [h_result]
    | ok l => exact absurd h_result (h_invalid true l)
  · intro ttl l
    unfold renewLease
    cases h_result : (m.validLeaseLocked now sessionID tabID leaseID true).result with
    | error rpcErr => simp [h_result]
    | ok l' => exact absurd h_result (h_invalid true l')
  · intro browserInstanceID l
    unfold bindLeaseBrowser
    cases h_result : (m.validLeaseLocked now sessionID tabID leaseID true).result with
    | error rpcErr => split <;> simp [h_result]
    | ok l' => exact absurd h_result (h_invalid true l')
  · intro reason l
    unfold releaseTab
    cases h_result : (m.validLeaseLocked now sessionID tabID leaseID false).result with
    | error rpcErr => simp [h_result]
    | ok l' => exact absurd h_result (h_invalid false l')

/-- A lease that is bound is in the table, and names its Chrome instance. -/
theorem Manager.bindLeaseBrowser_ok {m : Manager κ} {now : Time}
    {sessionID tabID leaseID browserInstanceID : String} {l : Lease}
    (h : (m.bindLeaseBrowser now sessionID tabID leaseID browserInstanceID).result = .ok l) :
    (m.bindLeaseBrowser now sessionID tabID leaseID browserInstanceID).manager.leases tabID =
      some l ∧ l.browserInstanceID = browserInstanceID ∧ browserInstanceID ≠ "" := by
  unfold bindLeaseBrowser at h ⊢
  split at h
  · contradiction
  case isFalse h_ne =>
    rw [if_neg h_ne]
    dsimp only at h ⊢
    split at h
    case h_1 h_error => rw [h_error] at h; contradiction
    -- the lease was valid, and has the instance now
    case h_2 l₀ h_ok =>
      split at h
      · contradiction
      case isFalse h_bound =>
        rw [if_neg h_bound]
        obtain rfl := Except.ok.inj h
        exact ⟨Function.update_self .., rfl, h_ne⟩

namespace LeaseTable

/-- The manager, and the ids that leases were given so far. -/
structure State (κ : Type*) where
  manager : Manager κ
  issued : List String := []

/-- A method of the manager is called. -/
structure Event where
  command : Command
  now : Time

/-- New ids were never used before. -/
def enabled (s : State κ) (e : Event) : Prop :=
  e.command.Fresh s.manager ∧ ∀ id ∈ e.command.leaseID.toList, id ∉ s.issued

instance (s : State κ) (e : Event) : Decidable (enabled s e) :=
  inferInstanceAs (Decidable (_ ∧ _))

/-- A command is run, and the id that it may give to a lease is used up. -/
def next (s : State κ) (e : Event) : State κ where
  manager := (e.command.run s.manager e.now).manager
  issued := e.command.leaseID.toList ++ s.issued

/-- The methods of the manager in any order, each at any time. -/
def machine (κ : Type*) [DecidableEq κ] (leaseTTL : Duration) : Machine (State κ) Event where
  init := { manager := .new leaseTTL }
  enabled := enabled
  next := next

instance (leaseTTL : Duration) (s : State κ) (e : Event) :
    Decidable ((machine κ leaseTTL).enabled s e) := inferInstanceAs (Decidable (enabled s e))

omit [DecidableEq κ] in
/-- The id of a new lease has not been used. -/
theorem not_issued {s : State κ} {e : Event} {leaseID : String} (h : enabled s e)
    (h_id : e.command.leaseID = some leaseID) : leaseID ∉ s.issued :=
  h.2 leaseID (Option.mem_toList.mpr h_id)

/-- The invariant of the table. -/
structure Inv (s : State κ) : Prop where
  tab : ∀ tabID l, s.manager.leases tabID = some l → l.tabID = tabID
  revoked : ∀ tabID l, s.manager.leases tabID = some l → l.revoked = false
  session : ∀ tabID l, s.manager.leases tabID = some l → s.manager.IsOpen l.sessionID
  issued : ∀ leaseID, s.manager.Holds leaseID → leaseID ∈ s.issued
  /-- An id belongs to one lease. -/
  unique : ∀ tabID tabID' l l', s.manager.leases tabID = some l →
    s.manager.leases tabID' = some l' → l.leaseID = l'.leaseID → tabID = tabID'

variable {leaseTTL : Duration} {s : State κ} {e : Event}

/-- A lease with an id that was given before was in the table before. -/
theorem kept_of_issued {leaseID tabID : String} {l : Lease} (h_enabled : enabled s e)
    (h_issued : leaseID ∈ s.issued) (hl : (next s e).manager.leases tabID = some l)
    (h_id : l.leaseID = leaseID) :
    ∃ l₀, s.manager.leases tabID = some l₀ ∧ l₀.Renews l := by
  cases e.command.leaseOrigin s.manager e.now hl with
  | kept h_lease h_renews => exact ⟨_, h_lease, h_renews⟩
  | claimed h_claim =>
    have h_fresh : e.command.leaseID = some l.leaseID := by rw [h_claim]; rfl
    exact absurd (h_id ▸ h_issued) (not_issued h_enabled h_fresh)

/-- Every command keeps the table in order. -/
theorem Inv.next (h : Inv s) (h_enabled : enabled s e) : Inv (next s e) where
  -- A lease of the new state is one of before, renewed perhaps, or the one that was just claimed.
  tab tabID l hl := by
    cases e.command.leaseOrigin s.manager e.now hl with
    | kept h_lease h_renews => exact h_renews.tabID.trans (h.tab tabID _ h_lease)
    | claimed _ h_tab => exact h_tab
  revoked tabID l hl := by
    cases e.command.leaseOrigin s.manager e.now hl with
    | kept h_lease h_renews => exact h_renews.revoked.trans (h.revoked tabID _ h_lease)
    | claimed _ _ h_revoked => exact h_revoked
  session tabID l hl := by
    refine e.command.isOpen s.manager e.now hl ?_
    cases e.command.leaseOrigin s.manager e.now hl with
    | kept h_lease h_renews => exact h_renews.sessionID ▸ h.session tabID _ h_lease
    | claimed _ _ _ h_session => exact h_session
  issued leaseID hl := by
    obtain ⟨tabID, l, hl, h_id⟩ := hl
    refine List.mem_append.mpr ?_
    cases e.command.leaseOrigin s.manager e.now hl with
    | kept h_lease h_renews =>
      exact .inr (h.issued leaseID ⟨tabID, _, h_lease, h_renews.leaseID.symm.trans h_id⟩)
    | claimed h_claim =>
      rw [h_claim, ← h_id]
      exact .inl (Option.mem_toList.mpr rfl)
  unique tabID tabID' l l' hl hl' h_id := by
    cases e.command.leaseOrigin s.manager e.now hl with
    | kept h_lease h_renews =>
      have h_issued := h.issued l'.leaseID ⟨tabID, _, h_lease, h_renews.leaseID.symm.trans h_id⟩
      obtain ⟨l₀', h_lease', h_renews'⟩ := kept_of_issued h_enabled h_issued hl' rfl
      refine h.unique tabID tabID' _ _ h_lease h_lease' ?_
      exact h_renews.leaseID.symm.trans (h_id.trans h_renews'.leaseID)
    | claimed h_claim =>
      cases e.command.leaseOrigin s.manager e.now hl' with
      | kept h_lease' h_renews' =>
        have h_fresh : e.command.leaseID = some l'.leaseID := by rw [h_claim, ← h_id]; rfl
        have h_issued := h.issued l'.leaseID ⟨tabID', _, h_lease', h_renews'.leaseID.symm⟩
        exact absurd h_issued (not_issued h_enabled h_fresh)
      | claimed h_claim' =>
        exact (Command.claimTab.inj (h_claim.symm.trans h_claim')).2.2.1

/-- The table is in order in every run. -/
theorem inv (h : (machine κ leaseTTL).Reachable s) : Inv s := by
  refine h.induction ?_ fun s e _ h_inv h_enabled => h_inv.next h_enabled
  exact ⟨by rintro _ _ ⟨⟩, by rintro _ _ ⟨⟩, by rintro _ _ ⟨⟩, by rintro _ ⟨_, _, ⟨⟩, _⟩,
    by rintro _ _ _ _ ⟨⟩⟩

/-! ### What happens to one id -/

/-- An id that has left the table does not come back. -/
theorem gone_next {leaseID : String} (h_enabled : enabled s e) (h_issued : leaseID ∈ s.issued)
    (h_gone : ¬ s.manager.Holds leaseID) : ¬ (next s e).manager.Holds leaseID := by
  rintro ⟨tabID, l, hl, h_id⟩
  obtain ⟨l₀, h_lease, h_renews⟩ := kept_of_issued h_enabled h_issued hl h_id
  exact h_gone ⟨tabID, l₀, h_lease, h_renews.leaseID.symm.trans h_id⟩

/-- A lease with this id is bound to this Chrome instance, if there is one. -/
def Bound (m : Manager κ) (leaseID browserInstanceID : String) : Prop :=
  ∀ tabID l, m.leases tabID = some l → l.leaseID = leaseID →
    l.browserInstanceID = browserInstanceID

/-- A lease that is bound stays bound to the same instance. -/
theorem Bound.next {leaseID browserInstanceID : String} (h : Bound s.manager leaseID
    browserInstanceID) (h_ne : browserInstanceID ≠ "") (h_enabled : enabled s e)
    (h_issued : leaseID ∈ s.issued) : Bound (next s e).manager leaseID browserInstanceID := by
  intro tabID l hl h_id
  obtain ⟨l₀, h_lease, h_renews⟩ := kept_of_issued h_enabled h_issued hl h_id
  have h_bound := h tabID l₀ h_lease (h_renews.leaseID.symm.trans h_id)
  exact (h_renews.browser (h_bound ▸ h_ne)).trans h_bound

/-- An id that is used up stays so. -/
theorem issued_next {leaseID : String} (h : leaseID ∈ s.issued) :
    leaseID ∈ (next s e).issued := List.mem_append.mpr (.inr h)

/-- **The table of leases.** In every reachable state, whatever methods are called afterwards
and at whatever times: a lease of the table is stored under its own tab, is not revoked and
belongs to an open session; the Chrome instance it is bound to never changes; and once its id
has left the table, no call with that id succeeds any more. -/
theorem leaseTable (h : (machine κ leaseTTL).Reachable s) :
    (∀ tabID l, s.manager.leases tabID = some l →
      l.tabID = tabID ∧ l.revoked = false ∧ s.manager.IsOpen l.sessionID) ∧
    (∀ es, (machine κ leaseTTL).Runs s es → ∀ tabID tabID' l l',
      s.manager.leases tabID = some l →
      ((machine κ leaseTTL).exec s es).manager.leases tabID' = some l' →
      l'.leaseID = l.leaseID → l.browserInstanceID ≠ "" →
      l'.browserInstanceID = l.browserInstanceID) ∧
    ∀ leaseID, s.manager.Holds leaseID → ∀ es, (machine κ leaseTTL).Runs s es →
      ¬ ((machine κ leaseTTL).exec s es).manager.Holds leaseID →
      ∀ fs, (machine κ leaseTTL).Runs ((machine κ leaseTTL).exec s es) fs →
        ((machine κ leaseTTL).exec s (es ++ fs)).manager.Refuses leaseID := by
  have h_inv := inv h
  refine ⟨fun tabID l hl => ⟨h_inv.tab tabID l hl, h_inv.revoked tabID l hl,
    h_inv.session tabID l hl⟩, ?_, ?_⟩
  -- an id stands for one tab: it was issued once
  · intro es h_runs tabID tabID' l l' hl hl' h_id h_ne
    have h_stable := h_runs.stable (P := fun s => l.leaseID ∈ s.issued ∧
      Bound s.manager l.leaseID l.browserInstanceID) (Q := fun _ => True)
    refine (h_stable ?_ h ⟨h_inv.issued _ ⟨tabID, l, hl, rfl⟩, ?_⟩ (fun _ _ => trivial)).2 tabID'
      l' hl' h_id
    · rintro s e - - ⟨h_issued, h_bound⟩ h_enabled
      exact ⟨issued_next h_issued, h_bound.next h_ne h_enabled h_issued⟩
    · intro tab l₀ h_lease h_same
      have h_tab := h_inv.unique tab tabID l₀ l h_lease hl h_same
      rw [h_tab, hl, Option.some_inj] at h_lease
      rw [h_lease]
  -- a lease that is gone does not come back
  · intro leaseID h_holds es h_runs h_gone fs h_runs'
    refine Manager.refuses_of_not_holds ?_
    rw [Machine.exec_append]
    have h_issued := h_runs.stable (P := fun s => leaseID ∈ s.issued) (Q := fun _ => True)
      (fun s e _ _ h_issued _ => issued_next h_issued) h (h_inv.issued leaseID h_holds)
      (fun _ _ => trivial)
    have h_stable := h_runs'.stable (P := fun s => leaseID ∈ s.issued ∧ ¬ s.manager.Holds leaseID)
      (Q := fun _ => True)
    refine (h_stable ?_ (h.exec h_runs) ⟨h_issued, h_gone⟩ fun _ _ => trivial).2
    rintro s e - - ⟨h_mem, h_not⟩ h_enabled
    exact ⟨issued_next h_mem, gone_next h_enabled h_mem h_not⟩

/-- A tab is claimed and bound. -/
def held : List Event :=
  [⟨.openSession "ses_1" "" "", 0⟩, ⟨.claimTab "lease_1" "ses_1" "tab_7" 0 false, 0⟩,
    ⟨.bindLeaseBrowser "ses_1" "tab_7" "lease_1" "browser_1", 1⟩]

/-- A new session claims the tab after the lease is lost. -/
def claimedAgain : List Event :=
  [⟨.openSession "ses_2" "" "", 3⟩, ⟨.claimTab "lease_2" "ses_2" "tab_7" 0 false, 4⟩]

/-- After an emergency stop the lease is gone, also when the tab is claimed again. -/
theorem leaseTable_stopped :
    ((machine Unit 0).exec (machine Unit 0).init
      (held ++ ([⟨.stopAll "user-stop", 2⟩] ++ claimedAgain))).manager.Refuses "lease_1" := by
  have h_runs : (machine Unit 0).Runs (machine Unit 0).init held ∧
      (machine Unit 0).Runs ((machine Unit 0).exec (machine Unit 0).init held)
        ([⟨.stopAll "user-stop", 2⟩] ++ claimedAgain) ∧
      (((machine Unit 0).exec (machine Unit 0).init held).manager.leases "tab_7").map
        (·.leaseID) = some "lease_1" := by decide +kernel
  rw [Machine.exec_append]
  obtain ⟨l, h_lease, h_id⟩ := Option.map_eq_some_iff.mp h_runs.2.2
  have h_stop := (Machine.runs_append _ _ _ _).mp h_runs.2.1
  refine (leaseTable h_runs.1.reachable).2.2 "lease_1" ⟨"tab_7", l, h_lease, h_id⟩ _ h_stop.1 ?_ _
    h_stop.2
  rintro ⟨tabID, l', h_lease', -⟩
  exact Bool.false_ne_true (Option.filter_eq_some_iff.mp h_lease').2

end LeaseTable

end BrowserControl.Core
