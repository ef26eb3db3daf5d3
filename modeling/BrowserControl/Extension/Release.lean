import BrowserControl.Extension.Steps

/-!
# A release ends its own claim

A handler that ends control over a tab has looked at the claim on the tab before it waits for
Chrome: `tab.release`, `stopSession` and the release button found it, and a `tab.claim` that fails
has set it. When it goes on, it releases the tab whatever its claim is by then. So the claim of
somebody else is ended if it was set in between (`not_endsOwnClaim_takenOver`).

`Handler.ends` says on behalf of which leases a handler is still to end control over a tab. The
claims that are ended are the right ones as long as no `tab.claim` for another lease comes while
there is such a handler, and no `tab.claim` fails once its tab belongs to another lease
(`Unchallenged`). Then the claim on a tab, if it has one, is always the one that the handlers are
about to end (`EndsMine`).
-/

namespace BrowserControl.Extension

open Encoding Transition

variable {ρ : Type*}

/-! ### What is still to be ended -/

/-- `tab.claim` has failed, and its claim or the debugger is still to be taken away. -/
def ClaimPhase.ends : ClaimPhase → Bool
  | .unwinding | .detaching | .failing | .releasing => true
  | _ => false

/-- The claim is still to be taken away. -/
def ReleasePhase.ends : ReleasePhase → Bool
  | .detaching | .removing => true
  | _ => false

/-- The leases on behalf of which the handler is still to end control over the tab. -/
def Handler.ends : Handler → ℕ → List String
  | .claim tab leaseID phase, n => if tab.chromeTabID = n ∧ phase.ends then [leaseID] else []
  | .release tasks, n =>
    (tasks.filter fun task => task.tab.chromeTabID = n && task.phase.ends).map (·.leaseID)
  | .popup tab leaseID, n => if tab.chromeTabID = n then leaseID.toList else []
  | _, _ => []

/-- The claim on the tab, if there is one, is for this lease. -/
def Control.Mine (c : Control) (n : ℕ) (leaseID : String) : Prop :=
  ∀ claim ∈ c.claimOf n, claim.leaseID = leaseID

instance (c : Control) (n : ℕ) (leaseID : String) : Decidable (c.Mine n leaseID) :=
  inferInstanceAs (Decidable (∀ claim ∈ c.claimOf n, claim.leaseID = leaseID))

/-- Whoever makes the call on behalf of a lease does not take the claim or the debugger from
another lease. -/
def Op.EndsOwn (c : Control) : Op → Prop
  | .release tabID (some leaseID) => ∀ n, c.handleOf n = some tabID → c.Mine n leaseID
  | .detach n (some leaseID) => c.Mine n leaseID
  | _ => True

/-! ### Runs in which no claim is set or fails at the wrong time -/

/-- A claim is set only if nobody is about to end control over the tab on behalf of another
lease. -/
def Handler.Undisturbed (s : State ρ) : Handler → Prop
  | .claim tab leaseID _ => ∀ r, ∀ l ∈ (s.handlers r).ends tab.chromeTabID, l = leaseID
  | _ => True

/-- When `tab.claim` fails, its tab does not belong to another lease. -/
def Handler.FailsAlone (c : Control) (o : Settled) : Handler → Prop
  | .claim tab leaseID phase => phase.ends = false →
    (claimStep c tab leaseID phase o).1.any ClaimPhase.ends → c.Mine tab.chromeTabID leaseID
  | _ => True

instance [Fintype ρ] (s : State ρ) : ∀ h : Handler, Decidable (h.Undisturbed s)
  | .claim tab leaseID _ => inferInstanceAs
    (Decidable (∀ r, ∀ l ∈ (s.handlers r).ends tab.chromeTabID, l = leaseID))
  | .outside | .settled | .release _ | .popup .. | .stopAll _ => inferInstanceAs (Decidable True)

instance (c : Control) (o : Settled) : ∀ h : Handler, Decidable (h.FailsAlone c o)
  | .claim tab leaseID phase => inferInstanceAs (Decidable (phase.ends = false →
    (claimStep c tab leaseID phase o).1.any ClaimPhase.ends → c.Mine tab.chromeTabID leaseID))
  | .outside | .settled | .release _ | .popup .. | .stopAll _ => inferInstanceAs (Decidable True)

/-- A step in a run in which nobody loses a claim to a handler that was not meant for it. -/
def Unchallenged (s : State ρ) : Event ρ → Prop
  | .tabClaim _ params => (tabClaim s.control.registry params).1.Undisturbed s
  | .settle r o => (s.handlers r).FailsAlone s.control o
  | e => Unused s e

instance [Fintype ρ] (s : State ρ) : ∀ e, Decidable (Unchallenged s e)
  | .tabClaim _ params =>
    inferInstanceAs (Decidable ((tabClaim s.control.registry params).1.Undisturbed s))
  | .settle r o => inferInstanceAs (Decidable ((s.handlers r).FailsAlone s.control o))
  | .tabRelease r params => inferInstanceAs (Decidable (Unused s (.tabRelease r params)))
  | .browserStop r params => inferInstanceAs (Decidable (Unused s (.browserStop r params)))
  | .popupRelease r params => inferInstanceAs (Decidable (Unused s (.popupRelease r params)))
  | .stopAll r => inferInstanceAs (Decidable (Unused s (.stopAll r)))
  | .settleTask r n o => inferInstanceAs (Decidable (Unused s (.settleTask r n o)))
  | .ensure n handle owned => inferInstanceAs (Decidable (Unused s (.ensure n handle owned)))
  | .committed n => inferInstanceAs (Decidable (Unused s (.committed n)))
  | .removed n => inferInstanceAs (Decidable (Unused s (.removed n)))
  | .debuggerDetached n => inferInstanceAs (Decidable (Unused s (.debuggerDetached n)))

/-- The condition says that a number is used once. -/
theorem Unchallenged.unused {s : State ρ} {e : Event ρ} (h : Unchallenged s e) : Unused s e := by
  cases e with
  | tabClaim | settle => trivial
  | _ => exact h

/-! ### Where a claim comes from -/

namespace Control

variable {c : Control} {n : ℕ}

/-- A claim that is there after a call was there before, or was set by the call. -/
theorem claimOf_of_apply {op : Op} {claim : Claim} (h : (c.apply op).claimOf n = some claim) :
    c.claimOf n = some claim ∨ ∃ tabID sessionID leaseID force,
      op = .claim tabID sessionID leaseID force ∧ c.handleOf n = some tabID ∧
        claim = { sessionID, leaseID } := by
  cases op with
  | claim tabID sessionID leaseID force =>
    cases h_claim : c.registry.claim tabID sessionID leaseID force with
    | error =>
      left
      simpa only [apply, h_claim] using h
    | ok result =>
      obtain ⟨R, state⟩ := result
      rw [claimOf_claim c n h_claim] at h
      split_ifs at h with h_handle
      · exact .inr ⟨tabID, sessionID, leaseID, force, rfl, h_handle, (Option.some_inj.mp h).symm⟩
      · exact .inl h
  -- A claim can only be taken off by these.
  | release =>
    rw [claimOf_release] at h
    split_ifs at h
    exact .inl h
  | releaseAll =>
    rw [claimOf_releaseAll] at h
    cases h
  | attach | detach | detachAll | onDetach => exact .inl h
  | ensure =>
    rw [claimOf_ensure] at h
    exact .inl h
  | noteNavigation =>
    rw [claimOf_noteNavigation] at h
    exact .inl h
  | remove =>
    rw [claimOf_remove] at h
    split_ifs at h
    exact .inl h

/-- Calls other than `claim` set no claim. -/
theorem claimOf_of_run {ops : List Op} {claim : Claim}
    (h_ops : ∀ op ∈ ops, op.setsClaim = false)
    (h : (c.run ops).claimOf n = some claim) : c.claimOf n = some claim := by
  induction ops generalizing c with
  | nil => exact h
  | cons op ops ih =>
    have h_rest : (c.apply op).claimOf n = some claim :=
      ih (fun op h_mem => h_ops op (.tail _ h_mem)) h
    rcases claimOf_of_apply h_rest with h_old | ⟨_, _, _, _, rfl, -⟩
    · exact h_old
    · cases h_ops _ (.head _)

/-- What is the claim of a lease stays its claim until another one is set. -/
theorem Mine.run {ops : List Op} {leaseID : String} (h : c.Mine n leaseID)
    (h_ops : ∀ op ∈ ops, op.setsClaim = false) :
    (c.run ops).Mine n leaseID := by
  intro claim h_claim
  exact h claim (claimOf_of_run h_ops h_claim)

/-- A registered state has the claim on its tab. -/
theorem mine_of_fromHandle {state : TabState} {claim : Claim}
    (h : c.registry.fromHandle state.tabID = .ok state) (h_claim : state.claim = some claim) :
    c.Mine state.chromeTabID claim.leaseID := by
  intro claim' h_claim'
  have h_eq : c.claimOf state.chromeTabID = state.claim := TabRegistry.claimOf_of_fromHandle h
  rw [h_eq, h_claim] at h_claim'
  rw [Option.some_inj.mp h_claim']

/-- A state that a handler holds has the claim on its tab, if the tab has one. -/
theorem mine_of_holds {tab : Held} {state : TabState} {claim : Claim} (h : Holds c tab)
    (h_object : c.registry.objects tab.tabID = some state) (h_claim : state.claim = some claim) :
    c.Mine tab.chromeTabID claim.leaseID := by
  intro claim' h_claim'
  cases h_index : c.handleOf tab.chromeTabID with
  | none =>
    rw [claimOf_of_handleOf_none h_index] at h_claim'
    cases h_claim'
  | some tabID =>
    -- The handle names the tab that is held.
    obtain rfl := h.current tabID h_index
    obtain ⟨state', h_get, h_chrome, -⟩ := TabRegistry.fromHandle_of_byChromeID h_index
    have h_object' := (TabRegistry.fromHandle_ok h_get).2
    rw [h_object] at h_object'
    obtain rfl := Option.some_inj.mp h_object'
    have h_eq : c.claimOf state.chromeTabID = state.claim := TabRegistry.claimOf_of_fromHandle h_get
    rw [← h_chrome, h_eq, h_claim] at h_claim'
    rw [Option.some_inj.mp h_claim']

end Control

/-! ### What ends control -/

section

variable {c : Control} {ops : List Op} {n : ℕ} {tabID : String}

/-- A claim is gone after some calls if one of them releases it. -/
theorem Control.ended_by (h_handle : c.handleOf n = some tabID) (h_claim : (c.claimOf n).isSome)
    (h_gone : (c.run ops).claimOf n = none) :
    .releaseAll ∈ ops ∨ .remove n ∈ ops ∨ ∃ leaseID, .release tabID leaseID ∈ ops := by
  induction ops generalizing c with
  | nil =>
    rw [show c.claimOf n = none from h_gone] at h_claim
    cases h_claim
  | cons op ops ih =>
    -- if the operation leaves the claim, one of the later ones ends it
    have h_later (h_handle' : (c.apply op).handleOf n = some tabID)
        (h_claim' : ((c.apply op).claimOf n).isSome) :
        .releaseAll ∈ op :: ops ∨ .remove n ∈ op :: ops ∨
          ∃ leaseID, .release tabID leaseID ∈ op :: ops := by
      rcases ih h_handle' h_claim' h_gone with h | h | ⟨leaseID, h⟩
      · exact .inl (.tail _ h)
      · exact .inr (.inl (.tail _ h))
      · exact .inr (.inr ⟨leaseID, .tail _ h⟩)
    cases op with
    | releaseAll => exact .inl (.head _)
    | release tabID' leaseID =>
      by_cases h_eq : tabID' = tabID
      · subst h_eq
        exact .inr (.inr ⟨leaseID, .head _⟩)
      · have h_ne : c.handleOf n ≠ some tabID' := by
          rw [h_handle]
          exact fun h => h_eq (Option.some_inj.mp h).symm
        refine h_later (by rw [handleOf_release, h_handle]) ?_
        rw [claimOf_release, if_neg h_ne]
        exact h_claim
    | remove m =>
      by_cases h_eq : n = m
      · subst h_eq
        exact .inr (.inl (.head _))
      · refine h_later (by rw [handleOf_remove, if_neg h_eq, h_handle]) ?_
        rw [claimOf_remove, if_neg h_eq]
        exact h_claim
    -- another claim of the tab ends the old one as `force` allows it
    | claim tabID' sessionID leaseID force =>
      refine h_later (by rw [handleOf_claim, h_handle]) ?_
      cases h_ok : c.registry.claim tabID' sessionID leaseID force with
      | error => simpa only [apply, h_ok] using h_claim
      | ok result =>
        rw [claimOf_claim c n h_ok]
        split_ifs
        · rfl
        · exact h_claim
    | ensure m handle owned =>
      refine h_later ?_ (by rw [claimOf_ensure]; exact h_claim)
      rcases handleOf_ensure c n m handle owned with h | ⟨-, h, -⟩
      · rw [h, h_handle]
      · rw [h_handle] at h
        cases h
    | noteNavigation m =>
      exact h_later (by rw [handleOf_noteNavigation, h_handle])
        (by rw [claimOf_noteNavigation]; exact h_claim)
    | attach | detach | detachAll | onDetach => exact h_later h_handle h_claim

/-- The debugger is gone after some calls if one of them detaches it. -/
theorem Control.detached_by (h_attached : n ∈ c.states) (h_gone : n ∉ (c.run ops).states) :
    .detachAll ∈ ops ∨ .onDetach n ∈ ops ∨ ∃ leaseID, .detach n leaseID ∈ ops := by
  induction ops generalizing c with
  | nil => exact absurd h_attached h_gone
  | cons op ops ih =>
    -- if the operation leaves the tab attached, a later one detaches it
    have h_later (h_attached' : n ∈ (c.apply op).states) :
        .detachAll ∈ op :: ops ∨ .onDetach n ∈ op :: ops ∨
          ∃ leaseID, .detach n leaseID ∈ op :: ops := by
      rcases ih h_attached' h_gone with h | h | ⟨leaseID, h⟩
      · exact .inl (.tail _ h)
      · exact .inr (.inl (.tail _ h))
      · exact .inr (.inr ⟨leaseID, .tail _ h⟩)
    cases op with
    | detachAll => exact .inl (.head _)
    | detach m leaseID =>
      by_cases h_eq : n = m
      · subst h_eq
        exact .inr (.inr ⟨leaseID, .head _⟩)
      · exact h_later (Finset.mem_erase.mpr ⟨h_eq, h_attached⟩)
    | onDetach m =>
      by_cases h_eq : n = m
      · subst h_eq
        exact .inr (.inl (.head _))
      · exact h_later (Finset.mem_erase.mpr ⟨h_eq, h_attached⟩)
    | attach m => exact h_later (Finset.mem_insert_of_mem h_attached)
    | claim => exact h_later (by rw [states_claim]; exact h_attached)
    | release => exact h_later (by rw [states_release]; exact h_attached)
    | releaseAll | ensure | noteNavigation | remove => exact h_later h_attached

end

/-! ### The invariant -/

variable [DecidableEq ρ] {s : State ρ} {r : ρ}

/-- The claim on a tab is the one that the handlers are about to end. -/
def EndsMine (s : State ρ) : Prop :=
  ∀ r n, ∀ leaseID ∈ (s.handlers r).ends n, s.control.Mine n leaseID

/-- What a handler may be about to end. -/
theorem mem_ends_release {tasks : List Release} {n : ℕ} {leaseID : String} :
    leaseID ∈ (Handler.release tasks).ends n ↔ ∃ task ∈ tasks, task.tab.chromeTabID = n ∧
      task.phase.ends = true ∧ task.leaseID = leaseID := by
  simp only [Handler.ends, List.mem_map, List.mem_filter, Bool.and_eq_true, decide_eq_true_eq,
    and_assoc]

/-- The leases that `tab.claim` ends when it fails. -/
theorem mem_ends_claim {tab : Held} {leaseID l : String} {phase : ClaimPhase} {n : ℕ} :
    l ∈ (Handler.claim tab leaseID phase).ends n ↔
      tab.chromeTabID = n ∧ phase.ends = true ∧ l = leaseID := by
  simp only [Handler.ends]
  split_ifs with h
  · simp [h]
  · simp only [List.not_mem_nil, false_iff]
    rintro ⟨h_tab, h_ends, -⟩
    exact h ⟨h_tab, h_ends⟩

namespace EndsMine

/-- A handler that sets no claim makes a step. -/
theorem step (h : EndsMine s) {x : Handler × List Op}
    (h_new : ∀ n, ∀ leaseID ∈ x.1.ends n, s.control.Mine n leaseID)
    (h_ops : ∀ op ∈ x.2, op.setsClaim = false) : EndsMine (s.step r x) := by
  intro r' n leaseID h_mem
  refine Control.Mine.run ?_ h_ops
  by_cases h_eq : r' = r
  · subst h_eq
    rw [State.step_self] at h_mem
    exact h_new n leaseID h_mem
  · rw [State.step_of_ne h_eq] at h_mem
    exact h r' n leaseID h_mem

/-- `tab.claim` begins. -/
theorem claim (h : EndsMine s) {h' : Handler} {ops : List Op}
    (h_start : ClaimStart s.control h' ops)
    (h_undisturbed : h'.Undisturbed s) : EndsMine (s.step r (h', ops)) := by
  cases h_start with
  | refused => exact h.step (fun n _ h_mem => absurd h_mem List.not_mem_nil) (by rintro _ ⟨⟩)
  -- the handler holds what it has just claimed
  | @claims sessionID leaseID force R state h_ok =>
    intro r' n l h_mem claim h_claim
    by_cases h_eq : r' = r
    · subst h_eq
      rw [State.step_self] at h_mem
      exact absurd (mem_ends_claim.mp h_mem).2.1 Bool.false_ne_true
    · rw [State.step_of_ne h_eq] at h_mem
      have h_set : (s.control.apply (.claim state.tabID sessionID leaseID force)).claimOf n =
        some claim := h_claim
      rcases Control.claimOf_of_apply h_set with h_old | ⟨_, _, _, _, h_op, h_handle, rfl⟩
      · exact h r' n l h_mem claim h_old
      · -- the new claim: whoever is about to end control over the tab acts for the same lease
        obtain ⟨rfl, rfl, rfl, -⟩ := Op.claim.inj h_op
        have h_holds := Holds.of_fromHandle (TabRegistry.claim_ok h_ok).1
        obtain rfl : n = state.chromeTabID := h_holds.chromeTabID_eq h_handle
        exact (h_undisturbed r' l h_mem).symm

/-- Any request begins. -/
theorem start (h : EndsMine s) {h' : Handler} {ops : List Op} (h_start : Start s.control h' ops) :
    EndsMine (s.step r (h', ops)) := by
  refine h.step (fun n leaseID h_mem => ?_) fun op h_mem => setsClaim_of_plain (h_start.plain h_mem)
  cases h_start with
  | refused | stops => exact absurd h_mem List.not_mem_nil
  | @asks state h_get =>
    simp only [Handler.ends] at h_mem
    split_ifs at h_mem with h_tab
    · obtain rfl := h_tab
      obtain ⟨claim, h_claim, rfl⟩ := Option.map_eq_some_iff.mp (Option.mem_toList.mp h_mem)
      exact Control.mine_of_fromHandle h_get h_claim
    · exact absurd h_mem List.not_mem_nil
  -- A release ends the claims of its own tasks.
  | @releases states h_get =>
    obtain ⟨task, h_task, rfl, -, rfl⟩ := mem_ends_release.mp h_mem
    obtain ⟨state, h_state, claim, h_claim, rfl⟩ := mem_releaseLocal h_task
    exact Control.mine_of_fromHandle (h_get state h_state) h_claim

/-- A release that is about to end its claim was so before. -/
theorem ends_of_releaseStep {c : Control} {tab : Held} {leaseID : String}
    {phase phase' : ReleasePhase} {o : Settled}
    (h : (releaseStep c tab leaseID phase o).1 = some phase') (h_ends : phase'.ends) :
    phase.ends := by
  cases phase with
  | detaching | removing => rfl
  | persisting =>
    cases o with
    | resolved =>
      obtain rfl := Option.some_inj.mp h
      cases h_ends
    | rejected => cases h
  | announcing => cases h

omit [DecidableEq ρ] in
/-- A claim handler that is about to end its claim in its new phase was so before, or has just
failed. -/
theorem settle_claim (h : EndsMine s) {tab : Held} {leaseID : String} {phase : ClaimPhase}
    {o : Settled} (h_handler : s.handlers r = .claim tab leaseID phase)
    (h_alone : Handler.FailsAlone s.control o (.claim tab leaseID phase))
    (h_ends : (claimStep s.control tab leaseID phase o).1.any ClaimPhase.ends) :
    s.control.Mine tab.chromeTabID leaseID := by
  cases h_phase : phase.ends with
  | false => exact h_alone h_phase h_ends
  | true =>
    refine h r tab.chromeTabID leaseID ?_
    rw [h_handler]
    exact mem_ends_claim.mpr ⟨rfl, h_phase, rfl⟩

omit [DecidableEq ρ] in
/-- The release button: what is released on behalf of a lease has its claim, or none. -/
theorem settle_popup (h : EndsMine s) (h_hold : AllHold s) {tab : Held} {leaseID : Option String}
    (h_handler : s.handlers r = .popup tab leaseID) {state : TabState} {claim : Claim}
    (h_object : s.control.registry.objects tab.tabID = some state)
    (h_claim : state.claim = some claim) :
    s.control.Mine tab.chromeTabID (leaseID.getD claim.leaseID) := by
  cases leaseID with
  | none =>
    refine Control.mine_of_holds (h_hold r tab ?_) h_object h_claim
    rw [h_handler]
    exact List.mem_singleton_self tab
  | some l =>
    refine h r tab.chromeTabID l ?_
    rw [h_handler]
    simp [Handler.ends]

/-- What a handler waited for is over. -/
theorem settle (h : EndsMine s) (h_hold : AllHold s) {o : Settled}
    (h_alone : (s.handlers r).FailsAlone s.control o) :
    EndsMine (s.step r (settle s.control (s.handlers r) o)) := by
  refine h.step (fun n l h_mem => ?_) fun op h_mem => setsClaim_of_plain (plain_settle h_mem)
  cases h_handler : s.handlers r with
  | outside | settled =>
    rw [h_handler] at h_mem
    exact absurd h_mem List.not_mem_nil
  -- the tasks of a release settle one by one, not here
  | release tasks =>
    rw [h_handler] at h_mem
    refine h r n l ?_
    rw [h_handler]
    exact h_mem
  -- the lease goes with the claim into its next phase, if there is one
  | claim tab leaseID phase =>
    rw [h_handler] at h_alone h_mem
    rw [Extension.settle_claim] at h_mem
    cases h_phase : (claimStep s.control tab leaseID phase o).1 with
    | none =>
      rw [h_phase] at h_mem
      exact absurd h_mem List.not_mem_nil
    | some phase' =>
      rw [h_phase] at h_mem
      obtain ⟨rfl, h_ends, rfl⟩ := mem_ends_claim.mp h_mem
      refine h.settle_claim h_handler h_alone ?_
      rw [h_phase]
      exact h_ends
  | popup tab leaseID =>
    rw [h_handler] at h_mem
    cases o with
    | rejected => exact absurd h_mem List.not_mem_nil
    | resolved =>
      simp only [Extension.settle, popupStep] at h_mem
      split at h_mem
      case h_1 => exact absurd h_mem List.not_mem_nil
      case h_2 claim h_bind =>
        obtain ⟨state, h_object, h_claim⟩ := Option.bind_eq_some_iff.mp h_bind
        obtain ⟨task, h_task, rfl, -, rfl⟩ := mem_ends_release.mp h_mem
        obtain rfl := List.mem_singleton.mp h_task
        exact h.settle_popup h_hold h_handler h_object h_claim
  | stopAll phase =>
    rw [h_handler, Extension.settle_stopAll] at h_mem
    cases h_phase : (stopStep phase o).1 <;> rw [h_phase] at h_mem <;>
      exact absurd h_mem List.not_mem_nil

/-- What a release waited for is over. -/
theorem settleTask (h : EndsMine s) (n : ℕ) (o : Settled) :
    EndsMine (s.step r (settleTask s.control (s.handlers r) n o)) := by
  refine h.step (fun m l h_mem => ?_) fun op h_mem => setsClaim_of_plain (plain_settleTask h_mem)
  refine h r m l ?_
  cases h_handler : s.handlers r with
  | release tasks =>
    rw [h_handler, settleTask_release] at h_mem
    obtain ⟨task', h_task', rfl, h_ends, rfl⟩ := mem_ends_release.mp h_mem
    rcases mem_taskStep h_task' with h_old | ⟨task, h_task, phase, -, h_phase, rfl⟩
    · exact mem_ends_release.mpr ⟨task', h_old, rfl, h_ends, rfl⟩
    · exact mem_ends_release.mpr ⟨task, h_task, rfl, ends_of_releaseStep h_phase h_ends, rfl⟩
  | _ =>
    rw [h_handler] at h_mem
    exact h_mem

/-- Every step under the condition. -/
theorem next (h : EndsMine s) (h_hold : AllHold s) {e : Event ρ} (h_e : Unchallenged s e) :
    EndsMine (next s e) := by
  cases e with
  | tabClaim r params => exact h.claim (tabClaim_start params) h_e
  | tabRelease r params => exact h.start (tabRelease_start params)
  | browserStop r params => exact h.start (browserStop_start params)
  | popupRelease r params => exact h.start (popupRelease_start params)
  | stopAll r => exact h.start .stops
  | settle r o => exact h.settle h_hold h_e
  | settleTask r n o => exact h.settleTask n o
  | ensure | committed | removed | debuggerDetached =>
    intro r n leaseID h_mem
    exact (h r n leaseID h_mem).run fun op h_op => setsClaim_effects (by simp) h_op

/-- So it is in every state. -/
theorem of_reachable (h : ((machine ρ).restrict Unchallenged).Reachable s) : EndsMine s := by
  refine h.induction (fun _ _ _ h_mem => absurd h_mem List.not_mem_nil) ?_
  intro s e hs h_mine he
  exact h_mine.next (.of_reachable (fun _ _ => Unchallenged.unused) hs) he.2

/-! ### What a step ends is its own -/

omit [DecidableEq ρ] in
/-- After a wait, a handler ends its own lease only. -/
theorem endsOwn_settle (h : EndsMine s) (h_hold : AllHold s) {o : Settled}
    (h_alone : (s.handlers r).FailsAlone s.control o) {op : Op}
    (h_mem : op ∈ (Extension.settle s.control (s.handlers r) o).2) : op.EndsOwn s.control := by
  cases h_handler : s.handlers r with
  | outside | settled | release =>
    rw [h_handler] at h_mem
    exact absurd h_mem List.not_mem_nil
  | claim tab leaseID phase =>
    rw [h_handler] at h_alone h_mem
    rw [Extension.settle_claim] at h_mem
    -- as long as nobody challenges it, the claim of the tab is the one being made
    have h_mine := h.settle_claim h_handler h_alone
    have h_step := claimStep_step s.control tab leaseID phase o
    generalize (claimStep s.control tab leaseID phase o).1 = phase',
      (claimStep s.control tab leaseID phase o).2 = ops at h_step h_mem h_mine
    cases h_step with
    -- nothing ends yet
    | attaches =>
      rw [List.mem_singleton.mp h_mem]
      trivial
    | detaches =>
      rw [List.mem_singleton.mp h_mem]
      exact h_mine rfl
    | closes =>
      -- the detach of a claim that has failed before
      rw [List.mem_singleton.mp h_mem]
      refine h r tab.chromeTabID leaseID ?_
      rw [h_handler]
      exact mem_ends_claim.mpr ⟨rfl, rfl, rfl⟩
    | releases =>
      rw [List.mem_singleton.mp h_mem]
      intro n h_handle
      have h_tab : tab ∈ (s.handlers r).tabs := by
        rw [h_handler]
        exact List.mem_singleton_self tab
      rw [(h_hold r tab h_tab).chromeTabID_eq h_handle]
      exact h_mine rfl
    | _ => exact absurd h_mem List.not_mem_nil
  | popup tab leaseID =>
    rw [h_handler] at h_mem
    cases o with
    | rejected => exact absurd h_mem List.not_mem_nil
    | resolved =>
      simp only [Extension.settle, popupStep] at h_mem
      split at h_mem
      case h_1 => exact absurd h_mem List.not_mem_nil
      case h_2 claim h_bind =>
        obtain ⟨state, h_object, h_claim⟩ := Option.bind_eq_some_iff.mp h_bind
        rw [List.mem_singleton.mp h_mem]
        exact h.settle_popup h_hold h_handler h_object h_claim
  | stopAll phase =>
    rw [h_handler] at h_mem
    cases phase <;> cases o <;> first
      | exact absurd h_mem List.not_mem_nil
      | (rw [List.mem_singleton.mp h_mem]; trivial)

omit [DecidableEq ρ] in
/-- So does a release. -/
theorem endsOwn_settleTask (h : EndsMine s) (h_hold : AllHold s) {n : ℕ} {o : Settled} {op : Op}
    (h_mem : op ∈ (Extension.settleTask s.control (s.handlers r) n o).2) :
    op.EndsOwn s.control := by
  cases h_handler : s.handlers r with
  -- Only a release has tasks to settle.
  | release tasks =>
    rw [h_handler, settleTask_release] at h_mem
    obtain ⟨task, h_task, -, h_phase, rfl⟩ := mem_taskStep_ops h_mem
    intro m h_handle
    have h_tab : task.tab ∈ (s.handlers r).tabs := by
      rw [h_handler]
      exact List.mem_map_of_mem h_task
    refine h r m task.leaseID ?_
    rw [h_handler]
    refine mem_ends_release.mpr ⟨task, h_task, ?_, by rw [h_phase]; rfl, rfl⟩
    exact ((h_hold r task.tab h_tab).chromeTabID_eq h_handle).symm
  | _ =>
    rw [h_handler] at h_mem
    exact absurd h_mem List.not_mem_nil

omit [DecidableEq ρ] in
/-- So does a request that begins. -/
theorem endsOwn_start {h' : Handler} {ops : List Op} (h_start : Start s.control h' ops) {op : Op}
    (h_mem : op ∈ ops) : op.EndsOwn s.control := by
  cases h_start with
  | refused | asks => exact absurd h_mem List.not_mem_nil
  | stops =>
    rw [List.mem_singleton.mp h_mem]
    trivial
  | releases h_get =>
    rw [releaseLocal_ops] at h_mem
    obtain ⟨task, h_task, rfl⟩ := List.mem_map.mp h_mem
    obtain ⟨state, h_state, claim, h_claim, rfl⟩ := mem_releaseLocal h_task
    exact Control.mine_of_fromHandle (h_get state h_state) h_claim

omit [DecidableEq ρ] in
/-- So does every event. -/
theorem endsOwn (h : EndsMine s) (h_hold : AllHold s) {e : Event ρ} (h_e : Unchallenged s e)
    {op : Op} (h_mem : op ∈ (effects s e).ops) : op.EndsOwn s.control := by
  cases e with
  | tabClaim r params =>
    have h_start := tabClaim_start (c := s.control) params
    replace h_mem : op ∈ (tabClaim s.control.registry params).2 := h_mem
    generalize (tabClaim s.control.registry params).1 = h',
      (tabClaim s.control.registry params).2 = ops at h_start h_mem
    cases h_start with
    | refused => exact absurd h_mem List.not_mem_nil
    -- a claim with `force` ends the claim it names
    | claims =>
      rw [List.mem_singleton.mp h_mem]
      trivial
  | tabRelease r params => exact endsOwn_start (tabRelease_start params) h_mem
  | browserStop r params => exact endsOwn_start (browserStop_start params) h_mem
  | popupRelease r params => exact endsOwn_start (popupRelease_start params) h_mem
  | stopAll r =>
    rw [List.mem_singleton.mp h_mem]
    trivial
  | settle r o => exact h.endsOwn_settle h_hold h_e h_mem
  | settleTask r n o => exact h.endsOwn_settleTask h_hold h_mem
  | ensure | committed =>
    rw [List.mem_singleton.mp h_mem]
    trivial
  -- a closed tab has no owner to ask
  | removed n =>
    replace h_mem : op ∈ onRemoved s.control.registry n := h_mem
    unfold onRemoved at h_mem
    split at h_mem
    · exact absurd h_mem List.not_mem_nil
    · rcases List.mem_pair.mp h_mem with rfl | rfl <;> trivial
  -- the user has taken the debugger off
  | debuggerDetached n =>
    replace h_mem : op ∈ onDebuggerDetached s.control n := h_mem
    unfold onDebuggerDetached at h_mem
    split_ifs at h_mem
    · rcases List.mem_cons.mp h_mem with rfl | h_mem
      · trivial
      · split at h_mem
        · split_ifs at h_mem
          · rw [List.mem_singleton.mp h_mem]
            trivial
          · exact absurd h_mem List.not_mem_nil
        · exact absurd h_mem List.not_mem_nil
    · exact absurd h_mem List.not_mem_nil

end EndsMine

/-- **A release ends its own claim.** In a run in which no claim is set or fails at the wrong time,
a call that a handler makes on behalf of a lease releases no tab that is claimed under another
lease, and does not detach the debugger from it. So a claim, and the debugger of a claimed tab, are
taken away only by `stopAll`, by Chrome, or on behalf of the lease of that claim. -/
theorem endsOwnClaim {s : State ρ} (h : ((machine ρ).restrict Unchallenged).Reachable s)
    {e : Event ρ} (he : ((machine ρ).restrict Unchallenged).enabled s e) :
    (∀ op ∈ (effects s e).ops, op.EndsOwn s.control) ∧
      ∀ n claim, s.control.claimOf n = some claim →
        ((next s e).control.claimOf n = none →
          .releaseAll ∈ (effects s e).ops ∨ .remove n ∈ (effects s e).ops ∨
            ∃ tabID, .release tabID none ∈ (effects s e).ops ∨
              .release tabID (some claim.leaseID) ∈ (effects s e).ops) ∧
        (n ∈ s.control.states → n ∉ (next s e).control.states →
          .detachAll ∈ (effects s e).ops ∨ .onDetach n ∈ (effects s e).ops ∨
            .detach n none ∈ (effects s e).ops ∨
              .detach n (some claim.leaseID) ∈ (effects s e).ops) := by
  have h_hold : AllHold s := .of_reachable (fun _ _ => Unchallenged.unused) h
  have h_own : ∀ op ∈ (effects s e).ops, op.EndsOwn s.control := fun op h_mem =>
    (EndsMine.of_reachable h).endsOwn h_hold he.2 h_mem
  -- The claim and the debugger can only go by the operations of this step.
  refine ⟨h_own, fun n claim h_claim => ⟨fun h_gone => ?_, fun h_attached h_gone => ?_⟩⟩
  · obtain ⟨tabID, h_handle⟩ : ∃ tabID, s.control.handleOf n = some tabID := by
      refine Option.ne_none_iff_exists'.mp fun h_none => ?_
      rw [Control.claimOf_of_handleOf_none h_none] at h_claim
      cases h_claim
    have h_some : (s.control.claimOf n).isSome := by rw [h_claim]; rfl
    rcases Control.ended_by h_handle h_some h_gone with h_op | h_op | ⟨leaseID, h_op⟩
    · exact .inl h_op
    · exact .inr (.inl h_op)
    · refine .inr (.inr ⟨tabID, ?_⟩)
      cases leaseID with
      | none => exact .inl h_op
      | some leaseID =>
        have h_lease : claim.leaseID = leaseID := h_own _ h_op n h_handle claim h_claim
        rw [h_lease]
        exact .inr h_op
  · rcases Control.detached_by h_attached h_gone with h_op | h_op | ⟨leaseID, h_op⟩
    · exact .inl h_op
    · exact .inr (.inl h_op)
    · refine .inr (.inr ?_)
      cases leaseID with
      | none => exact .inl h_op
      | some leaseID =>
        have h_lease : claim.leaseID = leaseID := h_own _ h_op claim h_claim
        rw [h_lease]
        exact .inr h_op

/-- A tab is claimed under a lease, and the handler of `tab.claim` makes `n` steps. -/
def claiming (r : ρ) (leaseID : String) (force : Bool) (n : ℕ) : List (Event ρ) :=
  .tabClaim r (.ofFields [("tabId", .str "tab_7"), ("sessionId", .str "ses_1"),
    ("leaseId", .str leaseID), ("force", .bool force)]) :: List.replicate n (.settle r .resolved)

/-- `tab.release` under a lease. -/
def releasing (r : ρ) (leaseID : String) : Event ρ :=
  .tabRelease r (.ofFields [("tabId", .str "tab_7"), ("sessionId", .str "ses_1"),
    ("leaseId", .str leaseID)])

/-- A tab is claimed and released; the release is about to end the claim. -/
def released : List (Event (Fin 3)) :=
  .ensure 7 "tab_7" false :: claiming 0 "lease_1" false 8 ++
    [releasing 1 "lease_1", .settleTask 1 7 .resolved]

/-- The release ends the claim, which is its own. -/
theorem endsOwnClaim_released :
    (after released).control.claimOf 7 = some { sessionID := "ses_1", leaseID := "lease_1" } ∧
      (after (released ++ [.settleTask 1 7 .resolved])).control.claimOf 7 = none ∧
      ∀ op ∈ (effects (after released) (.settleTask 1 7 .resolved)).ops,
        op.EndsOwn (after released).control := by
  have h : ((machine (Fin 3)).restrict Unchallenged).Runs (machine (Fin 3)).init released ∧
      ((machine (Fin 3)).restrict Unchallenged).enabled (after released)
        (.settleTask 1 7 .resolved) ∧
      (after released).control.claimOf 7 = some { sessionID := "ses_1", leaseID := "lease_1" } ∧
      (after (released ++ [.settleTask 1 7 .resolved])).control.claimOf 7 = none := by
    decide +kernel
  obtain ⟨h_runs, h_enabled, h_claim, h_gone⟩ := h
  -- The state before the release settles, reached without a challenge.
  have h_reachable : ((machine (Fin 3)).restrict Unchallenged).Reachable (after released) := by
    have h := h_runs.reachable
    rwa [Machine.exec_restrict, Machine.restrict_init] at h
  generalize after (released ++ [.settleTask 1 7 .resolved]) = s', after released = s at *
  exact ⟨h_claim, h_gone, (endsOwnClaim h_reachable h_enabled).1⟩

/-- A claim is taken over while its release waits for Chrome. -/
def overtaken : List (Event (Fin 3)) :=
  .ensure 7 "tab_7" false :: claiming 0 "lease_1" false 8 ++
    releasing 1 "lease_1" :: claiming 2 "lease_2" true 0 ++ [.settleTask 1 7 .resolved]

/-- A claim is taken over while the debugger is being set up for it. -/
def overtakenAttaching : List (Event (Fin 3)) :=
  .ensure 7 "tab_7" false :: claiming 0 "lease_1" false 3 ++ claiming 2 "lease_2" true 4

/-- The release clears the claim of the other lease, and a `tab.claim` that fails detaches its
debugger. -/
theorem not_endsOwnClaim_takenOver :
    ((machine (Fin 3)).Runs (machine (Fin 3)).init
        (overtaken ++ [.settleTask 1 7 .resolved]) ∧
      .release "tab_7" (some "lease_1") ∈
        (effects (after overtaken) (.settleTask 1 7 .resolved)).ops ∧
      (after overtaken).control.claimOf 7 =
        some { sessionID := "ses_1", leaseID := "lease_2" } ∧
      (after (overtaken ++ [.settleTask 1 7 .resolved])).control.claimOf 7 = none) ∧
    ((machine (Fin 3)).Runs (machine (Fin 3)).init
        (overtakenAttaching ++ [.settle 0 .rejected]) ∧
      .detach 7 (some "lease_1") ∈
        (effects (after overtakenAttaching) (.settle 0 .rejected)).ops ∧
      (after overtakenAttaching).control.claimOf 7 =
        some { sessionID := "ses_1", leaseID := "lease_2" } ∧
      7 ∈ (after overtakenAttaching).control.states ∧
      7 ∉ (after (overtakenAttaching ++ [.settle 0 .rejected])).control.states) := by
  decide +kernel

end BrowserControl.Extension
