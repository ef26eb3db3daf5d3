import BrowserControl.Extension.Release

/-!
# After an emergency stop nothing is under control

A tab is claimed first and the debugger is attached to it later, and `stopAll` ends the claims
first and detaches the debuggers later. Between the two steps of the one, those of the other can
be made, and so a debugger may be attached that nobody has a claim for
(`not_nothingUnderControl_claiming`).

In a run in which the steps of the handlers keep to their turn (`InTurn`), a tab that has only one
of the two, a claim or the debugger, is in the hands of a handler that is about to add the other
part or to take this one away (`Balanced`). So when no handler is at work, a tab has a claim if
and only if the debugger is attached to it. And the debugger is attached only to tabs with a
claim, of which there is none after a stop.
-/

namespace BrowserControl.Extension

open Encoding Transition

variable {ρ : Type*}

/-! ### Runs in which every step is made in its turn -/

/-- `o` is how the promise of the handler settles.

* A claim that cannot be stored does not stay on a tab without debugger.
* When `chrome.debugger.attach` resolves, the tab still has a claim.
* The `detach` of a `tab.claim` that has failed finds no new claim on a tab with debugger, and it
  is not left out while the debugger is attached to a tab without claim.
* The same holds of `detachAll`, for all tabs. -/
def Handler.InTurn (c : Control) (o : Settled) : Handler → Prop
  | .claim tab _ phase =>
    (phase = .persisting → o = .rejected → (c.claimOf tab.chromeTabID).isSome →
      tab.chromeTabID ∈ c.states) ∧
    (phase = .attaching → o = .resolved → (c.claimOf tab.chromeTabID).isSome) ∧
    (phase = .releasing → tab.chromeTabID ∈ c.states →
      (o = .resolved ↔ c.claimOf tab.chromeTabID = none))
  | .stopAll phase =>
    phase = .releasing → ∀ n ∈ c.states, (o = .resolved ↔ c.claimOf n = none)
  | _ => True

/-- When a release ends the claim, the debugger was not attached again. -/
def Handler.TaskInTurn (c : Control) (n : ℕ) (h : Handler) : Prop :=
  ∀ task ∈ h.tasks, task.tab.chromeTabID = n → task.phase = .removing → n ∉ c.states

instance (c : Control) (o : Settled) : ∀ h : Handler, Decidable (h.InTurn c o)
  | .claim tab _ phase => inferInstanceAs (Decidable
    ((phase = .persisting → o = .rejected → (c.claimOf tab.chromeTabID).isSome →
        tab.chromeTabID ∈ c.states) ∧
      (phase = .attaching → o = .resolved → (c.claimOf tab.chromeTabID).isSome) ∧
      (phase = .releasing → tab.chromeTabID ∈ c.states →
        (o = .resolved ↔ c.claimOf tab.chromeTabID = none))))
  | .stopAll phase => inferInstanceAs (Decidable
    (phase = .releasing → ∀ n ∈ c.states, (o = .resolved ↔ c.claimOf n = none)))
  | .outside | .settled | .release _ | .popup .. => inferInstanceAs (Decidable True)

instance (c : Control) (n : ℕ) (h : Handler) : Decidable (h.TaskInTurn c n) :=
  inferInstanceAs (Decidable
    (∀ task ∈ h.tasks, task.tab.chromeTabID = n → task.phase = .removing → n ∉ c.states))

/-- A step in a run in which every step is made in its turn. -/
def InTurn (s : State ρ) : Event ρ → Prop
  | .settle r o => (s.handlers r).InTurn s.control o
  | .settleTask r n _ => (s.handlers r).TaskInTurn s.control n
  | e => Unused s e

instance [Fintype ρ] (s : State ρ) : ∀ e, Decidable (InTurn s e)
  | .settle r o => inferInstanceAs (Decidable ((s.handlers r).InTurn s.control o))
  | .settleTask r n _ => inferInstanceAs (Decidable ((s.handlers r).TaskInTurn s.control n))
  | .tabClaim r params => inferInstanceAs (Decidable (Unused s (.tabClaim r params)))
  | .tabRelease r params => inferInstanceAs (Decidable (Unused s (.tabRelease r params)))
  | .browserStop r params => inferInstanceAs (Decidable (Unused s (.browserStop r params)))
  | .popupRelease r params => inferInstanceAs (Decidable (Unused s (.popupRelease r params)))
  | .stopAll r => inferInstanceAs (Decidable (Unused s (.stopAll r)))
  | .ensure n handle owned => inferInstanceAs (Decidable (Unused s (.ensure n handle owned)))
  | .committed n => inferInstanceAs (Decidable (Unused s (.committed n)))
  | .removed n => inferInstanceAs (Decidable (Unused s (.removed n)))
  | .debuggerDetached n => inferInstanceAs (Decidable (Unused s (.debuggerDetached n)))

/-- The condition says that a number is used once. -/
theorem InTurn.unused {s : State ρ} {e : Event ρ} (h : InTurn s e) : Unused s e := by
  cases e with
  | settle | settleTask => trivial
  | _ => exact h

/-! ### Whose hands a tab is in -/

/-- The debugger is about to be attached, or the claim to be released. -/
def ClaimPhase.restores : ClaimPhase → Bool
  | .persisting | .attaching | .unwinding | .detaching | .failing => true
  | _ => false

/-- The handler is about to attach the debugger to the tab, or to release it. -/
def Handler.Restores (tabID : String) : Handler → Prop
  | .claim tab _ phase => tab.tabID = tabID ∧ phase.restores
  | .release tasks => ∃ task ∈ tasks, task.tab.tabID = tabID ∧ task.phase.ends
  | _ => False

/-- The handler is about to detach the debugger from the tab. -/
def Handler.Detaches (n : ℕ) : Handler → Prop
  | .claim tab _ phase => tab.chromeTabID = n ∧ phase = .releasing
  | .stopAll phase => phase = .releasing
  | _ => False

/-- A tab that has only a claim or only the debugger is in the hands of a handler. -/
structure Balanced (s : State ρ) : Prop where
  claimed : ∀ {n tabID}, s.control.handleOf n = some tabID → (s.control.claimOf n).isSome →
    n ∉ s.control.states → ∃ r, (s.handlers r).Restores tabID
  attached : ∀ {n}, n ∈ s.control.states → s.control.claimOf n = none →
    ∃ r, (s.handlers r).Detaches n

/-- What a handler has to see to when it goes from `h` to `h'`, and control from `c` to `c'`: it
leaves no tab with one part only, unless it keeps the tab in its hands or had not to do with it. -/
structure Hands (c c' : Control) (h h' : Handler) : Prop where
  claimed : ∀ {n tabID}, c'.handleOf n = some tabID → (c'.claimOf n).isSome → n ∉ c'.states →
    h'.Restores tabID ∨ c.handleOf n = some tabID ∧ (c.claimOf n).isSome ∧ n ∉ c.states ∧
      (h.Restores tabID → h'.Restores tabID)
  attached : ∀ {n}, n ∈ c'.states → c'.claimOf n = none →
    h'.Detaches n ∨ n ∈ c.states ∧ c.claimOf n = none ∧ (h.Detaches n → h'.Detaches n)

/-! ### What the steps of a handler see to -/

namespace Hands

variable {c c' : Control} {h h' : Handler} {tab : Held}

/-- The control does not change. -/
theorem idle
    (h_restores : ∀ {n tabID}, c.handleOf n = some tabID → (c.claimOf n).isSome → n ∉ c.states →
      h.Restores tabID → h'.Restores tabID)
    (h_detaches : ∀ {n}, n ∈ c.states → c.claimOf n = none → h.Detaches n → h'.Detaches n) :
    Hands c c h h' where
  claimed := fun h_handle h_claim h_states =>
    .inr ⟨h_handle, h_claim, h_states, h_restores h_handle h_claim h_states⟩
  attached := fun h_states h_claim => .inr ⟨h_states, h_claim, h_detaches h_states h_claim⟩

/-- Debuggers are detached from tabs that the handler has in its hands then. -/
theorem detach {ops : List Op} (h_ops : ∀ op ∈ ops, ∃ n leaseID, op = .detach n leaseID)
    (h_tabs : ∀ {n leaseID tabID}, .detach n leaseID ∈ ops → c.handleOf n = some tabID →
      h'.Restores tabID)
    (h_restores : ∀ {tabID}, h.Restores tabID → h'.Restores tabID)
    (h_detaches : ∀ {n}, h.Detaches n → h'.Detaches n) : Hands c (c.run ops) h h' := by
  -- `detach` operations leave the registry alone
  have h_registry : (c.run ops).registry = c.registry := by
    clear h_tabs
    induction ops generalizing c with
    | nil => rfl
    | cons op ops ih =>
      obtain ⟨n, leaseID, rfl⟩ := h_ops op (.head _)
      rw [Control.run_cons, ih fun op h_mem => h_ops op (.tail _ h_mem)]
      rfl
  have h_claimOf (n : ℕ) : (c.run ops).claimOf n = c.claimOf n :=
    congrArg (TabRegistry.claimOf · n) h_registry
  have h_handleOf (n : ℕ) : (c.run ops).handleOf n = c.handleOf n := by
    rw [Control.handleOf, h_registry]
    rfl
  -- and take exactly their own tabs out of the table
  have h_states {n : ℕ} : n ∈ (c.run ops).states ↔
      n ∈ c.states ∧ ∀ leaseID, .detach n leaseID ∉ ops := by
    clear h_tabs h_registry h_claimOf h_handleOf
    induction ops generalizing c with
    | nil => simp
    | cons op ops ih =>
      obtain ⟨m, l, rfl⟩ := h_ops op (.head _)
      have h_apply : (c.apply (.detach m l)).states = c.states.erase m := rfl
      rw [Control.run_cons, ih fun op h_mem => h_ops op (.tail _ h_mem), h_apply,
        Finset.mem_erase]
      constructor
      · rintro ⟨⟨h_ne, h_old⟩, h_rest⟩
        refine ⟨h_old, fun leaseID h_mem => ?_⟩
        rcases List.mem_cons.mp h_mem with h_eq | h_mem
        · exact h_ne (Op.detach.inj h_eq).1
        · exact h_rest leaseID h_mem
      · rintro ⟨h_old, h_none⟩
        refine ⟨⟨?_, h_old⟩, fun leaseID h_mem => h_none leaseID (.tail _ h_mem)⟩
        rintro rfl
        exact h_none l (.head _)
  constructor
  -- A tab that has a claim but no debugger was so before, or this step has detached it.
  · intro n tabID h_handle h_claim h_detached
    rw [h_handleOf] at h_handle
    rw [h_claimOf] at h_claim
    by_cases h_old : n ∈ c.states
    · left
      obtain ⟨leaseID, h_mem⟩ : ∃ leaseID, .detach n leaseID ∈ ops := by
        by_contra h_none
        exact h_detached (h_states.mpr ⟨h_old, fun l h_mem => h_none ⟨l, h_mem⟩⟩)
      exact h_tabs h_mem h_handle
    · exact .inr ⟨h_handle, h_claim, h_old, h_restores⟩
  -- A tab that is attached without a claim was attached before.
  · intro n h_attached h_claim
    rw [h_claimOf] at h_claim
    exact .inr ⟨(h_states.mp h_attached).1, h_claim, h_detaches⟩

/-- A claim is released by a handler that had the tab in its hands and then has to do only with
the debugger. -/
theorem release {tabID : String} (leaseID : Option String)
    (h_known : ∀ {n}, c.handleOf n = some tabID → n ∈ c.states → h'.Detaches n)
    (h_restores : ∀ {tabID'}, tabID' ≠ tabID → h.Restores tabID' → h'.Restores tabID')
    (h_detaches : ∀ {n}, h.Detaches n → h'.Detaches n) :
    Hands c (c.apply (.release tabID leaseID)) h h' where
  claimed := by
    intro n tabID' h_handle h_claim h_states
    rw [Control.handleOf_release] at h_handle
    rw [Control.states_release] at h_states
    rw [Control.claimOf_release] at h_claim
    split_ifs at h_claim with h_eq
    · cases h_claim
    -- the claim of another tab stays, and with it who restores it
    · refine .inr ⟨h_handle, h_claim, h_states, h_restores ?_⟩
      rintro rfl
      exact h_eq h_handle
  attached := by
    intro n h_states h_claim
    rw [Control.states_release] at h_states
    rw [Control.claimOf_release] at h_claim
    split_ifs at h_claim with h_eq
    · exact .inl (h_known h_eq h_states)
    · exact .inr ⟨h_states, h_claim, h_detaches⟩

/-- A claim that begins sees to the tab that it takes. -/
theorem claimStart {ops : List Op} (h_start : ClaimStart c h' ops) :
    Hands c (c.run ops) .outside h' := by
  cases h_start with
  | refused => exact .idle (fun _ _ _ => False.elim) fun _ _ => False.elim
  | @claims sessionID leaseID force R state h_ok =>
    rw [Control.run_cons, Control.run_nil]
    constructor
    -- the new claim is restored by the handler that begins
    · intro n tabID h_handle h_claim h_states
      rw [Control.handleOf_claim] at h_handle
      rw [Control.states_claim] at h_states
      rw [Control.claimOf_claim c n h_ok] at h_claim
      split_ifs at h_claim with h_eq
      · rw [h_handle] at h_eq
        exact .inl ⟨(Option.some_inj.mp h_eq).symm, rfl⟩
      · exact .inr ⟨h_handle, h_claim, h_states, False.elim⟩
    · intro n h_states h_claim
      rw [Control.states_claim] at h_states
      rw [Control.claimOf_claim c n h_ok] at h_claim
      split_ifs at h_claim
      exact .inr ⟨h_states, h_claim, False.elim⟩

/-- So does every request that begins. -/
theorem start {ops : List Op} (h_start : Start c h' ops) : Hands c (c.run ops) .outside h' := by
  cases h_start with
  | refused | asks => exact .idle (fun _ _ _ => False.elim) fun _ _ => False.elim
  | stops =>
    constructor
    · intro n tabID _ h_claim
      rw [Control.run_cons, Control.run_nil, Control.claimOf_releaseAll] at h_claim
      cases h_claim
    · exact fun _ _ => .inl rfl
  | @releases states h_get =>
    rw [releaseLocal_ops]
    refine .detach (fun op h_mem => ?_) (fun {n leaseID tabID} h_mem h_handle => ?_) False.elim
      False.elim
    · obtain ⟨task, -, rfl⟩ := List.mem_map.mp h_mem
      exact ⟨_, _, rfl⟩
    · obtain ⟨task, h_task, h_eq⟩ := List.mem_map.mp h_mem
      obtain ⟨rfl, rfl⟩ := Op.detach.inj h_eq
      refine ⟨task, h_task, ?_⟩
      obtain ⟨state, h_state, claim, -, rfl⟩ := mem_releaseLocal h_task
      exact ⟨((Holds.of_fromHandle (h_get state h_state)).current tabID h_handle).symm, rfl⟩

/-- A handler of `tab.claim` detaches the debugger from its tab. -/
theorem detachOne (h_hold : Holds c tab) (leaseID : Option String)
    (h_tab : h'.Restores tab.tabID ∨
      (tab.chromeTabID ∈ c.states → c.claimOf tab.chromeTabID = none))
    (h_restores : ∀ {tabID}, h.Restores tabID → h'.Restores tabID)
    (h_detaches : ∀ {n}, n ≠ tab.chromeTabID → h.Detaches n → h'.Detaches n) :
    Hands c (c.apply (.detach tab.chromeTabID leaseID)) h h' where
  claimed := by
    intro n tabID h_handle h_claim h_states
    -- the debugger was off before, or is taken off now
    have h_old : n ∉ c.states ∨ n = tab.chromeTabID := by
      by_contra h_not
      push Not at h_not
      exact h_states (Finset.mem_erase.mpr ⟨h_not.2, h_not.1⟩)
    rcases h_old with h_old | rfl
    · exact .inr ⟨h_handle, h_claim, h_old, h_restores⟩
    · rcases h_tab with h_tab | h_tab
      · rw [h_hold.current tabID h_handle]
        exact .inl h_tab
      · refine .inr ⟨h_handle, h_claim, fun h_attached => ?_, h_restores⟩
        rw [show (c.apply (.detach tab.chromeTabID leaseID)).claimOf tab.chromeTabID = none from
          h_tab h_attached] at h_claim
        cases h_claim
  attached := by
    intro n h_states h_claim
    obtain ⟨h_ne, h_old⟩ := Finset.mem_erase.mp h_states
    exact .inr ⟨h_old, h_claim, h_detaches h_ne⟩

/-- The debugger is attached to a tab that is claimed. -/
theorem attach (h_hold : Holds c tab) (h_claim : (c.claimOf tab.chromeTabID).isSome)
    (h_restores : ∀ {tabID}, tabID ≠ tab.tabID → h.Restores tabID → h'.Restores tabID)
    (h_detaches : ∀ {n}, h.Detaches n → h'.Detaches n) :
    Hands c (c.apply (.attach tab.chromeTabID)) h h' where
  claimed := by
    intro n tabID h_handle h_claimed h_states
    -- Another tab: the step does not reach it.
    have h_ne : n ≠ tab.chromeTabID := by
      rintro rfl
      exact h_states (Finset.mem_insert_self ..)
    refine .inr ⟨h_handle, h_claimed, fun h_old => h_states (Finset.mem_insert_of_mem h_old),
      h_restores ?_⟩
    rintro rfl
    exact h_ne (h_hold.chromeTabID_eq h_handle)
  attached := by
    intro n h_states h_none
    rcases Finset.mem_insert.mp h_states with rfl | h_old
    · rw [show c.claimOf tab.chromeTabID = none from h_none] at h_claim
      cases h_claim
    · exact .inr ⟨h_old, h_none, h_detaches⟩

/-- In some phases, a handler of `tab.claim` is not about to attach or to release. -/
theorem not_restores {leaseID tabID : String} {phase : ClaimPhase} {L : List ClaimPhase}
    (h_phase : phase ∈ L) (h_all : L.all (!·.restores)) :
    ¬ (Handler.claim tab leaseID phase).Restores tabID := by
  intro h
  have h_not := List.all_eq_true.mp h_all phase h_phase
  rw [h.2] at h_not
  cases h_not

/-- In all phases but one, a handler of `tab.claim` is not about to detach. -/
theorem not_detaches {leaseID : String} {n : ℕ} {phase : ClaimPhase} {L : List ClaimPhase}
    (h_phase : phase ∈ L) (h_all : ClaimPhase.releasing ∉ L) :
    ¬ (Handler.claim tab leaseID phase).Detaches n := by
  rintro ⟨-, rfl⟩
  exact h_all h_phase

/-- A step of `tab.claim` that is made in its turn. -/
theorem claimStep (h_hold : Holds c tab) {leaseID : String} {phase : ClaimPhase} {o : Settled}
    (h_turn : (Handler.claim tab leaseID phase).InTurn c o) {phase' : Option ClaimPhase}
    {ops : List Op} (h_step : ClaimStep c tab leaseID phase o phase' ops) :
    Hands c (c.run ops) (.claim tab leaseID phase)
      (phase'.elim .settled (.claim tab leaseID)) := by
  obtain ⟨h_stored, h_attach, h_close⟩ := h_turn
  -- Most steps write nothing; their duty passes to the phase that comes next.
  cases h_step with
  | found h_states =>
    refine .idle (fun h_handle _ h_not h => ?_) (by rintro _ _ _ ⟨-, ⟨⟩⟩)
    obtain rfl := h.1
    rw [h_hold.chromeTabID_eq h_handle] at h_not
    exact absurd h_states h_not
  | opens => exact .idle (fun _ _ _ h => ⟨h.1, rfl⟩) (by rintro _ _ _ ⟨-, ⟨⟩⟩)
  | unstored =>
    refine .idle (fun h_handle h_claim h_not h => ?_) (by rintro _ _ _ ⟨-, ⟨⟩⟩)
    obtain rfl := h.1
    rw [h_hold.chromeTabID_eq h_handle] at h_not h_claim
    exact absurd (h_stored rfl rfl h_claim) h_not
  -- the step that writes: the claim is stored, and now the debugger is attached
  | attaches =>
    exact .attach h_hold (h_attach rfl rfl) (fun h_ne h => absurd h.1.symm h_ne)
      (by rintro _ ⟨-, ⟨⟩⟩)
  | conflicts => exact .idle (fun _ _ _ h => ⟨h.1, rfl⟩) (by rintro _ _ _ ⟨-, ⟨⟩⟩)
  | goes h_phase =>
    exact .idle (fun _ _ _ h => absurd h (not_restores h_phase rfl)) fun _ _ h =>
      absurd h (not_detaches h_phase (by decide))
  | refused h_phase =>
    exact .idle (fun _ _ _ h => absurd h (not_restores h_phase rfl)) fun _ _ h =>
      absurd h (not_detaches h_phase (by decide))
  -- the way back: a claim that has failed detaches and then releases
  | detaches h_phase =>
    exact .detachOne h_hold (some leaseID) (.inl ⟨rfl, rfl⟩) (fun h => ⟨h.1, rfl⟩) fun _ h =>
      absurd h (not_detaches h_phase (by decide))
  | fails => exact .idle (fun _ _ _ h => ⟨h.1, rfl⟩) (by rintro _ _ _ ⟨-, ⟨⟩⟩)
  | releases h_phase =>
    refine .release (some leaseID) (fun h_handle _ => ⟨?_, rfl⟩)
      (fun h_ne h => absurd h.1.symm h_ne) fun h =>
      absurd h (not_detaches h_phase (by decide))
    exact (h_hold.chromeTabID_eq h_handle).symm
  -- the tab was closed meanwhile, so nothing is left to give back
  | gone h_phase h_gone =>
    refine .idle (fun {n tabID} h_handle _ _ h => ?_) fun _ _ h =>
      absurd h (not_detaches h_phase (by decide))
    obtain rfl := h.1
    exact absurd h_handle (h_gone n)
  | closes =>
    exact .detachOne h_hold (some leaseID) (.inr fun h_states => (h_close rfl h_states).mp rfl)
      (by rintro _ ⟨-, ⟨⟩⟩) fun h_ne h => absurd h.1.symm h_ne
  | unreleased =>
    refine .idle (by rintro _ _ _ _ _ ⟨-, ⟨⟩⟩) fun h_states h_claim h => ?_
    obtain rfl := h.1
    cases (h_close rfl h_states).mpr h_claim
  | ends h_phase =>
    exact .idle (fun _ _ _ h => absurd h (not_restores h_phase rfl)) fun _ _ h =>
      absurd h (not_detaches h_phase (by decide))

/-- A step of `stopAll` that is made in its turn. -/
theorem stopStep {phase : StopPhase} {o : Settled}
    (h_turn : (Handler.stopAll phase).InTurn c o) :
    Hands c (c.run (stopStep phase o).2) (.stopAll phase)
      ((stopStep phase o).1.elim .settled .stopAll) := by
  cases phase with
  -- the step that detaches; those behind it tell others
  | releasing =>
    cases o with
    | resolved =>
      constructor
      · intro n tabID h_handle h_claim h_states
        refine .inr ⟨h_handle, h_claim, fun h_attached => ?_, False.elim⟩
        rw [show (c.run (Extension.stopStep .releasing .resolved).2).claimOf n = none from
          (h_turn rfl n h_attached).mp rfl] at h_claim
        cases h_claim
      · intro n h_states
        exact absurd h_states (Finset.notMem_empty n)
    | rejected =>
      refine .idle (fun _ _ _ => False.elim) fun {n} h_states h_claim _ => ?_
      cases (h_turn rfl n h_states).mpr h_claim
  | detaching => exact .idle (fun _ _ _ => False.elim) (by rintro _ _ _ ⟨⟩)
  | removing => exact .idle (fun _ _ _ => False.elim) (by rintro _ _ _ ⟨⟩)
  | announcing => exact .idle (fun _ _ _ => False.elim) (by rintro _ _ _ ⟨⟩)

/-- A step of a handler that awaits one thing. -/
theorem settle {o : Settled} (h_hold : ∀ tab ∈ h.tabs, Holds c tab) (h_turn : h.InTurn c o) :
    Hands c (c.run (settle c h o).2) h (settle c h o).1 := by
  cases h with
  | outside | settled | release => exact .idle (fun _ _ _ => id) fun _ _ => id
  | claim tab leaseID phase =>
    rw [Extension.settle_claim]
    exact .claimStep (h_hold tab (List.mem_singleton_self tab)) h_turn (claimStep_step ..)
  | stopAll phase =>
    rw [Extension.settle_stopAll]
    exact .stopStep h_turn
  -- the popup releases one tab, after the storage has answered
  | popup tab leaseID =>
    cases o with
    | rejected => exact .idle (fun _ _ _ => False.elim) fun _ _ => False.elim
    | resolved =>
      simp only [Extension.settle, popupStep]
      split
      case h_1 => exact .idle (fun _ _ _ => False.elim) fun _ _ => False.elim
      case h_2 claim _ =>
        refine .detachOne (h_hold tab (List.mem_singleton_self tab))
          (some (leaseID.getD claim.leaseID)) (.inl ?_) False.elim fun _ => False.elim
        exact ⟨_, List.mem_singleton_self _, rfl, rfl⟩

/-- The releases that a handler is about to make are still to be made after a step of another
one, and after a step of this one unless it ends the claim. -/
theorem restores_rest {tasks : List Release} {task : Release} {phase : Option ReleasePhase}
    {tabID : String}
    (h_task : task.tab.tabID = tabID → task.phase.ends → ∃ p ∈ phase, p.ends)
    (h : (Handler.release tasks).Restores tabID) :
    (Handler.release (tasks.filterMap fun t =>
      if t = task then phase.map fun phase => { task with phase } else some t)).Restores tabID := by
  obtain ⟨t, h_mem, h_tab, h_ends⟩ := h
  by_cases h_eq : t = task
  · subst h_eq
    obtain ⟨p, h_phase, h_ends'⟩ := h_task h_tab h_ends
    refine ⟨{ t with phase := p }, List.mem_filterMap.mpr ⟨t, h_mem, ?_⟩, h_tab, h_ends'⟩
    rw [if_pos rfl, Option.mem_def.mp h_phase, Option.map_some]
  · exact ⟨t, List.mem_filterMap.mpr ⟨t, h_mem, if_neg h_eq⟩, h_tab, h_ends⟩

/-- A step of one of several releases that is made in its turn. -/
theorem settleTask {n : ℕ} {o : Settled} (h_hold : ∀ tab ∈ h.tabs, Holds c tab)
    (h_turn : h.TaskInTurn c n) :
    Hands c (c.run (settleTask c h n o).2) h (settleTask c h n o).1 := by
  -- only a release has tasks of its own
  cases h with
  | outside | settled | claim | popup | stopAll => exact .idle (fun _ _ _ => id) fun _ _ => id
  | release tasks =>
    show Hands c (c.run (taskStep c tasks n o).2) (.release tasks) (taskStep c tasks n o).1
    rcases taskStep_cases c tasks n o with h_eq | ⟨task, h_mem, h_tab, h_eq⟩
    · rw [h_eq]
      exact .idle (fun _ _ _ => id) fun _ _ => id
    rw [h_eq]
    have h_turn := h_turn task h_mem h_tab
    have h_hold := h_hold task.tab (List.mem_map_of_mem h_mem)
    -- one tab: detach, take the claim off, write it, tell the host
    cases h_phase : task.phase with
    | detaching =>
      exact .idle (fun _ _ _ => restores_rest fun _ _ => ⟨.removing, rfl, rfl⟩)
        fun _ _ => False.elim
    | removing =>
      show Hands c (c.run (Extension.release c task.tab task.leaseID ReleasePhase.persisting).2) _ _
      rcases release_cases c task.tab task.leaseID ReleasePhase.persisting with
        h_release | ⟨h_release, h_gone⟩
      · -- the claim is ended, so the debugger must not be attached
        have h_step : releaseStep c task.tab task.leaseID .removing o =
          (some .persisting, [.release task.tab.tabID (some task.leaseID)]) := h_release
        rw [h_step, h_release]
        refine .release (some task.leaseID) (fun h_handle h_states => ?_)
          (fun h_ne => restores_rest ?_) False.elim
        · rw [h_hold.chromeTabID_eq h_handle, h_tab] at h_states
          exact absurd h_states (h_turn h_phase)
        · exact fun h_eq _ => absurd h_eq.symm h_ne
      · have h_step : releaseStep c task.tab task.leaseID .removing o = (none, []) := h_release
        rw [h_step, h_release]
        refine .idle (fun {m tabID} h_handle _ _ => restores_rest ?_) fun _ _ => False.elim
        rintro rfl
        exact absurd h_handle (h_gone m)
    | persisting =>
      have h_ends : task.phase.ends = false := by rw [h_phase]; rfl
      cases o <;> refine .idle (fun _ _ _ => restores_rest fun _ h => ?_) fun _ _ => False.elim <;>
        exact Bool.noConfusion (h.symm.trans h_ends)
    | announcing =>
      have h_ends : task.phase.ends = false := by rw [h_phase]; rfl
      refine .idle (fun _ _ _ => restores_rest fun _ h => ?_) fun _ _ => False.elim
      exact Bool.noConfusion (h.symm.trans h_ends)

/-! ### What Chrome's events do -/

/-- What is left of the control by calls that no handler makes. -/
theorem ensure (n : ℕ) (handle : String) (owned : Bool) :
    Hands c (c.apply (.ensure n handle owned)) .outside .outside where
  claimed := by
    intro m tabID h_handle h_claim h_states
    rw [Control.claimOf_ensure] at h_claim
    rcases Control.handleOf_ensure c m n handle owned with h_eq | ⟨-, h_none, -⟩
    · exact .inr ⟨h_eq.symm.trans h_handle, h_claim, h_states, id⟩
    · rw [Control.claimOf_of_handleOf_none h_none] at h_claim
      cases h_claim
  attached := by
    intro m h_states h_claim
    rw [Control.claimOf_ensure] at h_claim
    exact .inr ⟨h_states, h_claim, id⟩

/-- A navigation leaves the claims and the debugger as they are. -/
theorem noteNavigation (n : ℕ) : Hands c (c.apply (.noteNavigation n)) .outside .outside where
  claimed := by
    intro m tabID h_handle h_claim h_states
    rw [Control.handleOf_noteNavigation] at h_handle
    rw [Control.claimOf_noteNavigation] at h_claim
    exact .inr ⟨h_handle, h_claim, h_states, id⟩
  attached := by
    intro m h_states h_claim
    rw [Control.claimOf_noteNavigation] at h_claim
    exact .inr ⟨h_states, h_claim, id⟩

/-- With a tab that goes, both its claim and its debugger go. -/
theorem removed (n : ℕ) :
    Hands c (c.run (onRemoved c.registry n)) .outside .outside := by
  unfold onRemoved
  split
  case h_1 => exact .idle (fun _ _ _ => id) fun _ _ => id
  -- A tab of the registry: it is detached and its claim is gone.
  case h_2 =>
    rw [Control.run_cons, Control.run_cons, Control.run_nil]
    constructor
    · intro m tabID h_handle h_claim h_states
      rw [Control.handleOf_remove] at h_handle
      rw [Control.claimOf_remove] at h_claim
      split_ifs at h_handle h_claim with h_eq
      exact .inr ⟨h_handle, h_claim, fun h_old => h_states (Finset.mem_erase.mpr ⟨h_eq, h_old⟩), id⟩
    · intro m h_states h_claim
      obtain ⟨h_ne, h_old⟩ := Finset.mem_erase.mp h_states
      rw [Control.claimOf_remove, if_neg h_ne] at h_claim
      exact .inr ⟨h_old, h_claim, id⟩

/-- Chrome takes the debugger away from a tab without claim. -/
theorem onDetach {n : ℕ} (h_none : c.claimOf n = none) :
    Hands c (c.apply (.onDetach n)) .outside .outside where
  claimed := by
    intro m tabID h_handle h_claim h_states
    refine .inr ⟨h_handle, h_claim, fun h_old => h_states (Finset.mem_erase.mpr ⟨?_, h_old⟩), id⟩
    rintro rfl
    rw [show (c.apply (.onDetach m)).claimOf m = none from h_none] at h_claim
    cases h_claim
  attached := by
    intro m h_states h_claim
    exact .inr ⟨(Finset.mem_erase.mp h_states).2, h_claim, id⟩

/-- If Chrome takes the debugger away, the claim goes with it. -/
theorem debuggerDetached (n : ℕ) :
    Hands c (c.run (onDebuggerDetached c n)) .outside .outside := by
  unfold onDebuggerDetached
  split_ifs with h_attached
  -- the table does not have the tab
  case neg => exact .idle (fun _ _ _ => id) fun _ _ => id
  cases h_state : c.registry.fromChromeID n with
  -- no object of the registry: only the entry of the table goes
  | none =>
    refine .onDetach ?_
    rw [Control.claimOf, TabRegistry.claimOf, h_state]
    rfl
  -- With an object the claim goes too, if there is one.
  | some state =>
    obtain ⟨h_index, h_claimOf⟩ := TabRegistry.of_fromChromeID h_state
    replace h_claimOf : c.claimOf n = state.claim := h_claimOf
    dsimp only
    split_ifs with h_some
    case neg =>
      refine .onDetach ?_
      rw [h_claimOf]
      exact Option.not_isSome_iff_eq_none.mp h_some
    rw [Control.run_cons, Control.run_cons, Control.run_nil]
    constructor
    · intro m tabID h_handle h_claim h_states
      rw [Control.handleOf_release] at h_handle
      rw [Control.states_release] at h_states
      rw [Control.claimOf_release] at h_claim
      split_ifs at h_claim with h_eq
      · cases h_claim
      refine .inr ⟨h_handle, h_claim, fun h_old => h_states (Finset.mem_erase.mpr ⟨?_, h_old⟩), id⟩
      rintro rfl
      exact h_eq h_index
    · intro m h_states h_claim
      rw [Control.states_release] at h_states
      obtain ⟨h_ne, h_old⟩ := Finset.mem_erase.mp h_states
      rw [Control.claimOf_release] at h_claim
      split_ifs at h_claim with h_eq
      · exact absurd (TabRegistry.chromeTabID_inj h_eq h_index) h_ne
      · exact .inr ⟨h_old, h_claim, id⟩

end Hands

/-! ### The invariant -/

namespace Balanced

variable [DecidableEq ρ] {s : State ρ}

/-- A handler makes a step. -/
theorem step (h : Balanced s) (r : ρ) {x : Handler × List Op}
    (h_hands : Hands s.control (s.control.run x.2) (s.handlers r) x.1) : Balanced (s.step r x) where
  -- the handler that steps, or another one as before
  claimed := by
    intro n tabID h_handle h_claim h_states
    rcases h_hands.claimed h_handle h_claim h_states with
      h_restores | ⟨h_handle, h_claim, h_states, h_keeps⟩
    · exact ⟨r, by rw [State.step_self]; exact h_restores⟩
    · obtain ⟨r', h_restores⟩ := h.claimed h_handle h_claim h_states
      refine ⟨r', ?_⟩
      by_cases h_eq : r' = r
      · subst h_eq
        rw [State.step_self]
        exact h_keeps h_restores
      · rw [State.step_of_ne h_eq]
        exact h_restores
  attached := by
    intro n h_states h_claim
    rcases h_hands.attached h_states h_claim with h_detaches | ⟨h_states, h_claim, h_keeps⟩
    · exact ⟨r, by rw [State.step_self]; exact h_detaches⟩
    · obtain ⟨r', h_detaches⟩ := h.attached h_states h_claim
      refine ⟨r', ?_⟩
      by_cases h_eq : r' = r
      · subst h_eq
        rw [State.step_self]
        exact h_keeps h_detaches
      · rw [State.step_of_ne h_eq]
        exact h_detaches

omit [DecidableEq ρ] in
/-- Chrome reports something. -/
theorem chrome (h : Balanced s) {c : Control} (h_hands : Hands s.control c .outside .outside) :
    Balanced { s with control := c } where
  claimed := by
    intro n tabID h_handle h_claim h_states
    rcases h_hands.claimed h_handle h_claim h_states with
      h_restores | ⟨h_handle, h_claim, h_states, -⟩
    · exact h_restores.elim
    · exact h.claimed h_handle h_claim h_states
  attached := by
    intro n h_states h_claim
    rcases h_hands.attached h_states h_claim with h_detaches | ⟨h_states, h_claim, -⟩
    · exact h_detaches.elim
    · exact h.attached h_states h_claim

/-- A handler starts. -/
theorem start (h : Balanced s) {r : ρ} (h_outside : s.handlers r = .outside)
    {x : Handler × List Op} (h_hands : Hands s.control (s.control.run x.2) .outside x.1) :
    Balanced (s.step r x) := by
  refine h.step r ?_
  rw [h_outside]
  exact h_hands

/-- Every step in turn keeps the balance. -/
theorem next (h : Balanced s) (h_hold : AllHold s) {e : Event ρ} (he : enabled s e)
    (h_turn : InTurn s e) : Balanced (next s e) := by
  cases e with
  | tabClaim r params => exact h.start he (.claimStart (tabClaim_start params))
  | tabRelease r params => exact h.start he (.start (tabRelease_start params))
  | browserStop r params => exact h.start he (.start (browserStop_start params))
  | popupRelease r params => exact h.start he (.start (popupRelease_start params))
  | stopAll r => exact h.start he (.start .stops)
  | settle r o => exact h.step r (.settle (h_hold r) h_turn)
  | settleTask r n o => exact h.step r (.settleTask (h_hold r) h_turn)
  | ensure n handle owned => exact h.chrome (.ensure n handle owned)
  | committed n => exact h.chrome (.noteNavigation n)
  | removed n => exact h.chrome (.removed n)
  | debuggerDetached n => exact h.chrome (.debuggerDetached n)

/-- The balance holds in every state that is reached in turn. -/
theorem of_reachable (h : ((machine ρ).restrict InTurn).Reachable s) : Balanced s := by
  refine h.induction ⟨by rintro _ _ ⟨⟩, fun h_states => absurd h_states (Finset.notMem_empty _)⟩ ?_
  intro s e hs h_balanced he
  exact h_balanced.next (.of_reachable (fun _ _ => InTurn.unused) hs) he.1 he.2

end Balanced

/-! ### After a stop -/

/-- The handler that the event starts, if it stops everything. -/
def Event.stopsAll : Event ρ → Option ρ
  | .stopAll r => some r
  | .browserStop r params => if (optionalString params "sessionId").isNone then some r else none
  | _ => none

section

variable [DecidableEq ρ] {s : State ρ} {r : ρ}

/-- No request attaches the debugger before its first wait. -/
theorem Start.attach_not_mem {c : Control} {h : Handler} {ops : List Op} (h_start : Start c h ops)
    {n : ℕ} : .attach n ∉ ops := by
  intro h_mem
  cases h_start with
  | releases =>
    rw [releaseLocal_ops] at h_mem
    obtain ⟨task, -, h_op⟩ := List.mem_map.mp h_mem
    cases h_op
  | _ => simp at h_mem

omit [DecidableEq ρ] in
/-- The debugger is attached only by a `tab.claim` that waits for Chrome. -/
theorem attach_mem_effects {e : Event ρ} {n : ℕ} (h_mem : .attach n ∈ (effects s e).ops) :
    ∃ r tab leaseID, e = .settle r .resolved ∧ s.handlers r = .claim tab leaseID .attaching ∧
      n = tab.chromeTabID := by
  -- Only the settling of a claim attaches; every other event is seen not to by its definition.
  cases e with
  | tabClaim r params =>
    have h_start := tabClaim_start (c := s.control) params
    replace h_mem : .attach n ∈ (tabClaim s.control.registry params).2 := h_mem
    generalize (tabClaim s.control.registry params).1 = h',
      (tabClaim s.control.registry params).2 = ops at h_start h_mem
    cases h_start <;> simp at h_mem
  | tabRelease r params => cases Start.attach_not_mem (tabRelease_start params) h_mem
  | browserStop r params => cases Start.attach_not_mem (browserStop_start params) h_mem
  | popupRelease r params => cases Start.attach_not_mem (popupRelease_start params) h_mem
  | stopAll r => simp [effects, Effects.of, stopAll] at h_mem
  | settle r o =>
    replace h_mem : .attach n ∈ (settle s.control (s.handlers r) o).2 := h_mem
    -- of the handlers it is the claim whose storage has just been written
    cases h_handler : s.handlers r with
    | outside | settled | release =>
      rw [h_handler] at h_mem
      exact absurd h_mem List.not_mem_nil
    | claim tab leaseID phase =>
      rw [h_handler, settle_claim] at h_mem
      have h_step := claimStep_step s.control tab leaseID phase o
      generalize (claimStep s.control tab leaseID phase o).1 = phase',
        (claimStep s.control tab leaseID phase o).2 = ops at h_step h_mem
      cases h_step with
      | attaches => exact ⟨r, tab, leaseID, rfl, h_handler, by simpa using h_mem⟩
      | _ => simp at h_mem
    | popup tab leaseID =>
      rw [h_handler] at h_mem
      cases o with
      | rejected => exact absurd h_mem List.not_mem_nil
      | resolved =>
        simp only [settle, popupStep] at h_mem
        split at h_mem <;> simp at h_mem
    | stopAll phase =>
      rw [h_handler, settle_stopAll] at h_mem
      cases phase <;> cases o <;> simp [stopStep] at h_mem
  | settleTask r m o =>
    replace h_mem : .attach n ∈ (settleTask s.control (s.handlers r) m o).2 := h_mem
    cases h_handler : s.handlers r with
    | release tasks =>
      rw [h_handler, settleTask_release] at h_mem
      obtain ⟨task, -, -, -, h_op⟩ := mem_taskStep_ops h_mem
      cases h_op
    | _ =>
      rw [h_handler] at h_mem
      exact absurd h_mem List.not_mem_nil
  | ensure | committed => simp [effects] at h_mem
  | removed m =>
    replace h_mem : .attach n ∈ onRemoved s.control.registry m := h_mem
    unfold onRemoved at h_mem
    split at h_mem <;> simp at h_mem
  | debuggerDetached m =>
    replace h_mem : .attach n ∈ onDebuggerDetached s.control m := h_mem
    unfold onDebuggerDetached at h_mem
    split_ifs at h_mem
    · rcases List.mem_cons.mp h_mem with h_eq | h_mem
      · cases h_eq
      · split at h_mem
        · split_ifs at h_mem <;> simp at h_mem
        · simp at h_mem
    · simp at h_mem

/-- Calls that do not attach the debugger attach it to no tab. -/
theorem Control.states_run {c : Control} {ops : List Op} (h_empty : c.states = ∅)
    (h_ops : ∀ n, .attach n ∉ ops) : (c.run ops).states = ∅ := by
  induction ops generalizing c with
  | nil => exact h_empty
  | cons op ops ih =>
    refine ih ?_ fun n h_mem => h_ops n (.tail _ h_mem)
    cases op with
    | attach n => exact absurd (.head _) (h_ops n)
    | detach n => exact (congrArg (·.erase n) h_empty).trans (Finset.erase_empty n)
    | onDetach n => exact (congrArg (·.erase n) h_empty).trans (Finset.erase_empty n)
    | detachAll => rfl
    | claim => rw [states_claim, h_empty]
    | release => rw [states_release, h_empty]
    | releaseAll | ensure | noteNavigation | remove => exact h_empty

/-- After a stop there is no claim, and once `detachAll` was called, no debugger. -/
def Stopped (r : ρ) (s : State ρ) : Prop :=
  (∀ n, s.control.claimOf n = none) ∧
    (s.handlers r = .stopAll .releasing ∨ s.control.states = ∅)

/-- What is stopped stays so until the next claim. -/
theorem Stopped.next (h : Stopped r s) {e : Event ρ} (he : enabled s e) (h_turn : InTurn s e)
    (h_e : ∀ r params, e ≠ .tabClaim r params) : Stopped r (next s e) := by
  have h_claims (n : ℕ) : (Extension.next s e).control.claimOf n = none := by
    refine Option.eq_none_iff_forall_ne_some.mpr fun claim h_claim => ?_
    have h_old := Control.claimOf_of_run (fun op h_op => setsClaim_effects h_e h_op) h_claim
    rw [h.1 n] at h_old
    cases h_old
  refine ⟨h_claims, ?_⟩
  -- nobody attaches the debugger, as no tab has a claim
  have h_attach (n : ℕ) : .attach n ∉ (effects s e).ops := by
    intro h_mem
    obtain ⟨r', tab, leaseID, rfl, h_handler, rfl⟩ := attach_mem_effects h_mem
    replace h_turn : (s.handlers r').InTurn s.control .resolved := h_turn
    rw [h_handler] at h_turn
    have h_some := h_turn.2.1 rfl rfl
    rw [h.1 tab.chromeTabID] at h_some
    cases h_some
  rcases h.2 with h_handler | h_empty
  case inr => exact .inr (Control.states_run h_empty h_attach)
  have h_other {r' : ρ} (h_ne : s.handlers r' ≠ .stopAll .releasing) (x : Handler × List Op) :
      (s.step r' x).handlers r = .stopAll .releasing := by
    rw [State.step_of_ne, h_handler]
    rintro rfl
    exact h_ne h_handler
  have h_outside {r' : ρ} (h : s.handlers r' = .outside) :
      s.handlers r' ≠ .stopAll .releasing := by
    rw [h]
    rintro ⟨⟩
  cases e with
  | tabClaim r' | tabRelease r' | browserStop r' | popupRelease r' | stopAll r' =>
    exact .inl (h_other (h_outside he) _)
  | settleTask r' n o =>
    refine .inl (h_other ?_ _)
    intro h_eq
    obtain ⟨task, h_task, -⟩ := he
    rw [h_eq] at h_task
    exact absurd h_task List.not_mem_nil
  | ensure | committed | removed | debuggerDetached => exact .inl h_handler
  | settle r' o =>
    by_cases h_eq : r' = r
    case neg =>
      left
      show (s.step r' _).handlers r = _
      rw [State.step_of_ne (Ne.symm h_eq), h_handler]
    subst h_eq
    right
    replace h_turn : (s.handlers r').InTurn s.control o := h_turn
    rw [h_handler] at h_turn
    show (s.control.run (settle s.control (s.handlers r') o).2).states = ∅
    rw [h_handler]
    cases o with
    | resolved => rfl
    | rejected =>
      -- the stop has failed, which it may only do if there was nothing to detach
      refine Finset.eq_empty_of_forall_notMem fun n h_mem => ?_
      cases (h_turn rfl n h_mem).mpr (h.1 n)

/-- An emergency stop stops. -/
theorem stopped_of_stopsAll {e : Event ρ} (h : e.stopsAll = some r) : Stopped r (next s e) := by
  -- whatever event it is, the effects are those of `stopAll`
  have h_stop : effects s e = .of r stopAll := by
    cases e with
    | stopAll r' => rw [Option.some_inj.mp h]; rfl
    | browserStop r' params =>
      simp only [Event.stopsAll] at h
      split_ifs at h with h_none
      obtain rfl := Option.some_inj.mp h
      show Effects.of r' (browserStop s.control.registry params) = _
      unfold browserStop
      rw [Option.isNone_iff_eq_none.mp h_none]
    | _ => cases h
  have h_next : next s e = s.step r stopAll := by
    unfold next
    rw [h_stop]
    rfl
  rw [h_next]
  refine ⟨fun n => ?_, .inl (State.step_self ..)⟩
  show (s.control.apply .releaseAll).claimOf n = none
  exact Control.claimOf_releaseAll ..

end

/-- **After an emergency stop nothing is under control.** In every run in which every step is made
in its turn: once a stop has settled after which no `tab.claim` came, no tab has a claim, and the
debugger is attached to none. And when no handler is at work, the debugger is attached to exactly
the tabs with a claim. -/
theorem nothingUnderControl [DecidableEq ρ] :
    (∀ (es : List (Event ρ)) e fs r,
      ((machine ρ).restrict InTurn).Runs (machine ρ).init (es ++ e :: fs) →
      e.stopsAll = some r → (∀ r' params, .tabClaim r' params ∉ fs) →
      ¬ ((after (es ++ e :: fs)).handlers r).Running →
      ∀ n, (after (es ++ e :: fs)).control.claimOf n = none ∧
        n ∉ (after (es ++ e :: fs)).control.states) ∧
    ∀ s : State ρ, ((machine ρ).restrict InTurn).Reachable s →
      (∀ r, ¬ (s.handlers r).Running) →
      ∀ n, n ∈ s.control.states ↔ (s.control.claimOf n).isSome := by
  constructor
  -- after a stop: from the state in which it has found no claim
  · intro es e fs r h_runs h_stop h_claims h_settled n
    rw [Machine.runs_append, Machine.runs_cons] at h_runs
    obtain ⟨h_before, h_enabled, h_after⟩ := h_runs
    have h_reachable := (Machine.Runs.reachable h_before).next h_enabled
    have h_stopped : Stopped r (((machine ρ).restrict InTurn).exec
        (next ((machine ρ).exec (machine ρ).init es) e) fs) :=
      Machine.Runs.stable (M := (machine ρ).restrict InTurn) (P := Stopped r)
        (Q := fun f => ∀ r' params, f ≠ .tabClaim r' params)
        (fun _ _ _ h_f h he => h.next he.1 he.2 h_f) h_reachable (stopped_of_stopsAll h_stop)
        (fun f h_mem r' params h_eq => h_claims r' params (h_eq ▸ h_mem)) h_after
    have h_end : ((machine ρ).restrict InTurn).exec
        (next ((machine ρ).exec (machine ρ).init es) e) fs = after (es ++ e :: fs) :=
      (Machine.exec_append _ _ es (e :: fs)).symm
    rw [h_end] at h_stopped
    refine ⟨h_stopped.1 n, ?_⟩
    rcases h_stopped.2 with h_handler | h_empty
    · rw [h_handler] at h_settled
      exact absurd (.inl rfl) h_settled
    · rw [h_empty]
      exact Finset.notMem_empty n
  -- without handlers: what is owed by nobody does not exist
  · intro s h h_idle n
    have h_balanced := Balanced.of_reachable h
    constructor
    · intro h_states
      by_contra h_none
      obtain ⟨r, h_detaches⟩ :=
        h_balanced.attached h_states (Option.not_isSome_iff_eq_none.mp h_none)
      refine h_idle r ?_
      cases h_handler : s.handlers r <;> rw [h_handler] at h_detaches <;>
        first | exact h_detaches.elim | exact .inl rfl
    · intro h_claim
      by_contra h_states
      obtain ⟨tabID, h_handle⟩ : ∃ tabID, s.control.handleOf n = some tabID := by
        refine Option.ne_none_iff_exists'.mp fun h_none => ?_
        rw [Control.claimOf_of_handleOf_none h_none] at h_claim
        cases h_claim
      obtain ⟨r, h_restores⟩ := h_balanced.claimed h_handle h_claim h_states
      refine h_idle r ?_
      cases h_handler : s.handlers r with
      | release tasks =>
        rw [h_handler] at h_restores
        obtain ⟨task, h_mem, -⟩ := h_restores
        exact .inr (List.ne_nil_of_mem h_mem)
      | _ =>
        rw [h_handler] at h_restores
        first | exact h_restores.elim | exact .inl rfl

/-- A tab is claimed. -/
def claimed : List (Event (Fin 2)) := .ensure 7 "tab_7" false :: claiming 0 "lease_1" false 8

/-- A stop that nothing interrupts. -/
def stopping (r : ρ) : List (Event ρ) := List.replicate 4 (.settle r .resolved)

/-- A tab is under control, and after the stop it is not. -/
theorem nothingUnderControl_stopped :
    (7 ∈ (after claimed).control.states ↔ ((after claimed).control.claimOf 7).isSome) ∧
      7 ∈ (after claimed).control.states ∧
      (after (claimed ++ .stopAll 1 :: stopping 1)).control.claimOf 7 = none ∧
      7 ∉ (after (claimed ++ .stopAll 1 :: stopping 1)).control.states := by
  have h : ((machine (Fin 2)).restrict InTurn).Runs (machine (Fin 2)).init
        (claimed ++ .stopAll 1 :: stopping 1) ∧
      ((machine (Fin 2)).restrict InTurn).Runs (machine (Fin 2)).init claimed ∧
      (∀ r, ¬ ((after claimed).handlers r).Running) ∧ 7 ∈ (after claimed).control.states ∧
      ¬ ((after (claimed ++ .stopAll 1 :: stopping 1)).handlers 1).Running := by
    decide +kernel
  obtain ⟨h_runs, h_runs_claimed, h_idle, h_attached, h_settled⟩ := h
  have h_reachable : ((machine (Fin 2)).restrict InTurn).Reachable (after claimed) := by
    have h := h_runs_claimed.reachable
    rwa [Machine.exec_restrict, Machine.restrict_init] at h
  -- The theorem at the state where every handler is idle.
  have h_control := nothingUnderControl (ρ := Fin 2)
  refine ⟨h_control.2 _ h_reachable h_idle 7, h_attached, ?_⟩
  exact h_control.1 claimed (.stopAll 1) (stopping 1) 1 h_runs rfl (by simp [stopping]) h_settled 7

/-- A tab is claimed, and everything is stopped before Chrome has attached the debugger. -/
def stoppedAttaching : List (Event (Fin 2)) :=
  .ensure 7 "tab_7" false :: claiming 0 "lease_1" false 1

/-- After the stop and the claim have settled, and without a `tab.claim` after the stop, the
debugger is attached to a tab that has no claim. -/
theorem not_nothingUnderControl_claiming :
    (machine (Fin 2)).Runs (machine (Fin 2)).init
        (stoppedAttaching ++ .stopAll 1 :: (stopping 1 ++ List.replicate 7 (.settle 0 .resolved))) ∧
      (∀ r, ¬ ((after (stoppedAttaching ++ .stopAll 1 ::
        (stopping 1 ++ List.replicate 7 (.settle 0 .resolved)))).handlers r).Running) ∧
      (after (stoppedAttaching ++ .stopAll 1 ::
        (stopping 1 ++ List.replicate 7 (.settle 0 .resolved)))).control.claimOf 7 = none ∧
      7 ∈ (after (stoppedAttaching ++ .stopAll 1 ::
        (stopping 1 ++ List.replicate 7 (.settle 0 .resolved)))).control.states := by
  decide +kernel

end BrowserControl.Extension
