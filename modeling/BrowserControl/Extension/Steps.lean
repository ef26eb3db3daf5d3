import BrowserControl.Extension.Control

/-!
# What the handlers of the extension can do

The steps of `Extension.machine`, sorted by what they do: how a handler starts (`Start`), what a
step of `tab.claim` does (`ClaimStep`), and which calls the other steps make.

A handler keeps the `TabState` it has looked up while it waits. As long as no tab is registered a
second time meanwhile (`Unused`), this is the state under which the tab is registered, or the tab
is not registered any more (`AllHold`).
-/

namespace BrowserControl.Extension

open Encoding Transition

/-! ### What a handler can do -/

/-- How `tab.claim` starts. -/
inductive ClaimStart (c : Control) : Handler → List Op → Prop where
  | refused : ClaimStart c .settled []
  | claims {sessionID leaseID : String} {force : Bool} {R : TabRegistry} {state : TabState}
      (h : c.registry.claim state.tabID sessionID leaseID force = .ok (R, state)) :
      ClaimStart c (.claim state.held leaseID .persisting)
        [.claim state.tabID sessionID leaseID force]

/-- How another handler starts. -/
inductive Start (c : Control) : Handler → List Op → Prop where
  | refused : Start c .settled []
  | releases {states : List TabState}
      (h : ∀ state ∈ states, c.registry.fromHandle state.tabID = .ok state) :
      Start c (releaseLocal states).1 (releaseLocal states).2
  | asks {state : TabState} (h : c.registry.fromHandle state.tabID = .ok state) :
      Start c (.popup state.held (state.claim.map (·.leaseID))) []
  | stops : Start c (.stopAll .releasing) [.releaseAll]

section Start

variable {c : Control} (params : Object)

/-- How `tab.claim` begins. -/
theorem tabClaim_start :
    ClaimStart c (tabClaim c.registry params).1 (tabClaim c.registry params).2 := by
  unfold tabClaim
  dsimp only
  split
  case h_2 => exact .refused
  -- The parameters are read; then the tab must be known.
  case h_1 started h =>
    obtain ⟨tabID, -, h⟩ := of_bind_ok h
    split at h
    case h_1 => cases h
    case h_2 =>
      obtain ⟨sessionID, -, h⟩ := of_bind_ok h
      obtain ⟨leaseID, -, h⟩ := of_bind_ok h
      obtain ⟨⟨R, state⟩, h_claim, h⟩ := of_bind_ok h
      obtain rfl := Except.ok.inj h
      obtain rfl := c.registry.named (TabRegistry.fromHandle_ok (TabRegistry.claim_ok h_claim).1).2
      exact .claims h_claim

/-- How `tab.release` begins. -/
theorem tabRelease_start :
    Start c (tabRelease c.registry params).1 (tabRelease c.registry params).2 := by
  unfold tabRelease
  dsimp only
  split
  case h_2 => exact .refused
  case h_1 state h =>
    obtain ⟨tabID, -, h⟩ := of_bind_ok h
    have h_get := (TabRegistry.assertClaimed_ok h).1
    obtain rfl := c.registry.named (TabRegistry.fromHandle_ok h_get).2
    refine .releases fun state' h_mem => ?_
    rw [List.mem_singleton.mp h_mem]
    exact h_get

/-- How `browser.stop` begins. -/
theorem browserStop_start :
    Start c (browserStop c.registry params).1 (browserStop c.registry params).2 := by
  unfold browserStop
  split
  case h_1 sessionID _ =>
    refine .releases fun state h_mem => ?_
    exact TabRegistry.fromHandle_of_mem_all (List.mem_of_mem_filter h_mem)
  case h_2 => exact .stops

/-- How the release button of the popup begins. -/
theorem popupRelease_start :
    Start c (popupRelease c.registry params).1 (popupRelease c.registry params).2 := by
  unfold popupRelease
  dsimp only
  split
  case h_2 => exact .refused
  case h_1 state h =>
    obtain ⟨tabID, -, h_get⟩ := of_bind_ok h
    obtain rfl := c.registry.named (TabRegistry.fromHandle_ok h_get).2
    exact .asks h_get

/-- What `#releaseLocal` is about to do, it does on behalf of the claims it finds. -/
theorem mem_releaseLocal {states : List TabState} {task : Release}
    (h : task ∈ (releaseLocal states).1.tasks) :
    ∃ state ∈ states, ∃ claim, state.claim = some claim ∧
      task = { tab := state.held, leaseID := claim.leaseID, phase := .detaching } := by
  obtain ⟨state, h_mem, h_map⟩ := List.mem_filterMap.mp h
  obtain ⟨claim, h_claim, rfl⟩ := Option.map_eq_some_iff.mp h_map
  exact ⟨state, h_mem, claim, h_claim, rfl⟩

/-- The releases begin with the debugger. -/
theorem releaseLocal_ops (states : List TabState) :
    (releaseLocal states).2 = (releaseLocal states).1.tasks.map fun task =>
      .detach task.tab.chromeTabID (some task.leaseID) := rfl

end Start

/-- A step of `tab.claim`, with what is known when it is taken. -/
inductive ClaimStep (c : Control) (tab : Held) (leaseID : String) :
    ClaimPhase → Settled → Option ClaimPhase → List Op → Prop where
  | found (h : tab.chromeTabID ∈ c.states) :
      ClaimStep c tab leaseID .persisting .resolved (some .attached) []
  | opens (h : tab.chromeTabID ∉ c.states) :
      ClaimStep c tab leaseID .persisting .resolved (some .attaching) []
  | unstored : ClaimStep c tab leaseID .persisting .rejected none []
  | attaches : ClaimStep c tab leaseID .attaching .resolved (some .enabling)
      [.attach tab.chromeTabID]
  | conflicts : ClaimStep c tab leaseID .attaching .rejected (some .failing) []
  /-- A step inside `attach` or `#ensureRuntime`. -/
  | goes {phase phase' : ClaimPhase} {o : Settled}
      (h : phase ∈ [ClaimPhase.enabling, .autoAttaching, .framing, .attached, .injecting])
      (h' : phase' ∈ [ClaimPhase.autoAttaching, .framing, .attached, .injecting, .announcing]) :
      ClaimStep c tab leaseID phase o (some phase') []
  | refused {phase : ClaimPhase} {o : Settled} (h : phase ∈ [ClaimPhase.enabling, .autoAttaching])
      (h_states : tab.chromeTabID ∉ c.states) :
      ClaimStep c tab leaseID phase o (some .unwinding) []
  | detaches {phase : ClaimPhase} {o : Settled}
      (h : phase ∈ [ClaimPhase.autoAttaching, .framing, .unwinding]) :
      ClaimStep c tab leaseID phase o (some .detaching) [.detach tab.chromeTabID (some leaseID)]
  | fails {o : Settled} : ClaimStep c tab leaseID .detaching o (some .failing) []
  | releases {phase : ClaimPhase} {o : Settled} (h : phase ∈ [ClaimPhase.injecting, .failing]) :
      ClaimStep c tab leaseID phase o (some .releasing) [.release tab.tabID (some leaseID)]
  /-- The tab was removed. -/
  | gone {phase : ClaimPhase} {o : Settled} (h : phase ∈ [ClaimPhase.injecting, .failing])
      (h_gone : ∀ n, c.handleOf n ≠ some tab.tabID) : ClaimStep c tab leaseID phase o none []
  | closes : ClaimStep c tab leaseID .releasing .resolved (some .closing)
      [.detach tab.chromeTabID (some leaseID)]
  | unreleased : ClaimStep c tab leaseID .releasing .rejected none []
  | ends {phase : ClaimPhase} {o : Settled} (h : phase ∈ [ClaimPhase.closing, .announcing]) :
      ClaimStep c tab leaseID phase o none []

section ClaimStep

variable {c : Control} {tab : Held}

/-- `registry.release` in a handler. -/
theorem release_cases (c : Control) (tab : Held) {φ : Type} (leaseID : String) (phase : φ) :
    release c tab leaseID phase = (some phase, [.release tab.tabID (some leaseID)]) ∨
      release c tab leaseID phase = (none, []) ∧ ∀ n, c.handleOf n ≠ some tab.tabID := by
  unfold release
  split
  case h_1 => exact .inl rfl
  case h_2 error h =>
    refine .inr ⟨rfl, fun n h_index => ?_⟩
    obtain ⟨state, h_get, -⟩ := TabRegistry.fromHandle_of_byChromeID h_index
    rw [h] at h_get
    cases h_get

/-- A command is sent, or fails at once where the debugger is not attached. -/
theorem send_cases (phase : ClaimPhase) :
    send c tab phase = phase ∨ send c tab phase = .unwinding ∧ tab.chromeTabID ∉ c.states := by
  unfold send
  split_ifs with h
  · exact .inl rfl
  · exact .inr ⟨rfl, h⟩

/-- A claim that ends waits for the debugger. -/
theorem claimStep_release (leaseID : String) {phase : ClaimPhase} (o : Settled)
    (h : phase ∈ [ClaimPhase.injecting, .failing]) :
    ClaimStep c tab leaseID phase o (release c tab leaseID ClaimPhase.releasing).1
      (release c tab leaseID ClaimPhase.releasing).2 := by
  rcases release_cases c tab leaseID ClaimPhase.releasing with h_eq | ⟨h_eq, h_gone⟩
  · rw [h_eq]
    exact .releases h
  · rw [h_eq]
    exact .gone h h_gone

/-- A claim that goes on sends its next command. -/
theorem claimStep_send (leaseID : String) {phase phase' : ClaimPhase} (o : Settled)
    (h : phase ∈ [ClaimPhase.enabling, .autoAttaching])
    (h_goes : phase ∈ [ClaimPhase.enabling, .autoAttaching, .framing, .attached, .injecting])
    (h' : phase' ∈ [ClaimPhase.autoAttaching, .framing, .attached, .injecting, .announcing]) :
    ClaimStep c tab leaseID phase o (some (send c tab phase')) [] := by
  rcases send_cases phase' with h_eq | ⟨h_eq, h_states⟩
  · rw [h_eq]
    exact .goes h_goes h'
  · rw [h_eq]
    exact .refused h h_states

/-- Every step of `tab.claim`. -/
theorem claimStep_step (c : Control) (tab : Held) (leaseID : String) (phase : ClaimPhase)
    (o : Settled) :
    ClaimStep c tab leaseID phase o (claimStep c tab leaseID phase o).1
      (claimStep c tab leaseID phase o).2 := by
  -- the phases in the order in which a claim goes through them
  cases phase with
  | persisting =>
    cases o with
    | rejected => exact .unstored
    | resolved =>
      by_cases h : tab.chromeTabID ∈ c.states
      · simp only [claimStep, if_pos h]
        exact .found h
      · simp only [claimStep, if_neg h]
        exact .opens h
  | attaching =>
    cases o with
    | resolved => exact .attaches
    | rejected => exact .conflicts
  | enabling => exact claimStep_send leaseID o (by decide) (by decide) (by decide)
  | autoAttaching =>
    cases o with
    | resolved => exact claimStep_send leaseID .resolved (by decide) (by decide) (by decide)
    | rejected => exact .detaches (by decide)
  | framing =>
    cases o with
    | resolved => exact .goes (by decide) (by decide)
    | rejected => exact .detaches (by decide)
  -- From here on the claim has failed and gives back what it has taken.
  | unwinding => exact .detaches (by decide)
  | detaching => exact .fails
  | failing => exact claimStep_release leaseID o (by decide)
  | attached => exact .goes (by decide) (by decide)
  | injecting =>
    cases o with
    | resolved => exact .goes (by decide) (by decide)
    | rejected => exact claimStep_release leaseID .rejected (by decide)
  | releasing =>
    cases o with
    | resolved => exact .closes
    | rejected => exact .unreleased
  | closing => exact .ends (by decide)
  | announcing => exact .ends (by decide)

end ClaimStep

/-! ### What a handler holds -/

/-- The tabs whose states a handler holds. -/
def Handler.tabs : Handler → List Held
  | .claim tab _ _ | .popup tab _ => [tab]
  | .release tasks => tasks.map (·.tab)
  | _ => []

section

variable {c : Control}

/-- A handler starts with tabs that are registered. -/
theorem Start.tabs {h : Handler} {ops : List Op} (h_start : Start c h ops) {tab : Held}
    (h_mem : tab ∈ h.tabs) :
    ∃ state, c.registry.fromHandle state.tabID = .ok state ∧ tab = state.held := by
  cases h_start with
  | refused | stops => exact absurd h_mem List.not_mem_nil
  | @asks state h => exact ⟨state, h, List.mem_singleton.mp h_mem⟩
  | releases h =>
    obtain ⟨task, h_task, rfl⟩ := List.mem_map.mp h_mem
    obtain ⟨state, h_state, claim, -, rfl⟩ := mem_releaseLocal h_task
    exact ⟨state, h state h_state, rfl⟩

/-- A claim that begins holds a tab that is registered. -/
theorem ClaimStart.tabs {h : Handler} {ops : List Op} (h_start : ClaimStart c h ops) {tab : Held}
    (h_mem : tab ∈ h.tabs) :
    ∃ state, c.registry.fromHandle state.tabID = .ok state ∧ tab = state.held := by
  cases h_start with
  | refused => exact absurd h_mem List.not_mem_nil
  | @claims _ _ _ _ state h =>
    exact ⟨state, (TabRegistry.claim_ok h).1, List.mem_singleton.mp h_mem⟩

/-- A step of a release is one of its tasks, or none. -/
theorem taskStep_cases (c : Control) (tasks : List Release) (n : ℕ) (o : Settled) :
    taskStep c tasks n o = (.release tasks, []) ∨
      ∃ task ∈ tasks, task.tab.chromeTabID = n ∧
        taskStep c tasks n o =
          (.release (tasks.filterMap fun t =>
            if t = task then (releaseStep c task.tab task.leaseID task.phase o).1.map
              fun phase => { task with phase }
            else some t), (releaseStep c task.tab task.leaseID task.phase o).2) := by
  unfold taskStep
  split
  case h_1 => exact .inl rfl
  case h_2 task h_find =>
    have h_tab := List.find?_some h_find
    exact .inr ⟨task, List.mem_of_find?_eq_some h_find, of_decide_eq_true h_tab, rfl⟩

/-- What is left of several releases after a step of one of them. -/
theorem mem_taskStep {tasks : List Release} {n : ℕ} {o : Settled} {t : Release}
    (h : t ∈ (taskStep c tasks n o).1.tasks) :
    t ∈ tasks ∨ ∃ task ∈ tasks, ∃ phase, task.tab.chromeTabID = n ∧
      (releaseStep c task.tab task.leaseID task.phase o).1 = some phase ∧
      t = { task with phase } := by
  rcases taskStep_cases c tasks n o with h_eq | ⟨task, h_task, h_tab, h_eq⟩
  · rw [h_eq] at h
    exact .inl h
  · rw [h_eq] at h
    obtain ⟨t', h_mem, h_t⟩ := List.mem_filterMap.mp h
    split_ifs at h_t
    · obtain ⟨phase, h_phase, rfl⟩ := Option.map_eq_some_iff.mp h_t
      exact .inr ⟨task, h_task, phase, h_tab, h_phase, rfl⟩
    · rw [← Option.some_inj.mp h_t]
      exact .inl h_mem

/-- A claim that waits goes on by its own step. -/
theorem settle_claim (tab : Held) (leaseID : String) (phase : ClaimPhase) (o : Settled) :
    settle c (.claim tab leaseID phase) o =
      ((claimStep c tab leaseID phase o).1.elim .settled (.claim tab leaseID),
        (claimStep c tab leaseID phase o).2) := rfl

/-- So does the emergency stop. -/
theorem settle_stopAll (phase : StopPhase) (o : Settled) :
    settle c (.stopAll phase) o =
      ((stopStep phase o).1.elim .settled .stopAll, (stopStep phase o).2) := rfl

/-- And so do the tasks of a release. -/
theorem settleTask_release (tasks : List Release) (n : ℕ) (o : Settled) :
    settleTask c (.release tasks) n o =
      (.release (taskStep c tasks n o).1.tasks, (taskStep c tasks n o).2) := by
  show taskStep c tasks n o = _
  rcases taskStep_cases c tasks n o with h_eq | ⟨task, -, -, h_eq⟩
  · rw [h_eq]
    rfl
  · rw [h_eq]
    rfl

/-- No wait gives a handler another tab. -/
theorem tabs_settle {h : Handler} {o : Settled} {tab : Held} (h_mem : tab ∈ (settle c h o).1.tabs) :
    tab ∈ h.tabs := by
  cases h with
  | outside | settled => exact h_mem
  | release tasks => exact h_mem
  -- a handler that goes on keeps its tab, and one that ends has none
  | claim tab' leaseID phase =>
    simp only [settle] at h_mem
    cases h_step : (claimStep c tab' leaseID phase o).1 with
    | none => rw [h_step] at h_mem; exact absurd h_mem List.not_mem_nil
    | some phase' => rw [h_step] at h_mem; exact h_mem
  | popup tab' leaseID =>
    cases o with
    | rejected => exact absurd h_mem List.not_mem_nil
    | resolved =>
      simp only [settle, popupStep] at h_mem
      split at h_mem
      · exact absurd h_mem List.not_mem_nil
      · exact h_mem
  | stopAll phase =>
    simp only [settle] at h_mem
    cases h_step : (stopStep phase o).1 with
    | none => rw [h_step] at h_mem; exact absurd h_mem List.not_mem_nil
    | some phase' => rw [h_step] at h_mem; exact absurd h_mem List.not_mem_nil

/-- Nor does the end of a task. -/
theorem tabs_settleTask {h : Handler} {n : ℕ} {o : Settled} {tab : Held}
    (h_mem : tab ∈ (settleTask c h n o).1.tabs) : tab ∈ h.tabs := by
  cases h with
  | release tasks =>
    rw [settleTask_release] at h_mem
    obtain ⟨t, h_t, rfl⟩ := List.mem_map.mp h_mem
    rcases mem_taskStep h_t with h_old | ⟨task, h_task, phase, -, -, rfl⟩
    · exact List.mem_map_of_mem h_old
    · exact List.mem_map.mpr ⟨task, h_task, rfl⟩
  | _ => exact h_mem

/-! ### Which calls are made -/

/-- The calls that set a claim. -/
def Op.setsClaim : Op → Bool
  | .claim .. => true
  | _ => false

/-- The calls that leave the handles of the tabs alone. -/
def Op.keepsHandles : Op → Bool
  | .ensure .. | .remove _ => false
  | _ => true

/-- The calls that only end control or attach the debugger. -/
def Op.plain : Op → Bool
  | .release .. | .releaseAll | .attach _ | .detach .. | .detachAll | .onDetach _ => true
  | _ => false

/-- A plain operation makes no claim. -/
theorem setsClaim_of_plain {op : Op} (h : op.plain) : op.setsClaim = false := by
  cases op <;> first | rfl | cases h

/-- A plain operation keeps the handles. -/
theorem keepsHandles_of_plain {op : Op} (h : op.plain) : op.keepsHandles := by
  cases op <;> first | rfl | cases h

/-- A request that begins, other than a claim, does plain operations only. -/
theorem Start.plain {h : Handler} {ops : List Op} (h_start : Start c h ops) {op : Op}
    (h_mem : op ∈ ops) : op.plain := by
  cases h_start with
  | refused | asks => exact absurd h_mem List.not_mem_nil
  | stops => rw [List.mem_singleton.mp h_mem]; rfl
  | releases =>
    rw [releaseLocal_ops] at h_mem
    obtain ⟨task, -, rfl⟩ := List.mem_map.mp h_mem
    rfl

/-- A claim that begins keeps the handles. -/
theorem ClaimStart.keepsHandles {h : Handler} {ops : List Op} (h_start : ClaimStart c h ops)
    {op : Op} (h_mem : op ∈ ops) : op.keepsHandles := by
  cases h_start with
  | refused => exact absurd h_mem List.not_mem_nil
  | claims => rw [List.mem_singleton.mp h_mem]; rfl

/-- After a wait only plain operations are done. -/
theorem plain_settle {h : Handler} {o : Settled} {op : Op} (h_mem : op ∈ (settle c h o).2) :
    op.plain := by
  cases h with
  | outside | settled | release => exact absurd h_mem List.not_mem_nil
  | claim tab leaseID phase =>
    rw [settle_claim] at h_mem
    -- four steps of a claim write to the registry or the table
    have h_step := claimStep_step c tab leaseID phase o
    generalize (claimStep c tab leaseID phase o).1 = phase',
      (claimStep c tab leaseID phase o).2 = ops at h_step h_mem
    cases h_step with
    | attaches | detaches | releases | closes => rw [List.mem_singleton.mp h_mem]; rfl
    | _ => exact absurd h_mem List.not_mem_nil
  | popup tab leaseID =>
    cases o with
    | rejected => exact absurd h_mem List.not_mem_nil
    | resolved =>
      simp only [settle, popupStep] at h_mem
      split at h_mem
      · exact absurd h_mem List.not_mem_nil
      · rw [List.mem_singleton.mp h_mem]; rfl
  | stopAll phase =>
    cases phase <;> cases o <;> first
      | exact absurd h_mem List.not_mem_nil
      | (rw [List.mem_singleton.mp h_mem]; rfl)

/-- The calls that a step of a release makes. -/
theorem mem_releaseStep {tab : Held} {leaseID : String} {phase : ReleasePhase} {o : Settled}
    {op : Op} (h_mem : op ∈ (releaseStep c tab leaseID phase o).2) :
    phase = .removing ∧ op = .release tab.tabID (some leaseID) := by
  cases phase with
  | removing =>
    refine ⟨rfl, ?_⟩
    replace h_mem : op ∈ (release c tab leaseID ReleasePhase.persisting).2 := h_mem
    rcases release_cases c tab leaseID ReleasePhase.persisting with h_eq | ⟨h_eq, -⟩
    · rw [h_eq] at h_mem
      exact List.mem_singleton.mp h_mem
    · rw [h_eq] at h_mem
      exact absurd h_mem List.not_mem_nil
  | persisting => cases o <;> exact absurd h_mem List.not_mem_nil
  | _ => exact absurd h_mem List.not_mem_nil

/-- What the end of a task does, it does to the tab of the task. -/
theorem mem_taskStep_ops {tasks : List Release} {n : ℕ} {o : Settled} {op : Op}
    (h_mem : op ∈ (taskStep c tasks n o).2) : ∃ task ∈ tasks, task.tab.chromeTabID = n ∧
      task.phase = .removing ∧ op = .release task.tab.tabID (some task.leaseID) := by
  rcases taskStep_cases c tasks n o with h_eq | ⟨task, h_task, h_tab, h_eq⟩
  · rw [h_eq] at h_mem
    exact absurd h_mem List.not_mem_nil
  · rw [h_eq] at h_mem
    exact ⟨task, h_task, h_tab, mem_releaseStep h_mem⟩

/-- It is plain. -/
theorem plain_settleTask {h : Handler} {n : ℕ} {o : Settled} {op : Op}
    (h_mem : op ∈ (settleTask c h n o).2) : op.plain := by
  cases h with
  | release tasks =>
    obtain ⟨task, -, -, -, rfl⟩ := mem_taskStep_ops h_mem
    rfl
  | _ => exact absurd h_mem List.not_mem_nil

/-- So is what follows on a debugger that was detached. -/
theorem plain_onDebuggerDetached {n : ℕ} {op : Op} (h_mem : op ∈ onDebuggerDetached c n) :
    op.plain := by
  unfold onDebuggerDetached at h_mem
  split_ifs at h_mem
  · rcases List.mem_cons.mp h_mem with rfl | h_mem
    · rfl
    · split at h_mem
      · split_ifs at h_mem
        · rw [List.mem_singleton.mp h_mem]; rfl
        · exact absurd h_mem List.not_mem_nil
      · exact absurd h_mem List.not_mem_nil
  · exact absurd h_mem List.not_mem_nil

/-- Only `tab.claim` sets a claim. -/
theorem setsClaim_effects {ρ : Type*} {s : State ρ} {e : Event ρ}
    (h_e : ∀ r params, e ≠ .tabClaim r params) {op : Op} (h_mem : op ∈ (effects s e).ops) :
    op.setsClaim = false := by
  -- One case for each kind of event: only `tabClaim` sets a claim.
  cases e with
  | tabClaim r params => exact absurd rfl (h_e r params)
  | tabRelease r params => exact setsClaim_of_plain ((tabRelease_start params).plain h_mem)
  | browserStop r params => exact setsClaim_of_plain ((browserStop_start params).plain h_mem)
  | popupRelease r params => exact setsClaim_of_plain ((popupRelease_start params).plain h_mem)
  | stopAll => rw [List.mem_singleton.mp h_mem]; rfl
  | settle => exact setsClaim_of_plain (plain_settle h_mem)
  | settleTask => exact setsClaim_of_plain (plain_settleTask h_mem)
  | ensure | committed => rw [List.mem_singleton.mp h_mem]; rfl
  | removed n =>
    replace h_mem : op ∈ onRemoved s.control.registry n := h_mem
    unfold onRemoved at h_mem
    split at h_mem
    · exact absurd h_mem List.not_mem_nil
    · rcases List.mem_pair.mp h_mem with rfl | rfl <;> rfl
  | debuggerDetached => exact setsClaim_of_plain (plain_onDebuggerDetached h_mem)

end

/-! ### The states that handlers hold stay the states of their tabs -/

/-- A state that a handler holds is that of its tab, and no other one is. -/
structure Holds (c : Control) (tab : Held) : Prop where
  known : c.registry.Knows tab.tabID tab.chromeTabID
  current : ∀ tabID, c.handleOf tab.chromeTabID = some tabID → tabID = tab.tabID

namespace Holds

variable {c : Control} {tab : Held}

/-- A tab that was just looked up. -/
theorem of_fromHandle {state : TabState} (h : c.registry.fromHandle state.tabID = .ok state) :
    Holds c state.held := by
  refine ⟨.of_fromHandle h, fun tabID h_index => ?_⟩
  have h_index' : c.handleOf state.chromeTabID = some state.tabID :=
    TabRegistry.byChromeID_of_fromHandle h
  exact Option.some_inj.mp (h_index.symm.trans h_index')

/-- The handle that a request holds means no other tab. -/
theorem chromeTabID_eq (h : Holds c tab) {n : ℕ} (hn : c.handleOf n = some tab.tabID) :
    n = tab.chromeTabID := h.known.chromeTabID_eq hn

/-- An operation that keeps the handles. -/
theorem handleOf_apply {op : Op} (h : op.keepsHandles) (n : ℕ) :
    (c.apply op).handleOf n = c.handleOf n := by
  cases op with
  | claim => exact Control.handleOf_claim ..
  | release => exact Control.handleOf_release ..
  | noteNavigation => exact Control.handleOf_noteNavigation ..
  | releaseAll | attach | detach | detachAll | onDetach => rfl
  | ensure | remove => cases h

/-- What is held stays so when the handles are kept. -/
theorem apply (h : Holds c tab) {op : Op} (h_op : op.keepsHandles) : Holds (c.apply op) tab := by
  refine ⟨Control.knows_apply h.known op, fun tabID h_index => h.current tabID ?_⟩
  rw [← h_index, handleOf_apply h_op]

theorem run {ops : List Op} (h : Holds c tab) (h_ops : ∀ op ∈ ops, op.keepsHandles) :
    Holds (c.run ops) tab := by
  induction ops generalizing c with
  | nil => exact h
  | cons op ops ih =>
    have h_rest : ∀ op ∈ ops, op.keepsHandles := fun op h_mem => h_ops op (.tail _ h_mem)
    exact ih (h.apply (h_ops op (.head _))) h_rest

/-- The tab that is held may go. -/
theorem remove (h : Holds c tab) (n : ℕ) : Holds (c.apply (.remove n)) tab := by
  refine ⟨Control.knows_apply h.known _, fun tabID h_index => h.current tabID ?_⟩
  rw [Control.handleOf_remove] at h_index
  split_ifs at h_index
  exact h_index

/-- A tab that is new is none that is held. -/
theorem ensure (h : Holds c tab) {n : ℕ} (handle : String) (owned : Bool)
    (h_new : c.handleOf n = none → tab.chromeTabID ≠ n) :
    Holds (c.apply (.ensure n handle owned)) tab := by
  refine ⟨Control.knows_apply h.known _, fun tabID h_index => ?_⟩
  rcases Control.handleOf_ensure c tab.chromeTabID n handle owned with h_eq | ⟨rfl, h_none, -, -⟩
  · exact h.current tabID (h_eq.symm.trans h_index)
  · exact absurd rfl (h_new h_none)

end Holds

section

variable {ρ : Type*} [DecidableEq ρ] {s : State ρ}

/-- A handler makes a step. -/
def State.step (s : State ρ) (r : ρ) (h : Handler × List Op) : State ρ where
  control := s.control.run h.2
  handlers := Function.update s.handlers r h.1

@[simp] theorem State.step_self (r : ρ) (h : Handler × List Op) :
    (s.step r h).handlers r = h.1 := Function.update_self ..

theorem State.step_of_ne {r r' : ρ} (h_ne : r' ≠ r) (h : Handler × List Op) :
    (s.step r h).handlers r' = s.handlers r' := Function.update_of_ne h_ne ..

omit [DecidableEq ρ] in
/-- A tab that was closed is not registered again while a handler holds its old state. -/
def Unused (s : State ρ) : Event ρ → Prop
  | .ensure chromeTabID _ _ => s.control.handleOf chromeTabID = none →
    ∀ r, ∀ tab ∈ (s.handlers r).tabs, tab.chromeTabID ≠ chromeTabID
  | _ => True

instance [Fintype ρ] (s : State ρ) : ∀ e, Decidable (Unused s e)
  | .ensure chromeTabID _ _ => inferInstanceAs (Decidable (s.control.handleOf chromeTabID = none →
    ∀ r, ∀ tab ∈ (s.handlers r).tabs, tab.chromeTabID ≠ chromeTabID))
  | .tabClaim .. | .tabRelease .. | .browserStop .. | .popupRelease .. | .stopAll _ | .settle ..
  | .settleTask .. | .committed _ | .removed _ | .debuggerDetached _ =>
    inferInstanceAs (Decidable True)

/-- All handlers hold states of their tabs. -/
def AllHold (s : State ρ) : Prop := ∀ r, ∀ tab ∈ (s.handlers r).tabs, Holds s.control tab

namespace AllHold

/-- A handler goes on, with tabs that it holds. -/
theorem step (h : AllHold s) (r : ρ) {x : Handler × List Op}
    (h_tabs : ∀ tab ∈ x.1.tabs, Holds s.control tab) (h_ops : ∀ op ∈ x.2, op.keepsHandles) :
    AllHold (s.step r x) := by
  intro r' tab h_mem
  by_cases h_eq : r' = r
  · subst h_eq
    rw [State.step_self] at h_mem
    exact (h_tabs tab h_mem).run h_ops
  · rw [State.step_of_ne h_eq] at h_mem
    exact (h r' tab h_mem).run h_ops

/-- A request begins. -/
theorem start (h : AllHold s) (r : ρ) {h' : Handler} {ops : List Op}
    (h_start : Start s.control h' ops) : AllHold (s.step r (h', ops)) := by
  refine h.step r (fun tab h_mem => ?_) fun op h_mem => keepsHandles_of_plain (h_start.plain h_mem)
  obtain ⟨state, h_get, rfl⟩ := h_start.tabs h_mem
  exact .of_fromHandle h_get

/-- Every step where handles are used once. -/
theorem next (h : AllHold s) {e : Event ρ} (h_unused : Unused s e) : AllHold (next s e) := by
  cases e with
  -- a new handler holds tabs of the registry
  | tabClaim r params =>
    have h_start := tabClaim_start (c := s.control) params
    refine h.step r (fun tab h_mem => ?_) fun op h_mem => h_start.keepsHandles h_mem
    obtain ⟨state, h_get, rfl⟩ := h_start.tabs h_mem
    exact .of_fromHandle h_get
  | tabRelease r params => exact h.start r (tabRelease_start params)
  | browserStop r params => exact h.start r (browserStop_start params)
  | popupRelease r params => exact h.start r (popupRelease_start params)
  | stopAll r => exact h.start r .stops
  -- a handler holds no other tabs than before
  | settle r o =>
    exact h.step r (fun tab h_mem => h r tab (tabs_settle h_mem)) fun op h_mem =>
      keepsHandles_of_plain (plain_settle h_mem)
  | settleTask r n o =>
    exact h.step r (fun tab h_mem => h r tab (tabs_settleTask h_mem)) fun op h_mem =>
      keepsHandles_of_plain (plain_settleTask h_mem)
  | ensure n handle owned =>
    intro r tab h_mem
    exact (h r tab h_mem).ensure handle owned fun h_none => h_unused h_none r tab h_mem
  | committed n =>
    intro r tab h_mem
    exact (h r tab h_mem).apply (show Op.keepsHandles (.noteNavigation n) from rfl)
  -- the registry: an object keeps its tab until it is removed
  | removed n =>
    intro r tab h_mem
    have h_old := h r tab h_mem
    show Holds (s.control.run (onRemoved s.control.registry n)) tab
    unfold onRemoved
    split
    · exact h_old
    · exact (h_old.apply (show Op.keepsHandles (.detach n none) from rfl)).remove n
  | debuggerDetached n =>
    intro r tab h_mem
    exact (h r tab h_mem).run fun op h_op => keepsHandles_of_plain (plain_onDebuggerDetached h_op)

/-- In a run in which no tab is registered again too early, the handlers hold states of their
tabs. -/
theorem of_reachable {C : State ρ → Event ρ → Prop} (hC : ∀ s e, C s e → Unused s e)
    (h : ((machine ρ).restrict C).Reachable s) : AllHold s :=
  h.induction (fun _ _ h_mem => absurd h_mem List.not_mem_nil) fun s e _ h_hold he =>
    h_hold.next (hC s e he.2)

end AllHold

end

end BrowserControl.Extension
