import BrowserControl.Extension.TabRegistry
import BrowserControl.Transition.Machine
import Mathlib.Data.Fintype.Basic

/-!
# Control over tabs

`Extension.machine` runs the handlers of `ExtensionService` that give control over a tab and end
it: `tab.claim`, `tab.release`, `browser.stop` (of a session or of everything), the release button
of the popup, and what the extension does when Chrome reports that a tab was closed or that the
debugger was detached.

Control over a tab has two parts: the claim in the `TabRegistry`, and the debugger, which the
`DebuggerManager` believes to be attached to the tabs in `#states`. A handler changes them in the
stretches of code between two `await`s. What it awaits is its phase, and a step of the machine
lets the awaited promise settle and runs the handler up to its next `await`; in between, anything
can happen. The steps at the end of a handler that change neither part (the badge, the event, the
response) are one phase, `announcing`.

A step calls methods of the registry and of the debugger manager (`Op`), one after the other. A
handler that ends control acts on behalf of a claim, and its calls carry the lease of that claim;
the code does not look at it.
-/

namespace BrowserControl.Extension

open Encoding Transition

/-- How an awaited promise settles. -/
inductive Settled where
  | resolved
  | rejected
  deriving DecidableEq

/-! ### Control and what changes it -/

/-- What the extension holds of the tabs: their registry, and the debugger. -/
structure Control where
  registry : TabRegistry
  /-- The keys of `#states`: the tabs to which the debugger is attached. -/
  states : Finset ℕ

/-- A call of a method of the registry or of the debugger manager. In `release` and `detach`,
`leaseID` is the lease of the claim on behalf of which the caller acts, if it has one. -/
inductive Op where
  | claim (tabID sessionID leaseID : String) (force : Bool)
  | release (tabID : String) (leaseID : Option String)
  | releaseAll
  /-- `attach`, from where `chrome.debugger.attach` has resolved. -/
  | attach (chromeTabID : ℕ)
  | detach (chromeTabID : ℕ) (leaseID : Option String)
  | detachAll
  | onDetach (chromeTabID : ℕ)
  | ensure (chromeTabID : ℕ) (handle : String) (owned : Bool)
  | noteNavigation (chromeTabID : ℕ)
  | remove (chromeTabID : ℕ)
  deriving DecidableEq

namespace Control

/-- What a call changes. -/
def apply (c : Control) : Op → Control
  | .claim tabID sessionID leaseID force =>
    match c.registry.claim tabID sessionID leaseID force with
    | .ok (registry, _) => { c with registry }
    | .error _ => c
  | .release tabID _ =>
    match c.registry.release tabID with
    | .ok registry => { c with registry }
    | .error _ => c
  | .releaseAll => { c with registry := c.registry.releaseAll.1 }
  -- What the debugger manager does with its own table.
  | .attach chromeTabID => { c with states := insert chromeTabID c.states }
  | .detach chromeTabID _ => { c with states := c.states.erase chromeTabID }
  | .detachAll => { c with states := ∅ }
  | .onDetach chromeTabID => { c with states := c.states.erase chromeTabID }
  | .ensure chromeTabID handle owned =>
    { c with registry := c.registry.ensure chromeTabID handle owned }
  | .noteNavigation chromeTabID => { c with registry := c.registry.noteNavigation chromeTabID }
  | .remove chromeTabID => { c with registry := c.registry.remove chromeTabID }

/-- Several calls in a row. -/
def run (c : Control) (ops : List Op) : Control := ops.foldl apply c

@[simp] theorem run_nil (c : Control) : c.run [] = c := rfl

@[simp] theorem run_cons (c : Control) (op : Op) (ops : List Op) :
    c.run (op :: ops) = (c.apply op).run ops := rfl

/-- The claim on a tab of Chrome. -/
def claimOf (c : Control) (chromeTabID : ℕ) : Option Claim := c.registry.claimOf chromeTabID

/-- The handle under which a tab is registered. -/
def handleOf (c : Control) (chromeTabID : ℕ) : Option String := c.registry.byChromeID chromeTabID

section

variable (c : Control) (n : ℕ)

attribute [local simp] apply

/-- A tab that is not registered is not claimed. -/
theorem claimOf_of_handleOf_none {c : Control} {n : ℕ} (h : c.handleOf n = none) :
    c.claimOf n = none := TabRegistry.claimOf_of_byChromeID_none h

/-! What a call does to the debugger. -/

@[simp] theorem states_claim (tabID sessionID leaseID : String) (force : Bool) :
    (c.apply (.claim tabID sessionID leaseID force)).states = c.states := by
  simp only [apply]
  split <;> rfl

@[simp] theorem states_release (tabID : String) (leaseID : Option String) :
    (c.apply (.release tabID leaseID)).states = c.states := by
  simp only [apply]
  split <;> rfl

/-! What a call does to the handles. -/

@[simp] theorem handleOf_claim (tabID sessionID leaseID : String) (force : Bool) :
    (c.apply (.claim tabID sessionID leaseID force)).handleOf n = c.handleOf n := by
  simp only [apply]
  split
  case h_1 h => rw [(TabRegistry.claim_ok h).2]; rfl
  case h_2 => rfl

@[simp] theorem handleOf_release (tabID : String) (leaseID : Option String) :
    (c.apply (.release tabID leaseID)).handleOf n = c.handleOf n := by
  simp only [apply]
  split
  case h_1 h =>
    obtain ⟨-, -, rfl⟩ := TabRegistry.release_ok h
    rfl
  case h_2 => rfl

@[simp] theorem handleOf_noteNavigation (chromeTabID : ℕ) :
    (c.apply (.noteNavigation chromeTabID)).handleOf n = c.handleOf n :=
  congrFun (TabRegistry.byChromeID_noteNavigation chromeTabID) n

/-- A tab that goes loses its handle. -/
theorem handleOf_remove (chromeTabID : ℕ) :
    (c.apply (.remove chromeTabID)).handleOf n = if n = chromeTabID then none else c.handleOf n :=
  TabRegistry.byChromeID_remove chromeTabID n

/-- A new handle is the one that was offered. -/
theorem handleOf_ensure (chromeTabID : ℕ) (handle : String) (owned : Bool) :
    (c.apply (.ensure chromeTabID handle owned)).handleOf n = c.handleOf n ∨
      n = chromeTabID ∧ c.handleOf n = none ∧ c.registry.objects handle = none ∧
        (c.apply (.ensure chromeTabID handle owned)).handleOf n = some handle :=
  TabRegistry.byChromeID_ensure chromeTabID handle owned n

/-! What a call does to the claims. -/

/-- Where a claim succeeds, just the tab of the handle has it. -/
theorem claimOf_claim {tabID sessionID leaseID : String} {force : Bool} {R : TabRegistry}
    {state : TabState} (h : c.registry.claim tabID sessionID leaseID force = .ok (R, state)) :
    (c.apply (.claim tabID sessionID leaseID force)).claimOf n =
      if c.handleOf n = some tabID then some { sessionID, leaseID } else c.claimOf n := by
  simp only [apply, h]
  rw [(TabRegistry.claim_ok h).2]
  by_cases h_index : c.handleOf n = some tabID
  · rw [if_pos h_index]
    exact (TabRegistry.claimOf_setClaim h_index).trans (if_pos (decide_eq_true rfl))
  · rw [if_neg h_index]
    refine TabRegistry.claimOf_setClaim_of_ne fun tabID' h_index' => decide_eq_false ?_
    rintro rfl
    exact h_index h_index'

/-- A release takes the claim from the tab of the handle. -/
theorem claimOf_release (tabID : String) (leaseID : Option String) :
    (c.apply (.release tabID leaseID)).claimOf n =
      if c.handleOf n = some tabID then none else c.claimOf n := by
  by_cases h_index : c.handleOf n = some tabID
  -- the tab has the handle, and its claim goes
  · rw [if_pos h_index]
    obtain ⟨state, h_get, -⟩ := TabRegistry.fromHandle_of_byChromeID h_index
    have h : c.registry.release tabID = .ok (c.registry.setClaim (· = tabID) none) := by
      rw [TabRegistry.release, h_get]
      rfl
    simp only [apply, h]
    exact (TabRegistry.claimOf_setClaim h_index).trans (if_pos (decide_eq_true rfl))
  -- another tab has it, or none
  · rw [if_neg h_index]
    simp only [apply]
    split
    case h_1 h =>
      obtain ⟨-, -, rfl⟩ := TabRegistry.release_ok h
      refine TabRegistry.claimOf_setClaim_of_ne fun tabID' h_index' => decide_eq_false ?_
      rintro rfl
      exact h_index h_index'
    case h_2 => rfl

@[simp] theorem claimOf_releaseAll : (c.apply .releaseAll).claimOf n = none :=
  TabRegistry.claimOf_releaseAll n

@[simp] theorem claimOf_ensure (chromeTabID : ℕ) (handle : String) (owned : Bool) :
    (c.apply (.ensure chromeTabID handle owned)).claimOf n = c.claimOf n :=
  TabRegistry.claimOf_ensure chromeTabID handle owned n

@[simp] theorem claimOf_noteNavigation (chromeTabID : ℕ) :
    (c.apply (.noteNavigation chromeTabID)).claimOf n = c.claimOf n :=
  TabRegistry.claimOf_noteNavigation chromeTabID n

/-- A tab that goes loses its claim. -/
theorem claimOf_remove (chromeTabID : ℕ) :
    (c.apply (.remove chromeTabID)).claimOf n = if n = chromeTabID then none else c.claimOf n :=
  TabRegistry.claimOf_remove chromeTabID n

/-- An object stays, and it stays the state of its tab. -/
theorem knows_apply {c : Control} {tabID : String} {n : ℕ} (h : c.registry.Knows tabID n)
    (op : Op) : (c.apply op).registry.Knows tabID n := by
  -- no operation gives the handle of a tab to another one
  cases op with
  | claim =>
    simp only [apply]
    split
    case h_1 h_claim =>
      rw [(TabRegistry.claim_ok h_claim).2]
      exact h.setClaim ..
    case h_2 => exact h
  | release =>
    simp only [apply]
    split
    case h_1 h_release =>
      obtain ⟨-, -, rfl⟩ := TabRegistry.release_ok h_release
      exact h.setClaim ..
    case h_2 => exact h
  | releaseAll => exact h.setClaim ..
  | attach | detach | detachAll | onDetach => exact h
  | ensure => exact h.ensure ..
  | noteNavigation => exact h.noteNavigation _
  | remove => exact h.remove _

end

end Control

/-! ### Handlers -/

/-- A `TabState` that a handler holds. -/
structure Held where
  tabID : String
  chromeTabID : ℕ
  deriving DecidableEq

/-- What a request remembers of the tab. -/
def TabState.held (state : TabState) : Held where
  tabID := state.tabID
  chromeTabID := state.chromeTabID

/-- What `tab.claim` waits for. -/
inductive ClaimPhase where
  /-- The claim is set; `#persist`. -/
  | persisting
  /-- `chrome.debugger.attach`. -/
  | attaching
  /-- `#enableTarget`. -/
  | enabling
  /-- `Target.setAutoAttach`. -/
  | autoAttaching
  /-- `Page.getFrameTree`. -/
  | framing
  /-- A command that was refused as the debugger is not attached. -/
  | unwinding
  /-- `detach` in `attach`. -/
  | detaching
  /-- `attach`, which is rejected. -/
  | failing
  /-- `attach`, which is resolved. -/
  | attached
  /-- `#ensureRuntime`. -/
  | injecting
  /-- `#persist` after an error; the claim is released. -/
  | releasing
  /-- `detach` after an error. -/
  | closing
  | announcing
  deriving DecidableEq

/-- What the release of a tab waits for. -/
inductive ReleasePhase where
  /-- `detach`. -/
  | detaching
  /-- `#removeRuntime`. -/
  | removing
  /-- `#persist`. -/
  | persisting
  | announcing
  deriving DecidableEq

/-- What `stopAll` waits for. -/
inductive StopPhase where
  /-- `releaseAll`. -/
  | releasing
  /-- `detachAll`. -/
  | detaching
  /-- `#removeRuntime` of the tabs that were claimed. -/
  | removing
  | announcing
  deriving DecidableEq

/-- The release of a tab on behalf of a lease. -/
structure Release where
  tab : Held
  leaseID : String
  phase : ReleasePhase
  deriving DecidableEq

/-- Where a request waits, and what for. -/
inductive Handler where
  | outside
  | claim (tab : Held) (leaseID : String) (phase : ClaimPhase)
  /-- `tab.release` and `stopSession`: the tabs whose release is not finished. -/
  | release (tasks : List Release)
  /-- The release button; the daemon is asked to revoke the lease. -/
  | popup (tab : Held) (leaseID : Option String)
  | stopAll (phase : StopPhase)
  | settled
  deriving DecidableEq

/-- The handler awaits one thing. -/
def Handler.awaits : Handler → Bool
  | .claim .. | .popup .. | .stopAll _ => true
  | _ => false

/-- The releases that the handler awaits. -/
def Handler.tasks : Handler → List Release
  | .release tasks => tasks
  | _ => []

/-- The handler is at work. -/
def Handler.Running (h : Handler) : Prop := h.awaits ∨ h.tasks ≠ []

instance : DecidablePred Handler.Running := fun h =>
  inferInstanceAs (Decidable (h.awaits ∨ h.tasks ≠ []))

/-! ### The start of a handler -/

/-- `#releaseLocal` of some tabs: each is released on behalf of the claim it has. -/
def releaseLocal (states : List TabState) : Handler × List Op :=
  let tasks := states.filterMap fun state => state.claim.map fun claim =>
    { tab := state.held, leaseID := claim.leaseID, phase := .detaching }
  (.release tasks, tasks.map fun task => .detach task.tab.chromeTabID (some task.leaseID))

/-- `tab.claim`, up to its first wait. -/
def tabClaim (R : TabRegistry) (params : Object) : Handler × List Op :=
  let request : Except RpcError (Handler × List Op) := do
    let tabID ← requiredString params "tabId"
    match params.get "session" with
    | some (.arr _) =>
      .error { kind := "INVALID_REQUEST", message := "params must be an object" }
    | _ =>
      let sessionID ← requiredString params "sessionId"
      let leaseID ← requiredString params "leaseId"
      -- Only `true` forces the claim.
      let force := match params.get "force" with
        | some (.bool b) => b
        | _ => false
      let (_, state) ← R.claim tabID sessionID leaseID force
      return (.claim state.held leaseID .persisting, [.claim tabID sessionID leaseID force])
  match request with
  | .ok started => started
  | .error _ => (.settled, [])

/-- `tab.release`, up to its first wait. -/
def tabRelease (R : TabRegistry) (params : Object) : Handler × List Op :=
  let request : Except RpcError TabState := do
    let tabID ← requiredString params "tabId"
    R.assertClaimed tabID (optionalString params "sessionId") (optionalString params "leaseId")
  match request with
  | .ok state => releaseLocal [state]
  | .error _ => (.settled, [])

/-- The stop of one session: the tabs that it has claimed are released. -/
def stopSession (R : TabRegistry) (sessionID : String) : Handler × List Op :=
  releaseLocal (R.all.filter fun state => state.claim.any fun claim => claim.sessionID = sessionID)

/-- The emergency stop: all claims go at once. -/
def stopAll : Handler × List Op := (.stopAll .releasing, [.releaseAll])

/-- `browser.stop`, for one session or for all. -/
def browserStop (R : TabRegistry) (params : Object) : Handler × List Op :=
  match optionalString params "sessionId" with
  | some sessionID => stopSession R sessionID
  | none => stopAll

/-- The user presses the button of a tab: what is to end is the claim the tab has. -/
def popupRelease (R : TabRegistry) (message : Object) : Handler × List Op :=
  let request : Except RpcError TabState := do
    let tabID ← requiredString message "tabId"
    R.fromHandle tabID
  match request with
  | .ok state => (.popup state.held (state.claim.map (·.leaseID)), [])
  | .error _ => (.settled, [])

/-! ### The steps of a handler -/

/-- `registry.release` in a handler, which is rejected if the tab was removed. -/
def release {φ : Type} (c : Control) (tab : Held) (leaseID : String) (phase : φ) :
    Option φ × List Op :=
  match c.registry.fromHandle tab.tabID with
  | .ok _ => (some phase, [.release tab.tabID (some leaseID)])
  | .error _ => (none, [])

/-- A command to a tab, which is refused unless the debugger is attached. -/
def send (c : Control) (tab : Held) (phase : ClaimPhase) : ClaimPhase :=
  if tab.chromeTabID ∈ c.states then phase else .unwinding

/-- A step of `tab.claim`. -/
def claimStep (c : Control) (tab : Held) (leaseID : String) :
    ClaimPhase → Settled → Option ClaimPhase × List Op
  -- `attach` has nothing to do if the debugger is attached already
  | .persisting, .resolved =>
    (if tab.chromeTabID ∈ c.states then some .attached else some .attaching, [])
  -- the claim stays
  | .persisting, .rejected => (none, [])
  | .attaching, .resolved => (some .enabling, [.attach tab.chromeTabID])
  | .attaching, .rejected => (some .failing, [])
  | .enabling, _ => (some (send c tab .autoAttaching), [])
  | .autoAttaching, .resolved => (some (send c tab .framing), [])
  | .framing, .resolved => (some .attached, [])
  | .autoAttaching, .rejected | .framing, .rejected | .unwinding, _ =>
    (some .detaching, [.detach tab.chromeTabID (some leaseID)])
  | .detaching, _ => (some .failing, [])
  | .attached, _ => (some .injecting, [])
  | .injecting, .resolved => (some .announcing, [])
  | .injecting, .rejected | .failing, _ => release c tab leaseID .releasing
  | .releasing, .resolved => (some .closing, [.detach tab.chromeTabID (some leaseID)])
  | .releasing, .rejected => (none, [])
  | .closing, _ => (none, [])
  | .announcing, _ => (none, [])

/-- A step of the release of a tab. -/
def releaseStep (c : Control) (tab : Held) (leaseID : String) :
    ReleasePhase → Settled → Option ReleasePhase × List Op
  | .detaching, _ => (some .removing, [])
  | .removing, _ => release c tab leaseID .persisting
  | .persisting, .resolved => (some .announcing, [])
  | .persisting, .rejected => (none, [])
  | .announcing, _ => (none, [])

/-- A step of `stopAll`. -/
def stopStep : StopPhase → Settled → Option StopPhase × List Op
  | .releasing, .resolved => (some .detaching, [.detachAll])
  | .releasing, .rejected => (none, [])
  | .detaching, _ => (some .removing, [])
  | .removing, _ => (some .announcing, [])
  | .announcing, _ => (none, [])

/-- The daemon has answered the popup: if the tab has a claim, it is released, whichever it is. -/
def popupStep (R : TabRegistry) (tab : Held) (leaseID : Option String) :
    Settled → Handler × List Op
  | .rejected => (.settled, [])
  | .resolved =>
    match (R.objects tab.tabID).bind (·.claim) with
    | none => (.settled, [])
    | some claim =>
      let leaseID := leaseID.getD claim.leaseID
      (.release [{ tab, leaseID, phase := .detaching }],
        [.detach tab.chromeTabID (some leaseID)])

/-- A step of one of several releases. -/
def taskStep (c : Control) (tasks : List Release) (chromeTabID : ℕ) (o : Settled) :
    Handler × List Op :=
  match tasks.find? (·.tab.chromeTabID = chromeTabID) with
  | none => (.release tasks, [])
  | some task =>
    let (phase, ops) := releaseStep c task.tab task.leaseID task.phase o
    (.release (tasks.filterMap fun t =>
      if t = task then phase.map fun phase => { task with phase } else some t), ops)

/-! ### The machine -/

/-- The extension, and where each of its requests is. -/
structure State (ρ : Type*) where
  control : Control
  handlers : ρ → Handler

/-- What is asked of the extension, and what its requests wait for. -/
inductive Event (ρ : Type*) where
  | tabClaim (r : ρ) (params : Object)
  | tabRelease (r : ρ) (params : Object)
  | browserStop (r : ρ) (params : Object)
  | popupRelease (r : ρ) (message : Object)
  /-- The stop button of the popup, or the connection to the daemon is lost. -/
  | stopAll (r : ρ)
  /-- What a handler awaits settles. -/
  | settle (r : ρ) (o : Settled)
  /-- What one of the releases of a handler awaits settles. -/
  | settleTask (r : ρ) (chromeTabID : ℕ) (o : Settled)
  /-- The extension sees a tab; `handle` is the random handle for a new one. -/
  | ensure (chromeTabID : ℕ) (handle : String) (owned : Bool)
  /-- The main frame of a tab committed a navigation. -/
  | committed (chromeTabID : ℕ)
  | removed (chromeTabID : ℕ)
  /-- Chrome has detached the debugger. -/
  | debuggerDetached (chromeTabID : ℕ)

section

variable {ρ : Type*} [DecidableEq ρ]

/-- What an event does: a handler in its new phase, and calls. -/
structure Effects (ρ : Type*) where
  handler : Option (ρ × Handler)
  ops : List Op

/-- A handler goes on. -/
def Effects.of (r : ρ) (h : Handler × List Op) : Effects ρ := ⟨some (r, h.1), h.2⟩

/-- A step of a handler that awaits one thing. -/
def settle (c : Control) (h : Handler) (o : Settled) : Handler × List Op :=
  match h with
  | .claim tab leaseID phase =>
    let (phase, ops) := claimStep c tab leaseID phase o
    (phase.elim .settled (.claim tab leaseID), ops)
  | .popup tab leaseID => popupStep c.registry tab leaseID o
  | .stopAll phase =>
    let (phase, ops) := stopStep phase o
    (phase.elim .settled .stopAll, ops)
  | h => (h, [])

/-- A release that waits for the debugger goes on. -/
def settleTask (c : Control) (h : Handler) (chromeTabID : ℕ) (o : Settled) :
    Handler × List Op :=
  match h with
  | .release tasks => taskStep c tasks chromeTabID o
  | h => (h, [])

/-- `tabs.onRemoved`. -/
def onRemoved (R : TabRegistry) (chromeTabID : ℕ) : List Op :=
  match R.fromChromeID chromeTabID with
  | none => []
  | some _ => [.detach chromeTabID none, .remove chromeTabID]

/-- `debugger.onDetach`, and `#onDebuggerEvent` if the debugger was attached. -/
def onDebuggerDetached (c : Control) (chromeTabID : ℕ) : List Op :=
  if chromeTabID ∈ c.states then
    .onDetach chromeTabID :: match c.registry.fromChromeID chromeTabID with
      | some state => if state.claim.isSome then [.release state.tabID none] else []
      | none => []
  else []

/-- What one event does. -/
def effects (s : State ρ) : Event ρ → Effects ρ
  | .tabClaim r params => .of r (tabClaim s.control.registry params)
  | .tabRelease r params => .of r (tabRelease s.control.registry params)
  | .browserStop r params => .of r (browserStop s.control.registry params)
  | .popupRelease r message => .of r (popupRelease s.control.registry message)
  | .stopAll r => .of r stopAll
  | .settle r o => .of r (settle s.control (s.handlers r) o)
  | .settleTask r chromeTabID o => .of r (settleTask s.control (s.handlers r) chromeTabID o)
  | .ensure chromeTabID handle owned => ⟨none, [.ensure chromeTabID handle owned]⟩
  | .committed chromeTabID => ⟨none, [.noteNavigation chromeTabID]⟩
  | .removed chromeTabID => ⟨none, onRemoved s.control.registry chromeTabID⟩
  | .debuggerDetached chromeTabID => ⟨none, onDebuggerDetached s.control chromeTabID⟩

/-- One step of the extension. -/
def next (s : State ρ) (e : Event ρ) : State ρ where
  control := s.control.run (effects s e).ops
  handlers := match (effects s e).handler with
    | some (r, h) => Function.update s.handlers r h
    | none => s.handlers

omit [DecidableEq ρ] in
/-- When an event can happen. -/
def enabled (s : State ρ) : Event ρ → Prop
  | .tabClaim r _ | .tabRelease r _ | .browserStop r _ | .popupRelease r _ | .stopAll r =>
    s.handlers r = .outside
  | .settle r _ => (s.handlers r).awaits
  | .settleTask r chromeTabID _ =>
    ∃ task ∈ (s.handlers r).tasks, task.tab.chromeTabID = chromeTabID
  | .ensure _ handle _ => (s.control.registry.objects handle).isNone
  | .committed _ | .removed _ | .debuggerDetached _ => True

omit [DecidableEq ρ] in
instance decidableEnabled (s : State ρ) : ∀ e, Decidable (enabled s e)
  | .tabClaim r _ | .tabRelease r _ | .browserStop r _ | .popupRelease r _ | .stopAll r =>
    inferInstanceAs (Decidable (s.handlers r = .outside))
  | .settle r _ => inferInstanceAs (Decidable (s.handlers r).awaits)
  | .settleTask r chromeTabID _ =>
    inferInstanceAs (Decidable (∃ task ∈ (s.handlers r).tasks, task.tab.chromeTabID = chromeTabID))
  | .ensure _ handle _ => inferInstanceAs (Decidable (s.control.registry.objects handle).isNone)
  | .committed _ | .removed _ | .debuggerDetached _ => inferInstanceAs (Decidable True)

variable (ρ) in
/-- The control of the extension over tabs, from the start of its service worker. -/
def machine : Machine (State ρ) (Event ρ) where
  init := ⟨⟨.empty, ∅⟩, fun _ => .outside⟩
  enabled := enabled
  next := next

instance (s : State ρ) (e : Event ρ) : Decidable ((machine ρ).enabled s e) :=
  decidableEnabled s e

/-- The state after some events from the start. -/
def after (es : List (Event ρ)) : State ρ := (machine ρ).exec (machine ρ).init es

end

end BrowserControl.Extension
