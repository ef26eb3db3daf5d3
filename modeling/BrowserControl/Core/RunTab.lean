import BrowserControl.Core.OperationsInvariant
import BrowserControl.Core.TabQueueCancellation

/-!
# Operations in the queues of their tabs

`RunTab.machine` puts the two halves of the manager together that a unit of browser work passes
through: `ExecuteOperation` (`Operations`) calls it and recovers from its panics, and `RunTab`
runs it in the queue of its tab (`TabQueue`), or at once if it has no tab. The work itself is
left open: it may return anything, or panic.

Recovery and slot are in different layers. A panic of the function that the queue has called
(`Event.panic`) unwinds `tabQueue.run` without `cancel` and `release`, and `ExecuteOperation`
reports an internal error. `Contained` says that this does not happen, and it is exactly what
keeps tabs from being blocked (`unblocked_iff_contained`).
-/

namespace BrowserControl.Core

open Encoding Protocol Transition

/-! ### The next owner -/

namespace TabQueue

variable {ι ρ : Type*} [DecidableEq ι]

/-- An owner keeps the slot until it releases it, and moves no waiter meanwhile. -/
theorem Inv.owner_next {s : State ι ρ} (hI : Inv s) {c : ι} (h_own : (s.calls c).owns = true)
    {e : Event ι ρ} (h_caller : e.caller = some c) (he : enabled s e) (h_release : e ≠ .release c) :
    (next s e).waiters = s.waiters ∧ ((next s e).calls c).owns = true := by
  have h_granted : (s.calls c).waiter.granted = true := by
    simp only [Call.owns, Bool.and_eq_true] at h_own
    exact h_own.1
  obtain ⟨h_err, h_outside⟩ := (hI.ok c).granted h_granted
  -- The slot stays with the owner as long as it has not returned.
  have h_moves : ∀ (active : Option ι) (phase : Phase ρ) (cancelled : Bool),
      phase.isReturned = false →
      ((({ s with activeCancel := active }.setCall c
        { s.calls c with phase, cancelled }).calls c).owns = true) := by
    intro active phase cancelled h_phase
    simp [State.setCall, Call.owns, h_granted, h_phase]
  -- The owner cannot enter again, and gives the slot back in `release` only.
  cases e with
  | enter d =>
    cases h_caller
    exact absurd (enabled_enter.mp he) h_outside
  | callerDone d message =>
    cases h_caller
    exact ⟨rfl, h_moves _ _ _ rfl⟩
  | takeReady d =>
    cases h_caller
    simp only [next, State.takeReady, State.waiter, h_err]
    exact ⟨rfl, h_moves _ _ _ rfl⟩
  | quit d =>
    cases h_caller
    obtain ⟨message, h_phase⟩ := enabled_quit.mp he
    simp only [next, h_phase, State.quit]
    rw [if_pos (show (s.waiter c).granted = true from h_granted)]
    exact ⟨rfl, h_moves _ _ _ rfl⟩
  | start d =>
    cases h_caller
    simp only [next, State.start]
    split
    · exact ⟨rfl, h_moves _ _ _ rfl⟩
    · exact ⟨rfl, h_moves _ _ _ rfl⟩
  | invoke d =>
    cases h_caller
    exact ⟨rfl, h_moves _ _ _ rfl⟩
  | finish d outcome =>
    cases h_caller
    exact ⟨rfl, h_moves _ _ _ rfl⟩
  | release d =>
    cases h_caller
    exact absurd rfl h_release
  | cancelAll reason => contradiction

/-- The slot goes to the first waiter. -/
theorem Inv.release_grants {s : State ι ρ} (hI : Inv s) {c w : ι} {rest : List ι}
    (he : enabled s (.release c)) (h_waiters : s.waiters = w :: rest) :
    ((next s (.release c)).waiter w).granted = true := by
  obtain ⟨outcome, h_phase⟩ := enabled_release.mp he
  have h_eligible : (s.setPhase c (.returned outcome)).eligible = w :: rest := by
    rw [← h_waiters]
    refine State.eligible_eq fun d hd => ?_
    rw [State.waiter_setPhase]
    exact hI.err_eq_none hd
  simp only [next, h_phase, State.release, h_eligible]
  simp [State.waiter, State.setCall]

/-- On its way to giving the slot back, the owner grants it to the first waiter. -/
theorem Inv.owner_grants {s : State ι ρ} (hI : Inv s) {c w : ι} {rest : List ι}
    (h_own : (s.calls c).owns = true) (h_waiters : s.waiters = w :: rest)
    {fs : List (Event ι ρ)} (h_fs : ∀ e ∈ fs, e.caller = some c) (h_runs : (machine ι ρ).Runs s fs)
    (h_release : .release c ∈ fs) :
    ∃ gs, gs <+: fs ∧ (((machine ι ρ).exec s gs).waiter w).granted = true := by
  induction fs generalizing s with
  | nil => contradiction
  | cons e fs ih =>
    obtain ⟨he, h_runs⟩ := h_runs
    -- the release hands the slot on, or it comes later
    by_cases h_e : e = .release c
    · subst h_e
      exact ⟨[.release c], by simp, hI.release_grants he h_waiters⟩
    · rw [List.forall_mem_cons] at h_fs
      obtain ⟨h_same, h_own⟩ := hI.owner_next h_own h_fs.1 he h_e
      have h_rest : .release c ∈ fs := by
        rcases List.mem_cons.mp h_release with h_eq | h_rest
        · exact absurd h_eq.symm h_e
        · exact h_rest
      obtain ⟨gs, h_prefix, h_granted⟩ :=
        ih (hI.step he) h_own (h_same.trans h_waiters) h_fs.2 h_runs h_rest
      exact ⟨e :: gs, List.cons_prefix_cons.mpr ⟨rfl, h_prefix⟩, h_granted⟩

end TabQueue

namespace RunTab

/-! ### State -/

/-- The manager with its operations, the queues of the tabs, and the requests without an
operation id. -/
structure State (κ : Type*) where
  operations : Operations.State κ
  queues : String → TabQueue.State κ Json := fun _ => {}
  /-- The tab of a request without an operation id, which calls `RunTab` itself. -/
  plain : κ → Option String := fun _ => none

variable {κ : Type*} [DecidableEq κ]

namespace State

variable (s : State κ)

/-- No operation has the name. -/
def isUnused (c : κ) : Bool :=
  match s.operations.phase c with
  | .outside => true
  | _ => false

/-- The callback of the operation runs. -/
def inCallback (c : κ) : Bool :=
  match s.operations.phase c with
  | .running => true
  | _ => false

/-- The tab of an operation, empty where it has none. -/
def tabID (c : κ) : String := (s.operations.calls c).tabID

/-- Where an operation stands in the queue of its tab. -/
def queuePhase (c : κ) : TabQueue.Phase Json := (s.queues (s.tabID c)).phase c

/-- The call is one that `RunTab` runs in the queue of the tab, and is not over. -/
def On (c : κ) (tab : String) : Prop :=
  tab ≠ "" ∧ (s.inCallback c = true ∧ s.tabID c = tab ∨ s.plain c = some tab)

instance (c : κ) (tab : String) : Decidable (s.On c tab) := inferInstanceAs (Decidable (_ ∧ _))

/-- The function that the operation passed to `RunTab` runs in the queue of its tab. -/
def inFunction (c : κ) : Bool :=
  s.tabID c ≠ "" && match s.queuePhase c with
    | .invoked => true
    | _ => false

/-- `RunTab` runs none of the code of the queue for the operation. -/
def outsideQueue (c : κ) : Bool := s.tabID c = "" || !(s.queuePhase c).isInside

/-- `RunTab` is done with the operation, or runs its function without a queue. -/
def pastQueue (c : κ) : Bool := s.tabID c = "" || (s.queuePhase c).isReturned

end State

/-! ### The machine -/

/-- What can happen. -/
inductive Event (κ : Type*) where
  /-- A step of `ExecuteOperation` outside its callback, or of another method of the manager. -/
  | operation (e : Operations.Event κ)
  /-- A request without an operation id comes to `RunTab`. -/
  | plain (c : κ) (tabID : String)
  /-- A step of `tabQueue.run`. -/
  | queue (c : κ) (tab : String) (e : TabQueue.Event κ Json)
  /-- The callback of the operation returns. -/
  | complete (c : κ) (outcome : Outcome Json)
  /-- The callback of the operation panics, and `ExecuteOperation` recovers. -/
  | panics (c : κ)

/-- What an event does to the operations. -/
def operationEvent : Event κ → Option (Operations.Event κ)
  | .operation e => some e
  | .plain _ _ => none
  | .queue _ _ _ => none
  | .complete c outcome => some (.finish c outcome)
  | .panics c => some (.finish c (.error internal))

/-- The callback returns at this event. -/
def isFinish : Operations.Event κ → Bool
  | .finish _ _ => true
  | _ => false

/-- When an event can happen, apart from the operations. -/
def takes (s : State κ) : Event κ → Prop
  | .operation e => isFinish e = false ∧ ∀ c ∈ e.call?, s.plain c = none
  | .plain c _ => s.isUnused c = true ∧ s.plain c = none
  | .queue c tab e => s.On c tab ∧ e.caller = some c ∧ TabQueue.enabled (s.queues tab) e
  | .complete c _ => s.pastQueue c = true
  | .panics c => s.outsideQueue c = true ∨ s.inFunction c = true


instance (s : State κ) : ∀ e, Decidable (takes s e)
  | .operation _ => inferInstanceAs (Decidable (_ ∧ _))
  | .plain _ _ => inferInstanceAs (Decidable (_ ∧ _))
  | .queue _ _ _ => inferInstanceAs (Decidable (_ ∧ _ ∧ _))
  | .complete _ _ => inferInstanceAs (Decidable (_ = true))
  | .panics _ => inferInstanceAs (Decidable (_ ∨ _))

/-- When an event can happen. -/
def enabled (s : State κ) (e : Event κ) : Prop :=
  takes s e ∧ ∀ e' ∈ operationEvent e, Operations.enabled s.operations e'

instance (s : State κ) (e : Event κ) : Decidable (enabled s e) :=
  inferInstanceAs (Decidable (_ ∧ _))

/-- The queue of a tab after an event. A command of the manager cancels queues in its own critical
section. -/
def nextQueue (s : State κ) (e : Event κ) (tab : String) : TabQueue.State κ Json :=
  match e with
  | .queue _ t q => if t = tab then TabQueue.next (s.queues tab) q else s.queues tab
  | .operation (.command k now) =>
    match (k.run s.operations.manager now).cancelledQueues tab with
    | some reason => (s.queues tab).cancelAll reason
    | none => s.queues tab
  | _ => s.queues tab

/-- What an event does. -/
def next (hash : String → String) (s : State κ) (e : Event κ) : State κ where
  operations := match operationEvent e with
    | some e' => Operations.next hash s.operations e'
    | none => s.operations
  queues := nextQueue s e
  plain := match e with
    | .plain c tab => Function.update s.plain c (some tab)
    | _ => s.plain

/-- Any number of operations and of other requests on the tabs of a manager. -/
def machine (hash : String → String) (leaseTTL : Duration) : Machine (State κ) (Event κ) where
  init := { operations := { manager := .new leaseTTL } }
  enabled := enabled
  next := next hash

instance (hash : String → String) (leaseTTL : Duration) (s : State κ) (e : Event κ) :
    Decidable ((machine hash leaseTTL).enabled s e) := inferInstanceAs (Decidable (enabled s e))

/-- No function panics while the queue of its tab runs it. -/
def Contained (s : State κ) : Event κ → Prop
  | .panics c => s.inFunction c = false
  | _ => True

instance (s : State κ) : ∀ e, Decidable (Contained s e)
  | .operation _ => isTrue trivial
  | .plain _ _ => isTrue trivial
  | .queue _ _ _ => isTrue trivial
  | .complete _ _ => isTrue trivial
  | .panics c => inferInstanceAs (Decidable (s.inFunction c = false))

/-- Steps of the call alone, in the queue of the tab, lead to the slot being granted to the waiter
`w`. -/
def Grants (hash : String → String) (leaseTTL : Duration) (s : State κ) (tab : String) (c w : κ) :
    Prop :=
  ∃ qs : List (TabQueue.Event κ Json), (∀ q ∈ qs, q.caller = some c) ∧
    (machine hash leaseTTL).Runs s (qs.map (.queue c tab)) ∧
    ((((machine hash leaseTTL).exec s (qs.map (.queue c tab))).queues tab).waiter w).granted = true

/-- **No tab is blocked.** -/
structure Unblocked (hash : String → String) (leaseTTL : Duration) (s : State κ) : Prop where
  /-- An operation that has returned does not own a slot. -/
  returned : ∀ c, (s.operations.calls c).result.isSome = true →
    ∀ tab, ((s.queues tab).calls c).owns = false
  /-- A slot that is taken has an owner that is not over. -/
  owned : ∀ tab, (s.queues tab).running = true →
    ∃ c, ((s.queues tab).calls c).owns = true ∧ s.On c tab
  /-- Whoever gives the slot back gives it to the first waiter. -/
  hands : ∀ tab c w rest, (s.queues tab).waiters = w :: rest →
    enabled s (.queue c tab (.release c)) →
    (((next hash s (.queue c tab (.release c))).queues tab).waiter w).granted = true
  /-- The first waiter waits for a call that grants it the slot by steps of its own, if its function
  returns. -/
  granted : ∀ tab w rest, (s.queues tab).waiters = w :: rest →
    ∃ c, ((s.queues tab).calls c).owns = true ∧ s.On c tab ∧ Grants hash leaseTTL s tab c w

variable {hash : String → String} {leaseTTL : Duration} {s : State κ} {e : Event κ} {c : κ}

/-! ### Steps -/

omit [DecidableEq κ] in
/-- A call is in its callback when its operation runs. -/
theorem inCallback_iff : s.inCallback c = true ↔ s.operations.phase c = .running := by
  unfold State.inCallback
  split
  case h_1 h => simp [h]
  case h_2 h => simp only [Bool.false_eq_true, false_iff]; exact h

omit [DecidableEq κ] in
/-- A call is unused before it enters. -/
theorem isUnused_iff : s.isUnused c = true ↔ s.operations.phase c = .outside := by
  unfold State.isUnused
  split
  case h_1 h => simp [h]
  case h_2 h => simp only [Bool.false_eq_true, false_iff]; exact h

/-- A step that is no end of a callback leaves the callbacks that run. -/
theorem calls_next_of_running {s : Operations.State κ} {e : Operations.Event κ}
    (h_running : s.phase c = .running) (he : Operations.enabled s e)
    (h_finish : isFinish e = false) :
    (Operations.next hash s e).calls c = s.calls c := by
  refine Operations.calls_next_of_ne hash s fun h_call => ?_
  -- every other event of the call needs another phase
  cases e with
  | execute d sessionID tabID operationID request now =>
    cases h_call
    have h := h_running.symm.trans (Operations.enabled_execute.mp he)
    contradiction
  | ctxDone d message =>
    cases h_call
    obtain ⟨r, h⟩ := Operations.enabled_ctxDone.mp he
    have h := h_running.symm.trans h
    contradiction
  | takeDone d =>
    cases h_call
    obtain ⟨r, h, -⟩ := Operations.enabled_takeDone.mp he
    have h := h_running.symm.trans h
    contradiction
  | invoke d =>
    cases h_call
    have h := h_running.symm.trans (Operations.enabled_invoke.mp he)
    contradiction
  | finish d outcome => contradiction
  | record d now =>
    cases h_call
    obtain ⟨outcome, h⟩ := Operations.enabled_record.mp he
    have h := h_running.symm.trans h
    contradiction
  | command k now => contradiction

/-- The queue of a tab moves by steps of `TabQueue.machine` only. -/
theorem nextQueue_cases (s : State κ) (e : Event κ) (tab : String) :
    nextQueue s e tab = s.queues tab ∨
      (∃ reason, nextQueue s e tab = (s.queues tab).cancelAll reason) ∨
      ∃ c q, e = .queue c tab q ∧ nextQueue s e tab = TabQueue.next (s.queues tab) q := by
  unfold nextQueue
  split
  case h_1 c t q =>
    -- An event of another tab's queue leaves this one alone.
    by_cases h_tab : t = tab
    · subst h_tab
      exact .inr (.inr ⟨c, q, rfl, if_pos rfl⟩)
    · exact .inl (if_neg h_tab)
  case h_2 k now =>
    split
    · exact .inr (.inl ⟨_, rfl⟩)
    · exact .inl rfl
  case h_3 => exact .inl rfl

/-- A queue stays a queue. -/
theorem queue_inv_next (hI : ∀ tab, TabQueue.Inv (s.queues tab)) (he : takes s e) (tab : String) :
    TabQueue.Inv (nextQueue s e tab) := by
  rcases nextQueue_cases s e tab with h | ⟨reason, h⟩ | ⟨c, q, rfl, h⟩
  · rw [h]
    exact hI tab
  · rw [h]
    exact (hI tab).cancels reason
  · rw [h]
    exact (hI tab).step he.2.2

/-- A call that does not move in a queue stays where it is. -/
theorem phase_nextQueue (tab : String) (h : ∀ q, e = .queue c tab q → q.caller ≠ some c)
    (he : takes s e) : (nextQueue s e tab).phase c = (s.queues tab).phase c := by
  rcases nextQueue_cases s e tab with h_queue | ⟨reason, h_queue⟩ | ⟨d, q, rfl, h_queue⟩
  · rw [h_queue]
  · rw [h_queue]
    rfl
  · rw [h_queue]
    refine TabQueue.phase_next_of_ne _ fun h_caller => ?_
    have h_d : d = c := Option.some_inj.mp (he.2.1.symm.trans h_caller)
    subst h_d
    exact h q rfl h_caller

/-! ### Who is in a queue -/

/-- What holds as long as no function panics in a queue. -/
structure Inv (s : State κ) : Prop where
  queues : ∀ tab, TabQueue.Inv (s.queues tab)
  /-- A request has an operation or none. -/
  plain : ∀ c, s.plain c ≠ none → s.operations.phase c = .outside
  /-- A call that is in the queue of a tab is not over. -/
  on : ∀ tab c, ((s.queues tab).phase c).isInside = true → s.On c tab

omit [DecidableEq κ] in
theorem Inv.init : Inv ({ operations := { manager := .new leaseTTL } } : State κ) where
  queues _ := .init
  plain _ h := absurd rfl h
  on _ _ h := by contradiction

omit [DecidableEq κ] in
/-- An operation whose callback ends is in no queue. -/
theorem Inv.outside_of_finish (hI : Inv s) (h_running : s.operations.phase c = .running)
    (h_outside : s.outsideQueue c = true) (tab : String) :
    ((s.queues tab).phase c).isInside = false := by
  by_contra h_inside
  rw [Bool.not_eq_false] at h_inside
  obtain ⟨h_tab, h_on⟩ := hI.on tab c h_inside
  have h_tabID : s.tabID c = tab := by
    rcases h_on with ⟨-, h_same⟩ | h_plain
    · exact h_same
    · have h_phase := hI.plain c (by simp [h_plain])
      have h := h_running.symm.trans h_phase
      contradiction
  unfold State.outsideQueue State.queuePhase at h_outside
  rw [h_tabID, h_inside] at h_outside
  simp [h_tab] at h_outside

/-- A step that neither ends the callback of a call nor makes it plain leaves it on its tab. -/
theorem on_next {tab : String} (h_on : s.On c tab) (he : enabled s e)
    (h_finish : ∀ outcome, operationEvent e ≠ some (.finish c outcome)) :
    (next hash s e).On c tab := by
  obtain ⟨h_tab, ⟨h_callback, h_tabID⟩ | h_plain⟩ := h_on
  -- a callback goes on running until it finishes
  · refine ⟨h_tab, .inl ?_⟩
    have h_running := inCallback_iff.mp h_callback
    have h_same : (next hash s e).operations.calls c = s.operations.calls c := by
      unfold next
      cases h_event : operationEvent e with
      | none => rfl
      | some e' =>
        have he' := he.2 e' h_event
        by_cases h_end : isFinish e' = false
        · exact calls_next_of_running h_running he' h_end
        · refine Operations.calls_next_of_ne hash _ fun h_call => ?_
          cases e' with
          | finish d outcome =>
            cases h_call
            exact h_finish outcome h_event
          | _ => exact h_end rfl
    refine ⟨inCallback_iff.mpr ?_, ?_⟩
    · rw [Operations.State.phase, h_same]
      exact h_running
    · rw [State.tabID, h_same]
      exact h_tabID
  -- a request without an operation keeps its tab
  · refine ⟨h_tab, .inr ?_⟩
    cases e with
    | plain d t =>
      have h_ne : c ≠ d := by
        rintro rfl
        rw [he.1.2] at h_plain
        contradiction
      exact (Function.update_of_ne h_ne ..).trans h_plain
    | _ => exact h_plain

/-- A call without an operation stays without one. -/
theorem Inv.plain_next (hI : Inv s) (he : enabled s e) (h_plain : (next hash s e).plain c ≠ none) :
    (next hash s e).operations.phase c = .outside := by
  by_cases h_new : ∃ t, e = .plain c t
  -- the request is new, and its name unused
  · obtain ⟨t, rfl⟩ := h_new
    exact isUnused_iff.mp he.1.1
  · have h_old : s.plain c ≠ none := by
      cases e with
      | plain d t =>
        have h_ne : c ≠ d := fun h => h_new ⟨t, h ▸ rfl⟩
        have h_same : (next hash s (.plain d t)).plain c = s.plain c :=
          Function.update_of_ne h_ne ..
        rwa [h_same] at h_plain
      | _ => exact h_plain
    have h_outside := hI.plain c h_old
    -- No step of `ExecuteOperation` is about a request without an operation id.
    have h_other : ∀ e', operationEvent e = some e' → e'.call? ≠ some c := by
      intro e' h_event h_call
      cases e with
      | operation e'' =>
        cases h_event
        exact h_old (he.1.2 c h_call)
      | complete d outcome =>
        cases h_event
        cases h_call
        have h := (Operations.enabled_finish.mp (he.2 _ rfl)).symm.trans h_outside
        contradiction
      | panics d =>
        cases h_event
        cases h_call
        have h := (Operations.enabled_finish.mp (he.2 _ rfl)).symm.trans h_outside
        contradiction
      | _ => contradiction
    unfold next
    cases h_event : operationEvent e with
    | none => exact h_outside
    | some e' =>
      show ((Operations.next hash s.operations e').calls c).phase = _
      rw [Operations.calls_next_of_ne hash _ (h_other e' h_event)]
      exact h_outside

/-- Contained steps keep the queues and the operations together. -/
theorem Inv.step (hI : Inv s) (he : enabled s e) (h_contained : Contained s e) :
    Inv (next hash s e) where
  queues := queue_inv_next hI.queues he.1
  plain _ := hI.plain_next he
  on tab c h_inside := by
    by_cases h_queue : ∃ q, e = .queue c tab q
    · -- The call itself moves in the queue.
      obtain ⟨q, rfl⟩ := h_queue
      exact he.1.1
    -- The queue is as before, and the call finishes only when it has left it.
    · have h_same : ((next hash s e).queues tab).phase c = (s.queues tab).phase c :=
        phase_nextQueue tab (fun q h => absurd ⟨q, h⟩ h_queue) he.1
      rw [h_same] at h_inside
      refine on_next (hI.on tab c h_inside) he fun outcome h_finish => ?_
      have h_running := Operations.enabled_finish.mp (he.2 _ h_finish)
      have h_outside : s.outsideQueue c = true := by
        cases e with
        | operation e' =>
          cases h_finish
          have h_end := he.1.1
          contradiction
        | complete d outcome =>
          cases h_finish
          have h_past := he.1
          simp only [takes, State.pastQueue, Bool.or_eq_true] at h_past
          unfold State.outsideQueue
          rcases h_past with h_tab | h_returned
          · rw [h_tab, Bool.true_or]
          · revert h_returned
            generalize s.queuePhase c = phase
            cases phase <;> simp [TabQueue.Phase.isReturned, TabQueue.Phase.isInside]
        | panics d =>
          cases h_finish
          rcases he.1 with h_outside | h_function
          · exact h_outside
          · have h := h_function.symm.trans h_contained
            contradiction
        | _ => contradiction
      rw [hI.outside_of_finish h_running h_outside tab] at h_inside
      contradiction

/-! ### The first waiter -/

variable (hash leaseTTL) in
/-- The steps of a call in the queue of its tab are steps of the machine. -/
theorem run_queue {tab : String} (h_on : s.On c tab) {qs : List (TabQueue.Event κ Json)}
    (h_qs : ∀ q ∈ qs, q.caller = some c)
    (h_runs : (TabQueue.machine κ Json).Runs (s.queues tab) qs) :
    (machine hash leaseTTL).Runs s (qs.map (.queue c tab)) ∧
      ((machine hash leaseTTL).exec s (qs.map (.queue c tab))).queues tab =
        (TabQueue.machine κ Json).exec (s.queues tab) qs := by
  induction qs generalizing s with
  | nil => exact ⟨trivial, rfl⟩
  -- an event of the queue is one of the whole system while the call is on it
  | cons q qs ih =>
    rw [List.forall_mem_cons] at h_qs
    obtain ⟨h_enabled, h_runs⟩ := h_runs
    have he : enabled s (.queue c tab q) :=
      ⟨⟨h_on, h_qs.1, h_enabled⟩, fun _ h => by contradiction⟩
    have h_next : (next hash s (.queue c tab q)).queues tab = TabQueue.next (s.queues tab) q :=
      if_pos rfl
    have h_on' : (next hash s (.queue c tab q)).On c tab :=
      on_next h_on he fun _ h => by contradiction
    obtain ⟨h_runs', h_exec⟩ := ih h_on' h_qs.2 (by rw [h_next]; exact h_runs)
    refine ⟨⟨he, h_runs'⟩, h_exec.trans ?_⟩
    rw [h_next]
    rfl

/-- Somebody who waits is waiting for an owner who can still go on. -/
theorem Inv.grants (hI : Inv s) {tab : String} {w : κ} {rest : List κ}
    (h_waiters : (s.queues tab).waiters = w :: rest) :
    ∃ c, ((s.queues tab).calls c).owns = true ∧ s.On c tab ∧ Grants hash leaseTTL s tab c w := by
  have hQ := hI.queues tab
  have h_waits : (s.queues tab).waiters ≠ [] := by
    rw [h_waiters]
    exact List.cons_ne_nil _ _
  -- Somebody owns the slot, since there is a waiter.
  obtain ⟨c, h_own⟩ := hQ.running.mp (hQ.handoff h_waits)
  have h_on := hI.on tab c (hQ.isInside_of_owns h_own)
  refine ⟨c, h_own, h_on, ?_⟩
  -- The owner can give it back by its own steps, and the first waiter gets it.
  obtain ⟨fs, h_fs, h_runs, h_release⟩ := hQ.canGiveBack h_own (.ok .null)
  obtain ⟨gs, ⟨hs, rfl⟩, h_granted⟩ := hQ.owner_grants h_own h_waiters h_fs h_runs h_release
  have h_gs : ∀ q ∈ gs, q.caller = some c := fun q h_q => h_fs q (List.mem_append_left _ h_q)
  obtain ⟨h_runs', h_exec⟩ := run_queue hash leaseTTL h_on h_gs
    ((Machine.runs_append ..).mp h_runs).1
  refine ⟨gs, h_gs, h_runs', ?_⟩
  rw [h_exec]
  exact h_granted

/-- While no callback panics, nobody waits for a slot that is not given back. -/
theorem Inv.unblocked (hI : Inv s) : Unblocked hash leaseTTL s where
  -- whoever is in a queue has not returned
  returned c h_result tab := by
    by_contra h_own
    rw [Bool.not_eq_false] at h_own
    obtain ⟨-, ⟨h_callback, -⟩ | h_plain⟩ := hI.on tab c ((hI.queues tab).isInside_of_owns h_own)
    · have h_running : (s.operations.calls c).phase = .running := inCallback_iff.mp h_callback
      rw [Operations.Call.result, h_running] at h_result
      contradiction
    · have h_outside : (s.operations.calls c).phase = .outside := hI.plain c (by simp [h_plain])
      rw [Operations.Call.result, h_outside] at h_result
      contradiction
  owned tab h_running := by
    obtain ⟨c, h_own⟩ := (hI.queues tab).running.mp h_running
    exact ⟨c, h_own, hI.on tab c ((hI.queues tab).isInside_of_owns h_own)⟩
  -- the release hands the slot to the first waiter
  hands tab c w rest h_waiters he := by
    have h_next : (next hash s (.queue c tab (.release c))).queues tab =
        TabQueue.next (s.queues tab) (.release c) := if_pos rfl
    rw [h_next]
    exact (hI.queues tab).release_grants he.1.2.2 h_waiters
  granted _ _ _ := hI.grants

/-- The invariant holds of every run without a panic in a queue. -/
theorem inv_of_contained {es : List (Event κ)}
    (h : ((machine hash leaseTTL).restrict Contained).Runs (machine hash leaseTTL).init es) :
    Inv ((machine hash leaseTTL).exec (machine hash leaseTTL).init es) := by
  have h_reachable := Machine.Runs.reachable (M := (machine hash leaseTTL).restrict Contained) h
  refine h_reachable.induction (P := Inv) Inv.init ?_
  intro s e _ hI he
  exact hI.step he.1 he.2

/-- A panic in the queue of a tab leaves the slot taken without an owner. -/
theorem Inv.blocked_of_panics (hI : Inv s) (he : enabled s (.panics c))
    (h_function : s.inFunction c = true) :
    ¬ Unblocked hash leaseTTL (next hash s (.panics c)) := by
  intro h
  have h_running := Operations.enabled_finish.mp (he.2 _ rfl)
  unfold State.inFunction at h_function
  rw [Bool.and_eq_true, decide_eq_true_iff] at h_function
  obtain ⟨h_tab, h_invoked⟩ := h_function
  have h_own : ((s.queues (s.tabID c)).calls c).owns = true := by
    split at h_invoked
    case h_1 h_phase => exact (hI.queues _).owns_of_holding h_phase rfl
    case h_2 => contradiction
  obtain ⟨d, h_owns, h_on⟩ := h.owned (s.tabID c) ((hI.queues _).running.mpr ⟨c, h_own⟩)
  -- The slot has no other owner than the call, and the operation of the call is over.
  have h_d : d = c := (hI.queues _).single d c h_owns h_own
  subst h_d
  obtain ⟨-, ⟨h_callback, -⟩ | h_plain⟩ := h_on
  · have h_ended : (next hash s (.panics d)).operations.phase d = .ended (.error internal) :=
      Operations.State.phase_setCall_self ..
    have h := (inCallback_iff.mp h_callback).symm.trans h_ended
    contradiction
  · have h := h_running.symm.trans (hI.plain d (by rw [show s.plain d = _ from h_plain]; simp))
    contradiction

/-- **A tab is blocked by a panic in its queue, and by nothing else**: in every state that a run
comes to no tab is blocked if and only if no function panicked while the queue of its tab ran it. -/
theorem unblocked_iff_contained {es : List (Event κ)}
    (h : (machine hash leaseTTL).Runs (machine hash leaseTTL).init es) :
    (∀ es₁, es₁ <+: es →
      Unblocked hash leaseTTL ((machine hash leaseTTL).exec (machine hash leaseTTL).init es₁)) ↔
    ((machine hash leaseTTL).restrict Contained).Runs (machine hash leaseTTL).init es := by
  constructor
  · intro h_unblocked
    induction es using List.reverseRecOn with
    | nil => trivial
    -- the first event that is not contained leaves its queue occupied
    | append_singleton es e ih =>
      obtain ⟨h_runs, he, -⟩ := (Machine.runs_append ..).mp h
      have h_contained := ih h_runs fun es₁ h_begin =>
        h_unblocked es₁ (h_begin.trans (List.prefix_append ..))
      have hI := inv_of_contained h_contained
      refine (Machine.runs_append ..).mpr ⟨h_contained, ⟨he, ?_⟩, trivial⟩
      by_contra h_panics
      cases e with
      | panics c =>
        have h_end := h_unblocked _ (List.prefix_refl _)
        rw [Machine.exec_append] at h_end
        exact hI.blocked_of_panics he (Bool.eq_true_of_not_eq_false h_panics) h_end
      | _ => exact h_panics trivial
  · rintro h_contained es₁ ⟨es₂, rfl⟩
    exact (inv_of_contained ((Machine.runs_append ..).mp h_contained).1).unblocked

/-- Two operations on a tab: the first one has taken the slot, and the second one waits for it. -/
def twoOperations : List (Event (Fin 2)) :=
  [.operation (.command (.openSession "ses_1" "" "") 0),
    .operation (.execute 0 "ses_1" "7" "op_1" .empty 1), .operation (.invoke 0),
    .queue 0 "7" (.enter 0), .queue 0 "7" (.start 0), .queue 0 "7" (.invoke 0),
    .operation (.execute 1 "ses_1" "7" "op_2" .empty 1), .operation (.invoke 1),
    .queue 1 "7" (.enter 1)]

/-- The first operation fails with an internal error, and the second one gets the slot. -/
theorem unblocked_iff_contained_twoOperations :
    (machine id 0).Runs (machine id 0).init twoOperations ∧
      ∀ es₁, es₁ <+: twoOperations ++ [.queue 0 "7" (.finish 0 (.error internal)),
        .queue 0 "7" (.release 0), .complete 0 (.error internal)] →
      Unblocked id 0 ((machine id 0).exec (machine id 0).init es₁) :=
  ⟨by decide, (unblocked_iff_contained (by decide)).mpr (by decide)⟩

/-- The first operation panics, and is recorded as failed. -/
def panicked : List (Event (Fin 2)) := twoOperations ++ [.panics 0, .operation (.record 0 2)]

/-- The second operation waits for a slot that nobody owns. -/
theorem not_unblocked_panicked :
    ¬ ∀ es : List (Event (Fin 2)), (machine id 0).Runs (machine id 0).init es →
      Unblocked id 0 ((machine id 0).exec (machine id 0).init es) := by
  intro h
  obtain ⟨c, h_owner, h_on⟩ := (h panicked (by decide)).owned "7" (by decide)
  revert h_owner h_on
  revert c
  decide

end RunTab

end BrowserControl.Core
