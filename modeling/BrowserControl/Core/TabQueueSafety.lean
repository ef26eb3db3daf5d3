import BrowserControl.Core.TabQueueInvariant

/-!
# Mutual exclusion and order of the tab queue

`MutexFifo` collects the order of the queue: one `fn` runs at a time, the `fn`s run in the
order in which their calls took the lock, each call takes the slot once at most and has
given it back when it returns, and an owner can always go on by itself until it has given
the slot back. The proof is by two history invariants: `Order` ties the list of waiters to
what was entered and invoked so far, `Slots` ties the grants in the records of the calls to
what was taken and given so far.
-/

namespace BrowserControl.Core.TabQueue

open Encoding Protocol Transition

variable {ι ρ : Type*} [DecidableEq ι]

/-! ### Logs grow at the end -/

section Logs

omit [DecidableEq ι]

@[simp] theorem enteredLog_append (es fs : List (Event ι ρ)) :
    enteredLog (es ++ fs) = enteredLog es ++ enteredLog fs := List.filterMap_append ..

@[simp] theorem invokedLog_append (es fs : List (Event ι ρ)) :
    invokedLog (es ++ fs) = invokedLog es ++ invokedLog fs := List.filterMap_append ..

@[simp] theorem givenLog_append (es fs : List (Event ι ρ)) :
    givenLog (es ++ fs) = givenLog es ++ givenLog fs := List.filterMap_append ..

@[simp] theorem enteredLog_nil : enteredLog ([] : List (Event ι ρ)) = [] := rfl

@[simp] theorem invokedLog_nil : invokedLog ([] : List (Event ι ρ)) = [] := rfl

@[simp] theorem givenLog_nil : givenLog ([] : List (Event ι ρ)) = [] := rfl

@[simp] theorem mem_enteredLog {es : List (Event ι ρ)} {c : ι} :
    c ∈ enteredLog es ↔ .enter c ∈ es := by
  simp only [enteredLog, List.mem_filterMap]
  constructor
  · rintro ⟨e, he, h⟩
    cases e <;> simp_all
  · exact fun h => ⟨_, h, rfl⟩

@[simp] theorem mem_invokedLog {es : List (Event ι ρ)} {c : ι} :
    c ∈ invokedLog es ↔ .invoke c ∈ es := by
  simp only [invokedLog, List.mem_filterMap]
  constructor
  · rintro ⟨e, he, h⟩
    cases e <;> simp_all
  · exact fun h => ⟨_, h, rfl⟩

@[simp] theorem mem_givenLog {es : List (Event ι ρ)} {c : ι} :
    c ∈ givenLog es ↔ .release c ∈ es := by
  simp only [givenLog, List.mem_filterMap]
  constructor
  · rintro ⟨e, he, h⟩
    cases e <;> simp_all
  · exact fun h => ⟨_, h, rfl⟩

end Logs

@[simp] theorem takenLog_snoc (es : List (Event ι ρ)) (e : Event ι ρ) :
    takenLog (es ++ [e]) = takenLog es ++ takes ((machine ι ρ).exec (machine ι ρ).init es) e := by
  simp [takenLog]

/-! ### The order of the calls -/

/-- The call has not called its `fn` and may still do so. -/
def Phase.isPending : Phase ρ → Bool
  | .waiting => true
  | .ctxDone _ => true
  | .starting => true
  | .activated => true
  | _ => false

/-- The call owns the slot and has not called its `fn`. -/
def Call.pending (call : Call ρ) : Bool := call.owns && call.phase.isPending

/-- The list of waiters continues the order in which the calls took the lock. -/
structure Order (es : List (Event ι ρ)) (s : State ι ρ) : Prop where
  entered : ∀ c, .enter c ∈ es → s.phase c ≠ .outside
  nodup : (enteredLog es).Nodup
  waiters : (invokedLog es ++ s.waiters).Sublist (enteredLog es)
  owner : ∀ c, (s.calls c).pending = true →
    (invokedLog es ++ c :: s.waiters).Sublist (enteredLog es)

omit [DecidableEq ι] in
/-- A step without a new call and without a new `fn` keeps the order if it makes no call
the pending owner and only removes waiters. -/
theorem Order.of_frame {es : List (Event ι ρ)} {s s' : State ι ρ} {e : Event ι ρ}
    (hO : Order es s) (h_enter : enteredLog [e] = []) (h_invoke : invokedLog [e] = [])
    (h_outside : ∀ c, s.phase c ≠ .outside → s'.phase c ≠ .outside)
    (h_waiters : s'.waiters.Sublist s.waiters)
    (h_pending : ∀ c, (s'.calls c).pending = true → (s.calls c).pending = true) :
    Order (es ++ [e]) s' := by
  constructor
  -- Nobody enters by this step, so the order of entering is the old one.
  case entered =>
    intro c hc
    rw [← mem_enteredLog, enteredLog_append, h_enter, List.append_nil, mem_enteredLog] at hc
    exact h_outside c (hO.entered c hc)
  case nodup => simpa [h_enter] using hO.nodup
  case waiters =>
    simp only [enteredLog_append, invokedLog_append, h_enter, h_invoke, List.append_nil]
    exact ((List.Sublist.refl _).append h_waiters).trans hO.waiters
  case owner =>
    intro c hc
    simp only [enteredLog_append, invokedLog_append, h_enter, h_invoke, List.append_nil]
    exact ((List.Sublist.refl _).append (h_waiters.cons_cons c)).trans
      (hO.owner c (h_pending c hc))

/-- `Order.of_frame` for a step that moves one call. -/
theorem Order.of_move {es : List (Event ι ρ)} {s : State ι ρ} {e : Event ι ρ}
    (hO : Order es s) (h_enter : enteredLog [e] = []) (h_invoke : invokedLog [e] = [])
    {c : ι} {call : Call ρ} {waiters : List ι} {active : Option ι}
    (h_outside : call.phase ≠ .outside) (h_waiters : waiters.Sublist s.waiters)
    (h_pending : call.pending = true → (s.calls c).pending = true) :
    Order (es ++ [e]) ({ s with waiters, activeCancel := active }.setCall c call) := by
  refine hO.of_frame h_enter h_invoke ?_ h_waiters ?_
  · exact forall_setCall (s := s) (fun d k => s.phase d ≠ .outside → k.phase ≠ .outside)
      (fun _ => h_outside) fun _ _ => id
  · exact forall_setCall (s := s)
      (fun d k => k.pending = true → (s.calls d).pending = true) h_pending fun _ _ => id

omit [DecidableEq ι] in
theorem Order.init : Order [] ({} : State ι ρ) where
  entered := by simp
  nodup := List.nodup_nil
  waiters := List.Sublist.refl _
  owner := by simp [Call.pending, Call.owns]

/-- A call that enters comes last in every list. -/
theorem Order.enter {es : List (Event ι ρ)} {s : State ι ρ} (hO : Order es s) (hI : Inv s)
    {c : ι} (h_phase : s.phase c = .outside) : Order (es ++ [.enter c]) (s.enter c) := by
  have h_log : enteredLog [(.enter c : Event ι ρ)] = [c] := rfl
  have h_invoked : invokedLog [(.enter c : Event ι ρ)] = [] := rfl
  have h_new : c ∉ enteredLog es := fun h => hO.entered c (mem_enteredLog.mp h) h_phase
  have h_outside : ∀ call : Call ρ, call.phase ≠ .outside →
      ∀ d, .enter d ∈ es ++ [.enter c] → ((s.setCall c call).calls d).phase ≠ .outside := by
    intro call h_call
    refine forall_setCall (fun d k => .enter d ∈ es ++ [.enter c] → k.phase ≠ .outside)
      (fun _ => h_call) fun d hd h => ?_
    exact hO.entered d (by simpa [hd] using h)
  have h_nodup : (enteredLog (es ++ [(.enter c : Event ι ρ)])).Nodup := by
    rw [enteredLog_append, h_log]
    refine List.nodup_append.mpr ⟨hO.nodup, List.nodup_singleton c, ?_⟩
    intro d hd e he h_eq
    rw [List.mem_singleton.mp he] at h_eq
    exact h_new (h_eq ▸ hd)
  by_cases h_running : s.running = true
  -- the call is the last to wait
  · rw [State.enter, if_pos h_running]
    set call : Call ρ := { phase := .waiting, waiter := { generation := s.generation } }
    constructor
    case entered => exact h_outside call (by simp [call])
    case nodup => exact h_nodup
    case waiters =>
      rw [enteredLog_append, invokedLog_append, h_log, h_invoked, List.append_nil]
      change (invokedLog es ++ (s.waiters ++ [c])).Sublist _
      rw [← List.append_assoc]
      exact hO.waiters.append (List.Sublist.refl _)
    case owner =>
      refine forall_setCall (fun d k => k.pending = true →
        (invokedLog (es ++ [Event.enter c]) ++ d :: (s.waiters ++ [c])).Sublist
          (enteredLog (es ++ [Event.enter c]))) ?_ fun d _ h => ?_
      · simp [call, Call.pending, Call.owns]
      · rw [enteredLog_append, invokedLog_append, h_log, h_invoked, List.append_nil,
          ← List.cons_append, ← List.append_assoc]
        exact (hO.owner d h).append (List.Sublist.refl _)
  -- the slot is free, and the call is the next to be invoked
  · have h_waiters : s.waiters = [] := by
      by_contra h
      exact h_running (hI.handoff h)
    have h_order : (invokedLog es ++ [c]).Sublist (enteredLog es ++ [c]) := by
      have h := hO.waiters
      rw [h_waiters, List.append_nil] at h
      exact h.append (List.Sublist.refl _)
    rw [State.enter, if_neg h_running]
    set call : Call ρ :=
      { phase := .starting, waiter := { generation := s.generation, granted := true } }
    constructor
    case entered => exact h_outside call (by simp [call])
    case nodup => exact h_nodup
    case waiters =>
      rw [enteredLog_append, invokedLog_append, h_log, h_invoked, List.append_nil]
      exact hO.waiters.trans (List.sublist_append_left _ _)
    case owner =>
      refine forall_setCall (fun d k => k.pending = true →
        (invokedLog (es ++ [Event.enter c]) ++ d :: s.waiters).Sublist
          (enteredLog (es ++ [Event.enter c]))) (fun _ => ?_) fun d _ h => ?_
      · rw [enteredLog_append, invokedLog_append, h_log, h_invoked, List.append_nil, h_waiters]
        exact h_order
      · -- Nobody owns the slot of an idle queue.
        simp only [Call.pending, Bool.and_eq_true] at h
        exact absurd (hI.running.mpr ⟨d, h.1⟩) h_running

/-- The owner hands the slot to the waiter that entered first. -/
theorem Order.release {es : List (Event ι ρ)} {s : State ι ρ} (hO : Order es s) (hI : Inv s)
    {c : ι} {outcome : Outcome ρ} (h_phase : s.phase c = .releasing outcome) :
    Order (es ++ [.release c]) (s.setPhase c (.returned outcome)).release := by
  have h_own := hI.owns_of_holding h_phase rfl
  have h_eligible : (s.setPhase c (.returned outcome)).eligible = s.waiters := by
    refine State.eligible_eq fun d hd => ?_
    rw [State.waiter_setPhase]
    exact hI.err_eq_none hd
  -- nobody else is about to be invoked
  have h_none : ∀ d, d ≠ c → (s.calls d).pending = false := by
    intro d hd
    by_contra h
    simp only [Call.pending, Bool.not_eq_false, Bool.and_eq_true] at h
    exact hd (hI.single d c h.1 h_own)
  rw [State.release, h_eligible]
  cases h_waiters : s.waiters with
  | nil =>
    refine hO.of_frame rfl rfl ?_ (List.nil_sublist _) ?_
    · exact forall_setCall (s := s) (fun d k => s.phase d ≠ .outside → k.phase ≠ .outside)
        (by simp) fun _ _ => id
    · exact forall_setCall (s := s) (fun d k => k.pending = true → (s.calls d).pending = true)
        (by simp [Call.pending, Phase.isPending]) fun _ _ => id
  -- the first waiter is the next to be invoked
  | cons w rest =>
    have h_w : w ≠ c := by
      rintro rfl
      have h_listed := (hI.listed w).mp (by simp [h_waiters])
      have h_granted := (hI.ok w).holding (by simp [show (s.calls w).phase = _ from h_phase,
        Phase.isHolding])
      simp [Call.listed, h_granted] at h_listed
    have h_first := hO.waiters
    rw [h_waiters] at h_first
    have h_enter : enteredLog [(.release c : Event ι ρ)] = [] := rfl
    have h_invoke : invokedLog [(.release c : Event ι ρ)] = [] := rfl
    constructor
    case entered =>
      intro d hd
      have h_outside : s.phase d ≠ .outside := hO.entered d (by simpa using hd)
      revert h_outside d
      refine forall_setCall_setCall (s := s) (fun d k => .enter d ∈ es ++ [.release c] →
        s.phase d ≠ .outside → k.phase ≠ .outside) ?_ ?_ fun _ _ _ _ => id
      · simp [State.setPhase, State.setCall, h_w, State.phase]
      · simp
    case nodup =>
      rw [enteredLog_append, h_enter, List.append_nil]
      exact hO.nodup
    case waiters =>
      rw [enteredLog_append, invokedLog_append, h_enter, h_invoke, List.append_nil,
        List.append_nil]
      exact ((List.Sublist.refl _).append (List.sublist_cons_self w rest)).trans h_first
    case owner =>
      rw [enteredLog_append, invokedLog_append, h_enter, h_invoke, List.append_nil,
        List.append_nil]
      refine forall_setCall_setCall (s := s) (fun d k => k.pending = true →
        (invokedLog es ++ d :: rest).Sublist (enteredLog es)) (fun _ => h_first) ?_ ?_
      · simp [Call.pending, Phase.isPending]
      · intro d hd _ h
        exact absurd h (by simp [h_none d hd])

/-- `fn` is called: the owner was the next in order. -/
theorem Order.invoke {es : List (Event ι ρ)} {s : State ι ρ} (hO : Order es s) (hI : Inv s)
    {c : ι} (h_phase : s.phase c = .activated) :
    Order (es ++ [.invoke c]) (s.setPhase c .invoked) := by
  have h_own := hI.owns_of_holding h_phase rfl
  -- the owner comes next in the order of entering, and is not pending any more
  have h_pending : (s.calls c).pending = true := by
    simp [Call.pending, h_own, show (s.calls c).phase = _ from h_phase, Phase.isPending]
  have h_enter : enteredLog [(.invoke c : Event ι ρ)] = [] := rfl
  have h_invoke : invokedLog [(.invoke c : Event ι ρ)] = [c] := rfl
  constructor
  case entered =>
    intro d hd
    have h_outside : s.phase d ≠ .outside := hO.entered d (by simpa using hd)
    revert h_outside
    exact forall_setCall (s := s) (fun d k => s.phase d ≠ .outside → k.phase ≠ .outside)
      (by simp) (fun _ _ => id) d
  case nodup =>
    rw [enteredLog_append, h_enter, List.append_nil]
    exact hO.nodup
  case waiters =>
    rw [enteredLog_append, invokedLog_append, h_enter, h_invoke, List.append_nil,
      List.append_assoc]
    exact hO.owner c h_pending
  case owner =>
    refine forall_setCall (s := s) (fun d k => k.pending = true →
      (invokedLog (es ++ [Event.invoke c]) ++ d :: s.waiters).Sublist
        (enteredLog (es ++ [Event.invoke c]))) ?_ fun d hd h => ?_
    · simp [Call.pending, Phase.isPending]
    · simp only [Call.pending, Bool.and_eq_true] at h
      exact absurd (hI.single d c h.1 h_own) hd

/-- Every step keeps the order. -/
theorem Order.step {es : List (Event ι ρ)} {s : State ι ρ} {e : Event ι ρ} (hO : Order es s)
    (hI : Inv s) (he : enabled s e) : Order (es ++ [e]) (next s e) := by
  cases e with
  | enter c => exact hO.enter hI (enabled_enter.mp he)
  | callerDone c message =>
    have h_phase : (s.calls c).phase = .waiting := enabled_callerDone.mp he
    refine hO.of_move rfl rfl (by simp) (List.Sublist.refl _) ?_
    simp [Call.pending, Call.owns, Phase.isPending, Phase.isReturned, h_phase]
  | takeReady c =>
    have h_phase : (s.calls c).phase = .waiting := (enabled_takeReady.mp he).1
    simp only [next, State.takeReady]
    split <;> refine hO.of_move rfl rfl (by simp) (List.Sublist.refl _) ?_ <;>
      simp [Call.pending, Call.owns, Phase.isPending, Phase.isReturned, h_phase]
  -- a call that leaves takes its place out of the order
  | quit c =>
    obtain ⟨message, h_phase⟩ := enabled_quit.mp he
    simp only [next, h_phase, State.quit]
    split
    · refine hO.of_move rfl rfl (by simp) (List.Sublist.refl _) ?_
      simp [Call.pending, Phase.isPending]
    · refine hO.of_move rfl rfl (by simp) List.erase_sublist ?_
      simp [Call.pending, Phase.isPending]
  | start c =>
    have h_phase : (s.calls c).phase = .starting := enabled_start.mp he
    simp only [next, State.start]
    split <;> refine hO.of_move rfl rfl (by simp) (List.Sublist.refl _) ?_ <;>
      simp [Call.pending, Call.owns, Phase.isPending, Phase.isReturned, h_phase]
  -- what is invoked was the first of those that wait
  | invoke c => exact hO.invoke hI (enabled_invoke.mp he)
  | finish c outcome =>
    refine hO.of_move rfl rfl (by simp) (List.Sublist.refl _) ?_
    simp [Call.pending, Phase.isPending]
  | release c =>
    obtain ⟨outcome, h_phase⟩ := enabled_release.mp he
    simp only [next, h_phase]
    exact hO.release hI h_phase
  | cancelAll reason =>
    refine hO.of_frame rfl rfl (fun _ => id) (List.nil_sublist _) fun c h => ?_
    by_cases hc : c ∈ s.waiters
    · simpa [next, State.cancelAll, Call.pending, Call.owns, hc] using h
    · simpa [next, State.cancelAll, Call.pending, Call.owns, hc] using h

/-! ### Taking and giving -/

/-- What was taken and given so far is what the records of the calls say. -/
structure Slots (es : List (Event ι ρ)) (s : State ι ρ) : Prop where
  taken : ∀ c, c ∈ takenLog es ↔ (s.waiter c).granted = true
  taken_nodup : (takenLog es).Nodup
  given : ∀ c, .release c ∈ es ↔
    (s.waiter c).granted = true ∧ (s.phase c).isReturned = true
  given_nodup : (givenLog es).Nodup

/-- A step at which no call takes or gives the slot. -/
theorem Slots.of_frame {es : List (Event ι ρ)} {s s' : State ι ρ} {e : Event ι ρ}
    (hS : Slots es s) (h_state : (machine ι ρ).exec (machine ι ρ).init es = s)
    (h_takes : takes s e = []) (h_gives : ∀ c, .release c ≠ e)
    (h_granted : ∀ c, (s'.waiter c).granted = (s.waiter c).granted)
    (h_returned : ∀ c, (s.waiter c).granted = true →
      (s'.phase c).isReturned = (s.phase c).isReturned) :
    Slots (es ++ [e]) s' := by
  have h_taken : takenLog (es ++ [e]) = takenLog es := by
    rw [takenLog_snoc, h_state, h_takes, List.append_nil]
  -- the event gives no slot back
  have h_given : givenLog [e] = [] := by
    cases e with
    | release c => exact absurd rfl (h_gives c)
    | _ => rfl
  constructor
  case taken => exact fun c => by rw [h_taken, hS.taken, h_granted]
  case taken_nodup => exact h_taken ▸ hS.taken_nodup
  case given =>
    intro c
    rw [List.mem_append, List.mem_singleton, hS.given, h_granted]
    simp only [h_gives, or_false]
    exact and_congr_right fun h => by rw [h_returned c h]
  case given_nodup => simpa [h_given] using hS.given_nodup

/-- `Slots.of_frame` for a step that moves one call. -/
theorem Slots.of_move {es : List (Event ι ρ)} {s : State ι ρ} {e : Event ι ρ}
    (hS : Slots es s) (h_state : (machine ι ρ).exec (machine ι ρ).init es = s)
    (h_takes : takes s e = []) (h_gives : ∀ c, .release c ≠ e)
    {c : ι} {call : Call ρ} {waiters : List ι} {active : Option ι}
    (h_granted : call.waiter.granted = (s.waiter c).granted)
    (h_returned : (s.waiter c).granted = true →
      call.phase.isReturned = (s.phase c).isReturned) :
    Slots (es ++ [e]) ({ s with waiters, activeCancel := active }.setCall c call) :=
  hS.of_frame h_state h_takes h_gives
    (forall_setCall (s := s) (fun d k => k.waiter.granted = (s.waiter d).granted) h_granted
      fun _ _ => rfl)
    (forall_setCall (s := s) (fun d k => (s.waiter d).granted = true →
      k.phase.isReturned = (s.phase d).isReturned) h_returned fun _ _ _ => rfl)

theorem Slots.init : Slots [] ({} : State ι ρ) where
  taken := by simp [takenLog, State.waiter]
  taken_nodup := List.nodup_nil
  given := by simp [State.waiter]
  given_nodup := List.nodup_nil

/-- A call that enters takes the slot of an idle queue. -/
theorem Slots.enter {es : List (Event ι ρ)} {s : State ι ρ} (hS : Slots es s) (hI : Inv s)
    (h_state : (machine ι ρ).exec (machine ι ρ).init es = s) {c : ι}
    (h_phase : s.phase c = .outside) : Slots (es ++ [.enter c]) (s.enter c) := by
  have h_granted : (s.waiter c).granted = false := by
    by_contra h
    exact ((hI.ok c).granted (by simpa [State.waiter] using h)).2 h_phase
  by_cases h_running : s.running = true
  -- no slot is taken
  · rw [State.enter, if_pos h_running]
    refine hS.of_move h_state (by simp [takes, h_running]) (by simp) ?_ ?_
    · simp [h_granted]
    · simp [h_granted]
  · rw [State.enter, if_neg h_running]
    -- the slot is taken, for the first time by this call
    have h_taken : takenLog (es ++ [.enter c]) = takenLog es ++ [c] := by
      rw [takenLog_snoc, h_state]
      simp [takes, h_running]
    have h_new : c ∉ takenLog es := by
      rw [hS.taken]
      simp [h_granted]
    constructor
    case taken =>
      intro d
      rw [h_taken, List.mem_append, List.mem_singleton, hS.taken]
      refine forall_setCall (s := s) (fun d k =>
        (s.waiter d).granted = true ∨ d = c ↔ k.waiter.granted = true) (by simp) ?_ d
      intro d hd
      simp [hd, State.waiter]
    case taken_nodup =>
      rw [h_taken]
      refine List.nodup_append.mpr ⟨hS.taken_nodup, List.nodup_singleton c, ?_⟩
      intro d hd e he h_eq
      rw [List.mem_singleton.mp he] at h_eq
      exact h_new (h_eq ▸ hd)
    case given =>
      intro d
      rw [List.mem_append, hS.given]
      simp only [List.mem_singleton, reduceCtorEq, or_false]
      refine forall_setCall (s := s) (fun d k =>
        (s.waiter d).granted = true ∧ (s.phase d).isReturned = true ↔
          k.waiter.granted = true ∧ k.phase.isReturned = true) ?_ (fun _ _ => Iff.rfl) d
      simp [h_granted, Phase.isReturned]
    case given_nodup =>
      rw [givenLog_append]
      exact (List.append_nil _).symm ▸ hS.given_nodup

/-- `release` takes the slot from the owner, once, and grants it to the first waiter. -/
theorem Slots.release {es : List (Event ι ρ)} {s : State ι ρ} (hS : Slots es s) (hI : Inv s)
    (h_state : (machine ι ρ).exec (machine ι ρ).init es = s) {c : ι} {outcome : Outcome ρ}
    (h_phase : s.phase c = .releasing outcome) :
    Slots (es ++ [.release c]) (s.setPhase c (.returned outcome)).release := by
  have h_granted : (s.waiter c).granted = true :=
    (hI.ok c).holding (by simp [show (s.calls c).phase = _ from h_phase, Phase.isHolding])
  have h_new : c ∉ givenLog es := by
    rw [mem_givenLog, hS.given]
    simp [h_phase, Phase.isReturned]
  -- the slot is given back, for the first time by this call
  have h_given_nodup : (givenLog (es ++ [(.release c : Event ι ρ)])).Nodup := by
    rw [givenLog_append]
    refine List.nodup_append.mpr ⟨hS.given_nodup, List.nodup_singleton c, ?_⟩
    intro d hd e he h_eq
    rw [List.mem_singleton.mp he] at h_eq
    exact h_new (h_eq ▸ hd)
  have h_eligible : (s.setPhase c (.returned outcome)).eligible = s.waiters := by
    refine State.eligible_eq fun d hd => ?_
    rw [State.waiter_setPhase]
    exact hI.err_eq_none hd
  -- and it is taken by the first waiter, if there is one
  have h_taken : takenLog (es ++ [.release c]) = takenLog es ++ s.waiters.head?.toList := by
    rw [takenLog_snoc, h_state, takes, State.eligible_eq fun d => hI.err_eq_none]
  rw [State.release, h_eligible]
  cases h_waiters : s.waiters with
  | nil =>
    rw [h_waiters, List.head?_nil, Option.toList_none, List.append_nil] at h_taken
    constructor
    case taken =>
      intro d
      rw [h_taken, hS.taken]
      change _ ↔ ((s.setPhase c (.returned outcome)).waiter d).granted = true
      rw [State.waiter_setPhase]
    case taken_nodup => exact h_taken ▸ hS.taken_nodup
    case given =>
      intro d
      rw [List.mem_append, List.mem_singleton, hS.given]
      refine forall_setCall (s := s) (fun d k =>
        ((s.waiter d).granted = true ∧ (s.phase d).isReturned = true) ∨ Event.release d =
          (.release c : Event ι ρ) ↔ k.waiter.granted = true ∧ k.phase.isReturned = true) ?_ ?_ d
      · simpa [Phase.isReturned, State.waiter] using h_granted
      · intro d hd
        simp [hd, State.waiter, State.phase]
    case given_nodup => exact h_given_nodup
  | cons w rest =>
    have h_listed := (hI.listed w).mp (by simp [h_waiters])
    simp only [Call.listed, Bool.and_eq_true, Bool.not_eq_true'] at h_listed
    -- the waiter has not had the slot before
    have h_w : w ≠ c := by
      rintro rfl
      exact Bool.noConfusion (h_listed.1.2.symm.trans h_granted)
    have h_returned : (s.phase w).isReturned = false := by
      have h := h_listed.1.1
      cases h_phase : s.phase w <;>
        simp_all [State.phase, Phase.isQueueing, Phase.isReturned]
    rw [h_waiters, List.head?_cons, Option.toList_some] at h_taken
    constructor
    case taken =>
      intro d
      rw [h_taken, List.mem_append, List.mem_singleton, hS.taken]
      refine forall_setCall_setCall (s := s) (fun d k =>
        (s.waiter d).granted = true ∨ d = w ↔ k.waiter.granted = true) ?_ ?_ ?_ d
      · simp
      · intro h
        simp [h, State.waiter]
      · intro d _ hd
        simp [hd, State.waiter]
    case taken_nodup =>
      rw [h_taken]
      refine List.nodup_append.mpr ⟨hS.taken_nodup, List.nodup_singleton w, ?_⟩
      intro d hd e he h_eq
      rw [List.mem_singleton.mp he] at h_eq
      rw [hS.taken, h_eq] at hd
      exact Bool.noConfusion (h_listed.1.2.symm.trans hd)
    case given =>
      intro d
      rw [List.mem_append, List.mem_singleton, hS.given]
      refine forall_setCall_setCall (s := s) (fun d k =>
        ((s.waiter d).granted = true ∧ (s.phase d).isReturned = true) ∨ Event.release d =
          (.release c : Event ι ρ) ↔ k.waiter.granted = true ∧ k.phase.isReturned = true)
        ?_ ?_ ?_ d
      · have h_same : (s.setPhase c (.returned outcome)).phase w = s.phase w := by
          simp [State.phase, State.setPhase, State.setCall, h_w]
        simp only [State.phase] at h_same h_returned
        simp [h_w, h_same, h_returned, State.phase]
      · intro _
        simpa [Phase.isReturned, State.waiter] using h_granted
      · intro d hd _
        simp [hd, State.waiter, State.phase]
    case given_nodup => exact h_given_nodup

/-- Every step keeps count of who takes the slot and who gives it back. -/
theorem Slots.step {es : List (Event ι ρ)} {s : State ι ρ} {e : Event ι ρ} (hS : Slots es s)
    (hI : Inv s) (h_state : (machine ι ρ).exec (machine ι ρ).init es = s) (he : enabled s e) :
    Slots (es ++ [e]) (next s e) := by
  cases e with
  | enter c => exact hS.enter hI h_state (enabled_enter.mp he)
  -- between entering and giving back, a call keeps what it has
  | callerDone c message =>
    refine hS.of_move h_state rfl (by simp) rfl fun _ => ?_
    simp [enabled_callerDone.mp he, Phase.isReturned]
  | takeReady c =>
    have h_phase := (enabled_takeReady.mp he).1
    simp only [next, State.takeReady]
    split
    · next h_err =>
      refine hS.of_move h_state rfl (by simp) rfl fun h => ?_
      exact absurd ((hI.ok c).granted h).1 (by simp [show (s.calls c).waiter.err = _ from h_err])
    · refine hS.of_move h_state rfl (by simp) rfl fun _ => ?_
      simp [h_phase, Phase.isReturned]
  | quit c =>
    obtain ⟨message, h_phase⟩ := enabled_quit.mp he
    simp only [next, h_phase, State.quit]
    split
    · refine hS.of_move h_state rfl (by simp) rfl fun _ => ?_
      simp [h_phase, Phase.isReturned]
    · next h_granted =>
      exact hS.of_move h_state rfl (by simp) rfl fun h => absurd h h_granted
  | start c =>
    have h_phase := enabled_start.mp he
    simp only [next, State.start]
    split <;> refine hS.of_move h_state rfl (by simp) rfl fun _ => ?_ <;>
      simp [h_phase, Phase.isReturned]
  | invoke c =>
    refine hS.of_move h_state rfl (by simp) rfl fun _ => ?_
    simp [enabled_invoke.mp he, Phase.isReturned]
  | finish c outcome =>
    refine hS.of_move h_state rfl (by simp) rfl fun _ => ?_
    simp [enabled_finish.mp he, Phase.isReturned]
  | release c =>
    obtain ⟨outcome, h_phase⟩ := enabled_release.mp he
    simp only [next, h_phase]
    exact hS.release hI h_state h_phase
  | cancelAll reason =>
    refine hS.of_frame h_state rfl (by simp) (fun c => ?_) fun _ _ => rfl
    by_cases h : c ∈ s.waiters <;> simp [next, State.cancelAll, State.waiter, h]

/-! ### Mutual exclusion and order -/

/-- What a run of the machine has established so far. -/
structure History (es : List (Event ι ρ)) (s : State ι ρ) : Prop where
  inv : Inv s
  order : Order es s
  slots : Slots es s

/-- The history of a queue, in every run. -/
theorem history {es : List (Event ι ρ)} (h : (machine ι ρ).Runs (machine ι ρ).init es) :
    History es ((machine ι ρ).exec (machine ι ρ).init es) := by
  refine Machine.Runs.history (P := History) ⟨.init, .init, .init⟩ ?_ h
  intro es s e _ h_state hH he
  exact ⟨hH.inv.step he, hH.order.step hH.inv he, hH.slots.step hH.inv h_state he⟩

/-- The call an event belongs to. -/
def Event.caller : Event ι ρ → Option ι
  | .enter c => some c
  | .callerDone c _ => some c
  | .takeReady c => some c
  | .quit c => some c
  | .start c => some c
  | .invoke c => some c
  | .finish c _ => some c
  | .release c => some c
  | .cancelAll _ => none

/-- Steps of the call alone lead it to giving the slot back, if its `fn` returns. -/
def CanGiveBack (s : State ι ρ) (c : ι) : Prop :=
  ∃ fs, (∀ e ∈ fs, e.caller = some c) ∧ (machine ι ρ).Runs s fs ∧ .release c ∈ fs

/-- Who can give the slot back after its own step can do so. -/
theorem CanGiveBack.of_next {s : State ι ρ} {c : ι} {e : Event ι ρ}
    (h_caller : e.caller = some c) (he : enabled s e) (h : CanGiveBack (next s e) c) :
    CanGiveBack s c := by
  obtain ⟨fs, h_fs, h_runs, h_release⟩ := h
  refine ⟨e :: fs, ?_, ⟨he, h_runs⟩, List.mem_cons_of_mem _ h_release⟩
  simpa [h_caller] using h_fs

@[simp] theorem State.phase_setPhase (s : State ι ρ) (c : ι) (phase : Phase ρ) :
    (s.setPhase c phase).phase c = phase := by simp [State.phase, State.setPhase, State.setCall]

/-- Who releases gives the slot back next. -/
theorem canGiveBack_of_releasing {s : State ι ρ} {c : ι} {outcome : Outcome ρ}
    (h : s.phase c = .releasing outcome) : CanGiveBack s c :=
  ⟨[.release c], by simp [Event.caller], ⟨enabled_release.mpr ⟨outcome, h⟩, trivial⟩, by simp⟩

/-- A function that returns gives the slot back. -/
theorem canGiveBack_of_invoked {s : State ι ρ} {c : ι} (outcome : Outcome ρ)
    (h : s.phase c = .invoked) : CanGiveBack s c := by
  refine CanGiveBack.of_next (e := .finish c outcome) rfl (enabled_finish.mpr h) ?_
  have h_next : (s.finish c outcome).phase c = .releasing outcome := by
    simp [State.finish, State.phase, State.setCall]
  exact canGiveBack_of_releasing h_next

/-- Who starts comes to its function, or is stopped before. -/
theorem canGiveBack_of_starting {s : State ι ρ} {c : ι} (outcome : Outcome ρ)
    (h : s.phase c = .starting) : CanGiveBack s c := by
  refine CanGiveBack.of_next (e := .start c) rfl (enabled_start.mpr h) ?_
  simp only [next, State.start]
  split
  · refine CanGiveBack.of_next (e := .invoke c) rfl (enabled_invoke.mpr ?_) ?_
    · exact State.phase_setPhase ..
    · exact canGiveBack_of_invoked outcome (State.phase_setPhase ..)
  · have h_next : (s.setCall c { s.calls c with
        phase := .releasing (.error State.revokedBeforeRun), cancelled := true }).phase c =
          .releasing (.error State.revokedBeforeRun) := by
      simp [State.phase, State.setCall]
    exact canGiveBack_of_releasing h_next

/-- The owner of the slot is never stuck. -/
theorem Inv.canGiveBack {s : State ι ρ} (hI : Inv s) {c : ι} (h_own : (s.calls c).owns = true)
    (outcome : Outcome ρ) : CanGiveBack s c := by
  simp only [Call.owns, Bool.and_eq_true, Bool.not_eq_true'] at h_own
  obtain ⟨h_granted, h_returned⟩ := h_own
  have h_err : (s.waiter c).err = none := ((hI.ok c).granted h_granted).1
  cases h_phase : s.phase c with
  | outside => exact absurd h_phase ((hI.ok c).granted h_granted).2
  -- the slot was granted while the call waits, so it can be taken
  | waiting =>
    have h_ready : (s.waiter c).ready = true :=
      ((hI.ok c).ready h_phase).trans (by simp [h_granted])
    refine CanGiveBack.of_next (e := .takeReady c) rfl
      (enabled_takeReady.mpr ⟨h_phase, h_ready⟩) ?_
    simp only [next, State.takeReady, h_err]
    exact canGiveBack_of_starting outcome (State.phase_setPhase ..)
  | ctxDone message =>
    refine CanGiveBack.of_next (e := .quit c) rfl (enabled_quit.mpr ⟨message, h_phase⟩) ?_
    simp only [next, h_phase, State.quit]
    rw [if_pos (show (s.waiter c).granted = true from h_granted)]
    exact canGiveBack_of_releasing (State.phase_setPhase ..)
  | starting => exact canGiveBack_of_starting outcome h_phase
  | activated =>
    refine CanGiveBack.of_next (e := .invoke c) rfl (enabled_invoke.mpr h_phase) ?_
    exact canGiveBack_of_invoked outcome (State.phase_setPhase ..)
  -- the function returns the outcome, and the deferred release follows
  | invoked => exact canGiveBack_of_invoked outcome h_phase
  | releasing outcome => exact canGiveBack_of_releasing h_phase
  | returned outcome =>
    rw [show (s.calls c).phase = _ from h_phase] at h_returned
    exact Bool.noConfusion h_returned

/-- A call owns the slot after a run: it has taken it and not given it back. -/
def Owner (es : List (Event ι ρ)) (c : ι) : Prop := c ∈ takenLog es ∧ c ∉ givenLog es

/-- The owner in the history is the owner in the queue. -/
theorem History.owner_iff {es : List (Event ι ρ)} {s : State ι ρ} (hH : History es s) (c : ι) :
    Owner es c ↔ (s.calls c).owns = true := by
  unfold Owner
  rw [hH.slots.taken, mem_givenLog, hH.slots.given]
  simp only [State.waiter, State.phase, Call.owns, Bool.and_eq_true, Bool.not_eq_true']
  constructor
  · rintro ⟨h_granted, h_given⟩
    exact ⟨h_granted, by simpa [h_granted] using h_given⟩
  · rintro ⟨h_granted, h_returned⟩
    exact ⟨h_granted, by simp [h_returned]⟩

/-- The tab queue after a run, as a mutual-exclusion FIFO. -/
structure MutexFifo (es : List (Event ι ρ)) (s : State ι ρ) : Prop where
  /-- One `fn` runs at a time. -/
  mutex : ∀ c d, s.phase c = .invoked → s.phase d = .invoked → c = d
  /-- The `fn`s ran in the order in which their calls took the lock, each of which did so
  once. -/
  fifo : (invokedLog es).Sublist (enteredLog es) ∧ (enteredLog es).Nodup
  /-- The slot is taken once at most, and given back once at most. -/
  once : ∀ c, (takenLog es).count c ≤ 1 ∧ (givenLog es).count c ≤ (takenLog es).count c
  /-- A call that returns has given back what it took. -/
  given : ∀ c outcome, s.phase c = .returned outcome →
    (givenLog es).count c = (takenLog es).count c
  running : s.running = true ↔ ∃ c, Owner es c
  /-- Waiting calls wait for an owner. -/
  waiting : s.waiters ≠ [] → ∃ c, Owner es c
  /-- Whatever its caller does, an owner goes on by itself until it has given the slot back. -/
  progress : ∀ c, Owner es c → Outcome ρ → CanGiveBack s c

/-- **The tab queue is a mutual-exclusion FIFO**, for every interleaving of `run` calls,
done contexts and `cancelAll` calls. -/
theorem run_mutexFifo {es : List (Event ι ρ)}
    (h : (machine ι ρ).Runs (machine ι ρ).init es) :
    MutexFifo es ((machine ι ρ).exec (machine ι ρ).init es) := by
  have hH := history h
  generalize (machine ι ρ).exec (machine ι ρ).init es = s at hH
  have h_running : s.running = true ↔ ∃ c, Owner es c :=
    hH.inv.running.trans (exists_congr fun c => (hH.owner_iff c).symm)
  constructor
  case mutex =>
    intro c d hc hd
    exact hH.inv.single c d (hH.inv.owns_of_holding hc rfl) (hH.inv.owns_of_holding hd rfl)
  case fifo =>
    exact ⟨(List.sublist_append_left _ _).trans hH.order.waiters, hH.order.nodup⟩
  -- a slot that is given back was taken, and each is done once
  case once =>
    intro c
    refine ⟨List.nodup_iff_count_le_one.mp hH.slots.taken_nodup c, ?_⟩
    by_cases h_given : c ∈ givenLog es
    · have h_taken : c ∈ takenLog es :=
        (hH.slots.taken c).mpr ((hH.slots.given c).mp (mem_givenLog.mp h_given)).1
      rw [List.count_eq_one_of_mem hH.slots.taken_nodup h_taken]
      exact List.nodup_iff_count_le_one.mp hH.slots.given_nodup c
    · rw [List.count_eq_zero_of_not_mem h_given]
      exact Nat.zero_le _
  -- a call that has returned has given back what it took
  case given =>
    intro c outcome h_phase
    have h_iff : c ∈ givenLog es ↔ c ∈ takenLog es := by
      rw [mem_givenLog, hH.slots.given, hH.slots.taken]
      simp [h_phase, Phase.isReturned]
    by_cases h_taken : c ∈ takenLog es
    · rw [List.count_eq_one_of_mem hH.slots.taken_nodup h_taken,
        List.count_eq_one_of_mem hH.slots.given_nodup (h_iff.mpr h_taken)]
    · rw [List.count_eq_zero_of_not_mem h_taken,
        List.count_eq_zero_of_not_mem (fun h => h_taken (h_iff.mp h))]
  case running => exact h_running
  case waiting => exact fun h => h_running.mp (hH.inv.handoff h)
  case progress =>
    intro c hc outcome
    exact hH.inv.canGiveBack ((hH.owner_iff c).mp hc) outcome

/-- Two calls, the second of which is granted the slot while its caller is done. -/
theorem run_mutexFifo_handover : MutexFifo
    [.enter 0, .enter 1, .start 0, .invoke 0, .callerDone 1 "context canceled",
      .finish 0 (.ok ()), .release 0, .quit 1]
    ((machine ℕ Unit).exec (machine ℕ Unit).init
      [.enter 0, .enter 1, .start 0, .invoke 0, .callerDone 1 "context canceled",
        .finish 0 (.ok ()), .release 0, .quit 1]) :=
  run_mutexFifo (by
    simp only [Machine.runs_cons, Machine.runs_nil, and_true]
    exact ⟨rfl, rfl, rfl, rfl, rfl, rfl, rfl, rfl⟩)

end BrowserControl.Core.TabQueue
