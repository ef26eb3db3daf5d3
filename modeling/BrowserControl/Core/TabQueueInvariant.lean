import BrowserControl.Core.TabQueue
import Mathlib.Data.List.Nodup

/-!
# The owner of the slot

The invariant behind the tab queue: the slot belongs to the call that was granted it and has
not returned (`Call.owns`). There is one owner at most, `running` is true exactly when there
is one, and the list holds the calls that wait without a grant and without an error.

`running` is changed at two places only, while ownership is spread over the records of the
calls. Most steps move one call without taking or giving the slot (`Inv.moves`,
`Inv.owner_moves`); the steps that do are a call entering (`Inv.enter_running`,
`Inv.enter_idle`), a waiter leaving (`Inv.leaves`), the owner giving the slot back
(`Inv.gives_up`, `Inv.hands_over`) and `cancelAll` (`Inv.cancels`).
-/

namespace BrowserControl.Core.TabQueue

open Encoding Protocol Transition

variable {ι ρ : Type*} [DecidableEq ι]

/-! ### What a call holds -/

/-- The call has not left its `select` for good. -/
def Phase.isQueueing : Phase ρ → Bool
  | .waiting => true
  | .ctxDone _ => true
  | _ => false

/-- The call is past its `select` and has not returned. -/
def Phase.isHolding : Phase ρ → Bool
  | .starting => true
  | .activated => true
  | .invoked => true
  | .releasing _ => true
  | _ => false

/-- `activeCancel` is the cancel function of the call. -/
def Phase.isActive : Phase ρ → Bool
  | .activated => true
  | .invoked => true
  | _ => false

/-- The call has returned. -/
def Phase.isReturned : Phase ρ → Bool
  | .returned _ => true
  | _ => false

/-- The call owns the slot. -/
def Call.owns (call : Call ρ) : Bool := call.waiter.granted && !call.phase.isReturned

/-- The call is in the list of waiters. -/
def Call.listed (call : Call ρ) : Bool :=
  call.phase.isQueueing && !call.waiter.granted && call.waiter.err.isNone

/-- What holds of one call, whatever the others do. -/
structure Call.Ok (call : Call ρ) (generation : ℕ) : Prop where
  /-- Only a call that was granted the slot leaves its `select` without returning. -/
  holding : call.phase.isHolding = true → call.waiter.granted = true
  /-- The slot is granted to calls without an error only. -/
  granted : call.waiter.granted = true → call.waiter.err = none ∧ call.phase ≠ .outside
  /-- The channel of a waiting call is closed by the grant or by the error. -/
  ready : call.phase = .waiting →
    call.waiter.ready = (call.waiter.granted || call.waiter.err.isSome)
  /-- No call is of a later generation than the queue. -/
  generation : call.phase ≠ .outside → call.waiter.generation ≤ generation

/-- The invariant of the queue. -/
structure Inv (s : State ι ρ) : Prop where
  ok : ∀ c, (s.calls c).Ok s.generation
  nodup : s.waiters.Nodup
  /-- The list holds the calls that wait without a grant and without an error. -/
  listed : ∀ c, c ∈ s.waiters ↔ (s.calls c).listed = true
  /-- The slot has one owner at most. -/
  single : ∀ c d, (s.calls c).owns = true → (s.calls d).owns = true → c = d
  /-- `running` says that the slot has an owner. -/
  running : s.running = true ↔ ∃ c, (s.calls c).owns = true
  /-- Nobody waits for a slot without an owner, who would hand it over. -/
  handoff : s.waiters ≠ [] → s.running = true
  /-- The active cancel function is the owner's. -/
  active : ∀ c, s.activeCancel = some c → (s.calls c).owns = true
  /-- A call whose `fn` is about to run or runs is the active one. -/
  activated : ∀ c, (s.calls c).phase.isActive = true → s.activeCancel = some c

/-! ### Single steps -/

/-- Who is active owns the slot. -/
theorem Call.Ok.owns_of_active {call : Call ρ} {g : ℕ} (h : call.Ok g)
    (h_active : call.phase.isActive = true) : call.owns = true := by
  have h_holding : call.phase.isHolding = true := by
    cases h_phase : call.phase <;> simp_all [Phase.isActive, Phase.isHolding]
  have h_returned : call.phase.isReturned = false := by
    cases h_phase : call.phase <;> simp_all [Phase.isActive, Phase.isReturned]
  simp [Call.owns, h.holding h_holding, h_returned]

/-- A statement about all calls after one of them was replaced. -/
theorem forall_setCall {s : State ι ρ} {c : ι} {call : Call ρ} (P : ι → Call ρ → Prop)
    (h_call : P c call) (h_rest : ∀ d, d ≠ c → P d (s.calls d)) :
    ∀ d, P d ((s.setCall c call).calls d) :=
  (Function.forall_update_iff s.calls P).mpr ⟨h_call, h_rest⟩

/-- A statement about all calls after two of them were replaced. -/
theorem forall_setCall_setCall {s : State ι ρ} {c w : ι} {call granted : Call ρ}
    (P : ι → Call ρ → Prop) (h_w : P w granted) (h_c : c ≠ w → P c call)
    (h_rest : ∀ d, d ≠ c → d ≠ w → P d (s.calls d)) :
    ∀ d, P d (((s.setCall c call).setCall w granted).calls d) :=
  forall_setCall P h_w fun d hd =>
    forall_setCall (fun d k => d ≠ w → P d k) h_c h_rest d hd

/-- A call moves without taking or giving the slot and without entering or leaving the list. -/
theorem Inv.moves {s : State ι ρ} (hI : Inv s) {c : ι} {call : Call ρ} {active : Option ι}
    (h_owns : call.owns = (s.calls c).owns) (h_listed : call.listed = (s.calls c).listed)
    (h_ok : call.Ok s.generation)
    (h_active : active = s.activeCancel ∨ active = some c ∧ call.owns = true)
    (h_activated : call.phase.isActive = true → active = some c) :
    Inv ({ s with activeCancel := active }.setCall c call) := by
  have h_owns' : ∀ d, ((s.setCall c call).calls d).owns = (s.calls d).owns :=
    forall_setCall (fun d k => k.owns = (s.calls d).owns) h_owns fun _ _ => rfl
  constructor
  case ok => exact forall_setCall (fun _ k => k.Ok s.generation) h_ok fun d _ => hI.ok d
  case nodup => exact hI.nodup
  case listed =>
    exact forall_setCall (fun d k => d ∈ s.waiters ↔ k.listed = true)
      (h_listed ▸ hI.listed c) fun d _ => hI.listed d
  case single =>
    intro d e hd he
    exact hI.single d e (h_owns' d ▸ hd) (h_owns' e ▸ he)
  case running => exact hI.running.trans (exists_congr fun d => by rw [← h_owns' d]; rfl)
  case handoff => exact hI.handoff
  case active =>
    intro d h
    refine (h_owns' d).trans ?_
    rcases h_active with rfl | ⟨rfl, h_own⟩
    · exact hI.active d h
    · cases h
      rw [← h_owns, h_own]
  case activated =>
    refine forall_setCall (fun d k => k.phase.isActive = true → active = some d) h_activated
      fun d hd h => ?_
    -- Another call that is active already leaves the new cancel function no room.
    rcases h_active with rfl | ⟨rfl, h_own⟩
    · exact hI.activated d h
    · exact absurd (hI.single d c ((hI.ok d).owns_of_active h) (h_owns ▸ h_own)) hd

/-- The owner of the slot moves on. -/
theorem Inv.owner_moves {s : State ι ρ} (hI : Inv s) {c : ι} (h_own : (s.calls c).owns = true)
    {phase : Phase ρ} {cancelled : Bool} {active : Option ι}
    (h_holding : phase.isHolding = true)
    (h_active : active = s.activeCancel ∨ active = some c)
    (h_activated : phase.isActive = true → active = some c) :
    Inv ({ s with activeCancel := active }.setCall c { s.calls c with phase, cancelled }) := by
  have h_ok := hI.ok c
  -- The owner of the slot has been granted it.
  have h_granted : (s.calls c).waiter.granted = true := by
    simp only [Call.owns, Bool.and_eq_true] at h_own
    exact h_own.1
  have h_new : ({ s.calls c with phase, cancelled } : Call ρ).owns = true := by
    cases phase <;> simp_all [Call.owns, Phase.isHolding, Phase.isReturned]
  refine hI.moves (h_new.trans h_own.symm) ?_ ?_ (h_active.imp id (⟨·, h_new⟩)) h_activated
  · simp [Call.listed, h_granted]
  · refine ⟨fun _ => h_granted, fun _ => ⟨(h_ok.granted h_granted).1, ?_⟩, ?_,
      fun _ => h_ok.generation (h_ok.granted h_granted).2⟩
    · cases phase <;> simp_all [Phase.isHolding]
    · cases phase <;> simp_all [Phase.isHolding]

/-- Who has not been granted the slot does not own it. -/
theorem Call.owns_of_not_granted {call : Call ρ} (h : call.waiter.granted = false) :
    call.owns = false := by simp [Call.owns, h]

@[simp] theorem State.waiter_setPhase (s : State ι ρ) (c : ι) (phase : Phase ρ) (d : ι) :
    (s.setPhase c phase).waiter d = s.waiter d := by
  by_cases h : d = c <;> simp [State.waiter, State.setPhase, State.setCall, h]

omit [DecidableEq ι] in
/-- The listed waiters have no error, so `release` skips none of them. -/
theorem Inv.err_eq_none {s : State ι ρ} (hI : Inv s) {c : ι} (hc : c ∈ s.waiters) :
    (s.waiter c).err = none := by
  have h_listed := (hI.listed c).mp hc
  simp only [Call.listed, Bool.and_eq_true, Option.isNone_iff_eq_none] at h_listed
  exact h_listed.2

omit [DecidableEq ι] in
/-- Nobody of those who wait has an error. -/
theorem State.eligible_eq {s : State ι ρ} (h : ∀ c ∈ s.waiters, (s.waiter c).err = none) :
    s.eligible = s.waiters := by
  unfold State.eligible
  cases h_waiters : s.waiters with
  | nil => rfl
  | cons c rest =>
    rw [List.dropWhile_cons_of_neg]
    simp [h c (by simp [h_waiters])]

/-- A call enters a queue whose slot is taken. -/
theorem Inv.enter_running {s : State ι ρ} (hI : Inv s) {c : ι}
    (h_phase : (s.calls c).phase = .outside) (h_running : s.running = true) :
    Inv (s.enter c) := by
  -- a call that is outside has not been granted the slot
  have h_own : (s.calls c).owns = false := by
    cases h : (s.calls c).waiter.granted with
    | false => exact Call.owns_of_not_granted h
    | true => exact absurd h_phase ((hI.ok c).granted h).2
  have h_notMem : c ∉ s.waiters := by
    intro h
    have h := (hI.listed c).mp h
    simp [Call.listed, Phase.isQueueing, h_phase] at h
  rw [State.enter, if_pos h_running]
  set call : Call ρ := { phase := .waiting, waiter := { generation := s.generation } }
  have h_owns : ∀ d, ((s.setCall c call).calls d).owns = (s.calls d).owns :=
    forall_setCall (fun d k => k.owns = (s.calls d).owns) h_own.symm fun _ _ => rfl
  constructor
  case ok =>
    refine forall_setCall (fun _ k => k.Ok s.generation) ?_ fun d _ => hI.ok d
    constructor <;> simp [call, Phase.isHolding]
  case nodup =>
    refine List.nodup_append.mpr ⟨hI.nodup, List.nodup_singleton c, ?_⟩
    intro d hd e he h_eq
    rw [List.mem_singleton.mp he] at h_eq
    exact h_notMem (h_eq ▸ hd)
  -- it is the last in the list
  case listed =>
    refine forall_setCall (fun d k => d ∈ s.waiters ++ [c] ↔ k.listed = true)
      (by simp [call, Call.listed, Phase.isQueueing]) fun d hd => ?_
    simpa [hd] using hI.listed d
  case single =>
    intro d e hd he
    exact hI.single d e (h_owns d ▸ hd) (h_owns e ▸ he)
  case running => exact hI.running.trans (exists_congr fun d => by rw [← h_owns d]; rfl)
  case handoff => exact fun _ => h_running
  case active => exact fun d h => (h_owns d).trans (hI.active d h)
  case activated =>
    exact forall_setCall (fun d k => k.phase.isActive = true → s.activeCancel = some d)
      (by simp [call, Phase.isActive]) fun d _ => hI.activated d

/-- A call enters an idle queue: nobody owns the slot, so nobody waits for it either. -/
theorem Inv.enter_idle {s : State ι ρ} (hI : Inv s) (c : ι) (h_running : ¬ s.running = true) :
    Inv (s.enter c) := by
  -- nobody runs, so nobody owns the slot or waits for it
  have h_none : ∀ d, (s.calls d).owns = false := by
    intro d
    by_contra h
    exact h_running (hI.running.mpr ⟨d, by simpa using h⟩)
  have h_waiters : s.waiters = [] := by
    by_contra h
    exact h_running (hI.handoff h)
  rw [State.enter, if_neg h_running]
  set call : Call ρ :=
    { phase := .starting, waiter := { generation := s.generation, granted := true } }
  have h_owns : ∀ d, ((s.setCall c call).calls d).owns = true ↔ d = c :=
    forall_setCall (fun d k => k.owns = true ↔ d = c)
      (by simp [call, Call.owns, Phase.isReturned]) fun d hd => by simp [h_none, hd]
  constructor
  case ok =>
    refine forall_setCall (fun _ k => k.Ok s.generation) ?_ fun d _ => hI.ok d
    constructor <;> simp [call]
  case nodup => exact hI.nodup
  case listed =>
    exact forall_setCall (fun d k => d ∈ s.waiters ↔ k.listed = true)
      (by simp [call, Call.listed, h_waiters]) fun d _ => hI.listed d
  case single =>
    intro d e hd he
    rw [(h_owns d).mp hd, (h_owns e).mp he]
  -- the call takes the slot at once
  case running => exact iff_of_true rfl ⟨c, (h_owns c).mpr rfl⟩
  case handoff => exact fun _ => rfl
  case active =>
    intro d h
    exact absurd (hI.active d h) (by simp [h_none])
  case activated =>
    exact forall_setCall (fun d k => k.phase.isActive = true → s.activeCancel = some d)
      (by simp [call, Phase.isActive]) fun d _ => hI.activated d

/-- A call that was not granted the slot leaves the list. -/
theorem Inv.leaves {s : State ι ρ} (hI : Inv s) {c : ι} {message : String}
    (h_phase : (s.calls c).phase = .ctxDone message)
    (h_granted : (s.calls c).waiter.granted = false) : Inv (s.quit c message) := by
  rw [State.quit, if_neg (by simp [State.waiter, h_granted]), State.setPhase]
  set call : Call ρ := { s.calls c with phase := .returned (.error (cancelledError message)) }
  have h_owns : ∀ d, ((s.setCall c call).calls d).owns = (s.calls d).owns :=
    forall_setCall (fun d k => k.owns = (s.calls d).owns)
      (by simp [call, Call.owns, h_granted]) fun _ _ => rfl
  constructor
  case ok =>
    refine forall_setCall (fun _ k => k.Ok s.generation) ?_ fun d _ => hI.ok d
    exact ⟨by simp [call, Phase.isHolding], by simp [call, h_granted], by simp [call],
      fun _ => (hI.ok c).generation (by simp [h_phase])⟩
  case nodup => exact hI.nodup.erase c
  -- the call leaves the list, and nobody else does
  case listed =>
    refine forall_setCall (fun d k => d ∈ s.waiters.erase c ↔ k.listed = true) ?_
      fun d hd => ?_
    · simp [call, Call.listed, Phase.isQueueing, hI.nodup.mem_erase_iff]
    · simpa [hI.nodup.mem_erase_iff, hd] using hI.listed d
  case single =>
    intro d e hd he
    exact hI.single d e (h_owns d ▸ hd) (h_owns e ▸ he)
  case running => exact hI.running.trans (exists_congr fun d => by rw [← h_owns d]; rfl)
  case handoff => exact fun h => hI.handoff fun h_nil => h (by simp [State.setCall, h_nil])
  case active => exact fun d h => (h_owns d).trans (hI.active d h)
  case activated =>
    exact forall_setCall (fun d k => k.phase.isActive = true → s.activeCancel = some d)
      (by simp [call, Phase.isActive]) fun d _ => hI.activated d

/-- The owner returns and the queue is left idle. -/
theorem Inv.gives_up {s : State ι ρ} (hI : Inv s) {c : ι} {outcome : Outcome ρ}
    (h_own : (s.calls c).owns = true) (h_waiters : s.waiters = []) :
    Inv ({ s with activeCancel := none, waiters := [], running := false }.setCall c
      { s.calls c with phase := .returned outcome }) := by
  have h_ok := hI.ok c
  have h_granted : (s.calls c).waiter.granted = true := by
    simp only [Call.owns, Bool.and_eq_true] at h_own
    exact h_own.1
  -- the call was the only owner, and nobody waits
  have h_other : ∀ d, d ≠ c → (s.calls d).owns = false := by
    intro d hd
    by_contra h
    exact hd (hI.single d c (by simpa using h) h_own)
  set call : Call ρ := { s.calls c with phase := .returned outcome }
  have h_owns : ∀ d, ((s.setCall c call).calls d).owns = false :=
    forall_setCall (fun _ k => k.owns = false) (by simp [call, Call.owns, Phase.isReturned])
      h_other
  constructor
  case ok =>
    refine forall_setCall (fun _ k => k.Ok s.generation) ?_ fun d _ => hI.ok d
    exact ⟨by simp [call, Phase.isHolding], fun h => ⟨(h_ok.granted h).1, by simp [call]⟩,
      by simp [call], fun _ => h_ok.generation (h_ok.granted h_granted).2⟩
  case nodup => exact List.nodup_nil
  case listed =>
    refine forall_setCall (fun d k => d ∈ [] ↔ k.listed = true)
      (by simp [call, Call.listed, Phase.isQueueing]) fun d _ => ?_
    simpa [h_waiters] using hI.listed d
  case single =>
    intro d e hd
    exact Bool.noConfusion (hd.symm.trans (h_owns d))
  case running =>
    refine iff_of_false (by simp [State.setCall]) ?_
    rintro ⟨d, hd⟩
    exact Bool.noConfusion (hd.symm.trans (h_owns d))
  case handoff => exact fun h => absurd rfl h
  case active => exact fun d h => absurd h (by simp [State.setCall])
  case activated =>
    refine forall_setCall (fun d k => k.phase.isActive = true → none = some d)
      (by simp [call, Phase.isActive]) fun d hd h => ?_
    exact absurd ((hI.ok d).owns_of_active h) (by simp [h_other d hd])

/-- The owner returns and hands the slot to the first waiter. -/
theorem Inv.hands_over {s : State ι ρ} (hI : Inv s) {c w : ι} {rest : List ι}
    {outcome : Outcome ρ} (h_own : (s.calls c).owns = true) (h_waiters : s.waiters = w :: rest) :
    Inv ({ s.setCall c { s.calls c with phase := .returned outcome } with
      activeCancel := none, waiters := rest }.setCall w
        { s.calls w with waiter := { s.waiter w with granted := true, ready := true } }) := by
  have h_ok := hI.ok c
  have h_granted : (s.calls c).waiter.granted = true := by
    simp only [Call.owns, Bool.and_eq_true] at h_own
    exact h_own.1
  -- the call was the only owner
  have h_other : ∀ d, d ≠ c → (s.calls d).owns = false := by
    intro d hd
    by_contra h
    exact hd (hI.single d c (by simpa using h) h_own)
  have h_nodup : (w :: rest).Nodup := h_waiters ▸ hI.nodup
  -- the first waiter is in the queue, without the slot and without an error
  obtain ⟨⟨h_queueing, h_notGranted⟩, h_err⟩ : ((s.calls w).phase.isQueueing = true ∧
      (s.calls w).waiter.granted = false) ∧ (s.calls w).waiter.err = none := by
    have h_listed : (s.calls w).listed = true := (hI.listed w).mp (by simp [h_waiters])
    simpa [Call.listed, Option.isNone_iff_eq_none] using h_listed
  have h_phase : (s.calls w).phase ≠ .outside := by
    intro h
    simp [h, Phase.isQueueing] at h_queueing
  have h_notReturned : (s.calls w).phase.isReturned = false := by
    cases h : (s.calls w).phase <;> simp_all [Phase.isQueueing, Phase.isReturned]
  have h_notActive : (s.calls w).phase.isActive = false := by
    cases h : (s.calls w).phase <;> simp_all [Phase.isQueueing, Phase.isActive]
  set call : Call ρ := { s.calls c with phase := .returned outcome }
  set granted : Call ρ :=
    { s.calls w with waiter := { s.waiter w with granted := true, ready := true } }
  -- from now on it is the owner
  have h_owns : ∀ d, (((s.setCall c call).setCall w granted).calls d).owns = true ↔ d = w := by
    refine forall_setCall_setCall (fun d k => k.owns = true ↔ d = w) ?_ ?_ ?_
    · simp [granted, Call.owns, h_notReturned]
    · intro h
      simp [call, Call.owns, Phase.isReturned, h]
    · intro d hd hw
      simp [h_other d hd, hw]
  constructor
  case ok =>
    refine forall_setCall_setCall (fun _ k => k.Ok s.generation) ?_ (fun _ => ?_)
      fun d _ _ => hI.ok d
    · exact ⟨fun _ => rfl, fun _ => ⟨h_err, h_phase⟩, fun _ => rfl, (hI.ok w).generation⟩
    · exact ⟨by simp [call, Phase.isHolding], fun h => ⟨(h_ok.granted h).1, by simp [call]⟩,
        by simp [call], fun _ => h_ok.generation (h_ok.granted h_granted).2⟩
  case nodup => exact h_nodup.tail
  case listed =>
    refine forall_setCall_setCall (fun d k => d ∈ rest ↔ k.listed = true) ?_ (fun _ => ?_)
      fun d _ hw => ?_
    · simp [granted, Call.listed, (List.nodup_cons.mp h_nodup).1]
    · have h_c : c ∉ s.waiters := by
        rw [hI.listed]
        simp [Call.listed, h_granted]
      have h_c : c ∉ rest := fun h => h_c (by simp [h_waiters, h])
      simp [call, Call.listed, Phase.isQueueing, h_c]
    · simpa [h_waiters, hw] using hI.listed d
  case single =>
    intro d e hd he
    rw [(h_owns d).mp hd, (h_owns e).mp he]
  case running =>
    refine iff_of_true ?_ ⟨w, (h_owns w).mpr rfl⟩
    exact hI.running.mpr ⟨c, h_own⟩
  case handoff => exact fun _ => hI.running.mpr ⟨c, h_own⟩
  case active => exact fun d h => absurd h (by simp [State.setCall])
  case activated =>
    refine forall_setCall_setCall (fun d k => k.phase.isActive = true → none = some d) ?_
      (fun _ => ?_)
      fun d hd _ h => ?_
    · simp [granted, h_notActive]
    · simp [call, Phase.isActive]
    · exact absurd ((hI.ok d).owns_of_active h) (by simp [h_other d hd])

/-- The owner gives the slot back: to the first waiter, or to nobody. -/
theorem Inv.releases {s : State ι ρ} (hI : Inv s) {c : ι} {outcome : Outcome ρ}
    (h_phase : (s.calls c).phase = .releasing outcome) :
    Inv (s.setPhase c (.returned outcome)).release := by
  have h_granted : (s.calls c).waiter.granted = true :=
    (hI.ok c).holding (by simp [h_phase, Phase.isHolding])
  have h_own : (s.calls c).owns = true := by
    simp [Call.owns, h_granted, h_phase, Phase.isReturned]
  have h_eligible : (s.setPhase c (.returned outcome)).eligible = s.waiters := by
    refine State.eligible_eq fun d hd => ?_
    rw [State.waiter_setPhase]
    exact hI.err_eq_none hd
  rw [State.release, h_eligible]
  -- nobody waits, or the first waiter gets the slot
  cases h_waiters : s.waiters with
  | nil => exact hI.gives_up h_own h_waiters
  | cons w rest =>
    have h_ne : w ≠ c := by
      rintro rfl
      have h_listed := (hI.listed w).mp (by simp [h_waiters])
      simp [Call.listed, h_granted] at h_listed
    have h_w : (s.setPhase c (.returned outcome)).calls w = s.calls w := by
      simp [State.setPhase, State.setCall, h_ne]
    simp only [State.waiter_setPhase, h_w]
    exact hI.hands_over h_own h_waiters

/-- The slot stays with its owner when the queue is cancelled. -/
theorem Inv.cancels {s : State ι ρ} (hI : Inv s) (reason : String) :
    Inv (s.cancelAll reason) := by
  -- what is cancelled in the list owns nothing
  have h_owns : ∀ d, ((s.cancelAll reason).calls d).owns = (s.calls d).owns := by
    intro d
    by_cases h : d ∈ s.waiters <;> simp [State.cancelAll, Call.owns, h]
  constructor
  case ok =>
    intro d
    have h_ok := hI.ok d
    by_cases h : d ∈ s.waiters
    -- a waiter gets an error, and leaves the list
    · have h_listed := (hI.listed d).mp h
      simp only [Call.listed, Bool.and_eq_true, Bool.not_eq_true'] at h_listed
      refine ⟨?_, ?_, ?_, ?_⟩
      · simpa [State.cancelAll, h] using h_ok.holding
      · simp [State.cancelAll, h, h_listed.1.2]
      · simp [State.cancelAll, h]
      · intro h_phase
        have := h_ok.generation (by simpa [State.cancelAll, h] using h_phase)
        simpa [State.cancelAll, h] using Nat.le_succ_of_le this
    · refine ⟨?_, ?_, ?_, ?_⟩
      · simpa [State.cancelAll, h] using h_ok.holding
      · simpa [State.cancelAll, h] using h_ok.granted
      · simpa [State.cancelAll, h] using h_ok.ready
      · intro h_phase
        have := h_ok.generation (by simpa [State.cancelAll, h] using h_phase)
        simpa [State.cancelAll, h] using Nat.le_succ_of_le this
  case nodup => exact List.nodup_nil
  case listed =>
    intro d
    by_cases h : d ∈ s.waiters
    · simp [State.cancelAll, Call.listed, h]
    · have h_listed : (s.calls d).listed = false := by
        simpa using (hI.listed d).not.mp h
      have h_same : ((s.cancelAll reason).calls d).listed = (s.calls d).listed := by
        simp [State.cancelAll, Call.listed, h]
      rw [h_same, h_listed]
      simp [State.cancelAll]
  case single =>
    intro d e hd he
    exact hI.single d e (h_owns d ▸ hd) (h_owns e ▸ he)
  case running => exact hI.running.trans (exists_congr fun d => by rw [h_owns d])
  case handoff => exact fun h => absurd rfl h
  case active => exact fun d h => (h_owns d).trans (hI.active d h)
  case activated => exact hI.activated

/-! ### Every step keeps the invariant -/

section Enabled

variable {s : State ι ρ} {c : ι}

omit [DecidableEq ι]

/-- A call enters once. -/
theorem enabled_enter : enabled s (.enter c) ↔ s.phase c = .outside := by
  cases h : s.phase c <;> simp [enabled, h]

/-- The context is looked at by those who wait. -/
theorem enabled_callerDone {message : String} :
    enabled s (.callerDone c message) ↔ s.phase c = .waiting := by
  cases h : s.phase c <;> simp [enabled, h]

/-- Who waits goes on when it is ready. -/
theorem enabled_takeReady :
    enabled s (.takeReady c) ↔ s.phase c = .waiting ∧ (s.waiter c).ready = true := by
  cases h : s.phase c <;> simp [enabled, h]

/-- Who has seen its context done leaves. -/
theorem enabled_quit : enabled s (.quit c) ↔ ∃ message, s.phase c = .ctxDone message := by
  cases h : s.phase c <;> simp [enabled, h]

/-- Who has taken the slot starts. -/
theorem enabled_start : enabled s (.start c) ↔ s.phase c = .starting := by
  cases h : s.phase c <;> simp [enabled, h]

/-- Who has been activated calls its function. -/
theorem enabled_invoke : enabled s (.invoke c) ↔ s.phase c = .activated := by
  cases h : s.phase c <;> simp [enabled, h]

/-- A function that is called returns. -/
theorem enabled_finish {outcome : Outcome ρ} :
    enabled s (.finish c outcome) ↔ s.phase c = .invoked := by
  cases h : s.phase c <;> simp [enabled, h]

/-- Who is done releases the slot. -/
theorem enabled_release :
    enabled s (.release c) ↔ ∃ outcome, s.phase c = .releasing outcome := by
  cases h : s.phase c <;> simp [enabled, h]

end Enabled

omit [DecidableEq ι] in
theorem Inv.init : Inv ({} : State ι ρ) where
  ok _ := ⟨by simp [Phase.isHolding], by simp, by simp, by simp⟩
  nodup := List.nodup_nil
  listed := by simp [Call.listed, Phase.isQueueing]
  single := by simp [Call.owns]
  running := by simp [Call.owns]
  handoff := by simp
  active := by simp
  activated := by simp [Phase.isActive]

omit [DecidableEq ι] in
/-- A call that is past its `select` and has not returned owns the slot. -/
theorem Inv.owns_of_holding {s : State ι ρ} (hI : Inv s) {c : ι} {phase : Phase ρ}
    (h_phase : s.phase c = phase) (h : phase.isHolding = true) : (s.calls c).owns = true := by
  subst h_phase
  have h_granted := (hI.ok c).holding h
  have h_returned : (s.phase c).isReturned = false := by
    cases h_phase : s.phase c <;> simp_all [Phase.isHolding, Phase.isReturned]
  simp [Call.owns, h_granted, show (s.calls c).phase.isReturned = false from h_returned]

/-- A waiting call leaves its `select` for its own sake: it keeps what it has. -/
theorem Inv.callerDone {s : State ι ρ} (hI : Inv s) {c : ι} (message : String)
    (h_phase : (s.calls c).phase = .waiting) : Inv (s.setPhase c (.ctxDone message)) := by
  have h_ok := hI.ok c
  refine hI.moves ?_ ?_ ?_ (.inl rfl) (by simp [Phase.isActive])
  · simp [Call.owns, h_phase, Phase.isReturned]
  · simp [Call.listed, h_phase, Phase.isQueueing]
  · exact ⟨by simp [Phase.isHolding], fun h => ⟨(h_ok.granted h).1, by simp⟩, by simp,
      fun _ => h_ok.generation (by simp [h_phase])⟩

/-- Who is ready takes the slot, or the error. -/
theorem Inv.takeReady {s : State ι ρ} (hI : Inv s) {c : ι}
    (h_phase : (s.calls c).phase = .waiting) (h_ready : (s.calls c).waiter.ready = true) :
    Inv (s.takeReady c) := by
  have h_ok := hI.ok c
  have h_why := h_ok.ready h_phase
  rw [h_ready] at h_why
  unfold State.takeReady
  cases h_err : (s.waiter c).err with
  -- the waiter was cancelled: it returns the error
  | some rpcErr =>
    have h_err : (s.calls c).waiter.err = some rpcErr := h_err
    have h_granted : (s.calls c).waiter.granted = false := by
      by_contra h
      simp [(h_ok.granted (by simpa using h)).1] at h_err
    refine hI.moves ?_ ?_ ?_ (.inl rfl) (by simp [Phase.isActive])
    · simp [Call.owns, h_granted]
    · simp [Call.listed, h_err]
    · exact ⟨by simp [Phase.isHolding], by simp [h_granted], by simp,
        fun _ => h_ok.generation (by simp [h_phase])⟩
  -- it was granted the slot, so it owns it
  | none =>
    have h_err : (s.calls c).waiter.err = none := h_err
    have h_own : (s.calls c).owns = true := by
      simpa [Call.owns, h_phase, Phase.isReturned, h_err] using h_why.symm
    exact hI.owner_moves h_own rfl (.inl rfl) (by simp [Phase.isActive])

/-- **Invariant preservation.** -/
theorem Inv.step {s : State ι ρ} {e : Event ι ρ} (hI : Inv s) (he : enabled s e) :
    Inv (next s e) := by
  cases e with
  | enter c =>
    by_cases h_running : s.running = true
    · exact hI.enter_running (enabled_enter.mp he) h_running
    · exact hI.enter_idle c h_running
  | callerDone c message => exact hI.callerDone message (enabled_callerDone.mp he)
  | takeReady c =>
    rw [enabled_takeReady] at he
    exact hI.takeReady he.1 he.2
  -- a call that was granted the slot meanwhile gives it back, another one leaves the list
  | quit c =>
    obtain ⟨message, h_phase⟩ := enabled_quit.mp he
    have h_phase' : (s.calls c).phase = .ctxDone message := h_phase
    simp only [next, h_phase]
    cases h_granted : (s.calls c).waiter.granted with
    | false => exact hI.leaves h_phase' h_granted
    | true =>
      rw [State.quit, if_pos (show (s.waiter c).granted = true from h_granted)]
      have h_own : (s.calls c).owns = true := by
        simp [Call.owns, h_granted, h_phase', Phase.isReturned]
      exact hI.owner_moves h_own rfl (.inl rfl) (by simp [Phase.isActive])
  -- the owner of the slot moves on
  | start c =>
    have h_own := hI.owns_of_holding (enabled_start.mp he) rfl
    simp only [next, State.start]
    split
    · exact hI.owner_moves h_own rfl (.inr rfl) fun _ => rfl
    · exact hI.owner_moves h_own rfl (.inl rfl) (by simp [Phase.isActive])
  | invoke c =>
    have h_phase := enabled_invoke.mp he
    have h_own := hI.owns_of_holding h_phase rfl
    refine hI.owner_moves h_own rfl (.inl rfl) fun _ => hI.activated c ?_
    rw [show (s.calls c).phase = .activated from h_phase, Phase.isActive]
  | finish c outcome =>
    have h_own := hI.owns_of_holding (enabled_finish.mp he) rfl
    exact hI.owner_moves h_own rfl (.inl rfl) (by simp [Phase.isActive])
  | release c =>
    obtain ⟨outcome, h_phase⟩ := enabled_release.mp he
    simp only [next, h_phase]
    exact hI.releases h_phase
  | cancelAll reason => exact hI.cancels reason

/-- The invariant holds in every run. -/
theorem Inv.reachable {s : State ι ρ} (hs : (machine ι ρ).Reachable s) : Inv s :=
  hs.induction Inv.init fun _ _ _ hI he => hI.step he

/-! ### Calls in `run` -/

/-- The call is in `run`. -/
def Phase.isInside : Phase ρ → Bool
  | .outside => false
  | .returned _ => false
  | _ => true

omit [DecidableEq ι] in
/-- The owner of the slot is in `run`. -/
theorem Inv.isInside_of_owns {s : State ι ρ} (hI : Inv s) {c : ι}
    (h_own : (s.calls c).owns = true) : (s.phase c).isInside = true := by
  simp only [Call.owns, Bool.and_eq_true, Bool.not_eq_true'] at h_own
  have h_outside := ((hI.ok c).granted h_own.1).2
  have h_returned := h_own.2
  unfold State.phase
  generalize (s.calls c).phase = phase at h_outside h_returned ⊢
  cases phase with
  | outside => exact absurd rfl h_outside
  | returned outcome => contradiction
  | _ => rfl

end BrowserControl.Core.TabQueue
