import BrowserControl.Extension.Waiters

/-!
# What a step does to a waiter

`Moved` is the case split that everything about single waiters goes through: a step leaves a waiter
as it is, arms it, settles it, or gives it a download (`moved`). A waiter is resolved by an event
that it waits for or by its download, and by nothing else (`Resolves`).
-/

namespace BrowserControl.Extension.Waiters

open Encoding

variable {ρ : Type*} [DecidableEq ρ] {s : State ρ} {w : ρ × ℕ}

/-- A waiter whose promise has been resolved or rejected once more. -/
def Waiter.settled (x : Waiter) (ok : Bool) : Waiter :=
  { x with timer := false, settlements := x.settlements + 1, outcome := x.outcome.or (some ok) }

/-- The step is one that resolves the waiter. -/
def Resolves (s : State ρ) (w : ρ × ℕ) : Event ρ → Prop
  | .emit type tabID openerTabID => s.awaits type tabID openerTabID w = true
  | .completeDownload downloadID complete =>
    complete = true ∧ w ∈ s.downloadWaiters ∧ (s.waiter w).downloadID = some downloadID
  | _ => False

/-- The step is one that gives a download to a waiter. -/
def Binds (downloadID : ℕ) : Event ρ → Prop
  | .associateDownload downloadID' _ | .noteDownloadCreated downloadID' => downloadID' = downloadID
  | _ => False

/-- What the step `e` from `s` to `s'` does to the waiter `w`. -/
inductive Moved (s : State ρ) (e : Event ρ) (s' : State ρ) (w : ρ × ℕ) : Prop
  | same (h : s'.waiter w = s.waiter w) (h_set : w ∈ s'.downloadWaiters ↔ w ∈ s.downloadWaiters)
  | armed (tabID : String) (awaited : Awaited) (h_outside : (s.requests w.1).phase = .outside)
      (h : s'.waiter w = { tabID, awaited, timer := true })
      (h_set : w ∈ s'.downloadWaiters ↔ awaited = .download)
  | settled (ok : Bool) (h_old : w ∈ s.pending) (h_new : w ∉ s'.pending)
      (h : s'.waiter w = (s.waiter w).settled ok) (h_ok : ok = true → Resolves s w e)
  | bound (downloadID : ℕ) (h_binds : Binds downloadID e) (h_old : w ∈ s.downloadWaiters)
      (h_none : (s.waiter w).downloadID = none)
      (h : s'.waiter w = { s.waiter w with downloadID := some downloadID })
      (h_set : s'.downloadWaiters = s.downloadWaiters)

/-! ### Settling -/

/-- Other waiters stay as they are. -/
theorem waiter_settleAll_of_notMem {ws : List (ρ × ℕ)} (h : w ∉ ws) (ok : Bool) :
    (s.settleAll ws ok).waiter w = s.waiter w := by
  induction ws generalizing s with
  | nil => rfl
  | cons w' ws ih =>
    obtain ⟨h_ne, h_notMem⟩ := not_or.mp (List.mem_cons.not.mp h)
    calc (s.settleAll (w' :: ws) ok).waiter w
      _ = (s.settle w' ok).waiter w := ih h_notMem
      _ = s.waiter w := waiter_settle_of_ne h_ne ok

/-- Each of the waiters is settled once. -/
theorem waiter_settleAll_of_mem {ws : List (ρ × ℕ)} (h_nodup : ws.Nodup) (h : w ∈ ws) (ok : Bool) :
    (s.settleAll ws ok).waiter w = (s.waiter w).settled ok := by
  induction ws generalizing s with
  | nil => exact absurd h List.not_mem_nil
  | cons w' ws ih =>
    obtain ⟨h_notMem, h_nodup⟩ := List.nodup_cons.mp h_nodup
    by_cases h_eq : w = w'
    · subst h_eq
      calc (s.settleAll (w :: ws) ok).waiter w
        _ = (s.settle w ok).waiter w := waiter_settleAll_of_notMem h_notMem ok
        _ = (s.waiter w).settled ok := Function.update_self ..
    · have h_mem : w ∈ ws := (List.mem_cons.mp h).resolve_left h_eq
      calc (s.settleAll (w' :: ws) ok).waiter w
        _ = ((s.settle w' ok).waiter w).settled ok := ih h_nodup h_mem
        _ = (s.waiter w).settled ok := congrArg (·.settled ok) (waiter_settle_of_ne h_eq ok)

/-- The download waiters that are left. -/
theorem mem_downloadWaiters_settleAll {ws : List (ρ × ℕ)} {ok : Bool} :
    w ∈ (s.settleAll ws ok).downloadWaiters ↔ w ∈ s.downloadWaiters ∧ w ∉ ws := by
  induction ws generalizing s with
  | nil => exact (and_iff_left List.not_mem_nil).symm
  | cons w' ws ih =>
    have h_settle : w ∈ (s.settle w' ok).downloadWaiters ↔ w ∈ s.downloadWaiters ∧ w ≠ w' :=
      List.mem_filter.trans (and_congr_right' decide_eq_true_iff)
    calc w ∈ ((s.settle w' ok).settleAll ws ok).downloadWaiters
      _ ↔ w ∈ (s.settle w' ok).downloadWaiters ∧ w ∉ ws := ih
      _ ↔ w ∈ s.downloadWaiters ∧ w ∉ w' :: ws := by
        rw [h_settle, and_assoc, List.mem_cons, not_or]

/-- Some pending waiters are settled. -/
theorem moved_settleAll {e : Event ρ} {ws : List (ρ × ℕ)} {ok : Bool} (h_nodup : ws.Nodup)
    (h_ws : ∀ w ∈ ws, w ∈ s.pending) (h_ok : ok = true → ∀ w ∈ ws, Resolves s w e) (w : ρ × ℕ) :
    Moved s e (s.settleAll ws ok) w := by
  by_cases h : w ∈ ws
  · exact .settled ok (h_ws w h) (fun h_new => (mem_pending_settleAll.mp h_new).2 h)
      (waiter_settleAll_of_mem h_nodup h ok) fun h_true => h_ok h_true w h
  · exact .same (waiter_settleAll_of_notMem h ok)
      (mem_downloadWaiters_settleAll.trans (and_iff_left h))

/-- A session is stopped by settling waiters. -/
theorem stopSession_eq_settleAll (hI : Inv s) (tabIDs : List String) :
    ∃ ws : List (ρ × ℕ), ws.Nodup ∧ (∀ w ∈ ws, w ∈ s.pending) ∧
      tabIDs.foldl State.cancelExpectationWaiters s = s.settleAll ws false := by
  induction tabIDs generalizing s with
  | nil => exact ⟨[], .nil, List.forall_mem_nil _, rfl⟩
  | cons tabID tabIDs ih =>
    -- The waiters of the first tab, then those of the others.
    obtain ⟨ws, h_nodup, h_ws, h_eq⟩ := ih (hI.cancelExpectationWaiters tabID)
    have h_ws : ∀ w ∈ ws,
        w ∈ s.pending ∧ w ∉ s.pending.filter fun w => (s.waiter w).tabID = tabID :=
      fun w hw => mem_pending_settleAll.mp (h_ws w hw)
    refine ⟨(s.pending.filter fun w => (s.waiter w).tabID = tabID) ++ ws, ?_, ?_, ?_⟩
    · refine List.nodup_append.mpr ⟨hI.nodup.filter _, h_nodup, ?_⟩
      rintro w h_first w' h_rest rfl
      exact (h_ws w h_rest).2 h_first
    · intro w hw
      exact (List.mem_append.mp hw).elim (fun h => (List.mem_filter.mp h).1) fun h => (h_ws w h).1
    · exact h_eq.trans (List.foldl_append ..).symm

/-! ### Arming -/

theorem mem_downloadWaiters_arm_self (h : w ∉ s.downloadWaiters) (tabID : String)
    (awaited : Awaited) : w ∈ (s.arm w tabID awaited).downloadWaiters ↔ awaited = .download := by
  cases awaited with
  | event type popup => exact iff_of_false h (by simp)
  | download => exact iff_of_true (List.mem_append_right _ (List.mem_singleton_self w)) rfl

theorem mem_downloadWaiters_arm_of_ne {w' : ρ × ℕ} (h : w' ≠ w) (tabID : String)
    (awaited : Awaited) :
    w' ∈ (s.arm w tabID awaited).downloadWaiters ↔ w' ∈ s.downloadWaiters := by
  cases awaited with
  | event type popup => exact Iff.rfl
  | download =>
    calc w' ∈ s.downloadWaiters ++ [w]
      _ ↔ w' ∈ s.downloadWaiters ∨ w' = w := by rw [List.mem_append, List.mem_singleton]
      _ ↔ w' ∈ s.downloadWaiters := or_iff_left h

/-- The waiters of the request `r` from `i` on are armed, and the others stay. -/
theorem armed_or_same (tabID : String) (expectations : List Object) {r : ρ} {i : ℕ}
    (h_new : ∀ j, i ≤ j → (r, j) ∉ s.downloadWaiters) (w : ρ × ℕ) :
    ((s.waitForAll r tabID i expectations).1.waiter w = s.waiter w ∧
      (w ∈ (s.waitForAll r tabID i expectations).1.downloadWaiters ↔ w ∈ s.downloadWaiters)) ∨
    (w.1 = r ∧ i ≤ w.2) ∧ ∃ awaited,
      (s.waitForAll r tabID i expectations).1.waiter w = { tabID, awaited, timer := true } ∧
      (w ∈ (s.waitForAll r tabID i expectations).1.downloadWaiters ↔ awaited = .download) := by
  induction expectations generalizing s i with
  | nil => exact .inl ⟨rfl, Iff.rfl⟩
  | cons expectation expectations ih =>
    unfold State.waitForAll
    cases awaitedOf expectation with
    | error e => exact .inl ⟨rfl, Iff.rfl⟩
    -- one waiter is armed here, and it may be this one
    | ok awaited =>
      have h_later : ∀ j, i + 1 ≤ j → (r, j) ∉ (s.arm (r, i) tabID awaited).downloadWaiters := by
        intro j h_lt h_mem
        have h_ne : (r, j) ≠ (r, i) := fun h => absurd (congrArg Prod.snd h) (by simp; omega)
        exact h_new j (by omega) ((mem_downloadWaiters_arm_of_ne h_ne tabID awaited).mp h_mem)
      rcases ih h_later with ⟨h_waiter, h_set⟩ | ⟨⟨h_r, h_le⟩, h_armed⟩
      · by_cases h_eq : w = (r, i)
        · -- This one is armed, and none of the later ones is the same.
          subst h_eq
          refine .inr ⟨⟨rfl, le_rfl⟩, awaited, h_waiter.trans (Function.update_self ..), ?_⟩
          exact h_set.trans (mem_downloadWaiters_arm_self (h_new i le_rfl) tabID awaited)
        · exact .inl ⟨h_waiter.trans (Function.update_of_ne h_eq ..),
            h_set.trans (mem_downloadWaiters_arm_of_ne h_eq tabID awaited)⟩
      · exact .inr ⟨⟨h_r, Nat.le_of_succ_le h_le⟩, h_armed⟩

/-- A request arms its waiters. -/
theorem moved_waitForAll (hI : Inv s) {e : Event ρ} {r : ρ}
    (h_phase : (s.requests r).phase = .outside) (tabID : String) (expectations : List Object)
    (q : Request) (w : ρ × ℕ) :
    Moved s e ((s.waitForAll r tabID 0 expectations).1.setRequest r q) w := by
  have h_new : ∀ w ∈ s.pending, w.1 ≠ r := by
    rintro w hw rfl
    exact hI.outside w hw h_phase
  rcases armed_or_same tabID expectations (r := r) (i := 0)
    (fun j _ hj => h_new (r, j) (List.mem_append_right _ hj) rfl) w with
    ⟨h_waiter, h_set⟩ | ⟨⟨h_r, -⟩, awaited, h_waiter, h_set⟩
  · exact .same h_waiter h_set
  · subst h_r
    exact .armed tabID awaited h_phase h_waiter h_set

/-! ### Binding -/

/-- A waiter gets its download. -/
theorem moved_setDownloadID {e : Event ρ} {w' : ρ × ℕ} {downloadID : ℕ}
    (h_binds : Binds downloadID e)
    (h_mem : w' ∈ s.downloadWaiters) (h_none : (s.waiter w').downloadID = none) (w : ρ × ℕ) :
    Moved s e (s.setDownloadID w' downloadID) w := by
  by_cases h : w = w'
  · subst h
    exact .bound downloadID h_binds h_mem h_none (Function.update_self ..) rfl
  · exact .same (Function.update_of_ne h ..) Iff.rfl

omit [DecidableEq ρ] in
/-- The only candidate is a candidate. -/
theorem mem_of_filter_eq_singleton {p : ρ × ℕ → Bool} {ws : List (ρ × ℕ)} (h : ws.filter p = [w]) :
    w ∈ ws ∧ p w = true := by
  rw [← List.mem_filter, h]
  exact List.mem_singleton_self w

/-! ### The step -/

/-- **What a step does to a waiter.** -/
theorem moved (hI : Inv s) {e : Event ρ} (he : enabled s e) (w : ρ × ℕ) :
    Moved s e (next s e) w := by
  cases e with
  -- requests that wait: they arm new waiters, and may have to cancel them again
  | perform r tabID expect =>
    simp only [next, State.perform]
    split
    · exact moved_waitForAll hI he tabID [] _ w
    · exact moved_waitForAll hI he tabID _ _ w
  | wait r tabID condition => exact moved_waitForAll hI he tabID [condition] _ w
  | acted r | allSettled r | resolved r | rejected r | finished r => exact .same rfl Iff.rfl
  | failed r =>
    have h_cancelled : Moved s (.failed r) (s.cancelExpectationWaiters (s.requests r).tabID) w :=
      moved_settleAll (hI.nodup.filter _) (fun _ hw => (List.mem_filter.mp hw).1)
        (fun h => absurd h Bool.false_ne_true) w
    -- The phase of the request is none of the waiter's business.
    cases h_cancelled with
    | same h h_set => exact .same h h_set
    | armed tabID awaited h_outside h h_set => exact .armed tabID awaited h_outside h h_set
    | settled ok h_old h_new h h_ok => exact .settled ok h_old h_new h h_ok
    | bound downloadID h_binds => exact absurd h_binds id
  -- events: they settle waiters of the sets
  | emit type tabID openerTabID =>
    refine moved_settleAll (hI.nodup_waiters.filter _) (fun w hw => ?_) (fun _ w hw => ?_) w
    · exact List.mem_append_left _ (List.mem_filter.mp hw).1
    · exact (List.mem_filter.mp hw).2
  | timeout w' =>
    refine moved_settleAll (List.pairwise_singleton ..) (fun w hw => ?_)
      (fun h => absurd h Bool.false_ne_true) w
    rw [List.mem_singleton.mp hw]
    exact (hI.timer w').mp he
  -- downloads: a waiter is bound first, and settled when the download ends
  | associateDownload downloadID tabID =>
    simp only [next, State.associateDownload]
    split
    case h_1 w' h_filter =>
      obtain ⟨h_mem, h_candidate⟩ := mem_of_filter_eq_singleton h_filter
      rw [Bool.and_eq_true, decide_eq_true_eq] at h_candidate
      have h_binds : Binds downloadID (.associateDownload downloadID tabID : Event ρ) := rfl
      exact moved_setDownloadID h_binds h_mem h_candidate.1 w
    case h_2 => exact .same rfl Iff.rfl
  | noteDownloadCreated downloadID =>
    simp only [next, State.noteDownloadCreated]
    split
    case h_1 w' h_filter =>
      obtain ⟨h_mem, h_candidate⟩ := mem_of_filter_eq_singleton h_filter
      have h_binds : Binds downloadID (.noteDownloadCreated downloadID : Event ρ) := rfl
      exact moved_setDownloadID h_binds h_mem (of_decide_eq_true h_candidate) w
    case h_2 =>
      exact moved_settleAll (hI.nodup_downloadWaiters.filter _)
        (fun _ hw => List.mem_append_right _ (List.mem_filter.mp hw).1)
        (fun h => absurd h Bool.false_ne_true) w
  | completeDownload downloadID complete =>
    simp only [next, State.completeDownload]
    split
    case h_1 w' h_find =>
      have h_mem : w' ∈ s.downloadWaiters := List.mem_of_find?_eq_some h_find
      have h_id : (s.waiter w').downloadID = some downloadID := by
        simpa using List.find?_some h_find
      refine moved_settleAll (List.pairwise_singleton ..) (fun w hw => ?_) (fun h w hw => ?_) w
      · rw [List.mem_singleton.mp hw]
        exact List.mem_append_right _ h_mem
      · rw [List.mem_singleton.mp hw]
        exact ⟨h, h_mem, h_id⟩
    case h_2 => exact .same rfl Iff.rfl
  -- stops: they settle whatever is left
  | stopAll =>
    exact moved_settleAll hI.nodup (fun _ hw => hw) (fun h => absurd h Bool.false_ne_true) w
  | stopSession tabIDs =>
    obtain ⟨ws, h_nodup, h_ws, h_eq⟩ := stopSession_eq_settleAll hI tabIDs
    show Moved s _ (tabIDs.foldl State.cancelExpectationWaiters s) w
    rw [h_eq]
    exact moved_settleAll h_nodup h_ws (fun h => absurd h Bool.false_ne_true) w

/-- The waiters for downloads are in the set for downloads. -/
def Typed (s : State ρ) : Prop := ∀ w ∈ s.downloadWaiters, (s.waiter w).awaited = .download

/-- Every step keeps the lists apart. -/
theorem Typed.step (hT : Typed s) (hI : Inv s) {e : Event ρ} (he : enabled s e) :
    Typed (next s e) := by
  intro w hw
  cases moved hI he w with
  | same h h_set =>
    rw [h]
    exact hT w (h_set.mp hw)
  | armed tabID awaited h_outside h h_set =>
    rw [h]
    exact h_set.mp hw
  | settled ok h_old h_new h h_ok => exact absurd (List.mem_append_right _ hw) h_new
  | bound downloadID h_binds h_old h_none h h_set =>
    rw [h]
    exact hT w h_old

/-! ### Outcomes -/

/-- Arming waiters changes no request. -/
theorem requests_waitForAll (s : State ρ) (r : ρ) (tabID : String) (i : ℕ)
    (expectations : List Object) :
    (s.waitForAll r tabID i expectations).1.requests = s.requests := by
  induction expectations generalizing s i with
  | nil => rfl
  | cons expectation expectations ih =>
    unfold State.waitForAll
    split
    · rfl
    · exact ih ..

/-- A request that has begun stays so. -/
theorem begun_setRequest {r r' : ρ} {tabID : String} {count : ℕ} {phase : Phase}
    (h : (s.requests r').phase ≠ .outside) (h_phase : phase ≠ .outside) :
    ((s.setRequest r { tabID, count, phase }).requests r').phase ≠ .outside := by
  by_cases h_r : r' = r
  · subst h_r
    rw [requests_setRequest_self]
    exact h_phase
  · rw [requests_setRequest_of_ne s h_r]
    exact h

/-- A request that has begun stays so. -/
theorem begun_next (hI : Inv s) {e : Event ρ} {r : ρ} (h : (s.requests r).phase ≠ .outside) :
    ((next s e).requests r).phase ≠ .outside := by
  -- `waitForAll` arms waiters and sends nothing
  have h_wait : ∀ (r' : ρ) (tabID : String) (expectations : List Object),
      ((s.waitForAll r' tabID 0 expectations).1.requests r).phase ≠ .outside := by
    intro r' tabID expectations
    rw [requests_waitForAll]
    exact h
  cases e with
  | perform r' tabID expect =>
    simp only [next, State.perform]
    split
    · exact begun_setRequest h (by decide)
    · exact begun_setRequest (h_wait r' tabID _) (by split <;> decide)
  | wait r' tabID condition =>
    have h_phase : (if (s.waitForAll r' tabID 0 [condition]).2.2.isSome then Phase.settled
        else .awaiting) ≠ .outside := by split <;> decide
    exact begun_setRequest (h_wait r' tabID [condition]) h_phase
  | acted r' => exact begun_setRequest h (by split <;> decide)
  | failed r' =>
    refine begun_setRequest ?_ (by decide)
    rw [State.cancelExpectationWaiters, requests_settleAll]
    exact h
  | allSettled r' | resolved r' | rejected r' | finished r' => exact begun_setRequest h (by decide)
  -- no event but those of the request changes its phase
  | emit type tabID openerTabID =>
    rw [next, State.emit, requests_settleAll]
    exact h
  | timeout w => exact h
  | associateDownload downloadID tabID =>
    simp only [next, State.associateDownload]
    split <;> exact h
  | noteDownloadCreated downloadID =>
    simp only [next, State.noteDownloadCreated]
    split
    · exact h
    · rw [requests_settleAll]
      exact h
  | completeDownload downloadID complete =>
    simp only [next, State.completeDownload]
    split <;> exact h
  | stopAll =>
    rw [next, requests_settleAll]
    exact h
  | stopSession tabIDs =>
    obtain ⟨ws, -, -, h_eq⟩ := stopSession_eq_settleAll hI tabIDs
    rw [next, h_eq, requests_settleAll]
    exact h

/-- Waiters with an outcome are those of requests that have begun. -/
def Begun (s : State ρ) : Prop :=
  ∀ w, (s.waiter w).outcome ≠ none → (s.requests w.1).phase ≠ .outside

/-- An outcome is final. -/
theorem outcome_next (hI : Inv s) (hB : Begun s) {e : Event ρ} (he : enabled s e) {ok : Bool}
    (h : (s.waiter w).outcome = some ok) : ((next s e).waiter w).outcome = some ok := by
  cases moved hI he w with
  | same h_same h_set =>
    rw [h_same]
    exact h
  | armed tabID awaited h_outside h_armed h_set =>
    exact absurd h_outside (hB w (by rw [h]; exact Option.some_ne_none ok))
  | settled ok' h_old h_new h_settled h_ok =>
    have h_none := (hI.unsettled w h_old).2
    rw [h_none] at h
    cases h
  | bound downloadID h_binds h_old h_none h_bound h_set =>
    rw [h_bound]
    exact h

/-- Every step keeps what has begun. -/
theorem Begun.step (hB : Begun s) (hI : Inv s) {e : Event ρ} (he : enabled s e) :
    Begun (next s e) := by
  intro w h_outcome
  refine begun_next hI ?_
  cases moved hI he w with
  | same h h_set =>
    rw [h] at h_outcome
    exact hB w h_outcome
  | armed tabID awaited h_outside h h_set =>
    rw [h] at h_outcome
    exact absurd rfl h_outcome
  | settled ok h_old h_new h h_ok => exact hI.outside w h_old
  | bound downloadID h_binds h_old h_none h h_set =>
    rw [h] at h_outcome
    exact hB w h_outcome

end BrowserControl.Extension.Waiters
