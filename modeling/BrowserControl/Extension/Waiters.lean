import BrowserControl.Extension.TabRegistry
import BrowserControl.Transition.Machine

/-!
# Expectations and their waiters

`Waiters.machine` runs any number of requests that wait for events: `action.perform`, which arms a
waiter for each of its expectations before it acts, and `condition.wait` and `download.wait`, which
arm one. A waiter is in one of the two sets of the service, has a timer, and is settled by an event,
by its timer, by the completion of a download, or because it is cancelled.

A waiter is named by its request and its place among the expectations. Requests that fail before
they arm anything are left out.

When a request settles, its waiters may stay behind in two ways: an expectation without a type
throws while those in front of it are armed, and one that is rejected ends `Promise.all` while
others are pending. Nothing else leaves a waiter behind (`noneLeft_iff`).
-/

namespace BrowserControl.Extension.Waiters

open Encoding Transition

/-! ### State -/

/-- What a waiter waits for. -/
inductive Awaited where
  /-- Events of a type on the tab; for a popup, also on the tabs that it opens. -/
  | event (type : String) (popup : Bool)
  | download

/-- A waiter, with its timer and its promise. -/
structure Waiter where
  tabID : String := ""
  awaited : Awaited := .download
  downloadID : Option ℕ := none
  /-- Its timer is armed. -/
  timer : Bool := false
  /-- How often its promise was resolved or rejected. -/
  settlements : ℕ := 0
  /-- Its promise was resolved, or rejected. -/
  outcome : Option Bool := none

/-- Where a request stands. -/
inductive Phase where
  | outside
  /-- The waiters are armed, and the action is under way. -/
  | acting
  /-- The action has failed, and `Promise.allSettled` is awaited. -/
  | failing
  /-- `Promise.all` is awaited. -/
  | awaiting
  | observing
  | settled
  deriving DecidableEq

/-- A request, and how many waiters it has. -/
structure Request where
  tabID : String := ""
  /-- How many waiters it has armed. -/
  count : ℕ := 0
  phase : Phase := .outside

/-- The sets list their waiters in the order in which these were added. -/
structure State (ρ : Type*) where
  waiters : List (ρ × ℕ) := []
  downloadWaiters : List (ρ × ℕ) := []
  waiter : ρ × ℕ → Waiter := fun _ => {}
  requests : ρ → Request := fun _ => {}

variable {ρ : Type*} [DecidableEq ρ]

/-! ### Expectations -/

/-- The types of events that expectations have names of their own for. -/
def eventTypeOf (requested : String) : String :=
  if requested = "navigation" then "navigation.completed"
  else if requested = "popup" then "popup.opened"
  else if requested = "fileChooser" then "fileChooser.opened"
  else if requested = "dialog" then "dialog.opened"
  else requested

/-- What `#waitForExpectation` makes of an expectation. -/
def awaitedOf (expectation : Object) : Except RpcError Awaited := do
  let requested ← requiredString expectation "type"
  return if requested = "download" then .download
    else .event (eventTypeOf requested) (requested = "popup")

/-- The expectation names what it expects. -/
def isTyped (expectation : Object) : Bool :=
  match awaitedOf expectation with
  | .ok _ => true
  | .error _ => false

/-- `record(value)` -/
def record : Json → Except RpcError Object
  | .obj fields => .ok (.ofFields fields)
  | _ => .error { kind := "INVALID_REQUEST", message := "params must be an object" }

/-! ### Waiters -/

namespace State

variable (s : State ρ)

/-- The waiters that are in one of the sets. -/
def pending : List (ρ × ℕ) := s.waiters ++ s.downloadWaiters

/-- One request changes. -/
def setRequest (r : ρ) (q : Request) : State ρ :=
  { s with requests := Function.update s.requests r q }

/-- One request comes to another phase. -/
def setPhase (r : ρ) (phase : Phase) : State ρ := s.setRequest r { s.requests r with phase }

/-- `#waitForEvent` and `#waitForDownload`: a waiter is added to its set. -/
def arm (w : ρ × ℕ) (tabID : String) (awaited : Awaited) : State ρ :=
  { s with
    waiters := match awaited with
      | .event _ _ => s.waiters ++ [w]
      | .download => s.waiters
    downloadWaiters := match awaited with
      | .event _ _ => s.downloadWaiters
      | .download => s.downloadWaiters ++ [w]
    waiter := Function.update s.waiter w { tabID, awaited, timer := true } }

/-- The expectations of a request from the one with the number `i` on, until one throws. -/
def waitForAll (s : State ρ) (r : ρ) (tabID : String) (i : ℕ) :
    List Object → State ρ × ℕ × Option RpcError
  | [] => (s, i, none)
  | expectation :: expectations =>
    match awaitedOf expectation with
    | .error e => (s, i, some e)
    | .ok awaited => waitForAll (s.arm (r, i) tabID awaited) r tabID (i + 1) expectations

/-- The promise of a waiter is resolved or rejected; before that the waiter is deleted and its timer
is cleared, or has fired. -/
def settle (w : ρ × ℕ) (ok : Bool) : State ρ :=
  { s with
    waiters := s.waiters.filter (· ≠ w)
    downloadWaiters := s.downloadWaiters.filter (· ≠ w)
    waiter := Function.update s.waiter w
      { s.waiter w with
        timer := false
        settlements := (s.waiter w).settlements + 1
        outcome := (s.waiter w).outcome.or (some ok) } }

/-- One waiter after the other is settled. -/
def settleAll (ws : List (ρ × ℕ)) (ok : Bool) : State ρ := ws.foldl (fun s w => s.settle w ok) s

/-- `#cancelExpectationWaiters` -/
def cancelExpectationWaiters (tabID : String) : State ρ :=
  s.settleAll (s.pending.filter fun w => (s.waiter w).tabID = tabID) false

/-- A waiter of `#waiters` waits for the event. -/
def awaits (type : String) (tabID openerTabID : Option String) (w : ρ × ℕ) : Bool :=
  match (s.waiter w).awaited with
  | .event type' popup => type' = type && (tabID = some (s.waiter w).tabID ||
      popup && openerTabID = some (s.waiter w).tabID)
  | .download => false

/-- `#emit` -/
def emit (type : String) (tabID openerTabID : Option String) : State ρ :=
  s.settleAll (s.waiters.filter (s.awaits type tabID openerTabID)) true

/-- A waiter gets its download. -/
def setDownloadID (w : ρ × ℕ) (downloadID : ℕ) : State ρ :=
  { s with
    waiter := Function.update s.waiter w { s.waiter w with downloadID := some downloadID } }

/-- `#associateDownload` -/
def associateDownload (downloadID : ℕ) (tabID : String) : State ρ :=
  match s.downloadWaiters.filter fun w =>
    (s.waiter w).downloadID = none && (s.waiter w).tabID = tabID with
  | [w] => s.setDownloadID w downloadID
  | _ => s

/-- `#noteDownloadCreated`: nobody knows whose download it is if several waiters have none. -/
def noteDownloadCreated (downloadID : ℕ) : State ρ :=
  match s.downloadWaiters.filter fun w => (s.waiter w).downloadID = none with
  | [w] => s.setDownloadID w downloadID
  | candidates => s.settleAll candidates false

/-- `#completeDownloadWaiter` -/
def completeDownload (downloadID : ℕ) (complete : Bool) : State ρ :=
  match s.downloadWaiters.find? fun w => (s.waiter w).downloadID = some downloadID with
  | some w => s.settle w complete
  | none => s

/-- The waiters are armed for `action.perform`. -/
def perform (r : ρ) (tabID : String) (expect : List Json) : State ρ :=
  match expect.mapM record with
  | .error _ => s.setRequest r { tabID, phase := .settled }
  | .ok expectations =>
    let (s', count, thrown) := s.waitForAll r tabID 0 expectations
    s'.setRequest r { tabID, count, phase := if thrown.isSome then .settled else .acting }

/-- `condition.wait` or `download.wait` -/
def wait (r : ρ) (tabID : String) (condition : Object) : State ρ :=
  let (s', count, thrown) := s.waitForAll r tabID 0 [condition]
  s'.setRequest r { tabID, count, phase := if thrown.isSome then .settled else .awaiting }

end State

/-! ### The machine -/

/-- What can happen. -/
inductive Event (ρ : Type*) where
  | perform (r : ρ) (tabID : String) (expect : List Json)
  | wait (r : ρ) (tabID : String) (condition : Object)
  /-- The action is done. -/
  | acted (r : ρ)
  | failed (r : ρ)
  | allSettled (r : ρ)
  /-- `Promise.all` is resolved. -/
  | resolved (r : ρ)
  /-- `Promise.all` is rejected, and the request with it. -/
  | rejected (r : ρ)
  | finished (r : ρ)
  | emit (type : String) (tabID openerTabID : Option String)
  | timeout (w : ρ × ℕ)
  | associateDownload (downloadID : ℕ) (tabID : String)
  | noteDownloadCreated (downloadID : ℕ)
  | completeDownload (downloadID : ℕ) (complete : Bool)
  | stopAll
  /-- The tabs are those that the session holds. -/
  | stopSession (tabIDs : List String)

/-- When an event can happen. -/
def enabled (s : State ρ) : Event ρ → Prop
  | .perform r _ _ => (s.requests r).phase = .outside
  | .wait r _ _ => (s.requests r).phase = .outside
  | .acted r => (s.requests r).phase = .acting
  | .failed r => (s.requests r).phase = .acting
  | .allSettled r => (s.requests r).phase = .failing ∧
    ∀ i < (s.requests r).count, (s.waiter (r, i)).outcome ≠ none
  -- `Promise.all`: all of them resolve, or the first rejection counts.
  | .resolved r => (s.requests r).phase = .awaiting ∧
    ∀ i < (s.requests r).count, (s.waiter (r, i)).outcome = some true
  | .rejected r => (s.requests r).phase = .awaiting ∧
    ∃ i < (s.requests r).count, (s.waiter (r, i)).outcome = some false
  | .finished r => (s.requests r).phase = .observing
  | .timeout w => (s.waiter w).timer = true
  | _ => True

instance (s : State ρ) (e : Event ρ) : Decidable (enabled s e) := by
  cases e <;> unfold enabled <;> infer_instance

/-- One step of the service. -/
def next (s : State ρ) : Event ρ → State ρ
  | .perform r tabID expect => s.perform r tabID expect
  | .wait r tabID condition => s.wait r tabID condition
  | .acted r => s.setPhase r (if (s.requests r).count = 0 then .observing else .awaiting)
  -- The action failed: the waiters are cancelled, and the handler waits for all of them to settle.
  | .failed r => (s.cancelExpectationWaiters (s.requests r).tabID).setPhase r .failing
  | .allSettled r => s.setPhase r .settled
  | .resolved r => s.setPhase r .observing
  | .rejected r => s.setPhase r .settled
  | .finished r => s.setPhase r .settled
  | .emit type tabID openerTabID => s.emit type tabID openerTabID
  | .timeout w => s.settle w false
  | .associateDownload downloadID tabID => s.associateDownload downloadID tabID
  | .noteDownloadCreated downloadID => s.noteDownloadCreated downloadID
  | .completeDownload downloadID complete => s.completeDownload downloadID complete
  -- Both stops reject what is pending, everything or tab by tab.
  | .stopAll => s.settleAll s.pending false
  | .stopSession tabIDs => tabIDs.foldl State.cancelExpectationWaiters s

/-- Any number of requests that wait. -/
def machine (ρ : Type*) [DecidableEq ρ] : Machine (State ρ) (Event ρ) where
  init := {}
  enabled := enabled
  next := next

instance (s : State ρ) (e : Event ρ) : Decidable ((machine ρ).enabled s e) :=
  inferInstanceAs (Decidable (enabled s e))

/-- The expectations throw in front of all others, or not at all. -/
def Ordered (expectations : List Object) : Prop :=
  (∀ o ∈ expectations, isTyped o = true) ∨ ∀ o ∈ expectations.head?, isTyped o = false

/-- So do those that are all records; else nothing is armed. -/
def OrderedRecords : Except RpcError (List Object) → Prop
  | .ok expectations => Ordered expectations
  | .error _ => True

/-- No expectation of a request throws while others are armed, and none is pending when the request
is rejected because of another one. -/
def Orderly (s : State ρ) : Event ρ → Prop
  | .perform _ _ expect => OrderedRecords (expect.mapM record)
  | .rejected r => ∀ w ∈ s.pending, w.1 ≠ r
  | _ => True

instance (expectations : List Object) : Decidable (Ordered expectations) :=
  inferInstanceAs (Decidable (_ ∨ _))

instance : ∀ records, Decidable (OrderedRecords records)
  | .ok expectations => inferInstanceAs (Decidable (Ordered expectations))
  | .error _ => isTrue trivial

instance (s : State ρ) : ∀ e, Decidable (Orderly s e)
  | .perform _ _ expect => inferInstanceAs (Decidable (OrderedRecords (expect.mapM record)))
  | .rejected r => inferInstanceAs (Decidable (∀ w ∈ s.pending, w.1 ≠ r))
  | .wait .. => isTrue trivial
  | .acted _ => isTrue trivial
  | .failed _ => isTrue trivial
  | .allSettled _ => isTrue trivial
  | .resolved _ => isTrue trivial
  | .finished _ => isTrue trivial
  | .emit .. => isTrue trivial
  | .timeout _ => isTrue trivial
  | .associateDownload .. => isTrue trivial
  | .noteDownloadCreated _ => isTrue trivial
  | .completeDownload .. => isTrue trivial
  | .stopAll => isTrue trivial
  | .stopSession _ => isTrue trivial

variable {s : State ρ}

/-! ### Settling -/

/-- A waiter that is settled is not pending any more. -/
theorem mem_pending_settle {w w' : ρ × ℕ} {ok : Bool} :
    w' ∈ (s.settle w ok).pending ↔ w' ∈ s.pending ∧ w' ≠ w := by
  simp only [State.pending, State.settle, List.mem_append, List.mem_filter, decide_eq_true_eq]
  rw [← or_and_right]

theorem waiter_settle_of_ne {w w' : ρ × ℕ} (h : w' ≠ w) (ok : Bool) :
    (s.settle w ok).waiter w' = s.waiter w' := Function.update_of_ne h ..

/-- No request changes when waiters are settled. -/
theorem requests_settleAll (s : State ρ) (ws : List (ρ × ℕ)) (ok : Bool) :
    (s.settleAll ws ok).requests = s.requests := by
  induction ws generalizing s with
  | nil => rfl
  | cons w ws ih => exact ih (s.settle w ok)

/-- The waiters that are left. -/
theorem mem_pending_settleAll {ws : List (ρ × ℕ)} {ok : Bool} {w : ρ × ℕ} :
    w ∈ (s.settleAll ws ok).pending ↔ w ∈ s.pending ∧ w ∉ ws := by
  induction ws generalizing s with
  | nil => simp [State.settleAll]
  | cons w' ws ih =>
    have h_rest : w ∈ (s.settleAll (w' :: ws) ok).pending ↔
        w ∈ (s.settle w' ok).pending ∧ w ∉ ws := ih
    rw [h_rest, mem_pending_settle, List.mem_cons, not_or, and_assoc]

/-! ### What always holds -/

/-- What holds in every run. -/
structure Inv (s : State ρ) : Prop where
  nodup : s.pending.Nodup
  /-- A waiter is in its set as long as its timer is armed. -/
  timer : ∀ w, (s.waiter w).timer = true ↔ w ∈ s.pending
  unsettled : ∀ w ∈ s.pending, (s.waiter w).settlements = 0 ∧ (s.waiter w).outcome = none
  once : ∀ w, (s.waiter w).settlements ≤ 1
  outside : ∀ w ∈ s.pending, (s.requests w.1).phase ≠ .outside
  tab : ∀ w ∈ s.pending, (s.waiter w).tabID = (s.requests w.1).tabID
  count : ∀ w ∈ s.pending, w.2 < (s.requests w.1).count

omit [DecidableEq ρ] in
theorem Inv.init : Inv ({} : State ρ) where
  nodup := .nil
  timer _ := by simp [State.pending]
  unsettled := List.forall_mem_nil _
  once _ := Nat.zero_le _
  outside := List.forall_mem_nil _
  tab := List.forall_mem_nil _
  count := List.forall_mem_nil _

/-- A waiter is settled. -/
theorem Inv.settle (hI : Inv s) {w : ρ × ℕ} (hw : w ∈ s.pending) (ok : Bool) :
    Inv (s.settle w ok) := by
  -- the waiter that is settled
  have h_self : (s.settle w ok).waiter w =
      { s.waiter w with
        timer := false
        settlements := (s.waiter w).settlements + 1
        outcome := (s.waiter w).outcome.or (some ok) } := Function.update_self ..
  refine ⟨?_, ?_, ?_, ?_, ?_, ?_, ?_⟩
  · have h_filter : (s.settle w ok).pending = s.pending.filter (· ≠ w) :=
      (List.filter_append ..).symm
    rw [h_filter]
    exact hI.nodup.filter _
  -- the timer of a waiter runs exactly while it is pending
  · intro w'
    rw [mem_pending_settle]
    by_cases h : w' = w
    · subst h
      simp [h_self]
    · rw [waiter_settle_of_ne h, hI.timer]
      exact (and_iff_left h).symm
  · intro w' hw'
    obtain ⟨h_mem, h_ne⟩ := mem_pending_settle.mp hw'
    rw [waiter_settle_of_ne h_ne]
    exact hI.unsettled w' h_mem
  · intro w'
    by_cases h : w' = w
    · subst h
      rw [h_self]
      exact Nat.le_of_eq (congrArg (· + 1) (hI.unsettled _ hw).1)
    · rw [waiter_settle_of_ne h]
      exact hI.once w'
  · intro w' hw'
    exact hI.outside w' (mem_pending_settle.mp hw').1
  · intro w' hw'
    obtain ⟨h_mem, h_ne⟩ := mem_pending_settle.mp hw'
    rw [waiter_settle_of_ne h_ne]
    exact hI.tab w' h_mem
  · intro w' hw'
    exact hI.count w' (mem_pending_settle.mp hw').1

/-- Several waiters are settled. -/
theorem Inv.settleAll (hI : Inv s) {ws : List (ρ × ℕ)} (h_nodup : ws.Nodup)
    (h_ws : ∀ w ∈ ws, w ∈ s.pending) (ok : Bool) : Inv (s.settleAll ws ok) := by
  induction ws generalizing s with
  | nil => exact hI
  | cons w ws ih =>
    obtain ⟨h_not, h_nodup⟩ := List.nodup_cons.mp h_nodup
    rw [List.forall_mem_cons] at h_ws
    refine ih (hI.settle h_ws.1 ok) h_nodup ?_
    intro w' hw'
    -- Settling one waiter leaves the others in their sets.
    exact mem_pending_settle.mpr ⟨h_ws.2 w' hw', fun h => h_not (h ▸ hw')⟩

/-- The waiters of a tab are settled. -/
theorem Inv.cancelExpectationWaiters (hI : Inv s) (tabID : String) :
    Inv (s.cancelExpectationWaiters tabID) :=
  hI.settleAll (hI.nodup.filter _) (fun _ hw => (List.mem_filter.mp hw).1) false

omit [DecidableEq ρ] in
/-- No waiter is twice in the list for events. -/
theorem Inv.nodup_waiters (hI : Inv s) : s.waiters.Nodup := (List.nodup_append.mp hI.nodup).1

omit [DecidableEq ρ] in
/-- No waiter is twice in the list for downloads. -/
theorem Inv.nodup_downloadWaiters (hI : Inv s) : s.downloadWaiters.Nodup :=
  (List.nodup_append.mp hI.nodup).2.1

@[simp] theorem requests_setRequest_self (s : State ρ) (r : ρ) (q : Request) :
    (s.setRequest r q).requests r = q := Function.update_self ..

theorem requests_setRequest_of_ne (s : State ρ) {r r' : ρ} (h : r' ≠ r) (q : Request) :
    (s.setRequest r q).requests r' = s.requests r' := Function.update_of_ne h ..

@[simp] theorem phase_setPhase_self (s : State ρ) (r : ρ) (phase : Phase) :
    ((s.setPhase r phase).requests r).phase = phase := by
  rw [State.setPhase, requests_setRequest_self]

theorem requests_setPhase_of_ne (s : State ρ) {r r' : ρ} (h : r' ≠ r) (phase : Phase) :
    (s.setPhase r phase).requests r' = s.requests r' := requests_setRequest_of_ne s h _

/-- A request goes on. -/
theorem Inv.setPhase (hI : Inv s) (r : ρ) {phase : Phase} (h : phase ≠ .outside) :
    Inv (s.setPhase r phase) := by
  have h_requests : ∀ r', ((s.setPhase r phase).requests r').tabID = (s.requests r').tabID ∧
      ((s.setPhase r phase).requests r').count = (s.requests r').count ∧
      ((s.requests r').phase ≠ .outside → ((s.setPhase r phase).requests r').phase ≠ .outside) := by
    intro r'
    unfold State.setPhase State.setRequest
    by_cases h_r : r' = r
    · subst h_r
      simp [h]
    · simp [Function.update_of_ne h_r]
  exact ⟨hI.nodup, hI.timer, hI.unsettled, hI.once,
    fun w hw => (h_requests w.1).2.2 (hI.outside w hw),
    fun w hw => (hI.tab w hw).trans (h_requests w.1).1.symm,
    fun w hw => (h_requests w.1).2.1 ▸ hI.count w hw⟩

/-- A waiter gets its download. -/
theorem Inv.setDownloadID (hI : Inv s) (w : ρ × ℕ) (downloadID : ℕ) :
    Inv (s.setDownloadID w downloadID) := by
  -- the download is the only field that changes
  have h_same : ∀ w', ((s.setDownloadID w downloadID).waiter w').timer = (s.waiter w').timer ∧
      ((s.setDownloadID w downloadID).waiter w').settlements = (s.waiter w').settlements ∧
      ((s.setDownloadID w downloadID).waiter w').outcome = (s.waiter w').outcome ∧
      ((s.setDownloadID w downloadID).waiter w').tabID = (s.waiter w').tabID := by
    intro w'
    unfold State.setDownloadID
    by_cases h : w' = w
    · subst h
      simp
    · simp [Function.update_of_ne h]
  refine ⟨hI.nodup, ?_, ?_, ?_, hI.outside, ?_, hI.count⟩
  · intro w'
    rw [(h_same w').1]
    exact hI.timer w'
  · intro w' hw'
    rw [(h_same w').2.1, (h_same w').2.2.1]
    exact hI.unsettled w' hw'
  · intro w'
    rw [(h_same w').2.1]
    exact hI.once w'
  · intro w' hw'
    rw [(h_same w').2.2.2]
    exact hI.tab w' hw'

/-! ### Arming -/

/-- The waiters of the request `r` from `i` on and before `n` are armed. -/
structure Arms (s s' : State ρ) (r : ρ) (tabID : String) (i n : ℕ) : Prop where
  requests : s'.requests = s.requests
  pending : ∀ w, w ∈ s'.pending ↔ w ∈ s.pending ∨ w.1 = r ∧ i ≤ w.2 ∧ w.2 < n
  nodup : s'.pending.Nodup
  armed : ∀ j, i ≤ j → j < n →
    ∃ awaited, s'.waiter (r, j) = { tabID, awaited, timer := true }
  other : ∀ w, ¬ (w.1 = r ∧ i ≤ w.2 ∧ w.2 < n) → s'.waiter w = s.waiter w

/-- A waiter that is armed is pending. -/
theorem pending_arm (s : State ρ) (w : ρ × ℕ) (tabID : String) (awaited : Awaited) :
    (s.arm w tabID awaited).pending.Perm (w :: s.pending) := by
  cases awaited with
  | event type popup =>
    show (s.waiters ++ [w] ++ s.downloadWaiters).Perm (w :: (s.waiters ++ s.downloadWaiters))
    rw [List.append_assoc]
    exact List.perm_middle
  | download =>
    show (s.waiters ++ (s.downloadWaiters ++ [w])).Perm (w :: (s.waiters ++ s.downloadWaiters))
    rw [← List.append_assoc]
    exact List.perm_append_singleton ..

/-- Waiters are numbered upwards. -/
theorem count_le (s : State ρ) (r : ρ) (tabID : String) (i : ℕ) (expectations : List Object) :
    i ≤ (s.waitForAll r tabID i expectations).2.1 := by
  induction expectations generalizing s i with
  | nil => exact le_rfl
  | cons expectation expectations ih =>
    unfold State.waitForAll
    split
    · exact le_rfl
    · exact (Nat.le_succ i).trans (ih ..)

/-- What `waitForAll` arms, one expectation after the other. -/
theorem arms (tabID : String) (expectations : List Object) {r : ρ} {i : ℕ}
    (h_nodup : s.pending.Nodup) (h_new : ∀ j, i ≤ j → (r, j) ∉ s.pending) :
    Arms s (s.waitForAll r tabID i expectations).1 r tabID i
      (s.waitForAll r tabID i expectations).2.1 := by
  -- nothing is armed: the list is empty, or its first element is no expectation
  have h_none : Arms s s r tabID i i := by
    refine ⟨rfl, ?_, h_nodup, ?_, fun _ _ => rfl⟩
    · intro w
      refine ⟨.inl, ?_⟩
      rintro (h_mem | ⟨-, h_le, h_lt⟩)
      · exact h_mem
      · exact absurd h_lt h_le.not_gt
    · intro j h_le h_lt
      exact absurd h_lt h_le.not_gt
  induction expectations generalizing s i with
  | nil => exact h_none
  | cons expectation expectations ih =>
    unfold State.waitForAll
    cases h_awaited : awaitedOf expectation with
    | error e => exact h_none
    -- one waiter is armed here, the rest by the call for the tail
    | ok awaited =>
      have h_perm := pending_arm s (r, i) tabID awaited
      have h_arm : (s.arm (r, i) tabID awaited).pending.Nodup :=
        h_perm.nodup_iff.mpr (List.nodup_cons.mpr ⟨h_new i le_rfl, h_nodup⟩)
      have h_later : ∀ j, i + 1 ≤ j → (r, j) ∉ (s.arm (r, i) tabID awaited).pending := by
        intro j h_lt h_mem
        rcases List.mem_cons.mp (h_perm.mem_iff.mp h_mem) with h_eq | h_mem
        · have h_j : j = i := congrArg Prod.snd h_eq
          omega
        · exact h_new j (by omega) h_mem
      have h_self : Arms (s.arm (r, i) tabID awaited) (s.arm (r, i) tabID awaited) r tabID (i + 1)
          (i + 1) := by
        refine ⟨rfl, fun w => ⟨.inl, ?_⟩, h_arm, fun j _ _ => ?_, fun _ _ => rfl⟩
        · rintro (h_mem | ⟨-, h_le, h_lt⟩)
          · exact h_mem
          · exact absurd h_lt h_le.not_gt
        · omega
      have h_le := count_le (s.arm (r, i) tabID awaited) r tabID (i + 1) expectations
      have h_arms := ih h_arm h_later h_self
      dsimp only
      generalize (s.arm (r, i) tabID awaited).waitForAll r tabID (i + 1) expectations = out at *
      refine ⟨h_arms.requests, ?_, h_arms.nodup, ?_, ?_⟩
      · intro w
        rw [h_arms.pending, h_perm.mem_iff, List.mem_cons]
        constructor
        · rintro ((rfl | h_mem) | ⟨h_r, h_lt, h_n⟩)
          · exact .inr ⟨rfl, le_rfl, by omega⟩
          · exact .inl h_mem
          · exact .inr ⟨h_r, by omega, h_n⟩
        · rintro (h_mem | ⟨h_r, h_i, h_n⟩)
          · exact .inl (.inr h_mem)
          · by_cases h_eq : w.2 = i
            · exact .inl (.inl (Prod.ext h_r h_eq))
            · exact .inr ⟨h_r, by omega, h_n⟩
      · intro j h_i h_n
        by_cases h_eq : j = i
        · subst h_eq
          refine ⟨awaited, (h_arms.other (r, j) ?_).trans (Function.update_self ..)⟩
          rintro ⟨-, h_lt, -⟩
          exact absurd h_lt (Nat.not_succ_le_self j)
        · exact h_arms.armed j (by omega) h_n
      · intro w hw
        rw [h_arms.other w fun h => hw ⟨h.1, by omega, h.2.2⟩]
        refine Function.update_of_ne ?_ ..
        rintro rfl
        exact hw ⟨rfl, le_rfl, by omega⟩

/-- A new request arms its waiters. -/
theorem Inv.waits (hI : Inv s) {r : ρ} (h_phase : (s.requests r).phase = .outside) (tabID : String)
    (expectations : List Object) {phase : Phase} (h : phase ≠ .outside) :
    Inv ((s.waitForAll r tabID 0 expectations).1.setRequest r
      { tabID, count := (s.waitForAll r tabID 0 expectations).2.1, phase }) := by
  have h_new : ∀ w ∈ s.pending, w.1 ≠ r := by
    rintro w hw rfl
    exact hI.outside w hw h_phase
  have h_arms := arms tabID expectations hI.nodup fun j (_ : 0 ≤ j) hj => h_new _ hj rfl
  generalize (s.waitForAll r tabID 0 expectations).1 = s',
    (s.waitForAll r tabID 0 expectations).2.1 = n at h_arms ⊢
  have h_self := requests_setRequest_self s' r { tabID, count := n, phase }
  have h_other : ∀ r', r' ≠ r →
      (s'.setRequest r { tabID, count := n, phase }).requests r' = s.requests r' := by
    intro r' h_r
    exact (requests_setRequest_of_ne s' h_r _).trans (congrFun h_arms.requests r')
  -- A pending waiter is an old one, or one of the request.
  have h_cases : ∀ w ∈ s'.pending, w ∈ s.pending ∧ s'.waiter w = s.waiter w ∧ w.1 ≠ r ∨
      w.1 = r ∧ w.2 < n ∧ ∃ awaited, s'.waiter w = { tabID, awaited, timer := true } := by
    intro w hw
    rcases (h_arms.pending w).mp hw with h_mem | ⟨h_r, h_le, h_lt⟩
    · exact .inl ⟨h_mem, h_arms.other w fun h => h_new w h_mem h.1, h_new w h_mem⟩
    · subst h_r
      exact .inr ⟨rfl, h_lt, h_arms.armed w.2 h_le h_lt⟩
  refine ⟨h_arms.nodup, ?_, ?_, ?_, ?_, ?_, ?_⟩
  · intro w
    show (s'.waiter w).timer = true ↔ w ∈ s'.pending
    by_cases h_w : w.1 = r ∧ 0 ≤ w.2 ∧ w.2 < n
    · obtain ⟨rfl, h_le, h_lt⟩ := h_w
      obtain ⟨awaited, h_waiter⟩ := h_arms.armed w.2 h_le h_lt
      rw [h_waiter, h_arms.pending]
      exact iff_of_true rfl (.inr ⟨rfl, h_le, h_lt⟩)
    · rw [h_arms.other w h_w, h_arms.pending, hI.timer]
      exact (or_iff_left h_w).symm
  · intro w hw
    rcases h_cases w hw with ⟨h_mem, h_waiter, -⟩ | ⟨-, -, awaited, h_waiter⟩
    · show (s'.waiter w).settlements = 0 ∧ (s'.waiter w).outcome = none
      rw [h_waiter]
      exact hI.unsettled w h_mem
    · show (s'.waiter w).settlements = 0 ∧ (s'.waiter w).outcome = none
      rw [h_waiter]
      exact ⟨rfl, rfl⟩
  · intro w
    show (s'.waiter w).settlements ≤ 1
    by_cases h_w : w.1 = r ∧ 0 ≤ w.2 ∧ w.2 < n
    · obtain ⟨rfl, h_le, h_lt⟩ := h_w
      obtain ⟨awaited, h_waiter⟩ := h_arms.armed w.2 h_le h_lt
      rw [h_waiter]
      exact Nat.zero_le _
    · rw [h_arms.other w h_w]
      exact hI.once w
  · intro w hw
    rcases h_cases w hw with ⟨h_mem, -, h_r⟩ | ⟨h_r, -⟩
    · rw [h_other _ h_r]
      exact hI.outside w h_mem
    · rw [h_r, h_self]
      exact h
  · intro w hw
    show (s'.waiter w).tabID = _
    rcases h_cases w hw with ⟨h_mem, h_waiter, h_r⟩ | ⟨h_r, -, awaited, h_waiter⟩
    · rw [h_waiter, h_other _ h_r]
      exact hI.tab w h_mem
    · rw [h_waiter, h_r, h_self]
  · intro w hw
    rcases h_cases w hw with ⟨h_mem, -, h_r⟩ | ⟨h_r, h_lt, -⟩
    · rw [h_other _ h_r]
      exact hI.count w h_mem
    · rw [h_r, h_self]
      exact h_lt

/-- A download is noted for its only candidate, or all candidates are settled. -/
theorem noteDownloadCreated_cases (s : State ρ) (downloadID : ℕ) :
    (∃ w, s.noteDownloadCreated downloadID = s.setDownloadID w downloadID) ∨
      ∃ ws, ws.Sublist s.downloadWaiters ∧
        s.noteDownloadCreated downloadID = s.settleAll ws false := by
  unfold State.noteDownloadCreated
  split
  case h_1 w _ => exact .inl ⟨w, rfl⟩
  case h_2 => exact .inr ⟨_, List.filter_sublist, rfl⟩

/-- Every step keeps the invariant. -/
theorem Inv.step (hI : Inv s) {e : Event ρ} (he : enabled s e) : Inv (next s e) := by
  cases e with
  -- requests that wait
  | perform r tabID expect =>
    simp only [next, State.perform]
    split
    · exact hI.waits he tabID [] (by decide)
    · exact hI.waits he tabID _ (by split <;> decide)
  | wait r tabID condition =>
    have h_phase : (if (s.waitForAll r tabID 0 [condition]).2.2.isSome then Phase.settled
        else .awaiting) ≠ .outside := by split <;> decide
    exact hI.waits he tabID [condition] h_phase
  -- what the request does afterwards changes its phase only
  | acted r => exact hI.setPhase r (by split <;> decide)
  | failed r => exact (hI.cancelExpectationWaiters _).setPhase r (by decide)
  | allSettled r => exact hI.setPhase r (by decide)
  | resolved r => exact hI.setPhase r (by decide)
  | rejected r => exact hI.setPhase r (by decide)
  | finished r => exact hI.setPhase r (by decide)
  -- whatever settles waiters does so by `settleAll`
  | emit type tabID openerTabID =>
    refine hI.settleAll (hI.nodup_waiters.filter _) (fun w hw => ?_) true
    exact List.mem_append_left _ (List.mem_filter.mp hw).1
  | timeout w => exact hI.settle ((hI.timer w).mp he) false
  | associateDownload downloadID tabID =>
    simp only [next, State.associateDownload]
    split
    · exact hI.setDownloadID _ downloadID
    · exact hI
  | noteDownloadCreated downloadID =>
    rcases noteDownloadCreated_cases s downloadID with ⟨w, h⟩ | ⟨ws, h_sub, h⟩
    · simp only [next, h]
      exact hI.setDownloadID w downloadID
    · simp only [next, h]
      exact hI.settleAll (h_sub.nodup hI.nodup_downloadWaiters)
        (fun w hw => List.mem_append_right _ (h_sub.subset hw)) false
  | completeDownload downloadID complete =>
    simp only [next, State.completeDownload]
    split
    case h_1 w h_find =>
      exact hI.settle (List.mem_append_right _ (List.mem_of_find?_eq_some h_find)) complete
    case h_2 => exact hI
  | stopAll => exact hI.settleAll hI.nodup (fun _ hw => hw) false
  -- by induction on the tabs of the session
  | stopSession tabIDs =>
    show Inv (tabIDs.foldl State.cancelExpectationWaiters s)
    induction tabIDs generalizing s with
    | nil => exact hI
    | cons tabID tabIDs ih => exact ih (hI.cancelExpectationWaiters tabID) trivial

/-! ### Who has waiters -/

/-- Only a request that acts, or awaits its promises, has waiters. -/
def Clear (s : State ρ) : Prop :=
  ∀ w ∈ s.pending, (s.requests w.1).phase = .acting ∨ (s.requests w.1).phase = .awaiting

omit [DecidableEq ρ] in
theorem Clear.init : Clear ({} : State ρ) := List.forall_mem_nil _

/-- A request that goes on still waits, or has no waiters. -/
theorem Clear.setPhase (hC : Clear s) {r : ρ} {phase : Phase}
    (h : (phase = .acting ∨ phase = .awaiting) ∨ ∀ w ∈ s.pending, w.1 ≠ r) :
    Clear (s.setPhase r phase) := by
  intro w hw
  have hw : w ∈ s.pending := hw
  by_cases h_r : w.1 = r
  · rw [h_r, phase_setPhase_self]
    exact h.resolve_right fun h_none => h_none w hw h_r
  · rw [requests_setPhase_of_ne s h_r]
    exact hC w hw

omit [DecidableEq ρ] in
/-- A step that arms no waiter and leaves the requests as they are. -/
theorem Clear.of_fewer {s' : State ρ} (hC : Clear s) (h_requests : s'.requests = s.requests)
    (h_fewer : ∀ w ∈ s'.pending, w ∈ s.pending) : Clear s' := by
  intro w hw
  rw [h_requests]
  exact hC w (h_fewer w hw)

/-- Waiters that are settled leave the others where they were. -/
theorem Clear.settleAll (hC : Clear s) (ws : List (ρ × ℕ)) (ok : Bool) :
    Clear (s.settleAll ws ok) :=
  hC.of_fewer (requests_settleAll s ws ok) fun _ hw => (mem_pending_settleAll.mp hw).1

/-- Which expectations throw, and how many waiters are armed before. -/
theorem thrown_cases (s : State ρ) (r : ρ) (tabID : String) (i : ℕ) (expectations : List Object) :
    (s.waitForAll r tabID i expectations).2.2 = none ∧
        (∀ o ∈ expectations, isTyped o = true) ∨
      (s.waitForAll r tabID i expectations).2.2 ≠ none ∧
        ¬ (∀ o ∈ expectations, isTyped o = true) ∧
        ((s.waitForAll r tabID i expectations).2.1 = i ↔
          ∀ o ∈ expectations.head?, isTyped o = false) := by
  induction expectations generalizing s i with
  | nil => exact .inl ⟨rfl, List.forall_mem_nil _⟩
  | cons expectation expectations ih =>
    unfold State.waitForAll
    simp only [List.forall_mem_cons, List.head?_cons, Option.mem_some_iff, forall_eq']
    cases h_awaited : awaitedOf expectation with
    -- this expectation throws
    | error e =>
      have h_typed : isTyped expectation = false := by rw [isTyped, h_awaited]
      exact .inr ⟨Option.some_ne_none e, fun h => Bool.false_ne_true (h_typed.symm.trans h.1),
        iff_of_true rfl h_typed⟩
    -- a later one may
    | ok awaited =>
      have h_typed : isTyped expectation = true := by rw [isTyped, h_awaited]
      dsimp only
      rw [h_typed]
      rcases ih (s.arm (r, i) tabID awaited) (i + 1) with ⟨h_none, h_all⟩ | ⟨h_some, h_not, -⟩
      · exact .inl ⟨h_none, rfl, h_all⟩
      · refine .inr ⟨h_some, fun h => h_not h.2, ?_⟩
        have h_le := count_le (s.arm (r, i) tabID awaited) r tabID (i + 1) expectations
        simp only [Bool.true_eq_false, iff_false]
        omega

/-- A request begins to wait. -/
theorem Clear.waits (hC : Clear s) (hI : Inv s) {r : ρ}
    (h_outside : (s.requests r).phase = .outside)
    (tabID : String) (expectations : List Object) {phase : Phase}
    (h : (phase = .acting ∨ phase = .awaiting) ∨
      (s.waitForAll r tabID 0 expectations).2.1 = 0) :
    Clear ((s.waitForAll r tabID 0 expectations).1.setRequest r
      { tabID, count := (s.waitForAll r tabID 0 expectations).2.1, phase }) := by
  -- The request has no waiter before this step.
  have h_new : ∀ w ∈ s.pending, w.1 ≠ r := by
    rintro w hw rfl
    exact hI.outside w hw h_outside
  have h_arms := arms tabID expectations hI.nodup fun j (_ : 0 ≤ j) hj => h_new _ hj rfl
  intro w hw
  rcases (h_arms.pending w).mp hw with h_mem | ⟨rfl, -, h_lt⟩
  · rw [requests_setRequest_of_ne _ (h_new w h_mem), h_arms.requests]
    exact hC w h_mem
  · rw [requests_setRequest_self]
    refine h.resolve_right fun h_zero => ?_
    omega

/-- A request without pending waiters goes on. -/
theorem Clear.leaves (hC : Clear s) {r : ρ} (h_phase : (s.requests r).phase ≠ .acting ∧
    (s.requests r).phase ≠ .awaiting) (phase : Phase) : Clear (s.setPhase r phase) := by
  refine hC.setPhase (.inr ?_)
  rintro w hw rfl
  exact (hC w hw).elim h_phase.1 h_phase.2

/-- Every orderly step. -/
theorem Clear.step (hC : Clear s) (hI : Inv s) {e : Event ρ} (he : enabled s e)
    (h : Orderly s e) : Clear (next s e) := by
  cases e with
  | perform r tabID expect =>
    simp only [next, State.perform]
    split
    -- an expectation of a wrong shape: thrown before any waiter is armed
    case h_1 h_error =>
      exact hC.waits hI he tabID [] (.inr rfl)
    -- otherwise the condition says that a throw comes first or not at all
    case h_2 expectations h_ok =>
      refine hC.waits hI he tabID expectations ?_
      rcases thrown_cases s r tabID 0 expectations with ⟨h_none, -⟩ | ⟨-, h_not, h_zero⟩
      · rw [h_none]
        exact .inl (.inl rfl)
      · -- It throws at once, since it does not throw later.
        have h_ordered : Ordered expectations := by
          rwa [Orderly, h_ok] at h
        exact .inr (h_zero.mpr (h_ordered.resolve_left h_not))
  | wait r tabID condition =>
    have h_next : next s (.wait r tabID condition) =
        (s.waitForAll r tabID 0 [condition]).1.setRequest r
          { tabID
            count := (s.waitForAll r tabID 0 [condition]).2.1
            phase := if (s.waitForAll r tabID 0 [condition]).2.2.isSome then .settled
              else .awaiting } := rfl
    rw [h_next]
    refine hC.waits hI he tabID [condition] ?_
    rcases thrown_cases s r tabID 0 [condition] with ⟨h_none, -⟩ | ⟨-, h_not, h_zero⟩
    · rw [h_none]
      exact .inl (.inr rfl)
    · refine .inr (h_zero.mpr ?_)
      simpa using h_not
  | acted r =>
    refine hC.setPhase ?_
    by_cases h_count : (s.requests r).count = 0
    · refine .inr ?_
      rintro w hw rfl
      exact absurd (hI.count w hw) (by omega)
    · rw [if_neg h_count]
      exact .inl (.inr rfl)
  | failed r =>
    -- The waiters of the request are among those of its tab.
    have h_cancelled : Clear (s.cancelExpectationWaiters (s.requests r).tabID) := hC.settleAll _ _
    refine h_cancelled.setPhase (.inr ?_)
    rintro w hw rfl
    obtain ⟨h_mem, h_not⟩ := mem_pending_settleAll.mp hw
    exact h_not (List.mem_filter.mpr ⟨h_mem, decide_eq_true (hI.tab w h_mem)⟩)
  | allSettled r =>
    have h_phase : (s.requests r).phase = .failing := he.1
    exact hC.leaves (by simp [h_phase]) .settled
  -- all waiters of the request are resolved, so none of them is pending
  | resolved r =>
    refine hC.setPhase (.inr ?_)
    rintro w hw rfl
    have h_outcome := he.2 w.2 (hI.count w hw)
    rw [(hI.unsettled w hw).2] at h_outcome
    contradiction
  -- the condition: no waiter of the request is pending
  | rejected r =>
    refine hC.setPhase (.inr ?_)
    rintro w hw rfl
    exact h w hw rfl
  | finished r =>
    have h_phase : (s.requests r).phase = .observing := he
    exact hC.leaves (by simp [h_phase]) .settled
  | emit type tabID openerTabID => exact hC.settleAll _ true
  | timeout w => exact hC.settleAll [w] false
  | associateDownload downloadID tabID =>
    simp only [next, State.associateDownload]
    split
    · exact hC
    · exact hC
  | noteDownloadCreated downloadID =>
    rcases noteDownloadCreated_cases s downloadID with ⟨w, h_eq⟩ | ⟨ws, -, h_eq⟩
    · simp only [next, h_eq]
      exact hC
    · simp only [next, h_eq]
      exact hC.settleAll ws false
  | completeDownload downloadID complete =>
    simp only [next, State.completeDownload]
    split
    case h_1 w _ => exact hC.settleAll [w] complete
    case h_2 => exact hC
  | stopAll => exact hC.settleAll _ false
  | stopSession tabIDs =>
    show Clear (tabIDs.foldl State.cancelExpectationWaiters s)
    clear he h
    induction tabIDs generalizing s with
    | nil => exact hC
    | cons tabID tabIDs ih => exact ih (hC.settleAll _ _) (hI.cancelExpectationWaiters tabID)

/-- An expectation of a type. -/
def expectation (type : String) : Json := .obj [("type", .str type)]

end BrowserControl.Extension.Waiters
