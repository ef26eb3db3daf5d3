import BrowserControl.Encoding.Json
import BrowserControl.Order.Recent
import BrowserControl.Transition.Machine

/-!
# The console of a tab and its cursor

The debugger manager keeps what a tab has written to its console, from two kinds of events, and
forgets the oldest entries when there are more than a thousand. `consoleEntries` returns the entries
from a cursor on, and the number of entries it holds as the next cursor.

`ConsoleLog.machine` is a tab to which the debugger stays attached, and a caller who passes on the
cursor of the last call. The cursor counts entries of the buffer, not entries of the tab, so the
calls are right until the buffer is full, and wrong afterwards (`exact_iff`).
-/

namespace BrowserControl.Extension.ConsoleLog

open Encoding Transition BrowserControl.Order

/-! ### Entries -/

/-- A member of a value, if it is an object that has it. -/
def memberOf (value : Json) (name : String) : Option Json :=
  match value with
  | .obj fields => (Object.ofFields fields).get name
  | _ => none

/-- `a ?? b` -/
def orElse (a b : Option Json) : Option Json :=
  match a with
  | none | some .null => b
  | some value => some value

/-- One entry of the console. -/
structure ConsoleEntry where
  level : Option Json
  source : Option Json := none
  timestamp : Option Json
  args : List (Option Json) := []
  text : Option String := none
  sessionID : Option String

/-- `Runtime.consoleAPICalled` -/
def consoleAPICalled (payload : Object) (sessionID : Option String) : ConsoleEntry where
  level := payload.get "type"
  timestamp := payload.get "timestamp"
  args := match payload.get "args" with
    | some (.arr args) => args.map fun arg =>
      orElse (orElse (memberOf arg "value") (memberOf arg "description")) (memberOf arg "type")
    | _ => []
  sessionID := sessionID

/-- `Log.entryAdded`. The text is cut to 4096 characters by `slice`. -/
def entryAdded (slice : String → String) (payload : Object) (sessionID : Option String) :
    ConsoleEntry :=
  let raw := (payload.get "entry").getD .null
  { level := memberOf raw "level"
    source := memberOf raw "source"
    timestamp := memberOf raw "timestamp"
    text := match memberOf raw "text" with
      | some (.str text) => some (slice text)
      | _ => none
    sessionID }

/-! ### The buffer and its reader -/

/-- What the buffer of a tab holds. -/
def maxEntries : ℕ := 1000

/-- What `consoleEntries` returns. -/
structure Page where
  cursor : ℤ
  entries : List ConsoleEntry

/-- `consoleEntries` -/
def consoleEntries (console : List ConsoleEntry) (cursor : ℤ) : Page where
  cursor := console.length
  entries := console.drop (max 0 cursor).toNat

/-- The buffer of one tab, its cursor, and what it has seen. -/
structure State where
  console : List ConsoleEntry := []
  /-- The cursor for the next call. -/
  cursor : ℤ := 0
  /-- All entries there have been. -/
  appended : List ConsoleEntry := []
  /-- How many there were when the last call was made. -/
  seen : ℕ := 0
  /-- What the last call has returned, and the entries since the call before it. -/
  answer : Option (List ConsoleEntry × List ConsoleEntry) := none

/-- What the debugger reports, and the call that reads. -/
inductive Event where
  | consoleAPICalled (payload : Object) (sessionID : Option String)
  | entryAdded (payload : Object) (sessionID : Option String)
  | consoleEntries

/-- An entry is added. -/
def State.append (s : State) (entry : ConsoleEntry) : State :=
  { s with console := push maxEntries s.console entry, appended := s.appended ++ [entry] }

/-- A read of the console, from the cursor on. -/
def State.call (s : State) : State :=
  let page := ConsoleLog.consoleEntries s.console s.cursor
  { s with
    cursor := page.cursor
    seen := s.appended.length
    answer := some (page.entries, s.appended.drop s.seen) }

/-- One step of the buffer. -/
def next (slice : String → String) (s : State) : Event → State
  | .consoleAPICalled payload sessionID => s.append (ConsoleLog.consoleAPICalled payload sessionID)
  | .entryAdded payload sessionID => s.append (ConsoleLog.entryAdded slice payload sessionID)
  | .consoleEntries => s.call

/-- A tab and the caller who reads its console. -/
def machine (slice : String → String) : Machine State Event where
  init := {}
  enabled _ _ := True
  next := next slice

instance (slice : String → String) (s : State) (e : Event) :
    Decidable ((machine slice).enabled s e) := isTrue trivial

/-! ### Nothing is lost or repeated -/

/-- **The last call was exact**: it has returned the entries since the call before it, unless these
were more than the buffer holds. -/
def Exact (s : State) : Prop :=
  ∀ answer ∈ s.answer, answer.2.length ≤ maxEntries → answer.1 = answer.2

/-- A call comes while nothing is forgotten, or there is nothing new. Calls after too many new
entries do not count. -/
def Current (s : State) : Event → Prop
  | .consoleEntries => s.appended.length - s.seen ≤ maxEntries →
    s.appended.length ≤ maxEntries ∨ s.appended.length = s.seen
  | _ => True

instance (s : State) : ∀ e, Decidable (Current s e)
  | .consoleEntries => inferInstanceAs (Decidable (_ → _))
  | .consoleAPICalled .. => isTrue trivial
  | .entryAdded .. => isTrue trivial

/-- What holds in every run. -/
structure Inv (s : State) : Prop where
  console : s.console = recent maxEntries s.appended
  cursor : s.cursor = min s.seen maxEntries
  seen : s.seen ≤ s.appended.length

theorem Inv.init : Inv {} where
  console := recent_nil.symm
  cursor := rfl
  seen := Nat.zero_le _

variable {slice : String → String} {s : State}

/-- The buffer holds the last entries. -/
theorem Inv.append (hI : Inv s) (entry : ConsoleEntry) : Inv (s.append entry) where
  console := by
    show push maxEntries s.console entry = _
    rw [hI.console, push_recent]
    rfl
  cursor := hI.cursor
  seen := by
    show s.seen ≤ (s.appended ++ [entry]).length
    rw [List.length_append]
    exact hI.seen.trans (Nat.le_add_right ..)

/-- A read changes the cursor only. -/
theorem Inv.call (hI : Inv s) : Inv s.call where
  console := hI.console
  cursor := by
    show (s.console.length : ℤ) = min s.appended.length maxEntries
    rw [hI.console, length_recent]
  seen := le_rfl

/-- Every step keeps the invariant. -/
theorem Inv.next (hI : Inv s) (e : Event) : Inv (next slice s e) := by
  cases e with
  | consoleAPICalled payload sessionID => exact hI.append _
  | entryAdded payload sessionID => exact hI.append _
  | consoleEntries => exact hI.call

/-- A call is exact if and only if it is current. -/
theorem Inv.exact_call_iff (hI : Inv s) : Exact s.call ↔ Current s .consoleEntries := by
  have h_cursor : (max 0 s.cursor).toNat = min s.seen maxEntries := by
    rw [hI.cursor]
    omega
  have h_entries : s.call.answer =
      some ((recent maxEntries s.appended).drop (min s.seen maxEntries),
        s.appended.drop s.seen) := by
    show some (s.console.drop (max 0 s.cursor).toNat, _) = _
    rw [h_cursor, hI.console]
  rw [Exact, h_entries]
  simp only [Option.mem_some_iff, forall_eq', List.length_drop, drop_recent_eq_iff hI.seen]
  rfl

/-- No answer was given yet. -/
theorem exact_init : Exact {} := by
  intro answer h
  cases h

theorem exact_append {entry : ConsoleEntry} (h : Exact s) : Exact (s.append entry) := h

/-- A read is exact just where nothing was pushed out unread. -/
theorem exact_next_iff (hI : Inv s) (h : Exact s) (e : Event) :
    Exact (next slice s e) ↔ Current s e := by
  cases e with
  | consoleAPICalled payload sessionID => exact iff_of_true (exact_append h) trivial
  | entryAdded payload sessionID => exact iff_of_true (exact_append h) trivial
  | consoleEntries => exact hI.exact_call_iff

/-- **The cursor is right until the buffer is full.** In every run of entries and calls, each of
which passes on the cursor of the one before it: all calls are exact if and only if each of them
comes while the buffer has forgotten nothing, or finds nothing new. -/
theorem exact_iff {es : List Event} (h : (machine slice).Runs (machine slice).init es) :
    (∀ es₁, es₁ <+: es → Exact ((machine slice).exec (machine slice).init es₁)) ↔
      ((machine slice).restrict Current).Runs (machine slice).init es := by
  refine Machine.Runs.restrict_iff (I := fun s => Inv s ∧ Exact s) ?_ ?_ ?_ ?_ h
  · exact ⟨.init, exact_init⟩
  · intro s e h_inv _ h_current
    exact ⟨h_inv.1.next e, (exact_next_iff h_inv.1 h_inv.2 e).mpr h_current⟩
  · intro s h_inv
    exact h_inv.2
  · intro s e h_inv _ h_not h_exact
    exact h_not ((exact_next_iff h_inv.1 h_inv.2 e).mp h_exact)

/-- Three entries and two calls. -/
def threeEntries : List Event :=
  [.consoleAPICalled .empty none, .entryAdded .empty none, .consoleEntries,
    .consoleAPICalled .empty (some "frame"), .consoleEntries]

/-- The equivalence, for three entries. -/
theorem exact_iff_three : (machine id).Runs (machine id).init threeEntries ∧
    ∀ es₁, es₁ <+: threeEntries → Exact ((machine id).exec (machine id).init es₁) :=
  ⟨by decide, (exact_iff (by decide)).mpr (by decide)⟩

/-- What is added to a full buffer after a call is not found by the next one. -/
theorem Inv.not_exact (hI : Inv s) (h : s.appended.length = maxEntries) (entry : ConsoleEntry) :
    ¬ Exact (s.call.append entry).call := by
  have h_length : (s.call.append entry).appended.length = maxEntries + 1 := by
    show (s.appended ++ [entry]).length = _
    rw [List.length_append, h, List.length_singleton]
  have h_seen : (s.call.append entry).seen = maxEntries := h
  have h_one : 1 ≤ maxEntries := by decide
  rw [(hI.call.append entry).exact_call_iff, Current, h_length, h_seen]
  omega

/-- Entries are counted. -/
theorem length_appended (s : State) (n : ℕ) (payload : Object) :
    ((machine slice).exec s (List.replicate n (.consoleAPICalled payload none))).appended.length =
      s.appended.length + n := by
  induction n generalizing s with
  | zero => rfl
  | succ n ih =>
    have h_length := ih (s.append (ConsoleLog.consoleAPICalled payload none))
    rw [State.append, List.length_append, List.length_singleton] at h_length
    refine h_length.trans ?_
    omega

/-- A thousand entries and a call, then one more entry, which the second call does not return. -/
theorem not_exact_fullBuffer : ¬ ∀ es : List Event, (machine id).Runs (machine id).init es →
    Exact ((machine id).exec (machine id).init es) := by
  intro h
  -- Every list of events is a run.
  have h_runs (es : List Event) : (machine id).Runs (machine id).init es := by
    induction es using List.reverseRecOn with
    | nil => trivial
    | append_singleton es e ih => exact (Machine.runs_append ..).mpr ⟨ih, trivial, trivial⟩
  -- One entry more than the buffer holds, and the oldest is lost.
  have h_exact := h (.replicate 1000 (.consoleAPICalled .empty none) ++
    [.consoleEntries, .consoleAPICalled .empty none, .consoleEntries]) (h_runs _)
  have h_inv : Inv ((machine id).exec (machine id).init
      (.replicate 1000 (.consoleAPICalled .empty none))) :=
    (h_runs _).reachable.induction .init fun s e _ h_inv _ => h_inv.next e
  rw [Machine.exec_append] at h_exact
  refine h_inv.not_exact ?_ _ h_exact
  rw [length_appended]
  rfl

end BrowserControl.Extension.ConsoleLog
