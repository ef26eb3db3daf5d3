import BrowserControl.Core.OperationsInvariant

/-!
# At most once

What the calls for one operation id do between two purges of its record: the runs of the
callback do not overlap, at most one of them decides the operation, that is ends otherwise than
by asking for a confirmation, a run is admitted while the session is open, and the calls that do
not run return what the record they found says (`atMostOnce`).

Whether an operation is decided can be read off the record of the id (`Decided`): a run of it
has returned with a decision, or the record says so. No other call is admitted from there on
(`Decided.step`), which is the invariant behind the second statement. For the last one, a call
that waits holds on to a record: while the call waits, the record stays that of the id, or it
awaits a confirmation and has been replaced by a resumed run (`Current.step`).

A run may start after its session was closed, and a call that has waited may return that a
confirmation is required after the confirmed run has completed
(`not_atMostOnce_closedSession`).
-/

namespace BrowserControl.Core.Operations

open Encoding Protocol Transition

variable {κ : Type*} [DecidableEq κ] {hash : String → String} {leaseTTL : Duration}

/-- The step does not purge the record of the id. -/
def Keeps (hash : String → String) (id : String) (s : State κ) (e : Event κ) : Prop :=
  s.manager.operations id ≠ none → (next hash s e).manager.operations id ≠ none

instance (hash : String → String) (id : String) (s : State κ) (e : Event κ) :
    Decidable (Keeps hash id s e) := inferInstanceAs (Decidable (_ → _))

/-- The call runs for the id: its record is registered and not completed. -/
def RunsFor (s : State κ) (id : String) (c : κ) : Prop :=
  (s.phase c).isActive = true ∧ (s.calls c).operationID = id

/-- The call for the id whose callback returns a decision at an event. -/
def decisions (id : String) (s : State κ) : Event κ → List κ
  | .finish c outcome => if (s.calls c).operationID = id ∧ ¬ Asks outcome then [c] else []
  | _ => []

/-- The calls for one id, in a run `fs` from `s` in which the record of the id is not purged. -/
structure AtMostOnce (hash : String → String) (leaseTTL : Duration) (id : String) (s : State κ)
    (fs : List (Event κ)) (s' : State κ) : Prop where
  /-- Two runs of the callback do not overlap. -/
  exclusive : ∀ c d, RunsFor s' id c → RunsFor s' id d → c = d
  /-- At most one run ends otherwise than by asking for a confirmation. -/
  decides : ((machine hash leaseTTL).log (decisions id) s fs).length ≤ 1
  /-- A run is admitted only while the session is open. -/
  admits : ∀ e c, enabled s' e → ¬ RunsFor s' id c → RunsFor (next hash s' e) id c →
    SessionOpen s'.manager ((next hash s' e).calls c).sessionID
  /-- A call is refused only if its session is not open or the id has the record of another
  request. -/
  refuses : ∀ c sessionID tabID request now rpcErr,
    (next hash s' (.execute c sessionID tabID id request now)).phase c = .refused rpcErr →
    ¬ SessionOpen s'.manager sessionID ∨ ∃ r, s'.manager.operations id = some r ∧
      ((s'.manager.records r).sessionID ≠ sessionID ∨
        (s'.manager.records r).fingerprint ≠ fingerprint hash request)
  /-- A call that neither runs nor is refused or cancelled returns the outcome of the record it
  found. This is the record of the id, unless it asks for a confirmation. -/
  replays : ∀ e c r outcome, enabled s' e → (s.phase c = .outside) →
    (∀ outcome', s'.phase c ≠ .replayed r outcome') →
    (next hash s' e).phase c = .replayed r outcome → ((next hash s' e).calls c).operationID = id →
    outcome = (s'.manager.records r).outcome ∧
      Describes hash (s'.manager.records r) ((next hash s' e).calls c) ∧
      (s'.manager.operations id = some r ∨ Asks outcome)
  /-- A call waits for a run only. -/
  waits : ∀ c r, s'.phase c = .waiting r → RunsFor s' (s'.calls c).operationID r ∨
    enabled s' (.takeDone c)

/-! ### Bound records -/

/-- A record stays bound to its id, unless it is purged or awaits a confirmation. -/
theorem operations_next {s : State κ} {e : Event κ} {id : String} {r : κ}
    (h_bound : s.manager.operations id = some r) (h_keeps : Keeps hash id s e)
    (h_awaiting : (s.manager.records r).status ≠ .awaitingConfirmation) :
    (next hash s e).manager.operations id = some r := by
  cases e with
  | execute c sessionID tabID operationID request now =>
    have h_execute := executes hash s c now { sessionID, tabID, operationID, request }
    simp only [next]
    generalize s.execute hash c now _ = s' at h_execute ⊢
    cases h_execute with
    | admitted h_id h_open h =>
      -- The id of the new record is bound to none, or to one that awaits a confirmation.
      have h_ne : id ≠ operationID := by
        rintro rfl
        exact h_awaiting (h r h_bound).2
      exact (Function.update_of_ne h_ne ..).trans h_bound
    | _ => exact h_bound
  | takeDone c =>
    simp only [next]
    split <;> exact h_bound
  | record c now =>
    simp only [next]
    split <;> exact h_bound
  | command k now =>
    rcases (k.frame s.manager now).operations id with h_eq | ⟨h_none, -⟩
    · exact h_eq.trans h_bound
    · exact absurd h_none (h_keeps (by rw [h_bound]; exact Option.some_ne_none r))
  | _ => exact h_bound

/-- The callback of the call has returned. -/
def Phase.hasRun : Phase κ → Bool
  | .ended _ => true
  | .recorded _ => true
  | _ => false

omit [DecidableEq κ] in
/-- Only a callback that has returned is recorded. -/
theorem Phase.hasRun_of_recorded {phase : Phase κ} (h : phase.isRecorded = true) :
    phase.hasRun = true := by
  cases phase with
  | recorded outcome => rfl
  | _ => exact absurd h Bool.false_ne_true

omit [DecidableEq κ] in
/-- A call whose callback has returned can do nothing but complete its record. -/
theorem moves_of_hasRun {s : State κ} {e : Event κ} {r : κ} (h_call : e.call? = some r)
    (he : enabled s e) (h : (s.phase r).hasRun = true) :
    ∃ now outcome, e = .record r now ∧ s.phase r = .ended outcome := by
  have h_not : ∀ phase, s.phase r = phase → phase.hasRun = false → False := by
    rintro phase rfl h_run
    rw [h_run] at h
    exact Bool.false_ne_true h
  cases e with
  -- a run that has ended can only be recorded
  | record c now =>
    obtain ⟨outcome, h_ended⟩ := enabled_record.mp he
    rw [Event.call?, Option.some_inj] at h_call
    exact ⟨now, outcome, by rw [h_call], h_call ▸ h_ended⟩
  | command k now => contradiction
  -- every other event of the call needs an earlier phase
  | execute c sessionID tabID operationID request now =>
    rw [Event.call?, Option.some_inj] at h_call
    exact (h_not _ (h_call ▸ enabled_execute.mp he) rfl).elim
  | ctxDone c message =>
    rw [Event.call?, Option.some_inj] at h_call
    obtain ⟨r', h_wait⟩ := enabled_ctxDone.mp he
    exact (h_not _ (h_call ▸ h_wait) rfl).elim
  | takeDone c =>
    rw [Event.call?, Option.some_inj] at h_call
    obtain ⟨r', h_wait, -⟩ := enabled_takeDone.mp he
    exact (h_not _ (h_call ▸ h_wait) rfl).elim
  | invoke c =>
    rw [Event.call?, Option.some_inj] at h_call
    exact (h_not _ (h_call ▸ enabled_invoke.mp he) rfl).elim
  | finish c outcome =>
    rw [Event.call?, Option.some_inj] at h_call
    exact (h_not _ (h_call ▸ enabled_finish.mp he) rfl).elim

/-! ### Decided operations -/

/-- A run for the id has returned with a decision, or its record holds one. -/
def Decided (s : State κ) (id : String) : Prop :=
  ∃ r, s.manager.operations id = some r ∧
    ((∃ outcome, s.phase r = .ended outcome ∧ ¬ Asks outcome) ∨
      (s.phase r).isRecorded = true ∧ (s.manager.records r).status ≠ .awaitingConfirmation)

/-- An id that is decided stays decided while its record is kept. -/
theorem Decided.step {s : State κ} {e : Event κ} {id : String} (hI : Inv hash s)
    (h : Decided s id) (he : enabled s e) (h_keeps : Keeps hash id s e) :
    Decided (next hash s e) id := by
  obtain ⟨r, h_bound, h_phase⟩ := h
  have h_awaiting : (s.manager.records r).status ≠ .awaitingConfirmation := by
    rcases h_phase with ⟨outcome, h_ended, -⟩ | ⟨-, h⟩
    · have h_running := (hI.running r).mpr (by rw [h_ended]; rfl)
      rw [h_running]
      decide
    · exact h
  refine ⟨r, operations_next h_bound h_keeps h_awaiting, ?_⟩
  -- The call itself can only record its outcome, which does not ask for a confirmation.
  by_cases h_call : e.call? = some r
  · have h_run : (s.phase r).hasRun = true := by
      rcases h_phase with ⟨outcome, h_ended, -⟩ | ⟨h_rec, -⟩
      · rw [h_ended]
        rfl
      · exact Phase.hasRun_of_recorded h_rec
    obtain ⟨now, outcome, rfl, h_ended⟩ := moves_of_hasRun h_call he h_run
    have h_asks : ¬ Asks outcome := by
      rcases h_phase with ⟨outcome', h_ended', h_asks⟩ | ⟨h_rec, -⟩
      · rw [h_ended, Phase.ended.injEq] at h_ended'
        exact h_ended' ▸ h_asks
      · rw [h_ended] at h_rec
        exact absurd h_rec Bool.false_ne_true
    simp only [next, h_ended]
    refine .inr ⟨?_, ?_⟩
    · rw [State.record, State.setPhase, State.phase_setCall_self]
      rfl
    · rw [State.record, State.setPhase, State.setCall_manager, State.records_setRecord_self]
      exact fun h_status => h_asks (statusOf_awaiting.mp h_status)
  -- The step is of another call, or a command: these do not make an operation wait.
  · have h_phase_eq : (next hash s e).phase r = s.phase r :=
      congrArg Call.phase (calls_next_of_ne hash s h_call)
    rw [h_phase_eq]
    refine h_phase.imp_right fun h_rec => ⟨h_rec.1, fun h_status => h_awaiting ?_⟩
    have h_same : (next hash s e).manager.records r = s.manager.records r := by
      rcases records_next_of_ne hash s h_call with h_same | ⟨k, now, rfl⟩
      · exact h_same
      · exact ((k.frame s.manager now).evolves r).awaiting h_status
    exact h_same ▸ h_status

/-- A run that returns a decision is the first one to do so, and decides the operation. -/
theorem decisions_spec {s : State κ} {e : Event κ} {id : String} (hI : Inv hash s)
    (he : enabled s e) : decisions id s e = [] ∨
      (decisions id s e).length = 1 ∧ ¬ Decided s id ∧ Decided (next hash s e) id := by
  cases e with
  | finish c outcome =>
    simp only [decisions]
    split
    case isFalse => exact .inl rfl
    case isTrue h_id =>
      obtain ⟨h_id, h_asks⟩ := h_id
      have h_phase := enabled_finish.mp he
      have h_bound : s.manager.operations id = some c := by
        rw [← h_id]
        exact hI.active c (by rw [h_phase]; rfl)
      refine .inr ⟨rfl, ?_, c, h_bound, .inl ⟨outcome, ?_, h_asks⟩⟩
      · rintro ⟨r, h_r, h_run⟩
        -- The id is bound to the record of the call that runs.
        rw [h_bound, Option.some_inj] at h_r
        rw [← h_r, h_phase] at h_run
        rcases h_run with ⟨outcome', h_ended, -⟩ | ⟨h_rec, -⟩
        · contradiction
        · exact Bool.false_ne_true h_rec
      · exact State.phase_setCall_self ..
  | _ => exact .inl rfl

/-! ### The record a call waits for -/

/-- The record is the one of the id, or it awaits a confirmation. -/
def Current (s : State κ) (id : String) (r : κ) : Prop :=
  s.manager.operations id = some r ∨ (s.manager.records r).status = .awaitingConfirmation

/-- The record of an id stays the one of the call that has run. -/
theorem Current.step {s : State κ} {e : Event κ} {id : String} {r : κ} (hI : Inv hash s)
    (h : Current s id r) (h_rec : (s.phase r).hasRecord = true)
    (h_id : (s.calls r).operationID = id) (he : enabled s e) (h_keeps : Keeps hash id s e) :
    Current (next hash s e) id r := by
  by_cases h_awaiting : (s.manager.records r).status = .awaitingConfirmation
  case neg => exact .inl (operations_next (h.resolve_right h_awaiting) h_keeps h_awaiting)
  by_cases h_bound : (next hash s e).manager.operations id = some r
  case pos => exact .inl h_bound
  -- The record has been replaced, so its call is not active and takes no step of its own.
  have h_not_active : (s.phase r).isActive ≠ true := by
    rw [ne_eq, ← hI.running r, h_awaiting]
    decide
  have h_run : (s.phase r).hasRun = true :=
    Phase.hasRun_of_recorded ((Phase.hasRecord_iff.mp h_rec).resolve_left h_not_active)
  have h_call : e.call? ≠ some r := by
    intro h_call
    obtain ⟨now, outcome, -, h_ended⟩ := moves_of_hasRun h_call he h_run
    rw [h_ended] at h_not_active
    exact h_not_active rfl
  right
  rcases records_next_of_ne hash s h_call with h_same | ⟨k, now, rfl⟩
  · rw [h_same]
    exact h_awaiting
  · -- A command does not replace a record, so this one was replaced before.
    have h_unbound : ∀ id', s.manager.operations id' ≠ some r := by
      intro id' h_id'
      rw [← (hI.bound id' r h_id').1, h_id] at h_id'
      rcases (k.frame s.manager now).operations id with h_eq | ⟨h_none, -⟩
      · exact h_bound (h_eq.trans h_id')
      · exact h_keeps (by rw [h_id']; exact Option.some_ne_none r) h_none
    show ((k.run s.manager now).manager.records r).status = _
    rw [(k.frame s.manager now).unbound r h_unbound]
    exact h_awaiting

/-- A call comes to wait for the record its id is bound to. -/
theorem bound_of_waits {s : State κ} {e : Event κ} {c r : κ} (h_call : e.call? = some c)
    (he : enabled s e) (h : (next hash s e).phase c = .waiting r) :
    (next hash s e).manager.operations ((next hash s e).calls c).operationID = some r := by
  -- a call begins to wait when it finds a record under its id
  cases moves hash h_call he with
  | executes h_outside h_execute =>
    generalize next hash s e = s' at h h_execute ⊢
    cases h_execute with
    | waits h_id h_open h_bound =>
      rw [State.phase_setCall_self, Phase.waiting.injEq] at h
      rw [State.calls_setCall_self, ← h]
      exact h_bound
    | admitted =>
      rw [State.register, State.phase_setCall_self] at h
      contradiction
    | _ =>
      rw [State.phase_setCall_self] at h
      contradiction
  | gaveUp h_phase h_next =>
    rw [State.phase, h_next] at h
    contradiction
  | replays h_phase h_done h_next =>
    rw [State.phase, h_next] at h
    contradiction
  | @proceeds phase h_active h_rec h_next =>
    have h_phase : phase = .waiting r := by
      rw [State.phase, h_next] at h
      exact h
    rw [h_phase] at h_rec
    exact absurd h_rec Bool.false_ne_true

/-- What a run has established so far. -/
structure Course (hash : String → String) (leaseTTL : Duration) (id : String) (s : State κ)
    (fs : List (Event κ)) (s' : State κ) : Prop where
  inv : Inv hash s'
  decides : ((machine hash leaseTTL).log (decisions id) s fs).length ≤ 1
  decided : (machine hash leaseTTL).log (decisions id) s fs ≠ [] → Decided s' id
  /-- The calls that came after `s` wait for records that are current. -/
  current : ∀ c r, s.phase c = .outside → s'.phase c = .waiting r →
    (s'.calls c).operationID = id → Current s' id r

/-- One more step of a run. -/
theorem Course.step {id : String} {s s' : State κ} {fs : List (Event κ)} {e : Event κ}
    (h : Course hash leaseTTL id s fs s') (h_exec : (machine hash leaseTTL).exec s fs = s')
    (he : enabled s' e) (h_keeps : Keeps hash id s' e) :
    Course hash leaseTTL id s (fs ++ [e]) (next hash s' e) := by
  have h_log : (machine hash leaseTTL).log (decisions id) s (fs ++ [e]) =
      (machine hash leaseTTL).log (decisions id) s fs ++ decisions id s' e := by
    rw [Machine.log_append, h_exec, Machine.log_cons, Machine.log_nil, List.append_nil]
  refine ⟨h.inv.step he, ?_, ?_, ?_⟩
  -- at most one decision: after the first one the operation is decided
  · rw [h_log, List.length_append]
    rcases decisions_spec h.inv he with h_nil | ⟨h_one, h_not, -⟩
    · rw [h_nil]
      exact h.decides
    · have h_first : (machine hash leaseTTL).log (decisions id) s fs = [] := by
        by_contra h_some
        exact h_not (h.decided h_some)
      rw [h_first, h_one, List.length_nil]
  -- what was decided stays so
  · intro h_some
    rcases decisions_spec h.inv he with h_nil | ⟨-, -, h_decided⟩
    · rw [h_log, h_nil, List.append_nil] at h_some
      exact (h.decided h_some).step h.inv he h_keeps
    · exact h_decided
  -- a call that waits was found under the id, or began to wait just now
  · intro c r h_start h_phase h_id
    by_cases h_call : e.call? = some c
    · exact .inl (h_id ▸ bound_of_waits h_call he h_phase)
    · have h_calls := calls_next_of_ne hash s' h_call
      have h_phase' : s'.phase c = .waiting r := by
        rw [← h_phase, State.phase, State.phase, h_calls]
      rw [h_calls] at h_id
      obtain ⟨h_rec, h_desc⟩ := h.inv.found c r (by rw [h_phase']; rfl)
      have h_id' : (s'.calls r).operationID = id := by
        rw [← (h.inv.describes r h_rec).1.id, h_desc.id, h_id]
      exact (h.current c r h_start h_phase' h_id).step h.inv h_rec h_id' he h_keeps

/-- What has become of an id in a run. -/
theorem course {id : String} {s : State κ} {fs : List (Event κ)}
    (hs : (machine hash leaseTTL).Reachable s)
    (hfs : ((machine hash leaseTTL).restrict (Keeps hash id)).Runs s fs) :
    Course hash leaseTTL id s fs ((machine hash leaseTTL).exec s fs) := by
  refine hfs.history (P := Course hash leaseTTL id s) ?_ ?_
  · refine ⟨Inv.reachable hs, Nat.zero_le 1, fun h => absurd rfl h, ?_⟩
    intro c r h_start h_phase
    rw [h_start] at h_phase
    contradiction
  · rintro es s' e - h_exec h_course ⟨he, h_keeps⟩
    exact h_course.step h_exec he h_keeps

/-! ### At most once -/

/-- A call comes to run for an id when the first critical section admits it. -/
theorem sessionOpen_of_runsFor {s : State κ} {e : Event κ} {c : κ} {id : String}
    (he : enabled s e) (h_not : ¬ RunsFor s id c) (h : RunsFor (next hash s e) id c) :
    SessionOpen s.manager ((next hash s e).calls c).sessionID := by
  obtain ⟨h_active, h_id⟩ := h
  by_cases h_call : e.call? = some c
  -- the event of another call does not make this one run
  case neg =>
    rw [State.phase, calls_next_of_ne hash s h_call] at h_active
    rw [calls_next_of_ne hash s h_call] at h_id
    exact absurd ⟨h_active, h_id⟩ h_not
  cases moves hash h_call he with
  | executes h_outside h_execute =>
    generalize next hash s e = s' at h_active h_id h_execute ⊢
    cases h_execute with
    | admitted h_op h_open =>
      rw [State.register, State.calls_setCall_self]
      exact h_open
    | _ =>
      rw [State.phase_setCall_self] at h_active
      exact absurd h_active Bool.false_ne_true
  | gaveUp h_phase h_next =>
    rw [State.phase, h_next] at h_active
    exact absurd h_active Bool.false_ne_true
  | replays h_phase h_done h_next =>
    rw [State.phase, h_next] at h_active
    exact absurd h_active Bool.false_ne_true
  | proceeds h_was h_rec h_next =>
    rw [h_next] at h_id
    exact absurd ⟨h_was, h_id⟩ h_not

/-- A call that returns what a record says read it in the record it found. -/
theorem replays_record {s : State κ} {e : Event κ} {c r : κ} {outcome : Outcome Json}
    (hI : Inv hash s) (he : enabled s e) (h_not : s.phase c ≠ .replayed r outcome)
    (h : (next hash s e).phase c = .replayed r outcome) :
    outcome = (s.manager.records r).outcome ∧
      Describes hash (s.manager.records r) ((next hash s e).calls c) ∧
      (s.phase c = .waiting r ∧ (next hash s e).calls c = { s.calls c with
          phase := .replayed r outcome } ∧ (s.manager.records r).done = true ∨
        s.manager.operations ((next hash s e).calls c).operationID = some r) := by
  by_cases h_call : e.call? = some c
  -- a step of another call leaves this one
  case neg =>
    rw [State.phase, calls_next_of_ne hash s h_call] at h
    exact absurd h h_not
  cases moves hash h_call he with
  -- the call has found a record that is done
  | executes h_outside h_execute =>
    generalize next hash s e = s' at h h_execute ⊢
    cases h_execute with
    | replays h_op h_open h_bound h_same =>
      rw [State.phase_setCall_self, Phase.replayed.injEq] at h
      obtain ⟨rfl, rfl⟩ := h
      rw [State.calls_setCall_self]
      obtain ⟨h_id, h_rec⟩ := hI.bound _ _ h_bound
      refine ⟨rfl, ⟨?_, h_same.1, h_same.2⟩, .inr h_bound⟩
      exact (hI.describes _ h_rec).1.id.trans h_id
    | admitted =>
      rw [State.register, State.phase_setCall_self] at h
      contradiction
    | _ =>
      rw [State.phase_setCall_self] at h
      contradiction
  | gaveUp h_phase h_next =>
    rw [State.phase, h_next] at h
    contradiction
  -- or it has waited for one
  | @replays r' h_phase h_done h_next =>
    have h_replayed : Phase.replayed r' (s.manager.records r').outcome = .replayed r outcome := by
      rw [State.phase, h_next] at h
      exact h
    rw [Phase.replayed.injEq] at h_replayed
    obtain ⟨rfl, rfl⟩ := h_replayed
    refine ⟨rfl, ?_, .inl ⟨h_phase, h_next, h_done⟩⟩
    obtain ⟨-, h_desc⟩ := hI.found c r' (by rw [h_phase]; rfl)
    rw [h_next]
    exact ⟨h_desc.id, h_desc.session, h_desc.fingerprint⟩
  | @proceeds phase h_active h_rec h_next =>
    have h_phase : phase = .replayed r outcome := by
      rw [State.phase, h_next] at h
      exact h
    rw [h_phase] at h_rec
    exact absurd h_rec Bool.false_ne_true

omit [DecidableEq κ] in
/-- What a record that awaits a confirmation says. -/
theorem Inv.asks {s : State κ} (hI : Inv hash s) {r : κ}
    (h : (s.manager.records r).status = .awaitingConfirmation) :
    Asks (s.manager.records r).outcome := by
  have h_err := hI.awaiting r h
  unfold Operation.outcome
  cases h_some : (s.manager.records r).err with
  | none =>
    rw [h_some] at h_err
    exact absurd h_err (by decide)
  | some rpcErr =>
    rw [h_some] at h_err
    exact h_err

/-- **At most once.** In every run of the manager, as long as the record of an operation is not
purged, its runs do not overlap, one of them at most decides it, they are admitted while the
session is open, and the other calls return what the record they found says. -/
theorem atMostOnce {id : String} (h_id : id ≠ "") {s : State κ} {fs : List (Event κ)}
    (hs : (machine hash leaseTTL).Reachable s)
    (hfs : ((machine hash leaseTTL).restrict (Keeps hash id)).Runs s fs) :
    AtMostOnce hash leaseTTL id s fs ((machine hash leaseTTL).exec s fs) := by
  have h_course := course hs hfs
  generalize (machine hash leaseTTL).exec s fs = s' at h_course ⊢
  have hI := h_course.inv
  refine ⟨?_, h_course.decides, ?_, ?_, ?_, ?_⟩
  · rintro c d ⟨h_c, h_c_id⟩ ⟨h_d, h_d_id⟩
    -- The id is bound to both records.
    have h_bound := hI.active c h_c
    rw [h_c_id, ← h_d_id, hI.active d h_d, Option.some_inj] at h_bound
    exact h_bound.symm
  · exact fun e c he h_not h => sessionOpen_of_runsFor he h_not h
  -- a refusal: the session is closed, or another request has the id
  · intro c sessionID tabID request now rpcErr h
    have h_execute := executes hash s' c now { sessionID, tabID, operationID := id, request }
    simp only [next] at h
    generalize s'.execute hash c now _ = s'' at h h_execute
    cases h_execute with
    | refused rpcErr' h_why =>
      rcases h_why with h_empty | h_closed | ⟨r, h_bound, h_other⟩
      · exact absurd h_empty h_id
      · exact .inl h_closed
      · exact .inr ⟨r, h_bound, not_and_or.mp h_other⟩
    | admitted =>
      rw [State.register, State.phase_setCall_self] at h
      contradiction
    | _ =>
      rw [State.phase_setCall_self] at h
      contradiction
  -- a replay: what was recorded, under the id
  · intro e c r outcome he h_start h_not h h_op
    obtain ⟨h_outcome, h_desc, h_found⟩ := replays_record hI he (h_not outcome) h
    refine ⟨h_outcome, h_desc, ?_⟩
    rcases h_found with ⟨h_wait, h_next, -⟩ | h_bound
    · have h_call_id : (s'.calls c).operationID = id := by
        rw [h_next] at h_op
        exact h_op
      rcases h_course.current c r h_start h_wait h_call_id with h_bound | h_awaiting
      · exact .inl h_bound
      · rw [h_outcome]
        exact .inr (hI.asks h_awaiting)
    · rw [h_op] at h_bound
      exact .inl h_bound
  -- nobody waits in vain: the record is active, or done
  · intro c r h_wait
    obtain ⟨h_rec, h_desc⟩ := hI.found c r (by rw [h_wait]; rfl)
    rcases Phase.hasRecord_iff.mp h_rec with h_active | h_recorded
    · refine .inl ⟨h_active, ?_⟩
      rw [← (hI.describes r h_rec).1.id, h_desc.id]
    · exact .inr (enabled_takeDone.mpr ⟨r, h_wait, (hI.done r).mpr h_recorded⟩)

/-- An error that asks for a confirmation. -/
def confirmationRequired : RPCError :=
  newError codeConfirmationNeeded "CONFIRMATION_REQUIRED" "confirmation required" true .empty

/-- The confirmed run completes before the call that waits for the first run wakes up. -/
def confirmedBeforeWakeup : List (Event ℕ) :=
  [.command (.openSession "ses_1" "" "") 0, .execute 0 "ses_1" "" "op_1" .empty 1, .invoke 0,
    .execute 1 "ses_1" "" "op_1" .empty 2, .finish 0 (.error confirmationRequired), .record 0 3,
    .execute 2 "ses_1" "" "op_1" .empty 4, .invoke 2, .finish 2 (.ok .null), .record 2 5,
    .takeDone 1]

/-- A confirmed operation runs twice and is decided once. -/
theorem atMostOnce_confirmed : AtMostOnce id 0 "op_1" (machine id 0).init confirmedBeforeWakeup
    ((machine id 0).exec (machine id 0).init confirmedBeforeWakeup) :=
  atMostOnce (by decide) .init (by decide)

/-! ### What the calls do not do -/

/-- The session is closed after the run is admitted and before it starts. -/
def closedBeforeStart : List (Event ℕ) :=
  [.command (.openSession "ses_1" "" "") 0, .execute 0 "ses_1" "" "op_1" .empty 1,
    .command (.closeSession "ses_1" "") 2]

/-- A run may start after its session was closed, and a call may return that a confirmation is
required although the record of the id says that the operation completed. -/
theorem not_atMostOnce_closedSession :
    (∃ (es : List (Event ℕ)) (c : ℕ),
      (machine id 0).Runs (machine id 0).init (es ++ [.invoke c]) ∧
        ¬ SessionOpen ((machine id 0).exec (machine id 0).init es).manager
          (((machine id 0).exec (machine id 0).init es).calls c).sessionID) ∧
      ∃ (es : List (Event ℕ)) (s : State ℕ) (c r r' : ℕ) (outcome : Outcome Json),
        (machine id 0).Runs (machine id 0).init es ∧
          (machine id 0).exec (machine id 0).init es = s ∧
          (∀ now, .command .janitor now ∉ es) ∧ s.phase c = .replayed r outcome ∧
          s.manager.operations (s.calls c).operationID = some r' ∧
          outcome ≠ (s.manager.records r').outcome := by
  refine ⟨⟨closedBeforeStart, 0, by decide, ?_⟩,
    ⟨confirmedBeforeWakeup, _, 1, 0, 2, .error confirmationRequired, by decide, rfl, ?_, rfl, rfl,
      ?_⟩⟩
  -- the session is closed in the state that is reached
  · rintro ⟨session, h_session, h_open⟩
    cases h_session
    contradiction
  · intro now h
    simp [confirmedBeforeWakeup] at h
  · rintro ⟨⟩

end BrowserControl.Core.Operations
