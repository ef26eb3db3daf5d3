import BrowserControl.Core.Operations

/-!
# Records and calls

The invariant behind `ExecuteOperation`: while a call is active, that is from the registration
of its record until the record is completed, the operation id of the call is bound to that
record and the record is running (`Inv.active`, `Inv.running`). An id is bound to one record, so
the active calls of an id are one at most.

Commands only touch records (`Command.frame`), and of an active call's record nothing but
whether its context is cancelled (`Inv.commands`). The steps of a call are of three kinds: a
call without a record moves on without one (`Inv.moves`) or registers one (`Inv.registers`),
and an active call moves on with its record (`Inv.proceeds`).
-/

namespace BrowserControl.Core.Operations

open Encoding Protocol Transition

variable {κ : Type*} [DecidableEq κ] {hash : String → String} {leaseTTL : Duration}

/-! ### What a call has of its record -/

/-- The record of the call is registered and not completed. -/
def Phase.isActive : Phase κ → Bool
  | .admitted => true
  | .running => true
  | .ended _ => true
  | _ => false

/-- The record of the call is completed. -/
def Phase.isRecorded : Phase κ → Bool
  | .recorded _ => true
  | _ => false

/-- The call has registered a record. -/
def Phase.hasRecord (phase : Phase κ) : Bool := phase.isActive || phase.isRecorded

/-- The record of another call that the call has found. -/
def Phase.found : Phase κ → Option κ
  | .waiting record => some record
  | .replayed record _ => some record
  | _ => none

/-- The record of another call whose outcome the call has returned. -/
def Phase.replays : Phase κ → Option κ
  | .replayed record _ => some record
  | _ => none

/-- The record is about the request of the call. -/
structure Describes (hash : String → String) (op : Operation) (call : Call κ) : Prop where
  id : op.id = call.operationID
  session : op.sessionID = call.sessionID
  fingerprint : op.fingerprint = fingerprint hash call.request

/-- The invariant of the records. -/
structure Inv (hash : String → String) (s : State κ) : Prop where
  /-- The id of an active call is bound to the record of the call. -/
  active : ∀ c, (s.phase c).isActive = true →
    s.manager.operations (s.calls c).operationID = some c
  /-- The records that run are those of the active calls. -/
  running : ∀ c, (s.manager.records c).status = .running ↔ (s.phase c).isActive = true
  /-- The records that are done are those of the calls that have completed theirs. -/
  done : ∀ c, (s.manager.records c).done = true ↔ (s.phase c).isRecorded = true
  /-- An id is bound to the record of a call for that id. -/
  bound : ∀ id c, s.manager.operations id = some c →
    (s.calls c).operationID = id ∧ (s.phase c).hasRecord = true
  describes : ∀ c, (s.phase c).hasRecord = true →
    Describes hash (s.manager.records c) (s.calls c) ∧
      (s.manager.records c).tabID = (s.calls c).tabID
  /-- A call finds a record of its own request. -/
  found : ∀ c r, (s.phase c).found = some r →
    (s.phase r).hasRecord = true ∧ Describes hash (s.manager.records r) (s.calls c)
  /-- A record awaits a confirmation only if its run has asked for one. -/
  awaiting : ∀ c, (s.manager.records c).status = .awaitingConfirmation →
    errorKind (s.manager.records c).err = "CONFIRMATION_REQUIRED"

omit [DecidableEq κ] in
/-- A call that is active has a record. -/
theorem Phase.hasRecord_of_active {phase : Phase κ} (h : phase.isActive = true) :
    phase.hasRecord = true := by
  rw [Phase.hasRecord, h, Bool.true_or]

omit [DecidableEq κ] in
/-- A call has a record from when it is active. -/
theorem Phase.hasRecord_iff {phase : Phase κ} :
    phase.hasRecord = true ↔ phase.isActive = true ∨ phase.isRecorded = true := by
  rw [Phase.hasRecord, Bool.or_eq_true]

omit [DecidableEq κ] in
/-- The outcome of an active call is not recorded yet. -/
theorem Phase.not_recorded_of_active {phase : Phase κ} (h : phase.isActive = true) :
    phase.isRecorded = false := by
  cases phase <;> first | rfl | exact absurd h (by simp [isActive])

omit [DecidableEq κ] in
/-- A call with a record of its own has found none. -/
theorem Phase.found_of_hasRecord {phase : Phase κ} (h : phase.hasRecord = true) :
    phase.found = none := by
  cases phase <;> first | rfl | exact absurd h Bool.false_ne_true

omit [DecidableEq κ] in
/-- A call that replays has found a record. -/
theorem Phase.found_of_replays {phase : Phase κ} {r : κ} (h : phase.replays = some r) :
    phase.found = some r := by
  cases phase <;> first | exact h | contradiction

omit [DecidableEq κ] in
/-- A record describes the same call when it evolves. -/
theorem Describes.of_evolves {op op' : Operation} {call : Call κ} (h_op : Describes hash op call)
    (h : op.Evolves op') : Describes hash op' call where
  id := h.id_eq.trans h_op.id
  session := h.sessionID_eq.trans h_op.session
  fingerprint := h.fingerprint_eq.trans h_op.fingerprint

omit [DecidableEq κ] in
/-- A record describes a call wherever it stands. -/
theorem Describes.phase {op : Operation} {call : Call κ} (h : Describes hash op call)
    (phase : Phase κ) : Describes hash op { call with phase } := ⟨h.id, h.session, h.fingerprint⟩

/-- No outcome leaves an operation running. -/
theorem statusOf_ne_running (outcome : Outcome Json) : statusOf outcome ≠ .running := by
  unfold statusOf
  split
  · rintro ⟨⟩
  · split
    · rintro ⟨⟩
    · split <;> rintro ⟨⟩

/-- The outcome asks for a confirmation. -/
def Asks (outcome : Outcome Json) : Prop :=
  errorKind (rpcError outcome) = "CONFIRMATION_REQUIRED"

instance (outcome : Outcome Json) : Decidable (Asks outcome) :=
  inferInstanceAs (Decidable (_ = _))

/-- An operation awaits a confirmation if its outcome asks for one. -/
theorem statusOf_awaiting {outcome : Outcome Json} :
    statusOf outcome = .awaitingConfirmation ↔ Asks outcome := by
  unfold statusOf
  split
  case isTrue h => exact iff_of_true rfl h
  case isFalse h =>
    refine iff_of_false ?_ h
    split
    · rintro ⟨⟩
    · split <;> rintro ⟨⟩

/-! ### Updates -/

@[simp] theorem State.setCall_manager (s : State κ) (c : κ) (call : Call κ) :
    (s.setCall c call).manager = s.manager := rfl

@[simp] theorem State.setRecord_calls (s : State κ) (c : κ) (op : Operation) :
    (s.setRecord c op).calls = s.calls := rfl

@[simp] theorem State.setRecord_phase (s : State κ) (c d : κ) (op : Operation) :
    (s.setRecord c op).phase d = s.phase d := rfl

@[simp] theorem State.setRecord_operations (s : State κ) (c : κ) (op : Operation) :
    (s.setRecord c op).manager.operations = s.manager.operations := rfl

theorem State.calls_setCall_self (s : State κ) (c : κ) (call : Call κ) :
    (s.setCall c call).calls c = call := Function.update_self ..

theorem State.calls_setCall_of_ne (s : State κ) {c d : κ} (h : d ≠ c) (call : Call κ) :
    (s.setCall c call).calls d = s.calls d := Function.update_of_ne h ..

theorem State.phase_setCall_self (s : State κ) (c : κ) (call : Call κ) :
    (s.setCall c call).phase c = call.phase := by
  rw [State.phase, State.calls_setCall_self]

theorem State.phase_setCall_of_ne (s : State κ) {c d : κ} (h : d ≠ c) (call : Call κ) :
    (s.setCall c call).phase d = s.phase d := by
  rw [State.phase, State.calls_setCall_of_ne s h, State.phase]

theorem State.records_setRecord_self (s : State κ) (c : κ) (op : Operation) :
    (s.setRecord c op).manager.records c = op := Function.update_self ..

theorem State.records_setRecord_of_ne (s : State κ) {c d : κ} (h : d ≠ c) (op : Operation) :
    (s.setRecord c op).manager.records d = s.manager.records d := Function.update_of_ne h ..

/-! ### Single steps -/

/-- A call without a record moves on without one. -/
theorem Inv.moves {s : State κ} (hI : Inv hash s) {c : κ} {call : Call κ}
    (h_old : (s.phase c).hasRecord = false) (h_new : call.phase.hasRecord = false)
    (h_found : ∀ r, call.phase.found = some r →
      (s.phase r).hasRecord = true ∧ Describes hash (s.manager.records r) call) :
    Inv hash (s.setCall c call) := by
  -- Whoever has a record is another call, and stays as it is.
  have h_ne : ∀ d, (s.phase d).hasRecord = true → d ≠ c := by
    rintro d h rfl
    rw [h_old] at h
    exact absurd h (by decide)
  have h_phase : ∀ d, (((s.setCall c call).phase d).isActive = (s.phase d).isActive) ∧
      (((s.setCall c call).phase d).isRecorded = (s.phase d).isRecorded) := by
    intro d
    by_cases h_eq : d = c
    · rw [h_eq, State.phase_setCall_self]
      rw [Phase.hasRecord, Bool.or_eq_false_iff] at h_old h_new
      rw [h_old.1, h_old.2, h_new.1, h_new.2]
      exact ⟨rfl, rfl⟩
    · rw [State.phase_setCall_of_ne s h_eq]
      exact ⟨rfl, rfl⟩
  have h_has : ∀ d, ((s.setCall c call).phase d).hasRecord = (s.phase d).hasRecord := by
    intro d
    rw [Phase.hasRecord, Phase.hasRecord, (h_phase d).1, (h_phase d).2]
  refine ⟨?_, ?_, ?_, ?_, ?_, ?_, hI.awaiting⟩
  -- `active`
  · intro d hd
    rw [(h_phase d).1] at hd
    rw [State.calls_setCall_of_ne s (h_ne d (Phase.hasRecord_of_active hd))]
    exact hI.active d hd
  -- `running` and `done`
  · intro d
    rw [(h_phase d).1]
    exact hI.running d
  · intro d
    rw [(h_phase d).2]
    exact hI.done d
  -- `bound`
  · intro id d hd
    obtain ⟨h_id, h_rec⟩ := hI.bound id d hd
    rw [h_has d, State.calls_setCall_of_ne s (h_ne d h_rec)]
    exact ⟨h_id, h_rec⟩
  · intro d hd
    rw [h_has d] at hd
    rw [State.calls_setCall_of_ne s (h_ne d hd)]
    exact hI.describes d hd
  -- `found`: here the call itself may be new
  · intro d r hd
    rw [h_has r]
    by_cases h_eq : d = c
    · rw [h_eq, State.phase_setCall_self] at hd
      rw [h_eq, State.calls_setCall_self]
      exact h_found r hd
    · rw [State.phase_setCall_of_ne s h_eq] at hd
      rw [State.calls_setCall_of_ne s h_eq]
      exact hI.found d r hd

/-- A call without a record registers one, for an id that is bound to none or to one that
awaits a confirmation. -/
theorem Inv.registers {s : State κ} (hI : Inv hash s) {c : κ} {call : Call κ} {now : Time}
    (h_old : (s.phase c).hasRecord = false)
    (h_free : ∀ r, s.manager.operations call.operationID = some r →
      (s.manager.records r).status = .awaitingConfirmation) :
    Inv hash (s.register hash c now call) := by
  have h_ne : ∀ d, (s.phase d).hasRecord = true → d ≠ c := by
    rintro d h rfl
    rw [h_old] at h
    exact absurd h (by decide)
  -- The record the id was bound to does not run, so no active call is for this id.
  have h_other : ∀ d, (s.phase d).isActive = true →
      (s.calls d).operationID ≠ call.operationID := by
    intro d hd h_id
    have h_bound := hI.active d hd
    rw [h_id] at h_bound
    have h_running := (hI.running d).mpr hd
    rw [h_free d h_bound] at h_running
    exact absurd h_running (by decide)
  -- What the registration does to the call, its record and its id, and to nothing else.
  have h_call : (s.register hash c now call).calls c = { call with phase := .admitted } :=
    State.calls_setCall_self ..
  have h_calls : ∀ d, d ≠ c → (s.register hash c now call).calls d = s.calls d :=
    fun d h => State.calls_setCall_of_ne _ h _
  have h_phase : (s.register hash c now call).phase c = .admitted :=
    congrArg Call.phase h_call
  have h_phases : ∀ d, d ≠ c → (s.register hash c now call).phase d = s.phase d :=
    fun d h => congrArg Call.phase (h_calls d h)
  have h_record : (s.register hash c now call).manager.records c =
      { id := call.operationID
        sessionID := call.sessionID
        tabID := call.tabID
        fingerprint := fingerprint hash call.request
        status := .running
        createdAt := now } := State.records_setRecord_self ..
  have h_records : ∀ d, d ≠ c →
      (s.register hash c now call).manager.records d = s.manager.records d :=
    fun d h => State.records_setRecord_of_ne _ h _
  have h_ops : (s.register hash c now call).manager.operations =
      Function.update s.manager.operations call.operationID (some c) := rfl
  refine ⟨?_, ?_, ?_, ?_, ?_, ?_, ?_⟩
  -- `active`
  · intro d hd
    by_cases h_eq : d = c
    · rw [h_eq, h_call, h_ops]
      exact Function.update_self ..
    · rw [h_phases d h_eq] at hd
      rw [h_calls d h_eq, h_ops, Function.update_of_ne (h_other d hd)]
      exact hI.active d hd
  -- `running`
  · intro d
    by_cases h_eq : d = c
    · rw [h_eq, h_record, h_phase]
      exact iff_of_true rfl rfl
    · rw [h_records d h_eq, h_phases d h_eq]
      exact hI.running d
  -- `done`
  · intro d
    by_cases h_eq : d = c
    · rw [h_eq, h_record, h_phase]
      exact iff_of_false Bool.false_ne_true Bool.false_ne_true
    · rw [h_records d h_eq, h_phases d h_eq]
      exact hI.done d
  -- `bound`: the id is now that of the new record
  · intro id d hd
    rw [h_ops] at hd
    by_cases h_id : id = call.operationID
    · rw [h_id, Function.update_self, Option.some_inj] at hd
      rw [← hd, h_call, h_phase]
      exact ⟨h_id.symm, rfl⟩
    · rw [Function.update_of_ne h_id] at hd
      obtain ⟨h_bound, h_rec⟩ := hI.bound id d hd
      rw [h_calls d (h_ne d h_rec), h_phases d (h_ne d h_rec)]
      exact ⟨h_bound, h_rec⟩
  -- `describes`
  · intro d hd
    by_cases h_eq : d = c
    · rw [h_eq, h_record, h_call]
      exact ⟨⟨rfl, rfl, rfl⟩, rfl⟩
    · rw [h_phases d h_eq] at hd
      rw [h_records d h_eq, h_calls d h_eq]
      exact hI.describes d hd
  -- `found`: the calls that wait are for older records
  · intro d r hd
    by_cases h_eq : d = c
    · rw [h_eq, h_phase] at hd
      contradiction
    · rw [h_phases d h_eq] at hd
      obtain ⟨h_rec, h_desc⟩ := hI.found d r hd
      rw [h_phases r (h_ne r h_rec), h_records r (h_ne r h_rec), h_calls d h_eq]
      exact ⟨h_rec, h_desc⟩
  -- `awaiting`
  · intro d hd
    by_cases h_eq : d = c
    · rw [h_eq, h_record] at hd
      contradiction
    · rw [h_records d h_eq] at hd ⊢
      exact hI.awaiting d hd

/-- An active call moves on with its record. -/
theorem Inv.proceeds {s : State κ} (hI : Inv hash s) {c : κ} {op : Operation} {phase : Phase κ}
    (h_old : (s.phase c).isActive = true) (h_new : phase.hasRecord = true)
    (h_id : op.id = (s.manager.records c).id)
    (h_session : op.sessionID = (s.manager.records c).sessionID)
    (h_tab : op.tabID = (s.manager.records c).tabID)
    (h_print : op.fingerprint = (s.manager.records c).fingerprint)
    (h_running : op.status = .running ↔ phase.isActive = true)
    (h_done : op.done = true ↔ phase.isRecorded = true)
    (h_awaiting : op.status = .awaitingConfirmation →
      errorKind op.err = "CONFIRMATION_REQUIRED") :
    Inv hash ((s.setRecord c op).setPhase c phase) := by
  have h_has := Phase.hasRecord_of_active h_old
  -- What the step does to the call and its record, and to nothing else.
  have h_call : ((s.setRecord c op).setPhase c phase).calls c = { s.calls c with phase } :=
    State.calls_setCall_self ..
  have h_calls : ∀ d, d ≠ c → ((s.setRecord c op).setPhase c phase).calls d = s.calls d :=
    fun d h => State.calls_setCall_of_ne _ h _
  have h_phase : ((s.setRecord c op).setPhase c phase).phase c = phase :=
    congrArg Call.phase h_call
  have h_phases : ∀ d, d ≠ c → ((s.setRecord c op).setPhase c phase).phase d = s.phase d :=
    fun d h => congrArg Call.phase (h_calls d h)
  have h_record : ((s.setRecord c op).setPhase c phase).manager.records c = op :=
    State.records_setRecord_self ..
  have h_records : ∀ d, d ≠ c →
      ((s.setRecord c op).setPhase c phase).manager.records d = s.manager.records d :=
    fun d h => State.records_setRecord_of_ne _ h _
  have h_ops : ((s.setRecord c op).setPhase c phase).manager.operations =
      s.manager.operations := rfl
  refine ⟨?_, ?_, ?_, ?_, ?_, ?_, ?_⟩
  -- `active`
  · intro d hd
    by_cases h_eq : d = c
    · rw [h_eq, h_call, h_ops]
      exact hI.active c h_old
    · rw [h_phases d h_eq] at hd
      rw [h_calls d h_eq, h_ops]
      exact hI.active d hd
  -- `running`
  · intro d
    by_cases h_eq : d = c
    · rw [h_eq, h_record, h_phase]
      exact h_running
    · rw [h_records d h_eq, h_phases d h_eq]
      exact hI.running d
  -- `done`
  · intro d
    by_cases h_eq : d = c
    · rw [h_eq, h_record, h_phase]
      exact h_done
    · rw [h_records d h_eq, h_phases d h_eq]
      exact hI.done d
  -- `bound`
  · intro id d hd
    obtain ⟨h_bound, h_rec⟩ := hI.bound id d hd
    by_cases h_eq : d = c
    · rw [h_eq] at h_bound ⊢
      rw [h_call, h_phase]
      exact ⟨h_bound, h_new⟩
    · rw [h_calls d h_eq, h_phases d h_eq]
      exact ⟨h_bound, h_rec⟩
  -- `describes`
  · intro d hd
    by_cases h_eq : d = c
    · obtain ⟨h_desc, h_tabs⟩ := hI.describes c h_has
      rw [h_eq, h_record, h_call]
      exact ⟨⟨h_id.trans h_desc.id, h_session.trans h_desc.session,
        h_print.trans h_desc.fingerprint⟩, h_tab.trans h_tabs⟩
    · rw [h_phases d h_eq] at hd
      rw [h_records d h_eq, h_calls d h_eq]
      exact hI.describes d hd
  -- `found`: who waits is not active, so it is another call
  · intro d r hd
    have h_ne : d ≠ c := by
      rintro rfl
      rw [h_phase] at hd
      rw [Phase.found_of_hasRecord h_new] at hd
      contradiction
    rw [h_phases d h_ne] at hd
    obtain ⟨h_rec, h_desc⟩ := hI.found d r hd
    rw [h_calls d h_ne]
    by_cases h_eq : r = c
    · rw [h_eq] at h_desc ⊢
      rw [h_phase, h_record]
      exact ⟨h_new, h_id.trans h_desc.id, h_session.trans h_desc.session,
        h_print.trans h_desc.fingerprint⟩
    · rw [h_phases r h_eq, h_records r h_eq]
      exact ⟨h_rec, h_desc⟩
  -- `awaiting`
  · intro d hd
    by_cases h_eq : d = c
    · rw [h_eq, h_record] at hd ⊢
      exact h_awaiting hd
    · rw [h_records d h_eq] at hd ⊢
      exact hI.awaiting d hd

omit [DecidableEq κ] in
/-- A command leaves the calls alone, and the records to those that run. -/
theorem Inv.commands {s : State κ} (hI : Inv hash s) {m : Manager κ}
    (hF : s.manager.Frame m) : Inv hash { s with manager := m } where
  active c hc := hF.of_running (hI.active c hc) ((hI.running c).mpr hc)
  running c := ((hF.evolves c).running_iff).trans (hI.running c)
  done c := by
    show (m.records c).done = true ↔ _
    rw [(hF.evolves c).done_eq]
    exact hI.done c
  bound id c hc := hI.bound id c (hF.of_bound hc)
  -- a record keeps what it describes, whatever becomes of its status
  describes c hc := by
    obtain ⟨h_desc, h_tab⟩ := hI.describes c hc
    exact ⟨h_desc.of_evolves (hF.evolves c), (hF.evolves c).tabID_eq.trans h_tab⟩
  found c r hc := by
    obtain ⟨h_rec, h_desc⟩ := hI.found c r hc
    exact ⟨h_rec, h_desc.of_evolves (hF.evolves r)⟩
  awaiting c hc := by
    have h_same : m.records c = s.manager.records c := (hF.evolves c).awaiting hc
    show errorKind (m.records c).err = _
    rw [h_same]
    exact hI.awaiting c (h_same ▸ hc)

/-! ### The first critical section -/

omit [DecidableEq κ] in
/-- The session is open. -/
def SessionOpen (m : Manager κ) (sessionID : String) : Prop :=
  ∃ session, m.sessions sessionID = some session ∧ session.status = .open

omit [DecidableEq κ] in
/-- Whoever gets past the check has an open session. -/
theorem openSessionLocked_ok {m : Manager κ} {sessionID : String} {session : Session}
    (h : m.openSessionLocked sessionID = .ok session) : SessionOpen m sessionID := by
  unfold Manager.openSessionLocked at h
  split at h
  · contradiction
  case h_2 session' h_session =>
    split at h
    case isTrue h_open => exact ⟨session', h_session, h_open⟩
    case isFalse => contradiction

omit [DecidableEq κ] in
/-- Whoever does not get past the check has none. -/
theorem openSessionLocked_error {m : Manager κ} {sessionID : String} {rpcErr : RPCError}
    (h : m.openSessionLocked sessionID = .error rpcErr) : ¬ SessionOpen m sessionID := by
  rintro ⟨session, h_session, h_open⟩
  rw [Manager.openSessionLocked, h_session] at h
  simp [h_open] at h

/-- The record is about the request that a call makes. -/
def SameRequest (hash : String → String) (op : Operation) (call : Call κ) : Prop :=
  op.sessionID = call.sessionID ∧ op.fingerprint = fingerprint hash call.request

/-- Everything the first critical section can do. -/
inductive Executes (hash : String → String) (s : State κ) (c : κ) (now : Time) (call : Call κ) :
    State κ → Prop where
  | refused (rpcErr : RPCError)
      (h : call.operationID = "" ∨ ¬ SessionOpen s.manager call.sessionID ∨
        ∃ r, s.manager.operations call.operationID = some r ∧
          ¬ SameRequest hash (s.manager.records r) call) :
      Executes hash s c now call (s.setCall c { call with phase := .refused rpcErr })
  | admitted (h_id : call.operationID ≠ "") (h_open : SessionOpen s.manager call.sessionID)
      (h : ∀ r, s.manager.operations call.operationID = some r →
        SameRequest hash (s.manager.records r) call ∧
          (s.manager.records r).status = .awaitingConfirmation) :
      Executes hash s c now call (s.register hash c now call)
  | waits (h_id : call.operationID ≠ "") (h_open : SessionOpen s.manager call.sessionID) {r : κ}
      (h : s.manager.operations call.operationID = some r)
      (h_same : SameRequest hash (s.manager.records r) call)
      (h_running : (s.manager.records r).status = .running) :
      Executes hash s c now call (s.setCall c { call with phase := .waiting r })
  | replays (h_id : call.operationID ≠ "") (h_open : SessionOpen s.manager call.sessionID) {r : κ}
      (h : s.manager.operations call.operationID = some r)
      (h_same : SameRequest hash (s.manager.records r) call)
      (h_running : (s.manager.records r).status ≠ .running)
      (h_awaiting : (s.manager.records r).status ≠ .awaitingConfirmation) :
      Executes hash s c now call
        (s.setCall c { call with phase := .replayed r (s.manager.records r).outcome })

/-- Every branch of `ExecuteOperation` is listed. -/
theorem executes (hash : String → String) (s : State κ) (c : κ) (now : Time) (call : Call κ) :
    Executes hash s c now call (s.execute hash c now call) := by
  unfold State.execute
  -- the session is looked at first, then the id
  split
  case isTrue h_id => exact .refused _ (.inl h_id)
  case isFalse h_id =>
    split
    case h_1 rpcErr h_session =>
      exact .refused rpcErr (.inr (.inl (openSessionLocked_error h_session)))
    case h_2 h_session =>
      have h_open := openSessionLocked_ok h_session
      split
      case h_1 h_none =>
        refine .admitted h_id h_open fun r hr => ?_
        rw [h_none] at hr
        contradiction
      case h_2 r h_bound =>
        dsimp only
        split
        case isTrue h_other =>
          refine .refused _ (.inr (.inr ⟨r, h_bound, ?_⟩))
          rintro ⟨h_session, h_print⟩
          exact h_other.elim (fun h => h h_session) fun h => h h_print
        case isFalse h_other =>
          rw [not_or, not_not, not_not] at h_other
          split
          case h_1 h_awaiting =>
            refine .admitted h_id h_open fun r' hr' => ?_
            rw [h_bound, Option.some_inj] at hr'
            exact hr' ▸ ⟨h_other, h_awaiting⟩
          case h_2 h_running => exact .waits h_id h_open h_bound h_other h_running
          case h_3 h_running h_awaiting =>
            exact .replays h_id h_open h_bound h_other h_awaiting h_running

omit [DecidableEq κ] in
/-- An open session gets past the check. -/
theorem openSessionLocked_of_open {m : Manager κ} {sessionID : String}
    (h : SessionOpen m sessionID) : ∃ session, m.openSessionLocked sessionID = .ok session := by
  cases h_locked : m.openSessionLocked sessionID with
  | error rpcErr => exact absurd h (openSessionLocked_error h_locked)
  | ok session => exact ⟨session, rfl⟩

/-- An id that is bound to a record of another request is refused. -/
theorem execute_conflict {s : State κ} {c r : κ} {now : Time} {call : Call κ}
    (h_id : call.operationID ≠ "") (h_open : SessionOpen s.manager call.sessionID)
    (h : s.manager.operations call.operationID = some r)
    (h_other : ¬ SameRequest hash (s.manager.records r) call) :
    s.execute hash c now call =
      s.setCall c { call with phase := .refused (operationConflict call.operationID) } := by
  obtain ⟨session, h_session⟩ := openSessionLocked_of_open h_open
  unfold State.execute
  rw [if_neg h_id, h_session, h]
  exact if_pos (not_and_or.mp h_other)

/-! ### The invariant in every run -/

section Enabled

variable {s : State κ} {c : κ}

omit [DecidableEq κ]

/-- A call is made once. -/
theorem enabled_execute {sessionID tabID operationID : String} {request : Object} {now : Time} :
    enabled s (.execute c sessionID tabID operationID request now) ↔ s.phase c = .outside := by
  cases h : s.phase c <;> simp [enabled, h]

/-- Only a call that waits looks at its context. -/
theorem enabled_ctxDone {message : String} :
    enabled s (.ctxDone c message) ↔ ∃ r, s.phase c = .waiting r := by
  cases h : s.phase c <;> simp [enabled, h]

/-- A call that waits goes on when the record is done. -/
theorem enabled_takeDone :
    enabled s (.takeDone c) ↔ ∃ r, s.phase c = .waiting r ∧ (s.manager.records r).done = true := by
  cases h : s.phase c <;> simp [enabled, h]

/-- Only an admitted call runs its callback. -/
theorem enabled_invoke : enabled s (.invoke c) ↔ s.phase c = .admitted := by
  cases h : s.phase c <;> simp [enabled, h]

/-- Only a callback that runs returns. -/
theorem enabled_finish {outcome : Outcome Json} :
    enabled s (.finish c outcome) ↔ s.phase c = .running := by
  cases h : s.phase c <;> simp [enabled, h]

/-- Only what has been returned is recorded. -/
theorem enabled_record {now : Time} :
    enabled s (.record c now) ↔ ∃ outcome, s.phase c = .ended outcome := by
  cases h : s.phase c <;> simp [enabled, h]

end Enabled

omit [DecidableEq κ] in
theorem Inv.init : Inv hash ({ manager := .new leaseTTL } : State κ) where
  active c h := absurd h Bool.false_ne_true
  running c := iff_of_false (by simp [Manager.new, Manager.unregistered]) Bool.false_ne_true
  done c := iff_of_false Bool.false_ne_true Bool.false_ne_true
  bound id c h := by contradiction
  describes c h := absurd h Bool.false_ne_true
  found c r h := by contradiction
  awaiting c h := by contradiction

/-- `ExecuteOperation` registers a record, finds one or returns an error. -/
theorem Inv.execute {s : State κ} (hI : Inv hash s) {c : κ} (h_outside : s.phase c = .outside)
    (now : Time) (call : Call κ) : Inv hash (s.execute hash c now call) := by
  have h_old : (s.phase c).hasRecord = false := by
    rw [h_outside]
    rfl
  -- The record that the id is bound to is about this request.
  have h_found : ∀ {r : κ}, s.manager.operations call.operationID = some r →
      SameRequest hash (s.manager.records r) call → ∀ (phase : Phase κ) r', some r = some r' →
      (s.phase r').hasRecord = true ∧
        Describes hash (s.manager.records r') { call with phase } := by
    rintro r h_bound h_same phase r' ⟨⟩
    obtain ⟨h_op, h_rec⟩ := hI.bound _ _ h_bound
    have h_desc : Describes hash (s.manager.records r) call :=
      ⟨(hI.describes _ h_rec).1.id.trans h_op, h_same.1, h_same.2⟩
    exact ⟨h_rec, h_desc.phase phase⟩
  have h_execute := executes hash s c now call
  revert h_execute
  generalize s.execute hash c now call = s'
  intro h_execute
  cases h_execute with
  | refused rpcErr h => exact hI.moves h_old rfl (by rintro _ ⟨⟩)
  | admitted h_id h_open h => exact hI.registers h_old fun r hr => (h r hr).2
  | waits h_id h_open h_bound h_same h_running =>
    exact hI.moves h_old rfl (h_found h_bound h_same _)
  | replays h_id h_open h_bound h_same h_running h_awaiting =>
    exact hI.moves h_old rfl (h_found h_bound h_same _)

/-- Every step keeps the invariant. -/
theorem Inv.step {s : State κ} {e : Event κ} (hI : Inv hash s) (he : enabled s e) :
    Inv hash (next hash s e) := by
  -- each step of a call is about its own record, and commands evolve records
  cases e with
  | execute c sessionID tabID operationID request now =>
    exact hI.execute (enabled_execute.mp he) now _
  | ctxDone c message =>
    obtain ⟨r, h_phase⟩ := enabled_ctxDone.mp he
    refine hI.moves ?_ rfl (by rintro _ ⟨⟩)
    rw [h_phase]
    rfl
  | takeDone c =>
    obtain ⟨r, h_phase, h_done⟩ := enabled_takeDone.mp he
    simp only [next, h_phase]
    refine hI.moves ?_ rfl ?_
    · rw [h_phase]
      rfl
    · rintro r' ⟨⟩
      obtain ⟨h_rec, h_desc⟩ := hI.found c r (by rw [h_phase]; rfl)
      exact ⟨h_rec, h_desc.phase _⟩
  | invoke c =>
    have h_active : (s.phase c).isActive = true := by
      rw [enabled_invoke.mp he]
      rfl
    have h_running := (hI.running c).mpr h_active
    have h_done : (s.manager.records c).done = false := by
      rw [← Bool.not_eq_true, hI.done c, Phase.not_recorded_of_active h_active]
      exact Bool.false_ne_true
    -- The record stays as it is.
    have h_same : s.setRecord c (s.manager.records c) = s := by
      rw [State.setRecord, Function.update_eq_self]
    have h_next : Inv hash ((s.setRecord c (s.manager.records c)).setPhase c .running) :=
      hI.proceeds h_active rfl rfl rfl rfl rfl (iff_of_true h_running rfl)
        (iff_of_false (h_done ▸ Bool.false_ne_true) Bool.false_ne_true) (hI.awaiting c)
    rw [h_same] at h_next
    exact h_next
  | finish c outcome =>
    have h_active : (s.phase c).isActive = true := by
      rw [enabled_finish.mp he]
      rfl
    have h_running := (hI.running c).mpr h_active
    have h_done : (s.manager.records c).done = false := by
      rw [← Bool.not_eq_true, hI.done c, Phase.not_recorded_of_active h_active]
      exact Bool.false_ne_true
    exact hI.proceeds h_active rfl rfl rfl rfl rfl (iff_of_true h_running rfl)
      (iff_of_false (h_done ▸ Bool.false_ne_true) Bool.false_ne_true) (hI.awaiting c)
  | record c now =>
    obtain ⟨outcome, h_phase⟩ := enabled_record.mp he
    have h_active : (s.phase c).isActive = true := by
      rw [h_phase]
      rfl
    simp only [next, h_phase]
    refine hI.proceeds h_active rfl rfl rfl rfl rfl ?_ (iff_of_true rfl rfl) ?_
    · exact iff_of_false (statusOf_ne_running outcome) Bool.false_ne_true
    · exact statusOf_awaiting.mp
  | command k now => exact hI.commands (k.frame s.manager now)

/-- The invariant holds in every run. -/
theorem Inv.reachable {s : State κ} (hs : (machine hash leaseTTL).Reachable s) : Inv hash s :=
  hs.induction Inv.init fun _ _ _ hI he => hI.step he

/-! ### Steps of a call -/

theorem calls_execute_of_ne (s : State κ) {c d : κ} (h : d ≠ c) (now : Time) (call : Call κ) :
    (s.execute hash c now call).calls d = s.calls d := by
  have h_execute := executes hash s c now call
  generalize s.execute hash c now call = s' at h_execute ⊢
  cases h_execute with
  | admitted => exact State.calls_setCall_of_ne _ h _
  | _ => exact State.calls_setCall_of_ne s h _

theorem records_execute_of_ne (s : State κ) {c d : κ} (h : d ≠ c) (now : Time) (call : Call κ) :
    (s.execute hash c now call).manager.records d = s.manager.records d := by
  have h_execute := executes hash s c now call
  generalize s.execute hash c now call = s' at h_execute ⊢
  cases h_execute with
  | admitted => exact State.records_setRecord_of_ne _ h _
  | _ => rfl

/-- The call an event moves. -/
def Event.call? : Event κ → Option κ
  | .execute c _ _ _ _ _ => some c
  | .ctxDone c _ => some c
  | .takeDone c => some c
  | .invoke c => some c
  | .finish c _ => some c
  | .record c _ => some c
  | .command _ _ => none

variable (hash) in
/-- An event leaves the calls it does not move as they are. -/
theorem calls_next_of_ne (s : State κ) {e : Event κ} {d : κ} (h : e.call? ≠ some d) :
    (next hash s e).calls d = s.calls d := by
  have h_ne : ∀ c, e.call? = some c → d ≠ c := fun c h_c h_eq => h (h_eq ▸ h_c)
  -- every event writes the entry of its own call only
  cases e with
  | execute c sessionID tabID operationID request now =>
    exact calls_execute_of_ne s (h_ne c rfl) now _
  | ctxDone c message => exact State.calls_setCall_of_ne s (h_ne c rfl) _
  | takeDone c =>
    simp only [next]
    split
    · exact State.calls_setCall_of_ne s (h_ne c rfl) _
    · rfl
  | invoke c => exact State.calls_setCall_of_ne s (h_ne c rfl) _
  | finish c outcome => exact State.calls_setCall_of_ne _ (h_ne c rfl) _
  | record c now =>
    simp only [next]
    split
    · exact State.calls_setCall_of_ne _ (h_ne c rfl) _
    · rfl
  | command k now => rfl

variable (hash) in
/-- Only commands touch the records of calls they do not move. -/
theorem records_next_of_ne (s : State κ) {e : Event κ} {d : κ} (h : e.call? ≠ some d) :
    (next hash s e).manager.records d = s.manager.records d ∨ ∃ k now, e = .command k now := by
  have h_ne : ∀ c, e.call? = some c → d ≠ c := fun c h_c h_eq => h (h_eq ▸ h_c)
  cases e with
  | execute c sessionID tabID operationID request now =>
    exact .inl (records_execute_of_ne s (h_ne c rfl) now _)
  | ctxDone c message => exact .inl rfl
  | takeDone c =>
    left
    simp only [next]
    split <;> rfl
  | invoke c => exact .inl rfl
  | finish c outcome => exact .inl (State.records_setRecord_of_ne s (h_ne c rfl) _)
  | record c now =>
    left
    simp only [next]
    split
    · exact State.records_setRecord_of_ne s (h_ne c rfl) _
    · rfl
  -- a command is the exception: it may cancel any record
  | command k now => exact .inr ⟨k, now, rfl⟩

/-- The arguments of a call. -/
def Call.arguments (call : Call κ) : String × String × String × Object :=
  (call.sessionID, call.tabID, call.operationID, call.request)

/-- A call keeps its arguments. -/
theorem arguments_execute (s : State κ) (c : κ) (now : Time) (call : Call κ) :
    ((s.execute hash c now call).calls c).arguments = call.arguments := by
  have h_execute := executes hash s c now call
  generalize s.execute hash c now call = s' at h_execute ⊢
  cases h_execute with
  | admitted => rw [State.register, State.calls_setCall_self]; rfl
  | _ => rw [State.calls_setCall_self]; rfl

/-- A call keeps its arguments once it has begun. -/
theorem arguments_next {s : State κ} {e : Event κ} {c : κ} (he : enabled s e)
    (h : s.phase c ≠ .outside) :
    ((next hash s e).calls c).arguments = (s.calls c).arguments := by
  -- a change of phase leaves the arguments
  have h_set : ∀ (s' : State κ) (d : κ) (phase : Phase κ), s'.calls = s.calls →
      ((s'.setPhase d phase).calls c).arguments = (s.calls c).arguments := by
    rintro s' d phase h_calls
    by_cases h_eq : c = d
    · rw [State.setPhase, h_eq, State.calls_setCall_self, h_calls]
      rfl
    · rw [State.setPhase, State.calls_setCall_of_ne _ h_eq, h_calls]
  cases e with
  | execute d sessionID tabID operationID request now =>
    have h_ne : c ≠ d := by
      rintro rfl
      exact h (enabled_execute.mp he)
    exact congrArg Call.arguments (calls_execute_of_ne s h_ne now _)
  | ctxDone d message => exact h_set s d _ rfl
  | takeDone d =>
    simp only [next]
    split
    · exact h_set s d _ rfl
    · rfl
  | invoke d => exact h_set s d _ rfl
  | finish d outcome => exact h_set _ d _ rfl
  | record d now =>
    simp only [next]
    split
    · exact h_set _ d _ rfl
    · rfl
  | command k now => rfl

/-- Everything an event can do to the call it moves. -/
inductive Moves (hash : String → String) (s : State κ) (e : Event κ) (c : κ) : Prop where
  | executes {now : Time} {call : Call κ} (h : s.phase c = .outside)
      (h_execute : Executes hash s c now call (next hash s e))
  | gaveUp {r : κ} {message : String} (h : s.phase c = .waiting r)
      (h_next : (next hash s e).calls c = { s.calls c with phase := .gaveUp message })
  | replays {r : κ} (h : s.phase c = .waiting r) (h_done : (s.manager.records r).done = true)
      (h_next : (next hash s e).calls c =
        { s.calls c with phase := .replayed r (s.manager.records r).outcome })
  | proceeds {phase : Phase κ} (h : (s.phase c).isActive = true) (h_rec : phase.hasRecord = true)
      (h_next : (next hash s e).calls c = { s.calls c with phase })

variable (hash) in
/-- Every step of a call is one of those listed. -/
theorem moves {s : State κ} {e : Event κ} {c : κ} (h_call : e.call? = some c)
    (he : enabled s e) : Moves hash s e c := by
  -- the event is the call's own, so its guard says in which phase the call is
  cases e with
  | execute d sessionID tabID operationID request now =>
    rw [Event.call?, Option.some_inj] at h_call
    rw [h_call] at he ⊢
    exact .executes (enabled_execute.mp he) (executes hash s c now _)
  | ctxDone d message =>
    rw [Event.call?, Option.some_inj] at h_call
    rw [h_call] at he ⊢
    obtain ⟨r, h_wait⟩ := enabled_ctxDone.mp he
    exact .gaveUp h_wait (State.calls_setCall_self ..)
  | takeDone d =>
    rw [Event.call?, Option.some_inj] at h_call
    rw [h_call] at he ⊢
    obtain ⟨r, h_wait, h_done⟩ := enabled_takeDone.mp he
    refine .replays h_wait h_done ?_
    simp only [next, h_wait]
    exact State.calls_setCall_self ..
  | invoke d =>
    rw [Event.call?, Option.some_inj] at h_call
    rw [h_call] at he ⊢
    refine .proceeds ?_ rfl (State.calls_setCall_self ..)
    rw [enabled_invoke.mp he]
    rfl
  | finish d outcome =>
    rw [Event.call?, Option.some_inj] at h_call
    rw [h_call] at he ⊢
    refine .proceeds ?_ rfl (State.calls_setCall_self ..)
    rw [enabled_finish.mp he]
    rfl
  | record d now =>
    rw [Event.call?, Option.some_inj] at h_call
    rw [h_call] at he ⊢
    obtain ⟨outcome, h_ended⟩ := enabled_record.mp he
    have h_next : (next hash s (.record c now)).calls c =
        { s.calls c with phase := .recorded outcome } := by
      simp only [next, h_ended]
      exact State.calls_setCall_self ..
    refine .proceeds ?_ rfl h_next
    rw [h_ended]
    rfl
  | command k now => contradiction

variable (hash) in
/-- A call that has begun stays so. -/
theorem entered_next {s : State κ} {e : Event κ} {c : κ} (he : enabled s e)
    (h : s.phase c ≠ .outside) : (next hash s e).phase c ≠ .outside := by
  by_cases h_call : e.call? = some c
  case neg =>
    rw [State.phase, calls_next_of_ne hash s h_call]
    exact h
  -- No move of a call leads back outside.
  cases moves hash h_call he with
  | executes h_outside => exact absurd h_outside h
  | gaveUp _ h_next =>
    rw [State.phase, h_next]
    rintro ⟨⟩
  | replays _ _ h_next =>
    rw [State.phase, h_next]
    rintro ⟨⟩
  | proceeds _ h_rec h_next =>
    rw [State.phase, h_next]
    rintro rfl
    contradiction

/-- A call finds a record when it looks its operation id up, and at no other time. -/
theorem found_next {s : State κ} {e : Event κ} {c r : κ} (he : enabled s e)
    (h : ((next hash s e).phase c).found = some r) :
    (s.phase c).found = some r ∨ ∃ sessionID tabID operationID request now,
      e = .execute c sessionID tabID operationID request now ∧
        s.manager.operations operationID = some r := by
  by_cases h_call : e.call? = some c
  -- a step of another call
  case neg =>
    rw [State.phase, calls_next_of_ne hash s h_call] at h
    exact .inl h
  cases e with
  | execute d sessionID tabID operationID request now =>
    cases h_call
    refine .inr ⟨sessionID, tabID, operationID, request, now, rfl, ?_⟩
    have h_execute := executes hash s c now { sessionID, tabID, operationID, request }
    revert h
    show ((s.execute hash c now _).phase c).found = some r → _
    generalize s.execute hash c now _ = s' at h_execute ⊢
    intro h
    cases h_execute with
    -- the other two branches find no record
    | refused | admitted =>
      first
        | rw [State.register, State.phase_setCall_self] at h
        | rw [State.phase_setCall_self] at h
      contradiction
    | waits h_id h_open h_bound | replays h_id h_open h_bound =>
      rw [State.phase_setCall_self] at h
      cases h
      exact h_bound
  | takeDone d =>
    cases h_call
    obtain ⟨r', h_wait, -⟩ := enabled_takeDone.mp he
    left
    simp only [next, h_wait] at h
    rw [State.setPhase, State.phase_setCall_self] at h
    rw [h_wait]
    exact h
  | record d now =>
    cases h_call
    obtain ⟨outcome, h_ended⟩ := enabled_record.mp he
    simp only [next, h_ended] at h
    rw [State.record, State.setPhase, State.phase_setCall_self] at h
    contradiction
  | command k now => contradiction
  | ctxDone | invoke | finish =>
    cases h_call
    simp only [next, State.finish] at h
    rw [State.setPhase, State.phase_setCall_self] at h
    contradiction

variable (hash) in
/-- Only commands change more of the manager than the operations and their records. -/
theorem manager_next (s : State κ) {e : Event κ} (h : ∀ k now, e ≠ .command k now) :
    ∃ operations records, (next hash s e).manager = { s.manager with operations, records } := by
  -- One case for each kind of event: only a command reaches the other tables.
  cases e with
  | execute c sessionID tabID operationID request now =>
    have h_execute := executes hash s c now { sessionID, tabID, operationID, request }
    show ∃ operations records, (s.execute hash c now _).manager = _
    generalize s.execute hash c now _ = s' at h_execute ⊢
    cases h_execute <;> exact ⟨_, _, rfl⟩
  | takeDone c =>
    simp only [next]
    split <;> exact ⟨_, _, rfl⟩
  | record c now =>
    simp only [next]
    split <;> exact ⟨_, _, rfl⟩
  | command k now => exact absurd rfl (h k now)
  | _ => exact ⟨_, _, rfl⟩

/-- A closed session stays as it is. -/
theorem sessions_next_of_closed {s : State κ} {e : Event κ} (he : enabled s e)
    {sessionID : String} (h : s.manager.closed sessionID = true) :
    (next hash s e).manager.sessions sessionID = s.manager.sessions sessionID := by
  by_cases h_command : ∃ k now, e = .command k now
  · obtain ⟨k, now, rfl⟩ := h_command
    exact k.sessions_of_closed s.manager now he h
  · rw [not_exists] at h_command
    obtain ⟨operations, records, h_manager⟩ :=
      manager_next hash s fun k now h => h_command k ⟨now, h⟩
    rw [h_manager]

/-- A closed session stays closed. -/
theorem closed_next {s : State κ} {e : Event κ} (he : enabled s e) {sessionID : String}
    (h : s.manager.closed sessionID = true) :
    (next hash s e).manager.closed sessionID = true := by
  rw [Manager.closed, sessions_next_of_closed he h]
  exact h

variable (hash) in
/-- Only commands change leases. -/
theorem leases_next (s : State κ) {e : Event κ} (h : ∀ k now, e ≠ .command k now) :
    (next hash s e).manager.leases = s.manager.leases := by
  obtain ⟨operations, records, h_manager⟩ := manager_next hash s h
  rw [h_manager]

/-! ### The records of calls that are over -/

/-- The record says what the outcome says, unless the outcome asks for a confirmation. -/
def Records (op : Operation) (outcome : Outcome Json) : Prop :=
  op.status = statusOf outcome ∧ op.err = rpcError outcome

/-- A record is completed with the outcome of its call, and keeps it. -/
theorem records_of_recorded {s : State κ} (hs : (machine hash leaseTTL).Reachable s) {c : κ}
    {outcome : Outcome Json} (h_phase : s.phase c = .recorded outcome) (h_asks : ¬ Asks outcome) :
    Records (s.manager.records c) outcome := by
  revert outcome
  refine hs.induction (P := fun s => ∀ {outcome}, s.phase c = .recorded outcome →
    ¬ Asks outcome → Records (s.manager.records c) outcome) ?_ ?_
  · intro outcome h_phase
    contradiction
  · intro s e hs ih he outcome h_phase h_asks
    by_cases h_call : e.call? = some c
    · -- Only completing the record ends the call.
      cases e with
      | record d now =>
        cases h_call
        have h_enabled : enabled s (.record c now) := he
        obtain ⟨outcome', h_ended⟩ := enabled_record.mp h_enabled
        have h_next : next hash s (.record c now) = s.record c now outcome' := by
          simp only [next, h_ended]
        have h_phase : (next hash s (.record c now)).phase c = .recorded outcome := h_phase
        rw [h_next, State.record, State.setPhase, State.phase_setCall_self] at h_phase
        cases h_phase
        show Records ((next hash s (.record c now)).manager.records c) outcome
        rw [h_next, State.record, State.setPhase, State.setCall_manager,
          State.records_setRecord_self]
        exact ⟨rfl, rfl⟩
      | command k now => contradiction
      | execute d sessionID tabID operationID request now =>
        cases h_call
        have h_execute := executes hash s c now { sessionID, tabID, operationID, request }
        have h_phase : (s.execute hash c now { sessionID, tabID, operationID, request }).phase c =
          .recorded outcome := h_phase
        generalize s.execute hash c now _ = s' at h_execute h_phase
        cases h_execute with
        | admitted =>
          rw [State.register, State.phase_setCall_self] at h_phase
          contradiction
        | _ =>
          rw [State.phase_setCall_self] at h_phase
          contradiction
      | takeDone d =>
        cases h_call
        have h_enabled : enabled s (.takeDone c) := he
        obtain ⟨r, h_wait, -⟩ := enabled_takeDone.mp h_enabled
        have h_phase : (next hash s (.takeDone c)).phase c = .recorded outcome := h_phase
        simp only [next, h_wait] at h_phase
        rw [State.setPhase, State.phase_setCall_self] at h_phase
        contradiction
      | ctxDone | invoke | finish =>
        cases h_call
        have h_phase := (State.phase_setCall_self ..).symm.trans h_phase
        contradiction
    -- Other calls leave the record, and commands do not touch one that is settled.
    · have h_same : s.phase c = .recorded outcome := by
        rw [State.phase, ← calls_next_of_ne hash s h_call]
        exact h_phase
      have h_records := ih h_same h_asks
      rcases records_next_of_ne hash s h_call with h_record | ⟨k, now, rfl⟩
      · show Records ((next hash s e).manager.records c) outcome
        rw [h_record]
        exact h_records
      · have h_settled := ((k.frame s.manager now).evolves c).settled
          (h_records.1 ▸ statusOf_ne_running outcome) (h_records.1 ▸ mt statusOf_awaiting.mp h_asks)
        show Records ((k.run s.manager now).manager.records c) outcome
        rw [h_settled]
        exact h_records

end BrowserControl.Core.Operations
