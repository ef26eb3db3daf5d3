import BrowserControl.Rpc.Peer

/-!
# Responses reach their calls

The right to send to the channel of a call is in one place: the entry of the call in the table, the
hand of the read loop, or the hand of `Close`. Whoever takes an entry deletes it under the lock
of the table, so a channel is sent to at most once, and there is always room (`Inv`).

A call that waits never waits in vain: while its peer is open and its context live, its entry is
still in the table, or what was taken from there is on its way (`Inv.wanted`).
-/

namespace BrowserControl.Rpc

open Encoding Protocol Transition

/-! ### Keys -/

/-- Nothing is cut off from a text that starts and ends with no space. -/
theorem idKey_eq_self {c d : Char} (hc : ¬ isSpace c) (hd : ¬ isSpace d) (text : RawMessage) :
    idKey (c :: text ++ [d]) = c :: text ++ [d] := by
  have h_start : (c :: text ++ [d]).dropWhile isSpace = c :: text ++ [d] :=
    List.dropWhile_cons_of_neg hc
  rw [idKey, h_start]
  exact List.rdropWhile_concat_neg isSpace _ d hd

/-- The key of an id that is a string. -/
theorem idKey_quote (text : String) : idKey (quote text) = quote text :=
  idKey_eq_self (by decide) (by decide) (text.toList.flatMap escape)

/-- Different calls have different keys. -/
theorem key_injective {m n : ℕ} (h : idKey (idRaw m) = idKey (idRaw n)) : m = n := by
  have h_quote : quote ("peer-" ++ Nat.repr m) = quote ("peer-" ++ Nat.repr n) := by
    have h_left : idKey (idRaw m) = quote ("peer-" ++ Nat.repr m) := idKey_quote _
    have h_right : idKey (idRaw n) = quote ("peer-" ++ Nat.repr n) := idKey_quote _
    rw [← h_left, ← h_right, h]
  have h_text : "peer-" ++ Nat.repr m = "peer-" ++ Nat.repr n :=
    (quote_cancel (x := []) (y := []) (by rw [h_quote])).1
  have h_digits : Nat.toDigits 10 m = Nat.toDigits 10 n := by
    have h_list := congrArg String.toList h_text
    rw [String.toList_append, String.toList_append, Nat.toList_repr, Nat.toList_repr] at h_list
    exact List.append_cancel_left h_list
  rw [← Nat.ofDigitChars_ten_toDigits (n := m), h_digits, Nat.ofDigitChars_ten_toDigits]

namespace Peer

variable {κ : Type*} [DecidableEq κ] {s : State κ} {c d : κ}

/-! ### Phases -/

/-- The call has taken an id. -/
def Phase.begun : Phase → Bool
  | .outside => false
  | _ => true

/-- The call has been in the table. -/
def Phase.entered : Phase → Bool
  | .outside => false
  | .numbered => false
  | _ => true

/-- The call will look at its channel, unless something else happens first. -/
def Phase.wants : Phase → Bool
  | .registered => true
  | .writing => true
  | .waiting => true
  | _ => false

/-- The call has the lock of the writers. -/
def Phase.writes : Phase → Bool
  | .writing => true
  | .failing _ => true
  | _ => false

/-- The call will delete its key, if it finds the peer closed. -/
def Phase.leaves : Phase → Bool
  | .registered => true
  | .unregistering _ => true
  | _ => false

/-! ### A call as the others see it -/

/-- The call that `Close` has taken from the table. -/
def ClosePhase.hand : ClosePhase κ → Option κ
  | .draining hand => hand
  | _ => none

/-- What the read loop has in hand for a call. -/
def ServePhase.served (c : κ) : ServePhase κ → Option Response
  | .delivering d response => if d = c then some response else none
  | _ => none

/-- A call and what the rest of the peer has of it. -/
@[ext]
structure View where
  id : ℕ
  phase : Phase
  waiter : Option CallResult
  /-- The call has an entry in the table. -/
  inTable : Prop
  served : Option Response
  /-- `Close` has taken its channel. -/
  drained : Prop
  /-- It has the lock of the writers. -/
  writes : Prop

/-- The key under which the call is registered. -/
def View.key (v : View) : RawMessage := idKey (idRaw v.id)

/-- What the invariant says of a call depends on this only. -/
def State.view (s : State κ) (c : κ) : View where
  id := (s.calls c).id
  phase := s.phase c
  waiter := s.waiter c
  inTable := (s.key c, c) ∈ s.pending
  served := s.serve.served c
  drained := s.close.hand = some c
  writes := s.writeMu = some (.call c)

/-- What holds of a call, if the peer is closed or `Close` is over. -/
structure View.Sound (v : View) (closed done : Prop) : Prop where
  /-- Nobody else may send to a channel that is in the table. -/
  table : v.inTable → v.waiter = none ∧ v.served = none ∧ ¬ v.drained ∧ v.phase.entered = true
  served : ∀ response, v.served = some response →
    v.waiter = none ∧ ¬ v.drained ∧ v.phase.entered = true ∧ idKey response.id = v.key
  drained : v.drained → v.waiter = none ∧ v.phase.entered = true
  waiter : ∀ result, v.waiter = some result →
    v.phase.entered = true ∧ ∀ response, result = .ok response → idKey response.id = v.key
  returned : ∀ response, v.phase = .returned (.ok response) → idKey response.id = v.key
  /-- While the peer is open, a call that may come to wait has its entry, or its response is on
  its way. -/
  wanted : v.phase.wants = true → ¬ closed → v.inTable ∨ v.served ≠ none ∨ v.waiter ≠ none
  /-- After `Close` the table has only calls that find the peer closed. -/
  late : done → v.inTable → v.phase.leaves = true
  writer : v.writes ↔ v.phase.writes = true

/-- The invariant of a peer. -/
structure Inv (s : State κ) : Prop where
  /-- Ids were given once. -/
  given : ∀ c, (s.phase c).begun = true → (s.calls c).id ≤ s.nextID
  ids : ∀ c d, (s.phase c).begun = true → (s.phase d).begun = true →
    (s.calls c).id = (s.calls d).id → c = d
  /-- Entries are under the keys of their calls. -/
  keys : ∀ key c, (key, c) ∈ s.pending → key = s.key c
  sound : ∀ c, (s.view c).Sound (s.closed = true) (s.close = .done)

/-- A sound call stays so when the peer closes. -/
theorem View.Sound.mono {v : View} {closed closed' done done' : Prop} (h : v.Sound closed done)
    (h_closed : closed → closed') (h_done : done' → done) : v.Sound closed' done' :=
  { h with
    wanted := fun h_wants h_open => h.wanted h_wants fun h_c => h_open (h_closed h_c)
    late := fun h_d => h.late (h_done h_d) }

/-- A call that is in the table has begun. -/
theorem Phase.begun_of_entered {phase : Phase} (h : phase.entered = true) :
    phase.begun = true := by
  cases phase <;> first | rfl | contradiction

/-- Before a call is in the table the peer has nothing of it. -/
theorem View.Sound.blank {v : View} {closed done : Prop} (h : v.Sound closed done)
    (h_phase : v.phase.entered = false) :
    ¬ v.inTable ∧ v.waiter = none ∧ v.served = none ∧ ¬ v.drained := by
  have h_not : ¬ v.phase.entered = true := by rw [h_phase]; exact Bool.false_ne_true
  refine ⟨fun h_in => h_not (h.table h_in).2.2.2, ?_, ?_, fun h_drained =>
    h_not (h.drained h_drained).2⟩
  · exact Option.eq_none_iff_forall_ne_some.mpr fun result h_some =>
      h_not (h.waiter result h_some).1
  · exact Option.eq_none_iff_forall_ne_some.mpr fun response h_some =>
      h_not (h.served response h_some).2.2.1

/-! ### What events change -/

/-- What the peer has of a call is what it had. -/
structure Frame (s s' : State κ) (d : κ) : Prop where
  table : (s.key d, d) ∈ s'.pending ↔ (s.key d, d) ∈ s.pending
  served : s'.serve.served d = s.serve.served d
  hand : s'.close.hand = some d ↔ s.close.hand = some d
  writes : s'.writeMu = some (.call d) ↔ s.writeMu = some (.call d)

/-- **One call.** An event that changes one call, and what the peer has of this one only, has to
be looked at for this call. -/
theorem Inv.of_self {s s' : State κ} (h : Inv s) (c : κ) {call : Call}
    (h_calls : s'.calls = Function.update s.calls c call) (h_id : call.id = (s.calls c).id)
    (h_begun : call.phase.begun = true → (s.phase c).begun = true) (h_next : s'.nextID = s.nextID)
    (h_others : ∀ d, d ≠ c → Frame s s' d)
    (h_keys : ∀ key d, (key, d) ∈ s'.pending → (key, d) ∈ s.pending ∨ (s.key c, c) = (key, d))
    (h_closed : s.closed = true → s'.closed = true) (h_done : s'.close = .done → s.close = .done)
    (h_self : View.Sound
      { id := (s.calls c).id
        phase := call.phase
        waiter := call.waiter
        inTable := (s.key c, c) ∈ s'.pending
        served := s'.serve.served c
        drained := s'.close.hand = some c
        writes := s'.writeMu = some (.call c) } (s'.closed = true) (s'.close = .done)) :
    Inv s' := by
  have h_call : s'.calls c = call := by rw [h_calls, Function.update_self]
  have h_other : ∀ d, d ≠ c → s'.calls d = s.calls d := fun d h_ne => by
    rw [h_calls, Function.update_of_ne h_ne]
  have h_ids : ∀ d, (s'.calls d).id = (s.calls d).id := by
    intro d
    by_cases h_eq : d = c
    · rw [h_eq, h_call, h_id]
    · rw [h_other d h_eq]
  -- no call changes its identifier, so all keys stay
  have h_key : ∀ d, s'.key d = s.key d := fun d => by rw [State.key, h_ids, State.key]
  have h_phases : ∀ d, (s'.phase d).begun = true → (s.phase d).begun = true := by
    intro d hd
    by_cases h_eq : d = c
    · rw [h_eq] at hd ⊢
      rw [State.phase, h_call] at hd
      exact h_begun hd
    · rwa [State.phase, h_other d h_eq] at hd
  refine ⟨fun d hd => ?_, fun d d' hd hd' h_same => ?_, fun key d h_mem => ?_, fun d => ?_⟩
  · rw [h_ids, h_next]
    exact h.given d (h_phases d hd)
  · rw [h_ids, h_ids] at h_same
    exact h.ids d d' (h_phases d hd) (h_phases d' hd') h_same
  · rw [h_key]
    rcases h_keys key d h_mem with h_old | h_new
    · exact h.keys key d h_old
    · rw [← (Prod.mk.inj h_new).1, (Prod.mk.inj h_new).2]
  · by_cases h_eq : d = c
    · rw [h_eq, State.view, State.phase, State.waiter, h_key, h_call, h_id]
      exact h_self
    · have h_frame := h_others d h_eq
      have h_view : s'.view d = s.view d := by
        rw [State.view, State.phase, State.waiter, h_key, h_other d h_eq, h_frame.served,
          propext h_frame.table, propext h_frame.hand, propext h_frame.writes]
        rfl
      rw [h_view]
      exact (h.sound d).mono h_closed h_done

/-- A call moves on, and takes or drops the lock of the writers. -/
theorem View.Sound.moves {v : View} {closed done : Prop} (h : v.Sound closed done) {phase : Phase}
    {writes : Prop} (h_entered : v.phase.entered = true → phase.entered = true)
    (h_wants : phase.wants = true → v.phase.wants = true)
    (h_leaves : v.phase.leaves = true → phase.leaves = true ∨ ¬ done)
    (h_response : ∀ response, phase ≠ .returned (.ok response))
    (h_writes : writes ↔ phase.writes = true) :
    View.Sound { v with phase, writes } closed done where
  table h_in := by
    obtain ⟨h_waiter, h_served, h_drained, h_phase⟩ := h.table h_in
    exact ⟨h_waiter, h_served, h_drained, h_entered h_phase⟩
  served response h_some := by
    obtain ⟨h_waiter, h_drained, h_phase, h_key⟩ := h.served response h_some
    exact ⟨h_waiter, h_drained, h_entered h_phase, h_key⟩
  drained h_drained := ⟨(h.drained h_drained).1, h_entered (h.drained h_drained).2⟩
  waiter result h_some := ⟨h_entered (h.waiter result h_some).1, (h.waiter result h_some).2⟩
  returned response h_phase := absurd h_phase (h_response response)
  wanted h_want h_open := h.wanted (h_wants h_want) h_open
  late h_done h_in := (h_leaves (h.late h_done h_in)).resolve_right fun h_not => h_not h_done
  writer := h_writes

/-- A call moves on. -/
theorem Inv.moves (h : Inv s) {phase : Phase} {writeMu : Option (Writer κ)}
    {serveErr : Option String} (h_entered : (s.phase c).entered = true → phase.entered = true)
    (h_begun : phase.begun = true → (s.phase c).begun = true)
    (h_wants : phase.wants = true → (s.phase c).wants = true)
    (h_leaves : (s.phase c).leaves = true → phase.leaves = true ∨ s.close ≠ .done)
    (h_response : ∀ response, phase ≠ .returned (.ok response))
    (h_writes : writeMu = some (.call c) ↔ phase.writes = true)
    (h_mu : ∀ d, d ≠ c → (writeMu = some (.call d) ↔ s.writeMu = some (.call d))) :
    Inv ({ s with writeMu, serveErr }.setPhase c phase) :=
  h.of_self c rfl rfl h_begun rfl (fun d h_ne => ⟨Iff.rfl, rfl, Iff.rfl, h_mu d h_ne⟩)
    (fun _ _ h_mem => .inl h_mem) id id
    ((h.sound c).moves h_entered h_wants h_leaves h_response h_writes)

/-! ### The table -/

omit [DecidableEq κ] in
/-- A call that is found is in the table. -/
theorem mem_of_lookup {key : RawMessage} (h : s.lookup key = some c) : (key, c) ∈ s.pending := by
  obtain ⟨entry, h_find, h_entry⟩ := Option.map_eq_some_iff.mp h
  have h_key : entry.1 = key := by simpa using List.find?_some h_find
  rw [← h_key, ← h_entry]
  exact List.mem_of_find?_eq_some h_find

omit [DecidableEq κ] in
/-- A call in the table is found under its key, or another one is. -/
theorem lookup_ne_none {key : RawMessage} (h_mem : (key, c) ∈ s.pending) :
    s.lookup key ≠ none := by
  intro h_none
  rw [State.lookup, Option.map_eq_none_iff, List.find?_eq_none] at h_none
  have h_not := h_none (key, c) h_mem
  exact h_not (decide_eq_true rfl)

omit [DecidableEq κ] in
/-- What is left in the table. -/
theorem mem_delete {key key' : RawMessage} :
    (key', c) ∈ (s.delete key).pending ↔ (key', c) ∈ s.pending ∧ key' ≠ key := by
  rw [State.delete, List.mem_filter, decide_eq_true_iff]

/-- A call in the table has begun. -/
theorem Inv.begun_of_mem (h : Inv s) {key : RawMessage} (h_mem : (key, c) ∈ s.pending) :
    (s.phase c).begun = true := by
  have h_in : (s.view c).inTable := by
    show (s.key c, c) ∈ s.pending
    rw [← h.keys key c h_mem]
    exact h_mem
  exact Phase.begun_of_entered ((h.sound c).table h_in).2.2.2

/-- Two calls that have begun have two keys. -/
theorem Inv.key_ne (h : Inv s) (h_ne : d ≠ c) (hd : (s.phase d).begun = true)
    (hc : (s.phase c).begun = true) : s.key d ≠ s.key c :=
  fun h_key => h_ne (h.ids d c hd hc (key_injective h_key))

/-- The entry of a call is found. -/
theorem Inv.lookup_key (h : Inv s) (h_mem : (s.key c, c) ∈ s.pending) :
    s.lookup (s.key c) = some c := by
  cases h_find : s.lookup (s.key c) with
  | none => exact absurd h_find (lookup_ne_none h_mem)
  | some d =>
    have h_other := mem_of_lookup h_find
    by_cases h_eq : d = c
    · rw [h_eq]
    · exact absurd (h.keys _ d h_other).symm
        (h.key_ne h_eq (h.begun_of_mem h_other) (h.begun_of_mem h_mem))

/-- Deleting the key of one call leaves the entries of the others. -/
theorem Inv.mem_delete_key (h : Inv s) (h_ne : d ≠ c) (hc : (s.phase c).begun = true) :
    (s.key d, d) ∈ (s.delete (s.key c)).pending ↔ (s.key d, d) ∈ s.pending := by
  rw [mem_delete]
  exact and_iff_left_of_imp fun h_mem => h.key_ne h_ne (h.begun_of_mem h_mem) hc

/-! ### Events of a call -/

/-- A new id was never given before. -/
theorem Inv.call (h : Inv s) (h_phase : s.phase c = .outside) : Inv (next s (.call c)) := by
  have h_blank := (h.sound c).blank (by show (s.phase c).entered = false; rw [h_phase]; rfl)
  have h_self : (next s (.call c)).calls c =
      { s.calls c with id := s.nextID + 1, phase := .numbered } := Function.update_self ..
  have h_other : ∀ d, d ≠ c → (next s (.call c)).calls d = s.calls d := fun d h_ne =>
    Function.update_of_ne h_ne ..
  -- the key is new: what is in the table has begun before
  have h_absent : ∀ key, (key, c) ∉ s.pending := by
    intro key h_mem
    have h_begun := h.begun_of_mem h_mem
    rw [h_phase] at h_begun
    contradiction
  -- the identifiers that were given are smaller than the new one
  have h_old : ∀ d, d ≠ c → ((next s (.call c)).phase d).begun = true →
      ((next s (.call c)).calls d).id ≤ s.nextID := by
    intro d h_ne hd
    rw [State.phase, h_other d h_ne] at hd
    rw [h_other d h_ne]
    exact h.given d hd
  refine ⟨fun d hd => ?_, fun d d' hd hd' h_same => ?_, fun key d h_mem => ?_, fun d => ?_⟩
  · by_cases h_eq : d = c
    · rw [h_eq, h_self]
      exact le_rfl
    · exact Nat.le_succ_of_le (h_old d h_eq hd)
  · by_cases h_eq : d = c <;> by_cases h_eq' : d' = c
    · rw [h_eq, h_eq']
    · have h_le := h_old d' h_eq' hd'
      rw [← h_same, h_eq, h_self] at h_le
      exact absurd h_le (Nat.not_succ_le_self _)
    · have h_le := h_old d h_eq hd
      rw [h_same, h_eq', h_self] at h_le
      exact absurd h_le (Nat.not_succ_le_self _)
    · rw [State.phase, h_other d h_eq] at hd
      rw [State.phase, h_other d' h_eq'] at hd'
      rw [h_other d h_eq, h_other d' h_eq'] at h_same
      exact h.ids d d' hd hd' h_same
  · have h_ne : d ≠ c := fun h_eq => h_absent key (h_eq ▸ h_mem)
    rw [State.key, h_other d h_ne]
    exact h.keys key d h_mem
  · by_cases h_eq : d = c
    · rw [h_eq]
      have h_in : ¬ ((next s (.call c)).view c).inTable := h_absent _
      have h_waiter : ((next s (.call c)).view c).waiter = none :=
        (congrArg Call.waiter h_self).trans h_blank.2.1
      have h_served : ((next s (.call c)).view c).served = none := h_blank.2.2.1
      have h_drained : ¬ ((next s (.call c)).view c).drained := h_blank.2.2.2
      have h_numbered : ((next s (.call c)).view c).phase = .numbered :=
        congrArg Call.phase h_self
      have h_writer := (h.sound c).writer
      constructor
      · exact fun h_mem => absurd h_mem h_in
      · intro response h_some; rw [h_served] at h_some; contradiction
      · exact fun h_hand => absurd h_hand h_drained
      · intro result h_some; rw [h_waiter] at h_some; contradiction
      · intro response h_some; rw [h_numbered] at h_some; contradiction
      · intro h_want; rw [h_numbered] at h_want; contradiction
      · exact fun _ h_mem => absurd h_mem h_in
      · rw [h_numbered]
        refine iff_of_false (fun h_writes => ?_) Bool.false_ne_true
        have h_old_writes := h_writer.mp h_writes
        change (s.phase c).writes = true at h_old_writes
        rw [h_phase] at h_old_writes
        contradiction
    · have h_view : (next s (.call c)).view d = s.view d := by
        have h_key : (next s (.call c)).key d = s.key d := by
          rw [State.key, h_other d h_eq, State.key]
        rw [State.view, State.phase, State.waiter, h_key, h_other d h_eq]
        rfl
      rw [h_view]
      exact h.sound d

/-- A call enters the table. -/
theorem Inv.register (h : Inv s) (h_phase : s.phase c = .numbered) :
    Inv (next s (.register c)) := by
  have h_begun : (s.phase c).begun = true := by rw [h_phase]; rfl
  have h_blank := (h.sound c).blank (by show (s.phase c).entered = false; rw [h_phase]; rfl)
  refine h.of_self c rfl rfl (fun _ => h_begun) rfl (fun d h_ne => ⟨?_, rfl, Iff.rfl, Iff.rfl⟩)
    (fun key d h_mem => ?_) id id ?_
  · show (s.key d, d) ∈ (s.key c, c) :: (s.delete (s.key c)).pending ↔ _
    rw [List.mem_cons, h.mem_delete_key h_ne h_begun]
    exact or_iff_right fun h_eq => h_ne (Prod.mk.inj h_eq).2
  · rcases List.mem_cons.mp h_mem with h_new | h_old
    · exact .inr h_new.symm
    · exact .inl (mem_delete.mp h_old).1
  -- the call is in the table now, and nowhere else
  · have h_in : (s.key c, c) ∈ (s.key c, c) :: (s.delete (s.key c)).pending := List.mem_cons_self
    constructor
    · exact fun _ => ⟨h_blank.2.1, h_blank.2.2.1, h_blank.2.2.2, rfl⟩
    · intro response h_some; cases h_blank.2.2.1.symm.trans h_some
    · exact fun h_hand => absurd h_hand h_blank.2.2.2
    · intro result h_some; cases h_blank.2.1.symm.trans h_some
    · intro response h_some; cases h_some
    · exact fun _ _ => .inl h_in
    · exact fun _ _ => rfl
    · have h_writer := (h.sound c).writer
      refine iff_of_false (fun h_writes => ?_) Bool.false_ne_true
      have h_old : (s.phase c).writes = true := h_writer.mp h_writes
      rw [h_phase] at h_old
      cases h_old

/-- A call leaves the table with an error. -/
theorem Inv.unregister (h : Inv s) {err : CallError} (h_phase : s.phase c = .unregistering err) :
    Inv ((s.delete (s.key c)).setPhase c (.returned (.error err))) := by
  have h_begun : (s.phase c).begun = true := by rw [h_phase]; rfl
  have h_sound := h.sound c
  refine h.of_self c rfl rfl (fun _ => h_begun) rfl
    (fun d h_ne => ⟨h.mem_delete_key h_ne h_begun, rfl, Iff.rfl, Iff.rfl⟩)
    (fun key d h_mem => .inl (mem_delete.mp h_mem).1) id id ?_
  -- the entry is gone, so nobody will send to the call
  have h_out : ¬ (s.key c, c) ∈ (s.delete (s.key c)).pending := fun h_mem =>
    (mem_delete.mp h_mem).2 rfl
  constructor
  · exact fun h_mem => absurd h_mem h_out
  · intro response h_some
    obtain ⟨h_waiter, h_drained, -, h_key⟩ := h_sound.served response h_some
    exact ⟨h_waiter, h_drained, rfl, h_key⟩
  · exact fun h_hand => ⟨(h_sound.drained h_hand).1, rfl⟩
  · exact fun result h_some => ⟨rfl, (h_sound.waiter result h_some).2⟩
  · intro response h_some; cases h_some
  · intro h_want; contradiction
  · exact fun _ h_mem => absurd h_mem h_out
  · refine iff_of_false (fun h_writes => ?_) Bool.false_ne_true
    have h_old : (s.phase c).writes = true := h_sound.writer.mp h_writes
    rw [h_phase] at h_old
    contradiction

/-- The call takes what its channel holds. -/
theorem Inv.take (h : Inv s) {result : CallResult} (h_phase : s.phase c = .waiting)
    (h_waiter : s.waiter c = some result) :
    Inv (s.setCall c { s.calls c with waiter := none, phase := .returned result }) := by
  have h_begun : (s.phase c).begun = true := by rw [h_phase]; rfl
  have h_sound := h.sound c
  -- the result was sent, so the entry was taken out before
  have h_out : ¬ (s.key c, c) ∈ s.pending := by
    intro h_mem
    cases h_waiter.symm.trans (h_sound.table h_mem).1
  refine h.of_self c rfl rfl (fun _ => h_begun) rfl (fun d _ => ⟨Iff.rfl, rfl, Iff.rfl, Iff.rfl⟩)
    (fun _ _ h_mem => .inl h_mem) id id ?_
  constructor
  · exact fun h_mem => absurd h_mem h_out
  · intro response h_some; cases h_waiter.symm.trans (h_sound.served response h_some).1
  · intro h_hand; cases h_waiter.symm.trans (h_sound.drained h_hand).1
  · intro _ h_some; contradiction
  · exact fun response h_some => (h_sound.waiter result h_waiter).2 response
      (Phase.returned.inj h_some)
  · intro h_want; contradiction
  · exact fun _ h_mem => absurd h_mem h_out
  · refine iff_of_false (fun h_writes => ?_) Bool.false_ne_true
    have h_old : (s.phase c).writes = true := h_sound.writer.mp h_writes
    rw [h_phase] at h_old
    contradiction

/-! ### Events of the read loop and of `Close` -/

/-- A channel is taken from the table, by the read loop or by `Close`. -/
theorem Inv.taken (h : Inv s) (h_mem : (s.key c, c) ∈ s.pending) {serve : ServePhase κ}
    {close : ClosePhase κ} (h_served : ∀ d, d ≠ c → serve.served d = s.serve.served d)
    (h_hand : ∀ d, d ≠ c → (close.hand = some d ↔ s.close.hand = some d))
    (h_closed : s.closed = true → { s with close }.closed = true)
    (h_done : close = .done → s.close = .done)
    (h_taken : (∃ response, serve.served c = some response ∧ idKey response.id = s.key c ∧
        close.hand ≠ some c) ∨
      (serve.served c = none ∧ close.hand = some c ∧ { s with close }.closed = true)) :
    Inv { s.delete (s.key c) with serve, close } := by
  have h_sound := h.sound c
  obtain ⟨h_waiter, -, -, h_entered⟩ := h_sound.table h_mem
  change s.waiter c = none at h_waiter
  have h_out : ¬ (s.key c, c) ∈ (s.delete (s.key c)).pending := fun h_in =>
    (mem_delete.mp h_in).2 rfl
  refine h.of_self c (Function.update_eq_self c s.calls).symm rfl id rfl
    (fun d h_ne => ⟨h.mem_delete_key h_ne (h.begun_of_mem h_mem), h_served d h_ne, h_hand d h_ne,
      Iff.rfl⟩) (fun key d h_in => .inl (mem_delete.mp h_in).1) h_closed h_done ?_
  -- the entry has gone from the table into one hand, that of the read loop or of `Close`
  constructor
  · exact fun h_in => absurd h_in h_out
  · intro response h_some
    rcases h_taken with ⟨response', h_response, h_key, h_free⟩ | ⟨h_none, -⟩
    · rw [h_response, Option.some_inj] at h_some
      exact ⟨h_waiter, h_free, h_entered, h_some ▸ h_key⟩
    · cases h_none.symm.trans h_some
  · exact fun _ => ⟨h_waiter, h_entered⟩
  · intro result h_some; cases h_waiter.symm.trans h_some
  · exact h_sound.returned
  · intro _ h_open
    rcases h_taken with ⟨response, h_response, -⟩ | ⟨-, -, h_shut⟩
    · exact .inr (.inl (h_response ▸ Option.some_ne_none response))
    · exact absurd h_shut h_open
  · exact fun _ h_in => absurd h_in h_out
  · exact h_sound.writer

/-- What was taken from the table is sent. -/
theorem Inv.sent (h : Inv s) {result : CallResult} (serve : ServePhase κ) (close : ClosePhase κ)
    (h_out : ¬ (s.key c, c) ∈ s.pending) (h_entered : (s.phase c).entered = true)
    (h_key : ∀ response, result = .ok response → idKey response.id = s.key c)
    (h_served : ∀ d, d ≠ c → serve.served d = s.serve.served d) (h_none : serve.served c = none)
    (h_hand : ∀ d, d ≠ c → (close.hand = some d ↔ s.close.hand = some d))
    (h_free : close.hand ≠ some c) (h_closed : s.closed = true → { s with close }.closed = true)
    (h_done : close = .done → s.close = .done) :
    Inv ({ s with serve, close }.send c result) := by
  have h_sound := h.sound c
  refine h.of_self c rfl rfl id rfl (fun d h_ne =>
    ⟨Iff.rfl, h_served d h_ne, h_hand d h_ne, Iff.rfl⟩)
    (fun _ _ h_mem => .inl h_mem) h_closed h_done ?_
  -- the hand is empty, and the result is in the channel of the call
  constructor
  · exact fun h_in => absurd h_in h_out
  · intro response h_some; cases h_none.symm.trans h_some
  · exact fun h_hand => absurd h_hand h_free
  · intro result' h_some
    rw [← Option.some_inj.mp h_some]
    exact ⟨h_entered, h_key⟩
  · exact h_sound.returned
  · exact fun _ _ => .inr (.inr (Option.some_ne_none result))
  · exact fun _ h_in => absurd h_in h_out
  · exact h_sound.writer

/-- No call and nothing of it changes. -/
theorem Inv.others (h : Inv s) {serve : ServePhase κ} {close : ClosePhase κ}
    {writeMu : Option (Writer κ)} {serveErr : Option String}
    (h_served : ∀ d, serve.served d = s.serve.served d)
    (h_hand : ∀ d, close.hand = some d ↔ s.close.hand = some d)
    (h_writes : ∀ d, writeMu = some (.call d) ↔ s.writeMu = some (.call d))
    (h_closed : s.closed = true → { s with close }.closed = true)
    (h_done : close = .done → s.close = .done ∨ s.pending = []) :
    Inv { s with serve, close, writeMu, serveErr } := by
  refine ⟨h.given, h.ids, h.keys, fun d => ?_⟩
  -- what concerns a call does not change
  have h_view : { s with serve, close, writeMu, serveErr }.view d = s.view d := by
    show View.mk _ _ _ _ (serve.served d) (close.hand = some d) (writeMu = some (.call d)) = _
    rw [h_served, propext (h_hand d), propext (h_writes d)]
    rfl
  have h_sound := h.sound d
  rw [h_view]
  refine { h_sound with
    wanted := fun h_want h_open => h_sound.wanted h_want fun h_old => h_open (h_closed h_old)
    late := fun h_over h_in => ?_ }
  rcases h_done h_over with h_old | h_empty
  · exact h_sound.late h_old h_in
  · change (s.key d, d) ∈ s.pending at h_in
    rw [h_empty] at h_in
    contradiction

/-! ### When events can happen -/

section Enabled

omit [DecidableEq κ]

attribute [local simp] enabled

/-- When `Call` begins. -/
theorem enabled_call : enabled s (.call c) ↔ s.phase c = .outside := by
  cases h : s.phase c <;> simp [h]

/-- When it enters the table. -/
theorem enabled_register :
    enabled s (.register c) ↔ s.phase c = .numbered ∧ s.unlocked = true := by
  cases h : s.phase c <;> simp [h]

/-- When `writeJSON` has the lock, and looks whether the peer is closed. -/
theorem enabled_check : enabled s (.check c) ↔ s.phase c = .registered ∧ s.writeMu = none := by
  cases h : s.phase c <;> simp [h]

/-- When the request is written. -/
theorem enabled_write {err : Option String} :
    enabled s (.write c err) ↔ s.phase c = .writing := by
  cases h : s.phase c <;> simp [h]

/-- When a failed write has closed the peer. -/
theorem enabled_failed :
    enabled s (.failed c) ↔ (∃ err, s.phase c = .failing err) ∧ s.close = .done := by
  cases h : s.phase c <;> cases h' : s.close <;> simp [h, h']

/-- When the call leaves the table. -/
theorem enabled_unregister :
    enabled s (.unregister c) ↔
      (∃ err, s.phase c = .unregistering err) ∧ s.unlocked = true := by
  cases h : s.phase c <;> simp [h]

/-- When the context ends the call. -/
theorem enabled_ctxDone :
    enabled s (.ctxDone c) ↔ s.phase c = .waiting ∧ (s.calls c).ctxErr.isSome = true := by
  cases h : s.phase c <;> simp [h]

/-- When the closed peer ends the call. -/
theorem enabled_closedDone :
    enabled s (.closedDone c) ↔ s.phase c = .waiting ∧ s.closed = true := by
  cases h : s.phase c <;> simp [h]

/-- When the call takes its response. -/
theorem enabled_take :
    enabled s (.take c) ↔ s.phase c = .waiting ∧ ∃ result, s.waiter c = some result := by
  cases h : s.phase c <;> simp [h, Option.isSome_iff_exists]

/-- When `Serve` reads a message. -/
theorem enabled_receive {incoming : Incoming} :
    enabled s (.receive incoming) ↔
      s.serve = .reading ∧ (incoming.response.isSome = true → s.unlocked = true) := by
  cases h : s.serve <;> simp [h]

/-- When a response goes to its call. -/
theorem enabled_deliver :
    enabled s .deliver ↔
      ∃ c response, s.serve = .delivering c response ∧ s.waiter c = none := by
  cases h : s.serve <;> simp [h]

/-- When `Serve` answers a bad message. -/
theorem enabled_reply :
    enabled s .reply ↔ (∃ last, s.serve = .replying last) ∧ s.writeMu = none := by
  cases h : s.serve <;> simp [h]

/-- When that answer is written. -/
theorem enabled_replied {err : Option String} :
    enabled s (.replied err) ↔ ∃ last, s.serve = .writing last := by
  cases h : s.serve <;> simp [h]

/-- When it could not be written, and the peer is closed. -/
theorem enabled_replyFailed :
    enabled s .replyFailed ↔ (∃ last, s.serve = .failing last) ∧ s.close = .done := by
  cases h : s.serve <;> cases h' : s.close <;> simp [h, h']

/-- When `Serve` returns. -/
theorem enabled_stop : enabled s .stop ↔ s.serve = .closing ∧ s.close = .done := by
  cases h : s.serve <;> cases h' : s.close <;> simp [h, h']

/-- When the response of a handler is written. -/
theorem enabled_responded {err : Option String} :
    enabled s (.responded err) ↔ s.writeMu = some .other := by
  cases h : s.writeMu with
  | none => simp [h]
  | some writer => cases writer <;> simp [h]

/-- When it could not be written, and the peer is closed. -/
theorem enabled_respondFailed :
    enabled s .respondFailed ↔ s.writeMu = some .otherFailing ∧ s.close = .done := by
  cases h : s.writeMu with
  | none => simp [h]
  | some writer => cases writer <;> cases h' : s.close <;> simp [h, h']

/-- When `Close` begins. -/
theorem enabled_close : enabled s .close ↔ s.close = .open := by
  cases h : s.close <;> simp [h]

/-- When it closes the channel. -/
theorem enabled_signal : enabled s .signal ↔ s.close = .closing := by
  cases h : s.close <;> simp [h]

/-- When it locks the table. -/
theorem enabled_drain : enabled s .drain ↔ s.close = .signalled := by
  cases h : s.close <;> simp [h]

/-- When it takes the next call from the table. -/
theorem enabled_drainTake {key : RawMessage} :
    enabled s (.drainTake key) ↔ s.close = .draining none ∧ ∃ c, s.lookup key = some c := by
  cases h : s.close with
  | draining hand => cases hand <;> simp [h, Option.isSome_iff_exists]
  | _ => simp [h]

/-- When it sends the error to that call. -/
theorem enabled_drainSend :
    enabled s .drainSend ↔ ∃ c, s.close = .draining (some c) ∧ s.waiter c = none := by
  cases h : s.close with
  | draining hand => cases hand <;> simp [h]
  | _ => simp [h]

/-- When it is done. -/
theorem enabled_drained : enabled s .drained ↔ s.close = .draining none ∧ s.pending = [] := by
  cases h : s.close with
  | draining hand => cases hand <;> simp [h]
  | _ => simp [h]

end Enabled

/-! ### Every event -/

theorem served_delivering_of_ne {response : Response} (h : d ≠ c) :
    (ServePhase.delivering c response).served d = none := if_neg h.symm

theorem served_delivering_self (c : κ) (response : Response) :
    (ServePhase.delivering c response).served c = some response := if_pos rfl

/-- The read loop has the lock of the writers. -/
def ServePhase.writes : ServePhase κ → Bool
  | .writing _ => true
  | .failing _ => true
  | _ => false

/-- What holds of the read loop. -/
structure Serving (s : State κ) : Prop where
  writer : s.writeMu = some .serve ↔ s.serve.writes = true
  /-- `Serve` returns after its `Close`. -/
  stopped : s.serve = .stopped → s.close = .done

omit [DecidableEq κ] in
/-- While `Serve` writes, no call does. -/
theorem Serving.not_call (h : Serving s) (h_writes : s.serve.writes = true) (c : κ) :
    s.writeMu ≠ some (.call c) := by
  rw [h.writer.mpr h_writes]
  rintro ⟨⟩

omit [DecidableEq κ] in
/-- The lock of the writers goes from or to somebody else. -/
theorem Serving.others (h : Serving s) (h_mu : s.writeMu ≠ some .serve)
    {writeMu : Option (Writer κ)} (h_mu' : writeMu ≠ some .serve) :
    writeMu = some .serve ↔ s.serve.writes = true :=
  iff_of_false h_mu' fun h_writes => h_mu (h.writer.mpr h_writes)

omit [DecidableEq κ] in
/-- After a message `Serve` does not write. -/
theorem writes_after (last : Bool) : (ServePhase.after last : ServePhase κ).writes = false := by
  cases last <;> rfl

omit [DecidableEq κ] in
/-- Nor has it returned. -/
theorem after_ne_stopped (last : Bool) : (ServePhase.after last : ServePhase κ) ≠ .stopped := by
  cases last <;> rintro ⟨⟩

omit [DecidableEq κ] in
/-- The read loop goes on after an error response, without the lock of the writers. -/
theorem Serving.after (last : Bool) {writeMu : Option (Writer κ)} (h_mu : writeMu ≠ some .serve)
    (serveErr : Option String) :
    Serving { s with serve := .after last, writeMu, serveErr } where
  writer := by
    rw [writes_after]
    exact iff_of_false h_mu Bool.false_ne_true
  stopped h_stopped := absurd h_stopped (after_ne_stopped last)

omit [DecidableEq κ] in
/-- The read loop goes to where it neither has the lock of the writers nor is over. -/
theorem Serving.receive (h : Serving s) (h_serve : s.serve = .reading) (incoming : Incoming) :
    Serving (receive s incoming) := by
  -- while it reads, the read loop does not write
  have h_free : s.writeMu ≠ some .serve := by
    rw [Ne, h.writer, h_serve]
    exact Bool.false_ne_true
  have h_serves : ∀ {serve : ServePhase κ} {pending : List (RawMessage × κ)}
      {serveErr : Option String}, serve.writes = false → serve ≠ .stopped →
      Serving { s with serve, pending, serveErr } := fun h_writes h_ne =>
    ⟨by rw [h_writes]; exact iff_of_false h_free Bool.false_ne_true, fun h => absurd h h_ne⟩
  unfold Peer.receive
  split
  · exact h_serves rfl (by rintro ⟨⟩)
  · exact h_serves rfl (by rintro ⟨⟩)
  · split
    · exact h_serves rfl (by rintro ⟨⟩)
    · split
      · exact h
      · split
        · exact h
        · exact h_serves rfl (by rintro ⟨⟩)

/-- A call that does not write does not have the lock of the writers. -/
theorem Inv.writeMu_ne (h : Inv s) (h_phase : (s.phase c).writes = false) :
    s.writeMu ≠ some (.call c) := by
  intro h_mu
  have h_writes : (s.phase c).writes = true := (h.sound c).writer.mp h_mu
  rw [h_phase] at h_writes
  contradiction

omit [DecidableEq κ] in
/-- The lock of the writers goes from or to somebody who is no call. -/
theorem not_call_iff {mu mu' : Option (Writer κ)} (h : ∀ c, mu ≠ some (.call c))
    (h' : ∀ c, mu' ≠ some (.call c)) (d : κ) : mu' = some (.call d) ↔ mu = some (.call d) :=
  iff_of_false (h' d) (h d)

/-- The call has the lock of the writers: it may write, unless the peer is closed. -/
theorem Inv.check (h : Inv s) (h_phase : s.phase c = .registered) (h_free : s.writeMu = none) :
    Inv (next s (.check c)) := by
  simp only [Peer.next]
  split
  case isTrue =>
    -- The call drops the lock at once, and its entry is what it has to delete.
    refine h.moves (fun _ => rfl) (fun _ => by rw [h_phase]; rfl) (by rintro ⟨⟩)
      (fun _ => .inl rfl) (by rintro _ ⟨⟩) ?_ fun _ _ => Iff.rfl
    rw [h_free]
    exact iff_of_false (by rintro ⟨⟩) Bool.false_ne_true
  case isFalse h_open =>
    -- The peer is open, so `Close` is not over and has not looked for the entry.
    refine h.moves (fun _ => rfl) (fun _ => by rw [h_phase]; rfl) (fun _ => by rw [h_phase]; rfl)
      (fun _ => .inr fun h_done => h_open ?_) (by rintro _ ⟨⟩) (iff_of_true rfl rfl)
      fun d h_ne => ?_
    · rw [State.closed, h_done]
    · rw [h_free, Option.some_inj, Writer.call.injEq]
      exact iff_of_false h_ne.symm (by rintro ⟨⟩)

/-- The request is written, or the write has failed and the call keeps the lock. -/
theorem Inv.write (h : Inv s) (h_phase : s.phase c = .writing) (err : Option String) :
    Inv (next s (.write c err)) := by
  have h_mine : s.writeMu = some (.call c) :=
    (h.sound c).writer.mpr (by show (s.phase c).writes = true; rw [h_phase]; rfl)
  have h_stays : ¬ (s.phase c).leaves = true := by
    rw [h_phase]
    exact Bool.false_ne_true
  cases err with
  | none =>
    refine h.moves (fun _ => rfl) (fun _ => by rw [h_phase]; rfl) (fun _ => by rw [h_phase]; rfl)
      (fun h_leaves => absurd h_leaves h_stays) (by rintro _ ⟨⟩)
      (iff_of_false (by rintro ⟨⟩) Bool.false_ne_true) fun d h_ne => ?_
    rw [h_mine, Option.some_inj, Writer.call.injEq]
    exact iff_of_false (by rintro ⟨⟩) h_ne.symm
  | some message =>
    exact h.moves (fun _ => rfl) (fun _ => by rw [h_phase]; rfl) (by rintro ⟨⟩)
      (fun h_leaves => absurd h_leaves h_stays) (by rintro _ ⟨⟩) (iff_of_true h_mine rfl)
      fun _ _ => Iff.rfl

/-- A call that has closed the peer drops the lock of the writers. -/
theorem Inv.failed (h : Inv s) {err : CallError} (h_phase : s.phase c = .failing err) :
    Inv ({ s with writeMu := none }.setPhase c (.unregistering err)) := by
  have h_mine : s.writeMu = some (.call c) :=
    (h.sound c).writer.mpr (by show (s.phase c).writes = true; rw [h_phase]; rfl)
  refine h.moves (fun _ => rfl) (fun _ => by rw [h_phase]; rfl) (by rintro ⟨⟩)
    (fun _ => .inl rfl) (by rintro _ ⟨⟩) (iff_of_false (by rintro ⟨⟩) Bool.false_ne_true)
    fun d h_ne => ?_
  rw [h_mine, Option.some_inj, Writer.call.injEq]
  exact iff_of_false (by rintro ⟨⟩) h_ne.symm

/-- A call leaves its `select` without a look at its channel. -/
theorem Inv.leave (h : Inv s) (h_phase : s.phase c = .waiting) {phase : Phase}
    (h_entered : phase.entered = true) (h_wants : phase.wants = false)
    (h_writes : phase.writes = false) (h_response : ∀ response, phase ≠ .returned (.ok response)) :
    Inv (s.setPhase c phase) := by
  have h_free := h.writeMu_ne (c := c) (by rw [h_phase]; rfl)
  refine h.moves (fun _ => h_entered) (fun _ => by rw [h_phase]; rfl) ?_ ?_ h_response ?_
    fun _ _ => Iff.rfl
  · rw [h_wants]
    rintro ⟨⟩
  · rw [h_phase]
    rintro ⟨⟩
  · rw [h_writes]
    exact iff_of_false h_free Bool.false_ne_true

/-- A message is read: a response takes the channel of its call, and nothing else matters. -/
theorem Inv.receive (h : Inv s) (h_serve : s.serve = .reading) (incoming : Incoming) :
    Inv (receive s incoming) := by
  -- unless an entry is taken out, only the read loop moves
  have h_serves : ∀ {serve : ServePhase κ} {serveErr : Option String},
      (∀ d, serve.served d = none) → Inv { s with serve, serveErr } := fun h_none =>
    h.others (fun d => by rw [h_none d, h_serve]; rfl) (fun _ => Iff.rfl) (fun _ => Iff.rfl) id .inl
  unfold Peer.receive
  split
  · exact h_serves fun _ => rfl
  · exact h_serves fun _ => rfl
  · split
    · exact h_serves fun _ => rfl
    · split
      · exact h
      case h_2 response _ =>
        split
        · exact h
        case h_2 c h_find =>
          have h_mem := mem_of_lookup h_find
          have h_key := h.keys _ c h_mem
          rw [h_key] at h_mem ⊢
          refine h.taken h_mem (fun d h_ne => ?_) (fun _ _ => Iff.rfl) id id
            (.inl ⟨response, served_delivering_self c response, h_key, ?_⟩)
          · rw [h_serve]
            exact served_delivering_of_ne h_ne
          · exact ((h.sound c).table h_mem).2.2.1

/-- The read loop sends to the channel that it has taken. -/
theorem Inv.deliver (h : Inv s) {response : Response} (h_serve : s.serve = .delivering c response) :
    Inv ({ s with serve := .reading }.send c (.ok response)) := by
  have h_some : (s.view c).served = some response := by
    show s.serve.served c = _
    rw [h_serve]
    exact served_delivering_self c response
  obtain ⟨-, h_hand, h_entered, h_key⟩ := (h.sound c).served response h_some
  refine h.sent .reading s.close ?_ h_entered ?_ ?_ rfl (fun _ _ => Iff.rfl) h_hand id id
  · intro h_mem; cases h_some.symm.trans ((h.sound c).table h_mem).2.1
  · intro response' h_eq
    rw [← Except.ok.inj h_eq]
    exact h_key
  · intro d h_ne
    rw [h_serve]
    exact (served_delivering_of_ne h_ne).symm

/-- Nor does it deliver. -/
theorem served_after (last : Bool) (c : κ) : (ServePhase.after last).served c = none := by
  cases last <;> rfl

/-- The read loop writes an error response, or goes on after it. -/
theorem Inv.replies (h : Inv s) {serve : ServePhase κ} {writeMu : Option (Writer κ)}
    {serveErr : Option String} (h_old : ∀ d, s.serve.served d = none)
    (h_new : ∀ d, serve.served d = none) (h_mu : ∀ c, s.writeMu ≠ some (.call c))
    (h_mu' : ∀ c, writeMu ≠ some (.call c)) : Inv { s with serve, writeMu, serveErr } :=
  h.others (fun d => (h_new d).trans (h_old d).symm) (fun _ => Iff.rfl) (not_call_iff h_mu h_mu') id
    .inl

/-- A channel is in the hand of `Close`. -/
theorem Inv.drainTake (h : Inv s) (h_close : s.close = .draining none)
    (h_mem : (s.key c, c) ∈ s.pending) :
    Inv { s.delete (s.key c) with close := .draining (some c) } := by
  refine h.taken h_mem (fun _ _ => rfl) (fun d h_ne => ?_) (fun _ => rfl) (by rintro ⟨⟩)
    (.inr ⟨((h.sound c).table h_mem).2.1, rfl, rfl⟩)
  rw [h_close]
  exact iff_of_false (fun h_eq => h_ne (Option.some_inj.mp h_eq).symm) (by rintro ⟨⟩)

/-- `Close` sends to the channel that it has taken. -/
theorem Inv.drainSend (h : Inv s) (h_close : s.close = .draining (some c)) :
    Inv ({ s with close := .draining none }.send c (.error .closed)) := by
  have h_hand : (s.view c).drained := by
    show s.close.hand = some c
    rw [h_close]
    rfl
  refine h.sent s.serve (.draining none) ?_ ((h.sound c).drained h_hand).2 (by rintro _ ⟨⟩)
    (fun _ _ => rfl) ?_ (fun d h_ne => ?_) (by rintro ⟨⟩) (fun _ => rfl) (by rintro ⟨⟩)
  · exact fun h_mem => ((h.sound c).table h_mem).2.2.1 h_hand
  · refine Option.eq_none_iff_forall_ne_some.mpr fun response h_some => ?_
    exact ((h.sound c).served response h_some).2.1 h_hand
  · rw [h_close]
    exact iff_of_false (by rintro ⟨⟩) fun h_eq => h_ne (Option.some_inj.mp h_eq).symm

/-- Every event keeps what holds of the read loop. A writer that is no read loop is known from its
phase. -/
theorem Serving.next {e : Event κ} (h : Serving s) (h_inv : Inv s) (he : enabled s e) :
    Serving (next s e) := by
  -- A call that writes has the lock of the writers itself.
  have h_mine : ∀ {c : κ}, (s.phase c).writes = true → s.writeMu ≠ some .serve := by
    intro c h_writes
    have h_mu : s.writeMu = some (.call c) := (h_inv.sound c).writer.mpr h_writes
    rw [h_mu]
    rintro ⟨⟩
  -- `Close` goes on only while the read loop is not over.
  have h_running : s.close ≠ .done → s.serve ≠ .stopped := fun h_ne h_stopped =>
    h_ne (h.stopped h_stopped)
  cases e with
  | check c =>
    obtain ⟨-, h_free⟩ := enabled_check.mp he
    simp only [Peer.next]
    split
    · exact ⟨h.writer, h.stopped⟩
    · exact ⟨h.others (by rw [h_free]; rintro ⟨⟩) (by rintro ⟨⟩), h.stopped⟩
  | write c err =>
    have h_phase := enabled_write.mp he
    cases err with
    | none => exact ⟨h.others (h_mine (c := c) (by rw [h_phase]; rfl)) (by rintro ⟨⟩), h.stopped⟩
    | some message => exact ⟨h.writer, h.stopped⟩
  | failed c =>
    obtain ⟨⟨err, h_phase⟩, -⟩ := enabled_failed.mp he
    simp only [Peer.next, h_phase]
    exact ⟨h.others (h_mine (c := c) (by rw [h_phase]; rfl)) (by rintro ⟨⟩), h.stopped⟩
  | unregister c =>
    obtain ⟨⟨err, h_phase⟩, -⟩ := enabled_unregister.mp he
    simp only [Peer.next, h_phase]
    exact ⟨h.writer, h.stopped⟩
  | take c =>
    obtain ⟨-, result, h_waiter⟩ := enabled_take.mp he
    simp only [Peer.next, h_waiter]
    exact ⟨h.writer, h.stopped⟩
  -- the read loop moves itself only; it stops after `Close` is done
  | receive incoming => exact h.receive (enabled_receive.mp he).1 incoming
  | deliver =>
    obtain ⟨c, response, h_serve, -⟩ := enabled_deliver.mp he
    have h_writer := h.writer
    rw [h_serve] at h_writer
    simp only [Peer.next, h_serve]
    exact ⟨h_writer, by rintro ⟨⟩⟩
  | reply =>
    obtain ⟨⟨last, h_serve⟩, h_free⟩ := enabled_reply.mp he
    simp only [Peer.next, h_serve]
    split
    · exact .after last (by rw [h_free]; rintro ⟨⟩) _
    · exact ⟨iff_of_true rfl rfl, by rintro ⟨⟩⟩
  | replied err =>
    obtain ⟨last, h_serve⟩ := enabled_replied.mp he
    simp only [Peer.next, h_serve]
    cases err with
    | none => exact .after last (by rintro ⟨⟩) _
    | some message =>
      have h_mu : s.writeMu = some .serve := h.writer.mpr (by rw [h_serve]; rfl)
      exact ⟨iff_of_true h_mu rfl, by rintro ⟨⟩⟩
  | replyFailed =>
    obtain ⟨⟨last, h_serve⟩, -⟩ := enabled_replyFailed.mp he
    simp only [Peer.next, h_serve]
    exact .after last (by rintro ⟨⟩) _
  | stop =>
    obtain ⟨h_serve, h_done⟩ := enabled_stop.mp he
    have h_writer := h.writer
    rw [h_serve] at h_writer
    exact ⟨h_writer, fun _ => h_done⟩
  -- another goroutine writes: it takes the lock and gives it back
  | respond =>
    have h_free : s.writeMu = none := Option.isNone_iff_eq_none.mp he.1
    exact ⟨h.others (by rw [h_free]; rintro ⟨⟩) (by rintro ⟨⟩), h.stopped⟩
  | responded err =>
    have h_mu : s.writeMu ≠ some .serve := by
      rw [enabled_responded.mp he]
      rintro ⟨⟩
    cases err with
    | none => exact ⟨h.others h_mu (by rintro ⟨⟩), h.stopped⟩
    | some message => exact ⟨h.others h_mu (by rintro ⟨⟩), h.stopped⟩
  | respondFailed =>
    have h_mu : s.writeMu ≠ some .serve := by
      rw [(enabled_respondFailed.mp he).1]
      rintro ⟨⟩
    exact ⟨h.others h_mu (by rintro ⟨⟩), h.stopped⟩
  -- `Close` goes on, so it was not done, and the read loop is not over
  | close =>
    have h_open := enabled_close.mp he
    exact ⟨h.writer, fun h_stopped => absurd h_stopped (h_running (by rw [h_open]; rintro ⟨⟩))⟩
  | signal =>
    have h_closing := enabled_signal.mp he
    exact ⟨h.writer, fun h_stopped => absurd h_stopped (h_running (by rw [h_closing]; rintro ⟨⟩))⟩
  | drain =>
    have h_signalled := enabled_drain.mp he
    exact ⟨h.writer, fun h_stopped => absurd h_stopped (h_running (by rw [h_signalled]; rintro ⟨⟩))⟩
  | drainTake key =>
    obtain ⟨h_close, c, h_find⟩ := enabled_drainTake.mp he
    simp only [Peer.next, h_find]
    exact ⟨h.writer, fun h_stopped => absurd h_stopped (h_running (by rw [h_close]; rintro ⟨⟩))⟩
  | drainSend =>
    obtain ⟨c, h_close, -⟩ := enabled_drainSend.mp he
    simp only [Peer.next, h_close]
    exact ⟨h.writer, fun h_stopped => absurd h_stopped (h_running (by rw [h_close]; rintro ⟨⟩))⟩
  | drained => exact ⟨h.writer, fun _ => rfl⟩
  | call c => exact ⟨h.writer, h.stopped⟩
  | register c => exact ⟨h.writer, h.stopped⟩
  | cancel c message => exact ⟨h.writer, h.stopped⟩
  | ctxDone c => exact ⟨h.writer, h.stopped⟩
  | closedDone c => exact ⟨h.writer, h.stopped⟩

/-- Every event keeps the invariant. The guards give where the call, the read loop and `Close`
stand before it. -/
theorem Inv.next {e : Event κ} (h : Inv s) (h_serving : Serving s) (he : enabled s e) :
    Inv (next s e) := by
  cases e with
  | call c => exact h.call (enabled_call.mp he)
  | register c => exact h.register (enabled_register.mp he).1
  | check c =>
    obtain ⟨h_phase, h_free⟩ := enabled_check.mp he
    exact h.check h_phase h_free
  | write c err => exact h.write (enabled_write.mp he) err
  | failed c =>
    obtain ⟨⟨err, h_phase⟩, -⟩ := enabled_failed.mp he
    simp only [Peer.next, h_phase]
    exact h.failed h_phase
  | unregister c =>
    obtain ⟨⟨err, h_phase⟩, -⟩ := enabled_unregister.mp he
    simp only [Peer.next, h_phase]
    exact h.unregister h_phase
  | cancel c message =>
    exact h.of_self c rfl rfl id rfl (fun d _ => ⟨Iff.rfl, rfl, Iff.rfl, Iff.rfl⟩)
      (fun _ _ h_mem => .inl h_mem) id id (h.sound c)
  | ctxDone c => exact h.leave (enabled_ctxDone.mp he).1 rfl rfl rfl (by rintro _ ⟨⟩)
  | closedDone c => exact h.leave (enabled_closedDone.mp he).1 rfl rfl rfl (by rintro _ ⟨⟩)
  | take c =>
    obtain ⟨h_phase, result, h_waiter⟩ := enabled_take.mp he
    simp only [Peer.next, h_waiter]
    exact h.take h_phase h_waiter
  -- the read loop: it takes an entry out of the table, or serves a request
  | receive incoming => exact h.receive (enabled_receive.mp he).1 incoming
  | deliver =>
    obtain ⟨c, response, h_serve, -⟩ := enabled_deliver.mp he
    simp only [Peer.next, h_serve]
    exact h.deliver h_serve
  | reply =>
    obtain ⟨⟨last, h_serve⟩, h_free⟩ := enabled_reply.mp he
    have h_old : ∀ d, s.serve.served d = none := fun _ => by rw [h_serve]; rfl
    have h_mu : ∀ c, s.writeMu ≠ some (.call c) := fun _ => by rw [h_free]; rintro ⟨⟩
    simp only [Peer.next, h_serve]
    split
    · exact h.replies h_old (served_after last) h_mu h_mu
    · exact h.replies h_old (fun _ => rfl) h_mu (by rintro _ ⟨⟩)
  -- an error response is written; if that fails the peer is closed first
  | replied err =>
    obtain ⟨last, h_serve⟩ := enabled_replied.mp he
    have h_old : ∀ d, s.serve.served d = none := fun _ => by rw [h_serve]; rfl
    have h_mu := h_serving.not_call (by rw [h_serve]; rfl)
    simp only [Peer.next, h_serve]
    cases err with
    | none => exact h.replies h_old (served_after last) h_mu (by rintro _ ⟨⟩)
    | some message => exact h.replies h_old (fun _ => rfl) h_mu h_mu
  | replyFailed =>
    obtain ⟨⟨last, h_serve⟩, -⟩ := enabled_replyFailed.mp he
    have h_old : ∀ d, s.serve.served d = none := fun _ => by rw [h_serve]; rfl
    simp only [Peer.next, h_serve]
    exact h.replies h_old (served_after last) (h_serving.not_call (by rw [h_serve]; rfl))
      (by rintro _ ⟨⟩)
  | stop =>
    have h_serve := (enabled_stop.mp he).1
    exact h.others (fun _ => by rw [h_serve]; rfl) (fun _ => Iff.rfl) (fun _ => Iff.rfl) id .inl
  -- the goroutines that answer requests
  | respond =>
    have h_free : s.writeMu = none := Option.isNone_iff_eq_none.mp he.1
    exact h.others (fun _ => rfl) (fun _ => Iff.rfl)
      (not_call_iff (fun _ => by rw [h_free]; rintro ⟨⟩) (by rintro _ ⟨⟩)) id .inl
  | responded err =>
    have h_mu : ∀ c, s.writeMu ≠ some (.call c) := fun _ => by
      rw [enabled_responded.mp he]
      rintro ⟨⟩
    cases err with
    | none =>
      exact h.others (fun _ => rfl) (fun _ => Iff.rfl) (not_call_iff h_mu (by rintro _ ⟨⟩)) id .inl
    | some message =>
      exact h.others (fun _ => rfl) (fun _ => Iff.rfl) (not_call_iff h_mu (by rintro _ ⟨⟩)) id .inl
  | respondFailed =>
    have h_mu : ∀ c, s.writeMu ≠ some (.call c) := fun _ => by
      rw [(enabled_respondFailed.mp he).1]
      rintro ⟨⟩
    exact h.others (fun _ => rfl) (fun _ => Iff.rfl) (not_call_iff h_mu (by rintro _ ⟨⟩)) id .inl
  -- `Close` in its steps
  | close =>
    have h_open := enabled_close.mp he
    refine h.others (fun _ => rfl) (fun _ => by rw [h_open]; rfl) (fun _ => Iff.rfl) (fun h_c => ?_)
      (by rintro ⟨⟩)
    rw [State.closed, h_open] at h_c
    contradiction
  | signal =>
    have h_closing := enabled_signal.mp he
    exact h.others (fun _ => rfl) (fun _ => by rw [h_closing]; rfl) (fun _ => Iff.rfl)
      (fun _ => rfl) (by rintro ⟨⟩)
  | drain =>
    have h_signalled := enabled_drain.mp he
    exact h.others (fun _ => rfl) (fun _ => by rw [h_signalled]; rfl) (fun _ => Iff.rfl)
      (fun _ => rfl) (by rintro ⟨⟩)
  | drainTake key =>
    obtain ⟨h_close, c, h_find⟩ := enabled_drainTake.mp he
    have h_mem := mem_of_lookup h_find
    have h_key := h.keys key c h_mem
    simp only [Peer.next, h_find]
    -- The entry is under the key of its call.
    rw [h_key] at h_mem ⊢
    exact h.drainTake h_close h_mem
  | drainSend =>
    obtain ⟨c, h_close, -⟩ := enabled_drainSend.mp he
    simp only [Peer.next, h_close]
    exact h.drainSend h_close
  | drained =>
    obtain ⟨h_close, h_empty⟩ := enabled_drained.mp he
    exact h.others (fun _ => rfl) (fun _ => by rw [h_close]; rfl) (fun _ => Iff.rfl)
      (fun _ => rfl) fun _ => .inr h_empty

/-- No call has begun at first. -/
theorem inv_init : Inv (machine κ).init := by
  refine ⟨?_, ?_, by rintro _ _ ⟨⟩, fun c => ?_⟩
  · intro c h_begun; contradiction
  · intro c d h_begun; contradiction
  · constructor
    · rintro ⟨⟩
    · rintro _ ⟨⟩
    · rintro ⟨⟩
    · rintro _ ⟨⟩
    · rintro _ ⟨⟩
    · intro h_want; contradiction
    · rintro ⟨⟩
    · exact iff_of_false (by rintro ⟨⟩) Bool.false_ne_true

/-- `Serve` reads at first. -/
theorem serving_init : Serving (machine κ).init where
  writer := iff_of_false (by rintro ⟨⟩) Bool.false_ne_true
  stopped := by rintro ⟨⟩

/-- The two invariants go through a run together. -/
theorem inv_and_serving (h : (machine κ).Reachable s) : Inv s ∧ Serving s := by
  refine h.induction (P := fun s => Inv s ∧ Serving s) ⟨inv_init, serving_init⟩ ?_
  rintro s e - ⟨h_inv, h_serving⟩ he
  exact ⟨h_inv.next h_serving he, h_serving.next h_inv he⟩

/-- The invariant holds in every state. -/
theorem inv (h : (machine κ).Reachable s) : Inv s := (inv_and_serving h).1

/-- And what `Serve` does. -/
theorem serving (h : (machine κ).Reachable s) : Serving s := (inv_and_serving h).2

end Peer

end BrowserControl.Rpc
