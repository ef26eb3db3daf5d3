import BrowserControl.Rpc.Correlation

/-!
# Calls return

A call returns once: what it has returned does not change (`returned_next`). And it is never
stuck: the peer can always go on by itself until the call has returned or is `Parked`, that is,
until it waits for a response that has not come, under a key that is in the table, while the read
loop is there to read it (`Leads`, `progress`). `Leads` is about the steps that are the peer's own
(`Own`): nothing comes over the connection, no context ends, and nobody closes the peer but who
must. So a call that waits when the connection ends returns, since the read loop then closes the
peer.
-/

namespace BrowserControl.Rpc.Peer

open Encoding Protocol Transition

variable {κ : Type*} [DecidableEq κ] {s : State κ} {c d : κ}

/-! ### Returned calls -/

/-- The state after a step is reachable. -/
theorem reachable_next {e : Event κ} (hs : (machine κ).Reachable s) (he : enabled s e) :
    (machine κ).Reachable (next s e) := hs.next he

theorem calls_setCall_self (s : State κ) (c : κ) (call : Call) :
    (s.setCall c call).calls c = call := Function.update_self ..

theorem calls_setCall_of_ne (s : State κ) (h : c ≠ d) (call : Call) :
    (s.setCall d call).calls c = s.calls c := Function.update_of_ne h ..

theorem phase_setCall_self (s : State κ) (c : κ) (call : Call) :
    (s.setCall c call).phase c = call.phase := congrArg Call.phase (calls_setCall_self ..)

theorem phase_setCall_of_ne (s : State κ) (h : c ≠ d) (call : Call) :
    (s.setCall d call).phase c = s.phase c := congrArg Call.phase (calls_setCall_of_ne s h call)

theorem phase_setPhase_self (s : State κ) (c : κ) (phase : Phase) :
    (s.setPhase c phase).phase c = phase := phase_setCall_self ..

/-- What is sent to the channel of a call does not move the call. -/
theorem phase_send (s : State κ) (d : κ) (result : CallResult) (c : κ) :
    (s.send d result).phase c = s.phase c := by
  by_cases h_eq : c = d
  · rw [h_eq]
    exact phase_setCall_self ..
  · exact phase_setCall_of_ne s h_eq _

omit [DecidableEq κ] in
/-- To read a message moves no call. -/
theorem phase_receive (s : State κ) (incoming : Incoming) (c : κ) :
    (receive s incoming).phase c = s.phase c := by
  unfold receive
  split
  · rfl
  · rfl
  · split
    · rfl
    · split
      · rfl
      · split <;> rfl

/-- A call that has returned has returned for good. -/
theorem returned_next {e : Event κ} {result : CallResult} (he : enabled s e)
    (h : s.phase c = .returned result) : (next s e).phase c = .returned result := by
  -- An event of another call does not matter, and `c` has no more events.
  have h_other : ∀ {s' : State κ} {d : κ} {call : Call}, s'.calls = s.calls →
      s.phase d ≠ .returned result → (s'.setCall d call).phase c = .returned result := by
    intro s' d call h_calls h_phase
    have h_ne : c ≠ d := fun h_eq => h_phase (h_eq ▸ h)
    rw [phase_setCall_of_ne s' h_ne, State.phase, h_calls]
    exact h
  cases e with
  -- the steps of a call are none of one that has returned
  | call d => exact h_other rfl (by rw [enabled_call.mp he]; rintro ⟨⟩)
  | register d => exact h_other rfl (by rw [(enabled_register.mp he).1]; rintro ⟨⟩)
  | check d =>
    have h_phase : s.phase d ≠ .returned result := by rw [(enabled_check.mp he).1]; rintro ⟨⟩
    simp only [next]
    split
    · exact h_other rfl h_phase
    · exact h_other rfl h_phase
  | write d err =>
    have h_phase : s.phase d ≠ .returned result := by rw [enabled_write.mp he]; rintro ⟨⟩
    cases err with
    | none => exact h_other rfl h_phase
    | some message => exact h_other rfl h_phase
  | failed d =>
    obtain ⟨⟨err, h_phase⟩, -⟩ := enabled_failed.mp he
    simp only [next, h_phase]
    exact h_other rfl (by rw [h_phase]; rintro ⟨⟩)
  | unregister d =>
    obtain ⟨⟨err, h_phase⟩, -⟩ := enabled_unregister.mp he
    simp only [next, h_phase]
    exact h_other rfl (by rw [h_phase]; rintro ⟨⟩)
  | cancel d message =>
    by_cases h_eq : c = d
    · rw [h_eq] at h ⊢
      exact (phase_setCall_self ..).trans h
    · exact (phase_setCall_of_ne s h_eq _).trans h
  | ctxDone d => exact h_other rfl (by rw [(enabled_ctxDone.mp he).1]; rintro ⟨⟩)
  | closedDone d => exact h_other rfl (by rw [(enabled_closedDone.mp he).1]; rintro ⟨⟩)
  | take d =>
    obtain ⟨h_phase, result', h_waiter⟩ := enabled_take.mp he
    simp only [next, h_waiter]
    exact h_other rfl (by rw [h_phase]; rintro ⟨⟩)
  -- the read loop and `Close` send to channels, and phases stay
  | receive incoming => exact (phase_receive s incoming c).trans h
  | deliver =>
    obtain ⟨d, response, h_serve, -⟩ := enabled_deliver.mp he
    simp only [next, h_serve]
    exact (phase_send _ d _ c).trans h
  | reply =>
    obtain ⟨⟨last, h_serve⟩, -⟩ := enabled_reply.mp he
    simp only [next, h_serve]
    split
    · exact h
    · exact h
  | replied err =>
    obtain ⟨last, h_serve⟩ := enabled_replied.mp he
    simp only [next, h_serve]
    cases err with
    | none => exact h
    | some message => exact h
  | replyFailed =>
    obtain ⟨⟨last, h_serve⟩, -⟩ := enabled_replyFailed.mp he
    simp only [next, h_serve]
    exact h
  | responded err =>
    cases err with
    | none => exact h
    | some message => exact h
  | drainTake key =>
    obtain ⟨-, d, h_find⟩ := enabled_drainTake.mp he
    simp only [next, h_find]
    exact h
  | drainSend =>
    obtain ⟨d, h_close, -⟩ := enabled_drainSend.mp he
    simp only [next, h_close]
    exact (phase_send _ d _ c).trans h
  | stop => exact h
  | respond => exact h
  | respondFailed => exact h
  | close => exact h
  | signal => exact h
  | drain => exact h
  | drained => exact h

/-! ### Own steps -/

/-- Somebody has to close the peer: a writer whose write has failed, or the read loop that returns.
-/
inductive Owes (s : State κ) : Prop where
  | call {c : κ} {err : CallError} (h : s.phase c = .failing err)
  | other (h : s.writeMu = some .otherFailing)
  | serve {last : Bool} (h : s.serve = .failing last)
  | returns (h : s.serve = .closing)

/-- A step that the peer takes by itself. -/
def Own (s : State κ) : Event κ → Prop
  | .call _ => False
  | .cancel _ _ => False
  | .receive _ => False
  | .respond => False
  | .close => Owes s
  | _ => True

/-- Own steps lead from `s` to a state with `P`. -/
def Leads (s : State κ) (P : State κ → Prop) : Prop :=
  ∃ es, ((machine κ).restrict Own).Runs s es ∧ P ((machine κ).exec s es)

/-- It is so already. -/
theorem Leads.here {P : State κ → Prop} (h : P s) : Leads s P := ⟨[], trivial, h⟩

/-- One step of the peer's own. -/
theorem Leads.step {P : State κ → Prop} (e : Event κ) (he : enabled s e) (h_own : Own s e)
    (h : Leads (next s e) P) : Leads s P := by
  obtain ⟨es, h_runs, h_end⟩ := h
  exact ⟨e :: es, ⟨⟨he, h_own⟩, h_runs⟩, h_end⟩

theorem Leads.trans {P Q : State κ → Prop} (hs : (machine κ).Reachable s) (h : Leads s P)
    (h_next : ∀ s', (machine κ).Reachable s' → P s' → Leads s' Q) : Leads s Q := by
  obtain ⟨es, h_runs, h_mid⟩ := h
  obtain ⟨fs, h_runs', h_end⟩ := h_next _ (hs.exec h_runs.of_restrict) h_mid
  refine ⟨es ++ fs, (Machine.runs_append _ _ _ _).mpr ⟨h_runs, h_runs'⟩, ?_⟩
  rw [Machine.exec_append]
  exact h_end

/-- The calls and the read loop stand where they stood, and whoever wrote writes. -/
structure Keeps (s s' : State κ) : Prop where
  phase : ∀ c, s'.phase c = s.phase c
  serve : s'.serve = s.serve
  writeMu : s'.writeMu = s.writeMu

omit [DecidableEq κ] in
theorem Keeps.trans {s' s'' : State κ} (h : Keeps s s') (h' : Keeps s' s'') : Keeps s s'' where
  phase c := (h'.phase c).trans (h.phase c)
  serve := h'.serve.trans h.serve
  writeMu := h'.writeMu.trans h.writeMu

/-- A channel is given a result. -/
theorem Keeps.send {s' : State κ} (h : Keeps s s') (c : κ) (result : CallResult) :
    Keeps s (s'.send c result) where
  phase d := (phase_send s' c result d).trans (h.phase d)
  serve := h.serve
  writeMu := h.writeMu

/-! ### `Close` ends -/

/-- `Close` has run, and the calls stand where they stood. -/
def Closes (s s' : State κ) : Prop := s'.close = .done ∧ Keeps s s'

/-- What closes the peer later closes it. -/
theorem Leads.closes_of_keeps {s₀ : State κ} (h : Keeps s₀ s) (h_leads : Leads s (Closes s)) :
    Leads s (Closes s₀) := by
  obtain ⟨es, h_runs, h_done, h_keeps⟩ := h_leads
  exact ⟨es, h_runs, h_done, h.trans h_keeps⟩

omit [DecidableEq κ] in
theorem Keeps.refl (s : State κ) : Keeps s s := ⟨fun _ => rfl, rfl, rfl⟩

/-- There is room in the channel that `Close` has taken. -/
theorem leads_of_hand (hs : (machine κ).Reachable s) {hand : Option κ}
    (h_close : s.close = .draining hand) :
    Leads s fun s' => s'.close = .draining none ∧ s'.pending = s.pending ∧ Keeps s s' := by
  cases hand with
  | none => exact .here ⟨h_close, rfl, .refl s⟩
  | some c =>
    have h_hand : (s.view c).drained := by
      show s.close.hand = some c
      rw [h_close]
      rfl
    have h_room : s.waiter c = none := (((inv hs).sound c).drained h_hand).1
    refine .step .drainSend (enabled_drainSend.mpr ⟨c, h_close, h_room⟩) trivial (.here ?_)
    simp only [next, h_close]
    refine ⟨rfl, rfl, ?_⟩
    have h_keeps : Keeps s { s with close := .draining none } := ⟨fun _ => rfl, rfl, rfl⟩
    exact h_keeps.send c _

/-- The table gets smaller with each channel that `Close` takes. -/
theorem leads_of_draining (n : ℕ) (hs : (machine κ).Reachable s)
    (h_close : s.close = .draining none) (h_length : s.pending.length ≤ n) :
    Leads s (Closes s) := by
  induction n generalizing s with
  -- the table is empty: `Close` is over
  | zero =>
    have h_empty : s.pending = [] := List.length_eq_zero_iff.mp (Nat.le_zero.mp h_length)
    exact .step .drained (enabled_drained.mpr ⟨h_close, h_empty⟩) trivial
      (.here ⟨rfl, fun _ => rfl, rfl, rfl⟩)
  | succ n ih =>
    cases h_pending : s.pending with
    | nil =>
      exact .step .drained (enabled_drained.mpr ⟨h_close, h_pending⟩) trivial
        (.here ⟨rfl, fun _ => rfl, rfl, rfl⟩)
    -- one entry is taken out and answered, and the table is shorter
    | cons entry rest =>
      obtain ⟨key, c⟩ := entry
      have h_mem : (key, c) ∈ s.pending := h_pending ▸ List.mem_cons_self
      have h_key := (inv hs).keys key c h_mem
      have h_find : s.lookup key = some c := by
        rw [h_key] at h_mem ⊢
        exact (inv hs).lookup_key h_mem
      have h_enabled := enabled_drainTake.mpr ⟨h_close, c, h_find⟩
      refine .step (.drainTake key) h_enabled trivial ?_
      have h_taken := reachable_next hs h_enabled
      have h_next :
          next s (.drainTake key) = { s.delete key with close := .draining (some c) } := by
        simp only [next, h_find]
      have h_keeps : Keeps s (next s (.drainTake key)) := by
        rw [h_next]
        exact ⟨fun _ => rfl, rfl, rfl⟩
      have h_less : (next s (.drainTake key)).pending.length ≤ n := by
        rw [h_next]
        show (s.pending.filter fun entry => entry.1 ≠ key).length ≤ n
        rw [h_pending, List.filter_cons_of_neg (by simp)]
        rw [h_pending, List.length_cons] at h_length
        exact (List.length_filter_le ..).trans (Nat.le_of_succ_le_succ h_length)
      refine (leads_of_hand h_taken (by rw [h_next])).trans h_taken ?_
      rintro s' hs' ⟨h_none, h_same, h_keeps'⟩
      exact .closes_of_keeps (h_keeps.trans h_keeps') (ih hs' h_none (h_same ▸ h_less))

/-- A `Close` that has begun ends by itself. -/
theorem leads_closes (hs : (machine κ).Reachable s) (h_begun : s.close ≠ .open) :
    Leads s (Closes s) := by
  -- from the signal on: the table is emptied
  have h_drain : ∀ {s' : State κ}, (machine κ).Reachable s' → s'.close = .signalled →
      Leads s' (Closes s') := by
    intro s' hs' h_close
    have h_enabled := enabled_drain.mpr h_close
    refine .step .drain h_enabled trivial (.closes_of_keeps ⟨fun _ => rfl, rfl, rfl⟩ ?_)
    exact leads_of_draining _ (reachable_next hs' h_enabled) rfl le_rfl
  cases h_close : s.close with
  | «open» => exact absurd h_close h_begun
  | closing =>
    have h_enabled := enabled_signal.mpr h_close
    refine .step .signal h_enabled trivial (.closes_of_keeps ⟨fun _ => rfl, rfl, rfl⟩ ?_)
    exact h_drain (reachable_next hs h_enabled) rfl
  | signalled => exact h_drain hs h_close
  -- what is in the hand is sent first
  | draining hand =>
    refine (leads_of_hand hs h_close).trans hs ?_
    rintro s' hs' ⟨h_none, -, h_keeps⟩
    exact .closes_of_keeps h_keeps (leads_of_draining _ hs' h_none le_rfl)
  | done => exact .here ⟨h_close, .refl s⟩

/-- Who has to close the peer closes it, unless it is closed already. -/
theorem leads_of_owes (hs : (machine κ).Reachable s) (h : Owes s) : Leads s (Closes s) := by
  by_cases h_begun : s.close = .open
  · have h_enabled := enabled_close.mpr h_begun
    refine .step .close h_enabled h (.closes_of_keeps ⟨fun _ => rfl, rfl, rfl⟩ ?_)
    exact leads_closes (reachable_next hs h_enabled) (by rintro ⟨⟩)
  · exact leads_closes hs h_begun

/-- The lock of the table gets free. -/
theorem leads_unlocked (hs : (machine κ).Reachable s) :
    Leads s fun s' => s'.unlocked = true ∧ Keeps s s' := by
  by_cases h_unlocked : s.unlocked = true
  · exact .here ⟨h_unlocked, .refl s⟩
  · have h_begun : s.close ≠ .open := fun h_open => h_unlocked (by rw [State.unlocked, h_open])
    refine (leads_closes hs h_begun).trans hs ?_
    rintro s' hs' ⟨h_done, h_keeps⟩
    exact .here ⟨by rw [State.unlocked, h_done], h_keeps⟩

/-! ### A call goes on -/

/-- The call waits for a response that has not come, and the read loop reads. -/
structure Parked (s : State κ) (c : κ) : Prop where
  phase : s.phase c = .waiting
  serve : s.serve = .reading
  close : s.close = .open
  ctxErr : (s.calls c).ctxErr = none
  entry : s.lookup (s.key c) = some c

/-- The call has returned, or waits for a response. -/
def Settled (c : κ) (s : State κ) : Prop := (∃ result, s.phase c = .returned result) ∨ Parked s c

/-- A call that gives up returns as soon as it gets the lock of the table. -/
theorem leads_of_unregistering (hs : (machine κ).Reachable s) {err : CallError}
    (h_phase : s.phase c = .unregistering err) : Leads s (Settled c) := by
  refine (leads_unlocked hs).trans hs ?_
  rintro s' hs' ⟨h_unlocked, h_keeps⟩
  have h_phase' : s'.phase c = .unregistering err := (h_keeps.phase c).trans h_phase
  refine .step (.unregister c) (enabled_unregister.mpr ⟨⟨err, h_phase'⟩, h_unlocked⟩) trivial
    (.here (.inl ⟨.error err, ?_⟩))
  simp only [next, h_phase']
  exact phase_setPhase_self ..

/-- A call whose channel holds a result returns. -/
theorem leads_of_waiter (h_phase : s.phase c = .waiting) {result : CallResult}
    (h_waiter : s.waiter c = some result) : Leads s (Settled c) := by
  refine .step (.take c) (enabled_take.mpr ⟨h_phase, result, h_waiter⟩) trivial
    (.here (.inl ⟨result, ?_⟩))
  simp only [next, h_waiter]
  exact phase_setCall_self ..

/-- A call that waits while the peer is closed finds it closed. -/
theorem leads_of_closes (hs : (machine κ).Reachable s) (h_phase : s.phase c = .waiting)
    (h_closes : Leads s (Closes s)) : Leads s (Settled c) := by
  refine h_closes.trans hs ?_
  rintro s' - ⟨h_done, h_keeps⟩
  have h_closed : s'.closed = true := by rw [State.closed, h_done]
  exact .step (.closedDone c) (enabled_closedDone.mpr ⟨(h_keeps.phase c).trans h_phase, h_closed⟩)
    trivial (.here (.inl ⟨_, phase_setPhase_self ..⟩))

/-- A call leaves its `select`, unless what it waits for has not come. -/
theorem leads_of_reading (hs : (machine κ).Reachable s) (h_phase : s.phase c = .waiting)
    (h_serve : s.serve = .reading) : Leads s (Settled c) := by
  cases h_ctx : (s.calls c).ctxErr with
  -- the context is done, and the call returns its error
  | some message =>
    have h_enabled := enabled_ctxDone.mpr ⟨h_phase, Option.isSome_iff_exists.mpr ⟨_, h_ctx⟩⟩
    exact .step (.ctxDone c) h_enabled trivial
      (leads_of_unregistering (reachable_next hs h_enabled) (phase_setPhase_self ..))
  | none =>
    -- somebody closes the peer, or the call may wait
    by_cases h_begun : s.close = .open
    case neg => exact leads_of_closes hs h_phase (leads_closes hs h_begun)
    case pos =>
      have h_open : ¬ s.closed = true := by
        rw [State.closed, h_begun]
        exact Bool.false_ne_true
      have h_want : (s.view c).phase.wants = true := by
        show (s.phase c).wants = true
        rw [h_phase]
        rfl
      rcases ((inv hs).sound c).wanted h_want h_open with h_in | h_served | h_waiter
      · exact .here (.inr ⟨h_phase, h_serve, h_begun, h_ctx, (inv hs).lookup_key h_in⟩)
      · -- The read loop has nothing in hand.
        have h_none : (s.view c).served = none := by
          show s.serve.served c = none
          rw [h_serve]
          rfl
        exact absurd h_none h_served
      · obtain ⟨result, h_some⟩ := Option.ne_none_iff_exists'.mp h_waiter
        exact leads_of_waiter h_phase h_some

/-- While nobody writes, the read loop gets to where it reads, or closes the peer. -/
theorem leads_of_free (hs : (machine κ).Reachable s) (h_phase : s.phase c = .waiting)
    (h_free : s.writeMu = none) : Leads s (Settled c) := by
  by_cases h_begun : s.close = .open
  case neg => exact leads_of_closes hs h_phase (leads_closes hs h_begun)
  case pos =>
    -- nobody holds the lock, so the read loop is not writing
    have h_idle : ¬ s.serve.writes = true := by
      rw [← (serving hs).writer, h_free]
      rintro ⟨⟩
    cases h_serve : s.serve with
    | reading => exact leads_of_reading hs h_phase h_serve
    | delivering d response =>
      -- There is room in the channel that the read loop has taken.
      have h_served : (s.view d).served = some response := by
        show s.serve.served d = _
        rw [h_serve]
        exact served_delivering_self d response
      have h_room : s.waiter d = none := (((inv hs).sound d).served response h_served).1
      have h_enabled := enabled_deliver.mpr ⟨d, response, h_serve, h_room⟩
      have h_next : next s .deliver = { s with serve := .reading }.send d (.ok response) := by
        simp only [next, h_serve]
      refine .step .deliver h_enabled trivial (leads_of_reading (reachable_next hs h_enabled) ?_ ?_)
      · rw [h_next]
        exact (phase_send _ d _ c).trans h_phase
      · rw [h_next]
        rfl
    | replying last =>
      have h_open : ¬ s.closed = true := by
        rw [State.closed, h_begun]
        exact Bool.false_ne_true
      have h_reply := enabled_reply.mpr ⟨⟨last, h_serve⟩, h_free⟩
      have h_next : next s .reply = { s with writeMu := some .serve, serve := .writing last } := by
        simp only [next, h_serve, if_neg h_open]
      have h_replied : enabled (next s .reply) (.replied none) :=
        enabled_replied.mpr ⟨last, by rw [h_next]⟩
      have h_after : next (next s .reply) (.replied none) =
          { s with writeMu := none, serve := .after last } := by
        rw [h_next]
        rfl
      have hs' := reachable_next (reachable_next hs h_reply) h_replied
      refine .step .reply h_reply trivial (.step (.replied none) h_replied trivial ?_)
      rw [h_after] at hs' ⊢
      -- After the last error response the read loop returns, and closes the peer.
      cases last with
      | false => exact leads_of_reading hs' h_phase rfl
      | true => exact leads_of_closes hs' h_phase (leads_of_owes hs' (.returns rfl))
    | writing last => exact absurd (by rw [h_serve]; rfl) h_idle
    | failing last => exact absurd (by rw [h_serve]; rfl) h_idle
    | closing => exact leads_of_closes hs h_phase (leads_of_owes hs (.returns h_serve))
    | stopped =>
      have h_done := (serving hs).stopped h_serve
      rw [h_begun] at h_done
      cases h_done

/-- A call that writes lets go of the lock of the writers. -/
theorem leads_of_writing (h_phase : s.phase c = .writing) :
    Leads s fun s' => s'.writeMu = none ∧ s'.phase c = .waiting ∧
      ∀ d, d ≠ c → s'.phase d = s.phase d :=
  .step (.write c none) (enabled_write.mpr h_phase) trivial
    (.here ⟨rfl, phase_setPhase_self .., fun _ h_ne => phase_setCall_of_ne _ h_ne _⟩)

/-- A call whose write has failed closes the peer and goes on. -/
theorem leads_of_failing (hs : (machine κ).Reachable s) {err : CallError}
    (h_phase : s.phase c = .failing err) :
    Leads s fun s' => s'.writeMu = none ∧ s'.phase c = .unregistering err ∧
      ∀ d, d ≠ c → s'.phase d = s.phase d := by
  refine (leads_of_owes hs (.call h_phase)).trans hs ?_
  rintro s' hs' ⟨h_done, h_keeps⟩
  have h_phase' : s'.phase c = .failing err := (h_keeps.phase c).trans h_phase
  refine .step (.failed c) (enabled_failed.mpr ⟨⟨err, h_phase'⟩, h_done⟩) trivial (.here ?_)
  simp only [next, h_phase']
  refine ⟨rfl, phase_setPhase_self .., fun d h_ne => ?_⟩
  exact (phase_setCall_of_ne _ h_ne _).trans (h_keeps.phase d)

/-- The lock of the writers gets free, and a call that does not write stays where it is. -/
theorem leads_writable (hs : (machine κ).Reachable s) (h_idle : (s.phase c).writes = false) :
    Leads s fun s' => s'.writeMu = none ∧ s'.phase c = s.phase c := by
  cases h_mu : s.writeMu with
  | none => exact .here ⟨h_mu, rfl⟩
  | some writer =>
    -- whoever holds the lock can finish and give it back
    cases writer with
    | call d =>
      have h_writes : (s.phase d).writes = true := ((inv hs).sound d).writer.mp h_mu
      have h_ne : c ≠ d := by
        rintro rfl
        rw [h_idle] at h_writes
        contradiction
      cases h_writer : s.phase d with
      | writing =>
        refine (leads_of_writing h_writer).trans hs ?_
        rintro s' - ⟨h_free, -, h_others⟩
        exact .here ⟨h_free, h_others c h_ne⟩
      | failing err =>
        refine (leads_of_failing hs h_writer).trans hs ?_
        rintro s' - ⟨h_free, -, h_others⟩
        exact .here ⟨h_free, h_others c h_ne⟩
      | _ => rw [h_writer] at h_writes; contradiction
    | serve =>
      have h_writes : s.serve.writes = true := (serving hs).writer.mp h_mu
      cases h_serve : s.serve with
      | writing last =>
        have h_enabled : enabled s (.replied none) := enabled_replied.mpr ⟨last, h_serve⟩
        refine .step (.replied none) h_enabled trivial (.here ?_)
        simp only [next, h_serve]
        exact ⟨trivial, rfl⟩
      | failing last =>
        refine (leads_of_owes hs (.serve h_serve)).trans hs ?_
        rintro s' - ⟨h_done, h_keeps⟩
        have h_serve' : s'.serve = .failing last := h_keeps.serve.trans h_serve
        refine .step .replyFailed (enabled_replyFailed.mpr ⟨⟨last, h_serve'⟩, h_done⟩) trivial
          (.here ?_)
        simp only [next, h_serve']
        exact ⟨trivial, h_keeps.phase c⟩
      | _ => rw [h_serve] at h_writes; contradiction
    | other =>
      exact .step (.responded none) (enabled_responded.mpr h_mu) trivial (.here ⟨rfl, rfl⟩)
    | otherFailing =>
      refine (leads_of_owes hs (.other h_mu)).trans hs ?_
      rintro s' - ⟨h_done, h_keeps⟩
      have h_mu' := h_keeps.writeMu.trans h_mu
      exact .step .respondFailed (enabled_respondFailed.mpr ⟨h_mu', h_done⟩) trivial
        (.here ⟨rfl, h_keeps.phase c⟩)

/-- A call leaves its `select`, unless what it waits for has not come. -/
theorem leads_of_waiting (hs : (machine κ).Reachable s) (h_phase : s.phase c = .waiting) :
    Leads s (Settled c) := by
  refine (leads_writable hs (c := c) (by rw [h_phase]; rfl)).trans hs ?_
  rintro s' hs' ⟨h_free, h_same⟩
  exact leads_of_free hs' (h_same.trans h_phase) h_free

/-- So does a call that is registered. -/
theorem leads_of_registered (hs : (machine κ).Reachable s) (h_phase : s.phase c = .registered) :
    Leads s (Settled c) := by
  refine (leads_writable hs (c := c) (by rw [h_phase]; rfl)).trans hs ?_
  rintro s' hs' ⟨h_free, h_same⟩
  have h_phase' := h_same.trans h_phase
  -- With the lock free the call checks whether the peer is closed.
  have h_enabled := enabled_check.mpr ⟨h_phase', h_free⟩
  refine .step (.check c) h_enabled trivial ?_
  have h_next := reachable_next hs' h_enabled
  change (machine κ).Reachable (next s' (.check c)) at h_next
  simp only [next] at h_next ⊢
  -- A closed peer fails the call at once, an open one lets it write.
  by_cases h_closed : s'.closed = true
  · rw [if_pos h_closed] at h_next ⊢
    exact leads_of_unregistering h_next (phase_setPhase_self ..)
  · rw [if_neg h_closed] at h_next ⊢
    refine (leads_of_writing (phase_setPhase_self ..)).trans h_next ?_
    rintro s'' hs'' ⟨-, h_waiting, -⟩
    exact leads_of_waiting hs'' h_waiting

/-- **A call is never stuck.** The peer can go on by itself until the call has returned or waits
for a response that has not come, while the connection is there and the read loop reads it. -/
theorem progress (hs : (machine κ).Reachable s) (h_begun : s.phase c ≠ .outside) :
    Leads s (Settled c) := by
  cases h_phase : s.phase c with
  | outside => exact absurd h_phase h_begun
  -- the phases in their order; each leads to the next one
  | numbered =>
    refine (leads_unlocked hs).trans hs ?_
    rintro s' hs' ⟨h_unlocked, h_keeps⟩
    have h_enabled := enabled_register.mpr ⟨(h_keeps.phase c).trans h_phase, h_unlocked⟩
    exact .step (.register c) h_enabled trivial
      (leads_of_registered (reachable_next hs' h_enabled) (phase_setPhase_self ..))
  | registered => exact leads_of_registered hs h_phase
  | writing =>
    refine (leads_of_writing h_phase).trans hs ?_
    rintro s' hs' ⟨-, h_waiting, -⟩
    exact leads_of_waiting hs' h_waiting
  | failing err =>
    refine (leads_of_failing hs h_phase).trans hs ?_
    rintro s' hs' ⟨-, h_unregistering, -⟩
    exact leads_of_unregistering hs' h_unregistering
  | unregistering err => exact leads_of_unregistering hs h_phase
  | waiting => exact leads_of_waiting hs h_phase
  | returned result => exact .here (.inl ⟨result, h_phase⟩)

/-! ### The end of a connection -/

/-- The read loop will return, or has returned. -/
def ServePhase.ends : ServePhase κ → Bool
  | .replying last => last
  | .writing last => last
  | .failing last => last
  | .closing => true
  | .stopped => true
  | _ => false

/-- Somebody has called `Close`, or the read loop will. -/
def Ended (s : State κ) : Prop := s.close ≠ .open ∨ s.serve.ends = true

omit [DecidableEq κ] in
/-- After the last message `Serve` ends. -/
theorem ends_after (last : Bool) : (ServePhase.after last : ServePhase κ).ends = last := by
  cases last <;> rfl

/-- No event opens a connection again. -/
theorem Ended.next {e : Event κ} (h : Ended s) (he : enabled s e) : Ended (next s e) := by
  -- From where the read loop reads or delivers it may go on, so somebody has called `Close`.
  have h_close : s.serve.ends = false → s.close ≠ .open := fun h_ends =>
    h.resolve_right fun h_true => Bool.false_ne_true (h_ends.symm.trans h_true)
  cases e with
  | check d =>
    simp only [Peer.next]
    split
    · exact h
    · exact h
  | write d err =>
    cases err with
    | none => exact h
    | some message => exact h
  | failed d =>
    obtain ⟨⟨err, h_phase⟩, -⟩ := enabled_failed.mp he
    simp only [Peer.next, h_phase]
    exact h
  | unregister d =>
    obtain ⟨⟨err, h_phase⟩, -⟩ := enabled_unregister.mp he
    simp only [Peer.next, h_phase]
    exact h
  | take d =>
    obtain ⟨-, result, h_waiter⟩ := enabled_take.mp he
    simp only [Peer.next, h_waiter]
    exact h
  -- after the end of the stream the read loop reads nothing more, unless `Close` was called
  | receive incoming =>
    have h_shut := h_close (by rw [(enabled_receive.mp he).1]; rfl)
    simp only [Peer.next, receive]
    split
    · exact .inl h_shut
    · exact .inl h_shut
    · split
      · exact .inl h_shut
      · split
        · exact .inl h_shut
        · split
          · exact .inl h_shut
          · exact .inl h_shut
  | deliver =>
    obtain ⟨d, response, h_serve, -⟩ := enabled_deliver.mp he
    have h_shut := h_close (by rw [h_serve]; rfl)
    simp only [Peer.next, h_serve]
    exact .inl h_shut
  -- a last response is followed by the return of the loop
  | reply =>
    obtain ⟨⟨last, h_serve⟩, -⟩ := enabled_reply.mp he
    rw [Ended, h_serve] at h
    simp only [Peer.next, h_serve]
    split
    · exact h.imp id fun h_last => (ends_after last).trans h_last
    · exact h
  | replied err =>
    obtain ⟨last, h_serve⟩ := enabled_replied.mp he
    rw [Ended, h_serve] at h
    simp only [Peer.next, h_serve]
    cases err with
    | none => exact h.imp id fun h_last => (ends_after last).trans h_last
    | some message => exact h
  | replyFailed =>
    obtain ⟨⟨last, h_serve⟩, -⟩ := enabled_replyFailed.mp he
    rw [Ended, h_serve] at h
    simp only [Peer.next, h_serve]
    exact h.imp id fun h_last => (ends_after last).trans h_last
  | stop => exact .inr rfl
  | responded err =>
    cases err with
    | none => exact h
    | some message => exact h
  -- `Close` was called
  | close => exact .inl (by rintro ⟨⟩)
  | signal => exact .inl (by rintro ⟨⟩)
  | drain => exact .inl (by rintro ⟨⟩)
  | drainTake key =>
    obtain ⟨-, d, h_find⟩ := enabled_drainTake.mp he
    simp only [Peer.next, h_find]
    exact .inl (by rintro ⟨⟩)
  | drainSend =>
    obtain ⟨d, h_shut, -⟩ := enabled_drainSend.mp he
    simp only [Peer.next, h_shut]
    exact .inl (by rintro ⟨⟩)
  | drained => exact .inl (by rintro ⟨⟩)
  | call d => exact h
  | register d => exact h
  | cancel d message => exact h
  | ctxDone d => exact h
  | closedDone d => exact h
  | respond => exact h
  | respondFailed => exact h

/-- **The end of a connection.** Once the connection has ended, every call returns by itself. -/
theorem leads_returned (hs : (machine κ).Reachable s) (h_ended : Ended s)
    (h_begun : s.phase c ≠ .outside) :
    Leads s fun s' => ∃ result, s'.phase c = .returned result := by
  obtain ⟨es, h_runs, h_settled⟩ := progress hs h_begun
  refine ⟨es, h_runs, h_settled.resolve_right fun h_parked => ?_⟩
  -- The connection is still ended, and a call is parked only while it is open.
  have h_still : Ended ((machine κ).exec s es) :=
    h_runs.of_restrict.stable (P := Ended) (Q := fun _ => True) (fun _ _ _ _ h he => h.next he) hs
      h_ended fun _ _ => trivial
  rcases h_still with h_close | h_ends
  · exact h_close h_parked.close
  · rw [h_parked.serve] at h_ends
    cases h_ends

/-! ### Correlation -/

/-- The response is on its way to the call, or the call has returned it. -/
inductive Delivered (s : State κ) (c : κ) (response : Response) : Prop where
  | taken (h : s.serve = .delivering c response)
  | sent (h : s.waiter c = some (.ok response))
  | returned (h : s.phase c = .returned (.ok response))

/-- A response gets to the call whose id it carries. -/
theorem Delivered.key_eq {response : Response} (h : Delivered s c response)
    (hs : (machine κ).Reachable s) :
    idKey response.id = s.key c ∧ (s.phase c).begun = true := by
  have h_sound := (inv hs).sound c
  -- By how far the response came: taken by `Serve`, sent to the waiter, returned.
  cases h with
  | taken h_serve =>
    have h_served : (s.view c).served = some response := by
      show s.serve.served c = _
      rw [h_serve]
      exact served_delivering_self c response
    obtain ⟨-, -, h_entered, h_key⟩ := h_sound.served response h_served
    exact ⟨h_key, Phase.begun_of_entered h_entered⟩
  | sent h_waiter =>
    obtain ⟨h_entered, h_key⟩ := h_sound.waiter _ h_waiter
    exact ⟨h_key response rfl, Phase.begun_of_entered h_entered⟩
  | returned h_phase =>
    refine ⟨h_sound.returned response h_phase, ?_⟩
    rw [h_phase]
    rfl

/-- **Calls and responses.** In every reachable state: what a call has returned does not change; a
call that has not returned is not stuck, but at most waits for its response from a connection that
is open and read, and it returns once that has ended; the response a call returns carries the id of
the call; no response gets to two calls; whoever sends to the channel of a call finds room in it;
and once `Close` has run and the calls have returned, the table is empty. -/
theorem correlation (hs : (machine κ).Reachable s) :
    (∀ c result, s.phase c = .returned result → ∀ es, (machine κ).Runs s es →
      ((machine κ).exec s es).phase c = .returned result) ∧
    (∀ c, s.phase c ≠ .outside → Leads s (Settled c)) ∧
    (Ended s → ∀ c, s.phase c ≠ .outside →
      Leads s fun s' => ∃ result, s'.phase c = .returned result) ∧
    (∀ c response, s.phase c = .returned (.ok response) → idKey response.id = s.key c) ∧
    (∀ c d response, Delivered s c response → Delivered s d response → c = d) ∧
    (∀ c response, s.serve = .delivering c response → s.waiter c = none) ∧
    (∀ c, s.close = .draining (some c) → s.waiter c = none) ∧
    (s.close = .done → (∀ c, s.phase c = .outside ∨ ∃ result, s.phase c = .returned result) →
      s.pending = []) := by
  refine ⟨fun c result h_phase es h_runs => ?_, fun c => progress hs,
    fun h_ended c => leads_returned hs h_ended, ?_, ?_, ?_, ?_, ?_⟩
  -- a call that has returned keeps its result
  · exact h_runs.stable (P := fun s => s.phase c = .returned result) (Q := fun _ => True)
      (fun _ _ _ _ h he => returned_next he h) hs h_phase fun _ _ => trivial
  · exact fun c response h_phase => ((Delivered.returned h_phase).key_eq hs).1
  -- two calls with one response have one key
  · intro c d response hc hd
    obtain ⟨h_key, h_begun⟩ := hc.key_eq hs
    obtain ⟨h_key', h_begun'⟩ := hd.key_eq hs
    exact (inv hs).ids c d h_begun h_begun' (key_injective (h_key.symm.trans h_key'))
  -- what the hands hold was taken out for a call that waits
  · intro c response h_serve
    have h_served : (s.view c).served = some response := by
      show s.serve.served c = _
      rw [h_serve]
      exact served_delivering_self c response
    exact (((inv hs).sound c).served response h_served).1
  · intro c h_close
    have h_drained : (s.view c).drained := by
      show s.close.hand = some c
      rw [h_close]
      rfl
    exact (((inv hs).sound c).drained h_drained).1
  -- nothing is left in the table
  · intro h_done h_returned
    refine List.eq_nil_iff_forall_not_mem.mpr ?_
    rintro ⟨key, c⟩ h_mem
    have h_in : (s.view c).inTable := by
      show (s.key c, c) ∈ s.pending
      rw [← (inv hs).keys key c h_mem]
      exact h_mem
    have h_leaves : (s.phase c).leaves = true := ((inv hs).sound c).late h_done h_in
    -- Neither a call outside nor one that has returned is in the table.
    rcases h_returned c with h_phase | ⟨result, h_phase⟩ <;>
    · rw [h_phase] at h_leaves
      contradiction

/-- The response to the second of two calls, with space around its id. -/
def reply : Response where
  jsonrpc := "2.0"
  id := ' ' :: idRaw 2
  result := ['t', 'r', 'u', 'e']
  error := none

/-- Two calls write their requests; the second is answered, twice, and the peer is closed. -/
def answered : List (Event Bool) :=
  [.call false, .register false, .check false, .write false none,
    .call true, .register true, .check true, .write true none,
    .receive (.envelope { reply with method := "" }), .deliver,
    .receive (.envelope { reply with method := "" }), .take true,
    .close, .signal, .drain, .drainTake (idKey (idRaw 1)), .drainSend, .drained, .take false]

/-- The second call has returned the response, the first one an error, and nothing is left. -/
theorem correlation_answered :
    ((machine Bool).exec (machine Bool).init answered).pending = [] := by
  have h_run : (machine Bool).Runs (machine Bool).init answered := by decide +kernel
  refine (correlation h_run.reachable).2.2.2.2.2.2.2 rfl fun c => .inr ?_
  cases c with
  | false => exact ⟨_, rfl⟩
  | true => exact ⟨_, rfl⟩

end BrowserControl.Rpc.Peer
