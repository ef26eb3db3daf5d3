import BrowserControl.Rpc.Progress

/-!
# What a step of a peer leaves

A call of a peer takes an id once and keeps it (`same_next`), and a response gets to a call only
when the read loop reads it (`delivered_of_next`). With these two lemmas a system with many peers
can follow its responses without looking at the events of a peer again.
-/

namespace BrowserControl.Rpc.Peer

variable {κ : Type*} [DecidableEq κ] {s : State κ} {c : κ}

/-- The call has tried to write its request, or found the peer closed. -/
def Phase.tried : Phase → Bool
  | .failing _ => true
  | .unregistering _ => true
  | .waiting => true
  | .returned _ => true
  | _ => false

/-- A call that has tried to write has begun. -/
theorem Phase.begun_of_tried {phase : Phase} (h : phase.tried = true) : phase.begun = true := by
  cases phase with
  | outside => cases h
  | _ => rfl

/-- A call of a peer keeps its id and does not go back. -/
structure Same (s s' : State κ) (c : κ) : Prop where
  id : (s'.calls c).id = (s.calls c).id
  begun : (s'.phase c).begun = (s.phase c).begun
  tried : (s.phase c).tried = true → (s'.phase c).tried = true

omit [DecidableEq κ] in
/-- Nothing happens to any call. -/
theorem Same.of_calls {s s' : State κ} {c : κ} (h : s'.calls = s.calls) : Same s s' c := by
  have h_phase : s'.phase c = s.phase c := by rw [State.phase, State.phase, h]
  refine ⟨by rw [h], by rw [h_phase], ?_⟩
  rw [h_phase]
  exact fun h_tried => h_tried

/-- Nothing happens to the other calls, and not much to this one. -/
theorem Same.setCall {s s' : State κ} {c d : κ} {call : Call} (h_calls : s'.calls = s.calls)
    (h_id : call.id = (s.calls d).id) (h_begun : call.phase.begun = (s.phase d).begun)
    (h_tried : (s.phase d).tried = true → call.phase.tried = true) :
    Same s (s'.setCall d call) c := by
  -- The call that moves, or another one.
  by_cases h_eq : c = d
  · rw [h_eq]
    refine ⟨?_, ?_, ?_⟩
    · rw [calls_setCall_self, h_id]
    · rw [phase_setCall_self, h_begun]
    · rw [phase_setCall_self]
      exact h_tried
  · have h := Same.of_calls (c := c) h_calls
    refine ⟨?_, ?_, ?_⟩
    · rw [calls_setCall_of_ne s' h_eq, h.id]
    · rw [phase_setCall_of_ne s' h_eq, h.begun]
    · rw [phase_setCall_of_ne s' h_eq]
      exact h.tried

/-- Only `call` gives a call an id. -/
theorem same_next {e : Event κ} (he : enabled s e) (h_call : ∀ d, e = .call d → d ≠ c) :
    Same s (next s e) c := by
  -- A step from a phase that has begun to another one.
  have h_move : ∀ {s' : State κ} {d : κ} {phase phase' : Phase}, s'.calls = s.calls →
      s.phase d = phase → phase.begun = true → phase'.begun = true →
      (phase.tried = true → phase'.tried = true) → Same s (s'.setPhase d phase') c := by
    intro s' d phase phase' h_calls h_phase h_begun h_begun' h_tried
    rw [← h_phase] at h_begun h_tried
    refine Same.setCall h_calls ?_ (h_begun'.trans h_begun.symm) h_tried
    rw [h_calls]
  -- a result in the channel of a call changes neither its phase nor its identifier
  have h_send : ∀ {s' : State κ} (d : κ) (result : CallResult), s'.calls = s.calls →
      Same s (s'.send d result) c := by
    intro s' d result h_calls
    refine Same.setCall h_calls ?_ ?_ ?_
    · rw [h_calls]
    · rw [State.phase, h_calls]
    · rw [State.phase, h_calls]
      exact id
  cases e with
  -- the only event that gives an identifier, and it is of another call
  | call d =>
    have h_ne : c ≠ d := fun h_eq => h_call d rfl h_eq.symm
    refine ⟨?_, ?_, ?_⟩
    · rw [next, calls_setCall_of_ne _ h_ne]
    · rw [next, phase_setCall_of_ne _ h_ne]
      rfl
    · rw [next, phase_setCall_of_ne _ h_ne]
      exact id
  | register d => exact h_move rfl (enabled_register.mp he).1 rfl rfl Bool.noConfusion
  | check d =>
    have h_phase := (enabled_check.mp he).1
    simp only [next]
    split
    · exact h_move rfl h_phase rfl rfl Bool.noConfusion
    · exact h_move rfl h_phase rfl rfl Bool.noConfusion
  | write d err =>
    have h_phase := enabled_write.mp he
    cases err with
    | none => exact h_move rfl h_phase rfl rfl Bool.noConfusion
    | some message => exact h_move rfl h_phase rfl rfl Bool.noConfusion
  | failed d =>
    obtain ⟨⟨err, h_phase⟩, -⟩ := enabled_failed.mp he
    simp only [next, h_phase]
    exact h_move rfl h_phase rfl rfl id
  | unregister d =>
    obtain ⟨⟨err, h_phase⟩, -⟩ := enabled_unregister.mp he
    simp only [next, h_phase]
    exact h_move rfl h_phase rfl rfl id
  | cancel d message =>
    show Same s (s.setCall d { s.calls d with ctxErr := some message }) c
    exact Same.setCall rfl rfl rfl id
  | ctxDone d => exact h_move rfl (enabled_ctxDone.mp he).1 rfl rfl id
  | closedDone d => exact h_move rfl (enabled_closedDone.mp he).1 rfl rfl id
  | take d =>
    obtain ⟨h_phase, result, h_waiter⟩ := enabled_take.mp he
    have h_begun : (Phase.returned result).begun = (s.phase d).begun := by
      rw [h_phase]
      rfl
    simp only [next, h_waiter]
    exact Same.setCall rfl rfl h_begun fun _ => rfl
  -- the read loop and `Close`
  | receive incoming =>
    refine Same.of_calls ?_
    simp only [next, receive]
    split
    · rfl
    · rfl
    · split
      · rfl
      · split
        · rfl
        · split <;> rfl
  | deliver =>
    obtain ⟨d, response, h_serve, -⟩ := enabled_deliver.mp he
    simp only [next, h_serve]
    exact h_send d _ rfl
  | reply =>
    obtain ⟨⟨last, h_serve⟩, -⟩ := enabled_reply.mp he
    simp only [next, h_serve]
    split
    · exact Same.of_calls rfl
    · exact Same.of_calls rfl
  | replied err =>
    obtain ⟨last, h_serve⟩ := enabled_replied.mp he
    simp only [next, h_serve]
    cases err with
    | none => exact Same.of_calls rfl
    | some message => exact Same.of_calls rfl
  | replyFailed =>
    obtain ⟨⟨last, h_serve⟩, -⟩ := enabled_replyFailed.mp he
    simp only [next, h_serve]
    exact Same.of_calls rfl
  | stop => exact Same.of_calls rfl
  | responded err =>
    cases err with
    | none => exact Same.of_calls rfl
    | some message => exact Same.of_calls rfl
  | respondFailed => exact Same.of_calls rfl
  | drainTake key =>
    obtain ⟨-, d, h_find⟩ := enabled_drainTake.mp he
    simp only [next, h_find]
    exact Same.of_calls rfl
  | drainSend =>
    obtain ⟨d, h_close, -⟩ := enabled_drainSend.mp he
    simp only [next, h_close]
    exact h_send d _ rfl
  | respond => exact Same.of_calls rfl
  | close => exact Same.of_calls rfl
  | signal => exact Same.of_calls rfl
  | drain => exact Same.of_calls rfl
  | drained => exact Same.of_calls rfl

/-- A call that is changed gets no response by it that it had not before. -/
theorem Delivered.of_setCall {s' : State κ} {d : κ} {call : Call} {response : Response}
    (h : Delivered (s'.setCall d call) c response) (h_calls : s'.calls = s.calls)
    (h_serve : ∀ c response, s'.serve = .delivering c response → s.serve = .delivering c response)
    (h_waiter : ∀ response, call.waiter = some (.ok response) → Delivered s d response)
    (h_phase : ∀ response, call.phase = .returned (.ok response) → Delivered s d response) :
    Delivered s c response := by
  -- the call that is written, or another
  by_cases h_eq : c = d
  · rw [h_eq] at h ⊢
    cases h with
    | taken h => exact .taken (h_serve d response h)
    | sent h =>
      rw [State.waiter, calls_setCall_self] at h
      exact h_waiter response h
    | returned h =>
      rw [phase_setCall_self] at h
      exact h_phase response h
  · cases h with
    | taken h => exact .taken (h_serve c response h)
    | sent h =>
      rw [State.waiter, calls_setCall_of_ne s' h_eq, h_calls] at h
      exact .sent h
    | returned h =>
      rw [phase_setCall_of_ne s' h_eq, State.phase, h_calls] at h
      exact .returned h

omit [DecidableEq κ] in
/-- A response stays delivered when nothing happens to its call. -/
theorem Delivered.of_calls {s' : State κ} {response : Response} (h : Delivered s' c response)
    (h_calls : s'.calls = s.calls) (h_serve : s'.serve = s.serve) : Delivered s c response := by
  cases h with
  | taken h => exact .taken (h_serve ▸ h)
  | sent h =>
    rw [State.waiter, h_calls] at h
    exact .sent h
  | returned h =>
    rw [State.phase, h_calls] at h
    exact .returned h

omit [DecidableEq κ] in
/-- The read loop that does not deliver has nothing in hand for a call. -/
theorem Delivered.of_idle {s' : State κ} {response : Response} (h : Delivered s' c response)
    (h_calls : s'.calls = s.calls)
    (h_serve : ∀ c response, s'.serve ≠ .delivering c response) : Delivered s c response := by
  cases h with
  | taken h => exact absurd h (h_serve c response)
  | sent h =>
    rw [State.waiter, h_calls] at h
    exact .sent h
  | returned h =>
    rw [State.phase, h_calls] at h
    exact .returned h

omit [DecidableEq κ] in
/-- After a message nothing is being delivered. -/
theorem after_ne_delivering (last : Bool) (c : κ) (response : Response) :
    ServePhase.after last ≠ .delivering c response := by
  cases last <;> rintro ⟨⟩

/-- A response gets to a call only when it is read. -/
theorem delivered_of_next {e : Event κ} {response : Response} (he : enabled s e)
    (h : Delivered (next s e) c response) :
    Delivered s c response ∨
      ∃ incoming, e = .receive incoming ∧ incoming.response = some response := by
  -- A step to a phase in which no response is returned.
  have h_move : ∀ {s' : State κ} {d : κ} {phase : Phase},
      Delivered (s'.setPhase d phase) c response → s'.calls = s.calls → s'.serve = s.serve →
      (∀ response, phase ≠ .returned (.ok response)) → Delivered s c response := by
    intro s' d phase h h_calls h_serve h_phase
    refine h.of_setCall h_calls (fun _ _ h => h_serve ▸ h) (fun _ h_waiter => ?_)
      fun _ h_returned => absurd h_returned (h_phase _)
    rw [h_calls] at h_waiter
    exact .sent h_waiter
  cases e with
  | call d =>
    refine .inl (h.of_setCall rfl (fun _ _ h => h) (fun _ h_waiter => .sent h_waiter) ?_)
    rintro _ ⟨⟩
  | register d => exact .inl (h_move h rfl rfl (by rintro _ ⟨⟩))
  | check d =>
    simp only [next] at h
    split at h
    · exact .inl (h_move h rfl rfl (by rintro _ ⟨⟩))
    · exact .inl (h_move h rfl rfl (by rintro _ ⟨⟩))
  | write d err =>
    cases err with
    | none => exact .inl (h_move h rfl rfl (by rintro _ ⟨⟩))
    | some message => exact .inl (h_move h rfl rfl (by rintro _ ⟨⟩))
  | failed d =>
    obtain ⟨⟨err, h_phase⟩, -⟩ := enabled_failed.mp he
    simp only [next, h_phase] at h
    exact .inl (h_move h rfl rfl (by rintro _ ⟨⟩))
  | unregister d =>
    obtain ⟨⟨err, h_phase⟩, -⟩ := enabled_unregister.mp he
    simp only [next, h_phase] at h
    exact .inl (h_move h rfl rfl (by rintro _ ⟨⟩))
  | cancel d message =>
    have h : Delivered (s.setCall d { s.calls d with ctxErr := some message }) c response := h
    exact .inl (h.of_setCall rfl (fun _ _ h => h) (fun _ h_waiter => .sent h_waiter)
      fun _ h_phase => .returned h_phase)
  | ctxDone d => exact .inl (h_move h rfl rfl (by rintro _ ⟨⟩))
  | closedDone d => exact .inl (h_move h rfl rfl (by rintro _ ⟨⟩))
  | take d =>
    obtain ⟨-, result, h_waiter⟩ := enabled_take.mp he
    simp only [next, h_waiter] at h
    refine .inl (h.of_setCall rfl (fun _ _ h => h) (by rintro _ ⟨⟩) ?_)
    -- What the call returns has been in its channel.
    rintro response' h_phase
    cases h_phase
    exact .sent h_waiter
  | receive incoming =>
    simp only [next, receive] at h
    split at h
    · exact .inl (h.of_idle rfl (by rintro _ _ ⟨⟩))
    · exact .inl (h.of_idle rfl (by rintro _ _ ⟨⟩))
    · split at h
      · exact .inl (h.of_idle rfl (by rintro _ _ ⟨⟩))
      · split at h
        · exact .inl h
        case h_2 response' h_response =>
          split at h
          · exact .inl h
          · cases h with
            | taken h =>
              cases h
              exact .inr ⟨_, rfl, h_response⟩
            | sent h => exact .inl (.sent h)
            | returned h => exact .inl (.returned h)
  | deliver =>
    obtain ⟨d, response', h_serve, -⟩ := enabled_deliver.mp he
    simp only [next, h_serve] at h
    refine .inl (h.of_setCall rfl (by rintro _ _ ⟨⟩) ?_ fun _ h_phase => .returned h_phase)
    -- What is sent to the channel has been taken for the call.
    rintro _ ⟨⟩
    exact .taken h_serve
  | reply =>
    obtain ⟨⟨last, h_serve⟩, -⟩ := enabled_reply.mp he
    simp only [next, h_serve] at h
    split at h
    · exact .inl (h.of_idle rfl (after_ne_delivering last))
    · exact .inl (h.of_idle rfl (by rintro _ _ ⟨⟩))
  | replied err =>
    obtain ⟨last, h_serve⟩ := enabled_replied.mp he
    simp only [next, h_serve] at h
    cases err with
    | none => exact .inl (h.of_idle rfl (after_ne_delivering last))
    | some message => exact .inl (h.of_idle rfl (by rintro _ _ ⟨⟩))
  | replyFailed =>
    obtain ⟨⟨last, h_serve⟩, -⟩ := enabled_replyFailed.mp he
    simp only [next, h_serve] at h
    exact .inl (h.of_idle rfl (after_ne_delivering last))
  | stop => exact .inl (h.of_idle rfl (by rintro _ _ ⟨⟩))
  | responded err =>
    cases err with
    | none => exact .inl (h.of_calls rfl rfl)
    | some message => exact .inl (h.of_calls rfl rfl)
  | respondFailed => exact .inl (h.of_calls rfl rfl)
  | drainTake key =>
    obtain ⟨-, d, h_find⟩ := enabled_drainTake.mp he
    simp only [next, h_find] at h
    exact .inl (h.of_calls rfl rfl)
  | drainSend =>
    obtain ⟨d, h_close, -⟩ := enabled_drainSend.mp he
    simp only [next, h_close] at h
    exact .inl (h.of_setCall rfl (fun _ _ h => h) (by rintro _ ⟨⟩)
      fun _ h_phase => .returned h_phase)
  | respond => exact .inl (h.of_calls rfl rfl)
  | close => exact .inl (h.of_calls rfl rfl)
  | signal => exact .inl (h.of_calls rfl rfl)
  | drain => exact .inl (h.of_calls rfl rfl)
  | drained => exact .inl (h.of_calls rfl rfl)

end BrowserControl.Rpc.Peer
