import BrowserControl.Server.Routing

/-!
# How long a lease lives

A lease is bound to a Chrome instance, not to the connection over which the extension was told of
it. When a connection ends, the leases of the instances that it owns are revoked, one instance
after the other, and everything is stopped if no instance is left. This takes several steps, and
other connections go on in between. Three things go wrong:

* an instance is registered over another connection while a lease claimed over the first one is
  there: the end of the first connection leaves the lease alone, for the instance is not its own
  any more;
* a lease is claimed over a new connection while the end of the old one is still to revoke the
  leases of the same instance, or to stop everything: the new lease is lost;
* two connections end at the same time: the one that finds no instance left stops everything,
  with leases that the end of the other one has not come to.

`leaseLifetime` says that this is all: in the runs where connections end in order (`InOrder`), a
lease is gone when the end of the connection it was claimed over is processed, and the end of a
connection takes no lease that was claimed over a newer one.
-/

namespace BrowserControl.Server.Trusted

open Encoding Protocol BrowserControl.Core BrowserControl.Bridge Transition

variable {ρ γ κ : Type*} [DecidableEq ρ] [DecidableEq γ] [DecidableEq κ]
variable {lib : Library} {leaseTTL : Duration} {eventLimit : ℤ}

/-! ### Statements -/

/-- The instances whose leases the end of a connection is still to revoke. -/
def ConnectionPhase.remaining : ConnectionPhase → List String
  | .disconnected rest => rest
  | .revoking id rest => id :: rest
  | _ => []

namespace State

variable (s : State ρ γ κ)

/-- The connection that a lease was claimed over last. -/
def claimedOver (leaseID : String) : Option ℕ :=
  Roster.last leaseID (s.sent.map fun x => (x.leaseID, x.peer))

/-- The leases of the table that were claimed over a connection, each with that connection. -/
def liveClaims : List (Lease × ℕ) :=
  s.sent.filterMap fun x =>
    ((s.manager.leases x.tabID).filter (·.leaseID = x.leaseID)).bind fun l =>
      (s.claimedOver l.leaseID).map fun p => (l, p)

end State

/-- A connection ends in order. Its `Disconnect` finds that the leases claimed over it are for
instances that it still owns, and that the leases for its instances were not claimed over a newer
connection; and no newer connection has leases to revoke when no instance is left. -/
def EndsInOrder (s : State ρ γ κ) (p : ℕ) : ConnectionPhase → Prop
  | .forgotten => ∀ x ∈ s.liveClaims,
    (x.2 = p → s.registry.owner x.1.browserInstanceID = some p) ∧
      (s.registry.owner x.1.browserInstanceID = some p → x.2 ≤ p)
  | .disconnected [] =>
    s.registry.list = [] → ∀ q < s.accepted, p < q → (s.connections q).remaining = []
  | _ => True

/-- A claim is sent in order: no end of an older connection is to revoke the leases of the same
instance, or to stop everything. -/
def SentInOrder (s : State ρ γ κ) (input : Input) : ClaimPhase → Prop
  | .bound browserInstanceID _ => ∀ q ∈ (s.reaches browserInstanceID input).toList, ∀ p < q,
    browserInstanceID ∉ (s.connections p).remaining ∧ s.connections p ≠ .stopping
  | _ => True

/-- The condition on a step. -/
def InOrder (s : State ρ γ κ) : Event ρ γ → Prop
  | .acceptLoop p _ _ => EndsInOrder s p (s.connections p)
  | .claim t input => SentInOrder s input (s.claims t).phase
  | _ => True

instance (s : State ρ γ κ) (p : ℕ) (phase : ConnectionPhase) :
    Decidable (EndsInOrder s p phase) := by
  unfold EndsInOrder
  split <;> infer_instance

instance (s : State ρ γ κ) (input : Input) (phase : ClaimPhase) :
    Decidable (SentInOrder s input phase) := by
  unfold SentInOrder
  split <;> infer_instance

instance (s : State ρ γ κ) (e : Event ρ γ) : Decidable (InOrder s e) := by
  apply Event.casesOn (motive := fun e => Decidable (InOrder s e)) e <;> intros <;>
    dsimp only [InOrder] <;> infer_instance

/-! ### The end of a connection -/

/-- A step of `acceptLoop` with the connection `p`. -/
inductive LoopStep (s : State ρ γ κ) (p : ℕ) (pick : String) (now : Time) :
    ConnectionPhase → Effects → Prop where
  | forgets (h : s.connections p = .ended) :
      LoopStep s p pick now .forgotten { auth := some (p, false) }
  | disconnects (h : s.connections p = .forgotten) {phase : ConnectionPhase}
      (h_phase : phase.remaining = s.registry.idsOf p)
      (h_over : phase = .finished ∨ ∃ rest, phase = .disconnected rest) :
      LoopStep s p pick now phase { action := some (.disconnect p pick) }
  | stops (h : s.connections p = .disconnected []) (h_list : s.registry.list = []) :
      LoopStep s p pick now .stopping {}
  | ends (h : s.connections p = .disconnected []) : LoopStep s p pick now .finished {}
  -- One id after the other: first the event, then the revocation.
  | picks {rest : List String} (h : s.connections p = .disconnected rest) (h_mem : pick ∈ rest)
      (event : Events.Event) :
      LoopStep s p pick now (.revoking pick (rest.erase pick)) { event := some (event, now) }
  | revokes {id : String} {rest : List String} (h : s.connections p = .revoking id rest) :
      LoopStep s p pick now (.disconnected rest)
        { command := some ⟨.revokeBrowser id "extension disconnected", now⟩ }
  -- It was the last browser: everything is stopped.
  | stopped (h : s.connections p = .stopping) :
      LoopStep s p pick now .finished
        { command := some ⟨.stopAll "extension disconnected", now⟩ }

omit [DecidableEq ρ] [DecidableEq γ] [DecidableEq κ] in
/-- Every turn of the loop of a connection. -/
theorem loopStep {s : State ρ γ κ} {p : ℕ} {pick : String}
    (h : (s.connections p).proceeds pick = true) (now : Time) :
    LoopStep s p pick now (acceptLoop s p pick now).1 (acceptLoop s p pick now).2 := by
  unfold acceptLoop
  split
  -- the connection is forgotten, and then disconnected
  case h_1 h_phase => exact .forgets h_phase
  case h_2 h_phase =>
    refine .disconnects h_phase ?_ ?_
    · dsimp only
      split
      case isTrue h_nil => exact h_nil.symm
      · rfl
    · dsimp only
      split
      · exact .inl rfl
      · exact .inr ⟨_, rfl⟩
  case h_3 h_phase =>
    dsimp only
    split
    case isTrue h_list => exact .stops h_phase h_list
    · exact .ends h_phase
  -- one of the instances that are left is picked
  case h_4 rest h_ne h_phase =>
    rw [h_phase] at h
    refine .picks h_phase ?_ _
    simp only [ConnectionPhase.proceeds, Bool.or_eq_true, decide_eq_true_eq] at h
    exact h.resolve_left h_ne
  case h_5 id rest h_phase => exact .revokes h_phase
  case h_6 h_phase => exact .stopped h_phase
  case h_7 =>
    cases h_phase : s.connections p <;> simp_all [ConnectionPhase.proceeds]

/-! ### Leases that are bound -/

/-- The lease was handed out for the tab and, if it is there, is bound to the instance. -/
structure Tied (s : State ρ γ κ) (leaseID tabID browserInstanceID : String) : Prop where
  nonempty : browserInstanceID ≠ ""
  issued : leaseID ∈ s.table.issued
  bound : ∀ tab l, s.manager.leases tab = some l → l.leaseID = leaseID →
    tab = tabID ∧ l.browserInstanceID = browserInstanceID

section Tied

variable {s : State ρ γ κ} {e : Event ρ γ}

/-- A lease that was handed out before was there before, and stays bound. -/
theorem kept {leaseID tab : String} {l : Lease} (he : enabled lib s e)
    (h_issued : leaseID ∈ s.table.issued) (hl : (next lib s e).manager.leases tab = some l)
    (h_id : l.leaseID = leaseID) : ∃ l₀, s.manager.leases tab = some l₀ ∧ l₀.Renews l := by
  have h_fresh := he.2
  rw [State.manager, table_next] at hl
  generalize (effects lib s e).command = command at h_fresh hl
  cases command with
  | none => exact ⟨l, hl, .refl l⟩
  | some e' =>
    have h_enabled := (h_fresh e' (Option.mem_toList.mpr rfl)).1
    exact LeaseTable.kept_of_issued h_enabled h_issued hl h_id

/-- A lease that was issued stays so. -/
theorem issued_next {leaseID : String} (h : leaseID ∈ s.table.issued) :
    leaseID ∈ (next lib s e).table.issued := by
  rw [table_next]
  split
  · exact LeaseTable.issued_next h
  · exact h

/-- A lease stays tied to its browser. -/
theorem Tied.next {leaseID tabID browserInstanceID : String}
    (h : Tied s leaseID tabID browserInstanceID) (he : enabled lib s e) :
    Tied (next lib s e) leaseID tabID browserInstanceID where
  nonempty := h.nonempty
  issued := issued_next h.issued
  bound tab l hl h_id := by
    obtain ⟨l₀, hl₀, h_renews⟩ := kept he h.issued hl h_id
    obtain ⟨h_tab, h_browser⟩ := h.bound tab l₀ hl₀ (h_renews.leaseID.symm.trans h_id)
    exact ⟨h_tab, (h_renews.browser (h_browser ▸ h.nonempty)).trans h_browser⟩

/-- The table of leases keeps its invariant. -/
theorem tableInv_next (h : LeaseTable.Inv s.table) (he : enabled lib s e) :
    LeaseTable.Inv (next lib s e).table := by
  have h_fresh := he.2
  rw [table_next]
  generalize (effects lib s e).command = command at h_fresh ⊢
  cases command with
  | none => exact h
  | some e' => exact h.next (h_fresh e' (Option.mem_toList.mpr rfl)).1

end Tied

/-- What an event does to a claim: it stays, or it does not become bound, or it is bound. -/
theorem claim_next {s : State ρ γ κ} {e : Event ρ γ} {t : γ} {browserInstanceID : String}
    {l : Lease} (h : ((next lib s e).claims t).phase = .bound browserInstanceID l) :
    (s.claims t).phase = .bound browserInstanceID l ∧
        ((next lib s e).claims t).params = (s.claims t).params ∨
      ∃ input l₀, e = .claim t input ∧ (s.claims t).phase = .claimed browserInstanceID l₀ ∧
        ((next lib s e).claims t).params = (s.claims t).params ∧
        (s.manager.bindLeaseBrowser input.now (stringField (s.claims t).params "sessionId")
          (stringField (s.claims t).params "tabId") l₀.leaseID browserInstanceID).result =
        .ok l := by
  cases e with
  | startClaim t' params =>
    change (Function.update s.claims t' _ t).phase = _ at h
    change _ ∧ (Function.update s.claims t' _ t).params = _ ∨ _
    -- another claim moves, or this one
    by_cases ht : t = t'
    · subst ht
      rw [Function.update_self] at h
      unfold startClaim at h
      split at h <;> contradiction
    · rw [Function.update_of_ne ht] at h ⊢
      exact .inl ⟨h, rfl⟩
  | claim t' input =>
    change (Function.update s.claims t' _ t).phase = _ at h
    have h_params : ((next lib s (.claim t' input)).claims t).params = (s.claims t).params := by
      show (Function.update s.claims t' _ t).params = _
      by_cases ht : t = t'
      · rw [ht, Function.update_self]
      · rw [Function.update_of_ne ht]
    by_cases ht : t = t'
    · subst ht
      rw [Function.update_self] at h
      have h_step := tabClaim_step lib s (s.claims t) input
      change (tabClaim lib s (s.claims t) input).1 = _ at h
      generalize (tabClaim lib s (s.claims t) input).1 = phase,
        (tabClaim lib s (s.claims t) input).2 = effects at h h_step
      cases h_step with
      | idle h_idle =>
        rw [h] at h_idle
        contradiction
      | bound h_phase h_result =>
        obtain ⟨rfl, rfl⟩ := ClaimPhase.bound.inj h
        exact .inr ⟨input, _, rfl, h_phase, h_params, h_result⟩
      | _ => contradiction
    · rw [Function.update_of_ne ht] at h
      exact .inl ⟨h, h_params⟩
  | _ => exact .inl ⟨h, rfl⟩

/-! ### Where a lease stands -/

/-- What holds of a lease of the table for the instance `id` that was claimed over the connection
`q`, in runs where connections end in order. -/
structure Fits (s : State ρ γ κ) (id : String) (q : ℕ) : Prop where
  /-- Somebody will revoke the lease. -/
  watched : s.registry.owner id ≠ none ∨ ∃ p, id ∈ (s.connections p).remaining
  own : (s.connections q).isDisconnected = true → id ∈ (s.connections q).remaining
  revoked : ∀ p, id ∈ (s.connections p).remaining → q ≤ p
  stopped : ∀ p, s.connections p = .stopping → q ≤ p

section Fits

variable {s s' : State ρ γ κ} {e : Event ρ γ} {id : String} {p q : ℕ}

omit [DecidableEq ρ] [DecidableEq γ] [DecidableEq κ] in
/-- A step that leaves the instances that remain as they are. -/
theorem Fits.of_same (h : Fits s id q)
    (h_owner : s.registry.owner id ≠ none → s'.registry.owner id ≠ none)
    (h_same : ∀ p, (id ∈ (s'.connections p).remaining ↔ id ∈ (s.connections p).remaining) ∧
      (s'.connections p).isDisconnected = (s.connections p).isDisconnected ∧
      (s'.connections p = .stopping → s.connections p = .stopping)) : Fits s' id q where
  watched := by
    refine h.watched.imp h_owner ?_
    rintro ⟨p, hp⟩
    exact ⟨p, (h_same p).1.mpr hp⟩
  own h_dis := by
    rw [(h_same q).2.1] at h_dis
    exact (h_same q).1.mpr (h.own h_dis)
  revoked p hp := h.revoked p ((h_same p).1.mp hp)
  stopped p hp := h.stopped p ((h_same p).2.2 hp)

/-- Only a `Disconnect` makes an instance lose its owner. -/
theorem owner_next (h_none : ∀ p, disconnects s p e = false)
    (h : s.registry.owner id ≠ none) : (next lib s e).registry.owner id ≠ none := by
  have h_acts := acts lib s e
  rw [registry_next]
  generalize (effects lib s e).action = action at h_acts ⊢
  cases h_acts with
  | nothing => exact h
  | touched _ p now =>
    show (s.registry.touch p now).owner id ≠ none
    rwa [Registry.owner_touch]
  -- a registration may change the owner, but leaves one
  | @registered r input _ _ _ hello now =>
    show ((Action.register (s.requests r).peer hello now).run s.registry).owner id ≠ none
    rw [Action.owner_run_register]
    split
    · exact Option.some_ne_none _
    · exact h
  -- a connection that disconnects is excluded
  | @disconnected p pick now h_loop h_phase =>
    have h_some : disconnects s p e = true := by
      rw [h_loop]
      simp [disconnects, h_phase]
    rw [h_none p] at h_some
    contradiction

/-- What the end of the connection `p` does to the connections. -/
theorem connections_acceptLoop (lib : Library) (s : State ρ γ κ) (p : ℕ) (pick : String)
    (now : Time) (p' : ℕ) : (next lib s (.acceptLoop p pick now)).connections p' =
      if p' = p then (acceptLoop s p pick now).1 else s.connections p' := by
  show Function.update s.connections p _ p' = _
  by_cases h : p' = p
  · rw [h, Function.update_self, if_pos rfl]
  · rw [Function.update_of_ne h, if_neg h]

/-- An event that is no step of `acceptLoop` leaves what remains as it is. -/
theorem connections_other (hs : (machine ρ γ κ lib leaseTTL eventLimit).Reachable s)
    (he : enabled lib s e) (h : ∀ p pick now, e ≠ .acceptLoop p pick now) (p : ℕ) :
    ((next lib s e).connections p).remaining = (s.connections p).remaining ∧
      ((next lib s e).connections p).isDisconnected = (s.connections p).isDisconnected ∧
      ((next lib s e).connections p = .stopping → s.connections p = .stopping) := by
  have h_takes := he.1
  cases e with
  -- a new connection has nothing left to do
  | accept =>
    change (Function.update s.connections s.accepted .serving p).remaining = _ ∧
      (Function.update s.connections s.accepted .serving p).isDisconnected = _ ∧
      (Function.update s.connections s.accepted .serving p = _ → _)
    by_cases hp : p = s.accepted
    · rw [hp, Function.update_self, outside_of_le hs _ le_rfl]
      exact ⟨rfl, rfl, by rintro ⟨⟩⟩
    · rw [Function.update_of_ne hp]
      exact ⟨rfl, rfl, fun h => h⟩
  -- one that ends has not begun to disconnect
  | ended p' =>
    have h_serving : s.connections p' = .serving := h_takes
    change (Function.update s.connections p' .ended p).remaining = _ ∧
      (Function.update s.connections p' .ended p).isDisconnected = _ ∧
      (Function.update s.connections p' .ended p = _ → _)
    by_cases hp : p = p'
    · rw [hp, Function.update_self, h_serving]
      exact ⟨rfl, rfl, by rintro ⟨⟩⟩
    · rw [Function.update_of_ne hp]
      exact ⟨rfl, rfl, fun h => h⟩
  | acceptLoop p' pick now => exact absurd rfl (h p' pick now)
  | _ => exact ⟨rfl, rfl, fun h => h⟩

/-- A step of `acceptLoop` other than a `Disconnect` leaves an instance as it is, if the phase
does. -/
theorem Fits.of_phase {pick : String} {now : Time} {phase : ConnectionPhase} (h : Fits s id q)
    (h_phase : (acceptLoop s p pick now).1 = phase) (h_ne : s.connections p ≠ .forgotten)
    (h_remaining : id ∈ phase.remaining ↔ id ∈ (s.connections p).remaining)
    (h_dis : phase.isDisconnected = (s.connections p).isDisconnected)
    (h_stopping : phase = .stopping → q ≤ p) :
    Fits (next lib s (.acceptLoop p pick now)) id q where
  -- the owner, or a connection that has still to revoke
  watched := by
    refine h.watched.imp (owner_next (disconnects_of_ne h_ne pick now)) ?_
    rintro ⟨p', hp'⟩
    refine ⟨p', ?_⟩
    rw [connections_acceptLoop, h_phase]
    split
    case isTrue hp => exact h_remaining.mpr (hp ▸ hp')
    · exact hp'
  -- the connection that the lease was claimed over
  own := by
    rw [connections_acceptLoop, h_phase]
    split
    case isTrue hp =>
      intro h_after
      rw [h_dis, ← hp] at h_after
      rw [h_remaining, ← hp]
      exact h.own h_after
    · exact h.own
  revoked p' := by
    rw [connections_acceptLoop, h_phase]
    split
    case isTrue hp => exact fun h_mem => h.revoked p' (hp ▸ h_remaining.mp h_mem)
    · exact h.revoked p'
  stopped p' := by
    rw [connections_acceptLoop, h_phase]
    split
    case isTrue hp => exact fun h_stop => hp ▸ h_stopping h_stop
    · exact h.stopped p'

/-- The `Disconnect` of a connection, whose instances remain. -/
theorem Fits.of_disconnect {pick : String} {now : Time} {l : Lease}
    (h : Fits s l.browserInstanceID q)
    (h_phase : s.connections p = .forgotten) (h_live : (l, q) ∈ s.liveClaims)
    (h_order : InOrder s (.acceptLoop p pick now : Event ρ γ))
    (h_remaining : (acceptLoop s p pick now).1.remaining = s.registry.idsOf p)
    (h_over : (acceptLoop s p pick now).1 = .finished ∨
      ∃ rest, (acceptLoop s p pick now).1 = .disconnected rest) :
    Fits (next lib s (.acceptLoop p pick now)) l.browserInstanceID q := by
  have h_claims : EndsInOrder s p (s.connections p) := h_order
  rw [h_phase] at h_claims
  obtain ⟨h_own, h_older⟩ := h_claims (l, q) h_live
  have h_mem : l.browserInstanceID ∈ (acceptLoop s p pick now).1.remaining ↔
      s.registry.owner l.browserInstanceID = some p := by
    rw [h_remaining, Registry.mem_idsOf]
  have h_registry : (next lib s (.acceptLoop p pick now : Event ρ γ)).registry =
      (s.registry.disconnect p pick).1 := by
    have h_action : (effects lib s (.acceptLoop p pick now : Event ρ γ)).action =
        some (.disconnect p pick) := by
      show (acceptLoop s p pick now).2.action = _
      unfold acceptLoop
      rw [h_phase]
    rw [registry_next, h_action]
    rfl
  have h_before : (s.connections p).remaining = [] := by rw [h_phase]; rfl
  refine ⟨?_, ?_, fun p' => ?_, fun p' => ?_⟩
  -- if the connection owned the instance, it is now the one that revokes
  · by_cases h_owner : s.registry.owner l.browserInstanceID = some p
    · refine .inr ⟨p, ?_⟩
      rw [connections_acceptLoop, if_pos rfl]
      exact h_mem.mpr h_owner
    · rw [h_registry, Registry.owner_disconnect, if_neg h_owner]
      refine h.watched.imp_right ?_
      rintro ⟨p', hp'⟩
      have h_ne : p' ≠ p := by
        rintro rfl
        rw [h_before] at hp'
        exact List.not_mem_nil hp'
      refine ⟨p', ?_⟩
      rwa [connections_acceptLoop, if_neg h_ne]
  · rw [connections_acceptLoop]
    split
    case isTrue hq => exact fun _ => h_mem.mpr (h_own hq)
    · exact h.own
  · rw [connections_acceptLoop]
    split
    case isTrue hp =>
      intro h_after
      rw [hp]
      exact h_older (h_mem.mp h_after)
    · exact h.revoked p'
  · rw [connections_acceptLoop]
    split
    · intro h_stopping
      rcases h_over with h_fin | ⟨rest, h_dis⟩
      · cases h_fin.symm.trans h_stopping
      · cases h_dis.symm.trans h_stopping
    · exact h.stopped p'

/-- **A lease in order.** What holds of a lease that was claimed over a connection stays true as
long as the lease is there. -/
theorem Fits.next (hs : (machine ρ γ κ lib leaseTTL eventLimit).Reachable s)
    (he : enabled lib s e) (h_order : InOrder s e) {l : Lease} (h_live : (l, q) ∈ s.liveClaims)
    (h_after : ∃ tab l', (next lib s e).manager.leases tab = some l' ∧
      l'.browserInstanceID = l.browserInstanceID)
    (h : Fits s l.browserInstanceID q) : Fits (next lib s e) l.browserInstanceID q := by
  by_cases h_loop : ∃ p pick now, e = .acceptLoop p pick now
  -- no connection ends: owners and duties are as before
  case neg =>
    push Not at h_loop
    have h_none : ∀ p, disconnects s p e = false := by
      intro p
      cases e with
      | acceptLoop p' pick now => exact absurd rfl (h_loop p' pick now)
      | _ => rfl
    refine h.of_same (owner_next h_none) fun p => ?_
    obtain ⟨h_remaining, h_dis, h_stopping⟩ := connections_other hs he h_loop p
    exact ⟨by rw [h_remaining], h_dis, h_stopping⟩
  case pos =>
    obtain ⟨p, pick, now, rfl⟩ := h_loop
    have h_step := loopStep he.1 now
    generalize h_phase : (acceptLoop s p pick now).1 = phase,
      h_eff : (acceptLoop s p pick now).2 = eff at h_step
    -- The manager after a step that runs a command.
    have h_manager : ∀ {e'}, eff.command = some e' →
        (Trusted.next lib s (.acceptLoop p pick now : Event ρ γ)).manager =
          (e'.command.run s.manager e'.now).manager := by
      intro e' h_command
      have h_effects : (effects lib s (.acceptLoop p pick now : Event ρ γ)).command = some e' :=
        (congrArg Effects.command h_eff).trans h_command
      rw [State.manager, table_next, h_effects]
      rfl
    -- a connection ends, step by step
    cases h_step with
    | forgets h_ended =>
      refine h.of_phase h_phase ?_ ?_ ?_ (by rintro ⟨⟩) <;> rw [h_ended]
      · rintro ⟨⟩
      · rfl
      · rfl
    | disconnects h_forgotten h_remaining h_over =>
      exact h.of_disconnect h_forgotten h_live h_order (h_phase ▸ h_remaining) (h_phase ▸ h_over)
    | stops h_dis h_list =>
      refine h.of_phase h_phase ?_ ?_ ?_ fun _ => ?_
      · rw [h_dis]; rintro ⟨⟩
      · rw [h_dis]; rfl
      · rw [h_dis]; rfl
      · -- No instance is left, so some connection is still to revoke the lease.
        have h_claims : EndsInOrder s p (s.connections p) := h_order
        rw [h_dis] at h_claims
        obtain ⟨p', hp'⟩ := h.watched.resolve_left fun h_owner =>
          h_owner (s.registry.list_eq_nil_iff.mp h_list _)
        have h_le : q ≤ p' := h.revoked p' hp'
        have h_accepted : p' < s.accepted := by
          by_contra h_ge
          rw [outside_of_le hs p' (not_lt.mp h_ge)] at hp'
          exact List.not_mem_nil hp'
        by_contra h_lt
        have h_newer : p < p' := lt_of_lt_of_le (not_le.mp h_lt) h_le
        rw [h_claims h_list p' h_accepted h_newer] at hp'
        exact List.not_mem_nil hp'
    | ends h_dis =>
      refine h.of_phase h_phase ?_ ?_ ?_ (by rintro ⟨⟩) <;> rw [h_dis]
      · rintro ⟨⟩
      · rfl
      · rfl
    | picks h_dis h_mem =>
      refine h.of_phase h_phase ?_ ?_ ?_ (by rintro ⟨⟩) <;> rw [h_dis]
      · rintro ⟨⟩
      · exact (List.perm_cons_erase h_mem).symm.mem_iff
      · rfl
    | @revokes id rest h_revoking =>
      have h_ne : l.browserInstanceID ≠ id := by
        rintro rfl
        obtain ⟨tab, l', hl', h_browser⟩ := h_after
        rw [h_manager rfl] at hl'
        have h_kept := (Option.filter_eq_some_iff.mp hl').2
        simp [h_browser] at h_kept
      refine h.of_phase h_phase ?_ ?_ ?_ (by rintro ⟨⟩) <;> rw [h_revoking]
      · rintro ⟨⟩
      · exact ⟨List.mem_cons_of_mem id, fun h_mem => (List.mem_cons.mp h_mem).resolve_left h_ne⟩
      · rfl
    | stopped h_stopping =>
      obtain ⟨tab, l', hl', -⟩ := h_after
      rw [h_manager rfl] at hl'
      exact absurd (Option.filter_eq_some_iff.mp hl').2 (by simp)

end Fits

/-! ### The invariant -/

/-- The claims, the connections and the leases agree. -/
structure Inv (s : State ρ γ κ) : Prop where
  table : LeaseTable.Inv s.table
  bound : ∀ t id l, (s.claims t).phase = .bound id l →
    Tied s l.leaseID (stringField (s.claims t).params "tabId") id
  sent : ∀ x ∈ s.sent, ∃ id, Tied s x.leaseID x.tabID id
  fits : ∀ tab l q, s.manager.leases tab = some l → s.claimedOver l.leaseID = some q →
    Fits s l.browserInstanceID q

section Inv

variable {s : State ρ γ κ} {e : Event ρ γ}

omit [DecidableEq ρ] [DecidableEq γ] [DecidableEq κ] in
/-- A claim reaches a connection that serves. -/
theorem reaches_eq_some {id : String} {input : Input} {q : ℕ}
    (h : s.reaches id input = some q) :
    s.registry.owner id = some q ∧ s.connections q = .serving := by
  unfold State.reaches at h
  split at h
  case h_1 peer _ h_owner _ =>
    split at h
    case isTrue h_serving =>
      obtain rfl := Option.some_inj.mp h
      exact ⟨h_owner, h_serving⟩
    · contradiction
  · contradiction

omit [DecidableEq ρ] [DecidableEq γ] [DecidableEq κ] in
/-- What a step sends to the extension. -/
theorem sends_eq_some {x : Sent} (h : sends s e = some x) :
    ∃ t input id l, e = .claim t input ∧ (s.claims t).phase = .bound id l ∧
      x.leaseID = l.leaseID ∧ x.tabID = stringField (s.claims t).params "tabId" ∧
      s.reaches id input = some x.peer := by
  cases e with
  | claim t input =>
    unfold sends at h
    dsimp only at h
    split at h
    case h_1 id l h_phase =>
      obtain ⟨q, h_reaches, rfl⟩ := Option.map_eq_some_iff.mp h
      exact ⟨t, input, id, l, rfl, h_phase, rfl, rfl, h_reaches⟩
    · contradiction
  | _ => contradiction

omit [DecidableEq ρ] [DecidableEq γ] [DecidableEq κ] in
/-- A lease that was claimed over a connection was sent there. -/
theorem mem_sent_of_claimedOver {leaseID : String} {q : ℕ} (h : s.claimedOver leaseID = some q) :
    ∃ x ∈ s.sent, x.leaseID = leaseID ∧ x.peer = q := by
  obtain ⟨y, h_find, h_peer⟩ := Option.map_eq_some_iff.mp h
  obtain ⟨x, h_mem, rfl⟩ := List.mem_map.mp (List.mem_of_find?_eq_some h_find)
  exact ⟨x, h_mem, by simpa using List.find?_some h_find, h_peer⟩

/-- The last connection over which a lease was claimed. -/
theorem claimedOver_next (leaseID : String) : (next lib s e).claimedOver leaseID =
    match sends s e with
    | some x => if x.leaseID = leaseID then some x.peer else s.claimedOver leaseID
    | none => s.claimedOver leaseID := by
  show Roster.last leaseID (((sends s e).toList ++ s.sent).map _) = _
  split
  case h_1 x h_sends =>
    rw [h_sends, Option.toList_some, List.singleton_append, List.map_cons, Roster.last_cons]
    rfl
  case h_2 h_sends =>
    rw [h_sends, Option.toList_none, List.nil_append]
    rfl

omit [DecidableEq ρ] [DecidableEq γ] [DecidableEq κ] in
/-- A lease that lives is among the live claims. -/
theorem Inv.mem_liveClaims (h : Inv s) {tab : String} {l : Lease} {q : ℕ}
    (hl : s.manager.leases tab = some l) (h_over : s.claimedOver l.leaseID = some q) :
    (l, q) ∈ s.liveClaims := by
  obtain ⟨x, h_x, h_id, -⟩ := mem_sent_of_claimedOver h_over
  obtain ⟨id, h_tied⟩ := h.sent x h_x
  obtain ⟨h_tab, -⟩ := h_tied.bound tab l hl h_id.symm
  refine List.mem_filterMap.mpr ⟨x, h_x, ?_⟩
  rw [← h_tab, hl, Option.filter_some, if_pos (decide_eq_true h_id.symm), Option.bind_some,
    h_over, Option.map_some]

/-- A claim has bound its lease. -/
theorem Inv.tied_of_bind (h : LeaseTable.Inv (next lib s e).table) {t : γ} {input : Input}
    {id : String} {l₀ l : Lease} (h_claim : e = .claim t input)
    (h_phase : (s.claims t).phase = .claimed id l₀)
    (h_ok : (s.manager.bindLeaseBrowser input.now (stringField (s.claims t).params "sessionId")
      (stringField (s.claims t).params "tabId") l₀.leaseID id).result = .ok l) :
    Tied (next lib s e) l.leaseID (stringField (s.claims t).params "tabId") id := by
  obtain ⟨h_lease, h_browser, h_ne⟩ := Manager.bindLeaseBrowser_ok h_ok
  have h_command : (effects lib s e).command = some ⟨.bindLeaseBrowser
      (stringField (s.claims t).params "sessionId") (stringField (s.claims t).params "tabId")
      l₀.leaseID id, input.now⟩ := by
    rw [h_claim]
    show (tabClaim lib s (s.claims t) input).2.command = _
    unfold tabClaim
    rw [h_phase]
    show (bindLease s (s.claims t).params input.now id l₀).2.command = _
    unfold bindLease
    dsimp only
    split <;> rfl
  -- the lease is in the table, with the instance it was bound to
  have h_lease' : (next lib s e).manager.leases (stringField (s.claims t).params "tabId") =
      some l := by
    rw [State.manager, table_next, h_command]
    exact h_lease
  refine ⟨h_ne, h.issued l.leaseID ⟨_, l, h_lease', rfl⟩, fun tab l₁ hl₁ h_id => ?_⟩
  have h_tab := h.unique tab _ l₁ l hl₁ h_lease' h_id
  rw [h_tab, h_lease', Option.some_inj] at hl₁
  exact ⟨h_tab, hl₁ ▸ h_browser⟩

/-- The lease of a claim that is sent. -/
theorem Inv.fits_of_sent (h : Inv s) (hs : (machine ρ γ κ lib leaseTTL eventLimit).Reachable s)
    (he : enabled lib s e) (h_order : InOrder s e) {x : Sent} (h_sends : sends s e = some x)
    {tab : String} {l : Lease} (hl : (next lib s e).manager.leases tab = some l)
    (h_id : x.leaseID = l.leaseID) : Fits (next lib s e) l.browserInstanceID x.peer := by
  obtain ⟨t, input, id, l₁, h_claim, h_phase, h_lease, -, h_reaches⟩ := sends_eq_some h_sends
  obtain ⟨h_owner, h_serving⟩ := reaches_eq_some h_reaches
  -- the claim has bound the lease to the instance that it reaches
  have h_tied := (h.bound t id l₁ h_phase).next he
  have h_browser : l.browserInstanceID = id :=
    (h_tied.bound tab l hl (h_id.symm.trans h_lease)).2
  have h_loop : ∀ p pick now, e ≠ .acceptLoop p pick now := by
    rw [h_claim]
    exact fun _ _ _ => (by rintro ⟨⟩)
  have h_same := connections_other hs he h_loop
  have h_none : ∀ p, disconnects s p e = false := by
    rw [h_claim]
    exact fun _ => rfl
  have h_sent : SentInOrder s input (s.claims t).phase := by
    rw [h_claim] at h_order
    exact h_order
  rw [h_phase] at h_sent
  -- by the condition no older connection is still to revoke
  have h_order' : ∀ p < x.peer, id ∉ (s.connections p).remaining ∧ s.connections p ≠ .stopping :=
    h_sent x.peer (Option.mem_toList.mpr h_reaches)
  rw [h_browser]
  refine ⟨.inl (owner_next h_none (by rw [h_owner]; exact Option.some_ne_none _)), ?_, ?_, ?_⟩
  · intro h_dis
    rw [(h_same x.peer).2.1, h_serving] at h_dis
    contradiction
  · intro p hp
    rw [(h_same p).1] at hp
    by_contra h_lt
    exact (h_order' p (not_le.mp h_lt)).1 hp
  · intro p hp
    by_contra h_lt
    exact (h_order' p (not_le.mp h_lt)).2 ((h_same p).2.2 hp)

/-- Every step in order keeps the invariant. -/
theorem Inv.next (h : Inv s) (hs : (machine ρ γ κ lib leaseTTL eventLimit).Reachable s)
    (he : enabled lib s e) (h_order : InOrder s e) : Inv (next lib s e) where
  table := tableInv_next h.table he
  bound t id l h_phase := by
    rcases claim_next h_phase with
      ⟨h_before, h_params⟩ | ⟨input, l₀, h_claim, h_before, h_params, h_ok⟩
    · rw [h_params]
      exact (h.bound t id l h_before).next he
    · rw [h_params]
      exact Inv.tied_of_bind (tableInv_next h.table he) h_claim h_before h_ok
  sent x h_x := by
    rcases List.mem_append.mp h_x with h_new | h_old
    · obtain ⟨t, input, id, l, -, h_phase, h_lease, h_tab, -⟩ :=
        sends_eq_some (Option.mem_toList.mp h_new)
      rw [h_lease, h_tab]
      exact ⟨id, (h.bound t id l h_phase).next he⟩
    · obtain ⟨id, h_tied⟩ := h.sent x h_old
      exact ⟨id, h_tied.next he⟩
  fits tab l q hl h_over := by
    -- A lease that was claimed over a connection before.
    have h_old : s.claimedOver l.leaseID = some q →
      Fits (Trusted.next lib s e) l.browserInstanceID q := by
      intro h_before
      obtain ⟨x, h_x, h_id, -⟩ := mem_sent_of_claimedOver h_before
      obtain ⟨id, h_tied⟩ := h.sent x h_x
      obtain ⟨l₀, hl₀, h_renews⟩ := kept he (h_id ▸ h_tied.issued) hl rfl
      have h_browser : l.browserInstanceID = l₀.browserInstanceID := by
        obtain ⟨-, h_l⟩ := (h_tied.next he).bound tab l hl h_id.symm
        obtain ⟨-, h_l₀⟩ := h_tied.bound tab l₀ hl₀ (h_renews.leaseID.symm.trans h_id.symm)
        exact h_l.trans h_l₀.symm
      rw [h_renews.leaseID] at h_before
      rw [h_browser]
      exact (h.fits tab l₀ q hl₀ h_before).next hs he h_order (h.mem_liveClaims hl₀ h_before)
        ⟨tab, l, hl, h_browser⟩
    rw [claimedOver_next] at h_over
    split at h_over
    case h_1 x h_sends =>
      split at h_over
      case isTrue h_id =>
        obtain rfl := Option.some_inj.mp h_over
        exact h.fits_of_sent hs he h_order h_sends hl h_id
      · exact h_old h_over
    · exact h_old h_over

/-- It holds in every state that is reached in order. -/
theorem inv (h : ((machine ρ γ κ lib leaseTTL eventLimit).restrict InOrder).Reachable s) :
    Inv s := by
  refine h.induction ?_ fun s e hs h_inv he => h_inv.next hs.of_restrict he.1 he.2
  exact ⟨LeaseTable.inv .init, by rintro _ _ _ ⟨⟩, by rintro _ ⟨⟩, by rintro _ _ _ ⟨⟩⟩

end Inv

/-- **How long a lease lives.** In every run in which connections end in order: when the end of a
connection is processed, no lease that was claimed over it is left; and a step of the end of a
connection takes no lease that was claimed over a newer connection, and does not close its
session. -/
theorem leaseLifetime {s : State ρ γ κ}
    (h : ((machine ρ γ κ lib leaseTTL eventLimit).restrict InOrder).Reachable s) :
    (∀ p, s.connections p = .finished → ∀ tab l, s.manager.leases tab = some l →
      s.claimedOver l.leaseID ≠ some p) ∧
    ∀ p pick now, enabled lib s (.acceptLoop p pick now) →
      ∀ tab l q, s.manager.leases tab = some l → s.claimedOver l.leaseID = some q → p < q →
        (next lib s (.acceptLoop p pick now)).manager.leases tab = some l ∧
          (next lib s (.acceptLoop p pick now)).manager.sessions l.sessionID =
            s.manager.sessions l.sessionID := by
  have h_inv := inv h
  refine ⟨fun p h_finished tab l hl h_over => ?_, ?_⟩
  -- a connection that has finished has revoked its leases
  · have h_own := (h_inv.fits tab l p hl h_over).own
    rw [h_finished] at h_own
    exact List.not_mem_nil (h_own rfl)
  -- an older connection does not take a newer lease away
  · intro p pick now he tab l q hl h_over h_newer
    have h_fits := h_inv.fits tab l q hl h_over
    have h_step := loopStep he.1 now
    have h_effects : effects lib s (.acceptLoop p pick now) = (acceptLoop s p pick now).2 := rfl
    rw [State.manager, table_next, h_effects]
    generalize (acceptLoop s p pick now).1 = phase, (acceptLoop s p pick now).2 = eff at h_step ⊢
    cases h_step with
    | @revokes id rest h_revoking =>
      have h_ne : l.browserInstanceID ≠ id := by
        intro h_id
        refine absurd h_newer (not_lt.mpr (h_fits.revoked p ?_))
        rw [h_revoking, h_id]
        exact List.mem_cons_self
      refine ⟨?_, rfl⟩
      show (s.manager.leases tab).filter _ = some l
      rw [hl, Option.filter_some, if_pos (by simp [h_ne])]
    | stopped h_stopping => exact absurd h_newer (not_lt.mpr (h_fits.stopped p h_stopping))
    | _ => exact ⟨hl, rfl⟩

/-- A tab is claimed in an instance. -/
def claiming (t : γ) (tabID leaseID browserInstanceID : String) : List (Event ρ γ) :=
  [.startClaim t (.ofFields [("sessionId", .str "ses_1"), ("tabId", .str tabID),
      ("browserInstanceId", .str browserInstanceID)]),
    .claim t {}, .claim t { id := leaseID }, .claim t {}, .claim t {}, .claim t {}]

/-- Two instances over two connections, with a claimed tab each; the first connection ends. -/
def twoInstances : List (Event (Fin 4) (Fin 2)) :=
  connection 0 0 1 "chrome_1" ++ connection 1 2 3 "chrome_2" ++
    .command (.openSession "ses_1" "" "") 0 :: claiming 0 "7" "lease_1" "chrome_1" ++
    claiming 1 "8" "lease_2" "chrome_2" ++ disconnection 0 ++ revocation 0 "chrome_1"

/-- The lease of the first connection is gone, the other one is not. -/
theorem leaseLifetime_ended :
    (∀ tab l, (after Unit sampleLibrary 0 0 twoInstances).manager.leases tab = some l →
      (after Unit sampleLibrary 0 0 twoInstances).claimedOver l.leaseID ≠ some 0) ∧
    ((after Unit sampleLibrary 0 0 twoInstances).manager.leases "8").map (·.leaseID) =
      some "lease_2" := by
  have h : ((machine (Fin 4) (Fin 2) Unit sampleLibrary 0 0).restrict InOrder).Runs
        (machine (Fin 4) (Fin 2) Unit sampleLibrary 0 0).init twoInstances ∧
      (after Unit sampleLibrary 0 0 twoInstances).connections 0 = .finished ∧
      ((after Unit sampleLibrary 0 0 twoInstances).manager.leases "8").map (·.leaseID) =
        some "lease_2" := by
    decide +kernel
  obtain ⟨h_runs, h_finished, h_other⟩ := h
  -- The run keeps the order that the theorem asks for.
  have h_reachable : ((machine (Fin 4) (Fin 2) Unit sampleLibrary 0 0).restrict InOrder).Reachable
      (after Unit sampleLibrary 0 0 twoInstances) := by
    have h := h_runs.reachable
    rwa [Machine.exec_restrict, Machine.restrict_init] at h
  generalize after Unit sampleLibrary 0 0 twoInstances = s at *
  exact ⟨(leaseLifetime h_reachable).1 0 h_finished, h_other⟩

/-- A connection with a claimed tab is replaced, and ends. -/
def displaced : List (Event (Fin 4) (Fin 2)) :=
  connection 0 0 1 "chrome_1" ++ .command (.openSession "ses_1" "" "") 0 ::
    claiming 0 "7" "lease_1" "chrome_1" ++ connection 1 2 3 "chrome_1" ++ disconnection 0

/-- A tab is claimed over a new connection before the leases of the old one are revoked. -/
def reconnected : List (Event (Fin 4) (Fin 2)) :=
  connection 0 0 1 "chrome_1" ++ .command (.openSession "ses_1" "" "") 0 :: disconnection 0 ++
    connection 1 2 3 "chrome_1" ++ claiming 0 "7" "lease_1" "chrome_1" ++
    [.acceptLoop 0 "chrome_1" 0]

/-- The lease of a connection whose end is processed stays, and the end of a connection takes the
lease of a newer one. -/
theorem not_leaseLifetime_newConnection :
    ((machine (Fin 4) (Fin 2) Unit sampleLibrary 0 0).Runs
        (machine (Fin 4) (Fin 2) Unit sampleLibrary 0 0).init displaced ∧
      (after Unit sampleLibrary 0 0 displaced).connections 0 = .finished ∧
      ((after Unit sampleLibrary 0 0 displaced).manager.leases "7").map (·.leaseID) =
        some "lease_1" ∧
      (after Unit sampleLibrary 0 0 displaced).claimedOver "lease_1" = some 0) ∧
    ((machine (Fin 4) (Fin 2) Unit sampleLibrary 0 0).Runs
        (machine (Fin 4) (Fin 2) Unit sampleLibrary 0 0).init
        (reconnected ++ [.acceptLoop 0 "" 0]) ∧
      ((after Unit sampleLibrary 0 0 reconnected).manager.leases "7").map (·.leaseID) =
        some "lease_1" ∧
      (after Unit sampleLibrary 0 0 reconnected).claimedOver "lease_1" = some 1 ∧
      (after Unit sampleLibrary 0 0 (reconnected ++ [.acceptLoop 0 "" 0])).manager.leases "7" =
        none) := by
  decide +kernel

end BrowserControl.Server.Trusted
