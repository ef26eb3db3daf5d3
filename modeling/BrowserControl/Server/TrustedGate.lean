import BrowserControl.Server.Trusted
import Mathlib.Data.Fintype.Basic

/-!
# The gate of the trusted side

A request on a connection of the bridge does nothing before it is admitted. It is admitted after
the connection was found authenticated, which takes a request with the stored token on that
connection, and, unless it is a hello, after the connection was found to own an instance.

A confirmation is resolved in two sections. The first one looks whether the connection owns the
instance of the confirmation (`PeerOwns`), the second one resolves it. If another connection
registers the instance in between, or the `Disconnect` of the connection runs, the confirmation
is resolved for an owner that has lost it. `trustedGate` says that this is all: where no owner is
lost between the two sections (`OwnerStays`), a confirmation is decided by its owner only.
-/

namespace BrowserControl.Server.Trusted

open Encoding Protocol BrowserControl.Core BrowserControl.Bridge Transition

variable {ρ γ κ : Type*} [DecidableEq ρ] [DecidableEq γ] [DecidableEq κ]
variable {lib : Library} {leaseTTL : Duration} {eventLimit : ℤ}

/-! ### Statements -/

/-- The event is a request on the connection that carries the stored token. -/
def Event.presents (lib : Library) (p : ℕ) : Event ρ γ → Prop
  | .request _ p' method params _ => p' = p ∧ method = authenticateMethod ∧
      stringField (params.getD .empty) "token" = lib.token
  | _ => False

/-- Nothing has happened in the manager, its log of events and the registry. -/
structure SameParts (s s' : State ρ γ κ) : Prop where
  manager : s'.manager = s.manager
  log : s'.log = s.log
  registry : s'.registry = s.registry

/-- The confirmation that the handler is about to resolve. -/
def HandlerPhase.resolving : HandlerPhase → Option Confirmation
  | .owned c => some c
  | _ => none

/-- No connection loses the instance of a confirmation that it is about to resolve. -/
def OwnerStays (lib : Library) (s : State ρ γ κ) (e : Event ρ γ) : Prop :=
  ∀ action ∈ (effects lib s e).action.toList, ∀ r, ∀ c ∈ (s.requests r).phase.resolving.toList,
    action.takes (s.requests r).peer c.browserInstanceID = false

instance [Fintype ρ] (s : State ρ γ κ) (e : Event ρ γ) : Decidable (OwnerStays lib s e) :=
  inferInstanceAs (Decidable (∀ _ ∈ _, _))

/-! ### How a request changes -/

/-- The handler was found admitted. -/
def HandlerPhase.isAdmitted : HandlerPhase → Bool
  | .admitted => true
  | .registered _ => true
  | .touched => true
  | .identified _ => true
  | .accepted _ => true
  | .found _ => true
  | .owned _ => true
  | _ => false

/-- The connection was found authenticated. -/
def HandlerPhase.isAuthenticated : HandlerPhase → Bool
  | .authenticated => true
  | phase => phase.isAdmitted

/-- What an event does to a request. -/
inductive RequestStep (lib : Library) (s : State ρ γ κ) (e : Event ρ γ) (r : ρ) : Request → Prop
  where
  | same : RequestStep lib s e r (s.requests r)
  | received {p : ℕ} {method : String} {params : Option Object} {notification : Bool}
      (h : e = .request r p method params notification)
      (h_phase : (s.requests r).phase = .outside) :
      RequestStep lib s e r { peer := p, method, params, notification, phase := .received }
  | handled {phase : HandlerPhase} (h_phase : (s.requests r).phase ≠ .outside)
      (h : HandlerStep lib s (s.requests r) phase (effects lib s e)) :
      RequestStep lib s e r { s.requests r with phase }

/-- Every step of a request. -/
theorem requestStep {s : State ρ γ κ} {e : Event ρ γ} (he : enabled lib s e) (r : ρ) :
    RequestStep lib s e r ((next lib s e).requests r) := by
  have h_takes := he.1
  cases e with
  -- a request is received
  | request r' p method params notification =>
    show RequestStep lib s _ r (Function.update s.requests r' _ r)
    by_cases hr : r = r'
    · subst hr
      rw [Function.update_self]
      refine .received rfl ?_
      have h_outside := h_takes.1
      cases h_phase : (s.requests r).phase <;> simp_all
    · rw [Function.update_of_ne hr]
      exact .same
  -- or handled, one step further
  | handle r' input =>
    show RequestStep lib s _ r (Function.update s.requests r' _ r)
    by_cases hr : r = r'
    · subst hr
      rw [Function.update_self]
      refine .handled (fun h_outside => ?_) (handle_step lib s (s.requests r) input)
      exact h_takes.1 (by rw [h_outside])
    · rw [Function.update_of_ne hr]
      exact .same
  | _ => exact .same

/-! ### Requests that are not admitted -/

section Quiet

variable {s : State ρ γ κ} {e : Event ρ γ}

/-- A step without effect. -/
theorem sameParts_of_quiet (h_command : (effects lib s e).command = none)
    (h_action : (effects lib s e).action = none) (h_event : (effects lib s e).event = none) :
    SameParts s (next lib s e) where
  manager := by rw [State.manager, table_next, h_command]; rfl
  log := by rw [log_next, h_event]
  registry := by rw [registry_next, h_action]

/-- A handler does nothing before it is admitted. -/
theorem sameParts_of_not_admitted {r : ρ} {input : Input}
    (h : (s.requests r).phase.isAdmitted = false) :
    SameParts s (next lib s (.handle r input)) := by
  have h_step := handle_step lib s (s.requests r) input
  have h_quiet : (handle lib s (s.requests r) input).2.command = none ∧
      (handle lib s (s.requests r) input).2.action = none ∧
      (handle lib s (s.requests r) input).2.event = none := by
    generalize (handle lib s (s.requests r) input).1 = phase,
      (handle lib s (s.requests r) input).2 = effects at h_step ⊢
    -- Every step that does something is that of an admitted handler.
    cases h_step with
    | registered h_phase => rw [h_phase] at h; contradiction
    | touched h_phase => rw [h_phase] at h; contradiction
    | commanded h_phase => split at h_phase <;> simp_all [HandlerPhase.isAdmitted]
    | emitted h_phase => split at h_phase <;> simp_all [HandlerPhase.isAdmitted]
    | resolved h_phase => rw [h_phase] at h; contradiction
    | _ => exact ⟨rfl, rfl, rfl⟩
  exact sameParts_of_quiet h_quiet.1 h_quiet.2.1 h_quiet.2.2

end Quiet

/-! ### Where admission comes from -/

section History

/-- Who authenticates a connection. -/
theorem auth_step {s : State ρ γ κ} {e : Event ρ γ} {p : ℕ}
    (h : (next lib s e).bridgeAuth p = true) (he : enabled lib s e) :
    s.bridgeAuth p = true ∨ ∃ r, (s.requests r).phase ≠ .outside ∧ (s.requests r).peer = p ∧
      (s.requests r).presents lib = true := by
  have h_takes := he.1
  rw [bridgeAuth_next] at h
  cases e with
  -- the end of a connection takes its authentication away
  | acceptLoop p' pick now =>
    have h_auth : ∀ x, (effects lib s (.acceptLoop p' pick now)).auth = some x → x.2 = false := by
      show ∀ x, (acceptLoop s p' pick now).2.auth = some x → x.2 = false
      unfold acceptLoop
      split
      case h_1 => exact fun x hx => by rw [← Option.some_inj.mp hx]
      all_goals rintro _ ⟨⟩
    split at h
    case h_1 p'' b h_eq =>
      have h_b : b = false := h_auth _ h_eq
      rw [h_b] at h
      by_cases hp : p = p''
      · rw [hp, Function.update_self] at h
        contradiction
      · rw [Function.update_of_ne hp] at h
        exact .inl h
    · exact .inl h
  -- a request that presents the token gives it
  | handle r input =>
    have h_step := handle_step lib s (s.requests r) input
    have h_phase : (s.requests r).phase ≠ .outside := by
      intro h_outside
      exact h_takes.1 (by rw [h_outside])
    have h_effects : effects lib s (.handle r input) = (handle lib s (s.requests r) input).2 := rfl
    rw [h_effects] at h
    generalize (handle lib s (s.requests r) input).1 = phase,
      (handle lib s (s.requests r) input).2 = effects at h_step h
    cases h_step with
    | authenticated h_presents =>
      change Function.update s.bridgeAuth (s.requests r).peer true p = true at h
      by_cases hp : p = (s.requests r).peer
      · exact .inr ⟨r, h_phase, hp.symm, h_presents⟩
      · rw [Function.update_of_ne hp] at h
        exact .inl h
    | _ => exact .inl h
  | claim t input =>
    have h_auth : (effects lib s (.claim t input)).auth = none := by
      show (tabClaim lib s (s.claims t) input).2.auth = none
      unfold tabClaim resolveBrowser claimTab bindLease sendClaim answerClaim releaseClaim
      dsimp only
      split
      · split_ifs <;> rfl
      all_goals first | rfl | (split <;> rfl)
    rw [h_auth] at h
    exact .inl h
  | _ => exact .inl h

omit [DecidableEq ρ] [DecidableEq γ] [DecidableEq κ] in
/-- How a handler gets past the checks. -/
theorem HandlerStep.admitted_of {s : State ρ γ κ} {q : Request} {phase : HandlerPhase}
    {eff : Effects} (h : HandlerStep lib s q phase eff) :
    (phase.isAuthenticated = true → q.phase.isAuthenticated = true ∨
      s.bridgeAuth q.peer = true) ∧
    (phase.isAdmitted = true → q.method ≠ "bridge.hello" → q.phase.isAdmitted = true ∨
      q.phase = .authenticated ∧ ∃ id, s.registry.owner id = some q.peer) := by
  cases h with
  | idle => exact ⟨.inl, fun h _ => .inl h⟩
  | answered => exact ⟨by rintro ⟨⟩, by rintro ⟨⟩⟩
  | authenticated => exact ⟨by rintro ⟨⟩, by rintro ⟨⟩⟩
  -- the two checks: first the token, then the owner
  | screened h_phase h_auth h_next =>
    refine ⟨fun _ => .inr h_auth, fun h_admitted h_method => ?_⟩
    rw [h_next, if_neg h_method] at h_admitted
    contradiction
  | admitted h_phase h_owner =>
    refine ⟨fun _ => .inl (by rw [h_phase]; rfl), fun _ _ => .inr ⟨h_phase, ?_⟩⟩
    exact s.registry.idForPeer_ne_iff.mp h_owner
  | registered h_phase => rw [h_phase]; exact ⟨fun _ => .inl rfl, fun _ _ => .inl rfl⟩
  | touched h_phase => rw [h_phase]; exact ⟨fun _ => .inl rfl, fun _ _ => .inl rfl⟩
  | continued h_phase => rw [h_phase]; exact ⟨fun _ => .inl rfl, fun _ _ => .inl rfl⟩
  | commanded h_phase =>
    split at h_phase
    all_goals simp_all [HandlerPhase.isAuthenticated, HandlerPhase.isAdmitted]
  | emitted => exact ⟨by rintro ⟨⟩, by rintro ⟨⟩⟩
  | found h_phase => rw [h_phase]; exact ⟨fun _ => .inl rfl, fun _ _ => .inl rfl⟩
  | owned h_phase => rw [h_phase]; exact ⟨fun _ => .inl rfl, fun _ _ => .inl rfl⟩
  | resolved => exact ⟨by rintro ⟨⟩, by rintro ⟨⟩⟩

/-- What the events so far say about the requests. -/
structure History (lib : Library) (leaseTTL : Duration) (eventLimit : ℤ) (es : List (Event ρ γ))
    (s : State ρ γ κ) : Prop where
  /-- A request was received as it is. -/
  received : ∀ r, (s.requests r).phase ≠ .outside →
    .request r (s.requests r).peer (s.requests r).method (s.requests r).params
      (s.requests r).notification ∈ es
  auth : ∀ p, s.bridgeAuth p = true → ∃ e ∈ es, e.presents lib p
  authenticated : ∀ r, (s.requests r).phase.isAuthenticated = true →
    ∃ e ∈ es, e.presents lib (s.requests r).peer
  /-- The connection owned an instance while the request was handled. -/
  admitted : ∀ r, (s.requests r).phase.isAdmitted = true →
    (s.requests r).method ≠ "bridge.hello" → ∃ fs, fs <+: es ∧
      ((after κ lib leaseTTL eventLimit fs).requests r).phase ≠ .outside ∧
      ∃ id, (after κ lib leaseTTL eventLimit fs).registry.owner id = some (s.requests r).peer

/-- What a request presents that authenticates. -/
theorem Request.presents_iff {lib : Library} {q : Request}
    (h_hash : ∀ text, lib.hash text = lib.hash lib.token → text = lib.token)
    (h : q.presents lib = true) :
    q.method = authenticateMethod ∧ stringField q.object "token" = lib.token := by
  simp only [presents, Library.tokenMatches, Bool.and_eq_true, decide_eq_true_eq] at h
  exact ⟨h.1.1, h_hash _ h.2⟩

/-- An authenticated connection has presented the token. -/
theorem history {es : List (Event ρ γ)}
    (h_hash : ∀ text, lib.hash text = lib.hash lib.token → text = lib.token)
    (h : (machine ρ γ κ lib leaseTTL eventLimit).Runs
      (machine ρ γ κ lib leaseTTL eventLimit).init es) :
    History lib leaseTTL eventLimit es (after κ lib leaseTTL eventLimit es) := by
  refine h.history ?_ ?_
  · exact ⟨fun r h => absurd rfl h, by rintro _ ⟨⟩, by rintro _ ⟨⟩, by rintro _ ⟨⟩⟩
  intro es s e hes h_exec hH he
  have h_more : ∀ {e'}, e' ∈ es → e' ∈ es ++ [e] := List.mem_append_left [e]
  refine ⟨fun r h_phase => ?_, fun p h_auth => ?_, fun r h_phase => ?_,
    fun r h_phase h_method => ?_⟩
  -- a request that is there was received in the history
  · have h_step := requestStep he r
    change ((next lib s e).requests r).phase ≠ .outside at h_phase
    change Event.request r ((next lib s e).requests r).peer ((next lib s e).requests r).method
      ((next lib s e).requests r).params ((next lib s e).requests r).notification ∈ _
    generalize (next lib s e).requests r = q at h_step h_phase ⊢
    cases h_step with
    | same => exact h_more (hH.received r h_phase)
    | received h => exact List.mem_append_right es (List.mem_singleton.mpr h.symm)
    | handled h_before => exact h_more (hH.received r h_before)
  -- an authentication was given by a request that presented the token
  · rcases auth_step h_auth he with h_old | ⟨r, h_phase, h_peer, h_presents⟩
    · obtain ⟨e', h_mem, h_e'⟩ := hH.auth p h_old
      exact ⟨e', h_more h_mem, h_e'⟩
    · obtain ⟨h_method, h_token⟩ := Request.presents_iff h_hash h_presents
      exact ⟨_, h_more (hH.received r h_phase), h_peer, h_method, h_token⟩
  -- an authenticated request presents it itself, or its connection has done so
  · have h_step := requestStep he r
    change ((next lib s e).requests r).phase.isAuthenticated = true at h_phase
    change ∃ e' ∈ _, Event.presents lib ((next lib s e).requests r).peer e'
    generalize (next lib s e).requests r = q at h_step h_phase ⊢
    have h_old : (s.requests r).phase.isAuthenticated = true ∨
        s.bridgeAuth (s.requests r).peer = true → ∃ e' ∈ es ++ [e],
          Event.presents lib (s.requests r).peer e' := by
      intro h_before
      obtain ⟨e', h_mem, h_e'⟩ := h_before.elim (hH.authenticated r) (hH.auth _)
      exact ⟨e', h_more h_mem, h_e'⟩
    cases h_step with
    | same => exact h_old (.inl h_phase)
    | received => contradiction
    | handled _ h => exact h_old (h.admitted_of.1 h_phase)
  -- an admitted request has met an owner when it was looked up
  · have h_step := requestStep he r
    change ((next lib s e).requests r).phase.isAdmitted = true at h_phase
    change ((next lib s e).requests r).method ≠ _ at h_method
    change ∃ fs, fs <+: es ++ [e] ∧ _ ∧ ∃ id, _ = some ((next lib s e).requests r).peer
    generalize (next lib s e).requests r = q at h_step h_phase h_method ⊢
    have h_old : (s.requests r).phase.isAdmitted = true → (s.requests r).method ≠ "bridge.hello" →
        ∃ fs, fs <+: es ++ [e] ∧
          ((after κ lib leaseTTL eventLimit fs).requests r).phase ≠ .outside ∧
          ∃ id, (after κ lib leaseTTL eventLimit fs).registry.owner id =
            some (s.requests r).peer := by
      intro h_before h_hello
      obtain ⟨fs, h_prefix, h_owned⟩ := hH.admitted r h_before h_hello
      exact ⟨fs, h_prefix.trans (List.prefix_append es [e]), h_owned⟩
    cases h_step with
    | same => exact h_old h_phase h_method
    | received => contradiction
    | handled _ h =>
      rcases h.admitted_of.2 h_phase h_method with h_before | ⟨h_authenticated, h_owner⟩
      · exact h_old h_before h_method
      · refine ⟨es, List.prefix_append es [e], ?_, ?_⟩
        · rw [after, h_exec, h_authenticated]
          rintro ⟨⟩
        · rw [after, h_exec]
          exact h_owner

end History

/-! ### Confirmations -/

section Confirmations

variable {s : State ρ γ κ} {e : Event ρ γ}

/-- The id of the confirmation that an event resolves. -/
def resolved (lib : Library) (s : State ρ γ κ) (e : Event ρ γ) : Option String :=
  (effects lib s e).command.bind fun e' => e'.command.resolves

omit [DecidableEq ρ] [DecidableEq γ] in
/-- A confirmation is resolved by a handler that has looked at its owner. -/
theorem resolved_eq_some {id : String} (he : enabled lib s e) (h : resolved lib s e = some id) :
    ∃ r input c, e = .handle r input ∧ (s.requests r).phase = .owned c ∧ c.confirmationID = id := by
  have h_takes := he.1
  -- no public command resolves a confirmation
  have h_public : ∀ {k : Command}, publicCommand k = true → k.resolves = none := by
    intro k hk
    cases k with
    | resolveConfirmation => contradiction
    | _ => rfl
  cases e with
  | acceptLoop p pick now =>
    change (acceptLoop s p pick now).2.command.bind (fun e' => e'.command.resolves) = _ at h
    unfold acceptLoop at h
    split at h <;> contradiction
  | handle r input =>
    have h_step := handle_step lib s (s.requests r) input
    change (handle lib s (s.requests r) input).2.command.bind (fun e' => e'.command.resolves) =
      _ at h
    generalize (handle lib s (s.requests r) input).1 = phase,
      (handle lib s (s.requests r) input).2 = effects at h_step h
    cases h_step with
    | commanded _ _ _ hk => cases (h_public hk).symm.trans h
    | @resolved c h_phase => exact ⟨r, input, c, rfl, h_phase, Option.some_inj.mp h⟩
    | _ => contradiction
  | claim t input =>
    have h_none : resolved lib s (.claim t input : Event ρ γ) = none := by
      show (tabClaim lib s (s.claims t) input).2.command.bind (fun e' => e'.command.resolves) = none
      unfold tabClaim resolveBrowser claimTab bindLease sendClaim answerClaim releaseClaim
      dsimp only
      split
      · split_ifs <;> rfl
      all_goals first | rfl | (split <;> rfl)
    cases h_none.symm.trans h
  | command k now => cases (h_public h_takes).symm.trans h
  | _ => contradiction

/-- The confirmations after an event keep what names them, and only the one that is resolved is
decided, or a new one comes first. -/
theorem confirmations_next (he : enabled lib s e) :
    (∃ f, Confirmation.Keeps (resolved lib s e) f ∧
      (next lib s e).manager.confirmations = s.manager.confirmations.map f) ∨
    ∃ c, (∀ c₀ ∈ s.manager.confirmations, c₀.confirmationID ≠ c.confirmationID) ∧
      c.status = .pending ∧
      (next lib s e).manager.confirmations = c :: s.manager.confirmations := by
  have h_fresh := he.2
  unfold resolved State.manager
  rw [table_next]
  generalize (effects lib s e).command = command at h_fresh ⊢
  -- Without a command the confirmations stay; a command keeps them or adds one.
  cases command with
  | none => exact .inl ⟨_, .refl _, (List.map_id' _).symm⟩
  | some e' =>
    refine (e'.command.confirmations s.manager e'.now).imp id ?_
    rintro ⟨c, h_id, h_pending, h_cons⟩
    refine ⟨c, ?_, h_pending, h_cons⟩
    exact (h_fresh e' (Option.mem_toList.mpr rfl)).2 _ (Option.mem_toList.mpr h_id)

/-- The confirmation is the one that the manager has under this id. -/
def Known (s : State ρ γ κ) (c : Confirmation) : Prop :=
  (∃ c₀ ∈ s.manager.confirmations, c₀.confirmationID = c.confirmationID) ∧
    ∀ c₀ ∈ s.manager.confirmations, c₀.confirmationID = c.confirmationID →
      c₀.browserInstanceID = c.browserInstanceID

/-- The confirmation that a handler has looked up. -/
def HandlerPhase.confirmation : HandlerPhase → Option Confirmation
  | .found c => some c
  | .owned c => some c
  | _ => none

/-- Who names a confirmation means one. -/
structure Named (s : State ρ γ κ) : Prop where
  unique : ∀ c ∈ s.manager.confirmations, Known s c
  looked : ∀ r, ∀ c ∈ (s.requests r).phase.confirmation, Known s c

/-- A confirmation that is known stays so. -/
theorem Known.next {c : Confirmation} (h : Known s c) (he : enabled lib s e) :
    Known (next lib s e) c := by
  obtain ⟨⟨c₀, h_c₀, h_id⟩, h_browser⟩ := h
  unfold Known
  -- The confirmations are kept, or one with a fresh id comes in front.
  rcases confirmations_next he with ⟨f, h_keeps, h_map⟩ | ⟨c', h_new, -, h_cons⟩
  · rw [h_map]
    refine ⟨⟨f c₀, List.mem_map_of_mem h_c₀, (h_keeps.confirmationID c₀).trans h_id⟩, ?_⟩
    rintro c₁ h_c₁ h_id₁
    obtain ⟨c₂, h_c₂, rfl⟩ := List.mem_map.mp h_c₁
    rw [h_keeps.browserInstanceID]
    exact h_browser c₂ h_c₂ ((h_keeps.confirmationID c₂).symm.trans h_id₁)
  · rw [h_cons]
    refine ⟨⟨c₀, List.mem_cons_of_mem c' h_c₀, h_id⟩, fun c₁ h_c₁ h_id₁ => ?_⟩
    rcases List.mem_cons.mp h_c₁ with rfl | h_c₁
    · exact absurd (h_id.trans h_id₁.symm) (h_new c₀ h_c₀)
    · exact h_browser c₁ h_c₁ h_id₁

/-- Confirmations keep their names. -/
theorem Named.next (h : Named s) (he : enabled lib s e) : Named (next lib s e) where
  -- a new confirmation has a new id
  unique c' h_c' := by
    rcases confirmations_next he with ⟨f, h_keeps, h_map⟩ | ⟨c, h_new, -, h_cons⟩
    · rw [h_map] at h_c'
      obtain ⟨c, h_c, rfl⟩ := List.mem_map.mp h_c'
      obtain ⟨h_some, h_browser⟩ := (h.unique c h_c).next he
      refine ⟨?_, fun c₁ h_c₁ h_id => ?_⟩
      · rwa [h_keeps.confirmationID]
      · rw [h_keeps.confirmationID] at h_id
        rw [h_keeps.browserInstanceID]
        exact h_browser c₁ h_c₁ h_id
    · rw [h_cons] at h_c'
      rcases List.mem_cons.mp h_c' with rfl | h_old
      · unfold Known
        rw [h_cons]
        refine ⟨⟨c', List.mem_cons_self, rfl⟩, fun c₁ h_c₁ h_id => ?_⟩
        rcases List.mem_cons.mp h_c₁ with rfl | h_c₁
        · rfl
        · exact absurd h_id (h_new c₁ h_c₁)
      · exact (h.unique c' h_old).next he
  looked r c h_c := by
    refine Known.next ?_ he
    have h_step := requestStep he r
    generalize (Trusted.next lib s e).requests r = q at h_step h_c
    cases h_step with
    | same => exact h.looked r c h_c
    | received => contradiction
    | @handled phase _ h_handler =>
      generalize effects lib s e = eff at h_handler
      cases h_handler with
      | idle => exact h.looked r c h_c
      | screened _ _ h_next =>
        subst h_next
        split at h_c <;> contradiction
      | continued _ h_next => split at h_next <;> simp_all [HandlerPhase.confirmation]
      | commanded _ _ h_next => split at h_next <;> simp_all [HandlerPhase.confirmation]
      | found _ _ h_mem =>
        obtain rfl := Option.some_inj.mp h_c
        exact h.unique _ h_mem
      | owned h_phase =>
        obtain rfl := Option.some_inj.mp h_c
        refine h.looked r _ ?_
        rw [h_phase]
        rfl
      | _ => contradiction

omit [DecidableEq ρ] [DecidableEq γ] [DecidableEq κ] in
/-- A handler that is about to resolve a confirmation was, or has looked at the owner. -/
theorem HandlerStep.owned_of {q : Request} {phase : HandlerPhase} {eff : Effects}
    (h : HandlerStep lib s q phase eff) {c : Confirmation} (h_phase : phase = .owned c) :
    q.phase = .owned c ∨
      eff.action = none ∧ s.registry.owner c.browserInstanceID = some q.peer := by
  cases h with
  | idle => exact .inl h_phase
  | screened _ _ h_next =>
    rw [h_phase] at h_next
    split at h_next <;> contradiction
  | continued _ h_next => rw [h_phase] at h_next; contradiction
  | commanded _ _ h_next => rw [h_phase] at h_next; contradiction
  | owned _ h_owner =>
    cases h_phase
    exact .inr ⟨rfl, h_owner⟩
  | _ => contradiction

/-- Where no owner is lost, a handler that is about to resolve a confirmation is its owner's. -/
def Owned (s : State ρ γ κ) : Prop :=
  ∀ r c, (s.requests r).phase = .owned c →
    s.registry.owner c.browserInstanceID = some (s.requests r).peer

/-- Confirmations keep their owners, under the condition. -/
theorem Owned.next (h : Owned s) (he : enabled lib s e) (h_stays : OwnerStays lib s e) :
    Owned (next lib s e) := by
  intro r c h_phase
  -- by the condition no action takes the instance away
  have h_owner : s.registry.owner c.browserInstanceID = some (s.requests r).peer →
      (s.requests r).phase = .owned c → (Trusted.next lib s e).registry.owner c.browserInstanceID =
        some (s.requests r).peer := by
    intro h_before h_owned
    rw [registry_next]
    split
    case h_1 action h_action =>
      refine Action.owner_run_of_not_takes h_before ?_
      refine h_stays action (Option.mem_toList.mpr h_action) r c ?_
      rw [h_owned]
      exact Option.mem_toList.mpr rfl
    · exact h_before
  have h_step := requestStep he r
  generalize (Trusted.next lib s e).requests r = q at h_step h_phase ⊢
  cases h_step with
  | same => exact h_owner (h r c h_phase) h_phase
  | received => contradiction
  | @handled phase _ h_handler =>
    change phase = .owned c at h_phase
    subst h_phase
    -- the owner was checked before, or by this step
    rcases h_handler.owned_of rfl with h_owned | ⟨h_action, h_before⟩
    · exact h_owner (h r c h_owned) h_owned
    · rw [registry_next, h_action]
      exact h_before

end Confirmations

/-- **The gate of the trusted side.** In every run: a request does nothing to the manager, its log
and the registry unless the stored token was presented on its connection before; a request other
than a hello does nothing unless its connection has owned an instance since it was received; and
if no owner is lost between the two sections that resolve a confirmation, a confirmation is
decided by a request on the connection that owns its instance at that moment. -/
theorem trustedGate (h_hash : ∀ text, lib.hash text = lib.hash lib.token → text = lib.token)
    {es : List (Event ρ γ)} {e : Event ρ γ} (h : (machine ρ γ κ lib leaseTTL eventLimit).Runs
      (machine ρ γ κ lib leaseTTL eventLimit).init (es ++ [e])) :
    (∀ r input, e = .handle r input →
      (∀ e' ∈ es, ¬ e'.presents lib ((after κ lib leaseTTL eventLimit es).requests r).peer) →
      SameParts (after κ lib leaseTTL eventLimit es)
        (after κ lib leaseTTL eventLimit (es ++ [e]))) ∧
    (∀ r input, e = .handle r input →
      ((after κ lib leaseTTL eventLimit es).requests r).method ≠ "bridge.hello" →
      (∀ fs, fs <+: es → ((after κ lib leaseTTL eventLimit fs).requests r).phase ≠ .outside →
        ∀ id, (after κ lib leaseTTL eventLimit fs).registry.owner id ≠
          some ((after κ lib leaseTTL eventLimit es).requests r).peer) →
      SameParts (after κ lib leaseTTL eventLimit es)
        (after κ lib leaseTTL eventLimit (es ++ [e]))) ∧
    (((machine ρ γ κ lib leaseTTL eventLimit).restrict (OwnerStays lib)).Runs
        (machine ρ γ κ lib leaseTTL eventLimit).init (es ++ [e]) →
      ∀ c' ∈ (after κ lib leaseTTL eventLimit (es ++ [e])).manager.confirmations, c'.Decided →
        (∀ c ∈ (after κ lib leaseTTL eventLimit es).manager.confirmations,
          c.confirmationID = c'.confirmationID → ¬ c.Decided) →
        ∃ r input, e = .handle r input ∧
          (after κ lib leaseTTL eventLimit es).registry.owner c'.browserInstanceID =
            some ((after κ lib leaseTTL eventLimit es).requests r).peer) := by
  rw [Machine.runs_append, Machine.runs_cons] at h
  obtain ⟨h_runs, he, -⟩ := h
  have hH := history h_hash h_runs
  have h_after : after κ lib leaseTTL eventLimit (es ++ [e]) =
      next lib (after κ lib leaseTTL eventLimit es) e := by
    rw [after, Machine.exec_append]
    rfl
  rw [h_after]
  refine ⟨?_, ?_, ?_⟩
  -- a connection that never presents the token changes nothing
  · rintro r input rfl h_never
    refine sameParts_of_not_admitted ?_
    by_contra h_admitted
    rw [Bool.not_eq_false] at h_admitted
    have h_authenticated :
        ((after κ lib leaseTTL eventLimit es).requests r).phase.isAuthenticated = true := by
      unfold HandlerPhase.isAuthenticated
      split
      · rfl
      · exact h_admitted
    obtain ⟨e', h_mem, h_presents⟩ := hH.authenticated r h_authenticated
    exact h_never e' h_mem h_presents
  -- nor does one that never owns an instance
  · rintro r input rfl h_method h_never
    refine sameParts_of_not_admitted ?_
    by_contra h_admitted
    rw [Bool.not_eq_false] at h_admitted
    obtain ⟨fs, h_prefix, h_phase, id, h_owner⟩ := hH.admitted r h_admitted h_method
    exact h_never fs h_prefix h_phase id h_owner
  -- a decision comes from the owner of the instance
  · intro h_restrict c' h_c' h_decided h_before
    rw [Machine.runs_append] at h_restrict
    have hs : ((machine ρ γ κ lib leaseTTL eventLimit).restrict (OwnerStays lib)).Reachable
        (after κ lib leaseTTL eventLimit es) := h_restrict.1.reachable
    have h_named : Named (after κ lib leaseTTL eventLimit es) := by
      refine hs.of_restrict.induction ?_ fun s e _ hN he => hN.next he
      exact ⟨by rintro _ ⟨⟩, by rintro _ _ ⟨⟩⟩
    have h_owned : Owned (after κ lib leaseTTL eventLimit es) := by
      refine hs.induction ?_ fun s e _ hO he => hO.next he.1 he.2
      rintro _ _ ⟨⟩
    rcases confirmations_next he with ⟨f, h_keeps, h_map⟩ | ⟨c, -, h_pending, h_cons⟩
    · rw [h_map] at h_c'
      obtain ⟨c, h_c, rfl⟩ := List.mem_map.mp h_c'
      have h_resolved : resolved lib (after κ lib leaseTTL eventLimit es) e =
          some c.confirmationID := by
        by_contra h_ne
        exact h_before c h_c (h_keeps.confirmationID c).symm (h_keeps.decided c h_decided h_ne)
      obtain ⟨r, input, c₀, h_handle, h_phase, h_id⟩ := resolved_eq_some he h_resolved
      refine ⟨r, input, h_handle, ?_⟩
      have h_known := h_named.looked r c₀ (by rw [h_phase]; rfl)
      rw [h_keeps.browserInstanceID, h_known.2 c h_c h_id.symm]
      exact h_owned r c₀ h_phase
    · rw [h_cons] at h_c'
      rcases List.mem_cons.mp h_c' with rfl | h_old
      · rw [Confirmation.Decided, h_pending] at h_decided
        exact h_decided.elim (by rintro ⟨⟩) (by rintro ⟨⟩)
      · exact absurd h_decided (h_before c' h_old rfl)

/-- The extension asks for a confirmation. -/
def asking (p : ℕ) (r : ρ) : List (Event ρ γ) :=
  [.command (.openSession "ses_1" "" "") 0,
    .request r p "bridge.event" (some (.ofFields [("type", .str "confirmation.requested"),
      ("sessionId", .str "ses_1"), ("tabId", .str "7")])) false,
    .handle r {}, .handle r {}, .handle r {}, .handle r {}, .handle r { id := "confirm_1" },
    .handle r {}]

/-- The user answers, and the handler has looked whether the connection owns the instance. -/
def answering (p : ℕ) (r : ρ) : List (Event ρ γ) :=
  [.request r p "bridge.admin.confirmation.respond" (some (.ofFields
      [("confirmationId", .str "confirm_1"), ("decision", .str "approve")])) false,
    .handle r {}, .handle r {}, .handle r {}, .handle r {}]

/-- The confirmation is approved over the connection that has asked for it. -/
def approving : List (Event (Fin 6) Unit) :=
  connection 0 0 1 "chrome_1" ++ asking 0 2 ++ answering 0 3

/-- The theorem for a confirmation that is approved. -/
theorem trustedGate_approved : ∃ r input, (Event.handle 3 {} : Event (Fin 6) Unit) =
      .handle r input ∧
    (after Unit sampleLibrary 0 0 approving).registry.owner "chrome_1" =
      some ((after Unit sampleLibrary 0 0 approving).requests r).peer := by
  have h : ((machine (Fin 6) Unit Unit sampleLibrary 0 0).restrict
        (OwnerStays sampleLibrary)).Runs (machine (Fin 6) Unit Unit sampleLibrary 0 0).init
        (approving ++ [.handle 3 {}]) ∧
      (after Unit sampleLibrary 0 0 approving).manager.confirmations.map (·.status) =
        [.pending] ∧
      (after Unit sampleLibrary 0 0 (approving ++ [.handle 3 {}])).manager.confirmations.map
        (fun c => (c.status, c.browserInstanceID)) = [(.approved, "chrome_1")] := by
    decide +kernel
  obtain ⟨h_runs, h_before, h_approved⟩ := h
  obtain ⟨c', h_c', h_eq⟩ : ∃ c' ∈ (after Unit sampleLibrary 0 0
      (approving ++ [.handle 3 {}])).manager.confirmations,
      (c'.status, c'.browserInstanceID) = (.approved, "chrome_1") := by
    refine List.mem_map.mp ?_
    rw [h_approved]
    exact List.mem_singleton.mpr rfl
  obtain ⟨h_status, h_browser⟩ := Prod.mk.inj h_eq
  rw [← h_browser]
  refine (trustedGate (fun _ => sampleHash_token) h_runs.of_restrict).2.2 h_runs c' h_c'
    (.inl h_status) fun c h_c _ h_decided => ?_
  have h_pending : c.status ∈ [ConfirmationStatus.pending] := h_before ▸ List.mem_map_of_mem h_c
  rw [Confirmation.Decided, List.mem_singleton.mp h_pending] at h_decided
  exact h_decided.elim (by rintro ⟨⟩) (by rintro ⟨⟩)

/-- Another connection registers the instance while the confirmation is being resolved. -/
def overtaken : List (Event (Fin 6) Unit) := approving ++ connection 1 4 5 "chrome_1"

/-- The confirmation is approved over a connection that does not own the instance any more. -/
theorem not_trustedGate_reregistered :
    (machine (Fin 6) Unit Unit sampleLibrary 0 0).Runs
        (machine (Fin 6) Unit Unit sampleLibrary 0 0).init (overtaken ++ [.handle 3 {}]) ∧
      (after Unit sampleLibrary 0 0 overtaken).manager.confirmations.map
        (fun c => (c.status, c.browserInstanceID)) = [(.pending, "chrome_1")] ∧
      (after Unit sampleLibrary 0 0 (overtaken ++ [.handle 3 {}])).manager.confirmations.map
        (·.status) = [.approved] ∧
      ((after Unit sampleLibrary 0 0 overtaken).requests 3).peer = 0 ∧
      (after Unit sampleLibrary 0 0 overtaken).registry.owner "chrome_1" = some 1 := by
  decide +kernel

end BrowserControl.Server.Trusted
