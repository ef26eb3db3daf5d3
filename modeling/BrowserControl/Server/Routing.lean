import BrowserControl.Server.Trusted

/-!
# Where an instance is reached

An instance is reached over the connection that registered it last. When the `Disconnect` of a
connection runs, its instances are removed, so that nothing is sent to a connection that is gone.

The handler of a `bridge.hello` runs beside the loop that notices the end of its connection. It
looks once whether the connection is authenticated, and registers the instance later. If the
connection is forgotten and its `Disconnect` runs in between, the instance is registered for a
connection that is gone, and nobody will remove it. `routing` says that nothing else goes wrong:
in the runs where every hello is in time (`HelloInTime`), an instance is reached over the
connection that registered it last, as long as that one is not disconnected (`Reached`).
-/

namespace BrowserControl.Server.Trusted

open Encoding Protocol BrowserControl.Core BrowserControl.Bridge Transition

/-! ### Who registered last

A roster says who registered what; the last registration comes first. -/

namespace Roster

variable {ι β : Type*} [DecidableEq ι]

/-- Who registered the key last. -/
def last (k : ι) (roster : List (ι × β)) : Option β :=
  (roster.find? (·.1 = k)).map Prod.snd

/-- The registrations of those that `alive` selects. -/
def among (alive : β → Bool) (roster : List (ι × β)) : List (ι × β) :=
  roster.filter fun x => alive x.2

variable {k : ι} {p : β} {x : ι × β} {roster : List (ι × β)} {alive : β → Bool}

theorem last_cons : last k (x :: roster) = if x.1 = k then some x.2 else last k roster := by
  unfold last
  rw [List.find?_cons]
  by_cases h : x.1 = k
  · rw [if_pos h, decide_eq_true h]
    rfl
  · rw [if_neg h, decide_eq_false h]

/-- Who registered last and is alive is the last among the living. -/
theorem last_among (h : last k roster = some p) (h_alive : alive p = true) :
    last k (among alive roster) = some p := by
  induction roster with
  | nil => contradiction
  | cons x roster ih =>
    rw [last_cons] at h
    unfold among at ih ⊢
    rw [List.filter_cons]
    -- The newest of the name is at the head, or further down.
    by_cases hx : x.1 = k
    · rw [if_pos hx, Option.some_inj] at h
      rw [h, if_pos h_alive, last_cons, if_pos hx, h]
    · rw [if_neg hx] at h
      split
      · rw [last_cons, if_neg hx]
        exact ih h
      · exact ih h

end Roster

variable {ρ γ κ : Type*} [DecidableEq ρ] [DecidableEq γ] [DecidableEq κ]
variable {lib : Library} {leaseTTL : Duration} {eventLimit : ℤ}

/-! ### The invariant -/

/-- The `Disconnect` of the connection has not run. -/
def State.alive (s : State ρ γ κ) (p : ℕ) : Bool := !(s.connections p).isDisconnected

/-- A hello registers its instance before the `Disconnect` of its connection runs. -/
def HelloInTime (s : State ρ γ κ) : Event ρ γ → Prop
  | .handle r _ =>
    ((s.requests r).phase matches .admitted) → (s.requests r).method = "bridge.hello" →
      s.alive (s.requests r).peer = true
  | _ => True

instance (s : State ρ γ κ) (e : Event ρ γ) : Decidable (HelloInTime s e) := by
  apply Event.casesOn (motive := fun e => Decidable (HelloInTime s e)) e <;> intros <;>
    dsimp only [HelloInTime] <;> infer_instance

/-- An instance is reached over the connection that registered it last, unless that one is
disconnected. -/
def Reached (s : State ρ γ κ) : Prop :=
  ∀ id, s.registry.owner id = (Roster.last id s.registrations).filter s.alive

section Step

variable {s : State ρ γ κ} {e : Event ρ γ}

/-- A connection lives until it is disconnected. -/
theorem alive_next (h : (machine ρ γ κ lib leaseTTL eventLimit).Reachable s)
    (he : enabled lib s e) (p : ℕ) :
    (next lib s e).alive p = (s.alive p && !disconnects s p e) := by
  rw [State.alive, isDisconnected_next h he, Bool.not_or]
  rfl

/-- Every step with its hello in time. -/
theorem Reached.next (h : (machine ρ γ κ lib leaseTTL eventLimit).Reachable s)
    (he : enabled lib s e) (h_time : HelloInTime s e) (hR : Reached s) :
    Reached (next lib s e) := by
  intro id
  have h_alive := alive_next h he
  have h_acts := acts lib s e
  show (Trusted.next lib s e).registry.owner id =
    (Roster.last id (((effects lib s e).action.bind Action.registration).toList ++
      s.registrations)).filter (Trusted.next lib s e).alive
  rw [registry_next]
  generalize (effects lib s e).action = action at h_acts ⊢
  -- Without a `Disconnect` nobody dies.
  have h_same : (∀ p, disconnects s p e = false) → (Trusted.next lib s e).alive = s.alive := by
    intro h_none
    funext p
    rw [h_alive, h_none, Bool.not_false, Bool.and_true]
  cases h_acts with
  | nothing h_none => rw [h_same h_none]; exact hR id
  | touched h_none p now =>
    rw [h_same h_none]
    exact (Registry.owner_touch _ p now id).trans (hR id)
  -- a registration: accepted, it becomes the last one of its instance
  | @registered r input h_handle h_phase h_method hello now =>
    have h_none : ∀ p, disconnects s p e = false := fun p => by rw [h_handle]; rfl
    have h_peer : s.alive (s.requests r).peer = true := by
      rw [h_handle] at h_time
      exact h_time (by rw [h_phase]) h_method
    rw [h_same h_none]
    show ((Action.register (s.requests r).peer hello now).run s.registry).owner id = _
    rw [Action.owner_run_register]
    by_cases h_check : Registry.checkHello hello = none
    · have h_registration : (Action.register (s.requests r).peer hello now).registration =
          some (hello.browserInstanceID, (s.requests r).peer) := if_pos h_check
      rw [Option.bind_some, h_registration, Option.toList_some, List.singleton_append,
        Roster.last_cons]
      by_cases h_id : id = hello.browserInstanceID
      · rw [if_pos ⟨h_check, h_id⟩, if_pos h_id.symm, Option.filter_some, if_pos h_peer]
      · rw [if_neg (fun h => h_id h.2), if_neg (Ne.symm h_id)]
        exact hR id
    · have h_registration : (Action.register (s.requests r).peer hello now).registration = none :=
        if_neg h_check
      rw [Option.bind_some, h_registration, if_neg (fun h => h_check h.1)]
      exact hR id
  -- a connection dies: its registrations do not count any more
  | @disconnected p pick now h_loop h_phase =>
    show ((s.registry.disconnect p pick).1).owner id = (Roster.last id s.registrations).filter _
    rw [Registry.owner_disconnect, hR id]
    have h_gone : ∀ p', disconnects s p' e = decide (p = p') := by
      intro p'
      rw [h_loop]
      by_cases hp : p = p'
      · simp [disconnects, ← hp, h_phase]
      · simp [disconnects, hp]
    cases h_last : Roster.last id s.registrations with
    | none => simp
    | some p' =>
      rw [Option.filter_some, Option.filter_some, h_alive, h_gone]
      by_cases hp : p = p'
      · subst hp
        simp
      · have h_ne : ¬ p' = p := fun h => hp h.symm
        by_cases h_p' : s.alive p' = true <;> simp [h_p', hp, h_ne]

end Step

/-- **Routing.** In every run in which each hello registers its instance before the `Disconnect`
of its connection: no instance refers to a connection whose `Disconnect` has run; the default is
empty exactly when there is no instance, and otherwise names one; and an instance is reached
over the connection that registered it last among those that are not disconnected, which the
last one to register it is until it is disconnected. -/
theorem routing {s : State ρ γ κ}
    (h : ((machine ρ γ κ lib leaseTTL eventLimit).restrict HelloInTime).Reachable s) :
    (∀ id i, s.registry.instances.lookup id = some i → s.alive i.peer = true) ∧
    (s.registry.defaultID = "" ↔ ∀ id, s.registry.instances.lookup id = none) ∧
    (s.registry.defaultID ≠ "" → s.registry.instances.lookup s.registry.defaultID ≠ none) ∧
    (∀ id i, s.registry.instances.lookup id = some i →
      Roster.last id (Roster.among s.alive s.registrations) = some i.peer) ∧
    ∀ id p, Roster.last id s.registrations = some p → s.alive p = true →
      s.registry.owner id = some p := by
  have hR : Reached s := by
    refine h.induction ?_ fun s e hs hR he => hR.next hs.of_restrict he.1 he.2
    intro id
    exact Registry.owner_new id
  -- the table of the registry as the function `owner`
  have h_owner : ∀ id i, s.registry.instances.lookup id = some i →
      Roster.last id s.registrations = some i.peer ∧ s.alive i.peer = true := by
    intro id i h_lookup
    have h_peer : s.registry.owner id = some i.peer := by
      rw [Registry.owner, h_lookup, Option.map_some]
    rw [hR id] at h_peer
    exact Option.filter_eq_some_iff.mp h_peer
  have h_none : ∀ id, s.registry.owner id = none ↔ s.registry.instances.lookup id = none :=
    fun id => Option.map_eq_none_iff
  obtain ⟨h_empty, h_named⟩ := s.registry.defaultID_spec
  refine ⟨fun id i h_i => (h_owner id i h_i).2, ?_, ?_, ?_, ?_⟩
  · rw [h_empty]
    exact forall_congr' h_none
  · intro h_ne
    rw [Ne, ← h_none]
    exact h_named h_ne
  -- an instance that is found belongs to the last connection that registered it
  · intro id i h_i
    obtain ⟨h_last, h_alive⟩ := h_owner id i h_i
    exact Roster.last_among h_last h_alive
  · intro id p h_last h_alive
    rw [hR id, h_last, Option.filter_some, if_pos h_alive]

/-- An instance is registered over a second connection, and the first one ends. -/
def replaced : List (Event ℕ ℕ) :=
  connection 0 0 1 "chrome_1" ++ connection 1 2 3 "chrome_1" ++ disconnection 0

/-- The instance is reached over the second connection. -/
theorem routing_replaced :
    (after ℕ sampleLibrary 0 0 replaced).registry.owner "chrome_1" = some 1 := by
  have h : ((machine ℕ ℕ ℕ sampleLibrary 0 0).restrict HelloInTime).Runs
      (machine ℕ ℕ ℕ sampleLibrary 0 0).init replaced ∧
      Roster.last "chrome_1" (after ℕ sampleLibrary 0 0 replaced).registrations = some 1 ∧
      (after ℕ sampleLibrary 0 0 replaced).alive 1 = true := by decide +kernel
  exact (routing h.1.reachable).2.2.2.2 "chrome_1" 1 h.2.1 h.2.2

/-- The handler of a hello goes on after the `Disconnect` of its connection. -/
def lateHello : List (Event ℕ ℕ) :=
  opening 0 0 ++ greeting 0 1 "chrome_1" ++ disconnection 0 ++ [.handle 1 {}]

/-- An instance is registered for a connection that is gone, and is the default. -/
theorem not_routing_lateHello :
    (machine ℕ ℕ ℕ sampleLibrary 0 0).Runs (machine ℕ ℕ ℕ sampleLibrary 0 0).init lateHello ∧
      (after ℕ sampleLibrary 0 0 lateHello).connections 0 = .finished ∧
      (after ℕ sampleLibrary 0 0 lateHello).registry.owner "chrome_1" = some 0 ∧
      (after ℕ sampleLibrary 0 0 lateHello).registry.defaultID = "chrome_1" := by
  decide +kernel

end BrowserControl.Server.Trusted
