import BrowserControl.Bridge.Registry
import BrowserControl.Transition.Machine

/-!
# The default instance

A request that names no browser instance means the default one, which is to be the most recently
registered of those that are live. `DefaultInstance.machine` runs the methods of the registry and
keeps beside it, as a specification, the ids of all registrations so far.

The registry itself keeps no order. When the default instance is disconnected, another one takes
its place, and which one is up to the order of a walk through a map (`not_mostRecent_oldestFirst`).
The default is the most recent instance throughout a run if and only if each of these walks
happens to begin at it (`mostRecent_iff`); in particular if no more than one instance is left
(`begins_of_subsingleton`).
-/

namespace BrowserControl.Bridge

open Transition Protocol

variable {β : Type*} [DecidableEq β]

/-! ### The default after a method -/

namespace Registry

variable (r : Registry β)

/-- The instance is still registered when the peer is gone. -/
def stays (peer : β) (id : String) : Bool := (r.owner id).isSome && r.owner id ≠ some peer

/-- An instance stays if it is another peer's. -/
theorem stays_iff {peer : β} {id : String} :
    r.stays peer id = true ↔ (r.owner id).isSome ∧ r.owner id ≠ some peer := by
  rw [stays, Bool.and_eq_true, decide_eq_true_iff]

/-- What is left without a peer is what stays. -/
theorem isSome_without (peer : β) (id : String) :
    ((r.without peer).lookup id).isSome = r.stays peer id := by
  calc ((r.without peer).lookup id).isSome
      = ((r.without peer).entry id).isSome := by rw [Instances.entry, Option.isSome_map]
    _ = (if r.owner id = some peer then none else r.instances.entry id).isSome := by
      rw [entry_without]
    _ = r.stays peer id := by
      by_cases h : r.owner id = some peer
      · simp [stays, h]
      · rw [if_neg h, stays, owner_eq, Option.isSome_map, ← owner_eq, decide_eq_true h,
          Bool.and_true]

/-- The instances that stay are among those of the registry. -/
theorem mem_keys_of_stays {peer : β} {id : String} (h : r.stays peer id = true) :
    id ∈ r.instances.keys := by
  have h_owner := (r.stays_iff.mp h).1
  rw [owner, Option.isSome_map, AList.lookup_isSome] at h_owner
  exact AList.mem_keys.mpr h_owner

/-- The default of another peer stays. -/
theorem defaultID_disconnect_of_stays {peer : β} (h : r.owner r.defaultID ≠ some peer)
    (pick : String) : (r.disconnect peer pick).1.defaultID = r.defaultID := by
  refine if_pos ?_
  by_cases h_empty : r.lastID = ""
  · exact .inl h_empty
  · have h_named := r.defaultID_spec.2 h_empty
    rw [isSome_without, stays_iff]
    exact .inr ⟨Option.isSome_iff_ne_none.mpr h_named, h⟩

/-- A default that is removed is replaced by where the walk begins. -/
theorem defaultID_disconnect_of_removed {peer : β} (h : r.owner r.defaultID = some peer)
    (pick : String) : (r.disconnect peer pick).1.defaultID =
      if r.stays peer pick then pick else ((r.without peer).keys.head?).getD "" := by
  have h_gone : ¬ (r.lastID = "" ∨ ((r.without peer).lookup r.lastID).isSome) := by
    rintro (h_empty | h_stays)
    · exact r.ne_of_owner h h_empty
    · rw [isSome_without] at h_stays
      exact (r.stays_iff.mp h_stays).2 h
  refine (if_neg h_gone).trans ?_
  simp only [isSome_without]

/-- Without another instance there is no default. -/
theorem defaultID_disconnect_of_none {peer : β} (h : ∀ id, r.stays peer id = false)
    (pick : String) : (r.disconnect peer pick).1.defaultID = "" := by
  refine (r.disconnect peer pick).1.defaultID_spec.1.mpr fun id => ?_
  rw [owner_disconnect]
  split_ifs with h_owner
  · rfl
  · by_contra h_some
    have h_stays := r.stays_iff.mpr ⟨Option.isSome_iff_ne_none.mpr h_some, h_owner⟩
    rw [h id] at h_stays
    cases h_stays

/-- The instance that registers is the default. -/
theorem defaultID_register {peer : β} {hello : Hello} {now : Core.Time} {r' : Registry β}
    (h : r.register peer hello now = .ok r') : r'.defaultID = hello.browserInstanceID := by
  unfold register at h
  split at h
  · contradiction
  · cases h
    rfl

/-- A hello that is not accepted leaves the registry as it was. -/
theorem run_register (peer : β) (hello : Hello) (now : Core.Time) :
    (checkHello hello = none ∧
        r.register peer hello now = .ok ((Action.register peer hello now).run r)) ∨
      (checkHello hello ≠ none ∧ (Action.register peer hello now).run r = r) := by
  cases h : r.register peer hello now with
  -- An accepted registration: the hello passed the check.
  | ok r' =>
    refine .inl ⟨?_, ?_⟩
    · unfold register at h
      split at h
      · contradiction
      · assumption
    · simp only [Action.run, h]
  -- A refused one leaves the registry as it is.
  | error rpcErr =>
    refine .inr ⟨fun h_none => ?_, ?_⟩
    · unfold register at h
      split at h
      case h_1 h_some => cases h_some.symm.trans h_none
      · contradiction
    · simp only [Action.run, h]

end Registry

/-! ### Runs -/

namespace DefaultInstance

/-- The registry, and what it does not keep of its past. -/
structure State (β : Type*) where
  registry : Registry β
  /-- The ids of the registrations, the latest one first. -/
  registrations : List String

namespace State

variable (s : State β)

/-- The instance is live. -/
def registered (id : String) : Bool := (s.registry.owner id).isSome

/-- The registered instance whose latest registration is the most recent one, or the empty text. -/
def mostRecent : String := (s.registrations.find? s.registered).getD ""

/-- The state after a method of the registry. -/
def run (action : Action β) : State β where
  registry := action.run s.registry
  registrations := (action.registration.map Prod.fst).toList ++ s.registrations

/-- A walk through the instances that are left begins at one of them. -/
def Enabled : Action β → Prop
  | .disconnect peer pick => (∃ id ∈ s.registry.instances.keys, s.registry.stays peer id) →
      s.registry.stays peer pick
  | _ => True

/-- The walk begins at the most recent of the instances that are left, if the default is not one
of them. -/
def Begins : Action β → Prop
  | .disconnect peer pick => s.registry.owner s.registry.defaultID = some peer →
      ∀ id ∈ s.registrations.find? (s.registry.stays peer), pick = id
  | _ => True

instance decidableEnabled (s : State β) : ∀ action, Decidable (s.Enabled action)
  | .disconnect peer pick =>
    inferInstanceAs (Decidable ((∃ id ∈ s.registry.instances.keys, s.registry.stays peer id) →
      s.registry.stays peer pick))
  | .register .. => .isTrue trivial
  | .touch .. => .isTrue trivial

instance decidableBegins (s : State β) : ∀ action, Decidable (s.Begins action)
  | .disconnect peer pick =>
    inferInstanceAs (Decidable (s.registry.owner s.registry.defaultID = some peer →
      ∀ id ∈ s.registrations.find? (s.registry.stays peer), pick = id))
  | .register .. => .isTrue trivial
  | .touch .. => .isTrue trivial

end State

/-- The registry under any methods of any peers. -/
def machine (β : Type*) [DecidableEq β] : Machine (State β) (Action β) where
  init := ⟨.new, []⟩
  enabled s action := s.Enabled action
  next s action := s.run action

instance (s : State β) (action : Action β) : Decidable ((machine β).enabled s action) :=
  State.decidableEnabled s action

/-- What the default is to be. -/
def MostRecent (s : State β) : Prop := s.registry.defaultID = s.mostRecent

instance (s : State β) : Decidable (MostRecent s) :=
  inferInstanceAs (Decidable (s.registry.defaultID = s.mostRecent))

/-- Each registered instance has been registered. -/
def Recorded (s : State β) : Prop := ∀ id, s.registered id = true → id ∈ s.registrations

/-! ### The most recent instance -/

/-- The first element that meets a condition is also the first that meets a stronger one, if it
does so itself. -/
theorem find?_of_imp {α : Type*} {p q : α → Bool} {xs : List α} {x : α} (h : xs.find? p = some x)
    (h_x : q x = true) (h_imp : ∀ y, q y = true → p y = true) : xs.find? q = some x := by
  obtain ⟨-, before, after, h_split, h_before⟩ := List.find?_eq_some_iff_append.mp h
  refine List.find?_eq_some_iff_append.mpr ⟨h_x, before, after, h_split, fun y h_y => ?_⟩
  rw [Bool.not_eq_true', ← Bool.not_eq_true]
  intro h_q
  have h_p := h_before y h_y
  rw [h_imp y h_q] at h_p
  cases h_p

variable {s : State β}

/-- A peer takes its instances with it. -/
theorem registered_disconnect (peer : β) (pick : String) :
    (s.run (.disconnect peer pick)).registered = s.registry.stays peer := by
  ext id
  rw [Bool.eq_iff_iff]
  show ((s.registry.disconnect peer pick).1.owner id).isSome = true ↔ _
  rw [Registry.owner_disconnect, Registry.stays_iff]
  split_ifs with h
  · exact ⟨fun h_none => (by cases h_none), fun h_stays => absurd h h_stays.2⟩
  · exact ⟨fun h_some => ⟨h_some, h⟩, fun h_stays => h_stays.1⟩

/-- A sign of life registers nothing. -/
theorem registered_touch (peer : β) (now : Core.Time) :
    (s.run (.touch peer now)).registered = s.registered := by
  ext id
  show ((s.registry.touch peer now).owner id).isSome = _
  rw [Registry.owner_touch]
  rfl

theorem Recorded.init : Recorded (machine β).init := by
  intro id h
  rw [State.registered] at h
  rw [show (machine β).init.registry.owner id = none from Registry.owner_new id] at h
  cases h

/-- Every action is recorded. -/
theorem Recorded.run (h : Recorded s) (action : Action β) : Recorded (s.run action) := by
  intro id h_id
  cases action with
  -- Only a registration puts a connection into the registry, and it is recorded with it.
  | register peer hello now =>
    rw [State.registered] at h_id
    rw [show (s.run (.register peer hello now)).registry.owner id = _ from
      Action.owner_run_register ..] at h_id
    by_cases h_new : Registry.checkHello hello = none ∧ id = hello.browserInstanceID
    · refine List.mem_append_left _ ?_
      rw [Action.registration, if_pos h_new.1, h_new.2]
      exact List.mem_singleton_self _
    · rw [if_neg h_new] at h_id
      exact List.mem_append_right _ (h id h_id)
  | touch peer now =>
    rw [registered_touch] at h_id
    exact h id h_id
  | disconnect peer pick =>
    rw [registered_disconnect] at h_id
    exact h id (s.registry.stays_iff.mp h_id).1

theorem MostRecent.init : MostRecent (machine β).init := rfl

/-- An instance is the default from its registration on. -/
theorem MostRecent.register (h : MostRecent s) (peer : β) (hello : Hello) (now : Core.Time) :
    MostRecent (s.run (.register peer hello now)) := by
  refine (s.registry.run_register peer hello now).elim (fun h_ok => ?_) fun h_error => ?_
  -- an accepted instance becomes the default and the last registration
  · have h_registrations : (s.run (.register peer hello now)).registrations =
        hello.browserInstanceID :: s.registrations := by
      rw [State.run, Action.registration, if_pos h_ok.1]
      rfl
    have h_registered : (s.run (.register peer hello now)).registered hello.browserInstanceID =
        true := by
      rw [State.registered]
      rw [show (s.run (.register peer hello now)).registry.owner _ = _ from
        Registry.owner_register _ h_ok.2 _, if_pos rfl]
      rfl
    rw [MostRecent, State.mostRecent, h_registrations, List.find?_cons_of_pos h_registered]
    exact s.registry.defaultID_register h_ok.2
  -- a refused one changes nothing
  · have h_same : s.run (.register peer hello now) = s := by
      rw [State.run, h_error.2, Action.registration, if_neg h_error.1]
      rfl
    rw [h_same]
    exact h

/-- A sign of life does not change the default. -/
theorem MostRecent.touch (h : MostRecent s) (peer : β) (now : Core.Time) :
    MostRecent (s.run (.touch peer now)) := by
  rw [MostRecent, State.mostRecent, registered_touch]
  exact h

/-- The default stays if its connection does. -/
theorem MostRecent.disconnect_of_stays (h : MostRecent s) {peer : β}
    (h_stays : s.registry.owner s.registry.defaultID ≠ some peer) (pick : String) :
    MostRecent (s.run (.disconnect peer pick)) := by
  rw [MostRecent, State.mostRecent, registered_disconnect]
  refine (s.registry.defaultID_disconnect_of_stays h_stays pick).trans ?_
  show s.registry.defaultID = (s.registrations.find? (s.registry.stays peer)).getD ""
  have h_imp : ∀ id, s.registry.stays peer id = true → s.registered id = true := fun id h_id =>
    (s.registry.stays_iff.mp h_id).1
  rw [MostRecent, State.mostRecent] at h
  -- the default is not of the peer, so the walk of the map is not asked
  cases h_find : s.registrations.find? s.registered with
  | none =>
    rw [h_find] at h
    have h_none : s.registrations.find? (s.registry.stays peer) = none := by
      rw [List.find?_eq_none] at h_find ⊢
      exact fun id h_id h_left => h_find id h_id (h_imp id h_left)
    rw [h_none, h]
  | some id =>
    rw [h_find, Option.getD_some] at h
    have h_left : s.registry.stays peer id = true := by
      have h_registered : s.registered id = true := List.find?_some h_find
      rw [h] at h_stays
      exact s.registry.stays_iff.mpr ⟨h_registered, h_stays⟩
    rw [find?_of_imp h_find h_left h_imp, h, Option.getD_some]

/-- The default is removed: the most recent of the others takes its place if and only if the walk
begins at it. -/
theorem mostRecent_disconnect_iff (h_recorded : Recorded s) {peer : β} {pick : String}
    (h_enabled : s.Enabled (.disconnect peer pick))
    (h_removed : s.registry.owner s.registry.defaultID = some peer) :
    MostRecent (s.run (.disconnect peer pick)) ↔ s.Begins (.disconnect peer pick) := by
  rw [MostRecent, State.mostRecent, registered_disconnect]
  show (s.registry.disconnect peer pick).1.defaultID =
    (s.registrations.find? (s.registry.stays peer)).getD "" ↔ _
  cases h_find : s.registrations.find? (s.registry.stays peer) with
  | none =>
    -- No instance is left.
    have h_none : ∀ id, s.registry.stays peer id = false := fun id =>
      Bool.eq_false_iff.mpr fun h_left => List.find?_eq_none.mp h_find id
        (h_recorded id (s.registry.stays_iff.mp h_left).1) h_left
    refine iff_of_true (s.registry.defaultID_disconnect_of_none h_none pick) fun _ id h_id => ?_
    rw [h_find] at h_id
    cases h_id
  | some id =>
    have h_left : s.registry.stays peer id = true := List.find?_some h_find
    have h_pick : s.registry.stays peer pick = true :=
      h_enabled ⟨id, s.registry.mem_keys_of_stays h_left, h_left⟩
    rw [s.registry.defaultID_disconnect_of_removed h_removed, if_pos h_pick, Option.getD_some]
    constructor
    · intro h_eq _ id' h_id'
      rw [h_find] at h_id'
      exact h_eq.trans (Option.mem_some_iff.mp h_id')
    · intro h_begins
      exact h_begins h_removed id h_find

/-- If no more than one instance is left, the walk begins at the most recent one. -/
theorem begins_of_subsingleton {peer : β} {pick : String}
    (h_enabled : s.Enabled (.disconnect peer pick))
    (h_one : ∀ id id', s.registry.stays peer id → s.registry.stays peer id' → id = id') :
    s.Begins (.disconnect peer pick) := by
  intro _ id h_id
  have h_left : s.registry.stays peer id = true := List.find?_some h_id
  exact h_one pick id (h_enabled ⟨id, s.registry.mem_keys_of_stays h_left, h_left⟩) h_left

/-- **The default browser is the most recent live one** in all states of a run if and only if,
whenever the default is disconnected, the walk through the others begins at the most recent. -/
theorem mostRecent_iff {es : List (Action β)} (h : (machine β).Runs (machine β).init es) :
    (∀ es₁, es₁ <+: es → MostRecent ((machine β).exec (machine β).init es₁)) ↔
      ((machine β).restrict State.Begins).Runs (machine β).init es := by
  refine h.restrict_iff (I := fun s => Recorded s ∧ MostRecent s) ⟨.init, .init⟩ ?_
    (fun s h_inv => h_inv.2) ?_
  -- every action that meets the condition keeps the default recent
  · intro s action h_inv h_enabled h_begins
    refine ⟨h_inv.1.run action, ?_⟩
    cases action with
    | register peer hello now => exact h_inv.2.register peer hello now
    | touch peer now => exact h_inv.2.touch peer now
    | disconnect peer pick =>
      by_cases h_removed : s.registry.owner s.registry.defaultID = some peer
      · exact (mostRecent_disconnect_iff h_inv.1 h_enabled h_removed).mpr h_begins
      · exact h_inv.2.disconnect_of_stays h_removed pick
  -- a walk that begins elsewhere picks another instance
  · intro s action h_inv h_enabled h_not h_recent
    cases action with
    | register peer hello now => exact h_not trivial
    | touch peer now => exact h_not trivial
    | disconnect peer pick =>
      by_cases h_removed : s.registry.owner s.registry.defaultID = some peer
      · exact h_not ((mostRecent_disconnect_iff h_inv.1 h_enabled h_removed).mp h_recent)
      · exact h_not fun h => absurd h h_removed

/-- Three peers, one instance each. -/
def three : List (Action ℕ) :=
  [.register 0 { protocolVersion := "1.0", browserInstanceID := "a" } 0,
    .register 1 { protocolVersion := "1.0", browserInstanceID := "b" } 1,
    .register 2 { protocolVersion := "1.0", browserInstanceID := "c" } 2]

/-- The walk begins at the most recent instance. -/
theorem mostRecent_iff_three :
    (machine ℕ).Runs (machine ℕ).init (three ++ [.disconnect 2 "b"]) ∧
      ∀ es₁, es₁ <+: three ++ [.disconnect 2 "b"] →
        MostRecent ((machine ℕ).exec (machine ℕ).init es₁) :=
  ⟨by decide, (mostRecent_iff (by decide)).mpr (by decide)⟩

/-- The walk begins at the oldest instance. -/
theorem not_mostRecent_oldestFirst :
    ¬ ∀ es : List (Action ℕ), (machine ℕ).Runs (machine ℕ).init es →
      MostRecent ((machine ℕ).exec (machine ℕ).init es) := by
  intro h
  have h_recent := h (three ++ [.disconnect 2 "a"]) (by decide)
  exact absurd h_recent (by decide)

end DefaultInstance

end BrowserControl.Bridge
