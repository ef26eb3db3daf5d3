import BrowserControl.Core.Manager
import Mathlib.Data.List.AList

/-!
# The registry of Chrome instances

`Registry` says which bridge connection a Chrome instance is reached over, and which instance is
meant when a request names none. A peer is a connection; it may register several instances, and
an instance that is registered again belongs to the peer that did so last.

The three parts of the registry are kept consistent by each of its methods, so their
consistency is part of the type. The methods take the lock of the registry for their whole
body, and each is one function here. What they do to the owner of an instance
(`owner_register`, `owner_touch`, `owner_disconnect`) is all that the rest of the development
uses of them.

`Register` also closes the connection of the peer that loses the instance. When that peer
notices is up to its own read loop, so nothing happens to it here.
-/

namespace BrowserControl.Bridge

open Encoding Protocol BrowserControl.Core

/-- What an extension says about itself. -/
structure Hello where
  protocolVersion : String
  browserInstanceID : String
  profileName : String := ""
  chromeVersion : String := ""
  extensionVersion : String := ""
  capabilities : Option Object := none

/-- An instance of the browser, and the peer over which it said hello. -/
structure Instance (β : Type*) where
  hello : Hello
  connectedAt : Time
  lastSeenAt : Time
  peer : β

/-- The instances by their ids. -/
abbrev Instances (β : Type*) := AList fun _ : String => Instance β

variable {β : Type*} [DecidableEq β]

/-! ### Changes of the instances -/

namespace Instances

/-- What an instance is registered with. -/
def entry (instances : Instances β) (id : String) : Option (Hello × β) :=
  (instances.lookup id).map fun i => (i.hello, i.peer)

/-- The instance was seen, if it belongs to the peer. -/
def touch (peer : β) (now : Time) (instances : Instances β) (id : String) : Instances β :=
  match instances.lookup id with
  | some i => if i.peer = peer then instances.insert id { i with lastSeenAt := now } else instances
  | none => instances

omit [DecidableEq β] in
/-- There is no instance in an empty map. -/
theorem entry_empty (id : String) : entry (∅ : Instances β) id = none := by
  rw [entry, AList.lookup_empty, Option.map_none]

omit [DecidableEq β] in
/-- An instance takes the place of the one under its id. -/
theorem entry_insert (instances : Instances β) (id : String) (i : Instance β) (id' : String) :
    entry (instances.insert id i) id' =
      if id' = id then some (i.hello, i.peer) else entry instances id' := by
  unfold entry
  by_cases h : id' = id
  · rw [h, AList.lookup_insert, if_pos rfl, Option.map_some]
  · rw [AList.lookup_insert_ne h, if_neg h]

omit [DecidableEq β] in
/-- Several instances are removed. -/
theorem entry_eraseAll (ids : List String) (instances : Instances β) (id : String) :
    entry (ids.foldl (fun m id => m.erase id) instances) id =
      if id ∈ ids then none else entry instances id := by
  induction ids generalizing instances with
  | nil => rfl
  | cons id' ids ih =>
    rw [List.foldl_cons, ih, entry]
    by_cases h_tail : id ∈ ids
    · rw [if_pos h_tail, if_pos (List.mem_cons_of_mem _ h_tail)]
    · rw [if_neg h_tail]
      by_cases h : id = id'
      · rw [h, AList.lookup_erase, if_pos List.mem_cons_self, Option.map_none]
      · rw [AList.lookup_erase_ne h, if_neg (by simp [h, h_tail]), entry]

/-- A sign of life changes no more than a time. -/
theorem entry_touch (peer : β) (now : Time) (instances : Instances β) (id id' : String) :
    entry (instances.touch peer now id) id' = entry instances id' := by
  unfold touch
  split
  case h_1 i h_i =>
    split
    · rw [entry_insert]
      split
      case isTrue h_id => rw [h_id, entry, h_i, Option.map_some]
      · rfl
    · rfl
  · rfl

/-- The same for several instances. -/
theorem entry_touchAll (peer : β) (now : Time) (ids : List String) (instances : Instances β)
    (id : String) : entry (ids.foldl (touch peer now) instances) id = entry instances id := by
  induction ids generalizing instances with
  | nil => rfl
  | cons id' ids ih => rw [List.foldl_cons, ih, entry_touch]

omit [DecidableEq β] in
/-- What has no entry is not in the map. -/
theorem entry_eq_none {instances : Instances β} {id : String} :
    entry instances id = none ↔ id ∉ instances := by
  rw [entry, Option.map_eq_none_iff, AList.lookup_eq_none]

end Instances

/-! ### The registry -/

/-- The instances by their ids. -/
structure Registry (β : Type*) where
  instances : Instances β
  /-- The ids that a peer has registered, also those it has lost since. -/
  byPeer : β → List String
  /-- The instance that is meant if none is named. -/
  lastID : String
  /-- An instance is stored under its own id. -/
  keyed : ∀ id hello peer, instances.entry id = some (hello, peer) →
    hello.browserInstanceID = id ∧ id ≠ ""
  /-- The owner of an instance knows that it has registered it. -/
  owned : ∀ id hello peer, instances.entry id = some (hello, peer) → id ∈ byPeer peer
  /-- Some registered instance is the default, if there is one. -/
  default : if lastID = "" then ∀ id, instances.entry id = none
    else instances.entry lastID ≠ none

namespace Registry

variable (r : Registry β)

/-- The registry of a daemon that starts. -/
def new : Registry β where
  instances := ∅
  byPeer _ := []
  lastID := ""
  keyed id hello peer h := by simp [Instances.entry_empty] at h
  owned id hello peer h := by simp [Instances.entry_empty] at h
  default := by simpa using Instances.entry_empty

/-- The peer that an instance is reached over. -/
def owner (id : String) : Option β := (r.instances.lookup id).map (·.peer)

/-- The instance is registered by this peer. -/
def peerOwns (peer : β) (browserInstanceID : String) : Bool :=
  r.owner browserInstanceID = some peer

/-- The ids of the instances of a peer. -/
def idsOf (peer : β) : List String := (r.byPeer peer).filter (r.peerOwns peer)

/-- The first of the instances of a peer, or the empty text. -/
def idForPeer (peer : β) : String := ((r.idsOf peer).mergeSort.head?).getD ""

/-- The instance that is meant when none is named. -/
def defaultID : String := r.lastID

/-- `List`, of which only the ids of the instances are looked at. -/
def list : List String := r.instances.keys.mergeSort

omit [DecidableEq β] in
/-- The owner is the peer of the entry. -/
theorem owner_eq (id : String) : r.owner id = (r.instances.entry id).map Prod.snd := by
  rw [owner, Instances.entry, Option.map_map]
  rfl

/-- A peer owns the instances of which it is the owner. -/
theorem peerOwns_iff {peer : β} {id : String} :
    r.peerOwns peer id = true ↔ r.owner id = some peer := decide_eq_true_iff

/-- The ids of a peer are those that it owns. -/
theorem mem_idsOf {peer : β} {id : String} : id ∈ r.idsOf peer ↔ r.owner id = some peer := by
  rw [idsOf, List.mem_filter, peerOwns_iff, and_iff_right_iff_imp]
  intro h
  rw [owner_eq, Option.map_eq_some_iff] at h
  obtain ⟨⟨hello, peer'⟩, h_entry, rfl⟩ := h
  exact r.owned id hello peer' h_entry

omit [DecidableEq β] in
/-- An instance has a name. -/
theorem ne_of_owner {peer : β} {id : String} (h : r.owner id = some peer) : id ≠ "" := by
  rw [owner_eq, Option.map_eq_some_iff] at h
  obtain ⟨⟨hello, peer'⟩, h_entry, -⟩ := h
  exact (r.keyed id hello peer' h_entry).2

/-- A peer that owns an instance has a first one. -/
theorem idForPeer_ne_iff {peer : β} : r.idForPeer peer ≠ "" ↔ ∃ id, r.owner id = some peer := by
  have h_mem : ∀ id, id ∈ (r.idsOf peer).mergeSort ↔ r.owner id = some peer := fun id =>
    (List.mergeSort_perm _ _).mem_iff.trans r.mem_idsOf
  unfold idForPeer
  cases h_ids : (r.idsOf peer).mergeSort with
  | nil =>
    rw [h_ids] at h_mem
    simpa using fun id => (h_mem id).not.mp List.not_mem_nil
  | cons id ids =>
    have h_owner : r.owner id = some peer := (h_mem id).mp (h_ids ▸ List.mem_cons_self)
    exact ⟨fun _ => ⟨id, h_owner⟩, fun _ => r.ne_of_owner h_owner⟩

/-! ### The methods -/

/-- The version of the protocol, which both sides have to speak. -/
def protocolVersion : String := "1.0"

/-- What is wrong with a hello. -/
def checkHello (hello : Hello) : Option RPCError :=
  if hello.protocolVersion ≠ protocolVersion then
    some (newError codeProtocolMismatch "INVALID_REQUEST"
      "extension protocol version is incompatible" false
      (.ofFields [("expected", .str protocolVersion), ("actual", .str hello.protocolVersion)]))
  else if hello.browserInstanceID = "" then
    some (invalidParams "browserInstanceId is required" .empty)
  else none

/-- A hello that is accepted names its instance. -/
theorem ne_of_checkHello {hello : Hello} (h : checkHello hello = none) :
    hello.browserInstanceID ≠ "" := by
  unfold checkHello at h
  split at h
  · contradiction
  · split at h
    · contradiction
    · assumption

/-- The critical section of `Register`. -/
def insert (peer : β) (hello : Hello) (now : Time) (h_id : hello.browserInstanceID ≠ "") :
    Registry β :=
  let i : Instance β := { hello, connectedAt := now, lastSeenAt := now, peer }
  { instances := r.instances.insert hello.browserInstanceID i
    byPeer := Function.update r.byPeer peer
      ((r.byPeer peer).insert hello.browserInstanceID)
    lastID := hello.browserInstanceID
    -- The three invariants of the tables: the new entry is under its own id, its peer lists it, and
    -- it is the default.
    keyed := by
      intro id hello' peer' h
      rw [Instances.entry_insert] at h
      split at h
      case isTrue h_eq =>
        obtain ⟨rfl, rfl⟩ := Prod.mk.inj (Option.some.inj h)
        exact ⟨h_eq.symm, h_eq ▸ h_id⟩
      · exact r.keyed id hello' peer' h
    owned := by
      intro id hello' peer' h
      rw [Instances.entry_insert] at h
      split at h
      case isTrue h_eq =>
        obtain ⟨rfl, rfl⟩ := Prod.mk.inj (Option.some.inj h)
        rw [Function.update_self, h_eq]
        exact List.mem_insert_self
      · have h_mem := r.owned id hello' peer' h
        by_cases h_peer : peer' = peer
        · rw [h_peer] at h_mem
          rw [h_peer, Function.update_self]
          exact List.mem_insert_of_mem h_mem
        · rwa [Function.update_of_ne h_peer]
    default := by
      rw [if_neg h_id, Instances.entry_insert, if_pos rfl]
      exact Option.some_ne_none _ }

/-- `Register`: the instance belongs to the peer from now on, and is the default. -/
def register (peer : β) (hello : Hello) (now : Time) : Except RPCError (Registry β) :=
  match h : checkHello hello with
  | some rpcErr => .error rpcErr
  | none => .ok (r.insert peer hello now (ne_of_checkHello h))

/-- `Touch`: the instances of the peer were seen. -/
def touch (peer : β) (now : Time) : Registry β where
  instances := (r.byPeer peer).foldl (Instances.touch peer now) r.instances
  byPeer := r.byPeer
  lastID := r.lastID
  keyed id hello peer' h := r.keyed id hello peer' (by rwa [Instances.entry_touchAll] at h)
  owned id hello peer' h := r.owned id hello peer' (by rwa [Instances.entry_touchAll] at h)
  default := by simpa only [Instances.entry_touchAll] using r.default

/-- The instances without those of the peer. -/
def without (peer : β) : Instances β :=
  (r.idsOf peer).foldl (fun m id => m.erase id) r.instances

/-- The default after the instances of a peer are removed. Another instance takes the place of
one that is gone; which one is up to the order of a walk through a map, that is to `pick`. -/
def nextDefault (peer : β) (pick : String) : String :=
  if r.lastID = "" ∨ ((r.without peer).lookup r.lastID).isSome then r.lastID
  else if ((r.without peer).lookup pick).isSome then pick
  else ((r.without peer).keys.head?).getD ""

/-- The instances of a peer are removed, and no others. -/
theorem entry_without (peer : β) (id : String) :
    (r.without peer).entry id = if r.owner id = some peer then none else r.instances.entry id := by
  rw [without, Instances.entry_eraseAll]
  by_cases h : r.owner id = some peer
  · rw [if_pos h, if_pos (r.mem_idsOf.mpr h)]
  · rw [if_neg h, if_neg (mt r.mem_idsOf.mp h)]

/-- What is left was there before. -/
theorem entry_of_without {peer : β} {id : String} {x : Hello × β}
    (h : (r.without peer).entry id = some x) :
    r.instances.entry id = some x ∧ r.owner id ≠ some peer := by
  rw [entry_without] at h
  split at h
  · contradiction
  case isFalse h_owner => exact ⟨h, h_owner⟩

/-- The new default is an instance that is left, or nothing if none is. -/
theorem nextDefault_spec (peer : β) (pick : String) :
    if r.nextDefault peer pick = "" then ∀ id, (r.without peer).entry id = none
    else (r.without peer).entry (r.nextDefault peer pick) ≠ none := by
  have h_some : ∀ id, ((r.without peer).lookup id).isSome → (r.without peer).entry id ≠ none := by
    intro id h
    rw [Ne, Instances.entry_eq_none, not_not, ← AList.lookup_isSome]
    exact h
  have h_ne : ∀ id, (r.without peer).entry id ≠ none → id ≠ "" := by
    intro id h
    obtain ⟨⟨hello, peer'⟩, h_entry⟩ := Option.ne_none_iff_exists'.mp h
    exact (r.keyed id hello peer' (r.entry_of_without h_entry).1).2
  unfold nextDefault
  split
  case isTrue h =>
    -- the default stays: it is empty, or it is not the peer's
    have h_default := r.default
    split
    case isTrue h_empty =>
      intro id
      rw [if_pos h_empty] at h_default
      rw [entry_without, h_default id, ite_self]
    case isFalse h_full => exact h_some _ (h.resolve_left h_full)
  case isFalse =>
    split
    -- the walk begins with an instance that is left
    case isTrue h_pick =>
      rw [if_neg (h_ne _ (h_some _ h_pick))]
      exact h_some _ h_pick
    case isFalse =>
      -- otherwise the first of the instances that are left is taken, if there is one
      cases h_keys : (r.without peer).keys with
      | nil =>
        intro id
        rw [Instances.entry_eq_none, AList.mem_keys, h_keys]
        exact List.not_mem_nil
      | cons id ids =>
        have h_entry : (r.without peer).entry id ≠ none := by
          rw [Ne, Instances.entry_eq_none, not_not, AList.mem_keys, h_keys]
          exact List.mem_cons_self
        rw [List.head?_cons, Option.getD_some, if_neg (h_ne id h_entry)]
        exact h_entry

/-- `Disconnect`, and the ids of the instances that it removes. -/
def disconnect (peer : β) (pick : String) : Registry β × List String :=
  ({ instances := r.without peer
     byPeer := Function.update r.byPeer peer []
     -- `pick` is the id that the walk over the Go map happens to meet first.
     lastID := r.nextDefault peer pick
     keyed := fun id hello peer' h => r.keyed id hello peer' (r.entry_of_without h).1
     owned := by
       intro id hello peer' h
       obtain ⟨h_entry, h_owner⟩ := r.entry_of_without h
       have h_ne : peer' ≠ peer := by
         rintro rfl
         exact h_owner (by rw [owner_eq, h_entry, Option.map_some])
       rw [Function.update_of_ne h_ne]
       exact r.owned id hello peer' h_entry
     default := r.nextDefault_spec peer pick }, r.idsOf peer)

/-! ### Owners after a method -/

/-- Registering takes over the id. -/
theorem owner_register {peer : β} {hello : Hello} {now : Time} {r' : Registry β}
    (h : r.register peer hello now = .ok r') (id : String) :
    r'.owner id = if id = hello.browserInstanceID then some peer else r.owner id := by
  unfold register at h
  split at h
  · contradiction
  · cases h
    rw [owner_eq, owner_eq]
    show (Instances.entry (AList.insert _ _ _) id).map Prod.snd = _
    rw [Instances.entry_insert]
    split <;> rfl

/-- A sign of life changes no owner. -/
theorem owner_touch (peer : β) (now : Time) (id : String) :
    (r.touch peer now).owner id = r.owner id := by
  rw [owner_eq, owner_eq]
  exact congrArg (Option.map Prod.snd) (Instances.entry_touchAll ..)

/-- A peer that disconnects owns nothing. -/
theorem owner_disconnect (peer : β) (pick : String) (id : String) :
    (r.disconnect peer pick).1.owner id =
      if r.owner id = some peer then none else r.owner id := by
  rw [owner_eq]
  show ((r.without peer).entry id).map Prod.snd = _
  rw [entry_without, owner_eq]
  split <;> rfl

omit [DecidableEq β] in
/-- Nobody owns anything at the start. -/
theorem owner_new (id : String) : (new : Registry β).owner id = none := by
  rw [owner_eq]
  exact congrArg (Option.map Prod.snd) (Instances.entry_empty id)

omit [DecidableEq β] in
/-- Nobody owns what has no entry. -/
theorem owner_eq_none {id : String} : r.owner id = none ↔ r.instances.entry id = none := by
  rw [owner_eq, Option.map_eq_none_iff]

omit [DecidableEq β] in
/-- The list of instances is empty when none is registered. -/
theorem list_eq_nil_iff : r.list = [] ↔ ∀ id, r.owner id = none := by
  have h_mem : ∀ id, id ∈ r.list ↔ r.owner id ≠ none := by
    intro id
    rw [list, (List.mergeSort_perm _ _).mem_iff, ← AList.mem_keys, Ne, owner_eq_none,
      Instances.entry_eq_none, not_not]
  rw [List.eq_nil_iff_forall_not_mem]
  exact forall_congr' fun id => (h_mem id).not.trans not_not

omit [DecidableEq β] in
/-- **The default.** It is empty exactly when there is no instance, and otherwise names one. -/
theorem defaultID_spec :
    (r.defaultID = "" ↔ ∀ id, r.owner id = none) ∧
      (r.defaultID ≠ "" → r.owner r.defaultID ≠ none) := by
  have h_default := r.default
  have h_named : r.defaultID ≠ "" → r.owner r.defaultID ≠ none := by
    intro h
    rw [if_neg (show ¬ r.lastID = "" from h)] at h_default
    rwa [Ne, owner_eq_none]
  refine ⟨⟨fun h id => ?_, fun h => ?_⟩, h_named⟩
  · rw [if_pos (show r.lastID = "" from h)] at h_default
    exact r.owner_eq_none.mpr (h_default id)
  · by_contra h_ne
    exact h_named h_ne (h r.defaultID)

end Registry

/-! ### The methods as actions -/

/-- A method that changes the registry. -/
inductive Action (β : Type*) where
  | register (peer : β) (hello : Hello) (now : Time)
  | touch (peer : β) (now : Time)
  | disconnect (peer : β) (pick : String)

namespace Action

/-- The registry after a method. -/
def run (r : Registry β) : Action β → Registry β
  | .register peer hello now =>
    match r.register peer hello now with
    | .ok r' => r'
    | .error _ => r
  | .touch peer now => r.touch peer now
  | .disconnect peer pick => (r.disconnect peer pick).1

/-- Who registers what. -/
def registration : Action β → Option (String × β)
  | .register peer hello _ =>
    if Registry.checkHello hello = none then some (hello.browserInstanceID, peer) else none
  | _ => none

/-- A hello that is refused changes nothing. -/
theorem owner_run_register (r : Registry β) (peer : β) (hello : Hello) (now : Time) (id : String) :
    ((register peer hello now).run r).owner id =
      if Registry.checkHello hello = none ∧ id = hello.browserInstanceID then some peer
      else r.owner id := by
  show Registry.owner (match r.register peer hello now with
    | .ok r' => r'
    | .error _ => r) id = _
  split
  -- the hello was accepted, so it has passed the check
  case h_1 r' h_ok =>
    have h_check : Registry.checkHello hello = none := by
      unfold Registry.register at h_ok
      split at h_ok
      · contradiction
      · assumption
    rw [Registry.owner_register r h_ok]
    simp only [h_check, true_and]
  -- it was refused, and the registry is as before
  case h_2 rpcErr h_error =>
    have h_check : Registry.checkHello hello ≠ none := by
      intro h_none
      unfold Registry.register at h_error
      split at h_error
      case h_1 h_some => cases h_some.symm.trans h_none
      · contradiction
    rw [if_neg (fun h => h_check h.1)]

/-- The action may take an instance from a peer. -/
def takes (peer : β) (id : String) : Action β → Bool
  | .register peer' hello _ => peer' ≠ peer && hello.browserInstanceID = id
  | .touch _ _ => false
  | .disconnect peer' _ => peer' = peer

/-- An owner stays if nobody takes its instance. -/
theorem owner_run_of_not_takes {r : Registry β} {peer : β} {id : String} {action : Action β}
    (h : r.owner id = some peer) (h_takes : action.takes peer id = false) :
    (action.run r).owner id = some peer := by
  cases action with
  | register peer' hello now =>
    rw [owner_run_register]
    split
    case isTrue h_id =>
      have h_peer : peer' = peer := by
        by_contra h_ne
        simp [takes, h_ne, h_id.2] at h_takes
      rw [h_peer]
    · exact h
  | touch peer' now => exact (r.owner_touch peer' now id).trans h
  -- A disconnect removes the entries of its own peer only.
  | disconnect peer' pick =>
    have h_ne : peer' ≠ peer := of_decide_eq_false h_takes
    show (r.disconnect peer' pick).1.owner id = _
    rw [Registry.owner_disconnect, h, if_neg]
    exact fun h_eq => h_ne (Option.some_inj.mp h_eq).symm

end Action

end BrowserControl.Bridge
