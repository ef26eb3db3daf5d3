import BrowserControl.Encoding.Json

/-!
# Tabs and their claims

The `TabRegistry` of the extension. A tab of Chrome gets a `TabState` when the extension first
sees it; the state is an object with an identity, which handlers keep while they wait, and it is
referred to by its handle here (`objects`). The two maps of the registry say which objects are
registered: an object that was removed stays as it was for those who still hold it.

The maps are always inverse to each other, which is part of the type. What the methods do to the
claim on a tab is stated in terms of `claimOf`, the claim that is found under a Chrome tab id.
-/

namespace BrowserControl.Extension

open Encoding

/-- An error of the extension. -/
structure RpcError where
  kind : String
  message : String
  retryable : Bool := false
  details : Object := .empty

/-- A parameter that has to be a non-empty string. -/
def requiredString (params : Object) (key : String) : Except RpcError String :=
  match params.get key with
  | some (.str value) =>
    if value = "" then .error { kind := "INVALID_REQUEST", message := s!"{key} is required" }
    else .ok value
  | _ => .error { kind := "INVALID_REQUEST", message := s!"{key} is required" }

/-- A parameter, if it is a string. -/
def optionalString (params : Object) (key : String) : Option String :=
  match params.get key with
  | some (.str value) => some value
  | _ => none

/-- What is required is there as an option, too. -/
theorem optionalString_of_requiredString {params : Object} {key value : String}
    (h : requiredString params key = .ok value) : optionalString params key = some value := by
  unfold requiredString at h
  unfold optionalString
  split at h
  case h_1 value' h_get =>
    split_ifs at h
    rw [Except.ok.inj h]
  case h_2 => cases h

/-- Who controls a tab. -/
structure Claim where
  sessionID : String
  leaseID : String
  deriving DecidableEq

/-- What the registry keeps of a tab. -/
structure TabState where
  tabID : String
  chromeTabID : ℕ
  documentEpoch : ℕ
  owned : Bool
  claim : Option Claim := none
  deriving DecidableEq

/-- The tabs, by their handles and by their ids in Chrome. -/
structure TabRegistry where
  /-- The objects made so far. -/
  objects : String → Option TabState
  /-- The handles of the registered tabs, in the order in which they were registered. -/
  byHandle : List String
  byChromeID : ℕ → Option String
  named : ∀ {tabID state}, objects tabID = some state → state.tabID = tabID
  indexed : ∀ {chromeTabID tabID}, byChromeID chromeTabID = some tabID →
    tabID ∈ byHandle ∧ ∃ state, objects tabID = some state ∧ state.chromeTabID = chromeTabID
  registered : ∀ {tabID}, tabID ∈ byHandle →
    ∃ state, objects tabID = some state ∧ byChromeID state.chromeTabID = some tabID

namespace TabRegistry

/-- The registry of a service worker that knows no tab yet. -/
def empty : TabRegistry where
  objects _ := none
  byHandle := []
  byChromeID _ := none
  named := nofun
  indexed := nofun
  registered := nofun

variable (R : TabRegistry)

/-! ### Lookups -/

/-- The object that is registered under a handle. -/
def fromHandle (tabID : String) : Except RpcError TabState :=
  match (if tabID ∈ R.byHandle then R.objects tabID else none) with
  | some state => .ok state
  | none => .error { kind := "TAB_NOT_FOUND", message := s!"unknown tab: {tabID}" }

/-- `fromChromeID`. -/
def fromChromeID (chromeTabID : ℕ) : Option TabState :=
  (R.byChromeID chromeTabID).bind R.objects

/-- `all`: the tabs in the order in which they were registered. -/
def all : List TabState := R.byHandle.filterMap R.objects

/-- The claim on a tab of Chrome. -/
def claimOf (chromeTabID : ℕ) : Option Claim := (R.fromChromeID chromeTabID).bind (·.claim)

variable {R}

/-- A tab that is found by its handle is registered. -/
theorem fromHandle_ok {tabID : String} {state : TabState} (h : R.fromHandle tabID = .ok state) :
    tabID ∈ R.byHandle ∧ R.objects tabID = some state := by
  unfold fromHandle at h
  split at h
  case h_1 state' h_get =>
    obtain rfl := Except.ok.inj h
    split at h_get
    case isTrue h_mem => exact ⟨h_mem, h_get⟩
    case isFalse => cases h_get
  case h_2 => cases h

/-- What is found under a handle is indexed by its Chrome tab id. -/
theorem byChromeID_of_fromHandle {tabID : String} {state : TabState}
    (h : R.fromHandle tabID = .ok state) : R.byChromeID state.chromeTabID = some tabID := by
  obtain ⟨h_mem, h_object⟩ := fromHandle_ok h
  obtain ⟨state', h_object', h_index⟩ := R.registered h_mem
  rw [h_object] at h_object'
  obtain rfl := Option.some_inj.mp h_object'
  exact h_index

/-- A tab that is found by its id in Chrome is found by its handle. -/
theorem fromHandle_of_byChromeID {chromeTabID : ℕ} {tabID : String}
    (h : R.byChromeID chromeTabID = some tabID) :
    ∃ state, R.fromHandle tabID = .ok state ∧ state.chromeTabID = chromeTabID ∧
      R.fromChromeID chromeTabID = some state := by
  obtain ⟨h_mem, state, h_object, h_chrome⟩ := R.indexed h
  refine ⟨state, ?_, h_chrome, ?_⟩
  · simp only [fromHandle, if_pos h_mem, h_object]
  · rw [fromChromeID, h, Option.bind_some, h_object]

/-- A tab that is found by its handle is found by its id in Chrome. -/
theorem fromChromeID_of_fromHandle {tabID : String} {state : TabState}
    (h : R.fromHandle tabID = .ok state) : R.fromChromeID state.chromeTabID = some state := by
  rw [fromChromeID, byChromeID_of_fromHandle h, Option.bind_some, (fromHandle_ok h).2]

/-- The handle and the claim of a tab that is found. -/
theorem of_fromChromeID {chromeTabID : ℕ} {state : TabState}
    (h : R.fromChromeID chromeTabID = some state) :
    R.byChromeID chromeTabID = some state.tabID ∧ R.claimOf chromeTabID = state.claim := by
  have h_claim : R.claimOf chromeTabID = state.claim := by rw [claimOf, h, Option.bind_some]
  obtain ⟨tabID, h_index, h_object⟩ := Option.bind_eq_some_iff.mp h
  obtain rfl := R.named h_object
  exact ⟨h_index, h_claim⟩

/-- The claim of a tab that is found. -/
theorem claimOf_of_fromHandle {tabID : String} {state : TabState}
    (h : R.fromHandle tabID = .ok state) : R.claimOf state.chromeTabID = state.claim := by
  rw [claimOf, fromChromeID_of_fromHandle h, Option.bind_some]

/-- A tab that is not registered has no claim. -/
theorem claimOf_of_byChromeID_none {chromeTabID : ℕ} (h : R.byChromeID chromeTabID = none) :
    R.claimOf chromeTabID = none := by
  rw [claimOf, fromChromeID, h]
  rfl

/-- A tab has one handle. -/
theorem chromeTabID_inj {tabID : String} {m n : ℕ} (hm : R.byChromeID m = some tabID)
    (hn : R.byChromeID n = some tabID) : m = n := by
  obtain ⟨-, state, h_object, rfl⟩ := R.indexed hm
  obtain ⟨-, state', h_object', rfl⟩ := R.indexed hn
  rw [h_object] at h_object'
  rw [Option.some_inj.mp h_object']

/-- Every tab of the list is found. -/
theorem fromHandle_of_mem_all {state : TabState} (h : state ∈ R.all) :
    R.fromHandle state.tabID = .ok state := by
  obtain ⟨tabID, h_mem, h_object⟩ := List.mem_filterMap.mp h
  obtain rfl := R.named h_object
  simp only [fromHandle, if_pos h_mem, h_object]

/-! ### Changes of the objects -/

variable (R)

/-- Changes the objects of some handles, but neither their handles nor their tabs. -/
def modify (p : String → Bool) (f : TabState → TabState)
    (h_id : ∀ state, (f state).tabID = state.tabID)
    (h_chrome : ∀ state, (f state).chromeTabID = state.chromeTabID) : TabRegistry where
  objects tabID := if p tabID then (R.objects tabID).map f else R.objects tabID
  byHandle := R.byHandle
  byChromeID := R.byChromeID
  -- The change keeps both names of the state, so the indexes stay right.
  named := by
    intro tabID state h
    split at h
    case isTrue =>
      obtain ⟨old, h_old, rfl⟩ := Option.map_eq_some_iff.mp h
      exact (h_id old).trans (R.named h_old)
    case isFalse => exact R.named h
  indexed := by
    intro chromeTabID tabID h
    obtain ⟨h_mem, state, h_object, h_index⟩ := R.indexed h
    refine ⟨h_mem, ?_⟩
    by_cases hp : p tabID
    · exact ⟨f state, by simp [hp, h_object], (h_chrome state).trans h_index⟩
    · exact ⟨state, by simp [hp, h_object], h_index⟩
  registered := by
    intro tabID h
    obtain ⟨state, h_object, h_index⟩ := R.registered h
    by_cases hp : p tabID
    · refine ⟨f state, by simp [hp, h_object], ?_⟩
      rw [h_chrome, h_index]
    · exact ⟨state, by simp [hp, h_object], h_index⟩

/-- Sets the claim of some objects. -/
def setClaim (p : String → Bool) (claim : Option Claim) : TabRegistry :=
  R.modify p (fun state => { state with claim }) (fun _ => rfl) fun _ => rfl

@[simp] theorem byChromeID_setClaim (p : String → Bool) (claim : Option Claim) :
    (R.setClaim p claim).byChromeID = R.byChromeID := rfl

variable {R}

/-- The claim of a tab with such a handle is the new one, or stays. -/
theorem claimOf_setClaim {p : String → Bool} {claim : Option Claim} {chromeTabID : ℕ}
    {tabID : String} (h : R.byChromeID chromeTabID = some tabID) :
    (R.setClaim p claim).claimOf chromeTabID =
      if p tabID then claim else R.claimOf chromeTabID := by
  obtain ⟨-, state, h_object, -⟩ := R.indexed h
  simp only [claimOf, fromChromeID, byChromeID_setClaim, h, Option.bind_some]
  show ((if p tabID then (R.objects tabID).map _ else R.objects tabID).bind _) = _
  by_cases hp : p tabID <;> simp [hp, h_object]

theorem claimOf_setClaim_of_ne {p : String → Bool} {claim : Option Claim} {chromeTabID : ℕ}
    (h : ∀ tabID, R.byChromeID chromeTabID = some tabID → p tabID = false) :
    (R.setClaim p claim).claimOf chromeTabID = R.claimOf chromeTabID := by
  cases h_index : R.byChromeID chromeTabID with
  | none => rw [claimOf_of_byChromeID_none h_index, claimOf_of_byChromeID_none (by exact h_index)]
  | some tabID => rw [claimOf_setClaim h_index, h tabID h_index, if_neg Bool.false_ne_true]

/-! ### Claims -/

variable (R)

/-- Gives the claim on a tab to a session; only with `force` it is taken from another one. -/
def claim (tabID sessionID leaseID : String) (force : Bool) :
    Except RpcError (TabRegistry × TabState) := do
  let state ← R.fromHandle tabID
  let conflict := match state.claim with
    | some c => decide (c.sessionID ≠ sessionID ∨ c.leaseID ≠ leaseID)
    | none => false
  if !force && conflict then
    .error {
      kind := "LEASE_CONFLICT"
      message := s!"tab {tabID} is already controlled"
      details := .ofFields [("tabId", .str tabID)] }
  else .ok (R.setClaim (· = tabID) (some { sessionID, leaseID }), state)

/-- Fails unless the tab is controlled, and by the session and under the lease if these are
given and not empty. -/
def assertClaimed (tabID : String) (sessionID leaseID : Option String) :
    Except RpcError TabState := do
  let state ← R.fromHandle tabID
  match state.claim with
  | none => .error { kind := "TAB_NOT_CLAIMED", message := s!"tab {tabID} is not controlled" }
  | some c =>
    if sessionID.any fun id => id ≠ "" && c.sessionID ≠ id then
      .error { kind := "LEASE_REQUIRED", message := "session does not own this tab" }
    else if leaseID.any fun id => id ≠ "" && c.leaseID ≠ id then
      .error { kind := "LEASE_REQUIRED", message := "lease does not own this tab" }
    else .ok state

/-- Ends the claim on a tab, whosever it is. -/
def release (tabID : String) : Except RpcError TabRegistry := do
  let _ ← R.fromHandle tabID
  return R.setClaim (· = tabID) none

/-- Ends all claims. -/
def releaseAll : TabRegistry × List TabState :=
  (R.setClaim (· ∈ R.byHandle) none, R.all.filter (·.claim.isSome))

variable {R}

/-- What a claim does that succeeds, and what it has checked. -/
theorem claim_ok {tabID sessionID leaseID : String} {force : Bool} {R' : TabRegistry}
    {state : TabState} (h : R.claim tabID sessionID leaseID force = .ok (R', state)) :
    R.fromHandle tabID = .ok state ∧
      R' = R.setClaim (· = tabID) (some { sessionID, leaseID }) := by
  obtain ⟨found, h_get, h⟩ := of_bind_ok h
  dsimp only at h
  split_ifs at h
  obtain ⟨rfl, rfl⟩ := Prod.mk.inj (Except.ok.inj h)
  exact ⟨h_get, rfl⟩

/-- What `assertClaimed` has checked. -/
theorem assertClaimed_ok {tabID : String} {sessionID leaseID : Option String}
    {state : TabState} (h : R.assertClaimed tabID sessionID leaseID = .ok state) :
    R.fromHandle tabID = .ok state ∧ state.claim.isSome := by
  obtain ⟨found, h_get, h⟩ := of_bind_ok h
  split at h
  case h_1 => cases h
  case h_2 c' h_claim =>
    split_ifs at h
    obtain rfl := Except.ok.inj h
    exact ⟨h_get, by rw [h_claim]; rfl⟩

/-- A release takes the claim of the tab away. -/
theorem release_ok {tabID : String} {R' : TabRegistry} (h : R.release tabID = .ok R') :
    ∃ state, R.fromHandle tabID = .ok state ∧ R' = R.setClaim (· = tabID) none := by
  obtain ⟨found, h_get, h⟩ := of_bind_ok h
  exact ⟨found, h_get, (Except.ok.inj h).symm⟩

/-! ### Registration -/

variable (R)

/-- Makes the object of a tab that is not registered. -/
def register (chromeTabID : ℕ) (handle : String) (owned : Bool)
    (h_tab : R.byChromeID chromeTabID = none) (h_handle : R.objects handle = none) :
    TabRegistry where
  objects := Function.update R.objects handle
    (some { tabID := handle, chromeTabID, documentEpoch := 1, owned })
  byHandle := R.byHandle ++ [handle]
  byChromeID := Function.update R.byChromeID chromeTabID (some handle)
  -- The handle and the tab are new in their tables.
  named := by
    intro tabID state h
    by_cases h_eq : tabID = handle
    · subst h_eq
      rw [Function.update_self] at h
      rw [← Option.some_inj.mp h]
    · rw [Function.update_of_ne h_eq] at h
      exact R.named h
  indexed := by
    intro n tabID h
    by_cases h_eq : n = chromeTabID
    · subst h_eq
      rw [Function.update_self] at h
      obtain rfl := Option.some_inj.mp h
      exact ⟨by simp, _, Function.update_self .., rfl⟩
    · rw [Function.update_of_ne h_eq] at h
      obtain ⟨h_mem, state, h_object, h_chrome⟩ := R.indexed h
      have h_ne : tabID ≠ handle := by
        rintro rfl
        rw [h_handle] at h_object
        cases h_object
      exact ⟨List.mem_append_left _ h_mem, state, by rw [Function.update_of_ne h_ne, h_object],
        h_chrome⟩
  registered := by
    intro tabID h
    rcases List.mem_append.mp h with h_old | h_new
    · obtain ⟨state, h_object, h_index⟩ := R.registered h_old
      have h_ne : tabID ≠ handle := by
        rintro rfl
        rw [h_handle] at h_object
        cases h_object
      have h_tab_ne : state.chromeTabID ≠ chromeTabID := by
        rintro rfl
        rw [h_tab] at h_index
        cases h_index
      exact ⟨state, by rw [Function.update_of_ne h_ne, h_object],
        by rw [Function.update_of_ne h_tab_ne, h_index]⟩
    · obtain rfl := List.mem_singleton.mp h_new
      exact ⟨_, Function.update_self .., Function.update_self ..⟩

/-- The tab is registered if it is not, under a handle that was never used. -/
def ensure (chromeTabID : ℕ) (handle : String) (owned : Bool) : TabRegistry :=
  match h_tab : R.byChromeID chromeTabID with
  | some tabID =>
    if owned then R.modify (· = tabID) (fun state => { state with owned := true }) (fun _ => rfl)
      fun _ => rfl
    else R
  | none =>
    if h_handle : (R.objects handle).isNone then
      R.register chromeTabID handle owned h_tab (Option.isNone_iff_eq_none.mp h_handle)
    else R

/-- The main frame of a tab shows another document. -/
def noteNavigation (chromeTabID : ℕ) : TabRegistry :=
  match R.byChromeID chromeTabID with
  | some tabID =>
    R.modify (· = tabID) (fun state => { state with documentEpoch := state.documentEpoch + 1 })
      (fun _ => rfl) fun _ => rfl
  | none => R

/-- Forgets a tab that was closed. -/
def remove (chromeTabID : ℕ) : TabRegistry :=
  match h_tab : R.byChromeID chromeTabID with
  | some handle =>
    -- The object stays in its table, only both indexes lose the tab.
    { objects := R.objects
      byHandle := R.byHandle.filter (· ≠ handle)
      byChromeID := Function.update R.byChromeID chromeTabID none
      named := R.named
      indexed := by
        intro n tabID h
        have h_ne : n ≠ chromeTabID := by
          rintro rfl
          rw [Function.update_self] at h
          cases h
        rw [Function.update_of_ne h_ne] at h
        obtain ⟨h_mem, h_object⟩ := R.indexed h
        refine ⟨List.mem_filter.mpr ⟨h_mem, decide_eq_true ?_⟩, h_object⟩
        rintro rfl
        exact h_ne (R.chromeTabID_inj h h_tab)
      registered := by
        intro tabID h
        obtain ⟨h_mem, h_ne⟩ := List.mem_filter.mp h
        obtain ⟨state, h_object, h_index⟩ := R.registered h_mem
        refine ⟨state, h_object, ?_⟩
        rw [Function.update_of_ne, h_index]
        rintro rfl
        rw [h_tab] at h_index
        exact of_decide_eq_true h_ne (Option.some_inj.mp h_index).symm }
  | none => R

/-! ### What the methods do to the objects -/

/-- There is an object with this handle, and it is the state of this tab. -/
def Knows (R : TabRegistry) (tabID : String) (chromeTabID : ℕ) : Prop :=
  ∃ state, R.objects tabID = some state ∧ state.chromeTabID = chromeTabID

section Knows

variable {R} {tabID : String} {chromeTabID : ℕ}

/-- A tab that is found is known. -/
theorem Knows.of_fromHandle {state : TabState} (h : R.fromHandle tabID = .ok state) :
    R.Knows tabID state.chromeTabID := ⟨state, (fromHandle_ok h).2, rfl⟩

/-- Under a handle, only the tab of its object is found. -/
theorem Knows.chromeTabID_eq (h : R.Knows tabID chromeTabID) {n : ℕ}
    (hn : R.byChromeID n = some tabID) : n = chromeTabID := by
  obtain ⟨state, h_object, rfl⟩ := h
  obtain ⟨-, state', h_object', rfl⟩ := R.indexed hn
  rw [h_object] at h_object'
  rw [Option.some_inj.mp h_object']

/-- Changes of a tab leave it known. -/
theorem Knows.modify (h : R.Knows tabID chromeTabID) {p : String → Bool} {f : TabState → TabState}
    {h_id : ∀ state, (f state).tabID = state.tabID}
    {h_chrome : ∀ state, (f state).chromeTabID = state.chromeTabID} :
    (R.modify p f h_id h_chrome).Knows tabID chromeTabID := by
  obtain ⟨state, h_object, h_tab⟩ := h
  by_cases hp : p tabID
  · refine ⟨f state, ?_, (h_chrome state).trans h_tab⟩
    show (if p tabID then (R.objects tabID).map f else R.objects tabID) = _
    rw [if_pos hp, h_object, Option.map_some]
  · refine ⟨state, ?_, h_tab⟩
    show (if p tabID then (R.objects tabID).map f else R.objects tabID) = _
    rw [if_neg hp, h_object]

/-- A claim leaves it known. -/
theorem Knows.setClaim (h : R.Knows tabID chromeTabID) (p : String → Bool)
    (claim : Option Claim) : (R.setClaim p claim).Knows tabID chromeTabID := h.modify

/-- So does a new tab. -/
theorem Knows.ensure (h : R.Knows tabID chromeTabID) (n : ℕ) (handle : String) (owned : Bool) :
    (R.ensure n handle owned).Knows tabID chromeTabID := by
  unfold TabRegistry.ensure
  split
  case h_1 =>
    split
    · exact h.modify
    · exact h
  case h_2 =>
    split
    case isFalse => exact h
    -- A new handle: the object of the old one is not touched.
    case isTrue h_handle =>
      obtain ⟨state, h_object, h_tab⟩ := h
      have h_ne : tabID ≠ handle := by
        rintro rfl
        rw [h_object] at h_handle
        cases h_handle
      exact ⟨state, (Function.update_of_ne h_ne ..).trans h_object, h_tab⟩

/-- So does a navigation. -/
theorem Knows.noteNavigation (h : R.Knows tabID chromeTabID) (n : ℕ) :
    (R.noteNavigation n).Knows tabID chromeTabID := by
  unfold TabRegistry.noteNavigation
  split
  · exact h.modify
  · exact h

/-- A tab stays known when tabs go. -/
theorem Knows.remove (h : R.Knows tabID chromeTabID) (n : ℕ) :
    (R.remove n).Knows tabID chromeTabID := by
  unfold TabRegistry.remove
  split
  · exact h
  · exact h

end Knows

/-! ### What the methods do to the claims -/

variable {R}

@[simp] theorem claimOf_empty (chromeTabID : ℕ) : empty.claimOf chromeTabID = none := rfl

/-- A change of objects that leaves their claims alone leaves the claims alone. -/
theorem claimOf_modify {p : String → Bool} {f : TabState → TabState}
    {h_id : ∀ state, (f state).tabID = state.tabID}
    {h_chrome : ∀ state, (f state).chromeTabID = state.chromeTabID}
    (h_claim : ∀ state, (f state).claim = state.claim) (chromeTabID : ℕ) :
    (R.modify p f h_id h_chrome).claimOf chromeTabID = R.claimOf chromeTabID := by
  show ((R.byChromeID chromeTabID).bind fun tabID =>
    if p tabID then (R.objects tabID).map f else R.objects tabID).bind _ = _
  cases h_index : R.byChromeID chromeTabID with
  | none => rw [claimOf_of_byChromeID_none h_index]; rfl
  | some tabID =>
    obtain ⟨-, state, h_object, -⟩ := R.indexed h_index
    rw [claimOf, fromChromeID, h_index, Option.bind_some, Option.bind_some, h_object]
    by_cases hp : p tabID
    · simp [hp, h_claim]
    · simp [hp]

@[simp] theorem claimOf_releaseAll (chromeTabID : ℕ) :
    R.releaseAll.1.claimOf chromeTabID = none := by
  cases h_index : R.byChromeID chromeTabID with
  | none => exact claimOf_of_byChromeID_none h_index
  | some tabID =>
    have h_mem := (R.indexed h_index).1
    rw [releaseAll, claimOf_setClaim h_index, if_pos (decide_eq_true h_mem)]

@[simp] theorem byChromeID_releaseAll : R.releaseAll.1.byChromeID = R.byChromeID := rfl

/-- Under which handle a tab is found after it was registered. -/
theorem byChromeID_ensure (chromeTabID : ℕ) (handle : String) (owned : Bool) (n : ℕ) :
    (R.ensure chromeTabID handle owned).byChromeID n = R.byChromeID n ∨
      n = chromeTabID ∧ R.byChromeID n = none ∧ R.objects handle = none ∧
        (R.ensure chromeTabID handle owned).byChromeID n = some handle := by
  unfold ensure
  split
  -- The tab is known: at most its ownership changes.
  case h_1 tabID h_tab =>
    cases owned with
    | true => exact .inl rfl
    | false => exact .inl rfl
  -- It is new: the handle is put into the index, if it is free.
  case h_2 h_tab =>
    split
    case isTrue h_handle =>
      by_cases h_eq : n = chromeTabID
      · subst h_eq
        exact .inr ⟨rfl, h_tab, Option.isNone_iff_eq_none.mp h_handle, Function.update_self ..⟩
      · exact .inl (Function.update_of_ne h_eq ..)
    case isFalse => exact .inl rfl

@[simp] theorem claimOf_ensure (chromeTabID : ℕ) (handle : String) (owned : Bool) (n : ℕ) :
    (R.ensure chromeTabID handle owned).claimOf n = R.claimOf n := by
  unfold ensure
  split
  -- The tab is known: its object stays, with its claim.
  case h_1 tabID h_tab =>
    cases owned with
    | true =>
      rw [if_pos rfl]
      exact claimOf_modify (by exact fun _ => rfl) n
    | false => rfl
  -- a new object has no claim
  case h_2 h_tab =>
    split
    case isFalse => rfl
    case isTrue h_handle =>
      show ((Function.update R.byChromeID chromeTabID (some handle) n).bind
        (Function.update R.objects handle _)).bind _ = _
      by_cases h_eq : n = chromeTabID
      · subst h_eq
        rw [Function.update_self, Option.bind_some, Function.update_self,
          claimOf_of_byChromeID_none h_tab]
        rfl
      · rw [Function.update_of_ne h_eq]
        cases h_index : R.byChromeID n with
        | none => rw [claimOf_of_byChromeID_none h_index]; rfl
        | some tabID =>
          obtain ⟨-, state, h_object, -⟩ := R.indexed h_index
          have h_ne : tabID ≠ handle := by
            rintro rfl
            rw [h_object] at h_handle
            cases h_handle
          rw [Option.bind_some, Function.update_of_ne h_ne, claimOf, fromChromeID, h_index,
            Option.bind_some]

@[simp] theorem claimOf_noteNavigation (chromeTabID n : ℕ) :
    (R.noteNavigation chromeTabID).claimOf n = R.claimOf n := by
  unfold noteNavigation
  split
  · exact claimOf_modify (by exact fun _ => rfl) n
  · rfl

@[simp] theorem byChromeID_noteNavigation (chromeTabID : ℕ) :
    (R.noteNavigation chromeTabID).byChromeID = R.byChromeID := by
  unfold noteNavigation
  split <;> rfl

/-- A tab that goes loses its handle. -/
theorem byChromeID_remove (chromeTabID n : ℕ) :
    (R.remove chromeTabID).byChromeID n = if n = chromeTabID then none else R.byChromeID n := by
  unfold remove
  split
  case h_1 handle h_tab =>
    by_cases h_eq : n = chromeTabID
    · subst h_eq
      rw [if_pos rfl]
      exact Function.update_self ..
    · rw [if_neg h_eq]
      exact Function.update_of_ne h_eq ..
  case h_2 h_tab =>
    split_ifs with h_eq
    · rw [h_eq, h_tab]
    · rfl

/-- A tab that goes loses its claim. -/
theorem claimOf_remove (chromeTabID n : ℕ) :
    (R.remove chromeTabID).claimOf n = if n = chromeTabID then none else R.claimOf n := by
  by_cases h_eq : n = chromeTabID
  · rw [if_pos h_eq]
    exact claimOf_of_byChromeID_none (by rw [byChromeID_remove, if_pos h_eq])
  · rw [if_neg h_eq, claimOf, fromChromeID, byChromeID_remove, if_neg h_eq, claimOf, fromChromeID]
    unfold remove
    split <;> rfl

/-! ### What is found under a tab -/

/-- When a tab is found by its id in Chrome. -/
theorem fromChromeID_eq_some {n : ℕ} {state : TabState} :
    R.fromChromeID n = some state ↔
      R.byChromeID n = some state.tabID ∧ R.objects state.tabID = some state := by
  constructor
  · intro h
    obtain ⟨tabID, h_index, h_object⟩ := Option.bind_eq_some_iff.mp h
    obtain rfl := R.named h_object
    exact ⟨h_index, h_object⟩
  · rintro ⟨h_index, h_object⟩
    rw [fromChromeID, h_index, Option.bind_some, h_object]

/-- The object of a tab is about this tab. -/
theorem chromeTabID_of_fromChromeID {n : ℕ} {state : TabState}
    (h : R.fromChromeID n = some state) : state.chromeTabID = n := by
  obtain ⟨h_index, h_object⟩ := fromChromeID_eq_some.mp h
  obtain ⟨-, state', h_object', rfl⟩ := R.indexed h_index
  rw [h_object] at h_object'
  rw [Option.some_inj.mp h_object']

/-- Such a tab is in the list. -/
theorem mem_all_of_fromChromeID {n : ℕ} {state : TabState} (h : R.fromChromeID n = some state) :
    state ∈ R.all := by
  obtain ⟨h_index, h_object⟩ := fromChromeID_eq_some.mp h
  exact List.mem_filterMap.mpr ⟨state.tabID, (R.indexed h_index).1, h_object⟩

/-! ### Where the objects come from -/

/-- A tab after a change is one from before it. -/
theorem objects_modify {p : String → Bool} {f : TabState → TabState}
    {h_id : ∀ state, (f state).tabID = state.tabID}
    {h_chrome : ∀ state, (f state).chromeTabID = state.chromeTabID} {tabID : String}
    {state' : TabState} (h : (R.modify p f h_id h_chrome).objects tabID = some state') :
    ∃ state, R.objects tabID = some state ∧ (if p tabID then f state else state) = state' := by
  change (if p tabID then (R.objects tabID).map f else R.objects tabID) = some state' at h
  split_ifs at h with hp
  · obtain ⟨state, h_old, h_new⟩ := Option.map_eq_some_iff.mp h
    exact ⟨state, h_old, (if_pos hp).trans h_new⟩
  · exact ⟨state', h, if_neg hp⟩

/-- An object was there, or it is made for the tab. -/
theorem objects_ensure {chromeTabID : ℕ} {handle : String} {owned : Bool} {tabID : String}
    {state' : TabState} (h : (R.ensure chromeTabID handle owned).objects tabID = some state') :
    (∃ state, R.objects tabID = some state ∧ state'.chromeTabID = state.chromeTabID ∧
        state'.documentEpoch = state.documentEpoch) ∨
      tabID = handle ∧ R.objects handle = none ∧ R.byChromeID chromeTabID = none ∧
        state'.chromeTabID = chromeTabID ∧ state'.documentEpoch = 1 := by
  unfold ensure at h
  split at h
  -- the tab is known
  case h_1 =>
    split at h
    · obtain ⟨state, h_old, rfl⟩ := objects_modify h
      refine .inl ⟨state, h_old, ?_⟩
      split_ifs
      · exact ⟨rfl, rfl⟩
      · exact ⟨rfl, rfl⟩
    · exact .inl ⟨state', h, rfl, rfl⟩
  -- it is not, and gets the handle if that is free
  case h_2 h_tab =>
    split at h
    case isFalse => exact .inl ⟨state', h, rfl, rfl⟩
    case isTrue h_handle =>
      change Function.update R.objects handle _ tabID = some state' at h
      by_cases h_eq : tabID = handle
      · subst h_eq
        rw [Function.update_self] at h
        obtain rfl := Option.some_inj.mp h
        exact .inr ⟨rfl, Option.isNone_iff_eq_none.mp h_handle, h_tab, rfl, rfl⟩
      · rw [Function.update_of_ne h_eq] at h
        exact .inl ⟨state', h, rfl, rfl⟩

@[simp] theorem objects_remove (chromeTabID : ℕ) : (R.remove chromeTabID).objects = R.objects := by
  unfold remove
  split <;> rfl

/-- A navigation changes the epoch alone. -/
theorem objects_noteNavigation {n : ℕ} {tabID : String} {state' : TabState}
    (h : (R.noteNavigation n).objects tabID = some state') :
    ∃ state, R.objects tabID = some state ∧ state'.chromeTabID = state.chromeTabID := by
  unfold noteNavigation at h
  split at h
  · obtain ⟨state, h_old, rfl⟩ := objects_modify h
    refine ⟨state, h_old, ?_⟩
    split_ifs
    · rfl
    · rfl
  · exact ⟨state', h, rfl⟩

/-- The same for a tab that is found by its id in Chrome. -/
theorem fromChromeID_noteNavigation {m n : ℕ} {state' : TabState}
    (h : (R.noteNavigation m).fromChromeID n = some state') :
    ∃ state, R.fromChromeID n = some state ∧ state'.tabID = state.tabID ∧
      state'.documentEpoch = if n = m then state.documentEpoch + 1 else state.documentEpoch := by
  obtain ⟨h_index, h_object⟩ := fromChromeID_eq_some.mp h
  rw [byChromeID_noteNavigation] at h_index
  unfold noteNavigation at h_object
  split at h_object
  -- The tab has an object, which is rewritten in its place.
  case h_1 handle h_tab =>
    obtain ⟨state, h_old, h_new⟩ := objects_modify h_object
    have h_id : state.tabID = state'.tabID := R.named h_old
    refine ⟨state, fromChromeID_eq_some.mpr ⟨?_, ?_⟩, h_id.symm, ?_⟩
    · rw [h_id, h_index]
    · rw [h_id, h_old]
    · by_cases h_eq : n = m
      · subst h_eq
        rw [h_tab] at h_index
        rw [if_pos (decide_eq_true (Option.some_inj.mp h_index).symm)] at h_new
        rw [if_pos rfl, ← h_new]
      · have h_ne : state'.tabID ≠ handle := by
          rintro rfl
          exact h_eq (chromeTabID_inj h_index h_tab)
        rw [if_neg (by simpa using h_ne)] at h_new
        rw [if_neg h_eq, h_new]
  case h_2 h_none =>
    have h_ne : n ≠ m := by
      rintro rfl
      rw [h_none] at h_index
      cases h_index
    exact ⟨state', fromChromeID_eq_some.mpr ⟨h_index, h_object⟩, rfl, (if_neg h_ne).symm⟩

/-- A tab that is new is registered. -/
theorem ensure_of_none {chromeTabID : ℕ} {handle : String} (h_tab : R.byChromeID chromeTabID = none)
    (h_handle : R.objects handle = none) (owned : Bool) :
    R.ensure chromeTabID handle owned = R.register chromeTabID handle owned h_tab h_handle := by
  unfold ensure
  split
  case h_1 handle' h_some =>
    rw [h_tab] at h_some
    cases h_some
  case h_2 => exact dif_pos (Option.isNone_iff_eq_none.mpr h_handle)

/-! ### The epochs of the objects -/

variable (R)

/-- The epoch of an object, be it registered or not. -/
def epochOf (tabID : String) : Option ℕ :=
  (R.objects tabID).map (·.documentEpoch)

variable {R}

/-- The epoch of a tab that is found. -/
theorem epochOf_of_fromHandle {tabID : String} {state : TabState}
    (h : R.fromHandle tabID = .ok state) : R.epochOf tabID = some state.documentEpoch := by
  rw [epochOf, (fromHandle_ok h).2, Option.map_some]

/-- A change that keeps the epochs. -/
theorem epochOf_modify {p : String → Bool} {f : TabState → TabState}
    {h_id : ∀ state, (f state).tabID = state.tabID}
    {h_chrome : ∀ state, (f state).chromeTabID = state.chromeTabID}
    (h_epoch : ∀ state, (f state).documentEpoch = state.documentEpoch) (tabID : String) :
    (R.modify p f h_id h_chrome).epochOf tabID = R.epochOf tabID := by
  change Option.map _ (if p tabID then (R.objects tabID).map f else R.objects tabID) = _
  split_ifs
  · rw [Option.map_map]
    exact congrArg (fun g => Option.map g (R.objects tabID)) (funext h_epoch)
  · rfl

@[simp] theorem epochOf_setClaim (p : String → Bool) (claim : Option Claim) (tabID : String) :
    (R.setClaim p claim).epochOf tabID = R.epochOf tabID :=
  epochOf_modify (by exact fun _ => rfl) tabID

@[simp] theorem epochOf_remove (chromeTabID : ℕ) (tabID : String) :
    (R.remove chromeTabID).epochOf tabID = R.epochOf tabID := by
  rw [epochOf, objects_remove, epochOf]

/-- A new tab changes no epoch that is known. -/
theorem epochOf_ensure {tabID : String} {epoch : ℕ} (h : R.epochOf tabID = some epoch)
    (chromeTabID : ℕ) (handle : String) (owned : Bool) :
    (R.ensure chromeTabID handle owned).epochOf tabID = some epoch := by
  unfold ensure
  split
  · split
    · rw [epochOf_modify (by exact fun _ => rfl), h]
    · exact h
  · split
    case isFalse => exact h
    -- A new object does not displace the old one.
    case isTrue h_handle =>
      have h_ne : tabID ≠ handle := by
        rintro rfl
        rw [epochOf, Option.isNone_iff_eq_none.mp h_handle] at h
        cases h
      exact (congrArg (Option.map _) (Function.update_of_ne h_ne ..)).trans h

/-- A navigation counts the epoch of its tab up. -/
theorem epochOf_noteNavigation {n : ℕ} {state : TabState} (h : R.fromChromeID n = some state)
    (tabID : String) : (R.noteNavigation n).epochOf tabID =
      if tabID = state.tabID then some (state.documentEpoch + 1) else R.epochOf tabID := by
  obtain ⟨h_index, h_object⟩ := fromChromeID_eq_some.mp h
  unfold noteNavigation
  simp only [h_index]
  change Option.map _ (if decide (tabID = state.tabID) then (R.objects tabID).map _
    else R.objects tabID) = _
  by_cases h_eq : tabID = state.tabID
  · rw [if_pos (decide_eq_true h_eq), if_pos h_eq, h_eq, h_object]
    rfl
  · rw [if_neg (by simpa using h_eq), if_neg h_eq]
    rfl

end TabRegistry

end BrowserControl.Extension
