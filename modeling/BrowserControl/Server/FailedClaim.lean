import BrowserControl.Server.Deadlines

/-!
# Claims that fail

`tab.claim` by a session that holds the tab already renews its lease in place. If the claim fails
afterwards, it is to leave the session what it had.

`tabClaim` takes back what it has claimed when the lease cannot be bound to the Chrome instance,
unless the lease had an instance before, and when the extension rejects the claim or cannot be
asked. In the latter case it does not look whether the lease is new: a lease that was only renewed
is released with the operations and the queue of the tab (`spared_iff`).

A request is a list of critical sections. Other requests run between them (`Others`), but not for
this session and this tab.
-/

namespace BrowserControl.Server.FailedClaim

open Encoding Protocol BrowserControl.Core

/-! ### A request -/

/-- What other requests do to the manager between two critical sections. -/
structure Others (κ : Type*) (sessionID tabID : String) where
  run : Manager κ → Manager κ
  session : ∀ m, (run m).sessions sessionID = m.sessions sessionID
  lease : ∀ m, (run m).leases tabID = m.leases tabID

/-- A request `tab.claim`, and what it finds. -/
structure Request (κ : Type*) where
  params : Object
  /-- The default of the registry. -/
  defaultID : String
  /-- The id of a new lease. -/
  leaseID : String
  claimAt : Time
  bindAt : Time
  releaseAt : Time
  beforeBind : Others κ (stringField params "sessionId") (stringField params "tabId")
  beforeRelease : Others κ (stringField params "sessionId") (stringField params "tabId")
  /-- What becomes of the call over the bridge. -/
  answer : Except RPCError Json

/-- A critical section: the manager that it finds, and what it leaves behind. -/
structure Section (κ : Type*) where
  before : Manager κ
  after : Locked κ Unit

namespace Request

variable {κ : Type*} [DecidableEq κ] (q : Request κ) (overflow : ℚ → ℤ)

/-- The session that claims. -/
def sessionID : String := stringField q.params "sessionId"

/-- The tab that it claims. -/
def tabID : String := stringField q.params "tabId"

/-- The browser that is meant. -/
def browserInstanceID : String :=
  if stringField q.params "browserInstanceId" = "" then q.defaultID
  else stringField q.params "browserInstanceId"

/-- The time that it asks for. -/
def ttl : Duration := Deadlines.durationMS overflow q.params "leaseTtlMs" 0

/-- Whether another lease may be ended. -/
def force : Bool := q.params.get "force" matches some (.bool true)

/-- `ClaimTabForce` in `tabClaim`. -/
def claim (m : Manager κ) : Locked κ (Except RPCError Lease) :=
  m.claimTabForce q.claimAt (fun _ => "") q.leaseID q.sessionID q.tabID (q.ttl overflow) q.force

/-- `ReleaseTab` in `tabClaim`. -/
def release (m : Manager κ) (lease : Lease) (reason : String) : Section κ :=
  ⟨q.beforeRelease.run m, ((q.beforeRelease.run m).releaseTab q.releaseAt q.sessionID q.tabID
    lease.leaseID reason).effects⟩

/-- The sections after the claim. -/
def bindAndCall (m : Manager κ) (claimedLease : Lease) : List (Section κ) × Except RPCError Unit :=
  let found := q.beforeBind.run m
  let bound := found.bindLeaseBrowser q.bindAt q.sessionID q.tabID claimedLease.leaseID
    q.browserInstanceID
  let binding : Section κ := ⟨found, bound.effects⟩
  match bound.result with
  | .error rpcErr =>
    -- A lease that is bound elsewhere is kept: it is the session's own from before.
    if claimedLease.browserInstanceID = "" then
      ([binding, q.release bound.manager claimedLease "browser binding rejected"], .error rpcErr)
    else ([binding], .error rpcErr)
  | .ok lease =>
    match q.answer with
    -- The extension refused, so the lease is released again.
    | .error bridgeErr =>
      ([binding, q.release bound.manager lease "claim rejected by extension"], .error bridgeErr)
    | .ok _ => ([binding], .ok ())

/-- `tabClaim`: its critical sections, and how it ends. -/
def tabClaim (m : Manager κ) : List (Section κ) × Except RPCError Unit :=
  if q.sessionID = "" ∨ q.tabID = "" then
    ([], .error (invalidParams "sessionId and tabId are required" .empty))
  else if q.browserInstanceID = "" then
    ([], .error ((BridgeFailure.unavailable none).toError "tab.claim"))
  else
    let claimed := q.claim overflow m
    match claimed.result with
    | .error rpcErr => ([⟨m, claimed.effects⟩], .error rpcErr)
    | .ok lease =>
      let rest := q.bindAndCall claimed.manager lease
      (⟨m, claimed.effects⟩ :: rest.1, rest.2)

end Request

/-! ### What is to be spared -/

variable {κ : Type*} [DecidableEq κ]

/-- The session holds the tab with a live lease. -/
structure Held (m : Manager κ) (now : Time) (sessionID tabID : String) (l : Lease) : Prop where
  lease : m.leases tabID = some l
  session : l.sessionID = sessionID
  live : now < l.expiresAt
  notRevoked : l.revoked = false

/-- The section leaves the lease in the table, and cancels neither operations nor the queue of the
tab. -/
structure Section.Spares (s : Section κ) (sessionID tabID leaseID : String) : Prop where
  lease : ∃ l, s.after.manager.leases tabID = some l ∧ l.leaseID = leaseID ∧
    l.sessionID = sessionID ∧ l.revoked = false
  operations : s.after.manager.records = s.before.records
  queue : s.after.cancelledQueues tabID = none

/-- The request fails before the extension is asked: it is refused, or the lease belongs to another
Chrome instance and lives until this is found out. -/
def Request.Refused (q : Request κ) (overflow : ℚ → ℤ) (m : Manager κ) (l : Lease) : Prop :=
  q.sessionID = "" ∨ q.tabID = "" ∨ q.browserInstanceID = "" ∨
    (∀ session ∈ m.sessions q.sessionID, session.status ≠ .open) ∨
    l.browserInstanceID ≠ "" ∧ l.browserInstanceID ≠ q.browserInstanceID ∧
      q.bindAt < q.claimAt + m.effectiveTTL (q.ttl overflow)

/-! ### The sections -/

omit [DecidableEq κ] in
/-- A session that is open. -/
theorem openSessionLocked_of_open {m : Manager κ} {id : String} {session : Session}
    (h : m.sessions id = some session) (h_open : session.status = .open) :
    m.openSessionLocked id = .ok session := by
  rw [Manager.openSessionLocked, h]
  exact if_pos h_open

omit [DecidableEq κ] in
/-- A session that is not. -/
theorem openSessionLocked_of_not_open {m : Manager κ} {id : String}
    (h : ∀ session ∈ m.sessions id, session.status ≠ .open) :
    ∃ rpcErr, m.openSessionLocked id = .error rpcErr := by
  unfold Manager.openSessionLocked
  cases h_session : m.sessions id with
  | none => exact ⟨_, rfl⟩
  | some session => exact ⟨_, if_neg (h session h_session)⟩

/-- The lease after it is renewed by a claim. -/
def renewed (l : Lease) (now : Time) (ttl : Duration) : Lease :=
  { l with lastRenewed := now, expiresAt := now + ttl }

/-- A session that holds the tab gets its lease again. -/
theorem claimTabForce_of_held {m : Manager κ} {now : Time} {sessionID tabID : String} {l : Lease}
    (h : Held m now sessionID tabID l) (h_tab : tabID ≠ "") {session : Session}
    (h_session : m.openSessionLocked sessionID = .ok session) (formatTime : Time → String)
    (id : String) (ttl : Duration) (force : Bool) :
    m.claimTabForce now formatTime id sessionID tabID ttl force =
      { manager := m.setLease tabID (renewed l now (m.effectiveTTL ttl))
        result := .ok (renewed l now (m.effectiveTTL ttl)) } := by
  have h_live : now < l.expiresAt ∧ ¬ l.revoked = true := by
    rw [h.notRevoked]
    exact ⟨h.live, Bool.false_ne_true⟩
  unfold Manager.claimTabForce
  rw [if_neg h_tab]
  simp only [h_session, h.lease]
  rw [if_pos h_live, if_pos h.session]
  rfl

/-- A session that is not open gets none. -/
theorem claimTabForce_of_not_open {m : Manager κ} {sessionID tabID : String} (h_tab : tabID ≠ "")
    {rpcErr : RPCError} (h_session : m.openSessionLocked sessionID = .error rpcErr) (now : Time)
    (formatTime : Time → String) (id : String) (ttl : Duration) (force : Bool) :
    m.claimTabForce now formatTime id sessionID tabID ttl force =
      { manager := m, result := .error rpcErr } := by
  unfold Manager.claimTabForce
  rw [if_neg h_tab]
  simp only [h_session]

/-- A lease of the session that nobody has revoked. -/
structure Kept (m : Manager κ) (sessionID tabID : String) (l : Lease) : Prop where
  lease : m.leases tabID = some l
  session : l.sessionID = sessionID
  notRevoked : l.revoked = false

/-- A lease that is kept and has not expired. -/
theorem heldLease_of_live {m : Manager κ} {sessionID tabID : String} {l : Lease}
    (h : Kept m sessionID tabID l) {now : Time} (h_live : now < l.expiresAt) :
    m.heldLease now sessionID tabID l.leaseID = { manager := m, result := .ok l } := by
  have h_same : ¬ (l.sessionID ≠ sessionID ∨ l.leaseID ≠ l.leaseID) := by
    rw [h.session]
    simp
  unfold Manager.heldLease
  simp only [h.lease]
  rw [if_neg h_live.not_ge, h.notRevoked, if_neg Bool.false_ne_true, if_neg h_same]

/-- A lease whose time is over leaves the table. -/
theorem heldLease_of_expired {m : Manager κ} {tabID : String} {l : Lease}
    (h : m.leases tabID = some l) {now : Time} (h_expired : l.expiresAt ≤ now)
    (sessionID leaseID : String) :
    (∃ rpcErr, (m.heldLease now sessionID tabID leaseID).result = .error rpcErr) ∧
      (m.heldLease now sessionID tabID leaseID).manager.leases tabID = none := by
  unfold Manager.heldLease
  simp only [h]
  rw [if_pos h_expired]
  exact ⟨⟨_, rfl⟩, Function.update_self ..⟩

/-- After a release there is no lease. -/
theorem releaseTab_leases {m : Manager κ} {sessionID tabID : String} {l : Lease}
    (h : m.leases tabID = none ∨ Kept m sessionID tabID l) (now : Time) (reason : String) :
    (m.releaseTab now sessionID tabID l.leaseID reason).manager.leases tabID = none := by
  have h_locked : m.validLeaseLocked now sessionID tabID l.leaseID false =
      m.heldLease now sessionID tabID l.leaseID := if_neg Bool.false_ne_true
  unfold Manager.releaseTab
  simp only [h_locked]
  refine h.elim (fun h_none => ?_) fun h_kept => ?_
  · have h_held : m.heldLease now sessionID tabID l.leaseID =
        { manager := m, result := .error (Manager.leaseRequired sessionID tabID) } := by
      unfold Manager.heldLease
      simp only [h_none]
    simp only [h_held]
    exact h_none
  -- a live lease is released, an expired one dropped
  · by_cases h_live : now < l.expiresAt
    · simp only [heldLease_of_live h_kept h_live]
      exact Function.update_self ..
    · obtain ⟨⟨rpcErr, h_result⟩, h_leases⟩ := heldLease_of_expired h_kept.lease
        (not_lt.mp h_live) sessionID l.leaseID
      simp only [h_result]
      exact h_leases

/-! ### Binding the lease -/

omit [DecidableEq κ] in
/-- It depends on the session only. -/
theorem openSessionLocked_congr {m m' : Manager κ} {id : String}
    (h : m'.sessions id = m.sessions id) : m'.openSessionLocked id = m.openSessionLocked id := by
  unfold Manager.openSessionLocked
  rw [h]

/-- The manager, as it is found when the lease is bound. -/
structure Found (m : Manager κ) (sessionID tabID : String) (l : Lease) : Prop extends
    Kept m sessionID tabID l where
  isOpen : ∃ session, m.openSessionLocked sessionID = .ok session

/-- A lease that is found, as it is checked. -/
theorem Found.validLeaseLocked {m : Manager κ} {sessionID tabID : String} {l : Lease}
    (h : Found m sessionID tabID l) (now : Time) (leaseID : String) :
    m.validLeaseLocked now sessionID tabID leaseID true =
      m.heldLease now sessionID tabID leaseID := by
  obtain ⟨session, h_session⟩ := h.isOpen
  unfold Manager.validLeaseLocked
  rw [if_pos rfl]
  simp only [h_session]

section Bind

variable {m : Manager κ} {now : Time} {sessionID tabID browserInstanceID : String} {l : Lease}
  (h : Found m sessionID tabID l) (h_instance : browserInstanceID ≠ "")
include h h_instance

/-- A lease that has expired is not bound. -/
theorem bindLeaseBrowser_of_expired (h_expired : l.expiresAt ≤ now) :
    (∃ rpcErr, (m.bindLeaseBrowser now sessionID tabID l.leaseID browserInstanceID).result =
        .error rpcErr) ∧
      (m.bindLeaseBrowser now sessionID tabID l.leaseID browserInstanceID).manager.leases tabID =
        none := by
  obtain ⟨⟨rpcErr, h_result⟩, h_leases⟩ := heldLease_of_expired h.lease h_expired sessionID
    l.leaseID
  unfold Manager.bindLeaseBrowser
  rw [if_neg h_instance]
  simp only [h.validLeaseLocked, h_result]
  exact ⟨⟨rpcErr, rfl⟩, h_leases⟩

/-- A lease of another instance is left as it is. -/
theorem bindLeaseBrowser_of_other (h_live : now < l.expiresAt)
    (h_other : l.browserInstanceID ≠ "" ∧ l.browserInstanceID ≠ browserInstanceID) :
    ∃ rpcErr, m.bindLeaseBrowser now sessionID tabID l.leaseID browserInstanceID =
      { manager := m, result := .error rpcErr } := by
  unfold Manager.bindLeaseBrowser
  rw [if_neg h_instance]
  simp only [h.validLeaseLocked, heldLease_of_live h.toKept h_live]
  rw [if_pos h_other]
  exact ⟨_, rfl⟩

/-- A lease of no other browser is. -/
theorem bindLeaseBrowser_of_fits (h_live : now < l.expiresAt)
    (h_fits : ¬ (l.browserInstanceID ≠ "" ∧ l.browserInstanceID ≠ browserInstanceID)) :
    m.bindLeaseBrowser now sessionID tabID l.leaseID browserInstanceID =
      { manager := m.setLease tabID { l with browserInstanceID }
        result := .ok { l with browserInstanceID } } := by
  unfold Manager.bindLeaseBrowser
  rw [if_neg h_instance]
  simp only [h.validLeaseLocked, heldLease_of_live h.toKept h_live]
  rw [if_neg h_fits]

end Bind

/-! ### The end of the request -/

namespace Request

variable (q : Request κ) (overflow : ℚ → ℤ)

/-- The lease belongs to another Chrome instance. -/
def Conflicts (l : Lease) : Prop :=
  l.browserInstanceID ≠ "" ∧ l.browserInstanceID ≠ q.browserInstanceID

omit [DecidableEq κ] in
/-- A section without the lease does not spare it. -/
theorem not_spared (s : Section κ) {rest : List (Section κ)} {leaseID : String} (h_s : s ∈ rest)
    (h : s.after.manager.leases q.tabID = none) :
    ¬ ∀ s ∈ rest, s.Spares q.sessionID q.tabID leaseID := by
  intro h_all
  obtain ⟨l, h_lease, -⟩ := (h_all s h_s).lease
  rw [h] at h_lease
  cases h_lease

/-- A lease of another browser is given up. -/
theorem bindAndCall_of_other {m : Manager κ} {l : Lease}
    (h : Found (q.beforeBind.run m) q.sessionID q.tabID l) (h_instance : q.browserInstanceID ≠ "")
    (h_live : q.bindAt < l.expiresAt) (h_other : q.Conflicts l) :
    ∀ s ∈ (q.bindAndCall m l).1, s.Spares q.sessionID q.tabID l.leaseID := by
  obtain ⟨rpcErr, h_bound⟩ := bindLeaseBrowser_of_other h h_instance h_live h_other
  unfold bindAndCall
  simp only [h_bound]
  rw [if_neg h_other.1]
  intro s h_s
  obtain rfl := List.mem_singleton.mp h_s
  exact ⟨⟨l, h.lease, rfl, h.session, h.notRevoked⟩, rfl, rfl⟩

/-- The lease ran out before it was bound, and is dropped. -/
theorem bindAndCall_of_expired {m : Manager κ} {l : Lease}
    (h : Found (q.beforeBind.run m) q.sessionID q.tabID l) (h_instance : q.browserInstanceID ≠ "")
    (h_expired : l.expiresAt ≤ q.bindAt) :
    ¬ ∀ s ∈ (q.bindAndCall m l).1, s.Spares q.sessionID q.tabID l.leaseID := by
  obtain ⟨⟨rpcErr, h_result⟩, h_leases⟩ := bindLeaseBrowser_of_expired h h_instance h_expired
  refine q.not_spared ⟨q.beforeBind.run m, ((q.beforeBind.run m).bindLeaseBrowser q.bindAt
    q.sessionID q.tabID l.leaseID q.browserInstanceID).effects⟩ ?_ h_leases
  unfold bindAndCall
  simp only [h_result]
  by_cases h_new : l.browserInstanceID = ""
  · rw [if_pos h_new]
    exact List.mem_cons_self ..
  · rw [if_neg h_new]
    exact List.mem_cons_self ..

/-- The lease is bound, so the request has failed at the extension, and the lease is released. -/
theorem bindAndCall_of_fits {m : Manager κ} {l : Lease}
    (h : Found (q.beforeBind.run m) q.sessionID q.tabID l) (h_instance : q.browserInstanceID ≠ "")
    (h_live : q.bindAt < l.expiresAt) (h_fits : ¬ q.Conflicts l) {rpcErr : RPCError}
    (h_error : (q.bindAndCall m l).2 = .error rpcErr) :
    ¬ ∀ s ∈ (q.bindAndCall m l).1, s.Spares q.sessionID q.tabID l.leaseID := by
  have h_bound := bindLeaseBrowser_of_fits h h_instance h_live h_fits
  have h_call : q.answer = .error rpcErr := by
    unfold bindAndCall at h_error
    simp only [h_bound] at h_error
    cases h_answer : q.answer with
    | error bridgeErr =>
      simp only [h_answer] at h_error
      injection h_error with h_same
      rw [h_same]
    | ok result =>
      simp only [h_answer] at h_error
      cases h_error
  -- the section of `ReleaseTab` finds the lease in the table, bound to the instance
  let bound : Lease := { l with browserInstanceID := q.browserInstanceID }
  let m' : Manager κ := (q.beforeBind.run m).setLease q.tabID bound
  have h_kept : Kept (q.beforeRelease.run m') q.sessionID q.tabID bound :=
    ⟨(q.beforeRelease.lease m').trans (Function.update_self ..), h.session, h.notRevoked⟩
  refine q.not_spared (q.release m' bound "claim rejected by extension") ?_
    (releaseTab_leases (.inr h_kept) q.releaseAt _)
  unfold bindAndCall
  simp only [h_bound, h_call]
  exact List.mem_cons_of_mem _ (List.mem_singleton_self _)

/-- When the failing call leaves the lease. -/
theorem bindAndCall_spares_iff {m : Manager κ} {l : Lease}
    (h : Found (q.beforeBind.run m) q.sessionID q.tabID l) (h_instance : q.browserInstanceID ≠ "")
    {rpcErr : RPCError} (h_error : (q.bindAndCall m l).2 = .error rpcErr) :
    (∀ s ∈ (q.bindAndCall m l).1, s.Spares q.sessionID q.tabID l.leaseID) ↔
      q.Conflicts l ∧ q.bindAt < l.expiresAt := by
  by_cases h_live : q.bindAt < l.expiresAt
  · by_cases h_other : q.Conflicts l
    · exact iff_of_true (q.bindAndCall_of_other h h_instance h_live h_other) ⟨h_other, h_live⟩
    · exact iff_of_false (q.bindAndCall_of_fits h h_instance h_live h_other h_error)
        fun h_refused => h_other h_refused.1
  · exact iff_of_false (q.bindAndCall_of_expired h h_instance (not_lt.mp h_live))
      fun h_refused => h_live h_refused.2

end Request

/-! ### A held lease -/

namespace Request

variable (q : Request κ) (overflow : ℚ → ℤ)

/-- The lease that the request has renewed. -/
def renewal (m : Manager κ) (l : Lease) : Lease :=
  renewed l q.claimAt (m.effectiveTTL (q.ttl overflow))

/-- The section of the claim, when it renews the lease. -/
def renewing (m : Manager κ) (l : Lease) : Section κ :=
  ⟨m, { manager := m.setLease q.tabID (q.renewal overflow m l), result := () }⟩

variable {q overflow} {m : Manager κ} {l : Lease}

/-- A claim of a session that is not open changes nothing. -/
theorem tabClaim_of_not_open (h_named : ¬ (q.sessionID = "" ∨ q.tabID = ""))
    (h_instance : q.browserInstanceID ≠ "") {rpcErr : RPCError}
    (h_session : m.openSessionLocked q.sessionID = .error rpcErr) :
    q.tabClaim overflow m = ([⟨m, { manager := m, result := () }⟩], .error rpcErr) := by
  have h_claim : q.claim overflow m = { manager := m, result := .error rpcErr } :=
    claimTabForce_of_not_open (not_or.mp h_named).2 h_session ..
  unfold tabClaim
  rw [if_neg h_named, if_neg h_instance]
  simp only [h_claim]
  rfl

/-- A claim of a session that holds the tab renews its lease first. -/
theorem tabClaim_of_held (h_named : ¬ (q.sessionID = "" ∨ q.tabID = ""))
    (h_instance : q.browserInstanceID ≠ "") {session : Session}
    (h_session : m.openSessionLocked q.sessionID = .ok session)
    (h_held : Held m q.claimAt q.sessionID q.tabID l) :
    q.tabClaim overflow m =
      (q.renewing overflow m l ::
          (q.bindAndCall (m.setLease q.tabID (q.renewal overflow m l))
            (q.renewal overflow m l)).1,
        (q.bindAndCall (m.setLease q.tabID (q.renewal overflow m l))
          (q.renewal overflow m l)).2) := by
  have h_claim : q.claim overflow m =
      { manager := m.setLease q.tabID (q.renewal overflow m l)
        result := .ok (q.renewal overflow m l) } :=
    claimTabForce_of_held h_held (not_or.mp h_named).2 h_session ..
  unfold tabClaim
  rw [if_neg h_named, if_neg h_instance]
  simp only [h_claim]
  rfl

omit [DecidableEq κ] in
/-- The renewal leaves the lease. -/
theorem renewing_spares (h_held : Held m q.claimAt q.sessionID q.tabID l) :
    (q.renewing overflow m l).Spares q.sessionID q.tabID l.leaseID where
  lease := ⟨q.renewal overflow m l, Function.update_self .., rfl, h_held.session,
    h_held.notRevoked⟩
  operations := rfl
  queue := rfl

omit [DecidableEq κ] in
/-- Nobody takes the renewed lease away before it is bound. -/
theorem found_of_held {session : Session}
    (h_session : m.openSessionLocked q.sessionID = .ok session)
    (h_held : Held m q.claimAt q.sessionID q.tabID l) :
    Found (q.beforeBind.run (m.setLease q.tabID (q.renewal overflow m l))) q.sessionID q.tabID
      (q.renewal overflow m l) where
  lease := (q.beforeBind.lease _).trans (Function.update_self ..)
  session := h_held.session
  notRevoked := h_held.notRevoked
  isOpen := ⟨session, (openSessionLocked_congr (q.beforeBind.session _)).trans h_session⟩

end Request

/-- **What a failed claim costs**: every section of a request that fails spares a lease that the
session held already if and only if the request fails before the extension is asked. -/
theorem spared_iff (q : Request κ) (overflow : ℚ → ℤ) (m : Manager κ) {l : Lease}
    (h_held : Held m q.claimAt q.sessionID q.tabID l) {rpcErr : RPCError}
    (h_error : (q.tabClaim overflow m).2 = .error rpcErr) :
    (∀ s ∈ (q.tabClaim overflow m).1, s.Spares q.sessionID q.tabID l.leaseID) ↔
      q.Refused overflow m l := by
  -- what is refused before the lease is touched spares it
  by_cases h_named : q.sessionID = "" ∨ q.tabID = ""
  · have h_none : q.tabClaim overflow m = ([], .error _) := if_pos h_named
    rw [h_none]
    exact iff_of_true (fun s h_s => absurd h_s List.not_mem_nil)
      (h_named.elim .inl fun h_tab => .inr (.inl h_tab))
  by_cases h_instance : q.browserInstanceID = ""
  · have h_none : q.tabClaim overflow m = ([], .error _) :=
      (if_neg h_named).trans (if_pos h_instance)
    rw [h_none]
    exact iff_of_true (fun s h_s => absurd h_s List.not_mem_nil) (.inr (.inr (.inl h_instance)))
  -- a session that is not open: the claim ends after one critical section
  by_cases h_open : ∀ session ∈ m.sessions q.sessionID, session.status ≠ .open
  · obtain ⟨openErr, h_session⟩ := openSessionLocked_of_not_open h_open
    rw [Request.tabClaim_of_not_open h_named h_instance h_session]
    refine iff_of_true (fun s h_s => ?_) (.inr (.inr (.inr (.inl h_open))))
    obtain rfl := List.mem_singleton.mp h_s
    exact ⟨⟨l, h_held.lease, rfl, h_held.session, h_held.notRevoked⟩, rfl, rfl⟩
  -- the lease is renewed, and what follows decides
  obtain ⟨session, h_session, h_status⟩ : ∃ session ∈ m.sessions q.sessionID,
      session.status = .open := by
    by_contra h_none
    exact h_open fun session h_session h_status => h_none ⟨session, h_session, h_status⟩
  have h_session := openSessionLocked_of_open h_session h_status
  rw [Request.tabClaim_of_held h_named h_instance h_session h_held] at h_error ⊢
  rw [List.forall_mem_cons, and_iff_right (Request.renewing_spares h_held)]
  refine (q.bindAndCall_spares_iff (Request.found_of_held h_session h_held) h_instance
    h_error).trans ?_
  obtain ⟨h_sessionID, h_tabID⟩ := not_or.mp h_named
  unfold Request.Refused
  rw [or_iff_right h_sessionID, or_iff_right h_tabID, or_iff_right h_instance, or_iff_right h_open]
  exact and_assoc

/-- Nothing happens between two sections. -/
def undisturbed (sessionID tabID : String) : Others ℕ sessionID tabID where
  run m := m
  session _ := rfl
  lease _ := rfl

/-- The session claims its tab once more, and the extension disconnects before it answers. -/
def claimedAgain : Request ℕ where
  params := .ofFields [("sessionId", .str "ses_1"), ("tabId", .str "7")]
  defaultID := "chrome_1"
  leaseID := "lease_2"
  claimAt := 1
  bindAt := 2
  releaseAt := 3
  beforeBind := undisturbed _ _
  beforeRelease := undisturbed _ _
  answer := .error ((BridgeFailure.unavailable (some "chrome_1")).toError "tab.claim")

/-- The lease of `Deadlines.claimed`. -/
def lease : Lease where
  leaseID := "lease_1"
  sessionID := "ses_1"
  tabID := "7"
  browserInstanceID := "chrome_1"
  createdAt := 0
  lastRenewed := 0
  expiresAt := (Manager.new 0 : Manager ℕ).effectiveTTL 0
  revoked := false
  revokeReason := ""

/-- The lease of the sample is held. -/
theorem held : Held Deadlines.claimed claimedAgain.claimAt claimedAgain.sessionID
    claimedAgain.tabID lease where
  lease := by decide +kernel
  session := by decide +kernel
  live := by decide +kernel
  notRevoked := rfl

/-- The equivalence, for a second claim. -/
theorem spared_iff_claimed :
    (∀ s ∈ (claimedAgain.tabClaim (fun _ => 0) Deadlines.claimed).1,
        s.Spares claimedAgain.sessionID claimedAgain.tabID lease.leaseID) ↔
      claimedAgain.Refused (fun _ => 0) Deadlines.claimed lease :=
  spared_iff claimedAgain (fun _ => 0) Deadlines.claimed held (by rfl)

/-- The lease was held before the request, and is released because the extension did not answer. -/
theorem not_spared_heldLease :
    ¬ ∀ (q : Request ℕ) (overflow : ℚ → ℤ) (m : Manager ℕ) (l : Lease) (rpcErr : RPCError),
      Held m q.claimAt q.sessionID q.tabID l → (q.tabClaim overflow m).2 = .error rpcErr →
        ∀ s ∈ (q.tabClaim overflow m).1, s.Spares q.sessionID q.tabID l.leaseID := by
  intro h
  have h_spared := h claimedAgain (fun _ => 0) Deadlines.claimed lease _ held (by rfl)
  obtain ⟨s, h_s, h_gone⟩ : ∃ s ∈ (claimedAgain.tabClaim (fun _ => 0) Deadlines.claimed).1,
      s.after.manager.leases claimedAgain.tabID = none := by
    decide +kernel
  exact claimedAgain.not_spared s h_s h_gone h_spared

end BrowserControl.Server.FailedClaim
