import BrowserControl.Extension.SecureInput

/-!
# The life of a secure-input request

Every request leads to at most one `submit` that gets to the page, and to none once it was
cancelled (`filled_once`): the request is removed when the first message for it is handled.

Whether this `submit` is in time and under the lease of the request is looked at before it waits
for the tab, the search and the frame, and its time is not looked at: the five minutes count for
the window that opens, not for the one that is open. So a value can get into the page later, or
when the tab is under control of somebody else (`not_fillsProper_late`). It does not in a run
whose submissions are handled in time and are not overtaken by the clock, the claims and the
navigation of their tab (`fillsProper_of_undisturbed`).
-/

namespace BrowserControl.Extension

namespace SecureInput

open Encoding Transition

variable {ρ : Type*}

/-! ### Claims have a session and a lease -/

/-- The claims on tabs name their session and lease. -/
def Signed (R : TabRegistry) : Prop :=
  ∀ tabID state, R.objects tabID = some state → ∀ c ∈ state.claim,
    c.sessionID ≠ "" ∧ c.leaseID ≠ ""

/-- The claims stay as they are. -/
theorem Signed.modify {R : TabRegistry} (h : Signed R) {p : String → Bool}
    {f : TabState → TabState} {h_id : ∀ state, (f state).tabID = state.tabID}
    {h_chrome : ∀ state, (f state).chromeTabID = state.chromeTabID}
    (h_f : ∀ state : TabState, (∀ c ∈ state.claim, c.sessionID ≠ "" ∧ c.leaseID ≠ "") →
      ∀ c ∈ (f state).claim, c.sessionID ≠ "" ∧ c.leaseID ≠ "") :
    Signed (R.modify p f h_id h_chrome) := by
  intro tabID state h_object
  have h_object : (if p tabID then (R.objects tabID).map f else R.objects tabID) = some state :=
    h_object
  split at h_object
  · obtain ⟨old, h_old, rfl⟩ := Option.map_eq_some_iff.mp h_object
    exact h_f old (h tabID old h_old)
  · exact h tabID state h_object

/-- A claim names its session and its lease. -/
theorem Signed.setClaim {R : TabRegistry} (h : Signed R) (p : String → Bool)
    {claim : Option Claim} (h_claim : ∀ c ∈ claim, c.sessionID ≠ "" ∧ c.leaseID ≠ "") :
    Signed (R.setClaim p claim) := h.modify fun _ _ => h_claim

/-- No claim needs no name. -/
theorem Signed.setClaim_none {R : TabRegistry} (h : Signed R) (p : String → Bool) :
    Signed (R.setClaim p none) := by
  refine h.setClaim p ?_
  intro c h_c
  cases h_c

/-- A new tab has no claim. -/
theorem Signed.ensure {R : TabRegistry} (h : Signed R) (n : ℕ) (handle : String) (owned : Bool) :
    Signed (R.ensure n handle owned) := by
  unfold TabRegistry.ensure
  split
  case h_1 =>
    split
    · exact h.modify fun state h_state => h_state
    · exact h
  -- a new object has no claim to sign
  case h_2 =>
    split
    case isFalse => exact h
    case isTrue =>
      intro tabID state h_object
      have h_object : Function.update R.objects handle
          (some { tabID := handle, chromeTabID := n, documentEpoch := 1, owned }) tabID =
            some state := h_object
      by_cases h_eq : tabID = handle
      · rw [h_eq, Function.update_self] at h_object
        rw [← Option.some_inj.mp h_object]
        intro c h_c
        cases h_c
      · rw [Function.update_of_ne h_eq] at h_object
        exact h tabID state h_object

/-- Every operation on the control. -/
theorem Signed.apply {c : Control} (h : Signed c.registry) {op : Op}
    (h_op : ∀ tabID sessionID leaseID force, op = .claim tabID sessionID leaseID force →
      sessionID ≠ "" ∧ leaseID ≠ "") : Signed (c.apply op).registry := by
  cases op with
  -- a claim is signed by the session that asks for it
  | claim tabID sessionID leaseID force =>
    simp only [Control.apply]
    split
    case h_1 h_claim =>
      rw [(TabRegistry.claim_ok h_claim).2]
      refine h.setClaim _ ?_
      intro c h_c
      rw [← Option.some_inj.mp h_c]
      exact h_op tabID sessionID leaseID force rfl
    case h_2 => exact h
  | release tabID leaseID =>
    simp only [Control.apply]
    split
    case h_1 h_release =>
      obtain ⟨-, -, rfl⟩ := TabRegistry.release_ok h_release
      exact h.setClaim_none _
    case h_2 => exact h
  | releaseAll => exact h.setClaim_none _
  | attach | detach | detachAll | onDetach => exact h
  | ensure n handle owned => exact h.ensure n handle owned
  | noteNavigation n =>
    simp only [Control.apply, TabRegistry.noteNavigation]
    split
    · exact h.modify fun state h_state => h_state
    · exact h
  | remove n =>
    simp only [Control.apply, TabRegistry.remove]
    split <;> exact h

/-! ### Undisturbed submissions -/

/-- The tab is under the lease of the request and shows its document. -/
def Current (tab : Option TabState) (r : SecureInputRequest) : Prop :=
  ∃ state ∈ tab, state.claim = some ⟨r.sessionID, r.leaseID⟩ ∧
    state.documentEpoch = r.documentEpoch

/-- The value got to the page in time, and under the lease of the request. -/
def Proper (fill : Fill) : Prop :=
  fill.time - fill.request.createdAt ≤ lifetime ∧ Current fill.tab fill.request

/-- The tab that is registered under a handle. -/
def tabOf (c : Control) (tabID : String) : Option TabState :=
  (c.registry.fromHandle tabID).toOption

/-- The claim on a tab and its document epoch. -/
def standing (tab : Option TabState) : Option (Option Claim × ℕ) :=
  tab.map fun state => (state.claim, state.documentEpoch)

/-- Nothing else of a tab counts. -/
theorem current_iff {tab : Option TabState} {r : SecureInputRequest} :
    Current tab r ↔ standing tab = some (some ⟨r.sessionID, r.leaseID⟩, r.documentEpoch) := by
  cases tab with
  | none => simp [Current, standing]
  | some state => simp [Current, standing]

instance (tab : Option TabState) (r : SecureInputRequest) : Decidable (Current tab r) :=
  inferInstanceAs (Decidable (∃ state ∈ tab, _ ∧ _))

instance (fill : Fill) : Decidable (Proper fill) := inferInstanceAs (Decidable (_ ∧ _))

/-- A submission is handled while `get` still tells of its request, and while it is under way the
clock does not pass the five minutes and nothing happens to the claim and the document of its tab.
-/
def Undisturbed (s : State ρ) : Event ρ → Prop
  | .submit _ requestID _ => ∀ r ∈ s.secureInputs, r.requestID = requestID →
    s.now - r.createdAt ≤ lifetime
  | .clock now => ∀ h, ∀ r ∈ (s.handlers h).submission, now - r.createdAt ≤ lifetime
  | .registry op => ∀ h, ∀ r ∈ (s.handlers h).submission,
    standing (tabOf (s.control.apply op) r.tabID) = standing (tabOf s.control r.tabID)
  | _ => True

instance decidableUndisturbed [Fintype ρ] (s : State ρ) : ∀ e, Decidable (Undisturbed s e)
  | .submit _ requestID _ => inferInstanceAs (Decidable
    (∀ r ∈ s.secureInputs, r.requestID = requestID → s.now - r.createdAt ≤ lifetime))
  | .clock now => inferInstanceAs (Decidable
    (∀ h, ∀ r ∈ (s.handlers h).submission, now - r.createdAt ≤ lifetime))
  | .registry op => inferInstanceAs (Decidable
    (∀ h, ∀ r ∈ (s.handlers h).submission,
      standing (tabOf (s.control.apply op) r.tabID) = standing (tabOf s.control r.tabID)))
  | .secureInputRequest .. | .gotTab _ | .found .. | .finish _ | .inFrame ..
  | .cancel _ | .navigate .. | .store _ | .clear => inferInstanceAs (Decidable True)

/-- What holds while submissions are not disturbed. -/
structure Calm (s : State ρ) : Prop where
  signed : Signed s.control.registry
  named : ∀ r, s.Known r → r.sessionID ≠ "" ∧ r.leaseID ≠ ""
  /-- What is under way is in time and under its lease. -/
  proper : ∀ h, ∀ r ∈ (s.handlers h).submission,
    s.now - r.createdAt ≤ lifetime ∧ Current (tabOf s.control r.tabID) r
  fills : ∀ fill ∈ s.fills, Proper fill

/-- There is no request at first. -/
theorem Calm.new (now : ℕ) : Calm (State.new now : State ρ) := by
  refine ⟨?_, ?_, ?_, ?_⟩
  · intro tabID state h_object
    cases h_object
  · rintro r (h_mem | ⟨h, h_r⟩)
    · cases h_mem
    · cases h_r
  · intro h r h_r
    cases h_r
  · intro fill h_mem
    cases h_mem

/-- A quiet step keeps what is calm. -/
theorem Calm.quiet {s s' : State ρ} (h : Calm s) (h_quiet : Quiet s s') : Calm s' := by
  refine ⟨?_, fun r h_r => h.named r (h_quiet.known h_r), ?_, ?_⟩
  · rw [h_quiet.control]
    exact h.signed
  · intro handler r h_r
    rw [h_quiet.control, h_quiet.now]
    exact h.proper handler r (h_quiet.submission handler r h_r)
  · rw [h_quiet.fills]
    exact h.fills

/-- The claim that `assertClaimed` finds is that of the request. -/
theorem current_of_assertClaimed {R : TabRegistry} {r : SecureInputRequest} {state : TabState}
    (h_named : r.sessionID ≠ "" ∧ r.leaseID ≠ "")
    (h : R.assertClaimed r.tabID (some r.sessionID) (some r.leaseID) = .ok state)
    (h_epoch : state.documentEpoch = r.documentEpoch) :
    Current (R.fromHandle r.tabID).toOption r := by
  obtain ⟨found, h_get, h⟩ := of_bind_ok h
  split at h
  case h_1 => cases h
  -- The tab is claimed, and the claim passes both comparisons.
  case h_2 c h_claim =>
    split_ifs at h with h_session h_lease
    obtain rfl := Except.ok.inj h
    have h_session : c.sessionID = r.sessionID := by simpa [h_named.1] using h_session
    have h_lease : c.leaseID = r.leaseID := by simpa [h_named.2] using h_lease
    refine ⟨found, ?_, ?_, h_epoch⟩
    · rw [h_get]
      rfl
    · rw [h_claim, ← h_session, ← h_lease]

/-! ### Every step keeps it -/

variable [DecidableEq ρ]

/-- A submission that nothing disturbs. -/
theorem Calm.submit {s : State ρ} (h : Calm s) {handler : ρ} {requestID : ℕ} {value : String}
    (h_undisturbed : Undisturbed s (.submit handler requestID value)) :
    Calm (s.submit handler requestID value) := by
  rcases submit_cases s handler requestID value with h_quiet | ⟨r, h_mem, state, h_id, h_claimed,
      h_epoch, h_eq⟩
  · exact h.quiet h_quiet
  rw [h_eq]
  have h_named := h.named r (.inl h_mem)
  -- what is submitted now is the request, or was submitted before
  have h_submission : ∀ h', ∀ r' ∈ ((Function.update s.handlers handler
      (.submit r state.chromeTabID .checking)) h').submission,
      r' = r ∨ r' ∈ (s.handlers h').submission := by
    intro h' r' h_r
    by_cases h_h : h' = handler
    · subst h_h
      rw [Function.update_self] at h_r
      exact .inl (Option.some_inj.mp h_r).symm
    · rw [Function.update_of_ne h_h] at h_r
      exact .inr h_r
  refine ⟨h.signed, ?_, ?_, h.fills⟩
  · rintro r' (h_stored | ⟨h', h_r⟩)
    · exact h.named r' (.inl (List.mem_of_mem_filter h_stored))
    · rcases h_submission h' r' h_r with rfl | h_old
      · exact h_named
      · exact h.named r' (.inr ⟨h', h_old⟩)
  -- the request is submitted in time and under the current claim
  · intro h' r' h_r
    rcases h_submission h' r' h_r with rfl | h_old
    · exact ⟨h_undisturbed r' h_mem h_id, current_of_assertClaimed h_named h_claimed h_epoch⟩
    · exact h.proper h' r' h_old

/-- The answer of a frame. -/
theorem Calm.inFrame {s : State ρ} (h : Calm s) (handler : ρ) (node identity : ℕ) :
    Calm (s.inFrame handler node identity) := by
  unfold State.inFrame
  split
  case h_1 => exact h
  case h_2 el h_el =>
    have h := h.quiet (quiet_identify s identity el)
    generalize s.identify identity el = s' at h ⊢
    rcases answered_cases s' handler el identity with h_quiet |
        ⟨params, tab, origin, target, frameID, state, claim, h_handler, h_object, h_claim, h_eq⟩ |
        ⟨r, n, h_handler, -, h_eq⟩
    · exact h.quiet h_quiet
    · -- The request is under the claim that the tab has.
      rw [h_eq]
      have h_new := h.signed tab.tabID state h_object claim h_claim
      have h_submission : ∀ h', ∀ r' ∈ ((Function.update s'.handlers handler .opening)
          h').submission, r' ∈ (s'.handlers h').submission := by
        intro h' r' h_r
        by_cases h_h : h' = handler
        · subst h_h
          rw [Function.update_self] at h_r
          cases h_r
        · rwa [Function.update_of_ne h_h] at h_r
      refine ⟨h.signed, ?_, fun h' r' h_r => h.proper h' r' (h_submission h' r' h_r), h.fills⟩
      rintro r' (h_stored | ⟨h', h_r⟩)
      · rcases List.mem_append.mp h_stored with h_stored | h_last
        · exact h.named r' (.inl h_stored)
        · rw [List.mem_singleton.mp h_last]
          exact h_new
      · exact h.named r' (.inr ⟨h', h_submission h' r' h_r⟩)
    · -- The value gets to the page now.
      rw [h_eq]
      have h_settled := h.quiet (quiet_settle s' handler)
      refine ⟨h.signed, h_settled.named, h_settled.proper, ?_⟩
      intro fill h_fill
      rcases List.mem_append.mp h_fill with h_fill | h_last
      · exact h.fills fill h_fill
      · rw [List.mem_singleton.mp h_last]
        exact h.proper handler r (by rw [h_handler]; rfl)

variable {P : Platform} {now : ℕ}

/-- Every step that nothing disturbs. -/
theorem Calm.next {s : State ρ} (h : Calm s) {e : Event ρ} (h_enabled : Enabled s e)
    (h_undisturbed : Undisturbed s e) : Calm ((machine P ρ now).next s e) := by
  cases e with
  | secureInputRequest handler params =>
    show Calm (s.secureInputRequest handler params)
    unfold State.secureInputRequest
    split
    · exact h.quiet (quiet_settle s handler)
    · exact h.quiet (quiet_setHandler s fun r h_r => by contradiction)
  -- the only event with a condition of its own
  | submit handler requestID value => exact h.submit h_undisturbed
  | cancel requestID =>
    show Calm (s.cancel requestID)
    unfold State.cancel
    split
    · exact h
    · refine ⟨h.signed, ?_, h.proper, h.fills⟩
      rintro r (h_mem | h_taken)
      · exact h.named r (.inl (List.mem_of_mem_filter h_mem))
      · exact h.named r (.inr h_taken)
  | gotTab handler => exact h.quiet (quiet_gotTab P s handler)
  | found handler frameID => exact h.quiet (quiet_found s handler frameID)
  | inFrame handler node identity => exact h.inFrame handler node identity
  | finish handler => exact h.quiet (quiet_settle s handler)
  | navigate | store => exact ⟨h.signed, h.named, h.proper, h.fills⟩
  | clock now =>
    exact ⟨h.signed, h.named,
      fun handler r h_r => ⟨h_undisturbed handler r h_r, (h.proper handler r h_r).2⟩, h.fills⟩
  -- the registry: no tab loses its claim while it has a request
  | registry op =>
    refine ⟨h.signed.apply ?_, h.named, ?_, h.fills⟩
    · rintro tabID sessionID leaseID force rfl
      exact h_enabled
    · intro handler r h_r
      obtain ⟨h_time, h_current⟩ := h.proper handler r h_r
      refine ⟨h_time, ?_⟩
      show Current (tabOf (s.control.apply op) r.tabID) r
      rw [current_iff, h_undisturbed handler r h_r, ← current_iff]
      exact h_current
  | clear =>
    refine ⟨h.signed, ?_, h.proper, h.fills⟩
    rintro r (h_mem | h_taken)
    · cases h_mem
    · exact h.named r (.inr h_taken)

/-! ### The life of a request -/

/-- **Once, and not after it was cancelled.** A request is filled in at most once, and not if it is
cancelled. -/
theorem filled_once {s : State ρ} (h : (machine P ρ now).Reachable s) :
    s.filled.Nodup ∧ ∀ id ∈ s.filled, id ∉ s.cancelled :=
  ⟨(inv_of_reachable h).filled_nodup, (inv_of_reachable h).kept⟩

/-- **In time and under its own lease.** If submissions are not disturbed, then every value gets to
the page once, without having been cancelled, in time and under the lease of its request. -/
theorem fillsProper_of_undisturbed {es : List (Event ρ)}
    (h_run : ((machine P ρ now).restrict Undisturbed).Runs
      ((machine P ρ now).restrict Undisturbed).init es) :
    ((machine P ρ now).exec (machine P ρ now).init es).filled.Nodup ∧
      (∀ id ∈ ((machine P ρ now).exec (machine P ρ now).init es).filled,
        id ∉ ((machine P ρ now).exec (machine P ρ now).init es).cancelled) ∧
      ∀ fill ∈ ((machine P ρ now).exec (machine P ρ now).init es).fills, Proper fill := by
  have h_calm : Calm ((machine P ρ now).exec (machine P ρ now).init es) := by
    refine h_run.reachable.induction (P := Calm) (Calm.new now) ?_
    intro s e _ h_calm h_enabled
    exact @Calm.next ρ _ P now s h_calm e h_enabled.1 h_enabled.2
  obtain ⟨h_nodup, h_kept⟩ := filled_once h_run.of_restrict.reachable
  exact ⟨h_nodup, h_kept, h_calm.fills⟩

/-- The user types the value within five minutes. -/
theorem fillsProper_of_undisturbed_page :
    ((machine shop Bool 0).exec (machine shop Bool 0).init
        (asking 0 ++ .clock 300000 :: typing 0)).filled = [0] ∧
      ∀ fill ∈ ((machine shop Bool 0).exec (machine shop Bool 0).init
        (asking 0 ++ .clock 300000 :: typing 0)).fills, Proper fill :=
  ⟨by decide +kernel, (fillsProper_of_undisturbed (by decide +kernel)).2.2⟩

/-- The window was opened in time, and the value is typed later. -/
theorem not_fillsProper_late :
    ¬ ∀ (P : Platform) (now : ℕ) (es : List (Event Bool)),
      (machine P Bool now).Runs (machine P Bool now).init es →
        ∀ fill ∈ ((machine P Bool now).exec (machine P Bool now).init es).fills, Proper fill := by
  intro h
  have h_run : (machine shop Bool 0).Runs (machine shop Bool 0).init
      (asking 0 ++ .clock 300001 :: typing 0) := by
    decide +kernel
  have h_fill : ¬ ∀ fill ∈ ((machine shop Bool 0).exec (machine shop Bool 0).init
      (asking 0 ++ .clock 300001 :: typing 0)).fills, Proper fill := by
    decide +kernel
  exact h_fill (h shop 0 _ h_run)

/-- The tab is released while the submission is under way. -/
example :
    ¬ ∀ fill ∈ ((machine shop Bool 0).exec (machine shop Bool 0).init
      (asking 0 ++ (typing 0).take 2 ++ .registry (.release "t" none) :: (typing 0).drop 2)).fills,
        Current fill.tab fill.request := by
  decide +kernel

end SecureInput

end BrowserControl.Extension
