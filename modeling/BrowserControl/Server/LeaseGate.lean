import BrowserControl.Server.Exposure
import Mathlib.Data.Fintype.Basic

/-!
# The lease gate

A lease leaves the table when it is released, expires, is revoked or taken over, or when its
session is closed. From then on no request with this lease gets past its checks, since the lease
does not come back: every new lease has a new id (`Known`), so `renewLease` fails. A request that
is past its checks when the lease goes is stopped by the same step, unless it is exposed to it
(`State.exposed`): it has not entered the queue of the tab yet, or its function is active already.

`leaseGate` says that this is all: in the runs where no request is exposed to the loss of its
lease (`LeaseGuarded`), no call of the bridge is started for a request whose lease is gone. The
invariant is `Barred`.
-/

namespace BrowserControl.Server

open Encoding Protocol BrowserControl.Core Transition

variable {κ : Type*} [DecidableEq κ] {lib : Library} {leaseTTL : Duration}

/-! ### Leases in the table -/

/-- The lease is in the table. -/
def holds (m : Manager κ) (tabID leaseID : String) : Bool :=
  match m.leases tabID with
  | some l => l.leaseID = leaseID
  | none => false

/-- The step takes the lease from the table. -/
def Removes (lib : Library) (s : State κ) (e : Event κ) (tabID leaseID : String) : Prop :=
  holds s.manager tabID leaseID = true ∧ holds (next lib s e).manager tabID leaseID = false

instance (s : State κ) (e : Event κ) (tabID leaseID : String) :
    Decidable (Removes lib s e tabID leaseID) := inferInstanceAs (Decidable (_ ∧ _))

/-- The request needs the lease. -/
structure NeedsLease (q : Request) (tabID leaseID : String) : Prop where
  method : requiresLease q.method = true
  tab : q.tabID = tabID
  lease : q.leaseID = leaseID

instance (q : Request) (tabID leaseID : String) : Decidable (NeedsLease q tabID leaseID) :=
  decidable_of_iff (requiresLease q.method = true ∧ q.tabID = tabID ∧ q.leaseID = leaseID)
    ⟨fun h => ⟨h.1, h.2.1, h.2.2⟩, fun h => ⟨h.method, h.tab, h.lease⟩⟩

/-- No request is exposed to the loss of its lease. -/
def LeaseGuarded (lib : Library) (s : State κ) (e : Event κ) : Prop :=
  ∀ r, requiresLease (s.requests r).method = true →
    Removes lib s e (s.requests r).tabID (s.requests r).leaseID → s.exposed lib e r = false

instance [Fintype κ] (s : State κ) (e : Event κ) : Decidable (LeaseGuarded lib s e) :=
  inferInstanceAs (Decidable (∀ _, _))

/-- The id of the lease that an event may make. -/
def Event.leaseID : Event κ → Option String
  | .command k _ => k.leaseID
  | _ => none

section Leases

variable {s : State κ} {e : Event κ} {r : κ} {tabID leaseID : String}

omit [DecidableEq κ] in
/-- The tab has this lease. -/
theorem holds_iff {m : Manager κ} :
    holds m tabID leaseID = true ↔ ∃ l, m.leases tabID = some l ∧ l.leaseID = leaseID := by
  unfold holds
  cases m.leases tabID <;> simp

omit [DecidableEq κ] in
/-- Of the commands an event runs, only those of other requests make leases. -/
theorem leaseID_of_operationEvent {k : Command} {now : Time}
    (h : operationEvent s e = some (.command k now)) : k.leaseID = e.leaseID := by
  cases e with
  | screen d now' | validateLease d now' =>
    simp only [operationEvent] at h
    split at h
    · cases h
      rfl
    · contradiction
  | finish d =>
    simp only [operationEvent] at h
    split at h <;> cases h
  | _ => cases h <;> rfl

variable (lib) in
/-- What an event may do to the lease of a tab. -/
theorem leaseStep_next (s : State κ) (e : Event κ) (tabID : String) : LeaseStep e.leaseID
    (s.manager.leases tabID) ((next lib s e).manager.leases tabID) (cancelledQueues s e tabID) := by
  show LeaseStep _ _ ((next lib s e).operations.manager.leases tabID) _
  unfold cancelledQueues
  cases h_event : operationEvent s e with
  | none =>
    rw [operations_next_none h_event]
    exact .kept _ _
  | some e' =>
    rw [operations_next_some h_event]
    -- Only a command touches a lease.
    cases e' with
    | command k now =>
      rw [← leaseID_of_operationEvent h_event]
      exact k.leaseStep s.manager now tabID
    | _ =>
      rw [Operations.leases_next lib.hash s.operations (by intro _ _ h; cases h)]
      exact .kept _ _

/-- The ids of the leases in the table have been handed out. -/
def Known (s : State κ) : Prop :=
  ∀ tabID l, s.manager.leases tabID = some l → l.leaseID ∈ s.leaseIDs

/-- An event that makes a lease adds its id. -/
theorem leaseIDs_next (s : State κ) (e : Event κ) :
    (next lib s e).leaseIDs = e.leaseID.toList ++ s.leaseIDs := by
  cases e <;> rfl

/-- What is known stays so. -/
theorem Known.step (hK : Known s) : Known (next lib s e) := by
  intro tabID l h_lease
  have h_step := leaseStep_next lib s e tabID
  rw [h_lease] at h_step
  rw [leaseIDs_next, List.mem_append]
  rcases h_step.added with ⟨l', h_old, h_id, -⟩ | h_fresh
  · rw [h_id]
    exact .inr (hK tabID l' h_old)
  · rw [h_fresh]
    exact .inl List.mem_cons_self

/-- So it is in every state. -/
theorem Known.reachable (hs : (machine lib leaseTTL).Reachable s) : Known s := by
  refine hs.induction (P := Known) ?_ fun _ _ _ hK _ => hK.step
  intro tabID l h
  cases (show (none : Option Lease) = some l from h)

/-- A lease that is gone does not come back. -/
theorem gone_next (he : enabled s e) (h_known : leaseID ∈ s.leaseIDs)
    (h_gone : holds s.manager tabID leaseID = false) :
    holds (next lib s e).manager tabID leaseID = false := by
  rw [← Bool.not_eq_true, holds_iff]
  rintro ⟨l, h_lease, rfl⟩
  have h_step := leaseStep_next lib s e tabID
  rw [h_lease] at h_step
  rcases h_step.added with ⟨l', h_old, h_id, -⟩ | h_fresh
  · rw [← Bool.not_eq_true, holds_iff] at h_gone
    exact h_gone ⟨l', h_old, h_id.symm⟩
  · cases e with
    | command k now => exact he.1 _ h_fresh h_known
    | _ => contradiction

/-- A request whose lease is gone afterwards is not renewed. -/
theorem not_renewed (h : holds (next lib s e).manager (s.requests r).tabID
      (s.requests r).leaseID = false) (now : Time) (l : Lease) (h_event : e = .renewLease r now) :
    (s.manager.renewLease now (s.requests r).sessionID (s.requests r).tabID
      (s.requests r).leaseID 0).result ≠ .ok l := by
  subst h_event
  intro h_ok
  have h_valid := s.manager.validLease now (s.requests r).sessionID (s.requests r).tabID
    (s.requests r).leaseID true
  have h_manager : (next lib s (.renewLease r now)).manager =
      (s.manager.renewLease now (s.requests r).sessionID (s.requests r).tabID
        (s.requests r).leaseID 0).manager := rfl
  rw [h_manager] at h
  unfold Manager.renewLease at h h_ok
  dsimp only at h h_ok
  split at h
  case h_1 rpcErr h_error =>
    rw [h_error] at h_ok
    cases h_error.symm.trans h_ok
  -- a renewal would leave the lease in the table
  case h_2 l' h_found =>
    rw [← Bool.not_eq_true, holds_iff] at h
    refine h ⟨_, Function.update_self .., ?_⟩
    exact (h_valid.of_ok h_found).2.2.1

end Leases

/-! ### After the loss of a lease -/

/-- The lease is gone for good, and every request with it is stopped. -/
structure Barred (lib : Library) (s : State κ) (tabID leaseID : String) : Prop where
  known : leaseID ∈ s.leaseIDs
  gone : holds s.manager tabID leaseID = false
  stopped : ∀ r, NeedsLease (s.requests r) tabID leaseID → s.free lib r = false

section Barred

variable {s : State κ} {e : Event κ} {r : κ} {tabID leaseID : String}

/-- A request that needs the lease after a step is stopped by the step if it needs the lease
before the step and is not exposed to it then. -/
theorem stopped_next (hs : (machine lib leaseTTL).Reachable s) (he : enabled s e)
    (h_gone : holds (next lib s e).manager tabID leaseID = false)
    (h_exposed : NeedsLease (s.requests r) tabID leaseID → s.exposed lib e r = false)
    (h : NeedsLease ((next lib s e).requests r) tabID leaseID) :
    (next lib s e).free lib r = false := by
  by_cases h_outside : (s.requests r).phase = .outside
  case pos =>
    -- The request arrives at most.
    have h_free : s.free lib r = false := free_of_phase (by rw [h_outside]; rfl)
    refine free_next hs he ?_ ?_ h_free
    · rw [h_outside]
      rintro ⟨⟩
    · rintro now l rfl
      have h_validated := takes_renewLease.mp he.1
      rw [h_outside] at h_validated
      contradiction
  have hC := coherent hs r
  have h_before : NeedsLease (s.requests r) tabID leaseID := by
    obtain ⟨h_method, h_tab, h_lease⟩ := h
    rw [(kept_next he h_outside).method] at h_method
    rw [Request.tabID, stringField_next hC he h_outside (by decide)] at h_tab
    rw [Request.leaseID, stringField_next hC he h_outside (by decide)] at h_lease
    exact ⟨h_method, h_tab, h_lease⟩
  have h_lost : holds (next lib s e).manager (s.requests r).tabID (s.requests r).leaseID =
      false := by
    rw [h_before.tab, h_before.lease]
    exact h_gone
  exact exposed_next hs he (fun _ => h_before.method) (not_renewed h_lost) (h_exposed h_before)

/-- A lease that is removed is barred. -/
theorem Barred.of_removes (hs : (machine lib leaseTTL).Reachable s) (he : enabled s e)
    (h_guard : LeaseGuarded lib s e) (h : Removes lib s e tabID leaseID) :
    Barred lib (next lib s e) tabID leaseID := by
  obtain ⟨l, h_lease, h_id⟩ := holds_iff.mp h.1
  refine ⟨?_, h.2, fun r => stopped_next hs he h.2 fun h_needs => h_guard r h_needs.method ?_⟩
  · rw [leaseIDs_next, List.mem_append, ← h_id]
    exact .inr (Known.reachable hs tabID l h_lease)
  · rw [h_needs.tab, h_needs.lease]
    exact h

/-- It stays so. -/
theorem Barred.step (hB : Barred lib s tabID leaseID) (hs : (machine lib leaseTTL).Reachable s)
    (he : enabled s e) : Barred lib (next lib s e) tabID leaseID := by
  have h_gone : holds (next lib s e).manager tabID leaseID = false :=
    gone_next he hB.known hB.gone
  refine ⟨?_, h_gone, fun r => stopped_next hs he h_gone fun h_needs => ?_⟩
  · rw [leaseIDs_next, List.mem_append]
    exact .inr hB.known
  · exact exposed_of_free he (hB.stopped r h_needs)

end Barred

/-- **The lease gate.** In every run in which no request is exposed to the loss of its lease, no
call of the bridge is started for a request after its lease has left the table. -/
theorem leaseGate {es fs : List (Event κ)} {e : Event κ} {r : κ} {tabID leaseID : String}
    (h : ((machine lib leaseTTL).restrict (LeaseGuarded lib)).Runs (machine lib leaseTTL).init
      (es ++ e :: fs))
    (h_removes : Removes lib ((machine lib leaseTTL).exec (machine lib leaseTTL).init es) e tabID
      leaseID)
    (h_needs : NeedsLease
      (((machine lib leaseTTL).exec (machine lib leaseTTL).init (es ++ e :: fs)).requests r)
      tabID leaseID) :
    ¬ ∃ e', enabled ((machine lib leaseTTL).exec (machine lib leaseTTL).init (es ++ e :: fs)) e' ∧
      e'.starts r = true := by
  rintro ⟨e', he', h_starts⟩
  rw [Machine.runs_append, Machine.runs_cons] at h
  obtain ⟨h_before, ⟨he, h_guard⟩, h_after⟩ := h
  have hs := h_before.of_restrict.reachable
  -- from the removal on the request is barred
  have hB := Barred.of_removes hs he h_guard h_removes
  rw [Machine.exec_append, Machine.exec_cons] at h_needs he'
  have hB' : Barred lib ((machine lib leaseTTL).exec ((machine lib leaseTTL).next
      ((machine lib leaseTTL).exec (machine lib leaseTTL).init es) e) fs) tabID leaseID :=
    Machine.Runs.stable (P := fun s => Barred lib s tabID leaseID) (Q := fun _ => True)
      (fun s e hs _ hB he => hB.step hs he) (hs.next he) hB (fun _ _ => trivial)
      h_after.of_restrict
  rw [not_starts (hB'.stopped r h_needs) he'] at h_starts
  exact Bool.false_ne_true h_starts

/-! ### A takeover -/

/-- Another session takes the tab over. -/
def takeover : Event κ := .command (.claimTab "lease_2" "ses_2" "7" 0 true) 1

/-- The request that waits is not sent after the takeover. -/
theorem leaseGate_queued : ¬ ∃ e', enabled ((machine sampleLibrary 0).exec
    (machine sampleLibrary 0).init (queued ++ takeover :: resumed)) e' ∧ e'.starts 1 = true := by
  have h : ((machine sampleLibrary 0).restrict (LeaseGuarded sampleLibrary)).Runs
      (machine sampleLibrary 0).init (queued ++ takeover :: resumed) ∧
      Removes sampleLibrary ((machine sampleLibrary 0).exec (machine sampleLibrary 0).init queued)
        takeover "7" "lease_1" ∧
      NeedsLease (((machine sampleLibrary 0).exec (machine sampleLibrary 0).init
        (queued ++ takeover :: resumed)).requests 1) "7" "lease_1" := by
    decide +kernel
  exact leaseGate h.1 h.2.1 h.2.2

/-- A request is past its checks. -/
def renewed : List (Event ℕ) :=
  opening ++ .command (.openSession "ses_2" "" "") 0 :: checks 0 "tab.reload" "op_1"

/-- It goes on to the bridge. -/
def dispatched : List (Event ℕ) := .execute 0 1 :: entry 0

/-- A request is sent on a lease that was taken over before the request was accepted. -/
theorem not_leaseGate_takenOver :
    (machine sampleLibrary 0).Runs (machine sampleLibrary 0).init
        (renewed ++ takeover :: dispatched ++ [.send 0 "chrome_1"]) ∧
      Removes sampleLibrary
        ((machine sampleLibrary 0).exec (machine sampleLibrary 0).init renewed) takeover "7"
        "lease_1" ∧
      NeedsLease (((machine sampleLibrary 0).exec (machine sampleLibrary 0).init
        (renewed ++ takeover :: dispatched)).requests 0) "7" "lease_1" ∧
      holds ((machine sampleLibrary 0).exec (machine sampleLibrary 0).init
        (renewed ++ takeover :: dispatched)).manager "7" "lease_2" = true := by
  decide +kernel

end BrowserControl.Server
