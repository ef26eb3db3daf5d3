import BrowserControl.Server.Exposure
import Mathlib.Data.Fintype.Basic

/-!
# The emergency stop

`StopAll` closes every session, takes every lease from the table, cancels the queues of the
leased tabs and the contexts of the operations; `CloseSession` does the same to one session. An
operation that was accepted before, that is whose record was registered, is past every check that
the stop closes. It is stopped if it waits in a queue that the stop cancels. If its callback is
still to enter the queue, or if the queue has made it active, only its context is cancelled, and
the message is written before anybody looks at the context.

`emergencyStop` says that this is all: in the runs where no accepted operation is exposed to a
stop (`StopGuarded`), none is sent after the stop.
-/

namespace BrowserControl.Server

open Encoding Protocol BrowserControl.Core Transition

variable {κ : Type*} [DecidableEq κ] {lib : Library} {leaseTTL : Duration}

/-- The event stops the operations of the session. -/
def Event.stops (sessionID : String) : Event κ → Bool
  | .command (.stopAll _) _ => true
  | .command (.closeSession id _) _ => id = sessionID
  | _ => false

/-- The request is a mutating operation whose record is registered. -/
structure Accepted (s : State κ) (r : κ) : Prop where
  mutating : mutatingMethod (s.requests r).method = true
  registered : (s.operations.phase r).hasRecord = true

instance (s : State κ) (r : κ) : Decidable (Accepted s r) :=
  decidable_of_iff
    (mutatingMethod (s.requests r).method = true ∧ (s.operations.phase r).hasRecord = true)
    ⟨fun h => ⟨h.1, h.2⟩, fun h => ⟨h.mutating, h.registered⟩⟩

/-- No accepted operation is exposed to the stop. -/
def StopGuarded (lib : Library) (s : State κ) (e : Event κ) : Prop :=
  ∀ r, Accepted s r → e.stops (s.requests r).sessionID = true → s.exposed lib e r = false

instance [Fintype κ] (s : State κ) (e : Event κ) : Decidable (StopGuarded lib s e) :=
  inferInstanceAs (Decidable (∀ _, _))

/-- The request is in `ExecuteOperation`, or was there, and nothing more is sent for it. -/
structure Stopped (lib : Library) (s : State κ) (r : κ) : Prop where
  entered : s.operations.phase r ≠ .outside
  stopped : s.free lib r = false

section Stopped

variable {s : State κ} {e : Event κ} {r : κ}

/-- What is checked is over for a request in `ExecuteOperation`. -/
theorem late_of_entered (hs : (machine lib leaseTTL).Reachable s)
    (h : s.operations.phase r ≠ .outside) : (s.requests r).phase.isEarly = false :=
  (coherent hs r).late_of_operation h

/-- A request that is not exposed is stopped. -/
theorem stopped_of_exposed (hs : (machine lib leaseTTL).Reachable s) (he : enabled s e)
    (h_entered : s.operations.phase r ≠ .outside) (h : s.exposed lib e r = false) :
    Stopped lib (next lib s e) r := by
  have h_late := late_of_entered hs h_entered
  refine ⟨entered_next he h_entered, exposed_next hs he ?_ ?_ h⟩
  · intro h_phase
    rw [h_phase] at h_late
    contradiction
  · rintro now l rfl
    rw [takes_renewLease.mp he.1] at h_late
    contradiction

/-- What is stopped stays so. -/
theorem Stopped.step (hS : Stopped lib s r) (hs : (machine lib leaseTTL).Reachable s)
    (he : enabled s e) : Stopped lib (next lib s e) r :=
  stopped_of_exposed hs he hS.entered (exposed_of_free he hS.stopped)

end Stopped

/-- **The emergency stop.** In every run in which no accepted operation is exposed to a stop, no
call of the bridge is started after a stop for an operation that was accepted before it. -/
theorem emergencyStop {es fs : List (Event κ)} {e : Event κ} {r : κ}
    (h : ((machine lib leaseTTL).restrict (StopGuarded lib)).Runs (machine lib leaseTTL).init
      (es ++ e :: fs))
    (h_accepted : Accepted ((machine lib leaseTTL).exec (machine lib leaseTTL).init es) r)
    (h_stops : e.stops (((machine lib leaseTTL).exec
      (machine lib leaseTTL).init es).requests r).sessionID = true) :
    ¬ ∃ e', enabled ((machine lib leaseTTL).exec (machine lib leaseTTL).init (es ++ e :: fs)) e' ∧
      e'.starts r = true := by
  rintro ⟨e', he', h_starts⟩
  rw [Machine.runs_append, Machine.runs_cons] at h
  obtain ⟨h_before, ⟨he, h_guard⟩, h_after⟩ := h
  have hs := h_before.of_restrict.reachable
  -- after the stop the request may not start, and no later step changes that
  have hS := stopped_of_exposed hs he (inside_of_hasRecord h_accepted.registered)
    (h_guard r h_accepted h_stops)
  rw [Machine.exec_append, Machine.exec_cons] at he'
  have hS' : Stopped lib ((machine lib leaseTTL).exec ((machine lib leaseTTL).next
      ((machine lib leaseTTL).exec (machine lib leaseTTL).init es) e) fs) r :=
    Machine.Runs.stable (P := fun s => Stopped lib s r) (Q := fun _ => True)
      (fun s e hs _ hS he => hS.step hs he) (hs.next he) hS (fun _ _ => trivial)
      h_after.of_restrict
  rw [not_starts hS'.stopped he'] at h_starts
  exact Bool.false_ne_true h_starts

/-- The stop of the user. -/
def userStop : Event κ := .command (.stopAll "user stop") 1

/-- The operation that waits for its turn is not sent after the stop. -/
theorem emergencyStop_queued : ¬ ∃ e', enabled ((machine sampleLibrary 0).exec
    (machine sampleLibrary 0).init (queued ++ userStop :: resumed)) e' ∧ e'.starts 1 = true := by
  have h : ((machine sampleLibrary 0).restrict (StopGuarded sampleLibrary)).Runs
      (machine sampleLibrary 0).init (queued ++ userStop :: resumed) ∧
      Accepted ((machine sampleLibrary 0).exec (machine sampleLibrary 0).init queued) 1 ∧
      (userStop : Event (Fin 2)).stops (((machine sampleLibrary 0).exec
        (machine sampleLibrary 0).init queued).requests 1).sessionID = true := by
    decide +kernel
  exact emergencyStop h.1 h.2.1 h.2.2

/-- An operation is accepted. -/
def accepted : List (Event ℕ) := opening ++ checks 0 "tab.reload" "op_1" ++ [.execute 0 1]

/-- An operation is sent that was accepted before the stop. -/
theorem not_emergencyStop_acceptedBefore :
    (machine sampleLibrary 0).Runs (machine sampleLibrary 0).init
        (accepted ++ userStop :: entry 0 ++ [.send 0 "chrome_1"]) ∧
      Accepted ((machine sampleLibrary 0).exec (machine sampleLibrary 0).init accepted) 0 := by
  decide +kernel

end BrowserControl.Server
