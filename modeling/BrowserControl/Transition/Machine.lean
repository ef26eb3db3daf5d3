import Mathlib.Data.List.Induction
import Mathlib.Tactic.TypeStar

/-!
# Guarded machines and their runs

A `Machine` is a deterministic transition function with a guard: the event names
everything the scheduler and the environment choose, `enabled` says when the event may
happen and `next` what it does. A run is a list of events, so a concrete run can be
replayed by evaluation and a statement about every interleaving is a statement about every
list of events.

* `Machine.exec` replays a run, `Machine.Runs` says that each of its events is enabled
  where it happens.
* `Machine.Reachable.induction`, `Machine.Runs.stable` and `Machine.Runs.history` are the
  rules for invariants of states, for properties kept from some point of a run on, and for
  properties that also mention the events so far.
* `Machine.log` collects what the events of a run output.
* `Machine.restrict` keeps the runs whose steps all meet a condition.
* `Projection` transports runs of one machine to runs of another.
-/

namespace Transition

/-- A deterministic machine with guarded events. -/
structure Machine (σ ε : Type*) where
  /-- The initial state. -/
  init : σ
  /-- The guard of an event. -/
  enabled : σ → ε → Prop
  /-- The effect of an event. -/
  next : σ → ε → σ

namespace Machine

variable {σ ε : Type*} (M : Machine σ ε)

/-- The state after replaying `es` from `s`. -/
def exec (s : σ) (es : List ε) : σ := es.foldl M.next s

/-- Each event of `es` is enabled where it is replayed, starting from `s`. -/
def Runs : σ → List ε → Prop
  | _, [] => True
  | s, e :: es => M.enabled s e ∧ Runs (M.next s e) es

@[simp] theorem exec_nil (s : σ) : M.exec s [] = s := rfl

@[simp] theorem exec_cons (s : σ) (e : ε) (es : List ε) :
    M.exec s (e :: es) = M.exec (M.next s e) es := rfl

@[simp] theorem exec_append (s : σ) (es fs : List ε) :
    M.exec s (es ++ fs) = M.exec (M.exec s es) fs := List.foldl_append ..

@[simp] theorem runs_nil (s : σ) : M.Runs s [] := trivial

@[simp] theorem runs_cons (s : σ) (e : ε) (es : List ε) :
    M.Runs s (e :: es) ↔ M.enabled s e ∧ M.Runs (M.next s e) es := Iff.rfl

@[simp] theorem runs_append (s : σ) (es fs : List ε) :
    M.Runs s (es ++ fs) ↔ M.Runs s es ∧ M.Runs (M.exec s es) fs := by
  induction es generalizing s with
  | nil => simp
  | cons e es ih => simp [ih, and_assoc]

instance decidableRuns [∀ s e, Decidable (M.enabled s e)] :
    ∀ s es, Decidable (M.Runs s es)
  | _, [] => isTrue trivial
  | s, e :: es =>
    have : Decidable (M.Runs (M.next s e) es) := decidableRuns _ es
    inferInstanceAs (Decidable (M.enabled s e ∧ M.Runs (M.next s e) es))

/-- `s` is the end of some run from the initial state. -/
def Reachable (s : σ) : Prop := ∃ es, M.Runs M.init es ∧ M.exec M.init es = s

variable {M}

theorem Reachable.init : M.Reachable M.init := ⟨[], trivial, rfl⟩

/-- A run from a reachable state. -/
theorem Reachable.exec {s : σ} (h : M.Reachable s) {es : List ε} (hes : M.Runs s es) :
    M.Reachable (M.exec s es) := by
  obtain ⟨fs, hfs, rfl⟩ := h
  exact ⟨fs ++ es, by simp [hfs, hes], by simp⟩

/-- A step from a reachable state. -/
theorem Reachable.next {s : σ} (h : M.Reachable s) {e : ε} (he : M.enabled s e) :
    M.Reachable (M.next s e) := by
  have h_runs : M.Runs s [e] := by simp [he]
  exact h.exec h_runs

/-- The state in which a run ends. -/
theorem Runs.reachable {es : List ε} (h : M.Runs M.init es) :
    M.Reachable (M.exec M.init es) := ⟨es, h, rfl⟩

/-! ### Invariant rules -/

/-- **History rule.** A property of the events so far and the state they lead to holds of
every run from `s₀` once it holds before the run and each enabled event keeps it. -/
theorem Runs.history {s₀ : σ} {P : List ε → σ → Prop} (hinit : P [] s₀)
    (hstep : ∀ es s e, M.Runs s₀ es → M.exec s₀ es = s → P es s → M.enabled s e →
      P (es ++ [e]) (M.next s e))
    {es : List ε} (h : M.Runs s₀ es) : P es (M.exec s₀ es) := by
  induction es using List.reverseRecOn with
  | nil => exact hinit
  | append_singleton es e ih =>
    rw [runs_append] at h
    simpa using hstep es _ e h.1 rfl (ih h.1) (by simpa using h.2)

/-- **Invariant rule.** -/
theorem Reachable.induction {P : σ → Prop} (hinit : P M.init)
    (hstep : ∀ s e, M.Reachable s → P s → M.enabled s e → P (M.next s e))
    {s : σ} (h : M.Reachable s) : P s := by
  obtain ⟨es, hes, rfl⟩ := h
  refine Runs.history (P := fun _ s => P s) hinit ?_ hes
  rintro es s e hes rfl hP he
  exact hstep _ e hes.reachable hP he

/-- A property that each event kept by `Q` preserves holds at the end of a run from a
reachable state where it held, if all events of the run satisfy `Q`. -/
theorem Runs.stable {P : σ → Prop} {Q : ε → Prop}
    (hstep : ∀ s e, M.Reachable s → Q e → P s → M.enabled s e → P (M.next s e))
    {s : σ} (hs : M.Reachable s) (hP : P s) {es : List ε} (hQ : ∀ e ∈ es, Q e)
    (h : M.Runs s es) : P (M.exec s es) := by
  induction es generalizing s with
  | nil => exact hP
  | cons e es ih =>
    rw [runs_cons] at h
    rw [List.forall_mem_cons] at hQ
    exact ih (hs.next h.1) (hstep s e hs hQ.1 hP h.1) hQ.2 h.2

/-! ### Outputs of a run -/

variable (M) in
/-- What the events of a run output, in order; `f s e` is the output of `e` in state `s`. -/
def log {β : Type*} (f : σ → ε → List β) : σ → List ε → List β
  | _, [] => []
  | s, e :: es => f s e ++ log f (M.next s e) es

@[simp] theorem log_nil {β : Type*} (f : σ → ε → List β) (s : σ) : M.log f s [] = [] := rfl

@[simp] theorem log_cons {β : Type*} (f : σ → ε → List β) (s : σ) (e : ε) (es : List ε) :
    M.log f s (e :: es) = f s e ++ M.log f (M.next s e) es := rfl

@[simp] theorem log_append {β : Type*} (f : σ → ε → List β) (s : σ) (es fs : List ε) :
    M.log f s (es ++ fs) = M.log f s es ++ M.log f (M.exec s es) fs := by
  induction es generalizing s with
  | nil => simp
  | cons e es ih => simp [ih]

/-! ### Runs under a condition -/

variable (M) in
/-- The machine whose steps are those of `M` that meet `C`. -/
def restrict (C : σ → ε → Prop) : Machine σ ε where
  init := M.init
  enabled s e := M.enabled s e ∧ C s e
  next := M.next

instance decidableRestrict [∀ s e, Decidable (M.enabled s e)] {C : σ → ε → Prop}
    [∀ s e, Decidable (C s e)] (s : σ) (e : ε) : Decidable ((M.restrict C).enabled s e) :=
  inferInstanceAs (Decidable (M.enabled s e ∧ C s e))

@[simp] theorem exec_restrict (C : σ → ε → Prop) (s : σ) (es : List ε) :
    (M.restrict C).exec s es = M.exec s es := rfl

@[simp] theorem restrict_init (C : σ → ε → Prop) : (M.restrict C).init = M.init := rfl

/-- A run under a condition is a run. -/
theorem Runs.of_restrict {C : σ → ε → Prop} {s : σ} {es : List ε}
    (h : (M.restrict C).Runs s es) : M.Runs s es := by
  induction es generalizing s with
  | nil => trivial
  | cons e es ih => exact ⟨h.1.1, ih h.2⟩

/-- A run whose events meet the condition in every state is a run under the condition. -/
theorem Runs.restrict {C : σ → ε → Prop} {s : σ} {es : List ε} (h : M.Runs s es)
    (hC : ∀ e ∈ es, ∀ s, C s e) : (M.restrict C).Runs s es := by
  induction es generalizing s with
  | nil => trivial
  | cons e es ih =>
    rw [List.forall_mem_cons] at hC
    exact ⟨⟨h.1, hC.1 s⟩, ih h.2 hC.2⟩

/-- What is reached under a condition is reachable. -/
theorem Reachable.of_restrict {C : σ → ε → Prop} {s : σ}
    (h : (M.restrict C).Reachable s) : M.Reachable s := by
  obtain ⟨es, hes, rfl⟩ := h
  exact ⟨es, hes.of_restrict, rfl⟩

/-- **Runs that keep a property.** Under the condition `C` the invariant `I` is kept, and with it
the property `P`; a step that does not meet the condition breaks the property. Then a run keeps the
property in all its states if and only if all its steps meet the condition. -/
theorem Runs.restrict_iff {C : σ → ε → Prop} {I P : σ → Prop} (hinit : I M.init)
    (hstep : ∀ s e, I s → M.enabled s e → C s e → I (M.next s e)) (hP : ∀ s, I s → P s)
    (hbreak : ∀ s e, I s → M.enabled s e → ¬ C s e → ¬ P (M.next s e)) {es : List ε}
    (h : M.Runs M.init es) :
    (∀ es₁, es₁ <+: es → P (M.exec M.init es₁)) ↔ (M.restrict C).Runs M.init es := by
  -- while all events meet the condition the invariant holds
  have h_inv : ∀ {es : List ε}, (M.restrict C).Runs M.init es → I (M.exec M.init es) := by
    intro es h_runs
    refine Reachable.induction (M := M.restrict C) hinit ?_ h_runs.reachable
    intro s e _ h_inv he
    exact hstep s e h_inv he.1 he.2
  constructor
  · intro h_all
    induction es using List.reverseRecOn with
    | nil => trivial
    -- the last event: without the condition it would lead out of the property
    | append_singleton es e ih =>
      obtain ⟨h_runs, he, -⟩ := (runs_append ..).mp h
      have h_restrict := ih h_runs fun es₁ h_begin =>
        h_all es₁ (h_begin.trans (List.prefix_append ..))
      refine (runs_append ..).mpr ⟨h_restrict, ⟨he, ?_⟩, trivial⟩
      by_contra h_not
      have h_end := h_all _ (List.prefix_refl _)
      rw [exec_append] at h_end
      exact hbreak _ e (h_inv h_restrict) he h_not h_end
  · rintro h_restrict es₁ ⟨es₂, rfl⟩
    exact hP _ (h_inv ((runs_append ..).mp h_restrict).1)

end Machine

/-! ### Projections -/

/-- A projection of `M` onto `N`: each step of `M` from a reachable state is a (possibly
empty) run of `N` on the projected state. -/
structure Projection {σ ε τ δ : Type*} (M : Machine σ ε) (N : Machine τ δ) where
  /-- The projected state. -/
  state : σ → τ
  /-- The events of `N` that an event of `M` performs. -/
  events : σ → ε → List δ
  init : state M.init = N.init
  runs : ∀ s e, M.Reachable s → N.Reachable (state s) → M.enabled s e →
    N.Runs (state s) (events s e)
  next : ∀ s e, M.Reachable s → N.Reachable (state s) → M.enabled s e →
    state (M.next s e) = N.exec (state s) (events s e)

namespace Projection

variable {σ ε τ δ : Type*} {M : Machine σ ε} {N : Machine τ δ} (π : Projection M N)

/-- The projected state of a reachable state is reachable. -/
theorem reachable {s : σ} (h : M.Reachable s) : N.Reachable (π.state s) := by
  refine h.induction (P := fun s => N.Reachable (π.state s)) ?_ ?_
  · rw [π.init]
    exact .init
  · intro s e hs ih he
    rw [π.next s e hs ih he]
    exact ih.exec (π.runs s e hs ih he)

/-- The projected events of a run from a reachable state. -/
def trace (s : σ) (es : List ε) : List δ := M.log π.events s es

/-- **Projection of runs.** A run of `M` projects to a run of `N`, and its end state to the
end state of that run. -/
theorem run {s : σ} (hs : M.Reachable s) {es : List ε} (h : M.Runs s es) :
    N.Runs (π.state s) (π.trace s es) ∧
      π.state (M.exec s es) = N.exec (π.state s) (π.trace s es) := by
  induction es generalizing s with
  | nil => exact ⟨trivial, rfl⟩
  | cons e es ih =>
    rw [Machine.runs_cons] at h
    obtain ⟨h_runs, h_end⟩ := ih (hs.next h.1) h.2
    have h_next := π.next s e hs (π.reachable hs) h.1
    rw [h_next] at h_runs h_end
    simp only [trace, Machine.log_cons, Machine.exec_cons, Machine.runs_append,
      Machine.exec_append] at h_runs h_end ⊢
    exact ⟨⟨π.runs s e hs (π.reachable hs) h.1, h_runs⟩, h_end⟩

end Projection

/-- The parties of a sample run are named by the numerals of `Fin 2`, which need `NeZero 2`. The
library has several instances of it, and which of them is found depends on what a module imports.
This one is found first, so that a numeral is the same term in every module and samples agree by
`rfl`. -/
instance (priority := 2000) neZeroTwo : @NeZero ℕ Zero.ofOfNat0 2 := ⟨by decide⟩

end Transition
