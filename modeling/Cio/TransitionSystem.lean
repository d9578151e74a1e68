import Mathlib.Order.WellFounded
import Mathlib.Data.List.Basic

/-! Transition systems with a partial, labelled step function. A label fixes every choice of the
scheduler and of the environment, so a list of labels is one interleaving and `run` executes it.
Safety over all interleavings is an invariant of `Reachable`; safety over the interleavings whose
steps all meet a condition is an invariant of `ReachableVia`. -/

namespace Transition

universe u v

/-- The initial states and the effect of each label; a label without effect is not enabled. -/
structure System (σ : Type u) (ι : Type v) where
  init : σ → Prop
  step : σ → ι → Option σ

namespace System

variable {σ : Type u} {ι : Type v} (M : System σ ι)

def run : σ → List ι → Option σ
  | s, [] => some s
  | s, a :: rest => (M.step s a).bind fun t => run t rest

/-- Executes a schedule and stops at the first step that does not meet the condition. -/
def runVia (C : σ → ι → Prop) [∀ s a, Decidable (C s a)] : σ → List ι → Option σ
  | s, [] => some s
  | s, a :: rest => if C s a then (M.step s a).bind fun t => runVia C t rest else none

/-- The states reached by steps that all meet `C`. -/
inductive ReachableVia (C : σ → ι → Prop) : σ → Prop where
  | start {s : σ} (hinit : M.init s) : ReachableVia C s
  | next {s t : σ} {a : ι} (hs : ReachableVia C s) (hc : C s a) (hstep : M.step s a = some t) :
      ReachableVia C t

abbrev Reachable : σ → Prop := M.ReachableVia fun _ _ => True

def Stuck (s : σ) : Prop := ∀ a, M.step s a = none

def StuckVia (C : σ → ι → Prop) (s : σ) : Prop := ∀ a, C s a → M.step s a = none

/-- Every run is finite, and a run that cannot be continued has ended in `Q`. -/
structure EndsIn (Q : σ → Prop) : Prop where
  finite : ∀ f : ℕ → σ, M.init (f 0) → ¬ ∀ n, ∃ a, M.step (f n) a = some (f (n + 1))
  last : ∀ s, M.Reachable s → M.Stuck s → Q s

variable {M}

variable {C : σ → ι → Prop}

/-- The invariant rule: what holds initially and is kept by every admitted step holds always. -/
lemma ReachableVia.invariant {P : σ → Prop} (hinit : ∀ s, M.init s → P s)
    (hst : ∀ s a t, P s → C s a → M.step s a = some t → P t) {s : σ} (hs : M.ReachableVia C s) : P s := by
  induction hs with
  | start h => exact hinit _ h
  | next _ hc ht ih => exact hst _ _ _ ih hc ht

lemma ReachableVia.reachable {s : σ} (hs : M.ReachableVia C s) : M.Reachable s := by
  induction hs with
  | start h => exact .start h
  | next _ _ ht ih => exact .next ih trivial ht

lemma ReachableVia.runVia [∀ s a, Decidable (C s a)] {schedule : List ι} (hs : M.ReachableVia C s)
    (hrun : M.runVia C s schedule = some t) : M.ReachableVia C t := by
  induction schedule generalizing s with
  | nil =>
    cases hrun
    exact hs
  | cons a rest ih =>
    rw [System.runVia, Option.ite_none_right_eq_some] at hrun
    obtain ⟨u, hu, hrest⟩ := Option.bind_eq_some_iff.mp hrun.2
    exact ih (.next hs hrun.1 hu) hrest

lemma run_cons {a : ι} (hs : M.step s a = some t) (rest : List ι) : M.run s (a :: rest) = M.run t rest := by
  rw [System.run, hs, Option.bind_some]

lemma runVia_true (s : σ) (schedule : List ι) : M.runVia (fun _ _ => True) s schedule = M.run s schedule := by
  induction schedule generalizing s with
  | nil => rfl
  | cons a rest ih => simp only [System.runVia, System.run, if_true, ih]

lemma Reachable.run {schedule : List ι} (hs : M.Reachable s) (hrun : M.run s schedule = some t) : M.Reachable t :=
  ReachableVia.runVia hs ((runVia_true s schedule).trans hrun)

/-! ### Termination by a measure -/

variable {m : σ → ℕ}

lemma no_infinite_run_from {P : σ → Prop} (hs : ∀ s a t, P s → M.step s a = some t → P t ∧ m t < m s) (f : ℕ → σ)
    (hstart : P (f 0)) : ¬ ∀ n, ∃ a, M.step (f n) a = some (f (n + 1)) := by
  intro hrun
  have hdescend : ∀ n, P (f n) ∧ m (f n) + n ≤ m (f 0) := by
    intro n
    induction n with
    | zero => exact ⟨hstart, le_rfl⟩
    | succ n ih =>
      obtain ⟨a, ha⟩ := hrun n
      obtain ⟨hkept, hless⟩ := hs _ _ _ ih.1 ha
      exact ⟨hkept, by omega⟩
  have hbound := (hdescend (m (f 0) + 1)).2
  omega

/-- The termination rule: an invariant under which a measure decreases, and what it says where a run cannot go on. -/
lemma endsIn_of_measure {P Q : σ → Prop} (hinit : ∀ s, M.init s → P s)
    (hst : ∀ s a t, P s → M.step s a = some t → P t ∧ m t < m s) (hlast : ∀ s, P s → M.Stuck s → Q s) : M.EndsIn Q where
  finite f hf := no_infinite_run_from hst f (hinit _ hf)
  last s hs := hlast s (hs.invariant hinit fun s a t h _ ht => (hst s a t h ht).1)

lemma ReachableVia.exists_stuckVia (hm : ∀ s a t, M.step s a = some t → m t < m s) {s : σ} (hs : M.ReachableVia C s) :
    ∃ t, M.ReachableVia C t ∧ M.StuckVia C t := by
  induction hsum : m s using Nat.strong_induction_on generalizing s with
  | _ n ih =>
    by_cases hstuck : M.StuckVia C s
    · exact ⟨s, hs, hstuck⟩
    · simp only [StuckVia, not_forall] at hstuck
      obtain ⟨a, hc, hst⟩ := hstuck
      obtain ⟨t, ht⟩ := Option.ne_none_iff_exists'.mp hst
      exact ih (m t) (hsum ▸ hm s a t ht) (hs.next hc ht) rfl

variable (M)

/-- A schedule whose steps meet the condition and whose last state satisfies a decidable property
reaches such a state. -/
lemma reachableVia_of_run (C : σ → ι → Prop) [∀ s a, Decidable (C s a)] (s : σ) (schedule : List ι) (P : σ → Prop)
    [DecidablePred P] (hinit : M.init s) (hrun : (M.runVia C s schedule).map (fun t => decide (P t)) = some true) :
    ∃ t, M.ReachableVia C t ∧ P t := by
  obtain ⟨t, ht, hp⟩ := Option.map_eq_some_iff.mp hrun
  exact ⟨t, ReachableVia.runVia (.start hinit) ht, of_decide_eq_true hp⟩

lemma reachable_of_run (s : σ) (schedule : List ι) (P : σ → Prop) [DecidablePred P] (hinit : M.init s)
    (hrun : (M.run s schedule).map (fun t => decide (P t)) = some true) : ∃ t, M.Reachable t ∧ P t := by
  obtain ⟨t, ht, hp⟩ := Option.map_eq_some_iff.mp hrun
  exact ⟨t, Reachable.run (.start hinit) ht, of_decide_eq_true hp⟩

end System

section Guard

variable {σ : Type u} {p : Prop} [Decidable p] {s t : σ}

lemma of_guard (h : (if p then some s else none) = some t) : p ∧ s = t :=
  (Option.ite_none_right_eq_some.mp h).imp_right Option.some.inj

lemma of_unless (h : (if p then none else some s) = some t) : ¬ p ∧ s = t :=
  (Option.ite_none_left_eq_some.mp h).imp_right Option.some.inj

end Guard

end Transition
