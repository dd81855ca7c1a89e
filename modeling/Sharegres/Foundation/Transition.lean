import Mathlib.Logic.Relation

/-!
# Foundation - Runs of a transition function

A system is given by a transition function on states and events that answers
{lean}`none` for an event that cannot happen or whose handler does not return.  A
guard restricts the events of a run to those that meet an assumption.

Main results:

- Definition {lit}`Reaches`: the states of the runs whose events meet a guard.
- Theorem {lit}`Reaches.invariant`: what holds at the start and is kept by every
  guarded step holds in every state reached.
- Theorems {lit}`reaches_of_run` and {lit}`exists_reached`: an executed list of events is
  such a run, and what its last state has some state reached has.
-/

namespace Foundation

variable {σ ε : Type*} {step : σ → ε → Option σ} {guard : σ → ε → Prop}

/-- One step under an event that meets the guard. -/
def GuardedStep (step : σ → ε → Option σ) (guard : σ → ε → Prop) (s s' : σ) : Prop :=
  ∃ e, guard s e ∧ step s e = some s'

/-- The states reached by runs whose events all meet the guard. -/
def Reaches (step : σ → ε → Option σ) (guard : σ → ε → Prop) : σ → σ → Prop :=
  Relation.ReflTransGen (GuardedStep step guard)

/-- The guard that admits every event. -/
def anyEvent : σ → ε → Prop :=
  fun _ _ => True

instance (s : σ) (e : ε) : Decidable (anyEvent s e) :=
  isTrue trivial

theorem Reaches.refl (s : σ) : Reaches step guard s s :=
  Relation.ReflTransGen.refl

/-- The invariant rule.  The step may use that its source was reached. -/
theorem Reaches.invariant {s₀ s : σ} {Inv : σ → Prop} (h : Reaches step guard s₀ s)
    (hinit : Inv s₀)
    (hkeep : ∀ t e t', Reaches step guard s₀ t → Inv t → guard t e → step t e = some t' →
      Inv t') : Inv s := by
  induction h with
  | refl => exact hinit
  | tail hreach hlast ih =>
      rcases hlast with ⟨e, hguard, hstep⟩
      exact hkeep _ e _ hreach ih hguard hstep

/-! ## Executed runs -/

/-- Execute a list of events and stop at the first one that is refused by the
check. -/
def runEvents (step : σ → ε → Option σ) (check : σ → ε → Bool) : List ε → σ → Option σ
  | [], s => some s
  | e :: es, s => if check s e then (step s e).bind (runEvents step check es) else none

/-- An executed list of events is a run. -/
theorem reaches_of_run {check : σ → ε → Bool} {es : List ε} {s s' : σ}
    (hcheck : ∀ t e, check t e = true → guard t e)
    (h : runEvents step check es s = some s') : Reaches step guard s s' := by
  induction es generalizing s with
  | nil =>
      cases h
      exact Reaches.refl _
  | cons e es ih =>
      rw [runEvents] at h
      by_cases hc : check s e = true
      · rw [if_pos hc] at h
        rcases Option.bind_eq_some_iff.mp h with ⟨t, hstep, hrest⟩
        apply Relation.ReflTransGen.head
        · exact ⟨e, hcheck s e hc, hstep⟩
        · exact ih hrest
      · rw [if_neg hc] at h
        cases h

/-- The events are a run under the guard, and its last state has the property. -/
def runsTo (step : σ → ε → Option σ) (guard : σ → ε → Prop) [∀ s e, Decidable (guard s e)]
    (es : List ε) (s₀ : σ) (P : σ → Prop) [DecidablePred P] : Bool :=
  (runEvents step (fun s e => decide (guard s e)) es s₀).any fun s => decide (P s)

/-- A run that ends as wanted reaches such a state. -/
theorem exists_reached [∀ s e, Decidable (guard s e)] {es : List ε} {s₀ : σ} {P : σ → Prop}
    [DecidablePred P] (h : runsTo step guard es s₀ P = true) :
    ∃ s, Reaches step guard s₀ s ∧ P s := by
  rcases (Option.any_eq_true _ _).mp h with ⟨s, hrun, htest⟩
  refine ⟨s, reaches_of_run ?_ hrun, of_decide_eq_true htest⟩
  intro t e hcheck
  exact of_decide_eq_true hcheck

end Foundation
