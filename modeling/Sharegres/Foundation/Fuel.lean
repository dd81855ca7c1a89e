import Mathlib.Tactic.TypeStar

/-!
# Foundation - Enough fuel

A loop that may not end is a function of its fuel which answers {lean}`none` when the fuel is
used up.  It ends when all fuel from some amount on gives the same answer.  The rules here
build such statements from one round of a loop.

Main results:

- Definition {lit}`Settles`: with enough fuel the loop comes to a result.
- Theorem {lit}`settles_succ_iff`: a round that only goes on.
- Theorem {lit}`Settles.first`: a round that looks for something and goes on if there is
  nothing.
-/

namespace Foundation

variable {α : Type*}

/-- With enough fuel the loop comes to this result. -/
def Settles (f : Nat → Option α) (a : α) : Prop :=
  ∃ n, ∀ fuel, n ≤ fuel → f fuel = some a

theorem Settles.unique {f : Nat → Option α} {a b : α} (ha : Settles f a) (hb : Settles f b) :
    a = b := by
  rcases ha with ⟨n, hn⟩
  rcases hb with ⟨m, hm⟩
  exact Option.some.inj ((hn (max n m) (Nat.le_max_left n m)).symm.trans
    (hm (max n m) (Nat.le_max_right n m)))

/-- A loop that is over after one round. -/
theorem settles_of_succ {f : Nat → Option α} {a : α} (h : ∀ n, f (n + 1) = some a) :
    Settles f a := by
  refine ⟨1, fun fuel hfuel => ?_⟩
  rw [← Nat.sub_add_cancel hfuel]
  exact h _

/-- A round that only goes on. -/
theorem settles_succ_iff {f g : Nat → Option α} (hstep : ∀ n, g (n + 1) = f n) {a : α} :
    Settles g a ↔ Settles f a := by
  constructor
  · rintro ⟨n, hn⟩
    refine ⟨n, fun fuel hfuel => ?_⟩
    rw [← hstep]
    exact hn _ (Nat.le_succ_of_le hfuel)
  · rintro ⟨n, hn⟩
    refine ⟨n + 1, fun fuel hfuel => ?_⟩
    rw [← Nat.sub_add_cancel (Nat.le_trans (Nat.le_add_left 1 n) hfuel), hstep]
    exact hn _ (Nat.le_sub_of_add_le hfuel)

/-- What a search has found, or what comes next if it has found nothing. -/
def orNext (search next : Option (Option α)) : Option (Option α) :=
  match search with
  | none => none
  | some (some found) => some (some found)
  | some none => next

/-- A round that looks for something and goes on if there is nothing. -/
theorem Settles.first {f g h : Nat → Option (Option α)}
    (hstep : ∀ n, g (n + 1) = orNext (f n) (h n)) {a b : Option α} (hf : Settles f a)
    (hh : a = none → Settles h b) : Settles g (a.or b) := by
  rcases hf with ⟨n, hn⟩
  cases a with
  | some x =>
      refine ⟨n + 1, fun fuel hfuel => ?_⟩
      rw [← Nat.sub_add_cancel (Nat.le_trans (Nat.le_add_left 1 n) hfuel), hstep,
        hn _ (Nat.le_sub_of_add_le hfuel)]
      rfl
  | none =>
      rcases hh rfl with ⟨m, hm⟩
      refine ⟨max n m + 1, fun fuel hfuel => ?_⟩
      have hle : max n m ≤ fuel - 1 := Nat.le_sub_of_add_le hfuel
      rw [← Nat.sub_add_cancel (Nat.le_trans (Nat.le_add_left 1 _) hfuel), hstep,
        hn _ (Nat.le_trans (Nat.le_max_left n m) hle)]
      exact hm _ (Nat.le_trans (Nat.le_max_right n m) hle)

end Foundation
