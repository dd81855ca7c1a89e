import Mathlib.Tactic.Common

/-!
# Foundation - Frames at the front of a list

A list is read frame by frame.  From a state and the elements that are left, a reader tells
the length of the first frame and the state after it, or that it goes no further: there is
no whole frame, or it stops there for another reason.

Main results:

- Definition {lit}`Framing.walk`: where a reader stops, and in which state.
- Theorem {lit}`Framing.induct`: induction over the frames read.
- Theorems {lit}`Framing.walk_next` and {lit}`Framing.walk_stop`: the recursion of
  {lit}`walk`.
-/

namespace Foundation

/-- A reader of frames.  A frame is not empty and stands at the front of the list. -/
structure Framing (σ α : Type*) where
  next : σ → List α → Option (Nat × σ)
  bounds : ∀ {st st' : σ} {xs : List α} {n : Nat},
    next st xs = some (n, st') → 0 < n ∧ n ≤ xs.length

namespace Framing

variable {σ α : Type*} (F : Framing σ α) {st st' : σ} {xs : List α} {n : Nat}

/-- What is left behind the first frame is shorter. -/
theorem length_drop_lt (h : F.next st xs = some (n, st')) : (xs.drop n).length < xs.length := by
  have hbounds := F.bounds h
  rw [List.length_drop]
  omega

/-- Read at most the given number of frames. -/
def walkFuel : Nat → σ → List α → σ × List α
  | 0, st, xs => (st, xs)
  | fuel + 1, st, xs =>
      match F.next st xs with
      | none => (st, xs)
      | some (n, st') => walkFuel fuel st' (xs.drop n)

/-- Read frames until the reader stops: its state there, and what is left. -/
def walk (st : σ) (xs : List α) : σ × List α :=
  F.walkFuel xs.length st xs

/-- Induction over the frames that are read. -/
theorem induct {motive : σ → List α → Prop}
    (stop : ∀ st xs, F.next st xs = none → motive st xs)
    (step : ∀ st xs n st', F.next st xs = some (n, st') → motive st' (xs.drop n) → motive st xs)
    (st : σ) (xs : List α) : motive st xs := by
  induction hlen : xs.length using Nat.strongRecOn generalizing st xs with
  | ind len ih =>
      cases hnext : F.next st xs with
      | none => exact stop st xs hnext
      | some r =>
          have hshorter := F.length_drop_lt hnext
          exact step st xs r.1 r.2 hnext (ih _ (hlen ▸ hshorter) _ _ rfl)

/-- The empty list has no frame. -/
theorem next_nil (st : σ) : F.next st [] = none := by
  cases hnext : F.next st [] with
  | none => rfl
  | some r =>
      have hshorter := F.length_drop_lt hnext
      simp at hshorter

theorem walkFuel_nil (fuel : Nat) (st : σ) : F.walkFuel fuel st [] = (st, []) := by
  cases fuel with
  | zero => rfl
  | succ fuel => rw [walkFuel, next_nil]

/-- A list has no more frames than elements. -/
theorem walkFuel_eq {fuel fuel' : Nat} (h : xs.length ≤ fuel) (h' : xs.length ≤ fuel') :
    F.walkFuel fuel st xs = F.walkFuel fuel' st xs := by
  induction fuel generalizing fuel' st xs with
  | zero =>
      have hnil : xs = [] := List.eq_nil_of_length_eq_zero (by omega)
      rw [hnil, walkFuel_nil, walkFuel_nil]
  | succ fuel ih =>
      cases fuel' with
      | zero =>
          have hnil : xs = [] := List.eq_nil_of_length_eq_zero (by omega)
          rw [hnil, walkFuel_nil, walkFuel_nil]
      | succ fuel' =>
          rw [walkFuel, walkFuel]
          cases hnext : F.next st xs with
          | none => rfl
          | some r =>
              have hshorter := F.length_drop_lt hnext
              exact ih (by omega) (by omega)

theorem walk_stop (h : F.next st xs = none) : F.walk st xs = (st, xs) := by
  unfold walk
  cases xs with
  | nil => rfl
  | cons x xs => rw [List.length_cons, walkFuel, h]

/-- A frame is taken, and then the others. -/
theorem walk_next (h : F.next st xs = some (n, st')) :
    F.walk st xs = F.walk st' (xs.drop n) := by
  have hshorter := F.length_drop_lt h
  unfold walk
  cases hlen : xs.length with
  | zero => omega
  | succ len =>
      rw [walkFuel, h]
      exact F.walkFuel_eq (by omega) (Nat.le_refl _)

end Framing

end Foundation
