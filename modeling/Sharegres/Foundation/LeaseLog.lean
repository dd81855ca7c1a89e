import Mathlib.Algebra.BigOperators.Group.Finset.Basic
import Mathlib.Logic.Function.Basic

/-!
# Foundation - Logs of leases

Resources are lent to borrowers and given back.  A log of such operations is
replayed over the table of what is lent out at the moment: lending needs a resource
that is not lent, and giving back needs the very lease that is outstanding.  A log
that can be replayed therefore gives back every lease at most once, and the table
tells the leases that are still outstanding.

Main results:

- Definition {lit}`replay`: the table after a log, if the log pairs correctly.
- Theorems {lit}`replay_lend` and {lit}`replay_return`: one more operation.
- Theorem {lit}`count_of_replay`: how often a lease is granted and given back.
- Theorem {lit}`sum_change`: a sum whose terms change at one index only.
-/

namespace Foundation

variable {ρ β : Type*} [DecidableEq ρ] [DecidableEq β]

/-- An operation on the resource {lit}`r` and its borrower. -/
inductive LeaseOp (ρ β : Type*) where
  | lend (r : ρ) (borrower : β)
  | giveBack (r : ρ) (borrower : β)
deriving DecidableEq

/-- The effect of an operation on the table of outstanding leases. -/
def LeaseOp.apply : LeaseOp ρ β → (ρ → Option β) → Option (ρ → Option β)
  | .lend r borrower, lent =>
      if lent r = none then some (Function.update lent r (some borrower)) else none
  | .giveBack r borrower, lent =>
      if lent r = some borrower then some (Function.update lent r none) else none

/-- The table of outstanding leases after a log, whose last operation stands
first. -/
def replay : List (LeaseOp ρ β) → Option (ρ → Option β)
  | [] => some fun _ => none
  | op :: log => (replay log).bind op.apply

theorem replay_lend {log : List (LeaseOp ρ β)} {lent : ρ → Option β} {r : ρ} {borrower : β}
    (h : replay log = some lent) (hfree : lent r = none) :
    replay (.lend r borrower :: log) = some (Function.update lent r (some borrower)) := by
  rw [replay, h, Option.bind_some, LeaseOp.apply, if_pos hfree]

/-- The borrower gives it back. -/
theorem replay_return {log : List (LeaseOp ρ β)} {lent : ρ → Option β} {r : ρ} {borrower : β}
    (h : replay log = some lent) (hlent : lent r = some borrower) :
    replay (.giveBack r borrower :: log) = some (Function.update lent r none) := by
  rw [replay, h, Option.bind_some, LeaseOp.apply, if_pos hlent]

/-- In a log that pairs correctly every lease is given back once, unless it is still
outstanding. -/
theorem count_of_replay {log : List (LeaseOp ρ β)} {lent : ρ → Option β}
    (h : replay log = some lent) (r : ρ) (borrower : β) :
    log.count (.lend r borrower) =
      log.count (.giveBack r borrower) + if lent r = some borrower then 1 else 0 := by
  induction log generalizing lent with
  | nil =>
      cases h
      simp
  | cons op log ih =>
      rcases Option.bind_eq_some_iff.mp h with ⟨before, hlog, hop⟩
      have hbefore := ih hlog
      cases op with
      | lend r' borrower' =>
          rw [LeaseOp.apply] at hop
          split at hop
          · rename_i hfree
            cases hop
            rw [List.count_cons, List.count_cons, hbefore]
            by_cases hr : r = r'
            · subst hr
              by_cases hb : borrower' = borrower
              · subst hb
                simp [hfree]
              · simp [hfree, hb]
            · simp [Function.update_of_ne hr, Ne.symm hr]
          · cases hop
      | giveBack r' borrower' =>
          rw [LeaseOp.apply] at hop
          split at hop
          · rename_i hlent
            cases hop
            rw [List.count_cons, List.count_cons, hbefore]
            by_cases hr : r = r'
            · subst hr
              by_cases hb : borrower' = borrower
              · subst hb
                simp [hlent]
              · simp [hlent, hb]
            · simp [Function.update_of_ne hr, Ne.symm hr]
          · cases hop

/-- Two sums over the same indices whose terms agree except at one of them. -/
theorem sum_change {ι : Type*} [DecidableEq ι] {s : Finset ι} {f g : ι → ℕ} {a : ι}
    (ha : a ∈ s) (hsame : ∀ x ∈ s, x ≠ a → g x = f x) :
    ∑ x ∈ s, g x + f a = ∑ x ∈ s, f x + g a := by
  have hrest : ∑ x ∈ s.erase a, g x = ∑ x ∈ s.erase a, f x := by
    apply Finset.sum_congr rfl
    intro x hx
    exact hsame x (Finset.mem_of_mem_erase hx) (Finset.ne_of_mem_erase hx)
  rw [← Finset.add_sum_erase s f ha, ← Finset.add_sum_erase s g ha, hrest]
  omega

end Foundation
