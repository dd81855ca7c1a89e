import Mathlib.Algebra.BigOperators.Group.Finset.Basic
import Mathlib.Data.Multiset.Bind

/-!
# Foundation - Tables kept in parts

A table is a multiset of rows.  It may be kept in parts, each row in the part it belongs to,
and changed by operations that reach only some of the parts.  An operation is sound if the
parts it does not reach have no row it is about; then the parts stand for the table after it
as they did before.

Main results:

- Definition {lit}`Change`: rows are added, or each row is replaced by some rows.
- Definition {lit}`Refines`: the parts hold the rows of a table, each where it belongs.
- Theorem {lit}`Refines.change`: a sound change keeps this.
- Theorem {lit}`Refines.answer`: a query that reaches the rows it asks for finds them all.
-/

namespace Foundation.Partition

variable {σ ρ : Type*}

/-! ## Parts -/

/-- All rows of some parts. -/
def total (parts : List σ) (store : σ → Multiset ρ) : Multiset ρ :=
  (parts.map store).sum

@[simp]
theorem total_nil (store : σ → Multiset ρ) : total [] store = 0 :=
  rfl

@[simp]
theorem total_cons (s : σ) (parts : List σ) (store : σ → Multiset ρ) :
    total (s :: parts) store = store s + total parts store :=
  List.sum_cons

/-- Parts that hold the same rows. -/
theorem total_congr {parts : List σ} {store store' : σ → Multiset ρ}
    (h : ∀ s ∈ parts, store s = store' s) : total parts store = total parts store' := by
  unfold total
  rw [List.map_congr_left h]

/-- What is made of each row. -/
theorem map_total {τ : Type*} (f : ρ → τ) (parts : List σ) (store : σ → Multiset ρ) :
    (total parts store).map f = total parts fun s => (store s).map f := by
  induction parts with
  | nil => rfl
  | cons s parts ih => rw [total_cons, total_cons, Multiset.map_add, ih]

/-- Each row is kept in the part it belongs to. -/
def Placed (home : ρ → Option σ) (store : σ → Multiset ρ) : Prop :=
  ∀ s, ∀ row ∈ store s, home row = some s

/-- The rows of some parts that satisfy a condition. -/
def answer (targets : List σ) (p : ρ → Bool) (store : σ → Multiset ρ) : Multiset ρ :=
  total targets fun s => (store s).filter fun row => p row = true

/-- What all parts answer is what the whole would. -/
theorem filter_total (parts : List σ) (p : ρ → Bool) (store : σ → Multiset ρ) :
    (total parts store).filter (fun row => p row = true) = answer parts p store := by
  unfold answer
  induction parts with
  | nil => rfl
  | cons s parts ih => rw [total_cons, total_cons, Multiset.filter_add, ih]

/-! ## Parts that stand for a table -/

/-- The parts hold the rows of a table, each where it belongs. -/
structure Refines (home : ρ → Option σ) (parts : List σ) (store : σ → Multiset ρ)
    (table : Multiset ρ) : Prop where
  placed : Placed home store
  total_eq : total parts store = table

/-- Empty parts stand for the empty table. -/
theorem Refines.empty (home : ρ → Option σ) (parts : List σ) :
    Refines home parts (fun _ => 0) 0 where
  placed := by
    intro s row hrow
    exact absurd hrow (Multiset.notMem_zero row)
  total_eq := by
    induction parts with
    | nil => rfl
    | cons s parts ih => rw [total_cons, ih, add_zero]

/-! ## Changes -/

/-- A change of a table: rows are added, or each row is replaced by some rows. -/
inductive Change (ρ : Type*) where
  | add (rows : Multiset ρ)
  | rewrite (f : ρ → Multiset ρ)

/-- The table after a change. -/
def Change.apply : Change ρ → Multiset ρ → Multiset ρ
  | .add rows, table => table + rows
  | .rewrite f, table => table.bind f

variable [DecidableEq σ]

/-- The parts after a change that was made in some of them. -/
def Change.applyAt (change : Change ρ) (targets : List σ) (store : σ → Multiset ρ) :
    σ → Multiset ρ :=
  fun s => if s ∈ targets then change.apply (store s) else store s

/-- A change may be made in the given parts only: added rows belong to the one part they are
added to, and a row that is replaced is kept in one of the parts and stays there. -/
inductive Change.Sound (home : ρ → Option σ) (parts : List σ) : List σ → Change ρ → Prop where
  | add {s : σ} {rows : Multiset ρ} (hs : s ∈ parts) (hhome : ∀ row ∈ rows, home row = some s) :
      Change.Sound home parts [s] (.add rows)
  | rewrite {targets : List σ} {f : ρ → Multiset ρ}
      (hreach : ∀ row s, home row = some s → s ∉ targets → f row = {row})
      (hstay : ∀ row, ∀ row' ∈ f row, home row' = home row) :
      Change.Sound home parts targets (.rewrite f)

/-- Replacing rows by themselves changes nothing. -/
theorem bind_eq_self {table : Multiset ρ} {f : ρ → Multiset ρ} (h : ∀ row ∈ table, f row = {row}) :
    table.bind f = table := by
  rw [Multiset.bind_congr h, Multiset.bind_singleton, Multiset.map_id']

/-- The targets are rewritten for the whole, if the others have nothing to rewrite. -/
theorem total_rewrite {parts targets : List σ} {f : ρ → Multiset ρ} {store : σ → Multiset ρ}
    (h : ∀ s ∈ parts, s ∉ targets → ∀ row ∈ store s, f row = {row}) :
    total parts ((Change.rewrite f).applyAt targets store) = (total parts store).bind f := by
  induction parts with
  | nil => rfl
  | cons s parts ih =>
      rw [total_cons, total_cons, Multiset.add_bind,
        ih fun s' hs' => h s' (List.mem_cons_of_mem s hs')]
      congr 1
      unfold Change.applyAt
      by_cases hs : s ∈ targets
      · rw [if_pos hs, Change.apply]
      · rw [if_neg hs, bind_eq_self (h s List.mem_cons_self hs)]

/-- Rows added to one part are added to the whole. -/
theorem total_add {parts : List σ} (hnodup : parts.Nodup) {s : σ} (hs : s ∈ parts)
    (rows : Multiset ρ) (store : σ → Multiset ρ) :
    total parts ((Change.add rows).applyAt [s] store) = total parts store + rows := by
  induction parts with
  | nil => cases hs
  | cons t parts ih =>
      rcases List.nodup_cons.mp hnodup with ⟨ht, hparts⟩
      rw [total_cons, total_cons]
      by_cases hst : s = t
      · -- the other parts are not touched
        have hrest : total parts ((Change.add rows).applyAt [s] store) = total parts store := by
          apply total_congr
          intro s' hs'
          rw [Change.applyAt, if_neg]
          rw [List.mem_singleton]
          rintro rfl
          exact ht (hst ▸ hs')
        rw [hrest, Change.applyAt, if_pos (by rw [hst]; exact List.mem_singleton_self t),
          Change.apply, add_right_comm]
      · have hmem : s ∈ parts := (List.mem_cons.mp hs).resolve_left hst
        rw [ih hparts hmem, Change.applyAt,
          if_neg (fun h => hst (List.mem_singleton.mp h).symm), add_assoc]

theorem Placed.applyAt {home : ρ → Option σ} {store : σ → Multiset ρ} {parts targets : List σ}
    {change : Change ρ} (hplaced : Placed home store) (hsound : change.Sound home parts targets) :
    Placed home (change.applyAt targets store) := by
  intro s row hrow
  unfold Change.applyAt at hrow
  cases hsound with
  | @add t rows ht hhome =>
      by_cases hs : s ∈ [t]
      · rw [if_pos hs, Change.apply, Multiset.mem_add] at hrow
        rcases hrow with hold | hnew
        · exact hplaced s row hold
        · rw [hhome row hnew, List.mem_singleton.mp hs]
      · rw [if_neg hs] at hrow
        exact hplaced s row hrow
  | rewrite hreach hstay =>
      by_cases hs : s ∈ targets
      · rw [if_pos hs, Change.apply, Multiset.mem_bind] at hrow
        rcases hrow with ⟨old, hold, hnew⟩
        rw [hstay old row hnew]
        exact hplaced s old hold
      · rw [if_neg hs] at hrow
        exact hplaced s row hrow

/-! ## Sound changes -/

variable {home : ρ → Option σ} {parts : List σ}

/-- A sound change is made in the parts as it is made in the table. -/
theorem Refines.change (hnodup : parts.Nodup) {store : σ → Multiset ρ} {table : Multiset ρ}
    (h : Refines home parts store table) {targets : List σ} {change : Change ρ}
    (hsound : change.Sound home parts targets) :
    Refines home parts (change.applyAt targets store) (change.apply table) where
  placed := h.placed.applyAt hsound
  total_eq := by
    rw [← h.total_eq]
    cases hsound with
    | add hs hhome => rw [total_add hnodup hs, Change.apply]
    | rewrite hreach hstay =>
        rw [total_rewrite, Change.apply]
        intro s _ hs row hrow
        exact hreach row s (h.placed s row hrow) hs

/-- A query finds all rows it asks for in the parts it is sent to, if these are where such rows
belong. -/
theorem Refines.answer (hnodup : parts.Nodup) {store : σ → Multiset ρ} {table : Multiset ρ}
    (h : Refines home parts store table) {targets : List σ} (htargets : targets.Nodup)
    (hsub : targets ⊆ parts) {p : ρ → Bool}
    (hreach : ∀ row s, home row = some s → s ∉ targets → p row = false) :
    Partition.answer targets p store = table.filter fun row => p row = true := by
  have hempty : ∀ s, s ∉ targets → (store s).filter (fun row => p row = true) = 0 := by
    intro s hs
    rw [Multiset.filter_eq_nil]
    intro row hrow
    rw [hreach row s (h.placed s row hrow) hs]
    exact Bool.false_ne_true
  rw [← h.total_eq, filter_total, Partition.answer, Partition.answer, total, total,
    ← List.sum_toFinset _ htargets, ← List.sum_toFinset _ hnodup]
  apply Finset.sum_subset
  · intro s hs
    exact List.mem_toFinset.mpr (hsub (List.mem_toFinset.mp hs))
  · intro s _ hs
    exact hempty s fun hmem => hs (List.mem_toFinset.mpr hmem)

end Foundation.Partition
