import Mathlib.Data.List.Basic

/-!
# Foundation - Arrays used as stacks

An array of cells together with the number of cells in use, as C code keeps a stack in
an allocated block: the cells in use stand at the front, and a cell that is no longer in
use may hold anything.  An element inside is deleted by shifting those above it down by
one.

Main results:

- Definition {lit}`SlotArray.Holds`: the list that an array represents.
- Theorems {lit}`Holds.pop`, {lit}`Holds.push` and {lit}`Holds.delete`: the operations on
  the array are those on the list.
-/

namespace Foundation

/-- An array of cells and the number of cells in use. -/
structure SlotArray (α : Type*) where
  cells : List (Option α)
  count : Int

namespace SlotArray

variable {α : Type*} {a : SlotArray α} {l l₁ l₂ : List α} {x : α}

/-- An allocated block of empty cells. -/
def zeroed (size : Nat) : SlotArray α where
  cells := List.replicate size none
  count := 0

/-- Take the last element in use and clear its cell. -/
def pop (a : SlotArray α) : Option α × SlotArray α :=
  let i := (a.count - 1).toNat
  (a.cells.getD i none, { cells := a.cells.set i none, count := a.count - 1 })

/-- Put an element behind the last one in use. -/
def push (a : SlotArray α) (x : α) : SlotArray α where
  cells := a.cells.set a.count.toNat (some x)
  count := a.count + 1

/-- Copy each of {lit}`n` cells from {lit}`j` on from the one above it. -/
def shiftDown (j : Nat) : Nat → List (Option α) → List (Option α)
  | 0, cells => cells
  | n + 1, cells => shiftDown (j + 1) n (cells.set j (cells.getD (j + 1) none))

/-- Delete the element in cell {lit}`i`. -/
def delete (a : SlotArray α) (i : Nat) : SlotArray α where
  cells := shiftDown i (a.count - 1 - i).toNat a.cells
  count := a.count - 1

/-- The cells in use hold the elements of a list. -/
structure Holds (a : SlotArray α) (l : List α) : Prop where
  count : a.count = l.length
  cells : ∃ rest, a.cells = l.map some ++ rest

theorem holds_zeroed (size : Nat) : (zeroed size : SlotArray α).Holds [] :=
  ⟨rfl, _, rfl⟩

@[simp]
theorem pop_length (a : SlotArray α) : a.pop.2.cells.length = a.cells.length :=
  List.length_set

@[simp]
theorem push_length (a : SlotArray α) (x : α) : (a.push x).cells.length = a.cells.length :=
  List.length_set

/-- The cells are moved in place. -/
theorem shiftDown_length (j n : Nat) (cells : List (Option α)) :
    (shiftDown j n cells).length = cells.length := by
  induction n generalizing j cells with
  | zero => rfl
  | succ n ih => rw [shiftDown, ih, List.length_set]

@[simp]
theorem delete_length (a : SlotArray α) (i : Nat) :
    (a.delete i).cells.length = a.cells.length :=
  shiftDown_length ..

/-- The cells in use, read off the array. -/
theorem Holds.take (h : a.Holds l) : a.cells.take a.count.toNat = l.map some := by
  rcases h.cells with ⟨rest, hcells⟩
  rw [hcells, h.count, Int.toNat_natCast]
  exact List.take_left' (List.length_map ..)

/-- Write the cell behind the elements of a list. -/
theorem set_behind (l : List α) (y z : Option α) (rest : List (Option α)) :
    (l.map some ++ y :: rest).set l.length z = l.map some ++ z :: rest := by
  simp

/-- The cell of an element in use. -/
theorem Holds.getD (h : a.Holds (l₁ ++ x :: l₂)) :
    a.cells.getD l₁.length none = some x := by
  rcases h.cells with ⟨rest, hcells⟩
  rw [hcells]
  simp

/-- The last one is taken. -/
theorem Holds.pop (h : a.Holds (l ++ [x])) : a.pop.1 = some x ∧ a.pop.2.Holds l := by
  have hindex : (a.count - 1).toNat = l.length := by
    rw [h.count, List.length_append, List.length_singleton]
    omega
  unfold SlotArray.pop
  dsimp only
  rw [hindex]
  refine ⟨h.getD, ?_, ?_⟩
  · change a.count - 1 = _
    rw [h.count, List.length_append, List.length_singleton]
    omega
  · rcases h.cells with ⟨rest, hcells⟩
    refine ⟨none :: rest, ?_⟩
    rw [List.map_append, List.append_assoc] at hcells
    dsimp only
    rw [hcells]
    exact set_behind ..

/-- One more, if there is a cell for it. -/
theorem Holds.push (h : a.Holds l) (hroom : l.length < a.cells.length) :
    (a.push x).Holds (l ++ [x]) := by
  have hindex : a.count.toNat = l.length := by
    rw [h.count, Int.toNat_natCast]
  constructor
  · change a.count + 1 = _
    rw [h.count, List.length_append, List.length_singleton]
    rfl
  · rcases h.cells with ⟨rest, hcells⟩
    cases rest with
    | nil =>
        rw [hcells, List.append_nil, List.length_map] at hroom
        omega
    | cons y rest =>
        refine ⟨rest, ?_⟩
        change a.cells.set a.count.toNat (some x) = _
        rw [hindex, hcells, set_behind, List.map_append, List.append_assoc]
        rfl

/-- The loop moves the elements above a cell down by one and leaves the last of them in
its old cell as well. -/
theorem shiftDown_eq (front : List (Option α)) (y : Option α) (above rest : List (Option α)) :
    ∃ rest', shiftDown front.length above.length (front ++ y :: (above ++ rest)) =
      front ++ (above ++ rest') := by
  induction above generalizing front y with
  | nil => exact ⟨y :: rest, rfl⟩
  | cons z above ih =>
      rw [List.length_cons, shiftDown]
      have hnext : (front ++ y :: (z :: above ++ rest)).getD (front.length + 1) none = z := by
        simp
      have hset : (front ++ y :: (z :: above ++ rest)).set front.length z =
          (front ++ [z]) ++ z :: (above ++ rest) := by
        simp
      rw [hnext, hset]
      rcases ih (front ++ [z]) z with ⟨rest', hshift⟩
      rw [List.length_append, List.length_singleton] at hshift
      refine ⟨rest', ?_⟩
      rw [hshift, List.append_assoc]
      rfl

/-- One is deleted, and those behind it move down. -/
theorem Holds.delete (h : a.Holds (l₁ ++ x :: l₂)) :
    (a.delete l₁.length).Holds (l₁ ++ l₂) := by
  have habove : (a.count - 1 - l₁.length).toNat = (l₂.map some : List (Option α)).length := by
    rw [h.count, List.length_append, List.length_cons, List.length_map]
    omega
  constructor
  · change a.count - 1 = _
    rw [h.count, List.length_append, List.length_append, List.length_cons]
    omega
  · rcases h.cells with ⟨rest, hcells⟩
    rcases shiftDown_eq (l₁.map some) (some x) (l₂.map some) rest with ⟨rest', hshift⟩
    refine ⟨rest', ?_⟩
    change shiftDown l₁.length _ a.cells = _
    rw [habove, hcells, List.map_append, List.map_append, List.map_cons, List.append_assoc,
      List.append_assoc]
    rw [show (l₁.map some : List (Option α)).length = l₁.length from List.length_map ..]
      at hshift
    exact hshift

end SlotArray

end Foundation
