import Mathlib.Tactic.Common

/-!
# Foundation - Buffers that grow

An allocation of which the first elements are the content.  Elements are appended behind
the content, after the allocation was doubled as often as needed; elements of the content
can be written over in place.

Main results:

- Definition {lit}`GrowBuffer`: the allocation is never empty and never too small.
- Theorem {lit}`GrowBuffer.content_append`: appending extends the content.
- Theorem {lit}`GrowBuffer.content_patch`: writing over a part of the content.
-/

namespace Foundation

variable {α : Type*}

/-- Write elements over those from an offset on. -/
def splice (cells : List α) (off : Nat) (xs : List α) : List α :=
  cells.take off ++ xs ++ cells.drop (off + xs.length)

/-- Writing makes nothing shorter. -/
theorem length_le_splice (cells : List α) (off : Nat) (xs : List α) :
    cells.length ≤ (splice cells off xs).length := by
  simp only [splice, List.length_append, List.length_take, List.length_drop]
  omega

/-- Elements written behind a front. -/
theorem take_splice_end {cells : List α} {off : Nat} (xs : List α) (h : off ≤ cells.length) :
    (splice cells off xs).take (off + xs.length) = cells.take off ++ xs := by
  have hlen : (cells.take off ++ xs).length = off + xs.length := by
    rw [List.length_append, List.length_take, Nat.min_eq_left h]
  rw [splice, ← hlen, List.take_left]

/-- Elements written within a front. -/
theorem take_splice {cells xs : List α} {off n : Nat} (hoff : off + xs.length ≤ n)
    (hn : n ≤ cells.length) :
    (splice cells off xs).take n = splice (cells.take n) off xs := by
  have hlen : (cells.take off ++ xs).length = off + xs.length := by
    rw [List.length_append, List.length_take, Nat.min_eq_left (by omega)]
  rw [splice, splice, List.take_append, List.take_of_length_le (by omega), List.take_take,
    Nat.min_eq_left (by omega), List.drop_take, hlen]

/-- Double a size until it suffices. -/
def doubled (needed cap : Nat) (hcap : 0 < cap) : Nat :=
  if cap < needed then doubled needed (cap * 2) (by omega) else cap
termination_by needed - cap

theorem le_doubled (needed cap : Nat) (hcap : 0 < cap) :
    needed ≤ doubled needed cap hcap ∧ cap ≤ doubled needed cap hcap := by
  rw [doubled]
  split
  · have hmore := le_doubled needed (cap * 2) (by omega)
    omega
  · omega
termination_by needed - cap

/-- An allocation and the length of its content. -/
structure GrowBuffer (α : Type*) where
  cells : List α
  len : Nat
  inBounds : len ≤ cells.length
  allocated : 0 < cells.length

namespace GrowBuffer

variable (b : GrowBuffer α)

/-- The elements in use. -/
def content : List α :=
  b.cells.take b.len

/-- Forget the content. -/
def reset : GrowBuffer α :=
  { b with len := 0, inBounds := Nat.zero_le _ }

/-- Write over the content from an offset on. -/
def patch (off : Nat) (xs : List α) : GrowBuffer α where
  cells := splice b.cells off xs
  len := b.len
  inBounds := Nat.le_trans b.inBounds (length_le_splice ..)
  allocated := Nat.lt_of_lt_of_le b.allocated (length_le_splice ..)

/-- Make room for a number of elements.  The allocator leaves the new ones undefined, and
nothing reads them. -/
def reserve [Inhabited α] (n : Nat) : GrowBuffer α :=
  if b.len + n ≤ b.cells.length then b
  else
    { cells := b.cells ++ List.replicate
        (doubled (b.len + n) (b.cells.length * 2) (by have := b.allocated; omega) -
          b.cells.length) default
      len := b.len
      inBounds := by
        have := b.inBounds
        rw [List.length_append]
        omega
      allocated := by
        have := b.allocated
        rw [List.length_append]
        omega }

/-- Append elements. -/
def append [Inhabited α] (xs : List α) : GrowBuffer α where
  cells := splice (b.reserve xs.length).cells b.len xs
  len := b.len + xs.length
  inBounds := by
    rw [splice]
    simp only [List.length_append, List.length_take, List.length_drop]
    have hlen : b.len ≤ (b.reserve xs.length).cells.length := by
      unfold reserve
      split
      · exact b.inBounds
      · have := b.inBounds
        rw [List.length_append]
        omega
    omega
  allocated := by
    have hallocated := (b.reserve xs.length).allocated
    exact Nat.lt_of_lt_of_le hallocated (length_le_splice ..)

@[simp]
theorem content_length : b.content.length = b.len := by
  rw [content, List.length_take, Nat.min_eq_left b.inBounds]

/-- Making room keeps the content. -/
theorem reserve_spec [Inhabited α] (n : Nat) :
    (b.reserve n).cells.take b.len = b.content ∧ b.len + n ≤ (b.reserve n).cells.length := by
  unfold reserve
  split
  · exact ⟨rfl, by assumption⟩
  · have hroom := (le_doubled (b.len + n) (b.cells.length * 2)
      (by have := b.allocated; omega)).1
    refine ⟨?_, ?_⟩
    · exact List.take_append_of_le_length b.inBounds
    · rw [List.length_append, List.length_replicate]
      omega

/-- Appending extends the content. -/
@[simp]
theorem content_append [Inhabited α] (xs : List α) : (b.append xs).content = b.content ++ xs := by
  rcases b.reserve_spec xs.length with ⟨hfront, hroom⟩
  unfold content append
  dsimp only
  rw [take_splice_end xs (by omega), hfront]
  rfl

@[simp]
theorem append_len [Inhabited α] (xs : List α) : (b.append xs).len = b.len + xs.length :=
  rfl

/-- Writing over a part of the content. -/
theorem content_patch {off : Nat} {xs : List α} (h : off + xs.length ≤ b.len) :
    (b.patch off xs).content = splice b.content off xs :=
  take_splice h b.inBounds

end GrowBuffer

end Foundation
