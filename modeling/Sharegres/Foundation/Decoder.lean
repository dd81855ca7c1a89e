import Mathlib.Tactic.Common

/-!
# Foundation - Decoders

Readers that take a value from the front of a list and leave the rest.  A reader decodes an
encoding if it finds the value in front of any rest; such facts compose along the sequence of
readers.

Main results:

- Definition {lit}`Decodes`: a reader finds a value in front of any rest.
- Theorems {lit}`Decodes.bind` and {lit}`Decodes.many`: readers in sequence.
- Theorem {lit}`Decodes.complete`: a list that is one encoding.
-/

namespace Foundation

universe u

variable {τ α β : Type u}

/-- A reader of a list, which has no result if the list is not as it expects. -/
abbrev Decoder (τ α : Type u) := StateT (List τ) Option α

namespace Decoder

/-- A number of elements. -/
def take (n : Nat) : Decoder τ (List τ) := fun xs =>
  if n ≤ xs.length then some (xs.take n, xs.drop n) else none

/-- The elements in front of a terminator, which is read as well. -/
def upTo [DecidableEq τ] (stop : τ) : Decoder τ (List τ) := fun xs =>
  if stop ∈ xs then
    some (xs.takeWhile (· ≠ stop), xs.drop ((xs.takeWhile (· ≠ stop)).length + 1))
  else none

/-- A number of values. -/
def many (d : Decoder τ α) : Nat → Decoder τ (List α)
  | 0 => pure []
  | n + 1 => do
      let a ← d
      let as ← many d n
      pure (a :: as)

/-- The value in a list of which nothing is left. -/
def complete (d : Decoder τ α) (xs : List τ) : Option α :=
  (d.run xs).bind fun r => if r.2.isEmpty then some r.1 else none

end Decoder

/-- A reader finds a value in front of any rest. -/
def Decodes (d : Decoder τ α) (xs : List τ) (a : α) : Prop :=
  ∀ rest, d.run (xs ++ rest) = some (a, rest)

namespace Decodes

theorem pure (a : α) : Decodes (pure a : Decoder τ α) [] a :=
  fun _ => rfl

/-- Readers in sequence. -/
theorem bind {d : Decoder τ α} {f : α → Decoder τ β} {xs ys : List τ} {a : α} {b : β}
    (h : Decodes d xs a) (hf : Decodes (f a) ys b) : Decodes (d >>= f) (xs ++ ys) b := by
  intro rest
  rw [StateT.run_bind, List.append_assoc, h (ys ++ rest)]
  exact hf rest

/-- The last reader of a sequence. -/
theorem last {d : Decoder τ α} {f : α → Decoder τ β} {xs : List τ} {a : α} {b : β}
    (h : Decodes d xs a) (hf : Decodes (f a) [] b) : Decodes (d >>= f) xs b := by
  have hboth := h.bind hf
  rwa [List.append_nil] at hboth

theorem take (xs : List τ) : Decodes (Decoder.take xs.length) xs xs := by
  intro rest
  rw [StateT.run, Decoder.take, if_pos (by rw [List.length_append]; omega), List.take_left,
    List.drop_left]

/-- Tokens up to a stop. -/
theorem upTo [DecidableEq τ] {stop : τ} {xs : List τ} (hxs : stop ∉ xs) :
    Decodes (Decoder.upTo stop) (xs ++ [stop]) xs := by
  intro rest
  have hfront : (xs ++ [stop] ++ rest).takeWhile (· ≠ stop) = xs := by
    rw [List.append_assoc, List.takeWhile_append_of_pos]
    · simp
    · intro x hx
      simp only [ne_eq, decide_eq_true_eq]
      rintro rfl
      exact hxs hx
  rw [StateT.run, Decoder.upTo, if_pos (by simp), hfront,
    show xs.length + 1 = (xs ++ [stop]).length by simp, List.drop_left]

/-- One reader for each value. -/
theorem many {d : Decoder τ β} {encode : α → List τ} {f : α → β} {as : List α}
    (h : ∀ a ∈ as, Decodes d (encode a) (f a)) :
    Decodes (d.many as.length) (as.flatMap encode) (as.map f) := by
  induction as with
  | nil => exact Decodes.pure []
  | cons a as ih =>
      have hrest := ih fun b hb => h b (List.mem_cons_of_mem _ hb)
      rw [List.flatMap_cons]
      exact (h a List.mem_cons_self).bind (hrest.last (Decodes.pure (f a :: as.map f)))

/-- A list that is one encoding. -/
theorem complete {d : Decoder τ α} {xs : List τ} {a : α} (h : Decodes d xs a) :
    d.complete xs = some a := by
  have hall := h []
  rw [List.append_nil] at hall
  rw [Decoder.complete, hall]
  rfl

end Decodes

end Foundation
