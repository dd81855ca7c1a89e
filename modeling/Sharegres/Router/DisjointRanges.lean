import Mathlib.Data.List.Pairwise
import Mathlib.Data.Set.Lattice
import Mathlib.Order.CompletePartialOrder
import Sharegres.Router.ShardMap

/-!
# Router - Ranges that do not overlap

A range rule searches its list for the first shard whose interval covers a key, and falls back
to the first shard.  If the intervals do not overlap, a key that lies in one of them has its
home there, whatever else the list holds and in which order.

Main results:

- Definition {lit}`ShardKey`: a number or a text, each with its place among the unsigned keys.
- Theorem {lit}`ShardKey.find_of_unique`: a key that one shard covers alone.
- Theorem {lit}`home_independent_of_list`: the home of a key does not depend on the order of
  the list, on further shards, or on shards that do not cover it.
-/

namespace Sharegres

open Foundation

/-! ## Keys and intervals -/

/-- A key as a statement has it. -/
inductive ShardKey where
  | int (key : Int64)
  | str (key : Text)
deriving DecidableEq

namespace ShardKey

/-- The unsigned key that is searched for: the number itself, or the hash of a text. -/
def ukey : ShardKey → UInt64
  | int key => key.toUInt64
  | str key => key.foldl hashByte 5381

/-- The lookup for the key. -/
def find (rule : TableRule) : ShardKey → Option Shard
  | int key => shardMapFindByInt rule key
  | str key => shardMapFindByStr rule key

/-- The lookup of a key is the home of its unsigned key. -/
theorem find_eq_home {rule : TableRule} (hne : rule.shards ≠ []) (key : ShardKey) :
    key.find rule = rule.home key.ukey := by
  have hlen : rule.shards.length ≠ 0 := by simpa using hne
  cases key with
  | int key => rw [find, shardMapFindByInt, if_neg hlen, ukey]
  | str key => rw [find, shardMapFindByStr, if_neg hlen, ukey]

end ShardKey

/-- The unsigned keys of a shard. -/
def Shard.interval (s : Shard) : Set UInt64 :=
  {ukey | s.keyRangeStart ≤ ukey ∧ ukey < s.keyRangeEnd}

/-- A shard covers the interval of its range. -/
theorem Shard.covers_iff {s : Shard} {ukey : UInt64} :
    s.covers ukey = true ↔ ukey ∈ s.interval := by
  simp [Shard.covers, Shard.interval]

/-- The intervals of two shards do not overlap. -/
def Shard.Apart (s t : Shard) : Prop :=
  Disjoint s.interval t.interval

instance : Std.Symm Shard.Apart where
  symm _ _ h := Disjoint.symm h

/-! ## Lookups -/

/-- The first that fits is the only one that fits. -/
theorem find?_of_unique {α : Type*} {p : α → Bool} {xs : List α} {a : α} (hmem : a ∈ xs)
    (hp : p a = true) (hunique : ∀ b ∈ xs, p b = true → b = a) : xs.find? p = some a := by
  cases hfind : xs.find? p with
  | none => exact absurd hp (List.find?_eq_none.mp hfind a hmem)
  | some b =>
      have hb := hunique b (List.mem_of_find?_eq_some hfind) (List.find?_some hfind)
      rw [hb]

/-- A key that one shard covers alone has its home there. -/
theorem ShardKey.find_of_unique {rule : TableRule} {key : ShardKey} {s : Shard}
    (hrange : rule.method = .range) (hs : s ∈ rule.shards) (hkey : key.ukey ∈ s.interval)
    (hunique : ∀ t ∈ rule.shards, key.ukey ∈ t.interval → t = s) : key.find rule = some s := by
  have hfind : rule.shards.find? (Shard.covers · key.ukey) = some s := by
    refine find?_of_unique hs (Shard.covers_iff.mpr hkey) fun t ht hcovers => ?_
    exact hunique t ht (Shard.covers_iff.mp hcovers)
  rw [find_eq_home (List.ne_nil_of_mem hs), TableRule.home, hrange]
  simp [hfind]

/-- Among shards that do not overlap only one covers a key. -/
theorem eq_of_covered {shards : List Shard} (hapart : shards.Pairwise Shard.Apart)
    {ukey : UInt64} {s t : Shard} (hs : s ∈ shards) (ht : t ∈ shards)
    (hins : ukey ∈ s.interval) (hint : ukey ∈ t.interval) : t = s := by
  by_contra hne
  have hdisjoint : t.Apart s := hapart.forall ht hs hne
  exact Set.disjoint_left.mp hdisjoint hint hins

/-- In a range rule without overlaps, a key that lies in an interval has the shard of this
interval, and no other, for its home; and so it has in every order of the list, among further
shards that do not overlap, and when shards without the key are taken away. -/
theorem home_independent_of_list (rule : TableRule) (hrange : rule.method = .range)
    (hapart : rule.shards.Pairwise Shard.Apart) (key : ShardKey) {s : Shard}
    (hs : s ∈ rule.shards) (hkey : key.ukey ∈ s.interval) :
    (key.find rule = some s ∧ ∀ t ∈ rule.shards, key.ukey ∈ t.interval → t = s) ∧
    (∀ shards, shards.Perm rule.shards → key.find { rule with shards := shards } = some s) ∧
    (∀ shards, rule.shards ⊆ shards → shards.Pairwise Shard.Apart →
      key.find { rule with shards := shards } = some s) ∧
    ∀ shards, shards ⊆ rule.shards →
      (∀ t ∈ rule.shards, t ∉ shards → key.ukey ∉ t.interval) →
      key.find { rule with shards := shards } = some s := by
  have hunique : ∀ t ∈ rule.shards, key.ukey ∈ t.interval → t = s :=
    fun t ht => eq_of_covered hapart hs ht hkey
  refine ⟨⟨ShardKey.find_of_unique hrange hs hkey hunique, hunique⟩, ?_, ?_, ?_⟩
  · intro shards hperm
    refine ShardKey.find_of_unique hrange (hperm.mem_iff.mpr hs) hkey fun t ht => ?_
    exact hunique t (hperm.mem_iff.mp ht)
  · intro shards hmore hapart'
    refine ShardKey.find_of_unique hrange (hmore hs) hkey fun t ht => ?_
    exact eq_of_covered hapart' (hmore hs) ht hkey
  · intro shards hfewer hremoved
    have hkept : s ∈ shards := by
      by_contra hgone
      exact hremoved s hs hgone hkey
    exact ShardKey.find_of_unique hrange hkept hkey fun t ht => hunique t (hfewer ht)

theorem covered_key_home :
    (ShardKey.int 12).find
        ⟨ascii "t", ascii "id", .range, false,
          [⟨1, ascii "b", ascii "y", 10, 20⟩, ⟨0, ascii "a", ascii "x", 0, 10⟩]⟩ =
      some ⟨1, ascii "b", ascii "y", 10, 20⟩ := by
  have happart : [(⟨0, ascii "a", ascii "x", 0, 10⟩ : Shard),
      ⟨1, ascii "b", ascii "y", 10, 20⟩].Pairwise Shard.Apart := by
    refine List.pairwise_pair.mpr (Set.disjoint_left.mpr ?_)
    rintro ukey ⟨-, hlow⟩ ⟨hhigh, -⟩
    rw [UInt64.lt_iff_toNat_lt] at hlow
    rw [UInt64.le_iff_toNat_le] at hhigh
    exact absurd (Nat.lt_of_lt_of_le hlow hhigh) (Nat.lt_irrefl _)
  exact (home_independent_of_list ⟨ascii "t", ascii "id", .range, false, _⟩ rfl happart (.int 12)
    (List.mem_cons_of_mem _ List.mem_cons_self) (by constructor <;> decide)).2.1 _
      (List.Perm.swap ..)

end Sharegres
