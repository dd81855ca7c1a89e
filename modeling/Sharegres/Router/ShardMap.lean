import Sharegres.Foundation.ByteText

/-!
# Router - The shard map

Model of {lit}`src/router/shard_map.c`.  Shards of the global array are told apart
by their position in it; a rule's array of shard pointers is a list of shards.
A shard's connection pool is part of the proxy's state and not of this record.

Main results:

- Definitions {lit}`shardMapFindRule`, {lit}`shardMapFindByInt`,
  {lit}`shardMapFindByStr` and {lit}`shardMapGetAll`.
- Theorems {lit}`shardMapFindByInt_mem` and {lit}`shardMapFindByInt_isSome`: every
  key of a rule with shards has a home shard among them.
-/

namespace Sharegres

open Foundation

variable {s : Shard} {rule : TableRule}

/-- {lit}`ShardMethod`. -/
inductive ShardMethod where
  | range
  | hash
deriving DecidableEq, Repr

/-- {lit}`Shard`: position in the global array, name, connection string, which is NULL
until it is assigned, and key range. -/
@[ext]
structure Shard where
  index : Nat
  name : Text
  conninfo : Option Text
  keyRangeStart : UInt64
  keyRangeEnd : UInt64
deriving DecidableEq

/-- {lit}`TableRule`. -/
@[ext]
structure TableRule where
  tableName : Text
  shardColumn : Option Text
  method : ShardMethod
  broadcast : Bool
  shards : List Shard
deriving DecidableEq

/-- {lit}`ShardMap`. -/
structure ShardMap where
  shards : List Shard
  tableRules : List TableRule
  poolSize : Nat
deriving DecidableEq

/-- {lit}`shard_map_find_rule`. -/
def shardMapFindRule (map : ShardMap) (tableName : Text) : Option TableRule :=
  map.tableRules.find? fun r => decide (r.tableName = tableName)

/-- The key lies in the shard's half-open range of unsigned keys. -/
def Shard.covers (s : Shard) (ukey : UInt64) : Bool :=
  s.keyRangeStart ≤ ukey && ukey < s.keyRangeEnd

/-- The shard for an unsigned key: the first range that covers it or else the
first shard, and the remainder for hash rules. -/
def TableRule.home (rule : TableRule) (ukey : UInt64) : Option Shard :=
  match rule.method with
  | .range => (rule.shards.find? (Shard.covers · ukey)).or rule.shards.head?
  | .hash => rule.shards[ukey.toNat % rule.shards.length]?

/-- {lit}`shard_map_find_by_int`. -/
def shardMapFindByInt (rule : TableRule) (key : Int64) : Option Shard :=
  if rule.shards.length = 0 then none else rule.home key.toUInt64

/-- One round of the string hash; {lit}`char` is signed. -/
def hashByte (hash : UInt64) (b : UInt8) : UInt64 :=
  ((hash <<< 5) + hash) + b.toInt8.toInt64.toUInt64

/-- {lit}`shard_map_find_by_str`. -/
def shardMapFindByStr (rule : TableRule) (key : Text) : Option Shard :=
  if rule.shards.length = 0 then none else rule.home (key.foldl hashByte 5381)

/-- {lit}`shard_map_get_all`. -/
def shardMapGetAll (rule : TableRule) : List Shard :=
  rule.shards

/-! ## Home shards -/

theorem home_mem {ukey : UInt64} (h : rule.home ukey = some s) : s ∈ rule.shards := by
  unfold TableRule.home at h
  cases hm : rule.method with
  | range =>
      rw [hm] at h
      cases hf : rule.shards.find? (Shard.covers · ukey) with
      | some t =>
          simp only [hf, Option.some_or, Option.some.injEq] at h
          rw [← h]
          exact List.mem_of_find?_eq_some hf
      | none =>
          simp only [hf, Option.none_or] at h
          exact List.mem_of_head? h
  | hash =>
      rw [hm] at h
      exact List.mem_of_getElem? h

theorem home_isSome (hne : rule.shards ≠ []) (ukey : UInt64) :
    (rule.home ukey).isSome = true := by
  have hlen : 0 < rule.shards.length := List.length_pos_iff.mpr hne
  unfold TableRule.home
  cases rule.method with
  | range =>
      rw [Option.isSome_or, Bool.or_eq_true]
      exact Or.inr (List.isSome_head?.mpr hne)
  | hash => simp [Nat.mod_lt _ hlen]

/-- The home shard of a key is one of the rule's shards. -/
theorem shardMapFindByInt_mem {key : Int64} (h : shardMapFindByInt rule key = some s) :
    s ∈ rule.shards := by
  unfold shardMapFindByInt at h
  split at h
  · simp at h
  · exact home_mem h

theorem shardMapFindByStr_mem {key : Text} (h : shardMapFindByStr rule key = some s) :
    s ∈ rule.shards := by
  unfold shardMapFindByStr at h
  split at h
  · simp at h
  · exact home_mem h

/-- A rule with shards has a home for every key. -/
theorem shardMapFindByInt_isSome (hne : rule.shards ≠ []) (key : Int64) :
    (shardMapFindByInt rule key).isSome = true := by
  unfold shardMapFindByInt
  rw [if_neg (by simpa using hne)]
  exact home_isSome hne _

end Sharegres
