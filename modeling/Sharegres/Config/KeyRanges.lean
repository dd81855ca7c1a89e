import Sharegres.Config.LoadedMap

/-!
# Config - Key ranges as they are written

The ends of a key range are decimal integers in the configuration.  {lit}`strtoull` stores
them modulo 2^64, and the lookup takes the signed key modulo 2^64 as well, so that the order
of the integers is lost around zero and above 2^63.

Main results:

- Definition {lit}`decimalInt`: the integer a decimal numeral stands for.
- Theorem {lit}`strtoull_decimal`: what is stored for it.
- Theorem {lit}`covers_iff_written`: the keys that a written range covers.
- Theorem {lit}`ranges_respected_iff`: when a lookup respects the ranges that are written.
- Theorem {lit}`negative_range_missed`: ranges with negative ends or large ones.
-/

namespace Sharegres

open Foundation

variable {rule : TableRule} {file : Text}

/-! ## Decimal integers -/

/-- The number that decimal digits stand for. -/
def decimalNat (p : Text) : Option Nat :=
  if p ≠ [] ∧ p.all isDigit = true then some (readDigits 0 p) else none

/-- The integer that a decimal numeral stands for: digits behind a sign or none. -/
def decimalInt : Text → Option Int
  | [] => none
  | b :: q =>
      if b = minusSign then (decimalNat q).map fun n : Nat => -(n : Int)
      else if b = plusSign then (decimalNat q).map fun n : Nat => (n : Int)
      else (decimalNat (b :: q)).map fun n : Nat => (n : Int)

/-- The integer has 64 bits, with a sign or without. -/
def Fits64 (n : Int) : Prop :=
  -2 ^ 63 ≤ n ∧ n < 2 ^ 64

instance (n : Int) : Decidable (Fits64 n) :=
  inferInstanceAs (Decidable (_ ∧ _))

theorem decimalNat_eq_some {p : Text} {n : Nat} (h : decimalNat p = some n) :
    p ≠ [] ∧ p.all isDigit = true ∧ readDigits 0 p = n := by
  unfold decimalNat at h
  split at h
  · rename_i hp
    exact ⟨hp.1, hp.2, Option.some.inj h⟩
  · cases h

/-- A number of 64 bits is not clamped. -/
theorem clamped_toNat {n : Nat} (h : n < 2 ^ 64) : (strtoull.clamped n).toNat = n := by
  rw [strtoull.clamped, Nat.min_eq_left (by omega), UInt64.toNat_ofNat']
  exact Nat.mod_eq_of_lt h

/-- An integer of 64 bits is stored modulo 2^64. -/
theorem strtoull_decimal {p : Text} {n : Int} (h : decimalInt p = some n) (hfits : Fits64 n) :
    ((strtoull p).toNat : Int) = n % 2 ^ 64 := by
  rcases hfits with ⟨hlow, hhigh⟩
  cases p with
  | nil => cases h
  | cons b q =>
      rw [decimalInt] at h
      have hsign : isSpace minusSign = false ∧ isSpace plusSign = false := by decide
      by_cases hminus : b = minusSign
      · rw [if_pos hminus] at h
        rcases Option.map_eq_some_iff.mp h with ⟨m, hm, rfl⟩
        have hread := (decimalNat_eq_some hm).2.2
        have hm64 : m < 2 ^ 64 := by omega
        rw [strtoull, hminus, skipSpace_cons_of_not hsign.1]
        dsimp only
        rw [if_pos rfl, hread, if_neg (by omega), UInt64.toNat_neg, UInt64.toNat_ofNat',
          Nat.mod_eq_of_lt hm64, show UInt64.size = 2 ^ 64 from rfl]
        omega
      · rw [if_neg hminus] at h
        by_cases hplus : b = plusSign
        · rw [if_pos hplus] at h
          rcases Option.map_eq_some_iff.mp h with ⟨m, hm, rfl⟩
          have hread := (decimalNat_eq_some hm).2.2
          rw [strtoull, hplus, skipSpace_cons_of_not hsign.2]
          dsimp only
          rw [if_neg (by decide), if_pos rfl, hread, clamped_toNat (by omega)]
          omega
        · rw [if_neg hplus] at h
          rcases Option.map_eq_some_iff.mp h with ⟨m, hm, rfl⟩
          rcases decimalNat_eq_some hm with ⟨-, hdigits, hread⟩
          have hdigit : isDigit b = true := List.all_eq_true.mp hdigits b List.mem_cons_self
          rw [strtoull, skipSpace_cons_of_not (isDigit_not_special hdigit).1]
          dsimp only
          rw [if_neg hminus, if_neg hplus, hread, clamped_toNat (by omega)]
          omega

/-- A signed key is taken modulo 2^64. -/
theorem toUInt64_toNat (key : Int64) : (key.toUInt64.toNat : Int) = key.toInt % 2 ^ 64 := by
  have hbits : key.toUInt64.toNat = key.toBitVec.toNat := rfl
  have hint : key.toInt = key.toBitVec.toInt := rfl
  have hlt := key.toBitVec.isLt
  rw [hbits, hint, BitVec.toInt_eq_toNat_cond]
  split <;> omega

/-! ## Written ranges -/

/-- A range of integers of 64 bits that is not empty. -/
structure KeyRange where
  start : Int
  stop : Int
  start_lt : start < stop
  start_fits : Fits64 start
  stop_fits : Fits64 stop

namespace KeyRange

/-- The integer lies in the range. -/
def Holds (r : KeyRange) (k : Int) : Prop :=
  r.start ≤ k ∧ k < r.stop

/-- The range begins below zero and does not end there.  Its begin is stored above its end,
unless the end is so large that some negative keys are left between them. -/
def Misses (r : KeyRange) (k : Int) : Prop :=
  r.start < 0 ∧ 0 ≤ r.stop ∧ (0 ≤ k ∨ r.stop ≤ k + 2 ^ 64)

/-- The key is negative, and the range holds the number that is stored for it. -/
def Claims (r : KeyRange) (k : Int) : Prop :=
  0 ≤ r.start ∧ k < 0 ∧ r.Holds (k + 2 ^ 64)

instance (r : KeyRange) (k : Int) : Decidable (r.Holds k) :=
  inferInstanceAs (Decidable (_ ∧ _))

/-- A key that is only claimed is not held. -/
theorem Claims.not_holds {r : KeyRange} {k : Int} (h : r.Claims k) : ¬ r.Holds k := by
  rintro ⟨hstart, -⟩
  rcases h with ⟨hnonneg, hneg, -⟩
  omega

/-- The order of stored numbers: a key is between the ends if the range holds and does not miss
it, or claims it. -/
theorem stored_between_iff (r : KeyRange) {k : Int} (hlow : -2 ^ 63 ≤ k) (hhigh : k < 2 ^ 63) :
    (r.start % 2 ^ 64 ≤ k % 2 ^ 64 ∧ k % 2 ^ 64 < r.stop % 2 ^ 64) ↔
      r.Holds k ∧ ¬ r.Misses k ∨ r.Claims k := by
  rcases r with ⟨start, stop, hlt, ⟨hstart, hstart'⟩, ⟨hstop, hstop'⟩⟩
  unfold Holds Misses Claims Holds
  dsimp only
  -- each of the three numbers is stored as it is or with 2^64 added
  have hstored : ∀ n : Int, -2 ^ 63 ≤ n → n < 2 ^ 64 →
      0 ≤ n ∧ n % 2 ^ 64 = n ∨ n < 0 ∧ n % 2 ^ 64 = n + 2 ^ 64 := by
    intro n _ _
    omega
  rcases hstored start hstart hstart' with ⟨hs, hs'⟩ | ⟨hs, hs'⟩ <;>
    rcases hstored stop hstop hstop' with ⟨he, he'⟩ | ⟨he, he'⟩ <;>
    rcases hstored k hlow (by omega) with ⟨hk, hk'⟩ | ⟨hk, hk'⟩ <;>
    rw [hs', he', hk'] <;> omega

end KeyRange

/-- The range that is written for a shard in a file. -/
def Ranged (file : Text) (s : Shard) (r : KeyRange) : Prop :=
  (lastValue (takenShards file) s.name (ascii "key_range_start")).bind decimalInt = some r.start ∧
    (lastValue (takenShards file) s.name (ascii "key_range_end")).bind decimalInt = some r.stop

instance (file : Text) (s : Shard) (r : KeyRange) : Decidable (Ranged file s r) :=
  inferInstanceAs (Decidable (_ ∧ _))

/-- What is stored for the end of a range. -/
theorem rangeValue_toNat {val : Option Text} {n : Int} (h : val.bind decimalInt = some n)
    (hfits : Fits64 n) : ((rangeValue val).toNat : Int) = n % 2 ^ 64 := by
  rcases Option.bind_eq_some_iff.mp h with ⟨p, rfl, hp⟩
  rw [rangeValue, Option.map_some, Option.getD_some, strtoull_decimal hp hfits]

/-- The keys that a shard covers, in terms of the range that is written for it. -/
theorem covers_iff_written {s : Shard} {r : KeyRange} (hs : s ∈ (loadedMap file).shards)
    (hranged : Ranged file s r) (key : Int64) :
    s.covers key.toUInt64 = true ↔
      r.Holds key.toInt ∧ ¬ r.Misses key.toInt ∨ r.Claims key.toInt := by
  have hlow : -2 ^ 63 ≤ key.toInt := key.le_toInt
  have hhigh : key.toInt < 2 ^ 63 := key.toInt_lt
  rw [← r.stored_between_iff hlow hhigh, ← toUInt64_toNat]
  rcases mem_loadedMap_shards.mp hs with ⟨i, name, -, rfl⟩
  rw [← rangeValue_toNat hranged.1 r.start_fits, ← rangeValue_toNat hranged.2 r.stop_fits,
    Shard.covers, Bool.and_eq_true, decide_eq_true_eq, decide_eq_true_eq,
    UInt64.le_iff_toNat_le, UInt64.lt_iff_toNat_lt, Int.ofNat_le, Int.ofNat_lt]
  rfl

/-! ## Lookups -/

/-- The lookup of a key respects the ranges of a rule: a key that lies in a range goes to a
shard with such a range, and a key that lies in none matches none and goes to the first
shard. -/
structure RangesRespected (rule : TableRule) (ranges : Shard → KeyRange) (key : Int64) :
    Prop where
  inside : (∃ s ∈ rule.shards, (ranges s).Holds key.toInt) →
    ∃ s ∈ rule.shards, shardMapFindByInt rule key = some s ∧ (ranges s).Holds key.toInt
  outside : (∀ s ∈ rule.shards, ¬ (ranges s).Holds key.toInt) →
    (∀ s ∈ rule.shards, s.covers key.toUInt64 = false) ∧
      shardMapFindByInt rule key = rule.shards.head?

/-- Storing the ranges modulo 2^64 does no harm to the key.  A shard that claims it stands
behind one that holds it, and if all ranges that hold the key miss it, the first shard is one
of them. -/
structure WrapHarmless (rule : TableRule) (ranges : Shard → KeyRange) (key : Int64) : Prop where
  claimed : ∀ front s back, rule.shards = front ++ s :: back → (ranges s).Claims key.toInt →
    ∃ t ∈ front, (ranges t).Holds key.toInt ∧ ¬ (ranges t).Misses key.toInt
  missed : (∃ s ∈ rule.shards, (ranges s).Holds key.toInt) →
    (∀ s ∈ rule.shards, (ranges s).Holds key.toInt → (ranges s).Misses key.toInt) →
    ∃ s, rule.shards.head? = some s ∧ (ranges s).Holds key.toInt

/-- Ranges of signed keys that begin at zero or later are stored as they are written. -/
theorem wrapHarmless_of_nonneg {ranges : Shard → KeyRange}
    (h : ∀ s ∈ rule.shards, 0 ≤ (ranges s).start ∧ (ranges s).stop ≤ 2 ^ 63) (key : Int64) :
    WrapHarmless rule ranges key := by
  refine ⟨fun front s back hsplit hclaims => ?_, ?_⟩
  · have hlow : -2 ^ 63 ≤ key.toInt := key.le_toInt
    rcases h s (by simp [hsplit]) with ⟨-, hstop⟩
    rcases hclaims with ⟨-, hneg, -, hlt⟩
    omega
  · rintro ⟨s, hs, hholds⟩ hmissed
    rcases hmissed s hs hholds with ⟨hneg, -⟩
    rcases h s hs with ⟨hnonneg, -⟩
    omega

/-- A range rule searches for the first shard that covers the key. -/
theorem shardMapFindByInt_range (hrange : rule.method = .range) (key : Int64) :
    shardMapFindByInt rule key =
      (rule.shards.find? (Shard.covers · key.toUInt64)).or rule.shards.head? := by
  unfold shardMapFindByInt TableRule.home
  rw [hrange]
  cases hshards : rule.shards with
  | nil => rfl
  | cons s ss => simp

/-- The shard that a search for a covering shard finds covers the key. -/
theorem covers_of_find? {shards : List Shard} {ukey : UInt64} {s : Shard}
    (h : shards.find? (Shard.covers · ukey) = some s) : s.covers ukey = true :=
  List.find?_some (p := fun t : Shard => t.covers ukey) h

/-- The lookup in a rule of a configuration respects the ranges that are written there exactly
if storing them modulo 2^64 does no harm to the key. -/
theorem ranges_respected_iff {cfg : ShagresCfg} (hload : configLoad (some file) = some cfg)
    (hrule : rule ∈ cfg.shardMap.tableRules) (hrange : rule.method = .range)
    {ranges : Shard → KeyRange} (hranged : ∀ s ∈ rule.shards, Ranged file s (ranges s))
    (key : Int64) :
    RangesRespected rule ranges key ↔ WrapHarmless rule ranges key := by
  rcases configLoad_map file with ⟨cfg', hload', hmap⟩
  rw [hload] at hload'
  cases hload'
  rw [hmap] at hrule
  have hcovers : ∀ s ∈ rule.shards, (s.covers key.toUInt64 = true ↔
      (ranges s).Holds key.toInt ∧ ¬ (ranges s).Misses key.toInt ∨
        (ranges s).Claims key.toInt) := fun s hs =>
    covers_iff_written ((loadedMap_rule_shards hrule).1 s hs) (hranged s hs) key
  have hlookup := shardMapFindByInt_range hrange key
  constructor
  · intro hrespected
    refine ⟨fun front s back hsplit hclaims => ?_, fun hheld hmissed => ?_⟩
    · -- the shard covers the key, so the lookup finds a shard, at the latest this one
      have hs : s ∈ rule.shards := by simp [hsplit]
      have hs' : s.covers key.toUInt64 = true := (hcovers s hs).mpr (Or.inr hclaims)
      by_cases hheld : ∃ t ∈ rule.shards, (ranges t).Holds key.toInt
      · rcases hrespected.inside hheld with ⟨t, ht, hfound, hholds⟩
        have hfind : (front ++ [s]).find? (Shard.covers · key.toUInt64) = some t := by
          rw [hlookup, hsplit, List.append_cons, List.find?_append] at hfound
          cases hfront : (front ++ [s]).find? (Shard.covers · key.toUInt64) with
          | some u => simpa [hfront] using hfound
          | none => simp [hs'] at hfront
        have hmem := List.mem_of_find?_eq_some hfind
        have hne : t ≠ s := fun heq => hclaims.not_holds (heq ▸ hholds)
        rcases (hcovers t ht).mp (covers_of_find? hfind) with ⟨-, hnot⟩ | hclaims'
        · exact ⟨t, by simpa [hne] using hmem, hholds, hnot⟩
        · exact absurd hholds hclaims'.not_holds
      · push Not at hheld
        have hnone := (hrespected.outside hheld).1 s hs
        rw [hs'] at hnone
        cases hnone
    · rcases hrespected.inside hheld with ⟨t, ht, hfound, hholds⟩
      refine ⟨t, ?_, hholds⟩
      cases hfind : rule.shards.find? (Shard.covers · key.toUInt64) with
      | none => rwa [hlookup, hfind, Option.none_or] at hfound
      | some u =>
          rw [hlookup, hfind, Option.some_or, Option.some.injEq] at hfound
          subst hfound
          rcases (hcovers u ht).mp (covers_of_find? hfind) with ⟨-, hnot⟩ | hclaims
          · exact absurd (hmissed u ht hholds) hnot
          · exact absurd hholds hclaims.not_holds
  · intro hharmless
    -- the shard that the search finds holds the key
    have hfound : ∀ s, rule.shards.find? (Shard.covers · key.toUInt64) = some s →
        s ∈ rule.shards ∧ (ranges s).Holds key.toInt := by
      intro s hfind
      have hs := List.mem_of_find?_eq_some hfind
      refine ⟨hs, ?_⟩
      rcases (hcovers s hs).mp (covers_of_find? hfind) with ⟨hholds, -⟩ | hclaims
      · exact hholds
      · rcases List.find?_eq_some_iff_append.mp hfind with ⟨-, front, back, hsplit, hfront⟩
        rcases hharmless.claimed front s back hsplit hclaims with ⟨t, ht, htake⟩
        have hmem : t ∈ rule.shards := by simp [hsplit, ht]
        have hcovered := (hcovers t hmem).mpr (Or.inl htake)
        have hpassed := hfront t ht
        simp [hcovered] at hpassed
    refine ⟨fun hheld => ?_, fun hnone => ?_⟩
    · cases hfind : rule.shards.find? (Shard.covers · key.toUInt64) with
      | some s =>
          rcases hfound s hfind with ⟨hs, hholds⟩
          exact ⟨s, hs, by rw [hlookup, hfind, Option.some_or], hholds⟩
      | none =>
          have hmissed : ∀ s ∈ rule.shards, (ranges s).Holds key.toInt →
              (ranges s).Misses key.toInt := by
            intro s hs hholds
            by_contra hnot
            exact List.find?_eq_none.mp hfind s hs ((hcovers s hs).mpr (Or.inl ⟨hholds, hnot⟩))
          rcases hharmless.missed hheld hmissed with ⟨s, hhead, hholds⟩
          refine ⟨s, List.mem_of_head? hhead, ?_, hholds⟩
          rw [hlookup, hfind, Option.none_or, hhead]
    · have hfind : rule.shards.find? (Shard.covers · key.toUInt64) = none := by
        cases hfind : rule.shards.find? (Shard.covers · key.toUInt64) with
        | none => rfl
        | some s =>
            rcases hfound s hfind with ⟨hs, hholds⟩
            exact absurd hholds (hnone s hs)
      refine ⟨fun s hs => ?_, by rw [hlookup, hfind, Option.none_or]⟩
      simpa using List.find?_eq_none.mp hfind s hs

/-- The section of a shard with its range. -/
def shardSection (name start stop : Text) : Text :=
  ascii "[shard:" ++ name ++ ascii "]\n" ++ ascii "conninfo=x\n" ++
    ascii "key_range_start=" ++ start ++ ascii "\n" ++ ascii "key_range_end=" ++ stop ++ ascii "\n"

/-- The section of a table with two shards. -/
def pairSection : Text :=
  ascii "[table:t]\n" ++ ascii "shard_column=id\n" ++ ascii "shards=a,b\n"

/-- Two shards that share the keys from 0 on. -/
def unsignedFile : Text :=
  shardSection (ascii "a") (ascii "0") (ascii "10") ++
    shardSection (ascii "b") (ascii "10") (ascii "20") ++ pairSection

/-- Two shards that share the keys around zero. -/
def signedFile : Text :=
  shardSection (ascii "a") (ascii "0") (ascii "10") ++
    shardSection (ascii "b") (ascii "-10") (ascii "0") ++ pairSection

/-- A shard for all keys from 10 on, behind one for the keys below. -/
def endlessFile : Text :=
  shardSection (ascii "a") (ascii "0") (ascii "10") ++
    shardSection (ascii "b") (ascii "10") (ascii "18446744073709551615") ++ pairSection

/-- The rule of these files, with the ranges that are stored for the two shards. -/
def pairRule (start stop start' stop' : UInt64) : TableRule :=
  ⟨ascii "t", some (ascii "id"), .range, false,
    [⟨0, ascii "a", some (ascii "x"), start, stop⟩,
      ⟨1, ascii "b", some (ascii "x"), start', stop'⟩]⟩

/-- The ranges that are written for the two shards. -/
def pairRanges (r r' : KeyRange) (s : Shard) : KeyRange :=
  if s.index = 0 then r else r'

theorem exists_loaded (h : (loadedMap file).tableRules = [rule]) :
    ∃ cfg, configLoad (some file) = some cfg ∧ rule ∈ cfg.shardMap.tableRules := by
  rcases configLoad_map file with ⟨cfg, hload, hmap⟩
  exact ⟨cfg, hload, by rw [hmap, h]; exact List.mem_singleton_self rule⟩

/-- Ranges that begin at zero or later are respected for every key. -/
theorem unsigned_ranges_respected :
    ∃ cfg rule, configLoad (some unsignedFile) = some cfg ∧ rule ∈ cfg.shardMap.tableRules ∧
      rule.shards.length = 2 ∧ ∃ ranges : Shard → KeyRange,
        (∀ s ∈ rule.shards, Ranged unsignedFile s (ranges s)) ∧
          ∀ key, RangesRespected rule ranges key := by
  let ranges := pairRanges ⟨0, 10, by decide, by decide, by decide⟩
    ⟨10, 20, by decide, by decide, by decide⟩
  have hloaded : (loadedMap unsignedFile).tableRules = [pairRule 0 10 10 20] ∧
      (∀ s ∈ (pairRule 0 10 10 20).shards, Ranged unsignedFile s (ranges s)) ∧
      ∀ s ∈ (pairRule 0 10 10 20).shards, 0 ≤ (ranges s).start ∧ (ranges s).stop ≤ 2 ^ 63 := by
    decide +kernel
  rcases exists_loaded hloaded.1 with ⟨cfg, hload, hrule⟩
  refine ⟨cfg, _, hload, hrule, rfl, ranges, hloaded.2.1, fun key => ?_⟩
  exact (ranges_respected_iff hload hrule rfl hloaded.2.1 key).mpr
    (wrapHarmless_of_nonneg hloaded.2.2 key)

/-- The key -5 is sent to the shard of the keys from 0 on, although the other one has it in its
range, and to the shard of the keys from 10 on, although it is in no range at all. -/
theorem negative_range_missed :
    (∃ cfg rule, configLoad (some signedFile) = some cfg ∧ rule ∈ cfg.shardMap.tableRules ∧
      rule.method = .range ∧ ∃ ranges : Shard → KeyRange,
        (∀ s ∈ rule.shards, Ranged signedFile s (ranges s)) ∧
        (∃ s ∈ rule.shards, (ranges s).Holds (-5)) ∧
        ∃ s ∈ rule.shards, shardMapFindByInt rule (-5) = some s ∧ ¬ (ranges s).Holds (-5)) ∧
    (∃ cfg rule, configLoad (some endlessFile) = some cfg ∧ rule ∈ cfg.shardMap.tableRules ∧
      rule.method = .range ∧ ∃ ranges : Shard → KeyRange,
        (∀ s ∈ rule.shards, Ranged endlessFile s (ranges s)) ∧
        (∀ s ∈ rule.shards, ¬ (ranges s).Holds (-5)) ∧
        shardMapFindByInt rule (-5) ≠ rule.shards.head?) := by
  refine ⟨?_, ?_⟩
  · let ranges := pairRanges ⟨0, 10, by decide, by decide, by decide⟩
      ⟨-10, 0, by decide, by decide, by decide⟩
    let rule := pairRule 0 10 18446744073709551606 0
    have hloaded : (loadedMap signedFile).tableRules = [rule] ∧
        (∀ s ∈ rule.shards, Ranged signedFile s (ranges s)) ∧
        (∃ s ∈ rule.shards, (ranges s).Holds (-5)) ∧
        ∃ s ∈ rule.shards, shardMapFindByInt rule (-5) = some s ∧ ¬ (ranges s).Holds (-5) := by
      decide +kernel
    rcases exists_loaded hloaded.1 with ⟨cfg, hload, hrule⟩
    exact ⟨cfg, rule, hload, hrule, rfl, ranges, hloaded.2⟩
  · let ranges := pairRanges ⟨0, 10, by decide, by decide, by decide⟩
      ⟨10, 18446744073709551615, by decide, by decide, by decide⟩
    let rule := pairRule 0 10 10 18446744073709551615
    have hloaded : (loadedMap endlessFile).tableRules = [rule] ∧
        (∀ s ∈ rule.shards, Ranged endlessFile s (ranges s)) ∧
        (∀ s ∈ rule.shards, ¬ (ranges s).Holds (-5)) ∧
        shardMapFindByInt rule (-5) ≠ rule.shards.head? := by
      decide +kernel
    rcases exists_loaded hloaded.1 with ⟨cfg, hload, hrule⟩
    exact ⟨cfg, rule, hload, hrule, rfl, ranges, hloaded.2⟩

end Sharegres
