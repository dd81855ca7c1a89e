import Sharegres.Router.ReadBack

/-!
# Router - Two spellings of one key

PostgreSQL compares an integer column with the number {lit}`12` and with the quoted text
{lit}`'12'` alike.  The proxy does not: a number is looked up by its value, a text by its
hash, and numbers that are 0 or do not fit 32 bits are not looked up at all.

Main results:

- Definition {lit}`RouteDecision.Agree`: neither route leaves out the shard of the other.
- Theorem {lit}`spellings_agree_iff`: when the routes of the two spellings agree.
- Theorem {lit}`quoted_key_elsewhere`: a key whose quoted spelling goes to another shard.
-/

namespace Sharegres

open Foundation Foundation.Json

variable {rule : TableRule}

/-- A route for one shard names a target of the other route. -/
def RouteDecision.Admits (d d' : RouteDecision) : Prop :=
  d.type = .single → ∀ s ∈ d.targetShards, s ∈ d'.targetShards

/-- Neither route leaves out the shard of the other. -/
def RouteDecision.Agree (d d' : RouteDecision) : Prop :=
  d.Admits d' ∧ d'.Admits d

/-! ## Homes of keys -/

/-- The home of a key is one of the rule's shards. -/
theorem keyHome_mem {key : ConstKey} {s : Shard} (h : keyHome rule key = some s) :
    s ∈ rule.shards := by
  cases key with
  | int value => exact shardMapFindByInt_mem h
  | str value =>
      rcases Option.bind_eq_some_iff.mp h with ⟨t, -, ht⟩
      exact shardMapFindByStr_mem ht

/-- A rule with shards has one for every string. -/
theorem shardMapFindByStr_isSome (hne : rule.shards ≠ []) (key : Text) :
    (shardMapFindByStr rule key).isSome = true := by
  unfold shardMapFindByStr
  rw [if_neg (by simpa using hne)]
  exact home_isSome hne _

/-- Routes by key agree exactly if they do not name two different shards. -/
theorem routeInsert_agree {key key' : Option ConstKey} :
    (routeInsert rule key).Agree (routeInsert rule key') ↔
      ∀ s s', key.bind (keyHome rule) = some s → key'.bind (keyHome rule) = some s' → s = s' := by
  have hmem : ∀ {k : Option ConstKey} {s : Shard}, k.bind (keyHome rule) = some s →
      s ∈ rule.shards := by
    intro k s hs
    rcases Option.bind_eq_some_iff.mp hs with ⟨k', -, hk'⟩
    exact keyHome_mem hk'
  unfold RouteDecision.Agree RouteDecision.Admits routeInsert
  cases hkey : key.bind (keyHome rule) with
  | none =>
      cases hkey' : key'.bind (keyHome rule) with
      | none => simp [RouteDecision.scatterTo]
      | some s' =>
          simp [RouteDecision.scatterTo, RouteDecision.singleTo, shardMapGetAll, hmem hkey']
  | some s =>
      cases hkey' : key'.bind (keyHome rule) with
      | none =>
          simp [RouteDecision.scatterTo, RouteDecision.singleTo, shardMapGetAll, hmem hkey]
      | some s' => simp [RouteDecision.singleTo, eq_comm]

/-! ## Numerals in a statement -/

theorem printedAsIs_of_isDigit {b : UInt8} (hb : isDigit b = true) : PrintedAsIs b := by
  refine ⟨ne_of_class hb rfl, ne_of_class hb rfl, ?_, ne_of_class hb rfl, ne_of_class hb rfl⟩
  rw [isDigit, Bool.and_eq_true, decide_eq_true_eq] at hb
  exact UInt8.le_trans (show (32 : UInt8) ≤ 48 by decide) hb.1

/-- A numeral is printed as it is. -/
theorem outToken_intNumeral (n : Int) : outToken (intNumeral n) = intNumeral n := by
  rw [outToken_eq_self_iff]
  intro b hb
  cases n with
  | ofNat n => exact printedAsIs_of_isDigit (natNumeral_digits hb)
  | negSucc n =>
      rcases List.mem_cons.mp hb with rfl | hb
      · unfold PrintedAsIs
        decide
      · exact printedAsIs_of_isDigit (natNumeral_digits hb)

/-- The key of a quoted numeral is the numeral. -/
theorem quotedNumeral_key (n : Int) :
    (PgConst.str (intNumeral n)).key = some (.str (some (intNumeral n))) := by
  rw [PgConst.key, outToken_intNumeral]

/-- A statement that compares the shard column with a number and one that compares it with
the same number in quotes have routes that agree exactly if the column is not printed under
its own name, or the number has no key in the statement, or its value and the hash of its
spelling have the same home. -/
theorem spellings_agree_iff {map : ShardMap}
    {pgQueryParse : Text → Option Text} {sql sql' c : Text} {version version' : Int}
    {stmt stmt' : WhereStmt} {trailing trailing' : Members} {locations locations' : LeafLocations}
    {n : Int64}
    (hnumber : pgQueryParse sql = some (render (document version
      [(stmt.toJson (equalTo c (.ofLiteral n.toInt) locations), trailing)])))
    (hquoted : pgQueryParse sql' = some (render (document version'
      [(stmt'.toJson (equalTo c (.str (intNumeral n.toInt)) locations'), trailing')])))
    (htable : stmt'.table.relname = stmt.table.relname)
    (hrule : shardMapFindRule map (outToken stmt.table.relname) = some rule)
    (hbroadcast : rule.broadcast = false) (hcol : rule.shardColumn = some c) :
    ∃ d d', routeQuery map pgQueryParse sql = some d ∧
      routeQuery map pgQueryParse sql' = some d' ∧
      (d.Agree d' ↔ outToken c ≠ c ∨ readableLiteral n.toInt = false ∨
        shardMapFindByInt rule n = shardMapFindByStr rule (intNumeral n.toInt)) := by
  refine ⟨_, _, routeQuery_where hnumber hrule hbroadcast,
    routeQuery_where hquoted (by rw [htable]; exact hrule) hbroadcast, ?_⟩
  rw [equalTo_key, equalTo_key, quotedNumeral_key, PgConst.ofLiteral_key]
  by_cases hc : outToken c = c
  · rw [routeByKey_column hc hcol, routeByKey_column hc hcol, routeInsert_agree]
    rw [or_iff_right (not_not.mpr hc)]
    cases hread : readableLiteral n.toInt with
    | false => simp
    | true =>
        rw [if_pos rfl, Int64.ofInt_toInt]
        simp only [Option.bind_some, keyHome, Bool.true_eq_false, false_or]
        by_cases hne : rule.shards = []
        · simp [shardMapFindByInt, shardMapFindByStr, hne]
        · rcases Option.isSome_iff_exists.mp (shardMapFindByInt_isSome hne n) with ⟨s, hs⟩
          rcases Option.isSome_iff_exists.mp
            (shardMapFindByStr_isSome hne (intNumeral n.toInt)) with ⟨s', hs'⟩
          rw [hs, hs', Option.some.injEq]
          constructor
          · exact fun h => h s s' rfl rfl
          · rintro rfl t t' ht ht'
            exact (Option.some.inj ht).symm.trans (Option.some.inj ht')
  · rw [routeByKey_other hc hcol, routeByKey_other hc hcol]
    refine iff_of_true ?_ (Or.inl hc)
    constructor <;> exact fun h => by cases h

/-- The tree of {lit}`DELETE FROM t WHERE id = value`. -/
def deleteOf (value : PgConst) : Json :=
  document 170000
    [((plainDelete (ascii "t")).toJson (equalTo (ascii "id") value ⟨23, 20, 25⟩), [])]

/-- A parser that knows a DELETE with a number by its text, and takes everything else for
one with the quoted number. -/
def parsesSpelling (n : Int64) : Text → Option Text :=
  parsesOr (ascii "number") (deleteOf (.ofLiteral n.toInt)) (deleteOf (.str (intNumeral n.toInt)))

theorem parsesSpelling_number (n : Int64) : parsesSpelling n (ascii "number") =
    some (render (deleteOf (.ofLiteral n.toInt))) := by
  unfold parsesSpelling parsesOr
  exact if_pos rfl

theorem parsesSpelling_quoted (n : Int64) : parsesSpelling n (ascii "quoted") =
    some (render (deleteOf (.str (intNumeral n.toInt)))) := by
  unfold parsesSpelling parsesOr
  exact if_neg (by simp [ascii])

/-- {lit}`id = 5` and {lit}`id = '5'`: the hash is in no range, and the first shard, to which
it falls back, is the one for 5. -/
theorem small_key_agrees :
    ∃ d d', routeQuery ⟨demoShards, [demoRule], 4⟩ (parsesSpelling 5) (ascii "number") = some d ∧
      routeQuery ⟨demoShards, [demoRule], 4⟩ (parsesSpelling 5) (ascii "quoted") = some d' ∧
      d.Agree d' := by
  rcases spellings_agree_iff (parsesSpelling_number 5) (parsesSpelling_quoted 5) rfl
    demoRule_found rfl rfl with ⟨d, d', hd, hd', hagree⟩
  exact ⟨d, d', hd, hd', hagree.mpr (by decide +kernel)⟩

/-- {lit}`id = 12` goes to the second shard, and {lit}`id = '12'` to the first one. -/
theorem quoted_key_elsewhere :
    ∃ d d', routeQuery ⟨demoShards, [demoRule], 4⟩ (parsesSpelling 12) (ascii "number") = some d ∧
      routeQuery ⟨demoShards, [demoRule], 4⟩ (parsesSpelling 12) (ascii "quoted") = some d' ∧
      ¬ d.Agree d' := by
  refine ⟨_, _, routeQuery_where (parsesSpelling_number 12) demoRule_found rfl,
    routeQuery_where (parsesSpelling_quoted 12) demoRule_found rfl, ?_⟩
  rw [equalTo_key, equalTo_key, quotedNumeral_key, PgConst.ofLiteral_key,
    routeByKey_column demo_printed.2 rfl, routeByKey_column demo_printed.2 rfl, routeInsert_agree]
  intro hagree
  have hhomes : shardMapFindByInt demoRule 12 =
        some ⟨1, ascii "shard_1", ascii "host=b", 10, 20⟩ ∧
      shardMapFindByStr demoRule (intNumeral 12) =
        some ⟨0, ascii "shard_0", ascii "host=a", 0, 10⟩ := by
    decide +kernel
  exact absurd (congrArg Shard.index (hagree _ _ hhomes.1 hhomes.2)) (by decide)

end Sharegres
