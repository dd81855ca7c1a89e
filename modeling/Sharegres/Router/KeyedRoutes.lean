import Sharegres.Parser.KeyExtraction
import Sharegres.Router.Router

/-!
# Router - Routes of keyed statements

The route of a statement that was printed from a parse tree, as a function of the
tree: the key the extractor finds decides, and without one on the shard column the
statement goes to all shards of the rule.

Main results:

- Definition {lit}`routeByKey`: the route for a key found in the tree.
- Theorem {lit}`routeQuery_where`: the route of a SELECT, UPDATE or DELETE.
-/

namespace Sharegres

open Foundation Foundation.Json

variable {found : Option (Text × ConstKey)} {rule : TableRule}

/-- Home shard of a key value. -/
def keyHome (rule : TableRule) : ConstKey → Option Shard
  | .int value => shardMapFindByInt rule value
  | .str value => value.bind (shardMapFindByStr rule)

/-- The route for a column and key value found in a statement. -/
def routeByKey (rule : TableRule) : Option (Text × ConstKey) → RouteDecision
  | none => .scatterTo rule
  | some (column, key) =>
      if rule.shardColumn = some (outToken column) then
        match keyHome rule key with
        | some target => .singleTo rule target
        | none => .scatterTo rule
      else .scatterTo rule

/-- The route for a column and a key. -/
def decideInfo (rule : TableRule) (column : Option Text) : Option ConstKey → RouteDecision
  | none => .scatterTo rule
  | some key =>
      if column.isSome ∧ column = rule.shardColumn then
        match keyHome rule key with
        | some target => .singleTo rule target
        | none => .scatterTo rule
      else .scatterTo rule

theorem keyTarget_info {parsed : ParseResult} {key : ConstKey} (h : parsed.key? = some key) :
    keyTarget rule parsed = keyHome rule key := by
  unfold ParseResult.key? at h
  split at h
  · cases h
    unfold keyTarget
    split <;> rfl
  · cases h

/-- A decision by key is one on what the parse result says. -/
theorem decideByKey_info (rule : TableRule) (parsed : ParseResult) :
    decideByKey rule parsed = decideInfo rule parsed.info.column parsed.info.key := by
  have hfound := key?_isSome parsed
  unfold decideByKey decideInfo
  rw [show parsed.info.key = parsed.key? from rfl,
    show parsed.info.column = parsed.shardKeyColumn from rfl]
  cases hkey : parsed.key? with
  | none =>
      rw [hkey, Option.isSome_none] at hfound
      rw [if_neg (fun hc => by simp [hc.1] at hfound)]
  | some key =>
      rw [hkey, Option.isSome_some] at hfound
      rw [keyTarget_info hkey]
      dsimp only
      by_cases hcolumn : parsed.shardKeyColumn.isSome ∧ parsed.shardKeyColumn = rule.shardColumn
      · rw [if_pos ⟨hfound.symm, hcolumn⟩]
        refine Eq.trans ?_ (if_pos hcolumn).symm
        cases keyHome rule key <;> rfl
      · rw [if_neg (fun hc => hcolumn hc.2), if_neg hcolumn]

/-- The decision on a parse result with an extracted key. -/
theorem decideByKey_extracted {info : StmtInfo} {result : ParseResult}
    (h : Extracted found info result.info) (hinfo : info.key = none) :
    decideByKey rule result = routeByKey rule found := by
  rw [decideByKey_info]
  cases found with
  | none =>
      rw [h.key_eq hinfo]
      rfl
  | some k =>
      rcases k with ⟨column, key⟩
      rw [show result.info = _ from h, decideInfo, routeByKey]
      exact if_congr ⟨fun hc => hc.2.symm, fun hc => ⟨rfl, hc.symm⟩⟩ rfl rfl

/-- An extraction leaves the statement type and the table alone. -/
theorem Extracted.statement {info info' : StmtInfo} (h : Extracted found info info') :
    info'.stmtType = info.stmtType ∧ info'.table = info.table := by
  cases found with
  | none =>
      rcases h with ⟨column, rfl⟩
      exact ⟨rfl, rfl⟩
  | some k =>
      rw [show info' = _ from h]
      exact ⟨rfl, rfl⟩

/-- The decision on an INSERT after the second pass. -/
theorem decideByKey_insertKey {c : Text} {parsed : ParseResult}
    (hcolumn : rule.shardColumn = some c) (hnone : parsed.key? = none) (key : Option ConstKey) :
    decideByKey rule (recordInsertKey parsed c key) = decideInfo rule rule.shardColumn key := by
  cases key with
  | none =>
      rw [recordInsertKey, decideByKey_info, show parsed.info.key = none from hnone]
      rfl
  | some key =>
      rw [recordInsertKey, decideByKey_info, hcolumn]
      cases key <;> rfl

/-- The route of a SELECT, UPDATE or DELETE on a sharded table is the one of the
leftmost readable equality of its WHERE clause. -/
theorem routeQuery_where {map : ShardMap} {pgQueryParse : Text → Option Text}
    {sql : Text} {version : Int} {stmt : WhereStmt} {e : PgExpr} {trailing : Members}
    {more : List (Json × Members)}
    (hparse : pgQueryParse sql =
      some (render (document version ((stmt.toJson e, trailing) :: more))))
    (hrule : shardMapFindRule map (outToken stmt.table.relname) = some rule)
    (hbroadcast : rule.broadcast = false) :
    routeQuery map pgQueryParse sql = some (routeByKey rule e.key) := by
  rcases parseQuery_where hparse with ⟨result, hquery, hkey⟩
  rcases hkey.statement with ⟨hkind, htable⟩
  rw [show result.info.stmtType = result.stmtType from rfl] at hkind
  have hkeyed : result.stmtType.keyed = true := by
    rw [hkind]
    cases stmt.kind <;> rfl
  have hins : result.stmtType ≠ .insert := by
    rw [hkind]
    cases stmt.kind <;> simp [WhereKind.stmtType]
  rw [routeQuery_of_parse hquery, routerDecide_keyed hkeyed htable hrule,
    decideByRule_where hbroadcast hkeyed hins, decideByKey_extracted hkey rfl]

/-- A route for one shard comes from a key on the shard column. -/
theorem routeByKey_single {s : Shard} (htype : (routeByKey rule found).type = .single)
    (hs : s ∈ (routeByKey rule found).targetShards) :
    ∃ column key, found = some (column, key) ∧ rule.shardColumn = some (outToken column) ∧
      keyHome rule key = some s := by
  cases found with
  | none => simp [routeByKey, RouteDecision.scatterTo] at htype
  | some k =>
      rcases k with ⟨column, key⟩
      rw [routeByKey] at htype hs
      by_cases hcol : rule.shardColumn = some (outToken column)
      · rw [if_pos hcol] at htype hs
        cases hhome : keyHome rule key with
        | none => simp [hhome, RouteDecision.scatterTo] at htype
        | some t =>
            rw [hhome] at hs
            have hst : s = t := by simpa [RouteDecision.singleTo] using hs
            exact ⟨column, key, rfl, hcol, by rw [hhome, hst]⟩
      · simp [hcol, RouteDecision.scatterTo] at htype

/-- A key on the shard column that has a home is routed there. -/
theorem routeByKey_of_home {column : Text} {key : ConstKey} {s : Shard}
    (hcol : rule.shardColumn = some (outToken column)) (hhome : keyHome rule key = some s) :
    routeByKey rule (some (column, key)) = .singleTo rule s := by
  rw [routeByKey, if_pos hcol, hhome]

end Sharegres
