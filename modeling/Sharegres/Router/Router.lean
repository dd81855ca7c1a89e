import Sharegres.Parser.QueryParser
import Sharegres.Router.ShardMap

/-!
# Router - Route decisions

Model of {lit}`src/router/router.c`.  The decision is computed from the parsed
statement and the shard map; for an INSERT the second parsing pass runs here, so
the result is an outer {lean}`none` if that pass does not terminate.

Main results:

- Definition {lit}`routerDecide`: the decision.
- Theorem {lit}`routerDecide_keyed`: the decision for a keyed statement on a
  sharded table.
-/

namespace Sharegres

open Foundation

variable {parsed : ParseResult} {rule : TableRule}

/-- {lit}`RouteType`. -/
inductive RouteType where
  | single
  | scatter
  | local
  | default
deriving DecidableEq, Repr

/-- {lit}`RouteDecision`. -/
structure RouteDecision where
  type : RouteType
  targetShards : List Shard := []
  rule : Option TableRule := none
deriving DecidableEq

/-- The route type and the target shards of a decision. -/
def RouteDecision.route (decision : RouteDecision) : RouteType × List Shard :=
  (decision.type, decision.targetShards)

/-- A decision for all shards of a rule. -/
def RouteDecision.scatterTo (rule : TableRule) : RouteDecision :=
  { type := .scatter, targetShards := shardMapGetAll rule, rule := some rule }

/-- A decision for one shard of a rule. -/
def RouteDecision.singleTo (rule : TableRule) (target : Shard) : RouteDecision :=
  { type := .single, targetShards := [target], rule := some rule }

/-- The shard of the key recorded in a parse result. -/
def keyTarget (rule : TableRule) (parsed : ParseResult) : Option Shard :=
  if parsed.shardKeyIsInt then shardMapFindByInt rule parsed.shardKeyInt
  else parsed.shardKeyStr.bind (shardMapFindByStr rule)

/-- The last part of {lit}`router_decide`: a key on the shard column selects its
shard, anything else goes to all shards. -/
def decideByKey (rule : TableRule) (parsed : ParseResult) : RouteDecision :=
  if parsed.shardKeyFound ∧ parsed.shardKeyColumn.isSome ∧
      parsed.shardKeyColumn = rule.shardColumn then
    match keyTarget rule parsed with
    | some target => .singleTo rule target
    | none => .scatterTo rule
  else .scatterTo rule

/-- {lit}`router_decide` once a rule was found. -/
def decideByRule (rule : TableRule) (parsed : ParseResult) : Option RouteDecision :=
  if rule.broadcast then some (.scatterTo rule)
  else if parsed.stmtType = .ddl then some (.scatterTo rule)
  else if parsed.stmtType = .insert ∧ parsed.shardKeyFound = false then
    (parseExtractInsertShardKey parsed rule.shardColumn).map (decideByKey rule)
  else some (decideByKey rule parsed)

/-- {lit}`router_decide`. -/
def routerDecide (map : ShardMap) (parsed : ParseResult) : Option RouteDecision :=
  if parsed.stmtType = .set ∨ parsed.stmtType = .show ∨ parsed.stmtType = .discard then
    some { type := .local }
  else if parsed.stmtType = .transaction then some { type := .default }
  else
    match parsed.tableName with
    | none => some { type := .default }
    | some tableName =>
        if parsed.stmtType = .unknown then some { type := .default }
        else
          match shardMapFindRule map tableName with
          | none => some { type := .default }
          | some rule => decideByRule rule parsed

/-- {lit}`parse_query` followed by {lit}`router_decide`. -/
def routeQuery (map : ShardMap) (pgQueryParse : Text → Option Text) (sql : Text) :
    Option RouteDecision :=
  match parseQuery pgQueryParse sql with
  | some (rc, parsed) => if rc = 0 then routerDecide map parsed else none
  | none => none

/-! ## Decisions -/

/-- A text is parsed, or it is not. -/
theorem parseQuery_rc {pgQueryParse : Text → Option Text} {sql : Text} {rc : Int}
    (h : parseQuery pgQueryParse sql = some (rc, parsed)) :
    rc = 0 ∨ rc = -1 := by
  unfold parseQuery at h
  dsimp only at h
  repeat' split at h
  all_goals first
    | (cases h; simp)
    | (rcases Option.map_eq_some_iff.mp h with ⟨_, _, heq⟩; cases heq; simp)

theorem routeQuery_of_parse {map : ShardMap} {pgQueryParse : Text → Option Text} {sql : Text}
    (h : parseQuery pgQueryParse sql = some (0, parsed)) :
    routeQuery map pgQueryParse sql = routerDecide map parsed := by
  unfold routeQuery
  rw [h]
  exact if_pos rfl

/-- Statement types whose route is decided by a table rule. -/
def StmtType.keyed : StmtType → Bool
  | .select | .insert | .update | .delete => true
  | _ => false

/-- A keyed statement on a table with a rule is routed by that rule. -/
theorem routerDecide_keyed {map : ShardMap} {tableName : Text}
    (hkind : parsed.stmtType.keyed = true) (htable : parsed.tableName = some tableName)
    (hrule : shardMapFindRule map tableName = some rule) :
    routerDecide map parsed = decideByRule rule parsed := by
  unfold routerDecide
  have hne : ∀ t : StmtType, t.keyed = false → parsed.stmtType ≠ t := by
    intro t ht heq
    rw [heq, ht] at hkind
    exact absurd hkind (by simp)
  rw [if_neg (by simp [hne .set rfl, hne .show rfl, hne .discard rfl]),
    if_neg (hne .transaction rfl), htable]
  dsimp only
  rw [if_neg (hne .unknown rfl), hrule]

/-- A SELECT, UPDATE or DELETE on a sharded table is routed by its own key. -/
theorem decideByRule_where (hb : rule.broadcast = false) (hkind : parsed.stmtType.keyed = true)
    (hins : parsed.stmtType ≠ .insert) :
    decideByRule rule parsed = some (decideByKey rule parsed) := by
  unfold decideByRule
  have hddl : parsed.stmtType ≠ .ddl := by
    intro h
    rw [h] at hkind
    exact absurd hkind (by simp [StmtType.keyed])
  rw [if_neg (by simp [hb]), if_neg hddl, if_neg (fun h => hins h.1)]

/-- An INSERT on a sharded table is routed by the key of the second pass. -/
theorem decideByRule_insert (hb : rule.broadcast = false) (hins : parsed.stmtType = .insert)
    (hfound : parsed.shardKeyFound = false) :
    decideByRule rule parsed =
      (parseExtractInsertShardKey parsed rule.shardColumn).map (decideByKey rule) := by
  unfold decideByRule
  rw [if_neg (by simp [hb]), if_neg (by simp [hins]), if_pos ⟨hins, hfound⟩]

end Sharegres
