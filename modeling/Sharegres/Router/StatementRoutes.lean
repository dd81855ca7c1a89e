import Sharegres.Parser.TreeParsing
import Sharegres.Router.KeyedRoutes

/-!
# Router - Routes of statement trees

The route of a statement as a function of its tree and the shard map, for every statement.
The text that is routed may hold more statements: only the names in them matter, and only for
an INSERT.

Main results:

- Definition {lit}`RawStmt.route`: the route of a statement in front of the given names.
- Theorem {lit}`routeQuery_tree`: a text is routed by its first statement.
-/

namespace Sharegres

open Foundation Foundation.Json

variable {stmt : RawStmt} {pgQueryParse : Text → Option Text}

/-- The route of a statement by the rule of its table, if these names stand behind it in the
document. -/
def RawStmt.routeByRule (behind : List (Option Text)) (stmt : RawStmt) (rule : TableRule) :
    RouteDecision :=
  if rule.broadcast ∨ stmt.info.stmtType = .ddl then .scatterTo rule
  else if stmt.info.stmtType = .insert then
    decideInfo rule rule.shardColumn (rule.shardColumn.bind (stmt.insertKey behind))
  else decideInfo rule stmt.info.column stmt.info.key

/-- The route of a statement in front of these names. -/
def RawStmt.route (map : ShardMap) (behind : List (Option Text)) (stmt : RawStmt) :
    RouteDecision :=
  match stmt.info.stmtType with
  | .set | .show | .discard => { type := .local }
  | .transaction | .unknown => { type := .default }
  | _ =>
      match stmt.info.table.bind (shardMapFindRule map) with
      | none => { type := .default }
      | some rule => stmt.routeByRule behind rule

/-- The first pass finds no key in an INSERT. -/
theorem RawStmt.info_key_insert (h : stmt.info.stmtType = .insert) :
    stmt.info.key = none := by
  rw [stmt.info_stmtType] at h
  unfold RawStmt.info nodeInfo
  rw [h]
  dsimp only
  unfold StmtInfo.readRelation StmtInfo.readTable
  split
  · split <;> rfl
  · rfl

/-- The decision by a rule, for a parse result that agrees with a statement. -/
theorem decideByRule_tree {behind : List (Option Text)} {parsed : ParseResult}
    (hinfo : parsed.info = stmt.info)
    (hsecond : parsed.stmtType = .insert → ∀ c, parseExtractInsertShardKey parsed (some c) =
      some (recordInsertKey parsed c (stmt.insertKey behind c))) (rule : TableRule) :
    decideByRule rule parsed = some (stmt.routeByRule behind rule) := by
  have htype : parsed.stmtType = stmt.info.stmtType := congrArg StmtInfo.stmtType hinfo
  unfold decideByRule RawStmt.routeByRule
  rw [htype]
  by_cases hb : rule.broadcast = true
  · rw [if_pos hb, if_pos (Or.inl hb)]
  · rw [if_neg hb]
    by_cases hddl : stmt.info.stmtType = .ddl
    · rw [if_pos hddl, if_pos (Or.inr hddl)]
    · rw [if_neg hddl, if_neg (not_or.mpr ⟨hb, hddl⟩)]
      by_cases hinsert : stmt.info.stmtType = .insert
      · have hnone : parsed.key? = none :=
          (congrArg StmtInfo.key hinfo).trans (stmt.info_key_insert hinsert)
        have hfound : parsed.shardKeyFound = false := by
          rw [← key?_isSome, hnone]
          rfl
        rw [if_pos ⟨hinsert, hfound⟩, if_pos hinsert]
        cases hcolumn : rule.shardColumn with
        | none =>
            have hsame : parseExtractInsertShardKey parsed none = some parsed := by
              unfold parseExtractInsertShardKey
              split
              · contradiction
              · rfl
            rw [hsame, Option.map_some, decideByKey_info, show parsed.info.key = none from hnone]
            rfl
        | some c =>
            rw [hsecond (htype.trans hinsert) c, Option.map_some,
              decideByKey_insertKey hcolumn hnone, hcolumn]
            rfl
      · rw [if_neg (fun hc => hinsert hc.1), if_neg hinsert, decideByKey_info, hinfo]

/-- The decision by the table of a statement. -/
private theorem decideByTable {parsed : ParseResult} (map : ShardMap) (table : Option Text)
    {route : TableRule → RouteDecision}
    (hrule : ∀ rule, decideByRule rule parsed = some (route rule)) :
    (match table with
      | none => some { type := .default }
      | some tableName =>
          match shardMapFindRule map tableName with
          | none => some { type := .default }
          | some rule => decideByRule rule parsed) =
      some (match table.bind (shardMapFindRule map) with
        | none => { type := .default }
        | some rule => route rule) := by
  cases table with
  | none => rfl
  | some tableName =>
      rw [Option.bind_some]
      dsimp only
      cases shardMapFindRule map tableName with
      | none => rfl
      | some rule => exact hrule rule

/-- A text is routed by its first statement. -/
theorem routeQuery_tree (map : ShardMap) {sql : Text} {version : Int} {more : List RawStmt}
    (hparse : pgQueryParse sql = some (printed version (stmt :: more))) :
    routeQuery map pgQueryParse sql = some (stmt.route map (stmtNames more)) := by
  rcases parseQuery_tree hparse with ⟨parsed, hparsed, hinfo, hsecond⟩
  have htype : parsed.stmtType = stmt.info.stmtType := congrArg StmtInfo.stmtType hinfo
  have htable : parsed.tableName = stmt.info.table := congrArg StmtInfo.table hinfo
  have htabled := decideByTable map stmt.info.table (decideByRule_tree hinfo hsecond)
  rw [routeQuery_of_parse hparsed]
  unfold routerDecide RawStmt.route
  rw [htype, htable]
  cases hkind : stmt.info.stmtType with
  | unknown => cases stmt.info.table <;> rfl
  | set => rfl
  | «show» => rfl
  | discard => rfl
  | transaction => rfl
  | _ => exact htabled

/-! ## Parsers -/

/-- The parser answers with the document of some statements, or with an error. -/
def PrintsTrees (pgQueryParse : Text → Option Text) : Prop :=
  ∀ sql tree, pgQueryParse sql = some tree → ∃ version stmts, tree = printed version stmts

/-- Parsing a text without statements. -/
theorem parseQuery_nil {sql : Text} {version : Int}
    (hparse : pgQueryParse sql = some (printed version [])) :
    parseQuery pgQueryParse sql = some (0, { parseTreeJson := some (printed version []) }) := by
  have hat : At (printed version []) (document version []) :=
    ⟨[], trivial, (List.append_nil _).symm⟩
  have hget : get? (PgKey.text .stmts) (document version []) = some (arr []) := by
    rw [document, get?_obj_cons, if_neg (by simp), get?_obj_cons, if_pos rfl]
    rfl
  have hstmts := hat.findKey (PgKey.text_plain .stmts)
  rw [hget] at hstmts
  rcases rel_some hstmts with ⟨t, ht, r, -, rfl⟩
  have htext : render (arr []) ++ r = lbracket :: rbracket :: r := by
    simp [arr, render, renderElems, Ws.none]
  rw [htext] at ht
  unfold parseQuery
  rw [hparse]
  dsimp only
  rw [show jsonFindKey (printed version []) (ascii "stmts") = _ from ht]
  dsimp only
  rw [if_pos rfl, jsonSkipWhitespace, skipSpace_cons_of_not (by decide)]
  dsimp only
  rw [if_pos rfl]

/-- Every text is refused or has a route. -/
theorem PrintsTrees.decides (h : PrintsTrees pgQueryParse) (map : ShardMap) (sql : Text) :
    ∃ rc parsed, parseQuery pgQueryParse sql = some (rc, parsed) ∧
      (rc < 0 ∨ (routerDecide map parsed).isSome) := by
  cases htree : pgQueryParse sql with
  | none =>
      refine ⟨-1, {}, ?_, Or.inl (by decide)⟩
      rw [parseQuery, htree]
  | some tree =>
      rcases h sql tree htree with ⟨version, stmts, rfl⟩
      cases stmts with
      | nil => exact ⟨0, _, parseQuery_nil htree, Or.inr rfl⟩
      | cons stmt more =>
          rcases parseQuery_tree htree with ⟨parsed, hparsed, -, -⟩
          refine ⟨0, parsed, hparsed, Or.inr ?_⟩
          rw [← routeQuery_of_parse hparsed, routeQuery_tree map htree]
          rfl

/-- A parser that takes every text for one statement. -/
def parsesAs (stmt : RawStmt) (_sql : Text) : Option Text :=
  some (printed 170000 [stmt])

theorem parsesAs_eq (stmt : RawStmt) (sql : Text) :
    parsesAs stmt sql = some (printed 170000 [stmt]) :=
  rfl

end Sharegres
