import Sharegres.Router.InsertRouting

/-!
# Router - Reading back what was inserted

A row is written by an INSERT and read by statements whose WHERE clause compares the shard
column with the same constant.  The two paths are different code: the one looks for the
position of the column among the printed names, the other one for the comparison.

Main results:

- Theorem {lit}`read_back_iff`: when the INSERT and the statements that read the row are
  routed alike.
- Theorem {lit}`escaped_column_diverges`: a column whose printed name is the name of the
  shard column takes its place.
-/

namespace Sharegres

open Foundation Foundation.Json

variable {rule : TableRule}

/-- The clause {lit}`c = constant`. -/
def equalTo (c : Text) (value : PgConst) (locations : LeafLocations) : PgExpr :=
  .aexpr .op (ascii "=") [] (some (.column c [] locations.column))
    (some (.const value locations.literal)) locations.expr

theorem equalTo_key (c : Text) (value : PgConst) (locations : LeafLocations) :
    (equalTo c value locations).key = value.key.map (c, ·) := by
  rw [equalTo, PgExpr.key, if_pos rfl]
  rfl

/-- The route of a key on the shard column is the same on both paths. -/
theorem routeByKey_column {c : Text} (hc : outToken c = c) (hcol : rule.shardColumn = some c)
    (key : Option ConstKey) :
    routeByKey rule (key.map (c, ·)) = routeInsert rule key := by
  cases key with
  | none => rfl
  | some k =>
      rw [Option.map_some, routeByKey, hc, if_pos hcol]
      rfl

/-- A column whose printed name differs is never recognised by the reading path. -/
theorem routeByKey_other {c : Text} (hc : outToken c ≠ c) (hcol : rule.shardColumn = some c)
    (key : Option ConstKey) :
    routeByKey rule (key.map (c, ·)) = .scatterTo rule := by
  cases key with
  | none => rfl
  | some k =>
      rw [Option.map_some, routeByKey, if_neg]
      intro heq
      rw [hcol] at heq
      exact hc (Option.some.inj heq).symm

theorem routeInsert_eq_scatter {key : Option ConstKey} :
    (routeInsert rule key).route = (RouteDecision.scatterTo rule).route ↔
      key.bind (keyHome rule) = none := by
  unfold routeInsert
  cases key.bind (keyHome rule) with
  | none => simp
  | some s => simp [RouteDecision.route, RouteDecision.scatterTo, RouteDecision.singleTo]

/-- The INSERT of a row and a SELECT, UPDATE or DELETE that compares the shard column with
the row's constant are routed alike exactly when the shard column is printed under its own
name, or no other listed column that is printed under it has a constant with a home. -/
theorem read_back_iff {map : ShardMap} {pgQueryParse : Text → Option Text}
    {insertSql readSql c : Text} {version version' : Int} {insert : InsertStmt}
    {read : WhereStmt} {trailing trailing' : Members} {row : List ValueTree} {value : PgConst}
    {locations : LeafLocations}
    (hinsert : pgQueryParse insertSql =
      some (render (document version [(insert.toJson, trailing)])))
    (hread : pgQueryParse readSql =
      some (render (document version' [(read.toJson (equalTo c value locations), trailing')])))
    (htable : read.table.relname = insert.table.relname)
    (hrule : shardMapFindRule map (outToken insert.table.relname) = some rule)
    (hbroadcast : rule.broadcast = false) (hcol : rule.shardColumn = some c)
    (hrows : insert.rows = [row]) (hconst : insert.RowConst c row value) :
    (routeQuery map pgQueryParse insertSql).map RouteDecision.route =
        (routeQuery map pgQueryParse readSql).map RouteDecision.route ↔
      outToken c = c ∨ (insert.key c).bind (keyHome rule) = none := by
  rw [routeQuery_insert hinsert hrule hbroadcast hcol,
    routeQuery_where hread (by rw [htable]; exact hrule) hbroadcast, equalTo_key,
    Option.map_some, Option.map_some, Option.some.injEq]
  by_cases hc : outToken c = c
  · rw [InsertStmt.key_of_const hc (by rw [hrows]; rfl) hconst, routeByKey_column hc hcol]
    exact iff_of_true rfl (Or.inl hc)
  · rw [routeByKey_other hc hcol, routeInsert_eq_scatter]
    exact (or_iff_right hc).symm

/-- A parser that knows one statement by its text and takes everything else for another
one. -/
def parsesOr (sql : Text) (tree other : Json) (text : Text) : Option Text :=
  if text = sql then some (render tree) else some (render other)

/-- {lit}`INSERT INTO t (id) VALUES (5)` and {lit}`DELETE FROM t WHERE id = 5`. -/
theorem demoInsert_read_back :
    (routeQuery ⟨demoShards, [demoRule], 4⟩
        (parsesOr (ascii "INSERT") (demoTree 5 [])
          (document 170000 [((plainDelete (ascii "t")).toJson
            (equalTo (ascii "id") (.ofLiteral 5) ⟨23, 20, 25⟩), [])]))
        (ascii "INSERT")).map RouteDecision.route =
      (routeQuery ⟨demoShards, [demoRule], 4⟩
        (parsesOr (ascii "INSERT") (demoTree 5 [])
          (document 170000 [((plainDelete (ascii "t")).toJson
            (equalTo (ascii "id") (.ofLiteral 5) ⟨23, 20, 25⟩), [])]))
        (ascii "DELETE")).map RouteDecision.route :=
  (read_back_iff (if_pos rfl) (if_neg (by simp [ascii])) rfl (demoInsert_rule 5 []) rfl rfl rfl
    (demoInsert_literal 5 [] 5)).mpr (Or.inl demo_printed.2)

/-- The shard column of this rule has a backslash in its name. -/
def escapedRule : TableRule := { demoRule with shardColumn := some (ascii "a\\nb") }

/-- An INSERT into a column with a line break in its name, printed as the shard column is
named, and into the shard column. -/
def escapedInsert : InsertStmt where
  table := ⟨none, none, ascii "t", [], tightMembers_nil⟩
  cols := [(ascii "a\nb", 15), (ascii "a\\nb", 21)]
  rows := [[ValueTree.const (.ofLiteral 5) 35, ValueTree.const (.ofLiteral 15) 38]]
  before := []
  selectBefore := []
  selectAfter := []
  after := []
  rows_ne := by simp
  rows_length := by simp
  before_uninspected := uninspected_nil
  selectBefore_uninspected := uninspected_nil

/-- The row is routed by the value of the other column, and statements that compare the
shard column with its constant go to all shards. -/
theorem escaped_column_diverges :
    escapedInsert.RowConst (ascii "a\\nb")
        [ValueTree.const (.ofLiteral 5) 35, ValueTree.const (.ofLiteral 15) 38] (.ofLiteral 15) ∧
      (routeQuery ⟨demoShards, [escapedRule], 4⟩
        (parsesTo (document 170000 [(escapedInsert.toJson, [])])) (ascii "INSERT")).map
          (fun d => d.type) = some .single ∧
      (routeQuery ⟨demoShards, [escapedRule], 4⟩
        (parsesTo (document 170000 [((plainDelete (ascii "t")).toJson
          (equalTo (ascii "a\\nb") (.ofLiteral 15) ⟨23, 20, 25⟩), [])])) (ascii "DELETE")).map
          (fun d => d.type) = some .scatter := by
  refine ⟨⟨1, 38, by decide +kernel, rfl⟩, by decide +kernel, by decide +kernel⟩

end Sharegres
