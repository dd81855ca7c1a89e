import Sharegres.Router.StatementRoutes

/-!
# Router - Names with escaped bytes

libpg_query escapes some bytes of a string when it prints a tree, and
{lit}`json_get_string` takes the printed form as it stands.  A string comes back as it was
exactly when none of its bytes is escaped, and only then is the rule of a table found by the
table's name.

Main results:

- Theorem {lit}`RawStmt.On.table`: the table that is read for a statement.
- Theorem {lit}`decoding_undoes_printing_iff`: which strings come back, with the rules of the
  tables so named.
- Theorem {lit}`angle_bracket_unrouted`: a table whose rule is not found.
-/

namespace Sharegres

open Foundation Foundation.Json

/-! ## Statements on a table -/

/-- The {lit}`RangeVar` of a statement in the place where its kind has one: the first one of
the FROM clause, the relation, or in DDL the first {lit}`relname` of the tree. -/
inductive RawStmt.On (stmt : RawStmt) (table : RangeVar) : Prop where
  | select {clause : Json} (hkind : nodeType stmt.name.body.text = .select)
      (hfrom : get? (PgKey.text .fromClause) stmt.body = some clause)
      (htable : find? (PgKey.text .rangeVar) clause = some (obj table.members))
  | relation (hkind : nodeType stmt.name.body.text ∈ [.insert, .update, .delete])
      (htable : get? (PgKey.text .relation) stmt.body = some (obj table.members))
  | ddl (hkind : nodeType stmt.name.body.text = .ddl)
      (htable : find? (PgKey.text .relname) stmt.toJson = some (strVal table.relname))

theorem get?_relname (table : RangeVar) :
    get? (PgKey.text .relname) (obj table.members) = some (strVal table.relname) := by
  rw [RangeVar.members, get?_nodeField_append, if_neg (by simp), get?_nodeField_append,
    if_neg (by simp), get?_obj_cons, if_pos rfl]

/-- The table that is read for a statement is the printed name. -/
theorem RawStmt.On.table {stmt : RawStmt} {table : RangeVar} (h : stmt.On table) :
    stmt.info.table = some (outToken table.relname) := by
  have hread : ∀ info : StmtInfo,
      (info.readTable (obj table.members)).table = some (outToken table.relname) := by
    intro info
    rw [StmtInfo.readTable, get?_relname]
    rfl
  cases h with
  | select hkind hfrom htable =>
      rw [RawStmt.info, nodeInfo, hkind]
      dsimp only
      rw [StmtInfo.readWhereClause_table, StmtInfo.readFrom, hfrom]
      dsimp only
      rw [htable]
      exact hread _
  | relation hkind htable =>
      have hrel : ∀ info : StmtInfo,
          (info.readRelation stmt.body).table = some (outToken table.relname) := by
        intro info
        rw [StmtInfo.readRelation, htable]
        exact hread _
      simp only [List.mem_cons, List.not_mem_nil, or_false] at hkind
      rcases hkind with hkind | hkind | hkind
      · rw [RawStmt.info, nodeInfo, hkind]
        exact hrel _
      · rw [RawStmt.info, nodeInfo, hkind]
        exact (StmtInfo.readWhereClause_table _ _).trans (hrel _)
      · rw [RawStmt.info, nodeInfo, hkind]
        exact (StmtInfo.readWhereClause_table _ _).trans (hrel _)
  | ddl hkind htable =>
      rw [RawStmt.info_ddl hkind, htable]
      rfl

/-! ## Decoding -/

/-- {lit}`json_get_string` reads the string back from its token, whatever follows. -/
def ComesBack (s : Text) : Prop :=
  ∀ r, jsonGetString (render (strVal s) ++ r) = some s

/-- For every statement on a table of this name, every shard map with a rule for the table
has such a rule under the name that was parsed. -/
def RulesFound (s : Text) : Prop :=
  ∀ (pgQueryParse : Text → Option Text) (sql : Text) (version : Int) (stmt : RawStmt)
    (more : List RawStmt) (table : RangeVar),
    pgQueryParse sql = some (printed version (stmt :: more)) → stmt.On table →
    table.relname = s →
    ∃ result, parseQuery pgQueryParse sql = some (0, result) ∧
      ∀ map : ShardMap, (∃ rule ∈ map.tableRules, rule.tableName = s) →
        ∃ rule, result.tableName.bind (shardMapFindRule map) = some rule ∧ rule.tableName = s

/-- A name comes back exactly if it is printed unchanged. -/
theorem comesBack_iff (s : Text) : ComesBack s ↔ outToken s = s := by
  have hget : ∀ r, jsonGetString (render (strVal s) ++ r) = some (outToken s) :=
    jsonGetString_tree (strVal s)
  constructor
  · intro h
    exact Option.some.inj ((hget []).symm.trans (h []))
  · intro h r
    rw [hget r, h]

/-- A rule that is found has the name it was looked up by. -/
theorem shardMapFindRule_name {map : ShardMap} {name : Text} {rule : TableRule}
    (h : shardMapFindRule map name = some rule) : rule.tableName = name := by
  have htest := List.find?_some h
  exact of_decide_eq_true htest

/-- Rules for such names are found. -/
theorem rulesFound_of_printed {s : Text} (hs : outToken s = s) : RulesFound s := by
  rintro pgQueryParse sql version stmt more table hparse hon rfl
  rcases parseQuery_tree hparse with ⟨result, hresult, hinfo, -⟩
  refine ⟨result, hresult, ?_⟩
  rintro map ⟨rule, hmem, hname⟩
  have htable : result.tableName = some table.relname := by
    rw [show result.tableName = stmt.info.table from congrArg StmtInfo.table hinfo, hon.table, hs]
  have hsome : (shardMapFindRule map table.relname).isSome = true := by
    rw [shardMapFindRule, List.find?_isSome]
    exact ⟨rule, hmem, decide_eq_true hname⟩
  obtain ⟨rule', hrule'⟩ := Option.isSome_iff_exists.mp hsome
  exact ⟨rule', by rw [htable, Option.bind_some, hrule'], shardMapFindRule_name hrule'⟩

/-- A DELETE without conditions. -/
def deleteAll (table : Text) : RawStmt where
  name := tok .deleteNode
  body := obj [(tok .relation, obj (RangeVar.members ⟨none, none, table, [], tightMembers_nil⟩))]
  position := []
  tight := rfl
  position_unnamed := unnamed_nil

theorem nodeType_deleteNode : nodeType (PgKey.text .deleteNode) = .delete := by
  simp [nodeType, PgKey.text, ascii]

theorem deleteAll_on (table : Text) :
    (deleteAll table).On ⟨none, none, table, [], tightMembers_nil⟩ := by
  refine .relation ?_ ((get?_obj_cons ..).trans (if_pos rfl))
  rw [show nodeType (deleteAll table).name.body.text = .delete from nodeType_deleteNode]
  decide

/-- A rule for a table, without shards. -/
def emptyRule (table : Text) : TableRule := ⟨table, none, .hash, false, []⟩

/-- The rule of a table is found for the DELETE only if its name is printed as it is. -/
theorem deleteAll_rule {s : Text} {result : ParseResult}
    (hresult : parseQuery (parsesAs (deleteAll s)) [] = some (0, result)) {rule : TableRule}
    (hrule : result.tableName.bind (shardMapFindRule ⟨[], [emptyRule s], 0⟩) = some rule) :
    outToken s = s := by
  rcases parseQuery_tree (parsesAs_eq (deleteAll s) []) with ⟨result', hresult', hinfo, -⟩
  rw [hresult] at hresult'
  cases hresult'
  have htable : result.tableName = some (outToken s) :=
    (congrArg StmtInfo.table hinfo).trans (deleteAll_on s).table
  rw [htable, Option.bind_some] at hrule
  have hmem := List.mem_of_find?_eq_some hrule
  rw [List.mem_singleton.mp hmem] at hrule
  exact (shardMapFindRule_name hrule).symm

/-- Only for such names are all rules found. -/
theorem rulesFound_iff (s : Text) : RulesFound s ↔ outToken s = s := by
  constructor
  · intro h
    rcases h _ [] 170000 _ [] _ (parsesAs_eq (deleteAll s) []) (deleteAll_on s) rfl with
      ⟨result, hresult, hfound⟩
    rcases hfound ⟨[], [emptyRule s], 0⟩ ⟨_, List.mem_singleton.mpr rfl, rfl⟩ with
      ⟨rule, hrule, -⟩
    exact deleteAll_rule hresult hrule
  · exact rulesFound_of_printed

/-- A string comes back from its token, and the rules of the tables of this name are found,
exactly when none of its bytes is a quote, a backslash, a control byte or an angle bracket. -/
theorem decoding_undoes_printing_iff (s : Text) :
    (ComesBack s ∧ RulesFound s) ↔ ∀ b ∈ s, PrintedAsIs b := by
  rw [comesBack_iff, rulesFound_iff, and_self, outToken_eq_self_iff]

/-- The table {lit}`a<b` has a rule, and its name does not come back from the printed tree,
so that the rule is not found. -/
theorem angle_bracket_unrouted :
    jsonGetString (render (strVal (ascii "a<b"))) = some (ascii "a\\u003cb") ∧
    ∃ result, parseQuery (parsesAs (deleteAll (ascii "a<b"))) [] = some (0, result) ∧
      result.tableName.bind
        (shardMapFindRule ⟨[], [emptyRule (ascii "a<b")], 0⟩) = none := by
  have hprinted : outToken (ascii "a<b") = ascii "a\\u003cb" := by
    simp [ascii, outToken, outByte, hexDigit]
  constructor
  · rw [← hprinted, ← List.append_nil (render (strVal (ascii "a<b")))]
    exact jsonGetString_tree (strVal (ascii "a<b")) []
  · rcases parseQuery_tree (parsesAs_eq (deleteAll (ascii "a<b")) []) with ⟨result, hresult, -⟩
    refine ⟨result, hresult, ?_⟩
    rw [Option.eq_none_iff_forall_ne_some]
    intro rule hrule
    have heq := hprinted.symm.trans (deleteAll_rule hresult hrule)
    simp [ascii] at heq

end Sharegres
