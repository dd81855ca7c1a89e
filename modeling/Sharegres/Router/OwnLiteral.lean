import Sharegres.Router.InsertRouting
import Sharegres.Router.StatementRoutes

/-!
# Router - The literal of the shard column

A single-row INSERT gives the shard column any expression, and its other target columns may
have subscripts.  The proxy counts the members {lit}`name` up to the shard column, those in
subscripts included, and takes the first constant anywhere in the expression at that position.

Main results:

- Theorem {lit}`insertKey_eq_taken`: the expression that is taken for the shard column's.
- Theorem {lit}`taken_own`: when it is the shard column's own.
- Theorem {lit}`routed_by_literal_iff`: a route for one shard comes from the literal of the
  shard column if the constant that is taken has no home, or the home of the literal.
- Theorem {lit}`nested_constant_routes`: a function call, and another column behind a
  subscript.
-/

namespace Sharegres

open Foundation Foundation.Json

variable {stmt : RawStmt} {rule : TableRule}

/-! ## Single-row INSERTs -/

namespace RowInsert

variable (insert : RowInsert)

/-- The names from the target columns to the end of the statement. -/
def names : List (Option Text) :=
  insert.tree.names

/-- The expression that is taken for the one of a column, if these names stand behind the
statement. -/
def taken (behind : List (Option Text)) (c : Text) : Option ValueTree :=
  insert.tree.taken behind c

end RowInsert

/-- The key of an INSERT is the first constant in the expression that is taken. -/
theorem insertKey_eq_taken {insert : RowInsert} (hbody : stmt.body = insert.body)
    (behind : List (Option Text)) (c : Text) :
    stmt.insertKey behind c = (insert.taken behind c).bind ValueTree.key := by
  rw [RawStmt.insertKey, hbody]
  exact insert.tree.insertKey_eq_taken behind c

/-- The expression in the position of a column without subscripts. -/
def RowInsert.own (insert : RowInsert) (c : Text) : Option ValueTree :=
  (insert.targets.findIdx? fun target =>
    decide (target.name = c) && target.indirection.isEmpty).bind (insert.row[·]?)

private theorem findIdx?_front {α : Type*} {p : α → Bool} {front back : List α} {x : α}
    (hfront : ∀ y ∈ front, p y = false) (hx : p x = true) :
    (front ++ x :: back).findIdx? p = some front.length := by
  rw [List.findIdx?_append, List.findIdx?_eq_none_iff.mpr hfront, List.findIdx?_cons, if_pos hx]
  simp

/-- The expression of the shard column is taken if the column is printed under its own name,
and the columns in front of it have other names and no names in their subscripts. -/
theorem taken_own {insert : RowInsert} {front back : List InsertTarget} {c : Text}
    {location : Int} (hc : outToken c = c)
    (htargets : insert.targets = front ++ ⟨c, [], location⟩ :: back)
    (hfront : ∀ target ∈ front, target.name ≠ c ∧ target.names.length = 1)
    (behind : List (Option Text)) : insert.taken behind c = insert.own c := by
  have hnames : front.flatMap InsertTarget.names =
      front.map fun target => some (outToken target.name) := by
    rw [List.map_eq_flatMap]
    refine List.flatMap_congr fun target htarget => ?_
    have hlength := (hfront target htarget).2
    rw [InsertTarget.names, List.length_cons, Nat.add_eq_right, List.length_eq_zero_iff] at hlength
    rw [InsertTarget.names, hlength]
  have htaken : ((insert.names ++ behind).findIdx? fun name => decide (name = some c)) =
      some (front.map fun target => some (outToken target.name)).length := by
    rw [RowInsert.names, ValuesInsert.names, RowInsert.tree, htargets, List.flatMap_append, hnames,
      List.flatMap_cons, InsertTarget.names, hc]
    simp only [List.append_assoc, List.cons_append]
    refine findIdx?_front (fun name hmem => ?_) (by simp)
    rcases List.mem_map.mp hmem with ⟨target, htarget, rfl⟩
    rw [decide_eq_false_iff_not, Option.some.injEq]
    exact fun h => (hfront target htarget).1 (outToken_injective (h.trans hc.symm))
  have hown : (insert.targets.findIdx? fun target =>
      decide (target.name = c) && target.indirection.isEmpty) = some front.length := by
    rw [htargets]
    refine findIdx?_front (fun target htarget => ?_) (by simp)
    simp [(hfront target htarget).1]
  rw [List.length_map] at htaken
  rw [RowInsert.names] at htaken
  rw [RowInsert.taken, ValuesInsert.taken, RowInsert.own, htaken, hown]
  rfl

/-! ## Routes by the own literal -/

/-- The shard that is looked up for the value of a constant.  A literal beyond the range of
{lit}`int4` is printed as a float with the digits of the number. -/
def PgConst.home (rule : TableRule) : PgConst → Option Shard
  | .int n => shardMapFindByInt rule n.toInt64
  | .float digits =>
      if intNumeral (strtoll digits).toInt = digits then
        shardMapFindByInt rule (strtoll digits)
      else none
  | .str t => shardMapFindByStr rule t
  | .bool _ => none
  | .bits _ => none
  | .null => none

/-- A constant that is printed as it is has the home of its key. -/
theorem PgConst.home_of_key {value : PgConst} {key : ConstKey}
    (hprinted : ∀ t, value = .str t → outToken t = t) (hkey : value.key = some key) :
    value.home rule = keyHome rule key := by
  cases value with
  | int n =>
      rw [PgConst.key] at hkey
      split at hkey
      · cases hkey
      · cases hkey
        rfl
  | str t =>
      cases hkey
      rw [hprinted t rfl]
      rfl
  | float digits => cases hkey
  | bool b => cases hkey
  | bits t => cases hkey
  | null => cases hkey

theorem routeInsert_type_single {key : Option ConstKey}
    (h : (routeInsert rule key).type = .single) :
    ∃ s, (routeInsert rule key).targetShards = [s] ∧ key.bind (keyHome rule) = some s := by
  unfold routeInsert at h ⊢
  cases hhome : key.bind (keyHome rule) with
  | none =>
      rw [hhome] at h
      cases h
  | some s => exact ⟨s, rfl, rfl⟩

/-- The expression of a column is this constant. -/
def RowInsert.Literal (insert : RowInsert) (c : Text) (value : PgConst) : Prop :=
  ∃ e location, insert.own c = some e ∧ e.json = PgConst.toJson value location

/-- The column has a constant, and the shard is the one that is looked up for its value. -/
def RowInsert.LiteralAt (insert : RowInsert) (rule : TableRule) (c : Text) (s : Shard) : Prop :=
  ∃ value, insert.Literal c value ∧ value.home rule = some s

/-- The shard for the first constant in the expression that is taken for the one of a column. -/
def RowInsert.takenHome (insert : RowInsert) (rule : TableRule) (behind : List (Option Text))
    (c : Text) : Option Shard :=
  ((insert.taken behind c).bind ValueTree.key).bind (keyHome rule)

/-- If a statement goes to one shard, it is the one of the column's literal. -/
def RoutedByLiteral (map : ShardMap) (pgQueryParse : Text → Option Text) (sql : Text)
    (rule : TableRule) (insert : RowInsert) (c : Text) : Prop :=
  ∀ decision, routeQuery map pgQueryParse sql = some decision → decision.type = .single →
    ∃ s, decision.targetShards = [s] ∧ insert.LiteralAt rule c s

theorem RowInsert.info_eq {insert : RowInsert} (hname : stmt.name = tok .insertNode)
    (hbody : stmt.body = insert.body) :
    stmt.info = { stmtType := .insert, table := some (outToken insert.table.relname) } := by
  rw [RawStmt.info, hname, hbody]
  exact insert.tree.nodeInfo_insert

/-- The route of an INSERT of one row. -/
theorem routeQuery_row {map : ShardMap} {pgQueryParse : Text → Option Text} {sql c : Text}
    {version : Int} {more : List RawStmt} {insert : RowInsert}
    (hparse : pgQueryParse sql = some (printed version (stmt :: more)))
    (hname : stmt.name = tok .insertNode) (hbody : stmt.body = insert.body)
    (hrule : shardMapFindRule map (outToken insert.table.relname) = some rule)
    (hbroadcast : rule.broadcast = false) (hcol : rule.shardColumn = some c) :
    routeQuery map pgQueryParse sql =
      some (routeInsert rule ((insert.taken (stmtNames more) c).bind ValueTree.key)) := by
  have hinfo := RowInsert.info_eq hname hbody
  rw [routeQuery_tree map hparse, RawStmt.route, hinfo]
  dsimp only
  rw [Option.bind_some, hrule]
  dsimp only
  rw [RawStmt.routeByRule, hinfo, if_neg (by simp [hbroadcast]), if_pos rfl, hcol,
    Option.bind_some, insertKey_eq_taken hbody]
  rw [← hcol, decideInfo_insert hcol]

/-- A route for one shard comes from the literal of the shard column exactly if the first
constant in the expression that is taken has no home, or the home of that literal. -/
theorem routed_by_literal_iff {map : ShardMap} {pgQueryParse : Text → Option Text} {sql c : Text}
    {version : Int} {more : List RawStmt} {insert : RowInsert}
    (hparse : pgQueryParse sql = some (printed version (stmt :: more)))
    (hname : stmt.name = tok .insertNode) (hbody : stmt.body = insert.body)
    (hrule : shardMapFindRule map (outToken insert.table.relname) = some rule)
    (hbroadcast : rule.broadcast = false) (hcol : rule.shardColumn = some c) :
    RoutedByLiteral map pgQueryParse sql rule insert c ↔
      insert.takenHome rule (stmtNames more) c = none ∨
        ∃ value, insert.Literal c value ∧
          insert.takenHome rule (stmtNames more) c = value.home rule := by
  unfold RoutedByLiteral
  rw [routeQuery_row hparse hname hbody hrule hbroadcast hcol]
  constructor
  · intro h
    cases hhome : insert.takenHome rule (stmtNames more) c with
    | none => exact Or.inl rfl
    | some s =>
        rcases routeInsert_single.mpr hhome with ⟨htype, hmem⟩
        rcases h _ rfl htype with ⟨s', hs', value, hvalue, hs⟩
        rw [hs', List.mem_singleton] at hmem
        exact Or.inr ⟨value, hvalue, by rw [hs, hmem]⟩
  · intro h decision hdecision htype
    cases hdecision
    rcases routeInsert_type_single htype with ⟨s, hs, hhome⟩
    rw [RowInsert.takenHome, hhome] at h
    rcases h with h | ⟨value, hvalue, hs'⟩
    · cases h
    · exact ⟨s, hs, value, hvalue, hs'.symm⟩

/-! ## Three statements -/

/-- An INSERT into the table {lit}`t`. -/
def insertInto (targets : List InsertTarget) (row : List ValueTree) : RowInsert where
  table := ⟨none, none, ascii "t", [], tightMembers_nil⟩
  targets := targets
  row := row
  before := []
  selectBefore := []
  selectAfter := []
  after := []
  before_uninspected := uninspected_nil
  selectBefore_uninspected := uninspected_nil

/-- The statement of an INSERT. -/
def RowInsert.toStmt (insert : RowInsert) (htight : insert.body.tight = true) : RawStmt :=
  ⟨tok .insertNode, insert.body, [], htight, unnamed_nil⟩

/-- The sum of two numbers. -/
def sumJson (m n : Int) : Json :=
  PgExpr.toJson (.aexpr .op (ascii "+") [] (some (.const (.ofLiteral m) 27))
    (some (.const (.ofLiteral n) 31)) 29)

theorem subscript_wellEscaped :
    wellEscaped (ascii "A_Indices") = true ∧ wellEscaped (ascii "uidx") = true := by
  simp [ascii, wellEscaped]

/-- A subscript. -/
def subscriptJson (index : Json) : Json :=
  node (KeyTok.compact ⟨ascii "A_Indices", subscript_wellEscaped.1⟩)
    [(KeyTok.compact ⟨ascii "uidx", subscript_wellEscaped.2⟩, index)]

theorem sums_tight : tight (sumJson 5 12) = true ∧
    tight (subscriptJson (sumJson 1 1)) = true := by
  decide +kernel

/-- {lit}`INSERT INTO t (id) VALUES (5)`. -/
def literalInsert : RowInsert :=
  insertInto [⟨ascii "id", [], 15⟩] [.const (.ofLiteral 5) 27]

/-- {lit}`INSERT INTO t (id) VALUES (5 + 12)`. -/
def sumInsert : RowInsert :=
  insertInto [⟨ascii "id", [], 15⟩] [⟨sumJson 5 12, sums_tight.1⟩]

/-- {lit}`INSERT INTO t (a[1 + 1], id, b) VALUES (NULL, 5, 12)`. -/
def subscriptInsert : RowInsert :=
  insertInto
    [⟨ascii "a", [⟨subscriptJson (sumJson 1 1), sums_tight.2⟩], 15⟩,
      ⟨ascii "id", [], 25⟩, ⟨ascii "b", [], 29⟩]
    [.const .null 40, .const (.ofLiteral 5) 46, .const (.ofLiteral 12) 49]

theorem inserts_tight : literalInsert.body.tight = true ∧ sumInsert.body.tight = true ∧
    subscriptInsert.body.tight = true := by
  decide +kernel

/-- The literal of the shard column decides. -/
theorem literal_insert_routed :
    RoutedByLiteral ⟨demoShards, [demoRule], 4⟩
      (parsesAs (literalInsert.toStmt inserts_tight.1)) (ascii "INSERT")
      demoRule literalInsert (ascii "id") := by
  refine (routed_by_literal_iff (parsesAs_eq _ _) rfl rfl demoRule_found rfl rfl).mpr ?_
  have htaken := taken_own demo_printed.2
    (show literalInsert.targets = [] ++ [⟨ascii "id", [], 15⟩] from rfl) (by simp) (stmtNames [])
  have hown : literalInsert.own (ascii "id") = some (.const (.ofLiteral 5) 27) := rfl
  have hkey : (PgConst.ofLiteral 5).key = some (.int 5) := by decide +kernel
  refine Or.inr ⟨.ofLiteral 5, ⟨_, _, hown, rfl⟩, ?_⟩
  rw [RowInsert.takenHome, htaken, hown, Option.bind_some, ValueTree.const_key, hkey,
    PgConst.home_of_key (fun t ht => absurd ht (by simp [PgConst.ofLiteral])) hkey,
    Option.bind_some]

/-- The sum 5 + 12 is sent to the shard of 5, and with a sum in a subscript in front of it the
literal 5 is sent to the shard of the 12 behind it. -/
theorem nested_constant_routes :
    (∃ e, sumInsert.own (ascii "id") = some e ∧
      routeQuery ⟨demoShards, [demoRule], 4⟩
        (parsesAs (sumInsert.toStmt inserts_tight.2.1)) (ascii "INSERT") =
        some (.singleTo demoRule ⟨0, ascii "shard_0", ascii "host=a", 0, 10⟩) ∧
      ¬ RoutedByLiteral ⟨demoShards, [demoRule], 4⟩
        (parsesAs (sumInsert.toStmt inserts_tight.2.1)) (ascii "INSERT")
        demoRule sumInsert (ascii "id")) ∧
    (∃ e, subscriptInsert.own (ascii "id") = some e ∧
      routeQuery ⟨demoShards, [demoRule], 4⟩
        (parsesAs (subscriptInsert.toStmt inserts_tight.2.2))
        (ascii "INSERT") =
        some (.singleTo demoRule ⟨1, ascii "shard_1", ascii "host=b", 10, 20⟩) ∧
      ¬ RoutedByLiteral ⟨demoShards, [demoRule], 4⟩
        (parsesAs (subscriptInsert.toStmt inserts_tight.2.2))
        (ascii "INSERT") demoRule subscriptInsert (ascii "id")) := by
  have htaken : routeInsert demoRule
        ((sumInsert.taken (stmtNames []) (ascii "id")).bind ValueTree.key) =
        .singleTo demoRule ⟨0, ascii "shard_0", ascii "host=a", 0, 10⟩ ∧
      routeInsert demoRule
        ((subscriptInsert.taken (stmtNames []) (ascii "id")).bind ValueTree.key) =
        .singleTo demoRule ⟨1, ascii "shard_1", ascii "host=b", 10, 20⟩ := by
    decide +kernel
  rcases htaken with ⟨hsum, hsubscript⟩
  refine ⟨⟨_, rfl, ?_⟩, ⟨_, rfl, ?_⟩⟩
  · have hroute : routeQuery ⟨demoShards, [demoRule], 4⟩
        (parsesAs (sumInsert.toStmt inserts_tight.2.1)) (ascii "INSERT") =
        some (.singleTo demoRule ⟨0, ascii "shard_0", ascii "host=a", 0, 10⟩) := by
      rw [routeQuery_row (parsesAs_eq _ _) rfl rfl demoRule_found rfl rfl, hsum]
    refine ⟨hroute, fun h => ?_⟩
    rcases h _ hroute rfl with ⟨s, -, value, ⟨e, location, hown, hjson⟩, -⟩
    cases hown
    -- a sum is no constant
    have hconst := congrArg (get? (PgKey.text .aConst)) hjson
    rw [PgConst.toJson, get?_node, if_pos rfl] at hconst
    cases hconst
  · have hroute : routeQuery ⟨demoShards, [demoRule], 4⟩
        (parsesAs (subscriptInsert.toStmt inserts_tight.2.2))
        (ascii "INSERT") =
        some (.singleTo demoRule ⟨1, ascii "shard_1", ascii "host=b", 10, 20⟩) := by
      rw [routeQuery_row (parsesAs_eq _ _) rfl rfl demoRule_found rfl rfl, hsubscript]
    refine ⟨hroute, fun h => ?_⟩
    rcases h _ hroute rfl with ⟨s, hs, value, ⟨e, location, hown, hjson⟩, hhome⟩
    cases hown
    cases hs
    -- the literal has the key 5, which is at home on the other shard
    have hkey : value.key = some (.int 5) := by
      rw [← ValueTree.const_key value location, ValueTree.key,
        show (ValueTree.const value location).json = value.toJson location from rfl, ← hjson]
      decide +kernel
    have hprinted : ∀ t, value = .str t → outToken t = t := by
      rintro t rfl
      cases hkey
    rw [PgConst.home_of_key hprinted hkey] at hhome
    exact absurd hhome (by decide +kernel)

end Sharegres
