import Sharegres.Parser.KeyExtraction
import Sharegres.Router.WhereRouting

/-!
# Router - Routes of INSERT statements

An INSERT is routed by the constant that the first row has for the shard column.
If that constant is not a non-zero 32-bit integer or a string, the statement goes to
all shards of the rule; if the rows have different home shards, the others follow the
first one.

Main results:

- Theorem {lit}`routeQuery_insert`: the route of an INSERT.
- Theorem {lit}`insert_rows_placed_iff`: when every row of a multi-row INSERT goes to
  its home shard.
- Theorem {lit}`insert_single_iff`: when a single-row INSERT goes to one shard.
-/

namespace Sharegres

open Foundation Foundation.Json

variable {stmt : InsertStmt} {version : Int} {row : List ValueTree} {trailing : Members}
  {map : ShardMap} {rule : TableRule} {c sql : Text} {pgQueryParse : Text → Option Text}

/-! ## The route of an INSERT -/

/-- The route for the key of an INSERT. -/
def routeInsert (rule : TableRule) (key : Option ConstKey) : RouteDecision :=
  match key.bind (keyHome rule) with
  | some target => .singleTo rule target
  | none => .scatterTo rule

/-- A single shard is the home of the key. -/
theorem routeInsert_single {key : Option ConstKey} {s : Shard} :
    (routeInsert rule key).type = .single ∧ s ∈ (routeInsert rule key).targetShards ↔
      key.bind (keyHome rule) = some s := by
  unfold routeInsert
  cases key.bind (keyHome rule) with
  | none => simp [RouteDecision.scatterTo]
  | some t => simp [RouteDecision.singleTo, eq_comm]

/-- The decision by the key of an INSERT. -/
theorem decideInfo_insert (hcol : rule.shardColumn = some c) (key : Option ConstKey) :
    decideInfo rule rule.shardColumn key = routeInsert rule key := by
  unfold routeInsert
  cases key with
  | none => rfl
  | some key =>
      cases hhome : keyHome rule key with
      | none => simp [decideInfo, hhome]
      | some target => simp [decideInfo, hcol, hhome]

/-- The route of an INSERT on a sharded table. -/
theorem routeQuery_insert {more : List (Json × Members)}
    (hparse : pgQueryParse sql = some (render (document version ((stmt.toJson, trailing) :: more))))
    (hrule : shardMapFindRule map (outToken stmt.table.relname) = some rule)
    (hbroadcast : rule.broadcast = false) (hcol : rule.shardColumn = some c) :
    routeQuery map pgQueryParse sql = some (routeInsert rule (stmt.key c)) := by
  rcases parseQuery_insert hparse with ⟨result, hquery, hinfo, hpass⟩
  have hkind : result.stmtType = .insert := congrArg StmtInfo.stmtType hinfo
  have hnone : result.key? = none := congrArg StmtInfo.key hinfo
  have hfound : result.shardKeyFound = false := by
    rw [← key?_isSome, hnone]
    rfl
  rw [routeQuery_of_parse hquery,
    routerDecide_keyed (by rw [hkind]; rfl) (congrArg StmtInfo.table hinfo) hrule,
    decideByRule_insert hbroadcast hkind hfound, hcol, hpass, Option.map_some,
    decideByKey_insertKey hcol hnone, decideInfo_insert hcol]

/-! ## Literals of the shard column -/

/-- A row has the given constant for the column {lit}`c`. -/
def InsertStmt.RowConst (stmt : InsertStmt) (c : Text) (row : List ValueTree) (value : PgConst) :
    Prop :=
  ∃ i location, (stmt.cols.findIdx? fun col => decide (col.1 = c)) = some i ∧
    row[i]? = some (ValueTree.const value location)

/-- A row has the integer literal {lit}`n` for the column {lit}`c`. -/
def InsertStmt.RowLiteral (stmt : InsertStmt) (c : Text) (row : List ValueTree) (n : Int) : Prop :=
  ∃ i location, (stmt.cols.findIdx? fun col => decide (col.1 = c)) = some i ∧
    row[i]? = some (ValueTree.const (.ofLiteral n) location)

/-- For a column whose name is printed as it is, the key is the first row's constant. -/
theorem InsertStmt.key_of_const (hc : outToken c = c) {value : PgConst}
    (hrow : stmt.rows.head? = some row) (hconst : stmt.RowConst c row value) :
    stmt.key c = value.key := by
  rcases hconst with ⟨i, location, hi, hvalue⟩
  have hprinted : (fun col : Text × Int => decide (outToken col.1 = c)) =
      fun col => decide (col.1 = c) := by
    funext col
    rw [decide_eq_decide]
    constructor
    · intro h
      exact outToken_injective (h.trans hc.symm)
    · intro h
      rw [h, hc]
  rw [InsertStmt.key, hprinted, hi, Option.bind_some, hrow, Option.bind_some, hvalue,
    Option.bind_some, ValueTree.const_key]

/-- For a column whose name is printed as it is, the key is the first row's
literal. -/
theorem InsertStmt.key_of_literal (hc : outToken c = c) {n : Int}
    (hrow : stmt.rows.head? = some row) (hlit : stmt.RowLiteral c row n) :
    stmt.key c = if readableLiteral n = true then some (.int (Int64.ofInt n)) else none := by
  rw [InsertStmt.key_of_const hc hrow hlit, PgConst.ofLiteral_key]

/-! ## Statements on the demo table -/

/-- {lit}`INSERT INTO t (id) VALUES (n), ...`. -/
def demoInsert (first : Int) (rest : List Int) : InsertStmt where
  table := ⟨none, none, ascii "t", [], tightMembers_nil⟩
  cols := [(ascii "id", 15)]
  rows := (first :: rest).map fun n => [ValueTree.const (.ofLiteral n) 27]
  before := []
  selectBefore := []
  selectAfter := []
  after := []
  rows_ne := by simp
  rows_length := by
    intro row hrow
    rcases List.mem_map.mp hrow with ⟨n, -, rfl⟩
    rfl
  before_uninspected := uninspected_nil
  selectBefore_uninspected := uninspected_nil

/-- The parse tree of a demo statement. -/
def demoTree (first : Int) (rest : List Int) : Json :=
  document 170000 [((demoInsert first rest).toJson, [])]

theorem demoInsert_literal (first : Int) (rest : List Int) (n : Int) :
    (demoInsert first rest).RowLiteral (ascii "id") [ValueTree.const (.ofLiteral n) 27] n := by
  refine ⟨0, 27, ?_, rfl⟩
  show [(ascii "id", (15 : Int))].findIdx? (fun col => decide (col.1 = ascii "id")) = some 0
  simp

theorem demoInsert_literals (first : Int) (rest : List Int) :
    List.Forall₂ ((demoInsert first rest).RowLiteral (ascii "id")) (demoInsert first rest).rows
      (first :: rest) := by
  rw [show (demoInsert first rest).rows =
    (first :: rest).map fun n => [ValueTree.const (.ofLiteral n) 27] from rfl,
    List.forall₂_map_left_iff, List.forall₂_same]
  intro n _
  exact demoInsert_literal first rest n

theorem demoInsert_rule (first : Int) (rest : List Int) :
    shardMapFindRule ⟨demoShards, [demoRule], 4⟩
      (outToken (demoInsert first rest).table.relname) = some demoRule :=
  demoRule_found

/-- The route of a demo statement is that of the first literal. -/
theorem demoInsert_route (first : Int) (rest : List Int) (sql : Text) :
    routeQuery ⟨demoShards, [demoRule], 4⟩ (parsesTo (demoTree first rest)) sql =
      some (routeInsert demoRule
        (if readableLiteral first = true then some (.int (Int64.ofInt first)) else none)) := by
  have hkey : (demoInsert first rest).key (ascii "id") = _ :=
    InsertStmt.key_of_literal demo_printed.2 rfl (demoInsert_literal first rest first)
  rw [routeQuery_insert (parsesTo_eq (demoTree first rest) sql) (demoInsert_rule first rest) rfl
    rfl, hkey]

/-! ## Placement of every row -/

/-- If the statement is routed to one shard, that shard is the home of each of the
given keys. -/
def RowsPlaced (map : ShardMap) (rule : TableRule) (pgQueryParse : Text → Option Text)
    (sql : Text) (literals : List Int) : Prop :=
  ∀ (decision : RouteDecision) (s : Shard), routeQuery map pgQueryParse sql = some decision →
    decision.type = .single → s ∈ decision.targetShards →
    ∀ n ∈ literals, shardMapFindByInt rule (Int64.ofInt n) = some s

/-- The home of the constant that another column, printed like the shard column,
has in the first row. -/
def AliasAgrees (rule : TableRule) (stmt : InsertStmt) (c : Text) (literals : List Int) : Prop :=
  ∀ key s, stmt.key c = some key → keyHome rule key = some s →
    ∀ n ∈ literals, shardMapFindByInt rule (Int64.ofInt n) = some s

/-- The rows are placed exactly if the alias agrees. -/
theorem rowsPlaced_iff_key {literals : List Int}
    (hroute : routeQuery map pgQueryParse sql = some (routeInsert rule (stmt.key c))) :
    RowsPlaced map rule pgQueryParse sql literals ↔ AliasAgrees rule stmt c literals := by
  constructor
  · intro hplaced key s hkey hhome n hn
    have hsingle : (stmt.key c).bind (keyHome rule) = some s := by
      rw [hkey]
      exact hhome
    rcases routeInsert_single.mpr hsingle with ⟨htype, hs⟩
    exact hplaced _ s hroute htype hs n hn
  · intro hagree decision s hdecision htype hs n hn
    rw [hroute, Option.some.injEq] at hdecision
    rw [← hdecision] at htype hs
    have hsingle := routeInsert_single.mp ⟨htype, hs⟩
    rw [Option.bind_eq_some_iff] at hsingle
    rcases hsingle with ⟨key, hkey, hhome⟩
    exact hagree key s hkey hhome n hn

/-- All rows have the home shard of the first one, as far as the key of the first
one is readable.  For a column whose name is not printed as it is, the key is that
of another column. -/
def InsertRowsAgree (rule : TableRule) (stmt : InsertStmt) (c : Text) (literals : List Int) :
    Prop :=
  (outToken c = c → ∀ n₀, literals.head? = some n₀ → readableLiteral n₀ = true →
    ∀ n ∈ literals, shardMapFindByInt rule (Int64.ofInt n) =
      shardMapFindByInt rule (Int64.ofInt n₀)) ∧
  (outToken c ≠ c → AliasAgrees rule stmt c literals)

/-- In a multi-row INSERT every row goes to its home shard exactly when all rows
have the home shard of the first one. -/
theorem insert_rows_placed_iff {literals : List Int}
    (hparse : pgQueryParse sql = some (render (document version [(stmt.toJson, trailing)])))
    (hrule : shardMapFindRule map (outToken stmt.table.relname) = some rule)
    (hbroadcast : rule.broadcast = false) (hcol : rule.shardColumn = some c)
    (hliterals : List.Forall₂ (stmt.RowLiteral c) stmt.rows literals) :
    RowsPlaced map rule pgQueryParse sql literals ↔ InsertRowsAgree rule stmt c literals := by
  rw [rowsPlaced_iff_key (routeQuery_insert hparse hrule hbroadcast hcol)]
  rcases List.exists_cons_of_ne_nil stmt.rows_ne with ⟨row, rows, hrows⟩
  rw [hrows] at hliterals
  cases hliterals with
  | @cons _ n₀ _ rest hfirst _ =>
      have hkey := fun hc => InsertStmt.key_of_literal hc (by rw [hrows]; rfl) hfirst
      unfold InsertRowsAgree
      by_cases hc : outToken c = c
      · constructor
        · intro hagree
          refine ⟨fun _ m hm hread n hn => ?_, fun hne => absurd hc hne⟩
          cases hm
          cases hhome : shardMapFindByInt rule (Int64.ofInt n₀) with
          | some s =>
              refine hagree (.int (Int64.ofInt n₀)) s ?_ hhome n hn
              rw [hkey hc, if_pos hread]
          | none =>
              -- a rule without shards has no home for any key
              by_contra hsome
              have hne : rule.shards ≠ [] := by
                intro hnil
                exact hsome (by simp [shardMapFindByInt, hnil])
              have hhome' := shardMapFindByInt_isSome hne (Int64.ofInt n₀)
              rw [hhome] at hhome'
              exact absurd hhome' (by simp)
        · intro hsame key s hs hhome n hn
          rw [hkey hc] at hs
          by_cases hread : readableLiteral n₀ = true
          · rw [if_pos hread] at hs
            cases hs
            rw [hsame.1 hc n₀ rfl hread n hn]
            exact hhome
          · rw [if_neg hread] at hs
            cases hs
      · constructor
        · intro hagree
          exact ⟨fun h => absurd h hc, fun _ => hagree⟩
        · intro hsame
          exact hsame.2 hc

/-- {lit}`INSERT INTO t (id) VALUES (1), (2)`: both rows are at home on the shard the
statement goes to. -/
theorem demoInsert_one_two_placed :
    RowsPlaced ⟨demoShards, [demoRule], 4⟩ demoRule (parsesTo (demoTree 1 [2]))
      (ascii "INSERT INTO t (id) VALUES (1), (2)") [1, 2] :=
  (insert_rows_placed_iff (parsesTo_eq (demoTree 1 [2]) _) (demoInsert_rule 1 [2]) rfl rfl
    (demoInsert_literals 1 [2])).mpr
    ⟨fun _ n₀ h₀ _ => by cases h₀; decide +kernel,
      fun hc => absurd demo_printed.2 hc⟩

/-- {lit}`INSERT INTO t (id) VALUES (1), (12)` goes to the first shard, but the second
row is at home on the other one. -/
theorem demoInsert_one_twelve_misplaced :
    List.Forall₂ ((demoInsert 1 [12]).RowLiteral (ascii "id")) (demoInsert 1 [12]).rows [1, 12] ∧
      ¬RowsPlaced ⟨demoShards, [demoRule], 4⟩ demoRule (parsesTo (demoTree 1 [12]))
        (ascii "INSERT INTO t (id) VALUES (1), (12)") [1, 12] := by
  refine ⟨demoInsert_literals 1 [12], ?_⟩
  intro hplaced
  have hroute : routeQuery ⟨demoShards, [demoRule], 4⟩ (parsesTo (demoTree 1 [12]))
      (ascii "INSERT INTO t (id) VALUES (1), (12)") =
      some (.singleTo demoRule ⟨0, ascii "shard_0", ascii "host=a", 0, 10⟩) :=
    demoInsert_route 1 [12] _
  have hhome := hplaced _ _ hroute rfl (List.mem_singleton.mpr rfl) 12 (by simp)
  exact absurd hhome (by decide +kernel)

/-! ## Single-row statements -/

/-- The statement is routed to exactly one shard. -/
def RoutedToOne (map : ShardMap) (pgQueryParse : Text → Option Text) (sql : Text) : Prop :=
  ∃ decision s, routeQuery map pgQueryParse sql = some decision ∧ decision.type = .single ∧
    decision.targetShards = [s]

theorem routedToOne_iff_key
    (hroute : routeQuery map pgQueryParse sql = some (routeInsert rule (stmt.key c))) :
    RoutedToOne map pgQueryParse sql ↔
      ∃ key, stmt.key c = some key ∧ (keyHome rule key).isSome = true := by
  unfold RoutedToOne
  rw [hroute]
  constructor
  · rintro ⟨decision, s, hdecision, htype, hs⟩
    rw [Option.some.injEq] at hdecision
    rw [← hdecision] at htype hs
    have hsingle := routeInsert_single.mp ⟨htype, by rw [hs]; exact List.mem_singleton.mpr rfl⟩
    rw [Option.bind_eq_some_iff] at hsingle
    rcases hsingle with ⟨key, hkey, hhome⟩
    exact ⟨key, hkey, by rw [hhome]; rfl⟩
  · rintro ⟨key, hkey, hhome⟩
    rcases Option.isSome_iff_exists.mp hhome with ⟨s, hs⟩
    refine ⟨_, s, rfl, ?_, ?_⟩ <;> simp [routeInsert, hkey, hs, RouteDecision.singleTo]

/-- A single-row INSERT goes to one shard exactly when the literal for the shard
column is printed as a readable integer, and the column under its own name. -/
theorem insert_single_iff {n : Int}
    (hparse : pgQueryParse sql = some (render (document version [(stmt.toJson, trailing)])))
    (hrule : shardMapFindRule map (outToken stmt.table.relname) = some rule)
    (hbroadcast : rule.broadcast = false) (hshards : rule.shards ≠ [])
    (hcol : rule.shardColumn = some c) (hrows : stmt.rows = [row])
    (hliteral : stmt.RowLiteral c row n) :
    RoutedToOne map pgQueryParse sql ↔
      (outToken c = c ∧ n ≠ 0 ∧ n.natAbs < 2 ^ 31) ∨
      (outToken c ≠ c ∧ ∃ key, stmt.key c = some key ∧ (keyHome rule key).isSome = true) := by
  rw [routedToOne_iff_key (routeQuery_insert hparse hrule hbroadcast hcol)]
  by_cases hc : outToken c = c
  · rw [InsertStmt.key_of_literal hc (by rw [hrows]; rfl) hliteral, ← readableLiteral_iff]
    by_cases hread : readableLiteral n = true
    · rw [if_pos hread]
      refine iff_of_true ⟨_, rfl, ?_⟩ (Or.inl ⟨hc, hread⟩)
      exact shardMapFindByInt_isSome hshards _
    · rw [if_neg hread]
      refine iff_of_false ?_ ?_
      · rintro ⟨key, hkey, -⟩
        cases hkey
      · rintro (⟨-, h⟩ | ⟨h, -⟩)
        · exact hread h
        · exact h hc
  · simp [hc]

/-- {lit}`INSERT INTO t (id) VALUES (5)` goes to one shard. -/
theorem demoInsert_five_single :
    RoutedToOne ⟨demoShards, [demoRule], 4⟩ (parsesTo (demoTree 5 []))
      (ascii "INSERT INTO t (id) VALUES (5)") :=
  (insert_single_iff (parsesTo_eq (demoTree 5 []) _) (demoInsert_rule 5 []) rfl
    (List.cons_ne_nil _ _) rfl rfl (demoInsert_literal 5 [] 5)).mpr
    (Or.inl ⟨demo_printed.2, by decide, by decide⟩)

/-- {lit}`INSERT INTO t (id) VALUES (0)` goes to both shards, and so does a literal
beyond 32 bits. -/
theorem demoInsert_zero_scattered :
    (demoInsert 0 []).RowLiteral (ascii "id") [ValueTree.const (.ofLiteral 0) 27] 0 ∧
      ¬RoutedToOne ⟨demoShards, [demoRule], 4⟩ (parsesTo (demoTree 0 []))
        (ascii "INSERT INTO t (id) VALUES (0)") ∧
      routeQuery ⟨demoShards, [demoRule], 4⟩ (parsesTo (demoTree 3000000000 []))
        (ascii "INSERT INTO t (id) VALUES (3000000000)") = some (.scatterTo demoRule) := by
  have hroute : routeQuery ⟨demoShards, [demoRule], 4⟩ (parsesTo (demoTree 0 []))
      (ascii "INSERT INTO t (id) VALUES (0)") = some (.scatterTo demoRule) :=
    demoInsert_route 0 [] _
  refine ⟨demoInsert_literal 0 [] 0, ?_, demoInsert_route 3000000000 [] _⟩
  rintro ⟨decision, s, hdecision, htype, -⟩
  rw [hroute, Option.some.injEq] at hdecision
  rw [← hdecision] at htype
  exact absurd htype (by simp [RouteDecision.scatterTo])

end Sharegres
