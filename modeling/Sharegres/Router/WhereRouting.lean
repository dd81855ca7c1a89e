import Sharegres.Router.KeyedRoutes

/-!
# Router - Soundness of routing by a WHERE clause

WHERE trees of comparisons between a column and an integer literal, with the
three-valued meaning SQL gives them, and the question whether a route for one shard
reaches every row that satisfies the clause.

The extractor takes the leftmost equality whose literal is printed as a non-zero
{lit}`ival` and never looks at the connectives above it.  A route for one shard is
therefore right for every rule exactly when the whole clause entails that equality.

Main results:

- Definition {lit}`Where.eval`: three-valued meaning of a clause on a row.
- Theorem {lit}`Where.toExpr_key`: the key found in the printed clause.
- Theorem {lit}`whereRoutingSound_iff`: when routing by the clause is sound.
- Theorem {lit}`keyLeafEntailed_of_conjunctive`: clauses built from AND alone.
-/

namespace Sharegres

open Foundation Foundation.Json

variable {n : Int} {d : Text}

/-! ## Clauses and their meaning -/

/-- Comparison operators. -/
inductive CmpOp where
  | eq
  | ne
  | lt
  | gt
deriving DecidableEq, Repr

/-- The operator's name in the parse tree. -/
def CmpOp.text : CmpOp → Text
  | .eq => ascii "="
  | .ne => ascii "<>"
  | .lt => ascii "<"
  | .gt => ascii ">"

/-- The comparison of two integers. -/
def CmpOp.holds : CmpOp → Int → Int → Bool
  | .eq, x, y => x == y
  | .ne, x, y => x != y
  | .lt, x, y => decide (x < y)
  | .gt, x, y => decide (y < x)

/-- Source positions of a comparison, its column and its literal. -/
structure LeafLocations where
  expr : Int
  column : Int
  literal : Int

/-- A WHERE clause over comparisons {lit}`column op literal`. -/
inductive Where where
  | leaf (column : Text) (op : CmpOp) (literal : Int) (locations : LeafLocations)
  | conj (args : List Where) (location : Int)
  | disj (args : List Where) (location : Int)
  | neg (arg : Where) (location : Int)

/-- A row gives every column a value or NULL. -/
abbrev Row := Text → Option Int

/-- Three-valued conjunction, with {lean}`none` for unknown. -/
def kleeneAnd : Option Bool → Option Bool → Option Bool
  | some false, _ => some false
  | _, some false => some false
  | some true, some true => some true
  | _, _ => none

/-- Three-valued disjunction. -/
def kleeneOr : Option Bool → Option Bool → Option Bool
  | some true, _ => some true
  | _, some true => some true
  | some false, some false => some false
  | _, _ => none

mutual

/-- The truth value of a clause on a row. -/
def Where.eval (row : Row) : Where → Option Bool
  | .leaf column op literal _ => (row column).map fun x => op.holds x literal
  | .conj args _ => Where.evalAll row args
  | .disj args _ => Where.evalAny row args
  | .neg arg _ => (Where.eval row arg).map not

/-- Conjunction of a list of clauses. -/
def Where.evalAll (row : Row) : List Where → Option Bool
  | [] => some true
  | w :: ws => kleeneAnd (Where.eval row w) (Where.evalAll row ws)

/-- Disjunction of a list of clauses. -/
def Where.evalAny (row : Row) : List Where → Option Bool
  | [] => some false
  | w :: ws => kleeneOr (Where.eval row w) (Where.evalAny row ws)

end

theorem kleeneAnd_eq_true {a b : Option Bool} (h : kleeneAnd a b = some true) :
    a = some true ∧ b = some true := by
  rcases a with _ | (_ | _) <;> rcases b with _ | (_ | _) <;> simp [kleeneAnd] at h ⊢

/-! ## Parse trees of clauses -/

mutual

/-- The parse tree of a clause. -/
def Where.toExpr : Where → PgExpr
  | .leaf column op literal locs =>
      .aexpr .op op.text [] (some (.column column [] locs.column))
        (some (.const (.ofLiteral literal) locs.literal)) locs.expr
  | .conj args location => .bool .and (Where.toExprs args) location
  | .disj args location => .bool .or (Where.toExprs args) location
  | .neg arg location => .bool .not [Where.toExpr arg] location

/-- The parse trees of a list of clauses. -/
def Where.toExprs : List Where → List PgExpr
  | [] => []
  | w :: ws => Where.toExpr w :: Where.toExprs ws

end

/-- Literals that are printed as a readable {lit}`ival`. -/
def readableLiteral (n : Int) : Bool :=
  n != 0 && decide (n.natAbs < 2 ^ 31)

theorem readableLiteral_iff :
    readableLiteral n = true ↔ n ≠ 0 ∧ n.natAbs < 2 ^ 31 := by
  rw [readableLiteral, Bool.and_eq_true, bne_iff_ne, decide_eq_true_iff]

mutual

/-- The leftmost equality with a readable literal. -/
def Where.keyLeaf : Where → Option (Text × Int)
  | .leaf column op literal _ =>
      if op = .eq ∧ readableLiteral literal = true then some (column, literal) else none
  | .conj args _ => Where.keyLeafs args
  | .disj args _ => Where.keyLeafs args
  | .neg arg _ => Where.keyLeaf arg

/-- The first key leaf of a list of clauses. -/
def Where.keyLeafs : List Where → Option (Text × Int)
  | [] => none
  | w :: ws =>
      match Where.keyLeaf w with
      | some k => some k
      | none => Where.keyLeafs ws

end

/-- The key value of an integer literal. -/
theorem PgConst.ofLiteral_key (n : Int) :
    (PgConst.ofLiteral n).key =
      if readableLiteral n = true then some (.int (Int64.ofInt n)) else none := by
  unfold PgConst.ofLiteral
  by_cases hsize : n.natAbs < 2 ^ 31
  · have hread : (Int32.ofInt n).toInt = n := Int32.toInt_ofInt_of_le (by omega) (by omega)
    rw [if_pos hsize, PgConst.key]
    by_cases hn : n = 0
    · rw [if_pos (by rw [hn]; rfl), if_neg (fun h => (readableLiteral_iff.mp h).1 hn)]
    · have hne : Int32.ofInt n ≠ 0 := by
        intro h
        rw [h] at hread
        exact hn hread.symm
      rw [if_neg hne, if_pos (readableLiteral_iff.mpr ⟨hn, hsize⟩)]
      refine congrArg (fun v => some (ConstKey.int v)) ?_
      rw [← Int64.toInt_inj, Int32.toInt_toInt64, hread,
        Int64.toInt_ofInt_of_le (by omega) (by omega)]
  · rw [if_neg hsize, if_neg (fun h => hsize (readableLiteral_iff.mp h).2)]
    rfl

private theorem CmpOp.text_eq {op : CmpOp} : op.text = ascii "=" ↔ op = .eq := by
  cases op with
  | eq => simp [CmpOp.text]
  | ne => simp [CmpOp.text, ascii]
  | lt => simp [CmpOp.text, ascii]
  | gt => simp [CmpOp.text, ascii]

mutual

/-- The key the extractor finds in a printed clause. -/
theorem Where.toExpr_key :
    ∀ w : Where, w.toExpr.key = w.keyLeaf.map fun k => (k.1, .int (Int64.ofInt k.2))
  | .leaf column op literal locs => by
      rw [Where.toExpr, PgExpr.key, constKey, PgConst.ofLiteral_key, Where.keyLeaf]
      by_cases hop : op = .eq
      · rw [if_pos (CmpOp.text_eq.mpr hop)]
        by_cases hread : readableLiteral literal = true
        · rw [if_pos hread, if_pos ⟨hop, hread⟩]
          rfl
        · rw [if_neg hread, if_neg (fun h => hread h.2)]
          rfl
      · rw [if_neg (fun h => hop (CmpOp.text_eq.mp h)), if_neg (fun h => hop h.1)]
        rfl
  | .conj args location => by
      rw [Where.toExpr, PgExpr.key, Where.keyLeaf]
      exact Where.toExprs_key args
  | .disj args location => by
      rw [Where.toExpr, PgExpr.key, Where.keyLeaf]
      exact Where.toExprs_key args
  | .neg arg location => by
      rw [Where.toExpr, PgExpr.key, Where.keyLeaf, PgExpr.argsKey, Where.toExpr_key arg]
      cases arg.keyLeaf <;> rfl

/-- The key found in a list of arguments. -/
theorem Where.toExprs_key :
    ∀ ws : List Where, PgExpr.argsKey (Where.toExprs ws) =
      (Where.keyLeafs ws).map fun k => (k.1, .int (Int64.ofInt k.2))
  | [] => rfl
  | w :: ws => by
      rw [Where.toExprs, PgExpr.argsKey, Where.keyLeafs, Where.toExpr_key w]
      cases w.keyLeaf with
      | some k => rfl
      | none => exact Where.toExprs_key ws

end

/-! ## Soundness -/

/-- Routing by a clause is sound for a shard column: whenever a SELECT, UPDATE or
DELETE with the clause is routed to one shard by a rule on that column, every row
that satisfies the clause and has an integer in the column is at home there. -/
def WhereRoutingSound (c : Text) (w : Where) : Prop :=
  ∀ (map : ShardMap) (rule : TableRule) (stmt : WhereStmt) (pgQueryParse : Text → Option Text)
    (sql : Text) (version : Int) (trailing : Members) (decision : RouteDecision) (s : Shard),
    shardMapFindRule map (outToken stmt.table.relname) = some rule →
    rule.broadcast = false → rule.shardColumn = some c →
    pgQueryParse sql = some (render (document version [(stmt.toJson w.toExpr, trailing)])) →
    routeQuery map pgQueryParse sql = some decision →
    decision.type = .single → s ∈ decision.targetShards →
    ∀ (row : Row) (k : Int64), row c = some k.toInt → w.eval row = some true →
      shardMapFindByInt rule k = some s

/-- The clause entails its leftmost readable equality if that is one on the shard
column. -/
def KeyLeafEntailed (c : Text) (w : Where) : Prop :=
  ∀ (d : Text) (n : Int), w.keyLeaf = some (d, n) → outToken d = c →
    ∀ (row : Row) (k : Int64), row c = some k.toInt → w.eval row = some true → k.toInt = n

/-- A key leaf has a readable literal. -/
theorem PgConst.ofLiteral_readable (h : readableLiteral n = true) :
    (Int64.ofInt n).toInt = n := by
  have hsize := (readableLiteral_iff.mp h).2
  exact Int64.toInt_ofInt_of_le (by omega) (by omega)

mutual

theorem Where.keyLeaf_readable :
    ∀ w : Where, w.keyLeaf = some (d, n) → readableLiteral n = true
  | .leaf column op literal locs, h => by
      rw [Where.keyLeaf] at h
      by_cases hleaf : op = .eq ∧ readableLiteral literal = true
      · rw [if_pos hleaf] at h
        cases h
        exact hleaf.2
      · rw [if_neg hleaf] at h
        cases h
  | .conj args location, h => by
      rw [Where.keyLeaf] at h
      exact Where.keyLeafs_readable args h
  | .disj args location, h => by
      rw [Where.keyLeaf] at h
      exact Where.keyLeafs_readable args h
  | .neg arg location, h => by
      rw [Where.keyLeaf] at h
      exact Where.keyLeaf_readable arg h

theorem Where.keyLeafs_readable :
    ∀ ws : List Where, Where.keyLeafs ws = some (d, n) → readableLiteral n = true
  | [], h => by
      rw [Where.keyLeafs] at h
      cases h
  | w :: ws, h => by
      rw [Where.keyLeafs] at h
      cases hw : w.keyLeaf with
      | some k =>
          rw [hw] at h
          cases h
          exact Where.keyLeaf_readable w hw
      | none =>
          rw [hw] at h
          exact Where.keyLeafs_readable ws h

end

/-! ## Rules that tell two keys apart -/

/-- A range rule with an empty first shard and a second shard for one key. -/
def separatingRule (table c : Text) (x : UInt64) : TableRule where
  tableName := table
  shardColumn := some c
  method := .range
  broadcast := false
  shards := [⟨0, ascii "empty", some [], 0, 0⟩, ⟨1, ascii "single", some [], x, x + 1⟩]

/-- A range of one key covers that key only. -/
theorem covers_single {s : Shard} (hs : s.keyRangeEnd = s.keyRangeStart + 1)
    (hx : s.keyRangeStart.toNat + 1 < 2 ^ 64) (u : UInt64) :
    s.covers u = decide (u = s.keyRangeStart) := by
  have hsucc : (s.keyRangeStart + 1).toNat = s.keyRangeStart.toNat + 1 := by
    rw [UInt64.toNat_add]
    exact Nat.mod_eq_of_lt hx
  rw [Bool.eq_iff_iff, Shard.covers, hs, Bool.and_eq_true, decide_eq_true_iff, decide_eq_true_iff,
    decide_eq_true_iff, UInt64.lt_iff_toNat_lt, UInt64.le_iff_toNat_le, hsucc,
    ← UInt64.toNat_inj]
  omega

/-- The home of a key in a rule with two ranges. -/
theorem separatingRule_home {table c : Text} {x : UInt64} (hx : x.toNat + 1 < 2 ^ 64)
    (key : Int64) :
    shardMapFindByInt (separatingRule table c x) key =
      if key.toUInt64 = x then some ⟨1, ascii "single", some [], x, x + 1⟩
      else some ⟨0, ascii "empty", some [], 0, 0⟩ := by
  have hempty : Shard.covers ⟨0, ascii "empty", some [], 0, 0⟩ key.toUInt64 = false := by
    simp [Shard.covers]
  have hsingle := covers_single (s := ⟨1, ascii "single", some [], x, x + 1⟩) rfl hx key.toUInt64
  unfold shardMapFindByInt TableRule.home separatingRule
  simp only [List.length_cons, List.length_nil, List.find?_cons, hempty, hsingle]
  by_cases hkey : key.toUInt64 = x
  · simp [hkey]
  · simp [hkey]

/-- Two different keys are told apart by some rule. -/
theorem exists_separatingRule {n k : Int64} (h : n ≠ k) (table c : Text) :
    ∃ x s, shardMapFindByInt (separatingRule table c x) n = some s ∧
      shardMapFindByInt (separatingRule table c x) k ≠ some s := by
  have hne : n.toUInt64 ≠ k.toUInt64 := by
    intro heq
    apply h
    rcases n with ⟨n⟩
    rcases k with ⟨k⟩
    exact congrArg Int64.ofUInt64 heq
  by_cases hx : n.toUInt64.toNat + 1 < 2 ^ 64
  · refine ⟨n.toUInt64, ⟨1, ascii "single", some [], n.toUInt64, n.toUInt64 + 1⟩, ?_, ?_⟩
    · rw [separatingRule_home hx, if_pos rfl]
    · rw [separatingRule_home hx, if_neg (Ne.symm hne)]
      simp
  · have hk : k.toUInt64.toNat + 1 < 2 ^ 64 := by
      have hlt := k.toUInt64.toNat_lt
      have hlt' := n.toUInt64.toNat_lt
      by_contra hc
      exact hne (UInt64.toNat_inj.mp (by omega))
    refine ⟨k.toUInt64, ⟨0, ascii "empty", some [], 0, 0⟩, ?_, ?_⟩
    · rw [separatingRule_home hk, if_neg hne]
    · rw [separatingRule_home hk, if_pos rfl]
      simp

/-! ## When routing by a clause is sound -/

/-- A parser that returns one tree for every text. -/
def parsesTo (tree : Json) (_sql : Text) : Option Text :=
  some (render tree)

theorem parsesTo_eq (tree : Json) (sql : Text) : parsesTo tree sql = some (render tree) := rfl

/-- A DELETE from a table, with nothing but a WHERE clause. -/
def plainDelete (table : Text) : WhereStmt where
  kind := .delete
  table := ⟨none, none, table, [], tightMembers_nil⟩
  before := []
  between := []
  after := []
  before_uninspected := uninspected_nil
  between_uninspected := uninspected_nil

/-- Routing by a clause is sound for a shard column exactly when the clause entails
the equality the extractor takes from it. -/
theorem whereRoutingSound_iff (c : Text) (w : Where) :
    WhereRoutingSound c w ↔ KeyLeafEntailed c w := by
  constructor
  · -- a rule that separates the literal from another value refutes soundness
    intro hsound d n hleaf hd row k hrow heval
    have hn := PgConst.ofLiteral_readable (w.keyLeaf_readable hleaf)
    by_contra hne
    have hkeys : Int64.ofInt n ≠ k := by
      intro heq
      rw [heq] at hn
      exact hne hn
    rcases exists_separatingRule hkeys (outToken []) c with ⟨x, s, hhome, hother⟩
    have hrule : shardMapFindRule ⟨[], [separatingRule (outToken []) c x], 0⟩
        (outToken (plainDelete []).table.relname) = some (separatingRule (outToken []) c x) := rfl
    have hroute := routeQuery_where
      (parsesTo_eq (document 0 [((plainDelete []).toJson w.toExpr, [])]) []) hrule rfl
    have hkey : routeByKey (separatingRule (outToken []) c x) (some (d, .int (Int64.ofInt n))) =
        .singleTo (separatingRule (outToken []) c x) s := by
      apply routeByKey_of_home
      · rw [hd]
        rfl
      · exact hhome
    rw [w.toExpr_key, hleaf, Option.map_some, hkey] at hroute
    exact hother (hsound _ _ (plainDelete []) _ _ 0 [] _ s hrule rfl rfl (parsesTo_eq _ _) hroute
      rfl (List.mem_singleton.mpr rfl) row k hrow heval)
  · intro hent map rule stmt pgQueryParse sql version trailing decision s hrule hb hcol hparse
      hroute htype hs row k hrow heval
    rw [routeQuery_where hparse hrule hb, Option.some.injEq] at hroute
    rw [← hroute] at htype hs
    rcases routeByKey_single htype hs with ⟨column, key, hkey, hdcol, hhome⟩
    rw [w.toExpr_key, Option.map_eq_some_iff] at hkey
    rcases hkey with ⟨⟨d, n⟩, hleaf, heq⟩
    cases heq
    have hd : outToken d = c := by
      rw [hcol, Option.some.injEq] at hdcol
      exact hdcol.symm
    have hk : k.toInt = n := hent d n hleaf hd row k hrow heval
    have hn := PgConst.ofLiteral_readable (w.keyLeaf_readable hleaf)
    rw [show k = Int64.ofInt n from Int64.toInt_inj.mp (hk.trans hn.symm)]
    exact hhome

mutual

/-- Clauses built from comparisons by AND alone. -/
def Where.conjunctive : Where → Bool
  | .leaf .. => true
  | .conj args _ => Where.conjunctives args
  | .disj .. => false
  | .neg .. => false

/-- All clauses of a list are conjunctive. -/
def Where.conjunctives : List Where → Bool
  | [] => true
  | w :: ws => Where.conjunctive w && Where.conjunctives ws

end

mutual

/-- A row that satisfies a conjunctive clause satisfies its key leaf. -/
theorem Where.keyLeaf_of_eval {row : Row} :
    ∀ w : Where, w.conjunctive = true → w.keyLeaf = some (d, n) → w.eval row = some true →
      row d = some n
  | .leaf column op literal locs, _, hleaf, heval => by
      rw [Where.keyLeaf] at hleaf
      by_cases hop : op = .eq ∧ readableLiteral literal = true
      · rw [if_pos hop] at hleaf
        cases hleaf
        rw [Where.eval, hop.1, Option.map_eq_some_iff] at heval
        rcases heval with ⟨x, hx, hholds⟩
        rw [hx, eq_of_beq hholds]
      · rw [if_neg hop] at hleaf
        cases hleaf
  | .conj args location, hconj, hleaf, heval => by
      rw [Where.conjunctive] at hconj
      rw [Where.keyLeaf] at hleaf
      rw [Where.eval] at heval
      exact Where.keyLeafs_of_eval args hconj hleaf heval
  | .disj args location, hconj, _, _ => by
      rw [Where.conjunctive] at hconj
      cases hconj
  | .neg arg location, hconj, _, _ => by
      rw [Where.conjunctive] at hconj
      cases hconj

/-- In a conjunction the key that is picked is entailed. -/
theorem Where.keyLeafs_of_eval {row : Row} :
    ∀ ws : List Where, Where.conjunctives ws = true → Where.keyLeafs ws = some (d, n) →
      Where.evalAll row ws = some true → row d = some n
  | [], _, hleaf, _ => by
      rw [Where.keyLeafs] at hleaf
      cases hleaf
  | w :: ws, hconj, hleaf, heval => by
      rw [Where.conjunctives, Bool.and_eq_true] at hconj
      rw [Where.evalAll] at heval
      rcases kleeneAnd_eq_true heval with ⟨hw, hws⟩
      rw [Where.keyLeafs] at hleaf
      cases hkey : w.keyLeaf with
      | some k =>
          rw [hkey] at hleaf
          cases hleaf
          exact Where.keyLeaf_of_eval w hconj.1 hkey hw
      | none =>
          rw [hkey] at hleaf
          exact Where.keyLeafs_of_eval ws hconj.2 hleaf hws

end

/-- Under AND alone the extracted equality is entailed, for columns whose name is
printed as it is. -/
theorem keyLeafEntailed_of_conjunctive {c : Text} {w : Where} (hw : w.conjunctive = true)
    (hc : outToken c = c) : KeyLeafEntailed c w := by
  intro d n hleaf hd row k hrow heval
  have hdc : d = c := outToken_injective (hd.trans hc.symm)
  have hvalue := w.keyLeaf_of_eval hw hleaf heval
  rw [hdc, hrow, Option.some.injEq] at hvalue
  exact hvalue

/-! ## A disjunction on the shard key -/

/-- Two shards for the keys below 10 and from 10 to 20. -/
def demoShards : List Shard :=
  [⟨0, ascii "shard_0", ascii "host=a", 0, 10⟩, ⟨1, ascii "shard_1", ascii "host=b", 10, 20⟩]

/-- The table {lit}`t`, sharded by range on {lit}`id`. -/
def demoRule : TableRule := ⟨ascii "t", some (ascii "id"), .range, false, demoShards⟩

/-- The table and its column are printed as they are. -/
theorem demo_printed : outToken (ascii "t") = ascii "t" ∧ outToken (ascii "id") = ascii "id" := by
  simp [ascii, outToken, outByte]

theorem demoRule_found :
    shardMapFindRule ⟨demoShards, [demoRule], 4⟩ (outToken (ascii "t")) = some demoRule := by
  rw [demo_printed.1, shardMapFindRule, List.find?_cons_of_pos]
  exact decide_eq_true rfl

/-- {lit}`id = 1 OR id = 12`. -/
def orClause : Where :=
  .disj [.leaf (ascii "id") .eq 1 ⟨23, 20, 25⟩, .leaf (ascii "id") .eq 12 ⟨33, 30, 35⟩] 27

/-- {lit}`DELETE FROM t WHERE id = 1 OR id = 12` is sent to the first shard only, but
the row with {lit}`id` 12 is at home on the second. -/
theorem orClause_unsound : ¬WhereRoutingSound (ascii "id") orClause := by
  intro hsound
  have hroute : routeQuery ⟨demoShards, [demoRule], 4⟩
      (parsesTo (document 170000 [((plainDelete (ascii "t")).toJson orClause.toExpr, [])]))
      (ascii "DELETE FROM t WHERE id = 1 OR id = 12") =
      some (.singleTo demoRule ⟨0, ascii "shard_0", ascii "host=a", 0, 10⟩) := by
    rw [routeQuery_where (parsesTo_eq _ _) demoRule_found rfl]
    decide +kernel
  have heval : orClause.eval (fun _ => some 12) = some true := by decide +kernel
  have hhome := hsound _ _ (plainDelete (ascii "t")) _ _ 170000 [] _ _ demoRule_found rfl rfl
    (parsesTo_eq _ _) hroute rfl (List.mem_singleton.mpr rfl) (fun _ => some 12) 12 rfl heval
  exact absurd hhome (by decide +kernel)

end Sharegres
