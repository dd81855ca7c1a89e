import Sharegres.Router.LeafMeaning

/-!
# Router - The order of conjuncts

In a WHERE clause of AND nodes over comparisons, the extractor takes the first comparison
that has a key, on whatever column.  A clause with one equality on the shard column is
therefore routed by it only as long as no other conjunct has a key; the order and the
nesting of the conjuncts decide otherwise.

Main results:

- Definition {lit}`AndTree.FoundInAnyOrder`: the clause is routed by the number, however its
  conjuncts are ordered and nested.
- Theorem {lit}`AndTree.toExpr_key`: the key of a clause is the first one of its conjuncts.
- Theorem {lit}`found_in_any_order_iff`: when a clause is routed by the number in any order.
- Theorem {lit}`other_conjunct_first`: a clause with another equality in front.
-/

namespace Sharegres

open Foundation Foundation.Json

/-! ## Comparisons and AND trees -/

/-- A comparison: an {lit}`A_Expr` node with any kind, operator and operands. -/
structure Comparison where
  kind : AExprKind
  op : Text
  moreOps : List Text
  lexpr : Option Operand
  rexpr : Option Operand
  location : Int

/-- An operand without its source position. -/
def Operand.unlocated : Operand → Operand
  | .column first more _ => .column first more 0
  | .const value _ => .const value 0
  | .other tree notColumn notConst => .other tree notColumn notConst

namespace Comparison

/-- The node of a comparison. -/
def toExpr (q : Comparison) : PgExpr :=
  .aexpr q.kind q.op q.moreOps q.lexpr q.rexpr q.location

/-- The comparison without its source positions. -/
def unlocated (q : Comparison) : Comparison :=
  { q with
    lexpr := q.lexpr.map Operand.unlocated
    rexpr := q.rexpr.map Operand.unlocated
    location := 0 }

/-- The comparison is an equality on a column. -/
def equalityOn (c : Text) (q : Comparison) : Bool :=
  match q.lexpr with
  | some (.column first more _) =>
      q.kind == .op && q.op == ascii "=" && refColumn first more == some c
  | _ => false

/-- The key of a comparison does not depend on source positions. -/
theorem unlocated_key (q : Comparison) : q.unlocated.toExpr.key = q.toExpr.key := by
  rcases q with ⟨kind, op, moreOps, lexpr, rexpr, location⟩
  have hconst : constKey (rexpr.map Operand.unlocated) = constKey rexpr := by
    rcases rexpr with _ | (_ | _ | _) <;> rfl
  rcases lexpr with _ | (_ | _ | _)
  case some.column first more loc =>
      simp only [toExpr, unlocated, Option.map_some, Operand.unlocated, PgExpr.key, hconst]
  all_goals rfl

end Comparison

/-- A clause of AND nodes over comparisons. -/
inductive AndTree where
  | leaf (q : Comparison)
  | and (args : List AndTree) (location : Int)

namespace AndTree

mutual

/-- The parse tree of a clause. -/
def toExpr : AndTree → PgExpr
  | .leaf q => q.toExpr
  | .and args location => .bool .and (toExprs args) location

/-- The parse trees of a list of clauses. -/
def toExprs : List AndTree → List PgExpr
  | [] => []
  | t :: ts => t.toExpr :: toExprs ts

end

mutual

/-- The conjuncts of a clause from left to right. -/
def conjuncts : AndTree → List Comparison
  | .leaf q => [q]
  | .and args _ => conjunctsAll args

/-- The conjuncts of a list of clauses. -/
def conjunctsAll : List AndTree → List Comparison
  | [] => []
  | t :: ts => t.conjuncts ++ conjunctsAll ts

end

/-- Two clauses have the same conjuncts, in any order and nesting and at any positions. -/
def SameConjuncts (t t' : AndTree) : Prop :=
  (t'.conjuncts.map Comparison.unlocated).Perm (t.conjuncts.map Comparison.unlocated)

/-- Exactly one conjunct is an equality on the column, and it is with the number. -/
def OneEquality (c : Text) (n : Int32) (t : AndTree) : Prop :=
  ∃ q loc, t.conjuncts.filter (·.equalityOn c) = [q] ∧
    q.rexpr = some (.const (.ofLiteral n.toInt) loc)

/-- Every statement on the table whose clause has the same conjuncts is routed to the shard
of the number. -/
def FoundInAnyOrder (map : ShardMap) (table : Text) (rule : TableRule) (n : Int32)
    (t : AndTree) : Prop :=
  ∃ s, shardMapFindByInt rule n.toInt64 = some s ∧
    ∀ (t' : AndTree) (stmt : WhereStmt) (pgQueryParse : Text → Option Text) (sql : Text)
      (version : Int) (trailing : Members), t.SameConjuncts t' → stmt.table.relname = table →
      pgQueryParse sql = some (render (document version [(stmt.toJson t'.toExpr, trailing)])) →
      routeQuery map pgQueryParse sql = some (.singleTo rule s)

/-! ## The key of a clause -/

mutual

/-- The key of a clause is the first one of its conjuncts. -/
theorem toExpr_key :
    ∀ t : AndTree, t.toExpr.key = t.conjuncts.findSome? fun q => q.toExpr.key
  | .leaf q => by
      rw [toExpr, conjuncts, List.findSome?_singleton]
  | .and args location => by
      rw [toExpr, PgExpr.key, conjuncts]
      exact toExprs_key args

theorem toExprs_key :
    ∀ ts : List AndTree, PgExpr.argsKey (toExprs ts) =
      (conjunctsAll ts).findSome? fun q => q.toExpr.key
  | [] => rfl
  | t :: ts => by
      rw [toExprs, PgExpr.argsKey, conjunctsAll, List.findSome?_append, toExpr_key t]
      cases t.conjuncts.findSome? fun q => q.toExpr.key with
      | some k => rfl
      | none => exact toExprs_key ts

end

theorem SameConjuncts.refl (t : AndTree) : t.SameConjuncts t :=
  List.Perm.refl _

/-- A conjunct of a clause has its key in every clause with the same conjuncts. -/
theorem SameConjuncts.exists_key {t t' : AndTree} (h : t.SameConjuncts t') {q : Comparison}
    (hq : q ∈ t'.conjuncts) : ∃ q' ∈ t.conjuncts, q'.toExpr.key = q.toExpr.key := by
  have hmem := h.mem_iff.mp (List.mem_map_of_mem (f := Comparison.unlocated) hq)
  rcases List.mem_map.mp hmem with ⟨q', hq', heq⟩
  refine ⟨q', hq', ?_⟩
  rw [← q'.unlocated_key, heq, q.unlocated_key]

theorem SameConjuncts.symm {t t' : AndTree} (h : t.SameConjuncts t') : t'.SameConjuncts t :=
  List.Perm.symm h

theorem conjunctsAll_leaves (qs : List Comparison) :
    conjunctsAll (qs.map AndTree.leaf) = qs := by
  induction qs with
  | nil => rfl
  | cons q qs ih => rw [List.map_cons, conjunctsAll, conjuncts, ih, List.singleton_append]

/-- Any conjunct can be put in front. -/
theorem exists_conjunct_first {t : AndTree} {q : Comparison} (hq : q ∈ t.conjuncts) :
    ∃ t' rest, t.SameConjuncts t' ∧ t'.conjuncts = q :: rest := by
  rcases List.append_of_mem hq with ⟨front, back, hsplit⟩
  have hconj : (AndTree.and ((q :: (front ++ back)).map .leaf) 0).conjuncts =
      q :: (front ++ back) := by
    rw [conjuncts, conjunctsAll_leaves]
  refine ⟨_, front ++ back, ?_, hconj⟩
  rw [SameConjuncts, hconj, hsplit]
  exact (List.perm_middle.symm).map Comparison.unlocated

end AndTree

/-! ## Routes of a clause -/

/-- A route for one shard names the column and the home of its key. -/
theorem routeByKey_eq_singleTo {rule : TableRule} {column : Text} {key : ConstKey} {s : Shard}
    (h : routeByKey rule (some (column, key)) = .singleTo rule s) :
    rule.shardColumn = some (outToken column) ∧ keyHome rule key = some s := by
  have hs : s ∈ (routeByKey rule (some (column, key))).targetShards := by
    rw [h]
    exact List.mem_singleton.mpr rfl
  rcases routeByKey_single (by rw [h]; rfl) hs with ⟨column', key', heq, hcol, hhome⟩
  cases heq
  exact ⟨hcol, hhome⟩

/-- A clause of conjuncts is routed to the shard of the number, whatever the order and the
nesting, exactly if the rule has shards, some conjunct has a key, and every conjunct that has
one is printed as one on the shard column and has the home of the number. -/
theorem found_in_any_order_iff {map : ShardMap} {table c : Text} {rule : TableRule}
    (hrule : shardMapFindRule map (outToken table) = some rule)
    (hbroadcast : rule.broadcast = false) (hcol : rule.shardColumn = some c) (n : Int32)
    (t : AndTree) :
    t.FoundInAnyOrder map table rule n ↔
      rule.shards ≠ [] ∧ (∃ q ∈ t.conjuncts, q.toExpr.key ≠ none) ∧
        ∀ q ∈ t.conjuncts, ∀ d key, q.toExpr.key = some (d, key) →
          outToken d = c ∧ keyHome rule key = shardMapFindByInt rule n.toInt64 := by
  constructor
  · rintro ⟨s, hs, hroutes⟩
    have hroute : ∀ t', t.SameConjuncts t' → routeByKey rule t'.toExpr.key = .singleTo rule s := by
      intro t' hsame
      have hparse := parsesTo_eq (document 0 [((plainDelete table).toJson t'.toExpr, [])]) []
      have hquery := hroutes t' (plainDelete table) _ [] 0 [] hsame rfl hparse
      rw [routeQuery_where hparse hrule hbroadcast, Option.some.injEq] at hquery
      exact hquery
    refine ⟨?_, ?_, ?_⟩
    · intro hnil
      rw [shardMapFindByInt, hnil] at hs
      cases hs
    · by_contra hnone
      push Not at hnone
      have hkey := hroute t (AndTree.SameConjuncts.refl t)
      rw [t.toExpr_key, List.findSome?_eq_none_iff.mpr hnone] at hkey
      cases congrArg RouteDecision.type hkey
    · intro q hq d key hkey
      -- the conjunct decides the route of a clause that begins with it
      rcases AndTree.exists_conjunct_first hq with ⟨t', rest, hsame, hfirst⟩
      have hsingle := hroute t' hsame
      rw [t'.toExpr_key, hfirst, List.findSome?_cons, hkey] at hsingle
      rcases routeByKey_eq_singleTo hsingle with ⟨hd, hhome⟩
      rw [hcol, Option.some.injEq] at hd
      exact ⟨hd.symm, hhome.trans hs.symm⟩
  · rintro ⟨hne, ⟨q, hq, hkey⟩, hall⟩
    rcases Option.isSome_iff_exists.mp (shardMapFindByInt_isSome hne n.toInt64) with ⟨s, hs⟩
    refine ⟨s, hs, fun t' stmt pgQueryParse sql version trailing hsame htable hparse => ?_⟩
    rw [← htable] at hrule
    rw [routeQuery_where hparse hrule hbroadcast, t'.toExpr_key]
    cases hfound : t'.conjuncts.findSome? fun q => q.toExpr.key with
    | none =>
        rcases hsame.symm.exists_key hq with ⟨q', hq', heq⟩
        exact absurd (heq.symm.trans (List.findSome?_eq_none_iff.mp hfound q' hq')) hkey
    | some k =>
        rcases k with ⟨d, key⟩
        rcases List.exists_of_findSome?_eq_some hfound with ⟨q', hq', hkey'⟩
        rcases hsame.exists_key hq' with ⟨q'', hq'', heq⟩
        rcases hall q'' hq'' d key (heq.trans hkey') with ⟨hd, hhome⟩
        rw [routeByKey_of_home (by rw [hcol, hd]) (hhome.trans hs)]

/-- The conjunct {lit}`column = n`. -/
def numberEquals (column : Text) (n : Int) : Comparison :=
  ⟨.op, ascii "=", [], some (.column column [] 0), some (.const (.ofLiteral n) 0), 0⟩

/-- The conjunct {lit}`column < n`. -/
def numberBelow (column : Text) (n : Int) : Comparison :=
  ⟨.op, ascii "<", [], some (.column column [] 0), some (.const (.ofLiteral n) 0), 0⟩

/-- {lit}`x < 5 AND id = 12` is routed by 12 in both orders. -/
theorem range_conjunct_harmless :
    (AndTree.and [.leaf (numberBelow (ascii "x") 5), .leaf (numberEquals (ascii "id") 12)]
      0).FoundInAnyOrder ⟨demoShards, [demoRule], 4⟩ (ascii "t") demoRule 12 := by
  refine (found_in_any_order_iff demoRule_found rfl rfl 12 _).mpr
    ⟨by decide, ⟨numberEquals (ascii "id") 12, by simp [AndTree.conjuncts, AndTree.conjunctsAll],
      by decide +kernel⟩, ?_⟩
  intro q hq d key hkey
  rw [AndTree.conjuncts, AndTree.conjunctsAll, AndTree.conjunctsAll, AndTree.conjuncts,
    AndTree.conjuncts, AndTree.conjunctsAll] at hq
  simp only [List.append_nil, List.singleton_append, List.mem_cons, List.not_mem_nil,
    or_false] at hq
  rcases hq with rfl | rfl
  · rw [show (numberBelow (ascii "x") 5).toExpr.key = none by decide +kernel] at hkey
    cases hkey
  · rw [show (numberEquals (ascii "id") 12).toExpr.key = some (ascii "id", .int 12) by
      decide +kernel, Option.some.injEq, Prod.mk.injEq] at hkey
    rcases hkey with ⟨rfl, rfl⟩
    exact ⟨by decide +kernel, rfl⟩

/-- {lit}`x = 5 AND id = 12` has one equality on {lit}`id` and is sent to every shard. -/
theorem other_conjunct_first :
    (AndTree.and [.leaf (numberEquals (ascii "x") 5), .leaf (numberEquals (ascii "id") 12)]
      0).OneEquality (ascii "id") 12 ∧
    ¬ (AndTree.and [.leaf (numberEquals (ascii "x") 5), .leaf (numberEquals (ascii "id") 12)]
      0).FoundInAnyOrder ⟨demoShards, [demoRule], 4⟩ (ascii "t") demoRule 12 := by
  constructor
  · refine ⟨numberEquals (ascii "id") 12, 0, ?_, rfl⟩
    rw [AndTree.conjuncts, AndTree.conjunctsAll, AndTree.conjunctsAll, AndTree.conjuncts,
      AndTree.conjuncts, AndTree.conjunctsAll]
    have hx : (numberEquals (ascii "x") 5).equalityOn (ascii "id") = false := by decide +kernel
    have hid : (numberEquals (ascii "id") 12).equalityOn (ascii "id") = true := by decide +kernel
    simp [hx, hid]
  · rintro ⟨s, -, hroutes⟩
    have hsingle := hroutes _ (plainDelete (ascii "t")) _ [] 170000 []
      (AndTree.SameConjuncts.refl _) rfl (parsesTo_eq _ _)
    have hscatter : (routeQuery ⟨demoShards, [demoRule], 4⟩
        (parsesTo (document 170000 [((plainDelete (ascii "t")).toJson
          (AndTree.and [.leaf (numberEquals (ascii "x") 5),
            .leaf (numberEquals (ascii "id") 12)] 0).toExpr, [])])) []).map
          (fun d => d.type) = some .scatter := by
      rw [routeQuery_where (parsesTo_eq _ _) demoRule_found rfl]
      decide +kernel
    rw [hsingle] at hscatter
    cases hscatter

end Sharegres
