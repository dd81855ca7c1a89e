import Sharegres.Parser.KeyExtraction

/-!
# Parser - The leaves of a WHERE clause

The WHERE extractor walks the text of a tree.  Stated on the tree, it reads the
comparisons at the leaves of the clause in document order, whatever connectives stand
above them, and stops at the first one that fixes a column: an equality of a column
reference with a non-zero integer or a string.

Main results:

- Definition {lit}`PgExpr.leaves`: the comparisons in document order.
- Theorem {lit}`key_eq_findSome`: the key of an expression is that of its first
  leaf with one.
- Theorem {lit}`where_text_records_leftmost`: the extractor on the printed clause, in
  whatever document it stands.
-/

namespace Sharegres

open Foundation Foundation.Json

variable {result : ParseResult} {c : WhereLeaf}

/-! ## Comparisons -/

/-- An {lit}`A_Expr` leaf: the first name of its operator and its two sides. -/
structure WhereLeaf where
  op : Text
  lexpr : Option Operand
  rexpr : Option Operand

mutual

/-- The comparisons of an expression in document order. -/
def PgExpr.leaves : PgExpr → List WhereLeaf
  | .aexpr _ op _ lexpr rexpr _ => [⟨op, lexpr, rexpr⟩]
  | .bool _ args _ => PgExpr.argsLeaves args
  | .other .. => []

/-- The comparisons of an argument list. -/
def PgExpr.argsLeaves : List PgExpr → List WhereLeaf
  | [] => []
  | e :: args => e.leaves ++ PgExpr.argsLeaves args

end

/-- A constant that can be a key: a string, or an {lit}`Integer` node other than zero.  A
zero is printed without its value. -/
inductive KeyConst : PgConst → Prop where
  | int {n : Int32} (hn : n ≠ 0) : KeyConst (.int n)
  | str (s : Text) : KeyConst (.str s)

/-- The comparison is an equality of the column with a constant that can be a key. -/
structure WhereLeaf.Fixes (c : WhereLeaf) (column : Text) (value : PgConst) : Prop where
  op : c.op = ascii "="
  lexpr : ∃ more location, c.lexpr = some (.column column more location)
  rexpr : ∃ location, c.rexpr = some (.const value location)
  keyConst : KeyConst value

/-- The column, the kind and the value of a key as a parse result holds them: the
column and a string in their printed form. -/
def ParseResult.Holds (result : ParseResult) (column : Text) : PgConst → Prop
  | .int n =>
      result.shardKeyColumn = some (outToken column) ∧ result.shardKeyIsInt = true ∧
        result.shardKeyInt = n.toInt64
  | .str s =>
      result.shardKeyColumn = some (outToken column) ∧ result.shardKeyIsInt = false ∧
        result.shardKeyStr = some (outToken s)
  | _ => False

/-! ## Keys of comparisons -/

/-- The key of a comparison. -/
def WhereLeaf.key (c : WhereLeaf) : Option (Text × ConstKey) :=
  match c.lexpr with
  | some (.column first _ _) =>
      if c.op = ascii "=" then (constKey c.rexpr).map (first, ·) else none
  | _ => none

mutual

/-- The key of an expression is that of its first comparison with one. -/
theorem key_eq_findSome :
    ∀ e : PgExpr, e.key = e.leaves.findSome? WhereLeaf.key
  | .aexpr kind op moreOps lexpr rexpr location => by
      rw [PgExpr.leaves, List.findSome?_singleton]
      cases lexpr with
      | none => simp [PgExpr.key, WhereLeaf.key]
      | some operand => cases operand <;> simp [PgExpr.key, WhereLeaf.key]
  | .bool op args location => by
      rw [PgExpr.key, PgExpr.leaves]
      exact argsKey_eq_findSome args
  | .other tree notAExpr notBool => by
      rw [PgExpr.key, PgExpr.leaves, List.findSome?_nil]

theorem argsKey_eq_findSome :
    ∀ args : List PgExpr,
      PgExpr.argsKey args = (PgExpr.argsLeaves args).findSome? WhereLeaf.key
  | [] => by rw [PgExpr.argsKey, PgExpr.argsLeaves, List.findSome?_nil]
  | e :: args => by
      rw [PgExpr.argsKey, PgExpr.argsLeaves, List.findSome?_append, ← key_eq_findSome e,
        ← argsKey_eq_findSome args]
      cases e.key with
      | none => rfl
      | some k => rfl

end

/-- A constant has a key exactly when it can be one. -/
theorem keyConst_iff (c : PgConst) : KeyConst c ↔ c.key.isSome = true := by
  constructor
  · intro h
    cases h with
    | int hn => simp [PgConst.key, hn]
    | str s => simp [PgConst.key]
  · intro h
    cases c with
    | int n =>
        refine .int ?_
        rintro rfl
        simp [PgConst.key] at h
    | str s => exact .str s
    | float digits => simp [PgConst.key] at h
    | bool b => simp [PgConst.key] at h
    | bits s => simp [PgConst.key] at h
    | null => simp [PgConst.key] at h

theorem WhereLeaf.Fixes.key_eq {column : Text} {value : PgConst} (h : c.Fixes column value) :
    c.key = value.key.map (column, ·) := by
  obtain ⟨more, location, hl⟩ := h.lexpr
  obtain ⟨location', hr⟩ := h.rexpr
  simp [WhereLeaf.key, hl, hr, h.op, constKey]

/-- The comparisons with a key are those that fix a column. -/
theorem WhereLeaf.key_isSome_iff (c : WhereLeaf) :
    c.key.isSome = true ↔ ∃ column value, c.Fixes column value := by
  constructor
  · intro h
    obtain ⟨op, lexpr, rexpr⟩ := c
    unfold WhereLeaf.key at h
    dsimp only at h
    split at h
    · rename_i first more location
      split at h
      · rename_i hop
        rw [Option.isSome_map] at h
        unfold constKey at h
        split at h
        · rename_i value location'
          exact ⟨first, value, hop, ⟨more, location, rfl⟩, ⟨location', rfl⟩,
            (keyConst_iff value).mpr h⟩
        · cases h
      · cases h
    · cases h
  · rintro ⟨column, value, h⟩
    rw [h.key_eq, Option.isSome_map]
    exact (keyConst_iff value).mp h.keyConst

theorem ParseResult.key?_int {n : Int64} (h : result.key? = some (.int n)) :
    result.shardKeyIsInt = true ∧ result.shardKeyInt = n := by
  unfold ParseResult.key? at h
  split at h
  · split at h
    · rename_i hint
      cases h
      exact ⟨hint, rfl⟩
    · cases h
  · cases h

theorem ParseResult.key?_str {s : Option Text} (h : result.key? = some (.str s)) :
    result.shardKeyIsInt = false ∧ result.shardKeyStr = s := by
  unfold ParseResult.key? at h
  split at h
  · split at h
    · cases h
    · rename_i hint
      cases h
      exact ⟨by simpa using hint, rfl⟩
  · cases h

/-- What is recorded for a comparison that fixes a column. -/
theorem WhereLeaf.Fixes.holds {column : Text} {value : PgConst} (h : c.Fixes column value)
    {info : StmtInfo} (hresult : Extracted c.key info result.info) : result.Holds column value := by
  rw [h.key_eq] at hresult
  cases h.keyConst with
  | int hn =>
      rw [PgConst.key, if_neg hn, Option.map_some] at hresult
      exact ⟨congrArg StmtInfo.column hresult,
        ParseResult.key?_int (congrArg StmtInfo.key hresult)⟩
  | str s =>
      rw [PgConst.key, Option.map_some] at hresult
      exact ⟨congrArg StmtInfo.column hresult,
        ParseResult.key?_str (congrArg StmtInfo.key hresult)⟩

/-- Comparisons without a key in front of one do not change the first key. -/
theorem findSome_key_leftmost {pre : List WhereLeaf} (post : List WhereLeaf)
    (hpre : ∀ c' ∈ pre, ∀ column value, ¬c'.Fixes column value)
    (hc : ∃ column value, c.Fixes column value) :
    (pre ++ c :: post).findSome? WhereLeaf.key = c.key := by
  have hnone : pre.findSome? WhereLeaf.key = none := by
    rw [List.findSome?_eq_none_iff]
    intro c' hc'
    rw [← Option.not_isSome_iff_eq_none, WhereLeaf.key_isSome_iff]
    rintro ⟨column, value, h⟩
    exact hpre c' hc' column value h
  obtain ⟨k, hk⟩ := Option.isSome_iff_exists.mp (c.key_isSome_iff.mpr hc)
  rw [List.findSome?_append, hnone, Option.none_or, List.findSome?_cons, hk]

/-! ## The extractor on the printed clause -/

/-- On a printed clause, followed by whatever the document goes on with, the extractor
terminates, finds a key exactly when some comparison fixes a column, and records the
column and the constant of the leftmost of them. -/
theorem where_text_records_leftmost (e : PgExpr) (r : Text) (hr : Follows r)
    (base : ParseResult) (hbase : base.shardKeyFound = false) (fuel : Nat)
    (hfuel : searchFuel (render e.toJson ++ r) ≤ fuel) :
    ∃ result, extractShardKeyFromWhere fuel (render e.toJson ++ r) base = some result ∧
      (result.shardKeyFound = true ↔
        ∃ c ∈ e.leaves, ∃ column value, c.Fixes column value) ∧
      ∀ pre c post, e.leaves = pre ++ c :: post →
        (∀ c' ∈ pre, ∀ column value, ¬c'.Fixes column value) →
        ∀ column value, c.Fixes column value → result.Holds column value := by
  have hlen : 2 * (render e.toJson).length ≤ fuel := by
    rw [searchFuel, List.length_append] at hfuel
    omega
  obtain ⟨result, hrun, hext⟩ := extractShardKeyFromWhere_expr e ⟨r, hr, rfl⟩ hbase hlen
  have hnone : base.info.key = none := if_neg (by rw [hbase]; simp)
  refine ⟨result, hrun, ?_, ?_⟩
  · rw [← key?_isSome, show result.key? = result.info.key from rfl, hext.key_eq hnone,
      Option.isSome_map, key_eq_findSome, List.findSome?_isSome_iff]
    constructor
    · rintro ⟨c, hc, hkey⟩
      exact ⟨c, hc, c.key_isSome_iff.mp hkey⟩
    · rintro ⟨c, hc, hfix⟩
      exact ⟨c, hc, c.key_isSome_iff.mpr hfix⟩
  · intro pre c post hsplit hpre column value hfix
    rw [key_eq_findSome, hsplit, findSome_key_leftmost post hpre ⟨column, value, hfix⟩] at hext
    exact hfix.holds hext

/-- {lit}`a < 7 OR NOT (b = 5)`. -/
def negatedClause : PgExpr :=
  .bool .or
    [.aexpr .op (ascii "<") [] (some (.column [97] [] 1)) (some (.const (.int 7) 5)) 3,
      .bool .not [.aexpr .op (ascii "=") [] (some (.column [98] [] 14))
        (some (.const (.int 5) 18)) 16] 10] 7

/-- The comparison under the NOT is the one recorded. -/
theorem negated_comparison_recorded :
    ∃ result, extractShardKeyFromWhere (searchFuel (render negatedClause.toJson ++ [rbrace]))
        (render negatedClause.toJson ++ [rbrace]) {} = some result ∧
      result.shardKeyFound = true ∧ result.Holds [98] (.int 5) := by
  obtain ⟨result, hrun, hfound, hholds⟩ := where_text_records_leftmost negatedClause
    [rbrace] (by simp [Follows, isDelim]) {} rfl _ le_rfl
  have hfix : WhereLeaf.Fixes
      ⟨ascii "=", some (.column [98] [] 14), some (.const (.int 5) 18)⟩ [98] (.int 5) :=
    ⟨rfl, ⟨_, _, rfl⟩, ⟨_, rfl⟩, .int (by decide)⟩
  refine ⟨result, hrun, hfound.mpr ⟨_, List.mem_cons_of_mem _ List.mem_cons_self, _, _, hfix⟩,
    hholds [⟨ascii "<", some (.column [97] [] 1), some (.const (.int 7) 5)⟩] _ [] rfl ?_
      _ _ hfix⟩
  intro c' hc' column value h
  rw [List.mem_singleton.mp hc'] at h
  exact absurd h.op (by simp [ascii])

end Sharegres
