import Sharegres.Parser.StatementTree

/-!
# Parser - Parsing follows the tree

On the text of any statement tree the scanners of {lit}`src/parser/query_parser.c` terminate
and compute what is read off the tree, if the parts they search have no white space in empty
objects.

Main results:

- Theorem {lit}`extractShardKeyFromWhere_tree`: the WHERE extractor.
- Theorem {lit}`extractShardKeyFromInsert_tree`: the second pass over an INSERT, with the names
  that stand behind the statement.
- Theorem {lit}`parseQuery_node`: both passes over the first of any number of statements.
-/

namespace Sharegres

open Foundation Foundation.Json

variable {v : Json} {behind : List (Option Text)} {inner : Ws}

/-! ## The text of a tree -/

/-- A string of the tree. -/
theorem jsonGetString_tree (v : Json) (r : Text) :
    jsonGetString (render v ++ r) = treeString v := by
  cases v with
  | str body => exact jsonGetString_render body r
  | lit tok => exact jsonGetString_not_string (by simp) r
  | arr inner es => exact jsonGetString_not_string (by simp) r
  | obj inner ms => exact jsonGetString_not_string (by simp) r

theorem At.string {t : Text} (h : At t v) : jsonGetString t = treeString v := by
  rcases h with ⟨r, -, rfl⟩
  exact jsonGetString_tree v r

/-- The flag of the key. -/
theorem key?_isSome (result : ParseResult) : result.key?.isSome = result.shardKeyFound := by
  unfold ParseResult.key?
  cases result.shardKeyFound <;> rfl

theorem info_setKey (result : ParseResult) (key : ConstKey) :
    (result.setKey key).info = { result.info with key := some key } := by
  cases key <;> rfl

/-- The table of a {lit}`RangeVar`. -/
theorem extractTableFromRangevar_tree {t : Text} (h : At t v) (result : ParseResult) :
    (extractTableFromRangevar t result).info = result.info.readTable v ∧
      (extractTableFromRangevar t result).parseTreeJson = result.parseTreeJson := by
  have hrel := h.findKey (PgKey.text_plain .relname)
  unfold extractTableFromRangevar StmtInfo.readTable
  cases hget : get? (PgKey.text .relname) v with
  | none =>
      rw [hget] at hrel
      rw [show jsonFindKey t (ascii "relname") = none from rel_none hrel]
      cases jsonFindKey t (ascii "schemaname") <;> exact ⟨rfl, rfl⟩
  | some u =>
      rw [hget] at hrel
      rcases rel_some hrel with ⟨t', ht', hat⟩
      rw [show jsonFindKey t (ascii "relname") = some t' from ht']
      dsimp only
      rw [← hat.string]
      cases jsonFindKey t (ascii "schemaname") <;> exact ⟨rfl, rfl⟩

/-- The column of an equality. -/
theorem extractColumn_tree {t : Text} (h : At t v) (htight : v.tight = true)
    (result : ParseResult) :
    ∃ result', extractColumn t result = some result' ∧
      result'.info = result.info.readColumn v := by
  rcases h.search htight (PgKey.text_plain .stringNode) with ⟨o, hrec, hrel⟩
  have hsval := findKey_bind hrel (PgKey.text_plain .sval)
  unfold extractColumn StmtInfo.readColumn
  rw [show jsonFindKeyRecursive (ascii "String") (searchFuel t) t = some o from hrec]
  cases o with
  | none =>
      cases hfind : find? (PgKey.text .stringNode) v with
      | none => exact ⟨result, rfl, rfl⟩
      | some u =>
          rw [hfind] at hrel
          cases hrel
  | some t' =>
      rw [Option.bind_some] at hsval
      dsimp only
      cases hget : (find? (PgKey.text .stringNode) v).bind (get? (PgKey.text .sval)) with
      | none =>
          rw [hget] at hsval
          rw [show jsonFindKey t' (ascii "sval") = none from rel_none hsval]
          exact ⟨result, rfl, rfl⟩
      | some u =>
          rw [hget] at hsval
          rcases rel_some hsval with ⟨t'', ht'', hat⟩
          rw [show jsonFindKey t' (ascii "sval") = some t'' from ht'']
          dsimp only
          rw [← hat.string]
          exact ⟨_, rfl, rfl⟩

/-- The constant of an equality. -/
theorem extractConst_tree {t : Text} (h : At t v) (result : ParseResult) :
    (extractConst t result).info = result.info.readKey v := by
  have hconst := findKey_bind (h.findKey (PgKey.text_plain .rexpr)) (PgKey.text_plain .aConst)
  unfold extractConst StmtInfo.readKey
  cases hget : (get? (PgKey.text .rexpr) v).bind (get? (PgKey.text .aConst)) with
  | none =>
      rw [hget] at hconst
      rw [show (jsonFindKey t (ascii "rexpr")).bind (jsonFindKey · (ascii "A_Const")) = none
        from rel_none hconst]
      rfl
  | some u =>
      rw [hget] at hconst
      rcases rel_some hconst with ⟨t', ht', hat⟩
      rw [show (jsonFindKey t (ascii "rexpr")).bind (jsonFindKey · (ascii "A_Const")) = some t'
        from ht']
      dsimp only
      rw [hat.readConst, Option.bind_some, treeConst]
      cases readConst (render u) with
      | none => rfl
      | some key => exact info_setKey result key

/-- An equality: its column, and its key if a column is known. -/
private theorem equality_tree {t : Text} (h : At t v) (hsearch : ExprSearchable v)
    (result : ParseResult) :
    ∃ result',
      (match (jsonFindKey t (ascii "lexpr")).bind (jsonFindKey · (ascii "ColumnRef")) with
        | none => some result
        | some colref =>
            match jsonFindKey colref (ascii "fields") with
            | none => some result
            | some fields =>
                match extractColumn fields result with
                | none => none
                | some result =>
                    if result.shardKeyColumn.isNone then some result
                    else some (extractConst t result)) = some result' ∧
      result'.info =
        match ((get? (PgKey.text .lexpr) v).bind (get? (PgKey.text .columnRef))).bind
            (get? (PgKey.text .fields)) with
        | none => result.info
        | some fields =>
            let info := result.info.readColumn fields
            if info.column.isNone then info else info.readKey v := by
  have hcol := findKey_bind (h.findKey (PgKey.text_plain .lexpr)) (PgKey.text_plain .columnRef)
  cases hget : (get? (PgKey.text .lexpr) v).bind (get? (PgKey.text .columnRef)) with
  | none =>
      rw [hget] at hcol
      rw [show (jsonFindKey t (ascii "lexpr")).bind (jsonFindKey · (ascii "ColumnRef")) = none
        from rel_none hcol]
      exact ⟨result, rfl, rfl⟩
  | some colref =>
      rw [hget] at hcol
      rcases rel_some hcol with ⟨t', ht', hat⟩
      have hfields := hat.findKey (PgKey.text_plain .fields)
      rw [show (jsonFindKey t (ascii "lexpr")).bind (jsonFindKey · (ascii "ColumnRef")) = some t'
        from ht', Option.bind_some]
      dsimp only
      cases hget' : get? (PgKey.text .fields) colref with
      | none =>
          rw [hget'] at hfields
          rw [show jsonFindKey t' (ascii "fields") = none from rel_none hfields]
          exact ⟨result, rfl, rfl⟩
      | some fields =>
          rw [hget'] at hfields
          rcases rel_some hfields with ⟨t'', ht'', hat'⟩
          have htight' : fields.tight = true :=
            hsearch.fields fields (by rw [hget, Option.bind_some, hget'])
          rcases extractColumn_tree hat' htight' result with ⟨result₁, hcolumn, hinfo⟩
          rw [show jsonFindKey t' (ascii "fields") = some t'' from ht'']
          dsimp only
          rw [hcolumn, ← hinfo]
          dsimp only
          rw [show result₁.info.column = result₁.shardKeyColumn from rfl]
          by_cases hnone : result₁.shardKeyColumn.isNone = true
          · rw [if_pos hnone, if_pos hnone]
            exact ⟨result₁, rfl, rfl⟩
          · rw [if_neg hnone, if_neg hnone]
            exact ⟨_, rfl, extractConst_tree h result₁⟩

/-- A comparison. -/
theorem extractShardKeyFromAExpr_tree {t : Text} (h : At t v) (hsearch : ExprSearchable v)
    (result : ParseResult) :
    ∃ result', extractShardKeyFromAExpr t result = some result' ∧
      result'.info = result.info.readExpr v := by
  have hname := h.findKey (PgKey.text_plain .name)
  unfold extractShardKeyFromAExpr StmtInfo.readExpr
  cases hget : get? (PgKey.text .name) v with
  | none =>
      rw [hget] at hname
      rw [show jsonFindKey t (ascii "name") = none from rel_none hname]
      exact ⟨result, rfl, rfl⟩
  | some names =>
      rw [hget] at hname
      rcases rel_some hname with ⟨t', ht', hat⟩
      rcases hat.search (hsearch.name names hget) (PgKey.text_plain .sval) with ⟨o, hrec, hrel⟩
      rw [show jsonFindKey t (ascii "name") = some t' from ht', Option.bind_some]
      dsimp only
      rw [show jsonFindKeyRecursive (ascii "sval") (searchFuel t') t' = some o from hrec]
      cases hfind : find? (PgKey.text .sval) names with
      | none =>
          rw [hfind] at hrel
          rw [rel_none hrel]
          exact ⟨result, rfl, rfl⟩
      | some op =>
          rw [hfind] at hrel
          rcases rel_some hrel with ⟨sval, rfl, hop⟩
          dsimp only
          rw [hop.string]
          by_cases hequals : treeString op = some (ascii "=")
          · rw [if_pos hequals, if_pos hequals]
            exact equality_tree h hsearch result
          · rw [if_neg hequals, if_neg hequals]
            exact ⟨result, rfl, rfl⟩

/-- A comparison, and otherwise the arguments of a Boolean expression. -/
theorem readWhere_eq (info : StmtInfo) (v : Json) :
    info.readWhere v =
      match get? (PgKey.text .aExpr) v with
      | some aexpr => info.readExpr aexpr
      | none =>
          match (get? (PgKey.text .boolExpr) v).bind (get? (PgKey.text .args)) with
          | some (.arr _ es) => info.readArgs es
          | _ => info := by
  rw [StmtInfo.readWhere]
  cases get? (PgKey.text .aExpr) v with
  | some aexpr => rfl
  | none =>
      dsimp only
      split
      · rename_i hargs
        rw [hargs]
      · rename_i hargs
        cases hbool : (get? (PgKey.text .boolExpr) v).bind (get? (PgKey.text .args)) with
        | none => rfl
        | some u =>
            cases u with
            | arr inner es => exact absurd hbool (hargs inner es)
            | lit tok => rfl
            | str body => rfl
            | obj inner ms => rfl

/-- The value behind a lookup is an array exactly if its text starts with a bracket. -/
theorem At.bracket {t : Text} (h : At t v) :
    (∃ inner es r, v = .arr inner es ∧ t = lbracket :: (renderElems inner es ++ r)) ∨
      (∃ b p, t = b :: p ∧ b ≠ lbracket ∧ ∀ inner es, v ≠ .arr inner es) := by
  cases v with
  | arr inner es =>
      rcases h.elems with ⟨r, -, rfl⟩
      exact Or.inl ⟨inner, es, r, rfl, rfl⟩
  | lit tok =>
      rcases h with ⟨r, -, rfl⟩
      rcases tok.exists_cons with ⟨b, p, htext, hb, -⟩
      exact Or.inr ⟨b, p ++ r, congrArg (· ++ r) htext, ne_of_class hb rfl, by simp⟩
  | str body =>
      rcases h with ⟨r, -, rfl⟩
      exact Or.inr ⟨dquote, _, rfl, by decide, by simp⟩
  | obj inner ms =>
      rcases h with ⟨r, -, rfl⟩
      exact Or.inr ⟨lbrace, _, rfl, by decide, by simp⟩

/-- An empty argument list. -/
theorem extractShardKeyFromArgs_empty (fuel : Nat) (w : Ws) (r : Text) (result : ParseResult) :
    extractShardKeyFromArgs (fuel + 1) (w.text ++ ([rbracket] ++ r)) result = some result := by
  have hskip : jsonSkipWhitespace (w.text ++ ([rbracket] ++ r)) = rbracket :: r := by
    rw [jsonSkipWhitespace_eq, skipSpace_append, List.singleton_append,
      skipSpace_cons_of_not (by decide)]
  rcases hcons : w.text ++ ([rbracket] ++ r) with _ | ⟨b, p⟩
  · rw [extractShardKeyFromArgs]
  · rw [hcons] at hskip
    rw [extractShardKeyFromArgs, hskip]
    dsimp only
    rw [if_pos rfl]
    exact ite_self _

mutual

/-- On the text of any tree the WHERE extractor terminates and follows the tree. -/
theorem extractShardKeyFromWhere_tree :
    ∀ (fuel : Nat) (v : Json) (t : Text) (result : ParseResult), At t v → WhereSearchable v →
      2 * (render v).length ≤ fuel →
      ∃ result', extractShardKeyFromWhere fuel t result = some result' ∧
        result'.info = result.info.readWhere v
  | 0, v, t, result, _, _, hfuel => by
      have hpos := List.length_pos_iff.mpr (render_ne_nil v)
      omega
  | fuel + 1, v, t, result, hat, hsearch, hfuel => by
      have haexpr := hat.findKey (PgKey.text_plain .aExpr)
      have hargs := findKey_bind (hat.findKey (PgKey.text_plain .boolExpr))
        (PgKey.text_plain .args)
      rw [extractShardKeyFromWhere_eq, readWhere_eq]
      cases hget : get? (PgKey.text .aExpr) v with
      | some aexpr =>
          rw [hget] at haexpr
          rcases rel_some haexpr with ⟨t', ht', hat'⟩
          rw [ht']
          exact extractShardKeyFromAExpr_tree hat' (hsearch.of_expr hget) result
      | none =>
          rw [hget] at haexpr
          rw [rel_none haexpr]
          dsimp only
          cases hbool : (get? (PgKey.text .boolExpr) v).bind (get? (PgKey.text .args)) with
          | none =>
              rw [hbool] at hargs
              rw [rel_none hargs]
              exact ⟨result, rfl, rfl⟩
          | some u =>
              rw [hbool] at hargs
              rcases rel_some hargs with ⟨t', ht', hat'⟩
              rcases Option.bind_eq_some_iff.mp hbool with ⟨w, hw, hu⟩
              rw [ht']
              rcases hat'.bracket with ⟨inner, es, r, rfl, rfl⟩ | ⟨b, p, rfl, hb, harr⟩
              · -- the argument list is part of the text of the node, so its fuel suffices
                have hsub := lt_trans (get?_length hu) (get?_length hw)
                rw [render, List.length_cons] at hsub
                dsimp only
                rw [if_pos rfl]
                exact extractShardKeyFromArgs_tree fuel inner es r result
                  (hsearch.of_args hget hbool) (by omega)
              · dsimp only
                rw [if_neg hb]
                refine ⟨result, rfl, ?_⟩
                cases u with
                | arr inner es => exact absurd rfl (harr inner es)
                | lit tok => rfl
                | str body => rfl
                | obj inner ms => rfl

/-- The loop over the arguments of a connective. -/
theorem extractShardKeyFromArgs_tree :
    ∀ (fuel : Nat) (inner : Ws) (es : List (Pad × Json)) (r : Text) (result : ParseResult),
      (∀ e ∈ es, WhereSearchable e.2) → 2 * (renderElems inner es).length ≤ fuel + 1 →
      ∃ result', extractShardKeyFromArgs fuel (renderElems inner es ++ r) result = some result' ∧
        result'.info = result.info.readArgs es
  | 0, inner, [], r, result, _, hfuel => by
      rw [renderElems, List.length_append, List.length_singleton] at hfuel
      omega
  | fuel + 1, inner, [], r, result, _, _ => by
      rw [renderElems, StmtInfo.readArgs, List.append_assoc]
      exact ⟨result, extractShardKeyFromArgs_empty fuel inner r result, rfl⟩
  | 0, inner, (p, v) :: es, r, result, _, hfuel => by
      have hpos := List.length_pos_iff.mpr (render_ne_nil v)
      simp only [renderElems, List.length_append] at hfuel
      omega
  | fuel + 1, inner, (p, v) :: es, r, result, hsearch, hfuel => by
      have htail := elemTail_length_pos es
      have hrest := renderElems_length_le es
      have hpos := List.length_pos_iff.mpr (render_ne_nil v)
      simp only [renderElems, List.length_append] at hfuel
      rw [List.forall_mem_cons] at hsearch
      rw [renderElems, StmtInfo.readArgs]
      simp only [List.append_assoc]
      have hat : At (render v ++ (p.after.text ++ (renderElemTail es ++ r))) v :=
        ⟨_, follows_ws_append _ (follows_elemTail _ r), rfl⟩
      rcases extractShardKeyFromWhere_tree fuel v _ result hat hsearch.1 (by omega) with
        ⟨result₁, hextract, hinfo⟩
      rw [extractShardKeyFromArgs_cons, hextract, ← hinfo]
      dsimp only
      rw [show result₁.info.key = result₁.key? from rfl, key?_isSome]
      by_cases hfound : result₁.shardKeyFound = true
      · rw [if_pos hfound, if_pos hfound]
        exact ⟨result₁, rfl, rfl⟩
      · rw [if_neg hfound, if_neg hfound, skipItem_elem]
        exact extractShardKeyFromArgs_tree fuel Ws.none es r result₁ hsearch.2 (by omega)

end

/-! ## Statements -/

/-- The WHERE clause of a statement. -/
theorem extractWhereClause_tree {t : Text} (h : At t v)
    (hsearch : ∀ u, get? (PgKey.text .whereClause) v = some u → WhereSearchable u)
    (result : ParseResult) :
    ∃ result', extractWhereClause t result = some result' ∧
      result'.info = result.info.readWhereClause v := by
  have hwhere := h.findKey (PgKey.text_plain .whereClause)
  unfold extractWhereClause StmtInfo.readWhereClause
  cases hget : get? (PgKey.text .whereClause) v with
  | none =>
      rw [hget] at hwhere
      rw [show jsonFindKey t (ascii "whereClause") = none from rel_none hwhere]
      exact ⟨result, rfl, rfl⟩
  | some u =>
      rw [hget] at hwhere
      rcases rel_some hwhere with ⟨t', ht', hat⟩
      rw [show jsonFindKey t (ascii "whereClause") = some t' from ht']
      refine extractShardKeyFromWhere_tree _ u t' result hat (hsearch u hget) ?_
      rcases hat with ⟨r, -, rfl⟩
      rw [searchFuel, List.length_append]
      omega

/-- The relation of a statement. -/
theorem extractRelation_tree {t : Text} (h : At t v) (result : ParseResult) :
    (extractRelation t result).info = result.info.readRelation v ∧
      (extractRelation t result).parseTreeJson = result.parseTreeJson := by
  have hrel := h.findKey (PgKey.text_plain .relation)
  unfold extractRelation StmtInfo.readRelation
  cases hget : get? (PgKey.text .relation) v with
  | none =>
      rw [hget] at hrel
      rw [show jsonFindKey t (ascii "relation") = none from rel_none hrel]
      exact ⟨rfl, rfl⟩
  | some u =>
      rw [hget] at hrel
      rcases rel_some hrel with ⟨t', ht', hat⟩
      rw [show jsonFindKey t (ascii "relation") = some t' from ht']
      exact extractTableFromRangevar_tree hat result

/-- The first relation of a FROM clause. -/
theorem extractFromClause_tree {t : Text} (h : At t v)
    (htight : ∀ u, get? (PgKey.text .fromClause) v = some u → u.tight = true)
    (result : ParseResult) :
    ∃ result', extractFromClause t result = some result' ∧
      result'.info = result.info.readFrom v := by
  have hfrom := h.findKey (PgKey.text_plain .fromClause)
  unfold extractFromClause StmtInfo.readFrom
  cases hget : get? (PgKey.text .fromClause) v with
  | none =>
      rw [hget] at hfrom
      rw [show jsonFindKey t (ascii "fromClause") = none from rel_none hfrom]
      exact ⟨result, rfl, rfl⟩
  | some u =>
      rw [hget] at hfrom
      rcases rel_some hfrom with ⟨t', ht', hat⟩
      have htight' := htight u hget
      rcases hat.search htight' (PgKey.text_plain .rangeVar) with ⟨o, hrec, hrel⟩
      rw [show jsonFindKey t (ascii "fromClause") = some t' from ht']
      dsimp only
      rw [show jsonFindKeyRecursive (ascii "RangeVar") (searchFuel t') t' = some o from hrec]
      cases hfind : find? (PgKey.text .rangeVar) u with
      | some rv =>
          rw [hfind] at hrel
          rcases rel_some hrel with ⟨t'', rfl, hat'⟩
          exact ⟨_, rfl, (extractTableFromRangevar_tree hat' result).1⟩
      | none =>
          rw [hfind] at hrel
          rcases hat.search htight' (PgKey.text_plain .relname) with ⟨o', hrec', hrel'⟩
          rw [rel_none hrel]
          dsimp only
          rw [show jsonFindKeyRecursive (ascii "relname") (searchFuel t') t' = some o'
            from hrec']
          cases hfind' : find? (PgKey.text .relname) u with
          | none =>
              rw [hfind'] at hrel'
              rw [rel_none hrel']
              exact ⟨result, rfl, rfl⟩
          | some w =>
              rw [hfind'] at hrel'
              rcases rel_some hrel' with ⟨t'', rfl, hat'⟩
              dsimp only
              rw [← hat'.string]
              exact ⟨_, rfl, rfl⟩

/-- An UPDATE or a DELETE. -/
theorem relationWhere_tree {t : Text} (h : At t v)
    (hsearch : ∀ u, get? (PgKey.text .whereClause) v = some u → WhereSearchable u)
    (base : ParseResult) :
    ∃ result, extractWhereClause t (extractRelation t base) = some result ∧
      result.info = (base.info.readRelation v).readWhereClause v := by
  rcases extractWhereClause_tree h hsearch (extractRelation t base) with ⟨result, hwhere, hinfo⟩
  rw [(extractRelation_tree h base).1] at hinfo
  exact ⟨result, hwhere, hinfo⟩

section Node

variable {t : Text} {name : KeyTok} {body : Json}

/-- The kind of a statement is read from its name. -/
theorem detectStmtType_tree (h : At t (obj [(name, body)])) :
    detectStmtType t = nodeType name.body.text := by
  have hplain : ∀ key ∈ [ascii "SelectStmt", ascii "InsertStmt", ascii "UpdateStmt",
      ascii "DeleteStmt", ascii "TransactionStmt", ascii "VariableSetStmt",
      ascii "VariableShowStmt", ascii "DiscardStmt", ascii "CopyStmt"] ++ ddlNodes,
      PlainKey key := by
    decide +kernel
  have hkey : ∀ key : Text, PlainKey key →
      jsonStartsWithKey t key = decide (name.body.text = key) := by
    intro key hplain
    rcases h with ⟨r, -, rfl⟩
    exact jsonStartsWithKey_render hplain Ws.none name body [] r
  have hddl : ddlNodes.any (jsonStartsWithKey t) =
      decide (name.body.text ∈ ddlNodes) := by
    rw [Bool.eq_iff_iff, List.any_eq_true, decide_eq_true_iff]
    constructor
    · rintro ⟨key, hmem, hstarts⟩
      rw [hkey key (hplain key (List.mem_append_right _ hmem)), decide_eq_true_iff] at hstarts
      rw [hstarts]
      exact hmem
    · intro hmem
      refine ⟨_, hmem, ?_⟩
      rw [hkey _ (hplain _ (List.mem_append_right _ hmem))]
      exact decide_eq_true rfl
  unfold detectStmtType nodeType
  rw [hkey (ascii "SelectStmt") (hplain _ (by simp)),
    hkey (ascii "InsertStmt") (hplain _ (by simp)),
    hkey (ascii "UpdateStmt") (hplain _ (by simp)),
    hkey (ascii "DeleteStmt") (hplain _ (by simp)),
    hkey (ascii "TransactionStmt") (hplain _ (by simp)),
    hkey (ascii "VariableSetStmt") (hplain _ (by simp)),
    hkey (ascii "VariableShowStmt") (hplain _ (by simp)),
    hkey (ascii "DiscardStmt") (hplain _ (by simp)),
    hkey (ascii "CopyStmt") (hplain _ (by simp)), hddl]
  simp only [decide_eq_true_eq]

/-- The node of a statement with a body is named after its type. -/
theorem name_of_nodeType {name : Text} :
    (nodeType name = .select → name = PgKey.text .selectNode) ∧
      (nodeType name = .insert → name = PgKey.text .insertNode) ∧
      (nodeType name = .update → name = PgKey.text .updateNode) ∧
      (nodeType name = .delete → name = PgKey.text .deleteNode) := by
  unfold nodeType
  by_cases hselect : name = ascii "SelectStmt"
  · rw [if_pos hselect]
    exact ⟨fun _ => hselect, by simp, by simp, by simp⟩
  rw [if_neg hselect]
  by_cases hinsert : name = ascii "InsertStmt"
  · rw [if_pos hinsert]
    exact ⟨by simp, fun _ => hinsert, by simp, by simp⟩
  rw [if_neg hinsert]
  by_cases hupdate : name = ascii "UpdateStmt"
  · rw [if_pos hupdate]
    exact ⟨by simp, by simp, fun _ => hupdate, by simp⟩
  rw [if_neg hupdate]
  by_cases hdelete : name = ascii "DeleteStmt"
  · rw [if_pos hdelete]
    exact ⟨by simp, by simp, by simp, fun _ => hdelete⟩
  rw [if_neg hdelete]
  -- none of the other types has a body
  refine ⟨fun h => ?_, fun h => ?_, fun h => ?_, fun h => ?_⟩ <;> split_ifs at h

/-- The body of a statement stands behind the name of its node. -/
theorem body_at (h : At t (obj [(name, body)])) {k : PgKey} (hname : name.body.text = k.text) :
    ∃ t', jsonFindKey t k.text = some t' ∧ At t' body := by
  have hbody := h.findKey k.text_plain
  rw [obj, get?_cons, if_pos hname] at hbody
  exact rel_some hbody

/-- The first pass over a statement. -/
theorem extractStatement_tree (h : At t (obj [(name, body)])) (hsearch : Searchable name body)
    (tree : Option Text) :
    ∃ result, extractStatement t { parseTreeJson := tree, stmtType := detectStmtType t } =
        some result ∧ result.info = nodeInfo name body ∧
      (nodeType name.body.text = .insert → result.parseTreeJson = tree) := by
  rw [detectStmtType_tree h]
  unfold extractStatement nodeInfo
  have hnames : (nodeType name.body.text = .select → _) ∧ _ := name_of_nodeType
  rcases hnames with ⟨hselect, hinsert, hupdate, hdelete⟩
  cases htype : nodeType name.body.text with
  | select =>
      rcases body_at h (hselect htype) with ⟨t', ht', hat⟩
      rcases extractFromClause_tree hat (hsearch.fromClause htype)
        { parseTreeJson := tree, stmtType := .select } with ⟨result₁, hfrom, hinfo₁⟩
      rcases extractWhereClause_tree hat (hsearch.whereClause (by simp [htype])) result₁ with
        ⟨result₂, hwhere, hinfo₂⟩
      rw [show jsonFindKey t (ascii "SelectStmt") = some t' from ht']
      dsimp only
      rw [hfrom]
      exact ⟨result₂, hwhere, by rw [hinfo₂, hinfo₁]; rfl, fun hne => by cases hne⟩
  | insert =>
      rcases body_at h (hinsert htype) with ⟨t', ht', hat⟩
      rcases extractRelation_tree hat { parseTreeJson := tree, stmtType := .insert } with
        ⟨hinfo, htree⟩
      rw [show jsonFindKey t (ascii "InsertStmt") = some t' from ht']
      exact ⟨_, rfl, hinfo, fun _ => htree⟩
  | update =>
      rcases body_at h (hupdate htype) with ⟨t', ht', hat⟩
      rw [show jsonFindKey t (ascii "UpdateStmt") = some t' from ht']
      rcases relationWhere_tree hat (hsearch.whereClause (by simp [htype]))
        { parseTreeJson := tree, stmtType := .update } with ⟨result, hresult, hinfo⟩
      exact ⟨result, hresult, hinfo, fun hne => by cases hne⟩
  | delete =>
      rcases body_at h (hdelete htype) with ⟨t', ht', hat⟩
      rw [show jsonFindKey t (ascii "DeleteStmt") = some t' from ht']
      rcases relationWhere_tree hat (hsearch.whereClause (by simp [htype]))
        { parseTreeJson := tree, stmtType := .delete } with ⟨result, hresult, hinfo⟩
      exact ⟨result, hresult, hinfo, fun hne => by cases hne⟩
  | ddl =>
      have htight : (obj [(name, body)]).tight = true := by
        simp [obj, Json.tight, tightMembers, hsearch.ddl htype]
      rcases h.search htight (PgKey.text_plain .relname) with ⟨o, hrec, hrel⟩
      dsimp only
      rw [show jsonFindKeyRecursive (ascii "relname") (searchFuel t) t = some o from hrec]
      cases hfind : find? (PgKey.text .relname) (obj [(name, body)]) with
      | none =>
          rw [hfind] at hrel
          rw [rel_none hrel]
          exact ⟨_, rfl, rfl, fun hne => by cases hne⟩
      | some u =>
          rw [hfind] at hrel
          rcases rel_some hrel with ⟨t', rfl, hat⟩
          dsimp only
          rw [← hat.string]
          exact ⟨_, rfl, rfl, fun hne => by cases hne⟩
  | transaction => exact ⟨_, rfl, rfl, fun hne => by cases hne⟩
  | set => exact ⟨_, rfl, rfl, fun hne => by cases hne⟩
  | «show» => exact ⟨_, rfl, rfl, fun hne => by cases hne⟩
  | discard => exact ⟨_, rfl, rfl, fun hne => by cases hne⟩
  | copy => exact ⟨_, rfl, rfl, fun hne => by cases hne⟩
  | unknown => exact ⟨_, rfl, rfl, fun hne => by cases hne⟩

end Node

/-! ## The second pass -/

/-- The names of located values. -/
theorem map_getString_located (ls : List Located) :
    (ls.map Located.text).map jsonGetString = (ls.map Located.value).map treeString := by
  rw [List.map_map, List.map_map]
  refine List.map_congr_left fun l _ => ?_
  exact jsonGetString_tree l.value l.rest

theorem textNames_memberTail (w : Ws) (ms : Members) (r : Text) :
    textNames (w.text ++ (renderMemberTail ms ++ r)) =
      (valuesMembers (PgKey.text .name) ms).map treeString ++ textNames r := by
  unfold textNames
  rw [jsonFindAllValues_ws, jsonFindAllValues_memberTail (PgKey.text_plain .name),
    List.map_append, map_getString_located, collectMembers_value]

theorem textNames_elemTail (w : Ws) (es : List (Pad × Json)) (r : Text) :
    textNames (w.text ++ (renderElemTail es ++ r)) =
      (valuesElems (PgKey.text .name) es).map treeString ++ textNames r := by
  unfold textNames
  rw [jsonFindAllValues_ws, jsonFindAllValues_elemTail (PgKey.text_plain .name),
    List.map_append, map_getString_located, collectElems_value]

/-- The names in an array, and those behind it. -/
theorem textNames_arr (inner : Ws) (es : List (Pad × Json)) (r : Text) :
    textNames (lbracket :: (renderElems inner es ++ r)) =
      treeNames (.arr inner es) ++ textNames r := by
  unfold textNames treeNames
  rw [jsonFindAllValues_byte _ (by simp), jsonFindAllValues_elems (PgKey.text_plain .name),
    List.map_append, map_getString_located, collectElems_value, values]

/-- The text at a position is a value, and these names stand behind it. -/
def AtBefore (t : Text) (v : Json) (behind : List (Option Text)) : Prop :=
  ∃ r, Follows r ∧ t = render v ++ r ∧ textNames r = behind

theorem AtBefore.at {t : Text} (h : AtBefore t v behind) : At t v := by
  rcases h with ⟨r, hr, ht, -⟩
  exact ⟨r, hr, ht⟩

/-- A member is followed by those behind it. -/
theorem lookup_membersAfter {key : Text} {ms : Members} {u : Json}
    (h : get? key (.obj inner ms) = some u) (r : Text) :
    ∃ w : Ws, lookup key ms r =
      some ⟨u, w.text ++ (renderMemberTail (membersAfter key ms) ++ r)⟩ := by
  induction ms with
  | nil => cases h
  | cons m ms ih =>
      rcases m with ⟨k, v⟩
      rw [get?_cons] at h
      rw [lookup, membersAfter]
      by_cases hk : k.body.text = key
      · rw [if_pos hk] at h
        cases h
        rw [if_pos hk, if_pos hk]
        exact ⟨k.trail, rfl⟩
      · rw [if_neg hk] at h
        rw [if_neg hk, if_neg hk]
        exact ih h

/-- The position of a member, with the names behind it. -/
theorem AtBefore.findKey {t : Text} {ms : Members} (h : AtBefore t (.obj inner ms) behind)
    {key : Text} (hkey : PlainKey key) {u : Json} (hget : get? key (.obj inner ms) = some u) :
    ∃ t', jsonFindKey t key = some t' ∧
      AtBefore t' u
        ((valuesMembers (PgKey.text .name) (membersAfter key ms)).map treeString ++ behind) := by
  rcases h with ⟨r, -, rfl, rfl⟩
  rcases lookup_membersAfter hget r with ⟨w, hlookup⟩
  refine ⟨render u ++ (w.text ++ (renderMemberTail (membersAfter key ms) ++ r)), ?_, _,
    follows_ws_append w (follows_memberTail _ r), rfl, textNames_memberTail w _ r⟩
  rw [jsonFindKey_render hkey, member, hlookup]
  rfl

/-- The position of the shard column is that of its name among the names from the target list
on. -/
theorem targetPosition_tree {t : Text} {es : List (Pad × Json)}
    (h : AtBefore t (.arr inner es) behind) (c : Text) :
    targetPosition t c = (treeNames (.arr inner es) ++ behind).findIdx?
      fun name => decide (name = some c) := by
  rcases h with ⟨r, -, rfl, rfl⟩
  have hnames := textNames_arr inner es r
  rw [← hnames, textNames, List.findIdx?_map]
  rfl

/-- The row that the second pass reads. -/
private theorem firstRow_tree {t : Text} (h : At t v)
    (htight : ∀ u, ((get? (PgKey.text .selectStmt) v).bind (get? (PgKey.text .selectNode))).bind
      (get? (PgKey.text .valuesLists)) = some u → u.tight = true)
    {es : List (Pad × Json)}
    (hcols : get? (PgKey.text .cols) v = some (.arr inner es)) (c : Text) (pos : Nat)
    (result : ParseResult) :
    (match ((jsonFindKey t (ascii "selectStmt")).bind
        (jsonFindKey · (ascii "SelectStmt"))).bind (jsonFindKey · (ascii "valuesLists")) with
      | none => some result
      | some valuesLists =>
          match jsonFindKeyRecursive (ascii "items") (searchFuel valuesLists) valuesLists with
          | none => none
          | some (some (b :: items)) =>
              if b = lbracket then extractRowKey c pos items result else some result
          | some _ => some result) =
      some (recordInsertKey result c
        (((firstRow v)[pos]?.bind (find? (PgKey.text .aConst))).bind treeConst)) := by
  have hvalues := findKey_bind (findKey_bind (h.findKey (PgKey.text_plain .selectStmt))
    (PgKey.text_plain .selectNode)) (PgKey.text_plain .valuesLists)
  unfold firstRow
  rw [hcols]
  cases hget : ((get? (PgKey.text .selectStmt) v).bind (get? (PgKey.text .selectNode))).bind
      (get? (PgKey.text .valuesLists)) with
  | none =>
      rw [hget] at hvalues
      rw [show ((jsonFindKey t (ascii "selectStmt")).bind
        (jsonFindKey · (ascii "SelectStmt"))).bind (jsonFindKey · (ascii "valuesLists")) = none
        from rel_none hvalues]
      rfl
  | some lists =>
      rw [hget] at hvalues
      rcases rel_some hvalues with ⟨t', ht', hat⟩
      have htight' := htight lists hget
      rcases hat.search htight' (PgKey.text_plain .items) with ⟨o, hrec, hrel⟩
      rw [show ((jsonFindKey t (ascii "selectStmt")).bind
        (jsonFindKey · (ascii "SelectStmt"))).bind (jsonFindKey · (ascii "valuesLists")) = some t'
        from ht', Option.bind_some]
      dsimp only
      rw [show jsonFindKeyRecursive (ascii "items") (searchFuel t') t' = some o from hrec]
      cases hfind : find? (PgKey.text .items) lists with
      | none =>
          rw [hfind] at hrel
          rw [rel_none hrel]
          rfl
      | some items =>
          rw [hfind] at hrel
          rcases rel_some hrel with ⟨t'', rfl, hat'⟩
          have htight'' := tight_find? lists htight' hfind
          rcases hat'.bracket with ⟨inner', row, r, rfl, rfl⟩ | ⟨b, p, rfl, hb, hnot⟩
          · dsimp only
            rw [if_pos rfl]
            rw [Json.tight] at htight''
            exact extractRowKey_elems inner' htight'' r c pos result
          · dsimp only
            rw [if_neg hb]
            cases items with
            | arr inner' row => exact absurd rfl (hnot inner' row)
            | lit tok => rfl
            | str body => rfl
            | obj inner' ms => rfl

/-- The second pass over the node of an INSERT. -/
theorem extractShardKeyFromInsert_tree {t : Text} {body : Json}
    (h : AtBefore t body behind)
    (htight : ∀ u, ((get? (PgKey.text .selectStmt) body).bind
      (get? (PgKey.text .selectNode))).bind (get? (PgKey.text .valuesLists)) = some u →
      u.tight = true) (result : ParseResult) (c : Text) :
    extractShardKeyFromInsert t result c =
      some (recordInsertKey result c (insertKeyOf body behind c)) := by
  have hcols := h.at.findKey (PgKey.text_plain .cols)
  unfold extractShardKeyFromInsert
  have hnorow : (∀ inner es, get? (PgKey.text .cols) body ≠ some (.arr inner es)) →
      insertKeyOf body behind c = none := by
    intro hnot
    have hrow : firstRow body = [] := by
      unfold firstRow
      split
      · rename_i hget _
        exact absurd hget (hnot _ _)
      · rfl
    rw [insertKeyOf, hrow]
    simp
  cases hget : get? (PgKey.text .cols) body with
  | none =>
      rw [hget] at hcols
      rw [hnorow (by simp [hget]),
        show jsonFindKey t (ascii "cols") = none from rel_none hcols]
      rfl
  | some cols =>
      rw [hget] at hcols
      rcases rel_some hcols with ⟨t', ht', hat⟩
      rw [show jsonFindKey t (ascii "cols") = some t' from ht']
      rcases hat.bracket with ⟨inner, es, r, rfl, rfl⟩ | ⟨b, p, rfl, hb, hnot⟩
      · cases body with
        | obj inner' ms =>
            rcases h.findKey (PgKey.text_plain .cols) hget with ⟨t'', ht'', hbefore⟩
            have hsame : t'' = lbracket :: (renderElems inner es ++ r) :=
              Option.some.inj (ht''.symm.trans ht')
            subst hsame
            have hposition := targetPosition_tree hbefore c
            rw [← List.append_assoc] at hposition
            have hnames : targetNames (.obj inner' ms) = treeNames (.arr inner es) ++
                (valuesMembers (PgKey.text .name)
                  (membersAfter (PgKey.text .cols) ms)).map treeString := by
              unfold targetNames
              rw [hget]
            dsimp only
            rw [if_pos rfl, hposition, insertKeyOf, hnames]
            cases List.findIdx? (fun name => decide (name = some c)) _ with
            | none => rfl
            | some pos => exact firstRow_tree h.at htight hget c pos result
        | lit tok => cases hget
        | str body => cases hget
        | arr inner' es' => cases hget
      · dsimp only
        rw [if_neg hb,
          hnorow (fun inner es heq => hnot inner es (Option.some.inj (hget.symm.trans heq)))]
        rfl

/-! ## Whole documents -/

/-- The names in the entries of the statement list, from the position fields of one on. -/
def entryNames (position : Members) (more : List (Json × Members)) : List (Option Text) :=
  (valuesMembers (PgKey.text .name) position).map treeString ++
    more.flatMap fun entry =>
      treeNames entry.1 ++ (valuesMembers (PgKey.text .name) entry.2).map treeString

theorem entryNames_elems (more : List (Json × Members)) :
    (valuesElems (PgKey.text .name) ((more.map fun entry =>
      obj ((tok .stmt, entry.1) :: entry.2)).map fun v => (Pad.compact, v))).map treeString =
      more.flatMap fun entry =>
        treeNames entry.1 ++ (valuesMembers (PgKey.text .name) entry.2).map treeString := by
  induction more with
  | nil => rfl
  | cons entry more ih =>
      have hkey : ¬ (tok .stmt).body.text = PgKey.text .name := by simp
      rw [List.map_cons, List.map_cons, valuesElems, List.map_append, ih, List.flatMap_cons, obj,
        values, valuesMembers, if_neg hkey, List.map_append]
      rfl

/-- The parse tree leads to its first statement, with the names of the others behind it. -/
theorem document_firstStmt (version : Int) (stmt : Json) (position : Members)
    (more : List (Json × Members)) :
    ∃ b q stmtObj,
      jsonFindKey (render (document version ((stmt, position) :: more))) (ascii "stmts") =
        some (lbracket :: b :: q) ∧
      jsonSkipWhitespace (b :: q) = b :: q ∧ b ≠ rbracket ∧
      jsonFindKey (b :: q) (ascii "stmt") = some stmtObj ∧
      AtBefore stmtObj stmt (entryNames position more) := by
  have hdoc : AtBefore (render (document version ((stmt, position) :: more)))
      (document version ((stmt, position) :: more)) [] :=
    ⟨[], trivial, (List.append_nil _).symm, rfl⟩
  let entries := more.map fun entry => obj ((tok .stmt, entry.1) :: entry.2)
  have hget : get? (PgKey.text .stmts) (document version ((stmt, position) :: more)) =
      some (arr (obj ((tok .stmt, stmt) :: position) :: entries)) := by
    rw [document, get?_obj_cons, if_neg (by simp), get?_obj_cons, if_pos rfl, List.map_cons]
  rcases hdoc.findKey (PgKey.text_plain .stmts) hget with ⟨t, ht, r, -, rfl, hr⟩
  have hentry : AtBefore (render (obj ((tok .stmt, stmt) :: position)) ++
      (Pad.compact.after.text ++ (renderElemTail (entries.map fun v => (Pad.compact, v)) ++ r)))
      (obj ((tok .stmt, stmt) :: position)) (more.flatMap fun entry =>
        treeNames entry.1 ++ (valuesMembers (PgKey.text .name) entry.2).map treeString) := by
    refine ⟨_, follows_ws_append _ (follows_elemTail _ r), rfl, ?_⟩
    rw [textNames_elemTail, hr, entryNames_elems]
    simp [membersAfter, valuesMembers]
  rcases hentry.findKey (PgKey.text_plain .stmt) ((get?_cons ..).trans (if_pos rfl)) with
    ⟨stmtObj, hstmt, hbefore⟩
  have htext : render (arr (obj ((tok .stmt, stmt) :: position) :: entries)) ++ r =
      lbracket :: (render (obj ((tok .stmt, stmt) :: position)) ++
        (Pad.compact.after.text ++
          (renderElemTail (entries.map fun v => (Pad.compact, v)) ++ r))) := by
    simp [arr, render, renderElems, Pad.compact, Ws.none]
  rw [htext] at ht
  rw [membersAfter, if_pos (tok_text .stmt)] at hbefore
  exact ⟨lbrace, _, stmtObj, ht, skipSpace_cons_of_not (by decide), by decide, hstmt, hbefore⟩

/-- Parsing the first of any number of statements, and what the second pass adds to it. -/
theorem parseQuery_node {pgQueryParse : Text → Option Text} {sql : Text} {version : Int}
    {name : KeyTok} {body : Json} {position : Members} {more : List (Json × Members)}
    (hparse : pgQueryParse sql =
      some (render (document version ((obj [(name, body)], position) :: more))))
    (hsearch : Searchable name body) :
    ∃ result, parseQuery pgQueryParse sql = some (0, result) ∧ result.info = nodeInfo name body ∧
      (nodeType name.body.text = .insert → ∀ c, parseExtractInsertShardKey result (some c) =
        some (recordInsertKey result c (insertKeyOf body (entryNames position more) c))) := by
  rcases document_firstStmt version (obj [(name, body)]) position more with
    ⟨b, q, stmtObj, hstmts, hws, hb, hso, hbefore⟩
  rcases extractStatement_tree hbefore.at hsearch
    (some (render (document version ((obj [(name, body)], position) :: more)))) with
    ⟨result, hextract, hinfo, htree⟩
  refine ⟨result, ?_, hinfo, fun htype c => ?_⟩
  · unfold parseQuery
    rw [hparse]
    dsimp only
    rw [hstmts]
    dsimp only
    rw [if_pos rfl, hws]
    dsimp only
    rw [if_neg hb, hso]
    dsimp only
    rw [hextract]
    rfl
  · have hinsert : result.stmtType = .insert := by
      rw [show result.stmtType = result.info.stmtType from rfl, hinfo, nodeInfo_stmtType, htype]
    have hnames : _ ∧ (nodeType name.body.text = .insert → _) ∧ _ := name_of_nodeType
    have hget : get? (PgKey.text .insertNode) (obj [(name, body)]) = some body :=
      (get?_cons ..).trans (if_pos (hnames.2.1 htype))
    rcases hbefore.findKey (PgKey.text_plain .insertNode) hget with ⟨t', ht', hat⟩
    rw [membersAfter, if_pos (hnames.2.1 htype)] at hat
    unfold parseExtractInsertShardKey
    rw [htree htype]
    dsimp only
    rw [if_pos hinsert, hstmts]
    dsimp only
    rw [List.drop_succ_cons, List.drop_zero, hws, hso, Option.bind_some,
      show jsonFindKey stmtObj (ascii "InsertStmt") = some t' from ht']
    exact extractShardKeyFromInsert_tree hat (hsearch.values htype) result c

/-- The names of statements, in the order of the document. -/
def stmtNames (stmts : List RawStmt) : List (Option Text) :=
  stmts.flatMap fun stmt => treeNames stmt.toJson

/-- There are no names in the positions of statements. -/
theorem entryNames_stmts (stmt : RawStmt) (more : List RawStmt) :
    entryNames stmt.position (more.map fun s => (s.toJson, s.position)) = stmtNames more := by
  rw [entryNames, stmt.position_unnamed, List.map_nil, List.nil_append, List.flatMap_map]
  refine List.flatMap_congr fun s _ => ?_
  rw [s.position_unnamed, List.map_nil, List.append_nil]

/-- Parsing a list of statements. -/
theorem parseQuery_tree {pgQueryParse : Text → Option Text} {sql : Text} {version : Int}
    {stmt : RawStmt} {more : List RawStmt}
    (hparse : pgQueryParse sql = some (printed version (stmt :: more))) :
    ∃ result, parseQuery pgQueryParse sql = some (0, result) ∧ result.info = stmt.info ∧
      (result.stmtType = .insert → ∀ c, parseExtractInsertShardKey result (some c) =
        some (recordInsertKey result c (stmt.insertKey (stmtNames more) c))) := by
  rcases parseQuery_node hparse stmt.searchable with ⟨result, hquery, hinfo, hsecond⟩
  refine ⟨result, hquery, hinfo, fun hinsert c => ?_⟩
  have htype : nodeType stmt.name.body.text = .insert := by
    rw [← nodeInfo_stmtType stmt.name stmt.body, ← hinfo]
    exact hinsert
  rw [hsecond htype c, entryNames_stmts]
  rfl

end Sharegres
