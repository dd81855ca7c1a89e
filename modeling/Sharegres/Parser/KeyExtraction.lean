import Sharegres.Parser.TreeParsing

/-!
# Parser - Key extraction refines a search of the tree

On the printed form of a parse tree the text-level extractors compute functions of
the tree: the WHERE extractor records the leftmost readable equality, and the
INSERT extractor the constant of the first row in the position of the first target
column whose printed name is the shard column.

Main results:

- Theorem {lit}`readWhere_expr`: a WHERE clause has the key {lit}`PgExpr.key`.
- Theorem {lit}`extractShardKeyFromWhere_expr`: the WHERE extractor terminates and records it.
- Theorem {lit}`parseQuery_where`: the parse result of a statement with a WHERE clause.
- Theorem {lit}`ValuesInsert.insertKey_eq_taken`: the expression an INSERT is routed by.
- Theorem {lit}`parseQuery_insert`: the parse result of an INSERT of simple columns.
-/

namespace Sharegres

open Foundation Foundation.Json

/-! ## Equalities -/

/-- What an extraction adds to what is known of a statement: the key found and its column, and
without one at most a column. -/
def Extracted (found : Option (Text × ConstKey)) (info info' : StmtInfo) : Prop :=
  match found with
  | none => ∃ column, info' = { info with column := column }
  | some (column, key) => info' = { info with column := some (outToken column), key := some key }

/-- No key is extracted. -/
theorem extracted_none_refl (info : StmtInfo) : Extracted none info info :=
  ⟨info.column, rfl⟩

/-- A key is found exactly when the tree has one. -/
theorem Extracted.key_eq {found : Option (Text × ConstKey)} {info info' : StmtInfo}
    (h : Extracted found info info') (hinfo : info.key = none) :
    info'.key = found.map Prod.snd := by
  cases found with
  | none =>
      rcases h with ⟨column, rfl⟩
      exact hinfo
  | some k =>
      rw [show info' = _ from h]
      rfl

/-- An unsuccessful extraction can be followed by another one. -/
theorem Extracted.trans {found : Option (Text × ConstKey)} {info₁ info₂ info₃ : StmtInfo}
    (h₁ : Extracted none info₁ info₂) (h₂ : Extracted found info₂ info₃) :
    Extracted found info₁ info₃ := by
  rcases h₁ with ⟨column, rfl⟩
  cases found with
  | none => exact h₂
  | some k => exact h₂

section AExpr

variable {kind : AExprKind} {op : Text} {moreOps : List Text} {lexpr rexpr : Option Operand}
  {location : Int}

/-- The operator of a comparison. -/
private theorem get?_name :
    get? (PgKey.text .name) (obj (aExprMembers kind (op :: moreOps) lexpr rexpr location)) =
      some (arr (stringNode op :: moreOps.map stringNode)) := by
  simp [aExprMembers]

private theorem get?_lexpr :
    get? (PgKey.text .lexpr) (obj (aExprMembers kind (op :: moreOps) lexpr rexpr location)) =
      lexpr.map Operand.toJson := by
  rw [aExprMembers, get?_obj_cons, if_neg (by simp), get?_obj_cons, if_neg (by simp),
    get?_nodeField_append, get?_nodeField_append, get?_intField (by simp)]
  cases lexpr <;> simp

private theorem get?_rexpr :
    get? (PgKey.text .rexpr) (obj (aExprMembers kind (op :: moreOps) lexpr rexpr location)) =
      rexpr.map Operand.toJson := by
  rw [aExprMembers, get?_obj_cons, if_neg (by simp), get?_obj_cons, if_neg (by simp),
    get?_nodeField_append, get?_nodeField_append, get?_intField (by simp)]
  cases rexpr <;> simp

private theorem tight_names (names : List Text) : tight (arr (names.map stringNode)) = true := by
  rw [tight_arr, List.all_map, List.all_eq_true]
  intro s _
  exact tight_stringNode s

private theorem find?_names :
    find? (PgKey.text .sval) (arr (stringNode op :: moreOps.map stringNode)) =
      some (strVal op) := by
  rw [find?_arr_cons, stringNode, find?_node, if_neg (by simp), find?_obj, get?_obj_cons,
    if_pos rfl]
  rfl

private theorem find?_fields {first : Text} {more : List RefField} :
    find? (PgKey.text .stringNode) (arr (stringNode first :: more.map RefField.toJson)) =
      some (obj [(tok .sval, strVal first)]) := by
  rw [find?_arr_cons, stringNode, find?_node, if_pos rfl]
  rfl

private theorem tight_fields {first : Text} {more : List RefField} :
    tight (arr (stringNode first :: more.map RefField.toJson)) = true := by
  rw [tight_arr, List.all_cons, tight_stringNode, Bool.true_and, List.all_map, List.all_eq_true]
  intro f _
  cases f with
  | name s => exact tight_stringNode s
  | star => rfl

/-- The operator is read as it is printed. -/
private theorem outToken_eq_equals : outToken op = ascii "=" ↔ op = ascii "=" := by
  have heq : outToken (ascii "=") = ascii "=" := by simp [ascii, outToken, outByte]
  constructor
  · intro h
    apply outToken_injective
    rw [h, heq]
  · intro h
    rw [h, heq]

/-- A printed constant is its key. -/
theorem treeConst_toJson (c : PgConst) (location : Int) :
    treeConst (obj (c.members ++ [(tok .location, intVal location)])) = c.key :=
  readConst_toJson (at_render _)

/-- The constant of an equality, if its right side is one. -/
theorem readKey_aExpr (info : StmtInfo) :
    info.readKey (obj (aExprMembers kind (op :: moreOps) lexpr rexpr location)) =
      (constKey rexpr).elim info fun key => { info with key := some key } := by
  have hconst : ((rexpr.map Operand.toJson).bind (get? (PgKey.text .aConst))).bind treeConst =
      constKey rexpr := by
    cases rexpr with
    | none => rfl
    | some operand =>
        cases operand with
        | column first more loc =>
            rw [Option.map_some, Option.bind_some, Operand.toJson, get?_node, if_neg (by simp)]
            rfl
        | const value loc =>
            rw [Option.map_some, Option.bind_some, Operand.toJson, PgConst.toJson, get?_node,
              if_pos rfl, Option.bind_some, treeConst_toJson]
            rfl
        | other tree notColumn notConst =>
            rw [Option.map_some, Option.bind_some, Operand.toJson, notConst]
            rfl
  rw [StmtInfo.readKey, get?_rexpr, hconst]
  cases constKey rexpr <;> rfl

/-- The column that an operand refers to. -/
private theorem fields_operand :
    ((lexpr.map Operand.toJson).bind (get? (PgKey.text .columnRef))).bind
        (get? (PgKey.text .fields)) =
      match lexpr with
      | some (.column first more _) => some (arr (stringNode first :: more.map RefField.toJson))
      | _ => none := by
  cases lexpr with
  | none => rfl
  | some operand =>
      cases operand with
      | column first more loc =>
          rw [Option.map_some, Option.bind_some, Operand.toJson, get?_node, if_pos rfl,
            Option.bind_some, get?_obj_cons, if_pos rfl]
      | const value loc =>
          rw [Option.map_some, Option.bind_some, Operand.toJson, PgConst.toJson, get?_node,
            if_neg (by simp)]
          rfl
      | other tree notColumn notConst =>
          rw [Option.map_some, Option.bind_some, Operand.toJson, notColumn]
          rfl

/-- A comparison yields its key when it equates a column with a readable constant. -/
theorem readExpr_aExpr (info : StmtInfo) :
    Extracted (PgExpr.aexpr kind op moreOps lexpr rexpr location).key info
      (info.readExpr (obj (aExprMembers kind (op :: moreOps) lexpr rexpr location))) := by
  unfold StmtInfo.readExpr
  rw [get?_name, Option.bind_some, find?_names, get?_lexpr, fields_operand]
  dsimp only
  have hop : treeString (strVal op) = some (ascii "=") ↔ op = ascii "=" := by
    rw [show treeString (strVal op) = some (outToken op) from rfl, Option.some.injEq,
      outToken_eq_equals]
  by_cases hequals : op = ascii "="
  · rw [if_pos (hop.mpr hequals)]
    cases lexpr with
    | none => exact extracted_none_refl info
    | some operand =>
        cases operand with
        | column first more loc =>
            have hcolumn : info.readColumn (arr (stringNode first :: more.map RefField.toJson)) =
                { info with column := some (outToken first) } := by
              rw [StmtInfo.readColumn, find?_fields, Option.bind_some, get?_obj_cons, if_pos rfl]
              rfl
            dsimp only
            rw [hcolumn, if_neg (by simp), readKey_aExpr, PgExpr.key, if_pos hequals]
            cases constKey rexpr with
            | none => exact ⟨_, rfl⟩
            | some key => rfl
        | const value loc => exact extracted_none_refl info
        | other tree notColumn notConst => exact extracted_none_refl info
  · rw [if_neg (mt hop.mp hequals)]
    have hkey : (PgExpr.aexpr kind op moreOps lexpr rexpr location).key = none := by
      unfold PgExpr.key
      split
      · rename_i heq'
        cases heq'
        rw [if_neg hequals]
      · rfl
      · rename_i heq'
        cases heq'
      · rfl
    rw [hkey]
    exact extracted_none_refl info

/-- The names and fields of a printed comparison can be searched. -/
theorem exprSearchable_aExpr :
    ExprSearchable (obj (aExprMembers kind (op :: moreOps) lexpr rexpr location)) where
  name names hget := by
    rw [get?_name] at hget
    cases hget
    exact tight_names (op :: moreOps)
  fields fields hget := by
    rw [get?_lexpr, fields_operand] at hget
    split at hget
    · cases hget
      exact tight_fields
    · cases hget

end AExpr

/-! ## Boolean structure -/

/-- The argument list of a connective. -/
theorem get?_boolArgs (op : BoolOp) (args : List PgExpr) (location : Int) :
    (get? (PgKey.text .boolExpr) (PgExpr.bool op args location).toJson).bind
      (get? (PgKey.text .args)) = some (.arr Ws.none (PgExpr.argsJson args)) := by
  rw [PgExpr.toJson, get?_node, if_pos rfl, Option.bind_some, get?_obj_cons, if_neg (by simp),
    get?_obj_cons, if_pos rfl]

/-- A Boolean expression is no comparison. -/
theorem get?_bool_aExpr (op : BoolOp) (args : List PgExpr) (location : Int) :
    get? (PgKey.text .aExpr) (PgExpr.bool op args location).toJson = none := by
  rw [PgExpr.toJson, get?_node, if_neg (by simp)]

mutual

/-- A printed WHERE clause yields the leftmost readable equality, whatever connectives stand
above it. -/
theorem readWhere_expr : ∀ (e : PgExpr) (info : StmtInfo), info.key = none →
    Extracted e.key info (info.readWhere e.toJson)
  | .aexpr kind op moreOps lexpr rexpr location, info, _ => by
      rw [readWhere_eq, PgExpr.toJson, get?_node, if_pos rfl]
      exact readExpr_aExpr info
  | .bool op args location, info, hinfo => by
      rw [readWhere_eq, get?_bool_aExpr, get?_boolArgs, PgExpr.key]
      exact readArgs_exprs args info hinfo
  | .other tree notAExpr notBool, info, _ => by
      rw [readWhere_eq, PgExpr.toJson, notAExpr, notBool, PgExpr.key]
      exact extracted_none_refl info

/-- The arguments of a Boolean expression. -/
theorem readArgs_exprs : ∀ (args : List PgExpr) (info : StmtInfo), info.key = none →
    Extracted (PgExpr.argsKey args) info (info.readArgs (PgExpr.argsJson args))
  | [], info, _ => by
      rw [PgExpr.argsKey, PgExpr.argsJson, StmtInfo.readArgs]
      exact extracted_none_refl info
  | e :: args, info, hinfo => by
      have hfirst := readWhere_expr e info hinfo
      have hfound := hfirst.key_eq hinfo
      rw [PgExpr.argsKey, PgExpr.argsJson, StmtInfo.readArgs]
      cases hkey : e.key with
      | some k =>
          rw [hkey] at hfirst hfound
          rw [if_pos (by rw [hfound]; rfl)]
          exact hfirst
      | none =>
          rw [hkey] at hfirst hfound
          rw [if_neg (by rw [hfound]; simp)]
          exact hfirst.trans (readArgs_exprs args _ hfound)

end

mutual

/-- Printed expressions can be searched. -/
theorem whereSearchable_expr : ∀ e : PgExpr, WhereSearchable e.toJson
  | .aexpr kind op moreOps lexpr rexpr location => by
      refine .expr ?_ (@exprSearchable_aExpr kind op moreOps lexpr rexpr location)
      rw [PgExpr.toJson, get?_node, if_pos rfl]
  | .bool op args location =>
      .args (get?_bool_aExpr op args location) (get?_boolArgs op args location)
        (whereSearchable_exprs args)
  | .other tree notAExpr notBool => by
      refine .other ?_ ?_
      · rw [PgExpr.toJson, notAExpr]
      · rw [PgExpr.toJson, notBool]
        simp

theorem whereSearchable_exprs : ∀ args : List PgExpr,
    ∀ e ∈ PgExpr.argsJson args, WhereSearchable e.2
  | [] => by
      rw [PgExpr.argsJson]
      simp
  | e :: args => by
      rw [PgExpr.argsJson, List.forall_mem_cons]
      exact ⟨whereSearchable_expr e, whereSearchable_exprs args⟩

end

/-- On a printed clause the WHERE extractor terminates and records the leftmost readable
equality. -/
theorem extractShardKeyFromWhere_expr (e : PgExpr) {t : Text} {fuel : Nat} {result : ParseResult}
    (hat : At t e.toJson) (hresult : result.shardKeyFound = false)
    (hfuel : 2 * (render e.toJson).length ≤ fuel) :
    ∃ result', extractShardKeyFromWhere fuel t result = some result' ∧
      Extracted e.key result.info result'.info := by
  rcases extractShardKeyFromWhere_tree fuel e.toJson t result hat (whereSearchable_expr e) hfuel
    with ⟨result', hextract, hinfo⟩
  refine ⟨result', hextract, ?_⟩
  rw [hinfo]
  exact readWhere_expr e result.info (if_neg (by rw [hresult]; simp))

/-! ## Statements with a WHERE clause -/

/-- The table named by a printed {lit}`RangeVar`. -/
theorem readTable_rangeVar (info : StmtInfo) (rv : RangeVar) :
    info.readTable (obj rv.members) = { info with table := some (outToken rv.relname) } := by
  rw [StmtInfo.readTable, RangeVar.members, get?_nodeField_append, get?_nodeField_append,
    if_neg (by simp), if_neg (by simp), get?_obj_cons, if_pos rfl]
  rfl

/-- The node of a statement has its type. -/
theorem nodeType_kind (kind : WhereKind) : nodeType (tok kind.key).body.text = kind.stmtType := by
  cases kind with
  | select => exact if_pos rfl
  | update =>
      rw [nodeType, if_neg (by simp [WhereKind.key, PgKey.text, ascii]),
        if_neg (by simp [WhereKind.key, PgKey.text, ascii])]
      exact if_pos rfl
  | delete =>
      rw [nodeType, if_neg (by simp [WhereKind.key, PgKey.text, ascii]),
        if_neg (by simp [WhereKind.key, PgKey.text, ascii]),
        if_neg (by simp [WhereKind.key, PgKey.text, ascii])]
      exact if_pos rfl

/-- The member for the table. -/
theorem get?_tableMember (kind : WhereKind) (table : RangeVar) (k : PgKey) (ms : Members) :
    get? k.text (obj (kind.tableMember table :: ms)) =
      if (match kind with | .select => PgKey.fromClause | _ => PgKey.relation) = k then
        some (kind.tableMember table).2
      else get? k.text (obj ms) := by
  cases kind <;> exact get?_obj_cons k _ _ ms

section Where

variable (stmt : WhereStmt) (e : PgExpr)

/-- The members of a statement node with a WHERE clause. -/
def WhereStmt.members : Members :=
  stmt.before ++ stmt.kind.tableMember stmt.table ::
    (stmt.between ++ (tok .whereClause, e.toJson) :: stmt.after)

private theorem get?_whereTable {k : PgKey} (hk : k ∈ stmtKeys)
    (htable : (match stmt.kind with | .select => PgKey.fromClause | _ => PgKey.relation) = k) :
    get? k.text (obj (stmt.members e)) = some (stmt.kind.tableMember stmt.table).2 := by
  rw [WhereStmt.members, get?_uninspected stmt.before_uninspected hk, get?_tableMember,
    if_pos htable]

/-- The clause of the statement. -/
private theorem get?_whereClause :
    get? (PgKey.text .whereClause) (obj (stmt.members e)) = some e.toJson := by
  rw [WhereStmt.members, get?_uninspected stmt.before_uninspected (by simp [stmtKeys]),
    get?_tableMember, if_neg (by cases stmt.kind <;> simp),
    get?_uninspected stmt.between_uninspected (by simp [stmtKeys]), get?_obj_cons, if_pos rfl]

/-- What is known of a statement with a WHERE clause. -/
theorem nodeInfo_where :
    Extracted e.key
      { stmtType := stmt.kind.stmtType, table := some (outToken stmt.table.relname) }
      (nodeInfo (tok stmt.kind.key) (obj (stmt.members e))) := by
  have hclause := get?_whereClause stmt e
  -- UPDATE and DELETE name their table in the same member
  have hrelation : ∀ type, (match stmt.kind with
        | .select => PgKey.fromClause
        | _ => PgKey.relation) = .relation →
      (stmt.kind.tableMember stmt.table).2 = obj stmt.table.members →
      Extracted e.key { stmtType := type, table := some (outToken stmt.table.relname) }
        ((StmtInfo.readRelation { stmtType := type } (obj (stmt.members e))).readWhereClause
          (obj (stmt.members e))) := by
    intro type hkey htable
    rw [StmtInfo.readRelation, get?_whereTable stmt e (by simp [stmtKeys]) hkey, htable]
    change Extracted _ _ ((StmtInfo.readTable _ (obj stmt.table.members)).readWhereClause _)
    rw [readTable_rangeVar, StmtInfo.readWhereClause, hclause]
    exact readWhere_expr e _ rfl
  unfold nodeInfo
  rw [nodeType_kind]
  cases hkind : stmt.kind with
  | select =>
      have hfrom := get?_whereTable stmt e (k := .fromClause) (by simp [stmtKeys]) (by rw [hkind])
      have hfind : find? (PgKey.text .rangeVar) (stmt.kind.tableMember stmt.table).2 =
          some (obj stmt.table.members) := by
        rw [hkind]
        change find? (PgKey.text .rangeVar) (arr [node (tok .rangeVar) stmt.table.members]) = _
        rw [find?_arr_cons, find?_node, if_pos rfl, Option.some_or]
      change Extracted _ _ ((StmtInfo.readFrom _ _).readWhereClause _)
      rw [StmtInfo.readFrom, hfrom]
      dsimp only
      rw [hfind]
      dsimp only
      rw [readTable_rangeVar, StmtInfo.readWhereClause, hclause]
      exact readWhere_expr e _ rfl
  | update => exact hrelation .update (by rw [hkind]) (by rw [hkind]; rfl)
  | delete => exact hrelation .delete (by rw [hkind]) (by rw [hkind]; rfl)

/-- The printed statement can be searched. -/
theorem searchable_where : Searchable (tok stmt.kind.key) (obj (stmt.members e)) where
  fromClause htype v hget := by
    rw [nodeType_kind] at htype
    cases hkind : stmt.kind with
    | select =>
        rw [get?_whereTable stmt e (by simp [stmtKeys]) (by rw [hkind]), hkind] at hget
        cases hget
        change Json.tight (arr [node (tok .rangeVar) stmt.table.members]) = true
        rw [tight_arr, List.all_cons, tight_node, stmt.table.tight_members]
        rfl
    | update =>
        rw [hkind] at htype
        cases htype
    | delete =>
        rw [hkind] at htype
        cases htype
  whereClause _ v hget := by
    rw [get?_whereClause] at hget
    cases hget
    exact whereSearchable_expr e
  values htype := by
    rw [nodeType_kind] at htype
    cases hkind : stmt.kind <;> rw [hkind] at htype <;> cases htype
  ddl htype := by
    rw [nodeType_kind] at htype
    cases hkind : stmt.kind <;> rw [hkind] at htype <;> cases htype

end Where

/-- The parse result of a SELECT, UPDATE or DELETE with a WHERE clause. -/
theorem parseQuery_where {pgQueryParse : Text → Option Text} {sql : Text} {version : Int}
    {stmt : WhereStmt} {e : PgExpr} {trailing : Members} {more : List (Json × Members)}
    (hparse : pgQueryParse sql =
      some (render (document version ((stmt.toJson e, trailing) :: more)))) :
    ∃ result, parseQuery pgQueryParse sql = some (0, result) ∧
      Extracted e.key
        { stmtType := stmt.kind.stmtType, table := some (outToken stmt.table.relname) }
        result.info := by
  rcases parseQuery_node hparse (searchable_where stmt e) with ⟨result, hquery, hinfo, -⟩
  refine ⟨result, hquery, ?_⟩
  rw [hinfo]
  exact nodeInfo_where stmt e

/-! ## Names and positions -/

/-- The names in a target column: its own, and those in its subscripts. -/
def InsertTarget.names (target : InsertTarget) : List (Option Text) :=
  some (outToken target.name) :: target.indirection.flatMap fun v => treeNames v.json

theorem valuesMembers_append (key : Text) (ms ms' : Members) :
    valuesMembers key (ms ++ ms') = valuesMembers key ms ++ valuesMembers key ms' := by
  induction ms with
  | nil => rfl
  | cons m ms ih =>
      rcases m with ⟨k, v⟩
      rw [List.cons_append, valuesMembers, valuesMembers, ih, List.append_assoc]

theorem treeNames_arr (vs : List Json) : treeNames (arr vs) = vs.flatMap treeNames := by
  induction vs with
  | nil => rfl
  | cons v vs ih =>
      have harr : values (PgKey.text .name) (arr (v :: vs)) =
          values (PgKey.text .name) v ++ values (PgKey.text .name) (arr vs) := rfl
      rw [List.flatMap_cons, ← ih, treeNames, harr, List.map_append]
      rfl

/-- The names of a target are its own and those below it. -/
theorem treeNames_target (target : InsertTarget) : treeNames target.toJson = target.names := by
  have hsubscripts : (valuesMembers (PgKey.text .name)
      (listField indirectionTok (target.indirection.map ValueTree.json))).map treeString =
      target.indirection.flatMap fun v => treeNames v.json := by
    unfold listField
    split
    · rename_i hempty
      rw [List.isEmpty_iff, List.map_eq_nil_iff] at hempty
      rw [hempty]
      rfl
    · have hkey : indirectionTok.body.text ≠ PgKey.text .name := by
        simp [indirectionTok, KeyTok.compact, PgKey.text, ascii]
      rw [valuesMembers, if_neg hkey, valuesMembers, List.append_nil, ← List.flatMap_map]
      exact treeNames_arr _
  have hlocation : valuesMembers (PgKey.text .name) (intField (tok .location) target.location) =
      [] := by
    have hkey : (tok .location).body.text ≠ PgKey.text .name := by simp
    unfold intField
    split
    · rfl
    · rw [valuesMembers, if_neg hkey]
      rfl
  have hname : (tok .resTarget).body.text ≠ PgKey.text .name := by simp
  rw [treeNames, InsertTarget.toJson, node, obj, values, valuesMembers, if_neg hname, obj, values,
    valuesMembers, valuesMembers, if_pos (tok_text .name), valuesMembers_append, hlocation,
    List.append_nil, List.append_nil, List.map_append, hsubscripts]
  rfl

/-- Members that are passed over do not hide the target columns. -/
theorem membersAfter_uninspected {before : Members} (h : Uninspected before) (ms : Members) :
    membersAfter (PgKey.text .cols) (before ++ ms) = membersAfter (PgKey.text .cols) ms := by
  induction before with
  | nil => rfl
  | cons m before ih =>
      rcases m with ⟨k, v⟩
      have hkey : k.body.text ≠ PgKey.text .cols :=
        h (k, v) List.mem_cons_self .cols (by simp [stmtKeys])
      rw [List.cons_append, membersAfter, if_neg hkey]
      exact ih fun m hm => h m (List.mem_cons_of_mem _ hm)

/-- The names of all targets, and what is found behind them. -/
theorem targetNames_obj {ms : Members} {vs : List Json}
    (h : get? (PgKey.text .cols) (obj ms) = some (arr vs)) :
    targetNames (obj ms) = treeNames (arr vs) ++
      (valuesMembers (PgKey.text .name) (membersAfter (PgKey.text .cols) ms)).map treeString := by
  unfold targetNames
  rw [h]
  rfl

namespace ValuesInsert

variable (insert : ValuesInsert)

/-- The names from the target columns to the end of the statement. -/
def names : List (Option Text) :=
  insert.targets.flatMap InsertTarget.names ++
    (valuesMembers (PgKey.text .name) insert.behindTargets).map treeString

/-- The expression of the first row that is taken for the one of a column, if these names stand
behind the statement. -/
def taken (behind : List (Option Text)) (c : Text) : Option ValueTree :=
  ((insert.names ++ behind).findIdx? fun name => decide (name = some c)).bind
    fun i => insert.rows.head?.bind (·[i]?)

theorem get?_cols : get? (PgKey.text .cols) (obj insert.members) =
    some (arr (insert.targets.map InsertTarget.toJson)) := by
  rw [members, get?_uninspected insert.before_uninspected (by simp [stmtKeys]), get?_obj_cons,
    if_neg (by simp), get?_obj_cons, if_pos rfl]

/-- The column names of the printed INSERT. -/
theorem targetNames_body : targetNames (obj insert.members) = insert.names := by
  have hkey : (tok .relation).body.text ≠ PgKey.text .cols := by simp
  rw [targetNames_obj insert.get?_cols, members, membersAfter_uninspected insert.before_uninspected,
    membersAfter, if_neg hkey, membersAfter, if_pos (tok_text .cols), treeNames_arr,
    List.flatMap_map, names]
  simp only [treeNames_target]

/-- The rows of the printed INSERT. -/
theorem get?_values : ((get? (PgKey.text .selectStmt) (obj insert.members)).bind
    (get? (PgKey.text .selectNode))).bind (get? (PgKey.text .valuesLists)) =
    some (arr (insert.rows.map rowJson)) := by
  rw [members, behindTargets, get?_uninspected insert.before_uninspected (by simp [stmtKeys]),
    get?_obj_cons, if_neg (by simp), get?_obj_cons, if_neg (by simp), get?_obj_cons, if_pos rfl,
    Option.bind_some, get?_node, if_pos rfl, Option.bind_some,
    get?_uninspected insert.selectBefore_uninspected (by simp [stmtKeys]), get?_obj_cons,
    if_pos rfl]

theorem firstRow_body :
    firstRow (obj insert.members) = (insert.rows.head?.getD []).map ValueTree.json := by
  unfold firstRow
  rw [insert.get?_cols, insert.get?_values, Option.bind_some]
  cases insert.rows with
  | nil => rfl
  | cons row rows =>
      have hitems : find? (PgKey.text .items) (arr ((row :: rows).map rowJson)) =
          some (arr (row.map ValueTree.json)) := by
        rw [List.map_cons, find?_arr_cons, rowJson, find?_node, if_neg (by simp), find?_obj,
          get?_obj_cons, if_pos rfl]
        rfl
      rw [hitems, arr, arr]
      dsimp only
      rw [List.map_map]
      exact List.map_id _

/-- The key of an INSERT is the first constant in the expression that is taken. -/
theorem insertKey_eq_taken (behind : List (Option Text)) (c : Text) :
    insertKeyOf (obj insert.members) behind c =
      (insert.taken behind c).bind ValueTree.key := by
  rw [insertKeyOf, insert.targetNames_body, insert.firstRow_body, taken]
  cases (insert.names ++ behind).findIdx? fun name => decide (name = some c) with
  | none => rfl
  | some i =>
      rw [Option.bind_some, Option.bind_some, List.getElem?_map]
      cases insert.rows with
      | nil => rfl
      | cons row rows =>
          rw [List.head?_cons, Option.getD_some, Option.bind_some]
          cases row[i]? <;> rfl

theorem nodeType_insertNode : nodeType (tok .insertNode).body.text = .insert := by
  rw [nodeType, if_neg (by simp [PgKey.text, ascii])]
  exact if_pos rfl

/-- What is known of an INSERT after the first pass. -/
theorem nodeInfo_insert : nodeInfo (tok .insertNode) (obj insert.members) =
    { stmtType := .insert, table := some (outToken insert.table.relname) } := by
  unfold nodeInfo
  rw [nodeType_insertNode]
  dsimp only
  rw [StmtInfo.readRelation, members, get?_uninspected insert.before_uninspected
    (by simp [stmtKeys]), get?_obj_cons, if_pos rfl]
  exact readTable_rangeVar _ insert.table

/-- The printed INSERT can be searched. -/
theorem searchable_insert : Searchable (tok .insertNode) (obj insert.members) where
  fromClause htype := by
    rw [nodeType_insertNode] at htype
    cases htype
  whereClause htype := absurd nodeType_insertNode htype
  values _ v hget := by
    rw [insert.get?_values] at hget
    cases hget
    rw [tight_arr, List.all_map, List.all_eq_true]
    intro row _
    rw [Function.comp_apply, rowJson, tight_node, tightMembers, tight_arr, tightMembers,
      Bool.and_true, List.all_map, List.all_eq_true]
    intro v _
    exact v.tight
  ddl htype := by
    rw [nodeType_insertNode] at htype
    cases htype

end ValuesInsert

/-! ## INSERTs of simple columns -/

/-- The key of an INSERT for a shard column: that of the first row's value in the
position of the first target column printed like the shard column. -/
def InsertStmt.key (stmt : InsertStmt) (c : Text) : Option ConstKey :=
  (stmt.cols.findIdx? fun col => decide (outToken col.1 = c)).bind fun i =>
    (stmt.rows.head?.bind (·[i]?)).bind ValueTree.key

/-- Names behind the target list have positions that no row has. -/
theorem InsertStmt.taken_key (stmt : InsertStmt) (behind : List (Option Text)) (c : Text) :
    (stmt.tree.taken behind c).bind ValueTree.key = stmt.key c := by
  have hcols : stmt.tree.targets.flatMap InsertTarget.names =
      stmt.cols.map fun col => some (outToken col.1) := by
    rw [InsertStmt.tree, List.flatMap_map, List.map_eq_flatMap]
    rfl
  have hindex : ((stmt.cols.map fun col => some (outToken col.1)).findIdx?
      fun name => decide (name = some c)) =
      stmt.cols.findIdx? fun col => decide (outToken col.1 = c) := by
    rw [List.findIdx?_map]
    simp [Function.comp_def]
  rcases List.exists_cons_of_ne_nil stmt.rows_ne with ⟨row, rows, hrows⟩
  have hlength := stmt.rows_length row (by rw [hrows]; exact List.mem_cons_self)
  rw [ValuesInsert.taken, ValuesInsert.names, hcols, List.append_assoc, List.findIdx?_append,
    hindex, InsertStmt.key, show stmt.tree.rows = stmt.rows from rfl, hrows, List.length_map]
  cases stmt.cols.findIdx? fun col => decide (outToken col.1 = c) with
  | some i => rfl
  | none =>
      rw [Option.none_or, Option.bind_none]
      cases List.findIdx? (fun name => decide (name = some c)) _ with
      | none => rfl
      | some j =>
          have hbeyond : row[j + stmt.cols.length]? = none := by
            rw [List.getElem?_eq_none_iff]
            omega
          rw [Option.map_some, Option.bind_some, List.head?_cons, Option.bind_some, hbeyond]
          rfl

/-- The parse result of an INSERT, and what the second pass adds to it. -/
theorem parseQuery_insert {pgQueryParse : Text → Option Text} {sql : Text} {version : Int}
    {stmt : InsertStmt} {trailing : Members} {more : List (Json × Members)}
    (hparse : pgQueryParse sql =
      some (render (document version ((stmt.toJson, trailing) :: more)))) :
    ∃ result : ParseResult, parseQuery pgQueryParse sql = some (0, result) ∧
      result.info = { stmtType := .insert, table := some (outToken stmt.table.relname) } ∧
      ∀ c, parseExtractInsertShardKey result (some c) =
        some (recordInsertKey result c (stmt.key c)) := by
  rcases parseQuery_node hparse stmt.tree.searchable_insert with ⟨result, hquery, hinfo, hsecond⟩
  refine ⟨result, hquery, hinfo.trans stmt.tree.nodeInfo_insert, fun c => ?_⟩
  rw [hsecond ValuesInsert.nodeType_insertNode c, stmt.tree.insertKey_eq_taken, stmt.taken_key]

end Sharegres
