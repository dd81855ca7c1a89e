import Sharegres.Parser.PrintedNodes

/-!
# Parser - Statements as trees

What {lit}`parse_query` knows of a statement is a function of the statement's tree, for every
tree: the type by the name of its node, the table, and the column and key of its WHERE clause.
Only the target list of an INSERT is searched beyond the statement, for the scan that collects
the names of its columns runs to the end of the document.

Main results:

- Definition {lit}`nodeInfo`: what is known of a statement, read off its tree.
- Definition {lit}`insertKeyOf`: the key of an INSERT, given the names behind it.
- Definition {lit}`Searchable`: the parts that are searched have no white space in empty objects.
- Theorem {lit}`nodeInfo_stmtType`: the type is that of the node.
-/

namespace Sharegres

open Foundation Foundation.Json

/-! ## Reading a tree -/

/-- What the parser knows of a statement. -/
@[ext]
structure StmtInfo where
  stmtType : StmtType := .unknown
  table : Option Text := none
  column : Option Text := none
  key : Option ConstKey := none
deriving DecidableEq

/-- The key of a parse result. -/
def ParseResult.key? (result : ParseResult) : Option ConstKey :=
  if result.shardKeyFound then
    some (if result.shardKeyIsInt then .int result.shardKeyInt else .str result.shardKeyStr)
  else none

/-- What a parse result says of a statement. -/
def ParseResult.info (result : ParseResult) : StmtInfo where
  stmtType := result.stmtType
  table := result.tableName
  column := result.shardKeyColumn
  key := result.key?

/-- The text of a string. -/
def treeString : Json → Option Text
  | .str body => some body.text
  | _ => none

/-- The key value of an {lit}`A_Const` node. -/
def treeConst (v : Json) : Option ConstKey :=
  readConst (render v)

/-- A table named by a {lit}`RangeVar`. -/
def StmtInfo.readTable (info : StmtInfo) (rv : Json) : StmtInfo :=
  match get? (PgKey.text .relname) rv with
  | some v => { info with table := treeString v }
  | none => info

/-- The column side of an equality. -/
def StmtInfo.readColumn (info : StmtInfo) (fields : Json) : StmtInfo :=
  match (find? (PgKey.text .stringNode) fields).bind (get? (PgKey.text .sval)) with
  | some v => { info with column := treeString v }
  | none => info

/-- The constant side of an equality. -/
def StmtInfo.readKey (info : StmtInfo) (aexpr : Json) : StmtInfo :=
  match ((get? (PgKey.text .rexpr) aexpr).bind (get? (PgKey.text .aConst))).bind treeConst with
  | some key => { info with key := some key }
  | none => info

/-- An {lit}`A_Expr` node: only {lit}`column = constant` has a key. -/
def StmtInfo.readExpr (info : StmtInfo) (aexpr : Json) : StmtInfo :=
  match (get? (PgKey.text .name) aexpr).bind (find? (PgKey.text .sval)) with
  | none => info
  | some op =>
      if treeString op = some (ascii "=") then
        match ((get? (PgKey.text .lexpr) aexpr).bind (get? (PgKey.text .columnRef))).bind
            (get? (PgKey.text .fields)) with
        | none => info
        | some fields =>
            let info := info.readColumn fields
            if info.column.isNone then info else info.readKey aexpr
      else info

/-- A member is smaller than its object. -/
theorem get?_sizeOf {key : Text} {v u : Json} (h : get? key v = some u) :
    sizeOf u < sizeOf v := by
  cases v with
  | lit tok => cases h
  | str body => cases h
  | arr inner es => cases h
  | obj inner ms =>
      rcases Option.map_eq_some_iff.mp h with ⟨⟨k, w⟩, hm, rfl⟩
      have hmem := List.sizeOf_lt_of_mem (List.mem_of_find?_eq_some hm)
      simp only [Prod.mk.sizeOf_spec] at hmem
      simp only [Json.obj.sizeOf_spec]
      omega

mutual

/-- A WHERE clause: the first equality with a key, from left to right. -/
def StmtInfo.readWhere (info : StmtInfo) (v : Json) : StmtInfo :=
  match get? (PgKey.text .aExpr) v with
  | some aexpr => info.readExpr aexpr
  | none =>
      match _h : (get? (PgKey.text .boolExpr) v).bind (get? (PgKey.text .args)) with
      | some (.arr _ es) => info.readArgs es
      | _ => info
termination_by sizeOf v
decreasing_by
  rcases Option.bind_eq_some_iff.mp _h with ⟨u, hu, hargs⟩
  have hlt := get?_sizeOf hu
  have hlt' := get?_sizeOf hargs
  simp only [Json.arr.sizeOf_spec] at hlt'
  omega

/-- The arguments of a {lit}`BoolExpr`. -/
def StmtInfo.readArgs (info : StmtInfo) (es : List (Pad × Json)) : StmtInfo :=
  match es with
  | [] => info
  | (_, v) :: es =>
      let info := info.readWhere v
      if info.key.isSome then info else info.readArgs es
termination_by sizeOf es

end

/-- The table of a SELECT: the first {lit}`RangeVar` of its FROM clause. -/
def StmtInfo.readFrom (info : StmtInfo) (body : Json) : StmtInfo :=
  match get? (PgKey.text .fromClause) body with
  | none => info
  | some clause =>
      match find? (PgKey.text .rangeVar) clause with
      | some rv => info.readTable rv
      | none =>
          match find? (PgKey.text .relname) clause with
          | some v => { info with table := treeString v }
          | none => info

/-- The table of an INSERT, UPDATE or DELETE. -/
def StmtInfo.readRelation (info : StmtInfo) (body : Json) : StmtInfo :=
  match get? (PgKey.text .relation) body with
  | some rv => info.readTable rv
  | none => info

/-- The WHERE clause of a statement, if it has one. -/
def StmtInfo.readWhereClause (info : StmtInfo) (body : Json) : StmtInfo :=
  match get? (PgKey.text .whereClause) body with
  | some v => info.readWhere v
  | none => info

/-- The statement type that belongs to the name of a node. -/
def nodeType (name : Text) : StmtType :=
  if name = ascii "SelectStmt" then .select
  else if name = ascii "InsertStmt" then .insert
  else if name = ascii "UpdateStmt" then .update
  else if name = ascii "DeleteStmt" then .delete
  else if name = ascii "TransactionStmt" then .transaction
  else if name = ascii "VariableSetStmt" then .set
  else if name = ascii "VariableShowStmt" then .show
  else if name = ascii "DiscardStmt" then .discard
  else if name = ascii "CopyStmt" then .copy
  else if name ∈ ddlNodes then .ddl
  else .unknown

/-- An entry of the statement list: the node of the statement, and its position fields, in
which there is no name. -/
structure RawStmt where
  name : KeyTok
  body : Json
  position : Members
  tight : body.tight = true
  position_unnamed : valuesMembers (PgKey.text .name) position = []

theorem unnamed_nil : valuesMembers (PgKey.text .name) [] = [] :=
  rfl

/-- The node of a statement. -/
def RawStmt.toJson (stmt : RawStmt) : Json :=
  obj [(stmt.name, stmt.body)]

/-- The document for a list of statements. -/
def printed (version : Int) (stmts : List RawStmt) : Text :=
  render (document version (stmts.map fun stmt => (stmt.toJson, stmt.position)))

/-- What the parser knows of a statement with the given node. -/
def nodeInfo (name : KeyTok) (body : Json) : StmtInfo :=
  let info : StmtInfo := { stmtType := nodeType name.body.text }
  match nodeType name.body.text with
  | .select => (info.readFrom body).readWhereClause body
  | .insert => info.readRelation body
  | .update => (info.readRelation body).readWhereClause body
  | .delete => (info.readRelation body).readWhereClause body
  | .ddl =>
      match find? (PgKey.text .relname) (obj [(name, body)]) with
      | some v => { info with table := treeString v }
      | none => info
  | _ => info

/-- What the parser knows of a statement. -/
def RawStmt.info (stmt : RawStmt) : StmtInfo :=
  nodeInfo stmt.name stmt.body

/-! ## The statement type -/

namespace StmtInfo

variable (info : StmtInfo) (v : Json)

theorem readTable_stmtType : (info.readTable v).stmtType = info.stmtType := by
  unfold readTable
  split <;> rfl

/-- What is known of a statement without its column and key. -/
def kept (info : StmtInfo) : StmtType × Option Text :=
  (info.stmtType, info.table)

/-- A comparison changes the key only. -/
theorem readExpr_kept : (info.readExpr v).kept = info.kept := by
  have hcolumn : ∀ fields, (info.readColumn fields).kept = info.kept := by
    intro fields
    unfold readColumn
    split <;> rfl
  have hkey : ∀ info' : StmtInfo, (info'.readKey v).kept = info'.kept := by
    intro info'
    unfold readKey
    split <;> rfl
  unfold readExpr
  split
  · rfl
  · split
    · split
      · rfl
      · dsimp only
        split
        · exact hcolumn _
        · exact (hkey _).trans (hcolumn _)
    · rfl

mutual

/-- A WHERE clause has no say in the type and the table of a statement. -/
theorem readWhere_kept (info : StmtInfo) (v : Json) :
    (info.readWhere v).kept = info.kept := by
  rw [readWhere]
  split
  · exact readExpr_kept info _
  · split
    · rename_i hargs
      rcases Option.bind_eq_some_iff.mp hargs with ⟨u, hu, hes⟩
      have hlt := get?_sizeOf hu
      have hlt' := get?_sizeOf hes
      exact readArgs_kept info _
    · rfl
termination_by sizeOf v
decreasing_by
  simp only [Json.arr.sizeOf_spec] at hlt'
  omega

/-- So do the arguments of a Boolean expression. -/
theorem readArgs_kept (info : StmtInfo) (es : List (Pad × Json)) :
    (info.readArgs es).kept = info.kept := by
  cases es with
  | nil => rw [readArgs]
  | cons e es =>
      rcases e with ⟨p, v⟩
      rw [readArgs]
      split
      · exact readWhere_kept info v
      · exact (readArgs_kept _ es).trans (readWhere_kept info v)
termination_by sizeOf es

end

/-- So does a WHERE clause. -/
theorem readWhereClause_kept : (info.readWhereClause v).kept = info.kept := by
  unfold readWhereClause
  split
  · exact readWhere_kept info _
  · rfl

theorem readWhereClause_stmtType : (info.readWhereClause v).stmtType = info.stmtType :=
  congrArg Prod.fst (readWhereClause_kept info v)

theorem readWhereClause_table : (info.readWhereClause v).table = info.table :=
  congrArg Prod.snd (readWhereClause_kept info v)

theorem readRelation_stmtType : (info.readRelation v).stmtType = info.stmtType := by
  unfold readRelation
  split
  · exact readTable_stmtType info _
  · rfl

theorem readFrom_stmtType : (info.readFrom v).stmtType = info.stmtType := by
  unfold readFrom
  split
  · rfl
  · split
    · exact readTable_stmtType info _
    · split <;> rfl

end StmtInfo

/-- The statement type is that of the node. -/
theorem nodeInfo_stmtType (name : KeyTok) (body : Json) :
    (nodeInfo name body).stmtType = nodeType name.body.text := by
  unfold nodeInfo
  cases nodeType name.body.text with
  | select => exact (StmtInfo.readWhereClause_stmtType _ _).trans (StmtInfo.readFrom_stmtType _ _)
  | insert => exact StmtInfo.readRelation_stmtType _ _
  | update =>
      exact (StmtInfo.readWhereClause_stmtType _ _).trans (StmtInfo.readRelation_stmtType _ _)
  | delete =>
      exact (StmtInfo.readWhereClause_stmtType _ _).trans (StmtInfo.readRelation_stmtType _ _)
  | ddl =>
      dsimp only
      split <;> rfl
  | transaction => rfl
  | set => rfl
  | «show» => rfl
  | discard => rfl
  | copy => rfl
  | unknown => rfl

theorem RawStmt.info_stmtType (stmt : RawStmt) :
    stmt.info.stmtType = nodeType stmt.name.body.text :=
  nodeInfo_stmtType stmt.name stmt.body

/-- A DDL statement is known by the first {lit}`relname` in it. -/
theorem RawStmt.info_ddl {stmt : RawStmt} (hkind : nodeType stmt.name.body.text = .ddl) :
    stmt.info =
      { stmtType := .ddl, table := (find? (PgKey.text .relname) stmt.toJson).bind treeString } := by
  unfold RawStmt.info nodeInfo RawStmt.toJson
  rw [hkind]
  cases find? (PgKey.text .relname) (obj [(stmt.name, stmt.body)]) <;> rfl

/-! ## Names -/

/-- The names in a value, in the order of the document. -/
def treeNames (v : Json) : List (Option Text) :=
  (values (PgKey.text .name) v).map treeString

/-- The names in a text. -/
def textNames (t : Text) : List (Option Text) :=
  (jsonFindAllValues t (PgKey.text .name)).map jsonGetString

/-- The members behind the first one with a key. -/
def membersAfter (key : Text) : Members → Members
  | [] => []
  | (k, _) :: ms => if k.body.text = key then ms else membersAfter key ms

/-- The names from the target list of an INSERT to the end of its node. -/
def targetNames (body : Json) : List (Option Text) :=
  match get? (PgKey.text .cols) body, body with
  | some (.arr inner es), .obj _ ms =>
      treeNames (.arr inner es) ++
        (valuesMembers (PgKey.text .name) (membersAfter (PgKey.text .cols) ms)).map treeString
  | _, _ => []

/-- The values of the first row of an INSERT, if it has a target list. -/
def firstRow (body : Json) : List Json :=
  match get? (PgKey.text .cols) body,
    (((get? (PgKey.text .selectStmt) body).bind (get? (PgKey.text .selectNode))).bind
      (get? (PgKey.text .valuesLists))).bind (find? (PgKey.text .items)) with
  | some (.arr _ _), some (.arr _ es) => es.map Prod.snd
  | _, _ => []

/-- The key of an INSERT for a shard column, if these names stand behind it: its position is
that of the column among the names from the target list on. -/
def insertKeyOf (body : Json) (behind : List (Option Text)) (column : Text) : Option ConstKey :=
  ((targetNames body ++ behind).findIdx? fun name => decide (name = some column)).bind
    fun i => ((firstRow body)[i]?.bind (find? (PgKey.text .aConst))).bind treeConst

/-- The key of an INSERT statement. -/
def RawStmt.insertKey (stmt : RawStmt) (behind : List (Option Text)) (column : Text) :
    Option ConstKey :=
  insertKeyOf stmt.body behind column

/-! ## Searched parts -/

/-- The parts of a comparison that are searched. -/
structure ExprSearchable (aexpr : Json) : Prop where
  name : ∀ names, get? (PgKey.text .name) aexpr = some names → names.tight = true
  fields : ∀ fields, ((get? (PgKey.text .lexpr) aexpr).bind (get? (PgKey.text .columnRef))).bind
    (get? (PgKey.text .fields)) = some fields → fields.tight = true

/-- The parts of a WHERE clause that are searched. -/
inductive WhereSearchable : Json → Prop where
  | expr {v aexpr : Json} (h : get? (PgKey.text .aExpr) v = some aexpr)
      (hexpr : ExprSearchable aexpr) : WhereSearchable v
  | args {v : Json} {inner : Ws} {es : List (Pad × Json)} (h : get? (PgKey.text .aExpr) v = none)
      (hargs : (get? (PgKey.text .boolExpr) v).bind (get? (PgKey.text .args)) =
        some (.arr inner es)) (hes : ∀ e ∈ es, WhereSearchable e.2) : WhereSearchable v
  | other {v : Json} (h : get? (PgKey.text .aExpr) v = none)
      (hother : ∀ inner es, (get? (PgKey.text .boolExpr) v).bind (get? (PgKey.text .args)) ≠
        some (.arr inner es)) : WhereSearchable v

/-- The comparison of a clause. -/
theorem WhereSearchable.of_expr {v aexpr : Json} (h : WhereSearchable v)
    (hget : get? (PgKey.text .aExpr) v = some aexpr) : ExprSearchable aexpr := by
  cases h with
  | expr h hexpr =>
      cases h.symm.trans hget
      exact hexpr
  | args h => cases h.symm.trans hget
  | other h => cases h.symm.trans hget

/-- The arguments of a clause. -/
theorem WhereSearchable.of_args {v : Json} {inner : Ws} {es : List (Pad × Json)}
    (h : WhereSearchable v) (hget : get? (PgKey.text .aExpr) v = none)
    (hargs : (get? (PgKey.text .boolExpr) v).bind (get? (PgKey.text .args)) =
      some (.arr inner es)) : ∀ e ∈ es, WhereSearchable e.2 := by
  cases h with
  | expr h => cases h.symm.trans hget
  | args h hargs' hes =>
      cases hargs'.symm.trans hargs
      exact hes
  | other h hother => exact absurd hargs (hother inner es)

/-- The parts of a statement that are searched for a key have no white space in empty objects. -/
structure Searchable (name : KeyTok) (body : Json) : Prop where
  fromClause : nodeType name.body.text = .select →
    ∀ v, get? (PgKey.text .fromClause) body = some v → v.tight = true
  whereClause : nodeType name.body.text ≠ .insert →
    ∀ v, get? (PgKey.text .whereClause) body = some v → WhereSearchable v
  values : nodeType name.body.text = .insert →
    ∀ v, ((get? (PgKey.text .selectStmt) body).bind (get? (PgKey.text .selectNode))).bind
      (get? (PgKey.text .valuesLists)) = some v → v.tight = true
  ddl : nodeType name.body.text = .ddl → body.tight = true

theorem exprSearchable_of_tight {v : Json} (h : v.tight = true) : ExprSearchable v where
  name _ hget := tight_get? h hget
  fields _ hget := by
    rcases Option.bind_eq_some_iff.mp hget with ⟨colref, hcolref, hfields⟩
    rcases Option.bind_eq_some_iff.mp hcolref with ⟨left, hleft, hcol⟩
    exact tight_get? (tight_get? (tight_get? h hleft) hcol) hfields

/-- Without white space in empty objects a clause can be searched. -/
theorem whereSearchable_of_tight (v : Json) (h : v.tight = true) : WhereSearchable v := by
  cases haexpr : get? (PgKey.text .aExpr) v with
  | some aexpr => exact .expr haexpr (exprSearchable_of_tight (tight_get? h haexpr))
  | none =>
      by_cases hargs : ∃ inner es, (get? (PgKey.text .boolExpr) v).bind (get? (PgKey.text .args)) =
          some (.arr inner es)
      · rcases hargs with ⟨inner, es, hargs⟩
        rcases Option.bind_eq_some_iff.mp hargs with ⟨u, hu, hes⟩
        have htight := tight_get? (tight_get? h hu) hes
        rw [Json.tight] at htight
        refine .args haexpr hargs fun e he => ?_
        have hlt := get?_sizeOf hu
        have hlt' := get?_sizeOf hes
        have hmem := List.sizeOf_lt_of_mem he
        exact whereSearchable_of_tight e.2 (tight_of_mem_elems htight he)
      · exact .other haexpr fun inner es heq => hargs ⟨inner, es, heq⟩
termination_by sizeOf v
decreasing_by
  rcases e with ⟨p, w⟩
  simp only [Prod.mk.sizeOf_spec, Json.arr.sizeOf_spec] at hmem hlt' ⊢
  omega

/-- Every statement of the document can be searched. -/
theorem RawStmt.searchable (stmt : RawStmt) : Searchable stmt.name stmt.body where
  fromClause _ _ hget := tight_get? stmt.tight hget
  whereClause _ v hget := whereSearchable_of_tight v (tight_get? stmt.tight hget)
  values _ _ hget := by
    rcases Option.bind_eq_some_iff.mp hget with ⟨u, hu, hlists⟩
    rcases Option.bind_eq_some_iff.mp hu with ⟨w, hw, hselect⟩
    exact tight_get? (tight_get? (tight_get? stmt.tight hw) hselect) hlists
  ddl _ := stmt.tight

end Sharegres
