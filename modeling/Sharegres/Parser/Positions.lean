import Sharegres.Parser.TreeParsing

/-!
# Parser - Positions in the text

The nodes of a parse tree record where they stand in the text.  The trees of a statement alone
and of the same statement behind others differ in these numbers only, and nothing that is read
off a tree depends on them.

Main results:

- Definition {lit}`unplaced`: a tree without its positions.
- Theorem {lit}`RawStmt.info_unplaced`: what is known of a statement is a function of it.
-/

namespace Sharegres

open Foundation Foundation.Json

variable {k : PgKey} {key : Text}

/-- A value in the place of a number. -/
def isNumber : Json → Bool
  | .lit _ => true
  | _ => false

mutual

/-- The tree with zero for every position. -/
def unplaced : Json → Json
  | .lit tok => .lit tok
  | .str body => .str body
  | .arr inner elems => .arr inner (unplacedElems elems)
  | .obj inner members => .obj inner (unplacedMembers members)

/-- {lit}`unplaced` for the elements of an array. -/
def unplacedElems : List (Pad × Json) → List (Pad × Json)
  | [] => []
  | (p, v) :: elems => (p, unplaced v) :: unplacedElems elems

/-- {lit}`unplaced` for the members of an object. -/
def unplacedMembers : Members → Members
  | [] => []
  | (k, v) :: members =>
      (k, if k.body.text = PgKey.text .location ∧ isNumber v = true then intVal 0
        else unplaced v) :: unplacedMembers members

end

/-! ## Lookups -/

/-- A member under another key. -/
theorem get?_unplaced (hkey : PgKey.text .location ≠ key) (v : Json) :
    get? key (unplaced v) = (get? key v).map unplaced := by
  cases v with
  | lit tok => rfl
  | str body => rfl
  | arr inner es => rfl
  | obj inner ms =>
      rw [unplaced]
      induction ms with
      | nil => rfl
      | cons m ms ih =>
          rcases m with ⟨k, v⟩
          rw [unplacedMembers, get?_cons, get?_cons, ih]
          by_cases hk : k.body.text = key
          · rw [if_pos hk, if_pos hk, if_neg (fun h => hkey (h.1.symm.trans hk)), Option.map_some]
          · rw [if_neg hk, if_neg hk]

/-- There is nothing in a position. -/
private theorem find?_number {v : Json} (h : isNumber v = true) :
    find? key v = none := by
  cases v with
  | lit tok => rfl
  | str body => cases h
  | arr inner es => cases h
  | obj inner ms => cases h

mutual

/-- The search for another key, through objects and arrays. -/
theorem find?_unplaced (hkey : PgKey.text .location ≠ key) :
    ∀ v : Json, find? key (unplaced v) = (find? key v).map unplaced
  | .lit _ => rfl
  | .str _ => rfl
  | .arr _ es => by
      rw [unplaced, find?, find?]
      exact findElems?_unplaced hkey es
  | .obj inner ms => by
      have hget := get?_unplaced hkey (.obj inner ms)
      rw [unplaced] at hget
      rw [unplaced, find?, find?, hget]
      cases get? key (.obj inner ms) with
      | some v => rfl
      | none => exact findMembers?_unplaced hkey ms

/-- The search below an array. -/
theorem findElems?_unplaced (hkey : PgKey.text .location ≠ key) :
    ∀ es : List (Pad × Json), findElems? key (unplacedElems es) = (findElems? key es).map unplaced
  | [] => rfl
  | (_, v) :: es => by
      rw [unplacedElems, findElems?, findElems?, find?_unplaced hkey v]
      cases find? key v with
      | some u => rfl
      | none => exact findElems?_unplaced hkey es

/-- The search below an object. -/
theorem findMembers?_unplaced (hkey : PgKey.text .location ≠ key) :
    ∀ ms : Members, findMembers? key (unplacedMembers ms) = (findMembers? key ms).map unplaced
  | [] => rfl
  | (k, v) :: ms => by
      have hvalue : find? key (if k.body.text = PgKey.text .location ∧ isNumber v = true then
          intVal 0 else unplaced v) = (find? key v).map unplaced := by
        split
        · rename_i hplace
          rw [find?_number hplace.2]
          rfl
        · exact find?_unplaced hkey v
      rw [unplacedMembers, findMembers?, findMembers?, hvalue]
      cases find? key v with
      | some u => rfl
      | none => exact findMembers?_unplaced hkey ms

end

mutual

/-- All values of another key. -/
theorem values_unplaced (hkey : PgKey.text .location ≠ key) :
    ∀ v : Json, values key (unplaced v) = (values key v).map unplaced
  | .lit _ => rfl
  | .str _ => rfl
  | .arr _ es => by
      rw [unplaced, values, values]
      exact valuesElems_unplaced hkey es
  | .obj _ ms => by
      rw [unplaced, values, values]
      exact valuesMembers_unplaced hkey ms

theorem valuesElems_unplaced (hkey : PgKey.text .location ≠ key) :
    ∀ es : List (Pad × Json), valuesElems key (unplacedElems es) = (valuesElems key es).map unplaced
  | [] => rfl
  | (_, v) :: es => by
      rw [unplacedElems, valuesElems, valuesElems, values_unplaced hkey v,
        valuesElems_unplaced hkey es, List.map_append]

theorem valuesMembers_unplaced (hkey : PgKey.text .location ≠ key) :
    ∀ ms : Members, valuesMembers key (unplacedMembers ms) = (valuesMembers key ms).map unplaced
  | [] => rfl
  | (k, v) :: ms => by
      rw [unplacedMembers, valuesMembers, valuesMembers, valuesMembers_unplaced hkey ms,
        List.map_append]
      by_cases hk : k.body.text = key
      · rw [if_pos hk, if_pos hk, if_neg (fun h => hkey (h.1.symm.trans hk))]
        rfl
      · rw [if_neg hk, if_neg hk]
        congr 1
        split
        · rename_i hplace
          cases v with
          | lit tok => rfl
          | str body => cases hplace.2
          | arr inner es => cases hplace.2
          | obj inner ms => cases hplace.2
        · exact values_unplaced hkey v

end

/-- A key of the parser's other than the position. -/
theorem get?_key_unplaced (hk : k ≠ .location) (v : Json) :
    get? k.text (unplaced v) = (get? k.text v).map unplaced :=
  get?_unplaced (fun h => hk (PgKey.text_inj.mp h).symm) v

theorem find?_key_unplaced (hk : k ≠ .location) (v : Json) :
    find? k.text (unplaced v) = (find? k.text v).map unplaced :=
  find?_unplaced (fun h => hk (PgKey.text_inj.mp h).symm) v

/-! ## What is read -/

/-- The string that is read from a value. -/
@[simp]
theorem treeString_unplaced (v : Json) : treeString (unplaced v) = treeString v := by
  cases v <;> rfl

/-- No number is read from an array or an object. -/
theorem jsonGetInt_bracket {b : UInt8} (hb : b = lbracket ∨ b = lbrace) (q : Text) :
    jsonGetInt (b :: q) = 0 := by
  have hzero : Int64.ofIntClamp 0 = 0 := by decide
  rcases hb with rfl | rfl <;>
    simp [jsonGetInt, jsonSkipWhitespace, strtoll, skipSpace, isSpace, readDigits, isDigit, hzero]

/-- An integer is read the same. -/
theorem jsonGetInt_unplaced (v : Json) :
    jsonGetInt (render (unplaced v)) = jsonGetInt (render v) := by
  cases v with
  | lit tok => rfl
  | str body => rfl
  | arr inner es =>
      rw [unplaced, render, render, jsonGetInt_bracket (Or.inl rfl),
        jsonGetInt_bracket (Or.inl rfl)]
  | obj inner ms =>
      rw [unplaced, render, render, jsonGetInt_bracket (Or.inr rfl),
        jsonGetInt_bracket (Or.inr rfl)]

/-- The key of a constant, by its tree. -/
theorem treeConst_eq (v : Json) :
    treeConst v =
      match (get? (PgKey.text .ival) v).bind (get? (PgKey.text .ival)) with
      | some j => some (.int (jsonGetInt (render j)))
      | none =>
          ((get? (PgKey.text .sval) v).bind (get? (PgKey.text .sval))).map
            fun j => .str (treeString j) := by
  have hint := findKey_bind ((at_render v).findKey (PgKey.text_plain .ival))
    (PgKey.text_plain .ival)
  have hstr := findKey_bind ((at_render v).findKey (PgKey.text_plain .sval))
    (PgKey.text_plain .sval)
  rw [treeConst, readConst_eq]
  cases hi : (get? (PgKey.text .ival) v).bind (get? (PgKey.text .ival)) with
  | some j =>
      rw [hi] at hint
      rcases rel_some hint with ⟨t, ht, r, hr, rfl⟩
      rw [ht]
      dsimp only
      rw [jsonGetInt_append j hr]
  | none =>
      rw [hi] at hint
      rw [rel_none hint]
      dsimp only
      cases hs : (get? (PgKey.text .sval) v).bind (get? (PgKey.text .sval)) with
      | none =>
          rw [hs] at hstr
          rw [rel_none hstr]
          rfl
      | some j =>
          rw [hs] at hstr
          rcases rel_some hstr with ⟨t, ht, hat⟩
          rw [ht]
          dsimp only
          rw [hat.string]
          rfl

/-- Two lookups in a row. -/
theorem bind_get?_unplaced (hk : k ≠ .location) {o o' : Option Json} (ho : o' = o.map unplaced) :
    o'.bind (get? k.text) = (o.bind (get? k.text)).map unplaced := by
  subst ho
  cases o with
  | none => rfl
  | some v => exact get?_key_unplaced hk v

/-- A constant in a comparison. -/
@[simp]
theorem treeConst_unplaced (v : Json) : treeConst (unplaced v) = treeConst v := by
  rw [treeConst_eq, treeConst_eq,
    bind_get?_unplaced (by simp) (get?_key_unplaced (k := .ival) (by simp) v),
    bind_get?_unplaced (by simp) (get?_key_unplaced (k := .sval) (by simp) v)]
  cases (get? (PgKey.text .ival) v).bind (get? (PgKey.text .ival)) with
  | some j =>
      rw [Option.map_some]
      dsimp only
      rw [jsonGetInt_unplaced]
  | none =>
      rw [Option.map_none]
      dsimp only
      rw [Option.map_map]
      simp only [Function.comp_def, treeString_unplaced]

namespace StmtInfo

variable (info : StmtInfo) (v : Json)

/-- The table of a relation. -/
theorem readTable_unplaced : info.readTable (unplaced v) = info.readTable v := by
  unfold readTable
  rw [get?_key_unplaced (by simp)]
  cases get? (PgKey.text .relname) v with
  | none => rfl
  | some u => simp

/-- The column of a comparison. -/
theorem readColumn_unplaced : info.readColumn (unplaced v) = info.readColumn v := by
  unfold readColumn
  rw [bind_get?_unplaced (by simp) (find?_key_unplaced (by simp) v)]
  cases (find? (PgKey.text .stringNode) v).bind (get? (PgKey.text .sval)) with
  | none => rfl
  | some u => simp

/-- The constant of a comparison. -/
theorem readKey_unplaced : info.readKey (unplaced v) = info.readKey v := by
  unfold readKey
  rw [bind_get?_unplaced (by simp) (get?_key_unplaced (by simp) v), Option.bind_map]
  simp only [Function.comp_def, treeConst_unplaced]

/-- A comparison. -/
theorem readExpr_unplaced : info.readExpr (unplaced v) = info.readExpr v := by
  unfold readExpr
  rw [bind_get?_unplaced (by simp) (bind_get?_unplaced (by simp)
    (get?_key_unplaced (by simp) v)), get?_key_unplaced (by simp) v, Option.bind_map]
  have hop : ∀ o : Option Json, (o.bind (find? (PgKey.text .sval) ∘ unplaced)) =
      (o.bind (find? (PgKey.text .sval))).map unplaced := by
    intro o
    cases o with
    | none => rfl
    | some u => exact find?_key_unplaced (by simp) u
  rw [hop]
  cases (get? (PgKey.text .name) v).bind (find? (PgKey.text .sval)) with
  | none => rfl
  | some op =>
      rw [Option.map_some]
      dsimp only
      rw [treeString_unplaced]
      cases ((get? (PgKey.text .lexpr) v).bind (get? (PgKey.text .columnRef))).bind
          (get? (PgKey.text .fields)) with
      | none => rfl
      | some fields =>
          rw [Option.map_some]
          dsimp only
          rw [readColumn_unplaced, readKey_unplaced]

mutual

/-- A WHERE clause. -/
theorem readWhere_unplaced (info : StmtInfo) (v : Json) :
    info.readWhere (unplaced v) = info.readWhere v := by
  rw [readWhere_eq, readWhere_eq, get?_key_unplaced (by simp),
    bind_get?_unplaced (by simp) (get?_key_unplaced (by simp) v)]
  cases get? (PgKey.text .aExpr) v with
  | some aexpr => exact readExpr_unplaced info aexpr
  | none =>
      rw [Option.map_none]
      dsimp only
      cases hargs : (get? (PgKey.text .boolExpr) v).bind (get? (PgKey.text .args)) with
      | none => rfl
      | some u =>
          rcases Option.bind_eq_some_iff.mp hargs with ⟨w, hw, hu⟩
          have hlt := get?_sizeOf hw
          have hlt' := get?_sizeOf hu
          cases u with
          | arr inner es => exact readArgs_unplaced info es
          | lit tok => rfl
          | str body => rfl
          | obj inner ms => rfl
termination_by sizeOf v
decreasing_by
  simp only [Json.arr.sizeOf_spec] at hlt'
  omega

/-- The arguments of a Boolean expression. -/
theorem readArgs_unplaced (info : StmtInfo) (es : List (Pad × Json)) :
    info.readArgs (unplacedElems es) = info.readArgs es := by
  cases es with
  | nil => rfl
  | cons e es =>
      rcases e with ⟨p, v⟩
      rw [unplacedElems, readArgs, readArgs, readWhere_unplaced info v, readArgs_unplaced _ es]
termination_by sizeOf es

end

/-- The WHERE clause of a statement. -/
theorem readWhereClause_unplaced : info.readWhereClause (unplaced v) = info.readWhereClause v := by
  unfold readWhereClause
  rw [get?_key_unplaced (by simp)]
  cases get? (PgKey.text .whereClause) v with
  | none => rfl
  | some u => exact readWhere_unplaced info u

/-- The relation of a statement. -/
theorem readRelation_unplaced : info.readRelation (unplaced v) = info.readRelation v := by
  unfold readRelation
  rw [get?_key_unplaced (by simp)]
  cases get? (PgKey.text .relation) v with
  | none => rfl
  | some u => exact readTable_unplaced info u

/-- The first relation of a FROM clause. -/
theorem readFrom_unplaced : info.readFrom (unplaced v) = info.readFrom v := by
  unfold readFrom
  rw [get?_key_unplaced (by simp)]
  cases get? (PgKey.text .fromClause) v with
  | none => rfl
  | some u =>
      rw [Option.map_some]
      dsimp only
      rw [find?_key_unplaced (by simp), find?_key_unplaced (by simp)]
      cases find? (PgKey.text .rangeVar) u with
      | some rv => exact readTable_unplaced info rv
      | none =>
          cases find? (PgKey.text .relname) u with
          | none => rfl
          | some w => simp

end StmtInfo

/-! ## The second pass -/

/-- The members behind a key. -/
theorem membersAfter_unplaced (key : Text) (ms : Members) :
    membersAfter key (unplacedMembers ms) = unplacedMembers (membersAfter key ms) := by
  induction ms with
  | nil => rfl
  | cons m ms ih =>
      rcases m with ⟨k, v⟩
      rw [unplacedMembers, membersAfter, membersAfter, ih]
      split <;> rfl

private theorem map_treeString_unplaced (vs : List Json) :
    (vs.map unplaced).map treeString = vs.map treeString := by
  rw [List.map_map]
  exact List.map_congr_left fun v _ => treeString_unplaced v

/-- The column names of an INSERT. -/
theorem targetNames_unplaced (v : Json) : targetNames (unplaced v) = targetNames v := by
  have hname : PgKey.text .location ≠ PgKey.text .name := by simp
  unfold targetNames
  rw [get?_key_unplaced (by simp)]
  cases get? (PgKey.text .cols) v with
  | none => rfl
  | some cols =>
      cases cols with
      | lit tok => rfl
      | str body => rfl
      | obj inner ms => rfl
      | arr inner es =>
          have hcols := values_unplaced hname (.arr inner es)
          rw [unplaced] at hcols
          cases v with
          | lit tok => rfl
          | str body => rfl
          | arr inner' es' => rfl
          | obj inner' ms =>
              rw [Option.map_some, unplaced, unplaced]
              dsimp only
              rw [treeNames, hcols, map_treeString_unplaced, membersAfter_unplaced,
                valuesMembers_unplaced hname, map_treeString_unplaced, treeNames]

theorem unplacedElems_snd (es : List (Pad × Json)) :
    (unplacedElems es).map Prod.snd = (es.map Prod.snd).map unplaced := by
  induction es with
  | nil => rfl
  | cons e es ih =>
      rcases e with ⟨p, v⟩
      rw [unplacedElems, List.map_cons, ih]
      rfl

/-- The first row of an INSERT. -/
theorem firstRow_unplaced (v : Json) : firstRow (unplaced v) = (firstRow v).map unplaced := by
  have hitems : ∀ o : Option Json, (o.map unplaced).bind (find? (PgKey.text .items)) =
      (o.bind (find? (PgKey.text .items))).map unplaced := by
    intro o
    cases o with
    | none => rfl
    | some u => exact find?_key_unplaced (by simp) u
  unfold firstRow
  rw [get?_key_unplaced (by simp), bind_get?_unplaced (by simp) (bind_get?_unplaced (by simp)
    (get?_key_unplaced (by simp) v)), hitems]
  cases get? (PgKey.text .cols) v with
  | none => rfl
  | some cols =>
      cases (((get? (PgKey.text .selectStmt) v).bind (get? (PgKey.text .selectNode))).bind
          (get? (PgKey.text .valuesLists))).bind (find? (PgKey.text .items)) with
      | none => cases cols <;> rfl
      | some items =>
          cases cols with
          | lit tok => rfl
          | str body => rfl
          | obj inner ms => rfl
          | arr inner es =>
              cases items with
              | lit tok => rfl
              | str body => rfl
              | obj inner' ms => rfl
              | arr inner' row =>
                  rw [Option.map_some, Option.map_some, unplaced, unplaced]
                  exact unplacedElems_snd row

/-! ## Statements -/

/-- What the search finds in a statement: its name or something in its body. -/
theorem RawStmt.find?_toJson (stmt : RawStmt) (key : Text) :
    find? key stmt.toJson =
      if stmt.name.body.text = key then some stmt.body else find? key stmt.body := by
  rw [RawStmt.toJson, obj, find?, get?_cons, get?_nil]
  by_cases hkey : stmt.name.body.text = key
  · rw [if_pos hkey, if_pos hkey]
  · rw [if_neg hkey, if_neg hkey, findMembers?]
    cases find? key stmt.body <;> rfl

/-- What is known of a statement does not depend on its position. -/
theorem RawStmt.info_unplaced {stmt stmt' : RawStmt} (hname : stmt'.name = stmt.name)
    (hbody : unplaced stmt'.body = unplaced stmt.body) : stmt'.info = stmt.info := by
  have hread : ∀ f : StmtInfo → Json → StmtInfo, (∀ info v, f info (unplaced v) = f info v) →
      ∀ info, f info stmt'.body = f info stmt.body := by
    intro f hf info
    rw [← hf info stmt'.body, hbody, hf]
  have hwhere := hread StmtInfo.readWhereClause StmtInfo.readWhereClause_unplaced
  have hrelation := hread StmtInfo.readRelation StmtInfo.readRelation_unplaced
  have hfrom := hread StmtInfo.readFrom StmtInfo.readFrom_unplaced
  have hfind : (find? (PgKey.text .relname) stmt'.toJson).map unplaced =
      (find? (PgKey.text .relname) stmt.toJson).map unplaced := by
    rw [stmt'.find?_toJson, stmt.find?_toJson, hname]
    split
    · rw [Option.map_some, hbody, Option.map_some]
    · rw [← find?_key_unplaced (by simp), hbody, find?_key_unplaced (by simp)]
  by_cases hddl : nodeType stmt.name.body.text = .ddl
  · have hstring : treeString ∘ unplaced = treeString := funext treeString_unplaced
    rw [RawStmt.info_ddl (by rw [hname, hddl]), RawStmt.info_ddl hddl, ← hstring, ← Option.bind_map,
      hfind, Option.bind_map]
  · unfold RawStmt.info nodeInfo
    dsimp only
    rw [hname, hfrom, hwhere, hrelation, hwhere]
    cases hkind : nodeType stmt.name.body.text with
    | ddl => exact absurd hkind hddl
    | _ => rfl

/-- Nor does the key of an INSERT. -/
theorem RawStmt.insertKey_unplaced {stmt stmt' : RawStmt}
    (hbody : unplaced stmt'.body = unplaced stmt.body) (behind : List (Option Text)) (c : Text) :
    stmt'.insertKey behind c = stmt.insertKey behind c := by
  have hrow : (firstRow stmt'.body).map unplaced = (firstRow stmt.body).map unplaced := by
    rw [← firstRow_unplaced, hbody, firstRow_unplaced]
  have hnames : targetNames stmt'.body = targetNames stmt.body := by
    rw [← targetNames_unplaced, hbody, targetNames_unplaced]
  have hkey : ∀ (row : List Json) (i : Nat),
      ((row[i]?.bind (find? (PgKey.text .aConst))).bind treeConst) =
        (((row.map unplaced)[i]?.bind (find? (PgKey.text .aConst))).bind treeConst) := by
    intro row i
    rw [List.getElem?_map]
    cases row[i]? with
    | none => rfl
    | some v =>
        rw [Option.map_some, Option.bind_some, Option.bind_some, find?_key_unplaced (by simp),
          Option.bind_map]
        simp only [Function.comp_def, treeConst_unplaced]
  unfold RawStmt.insertKey insertKeyOf
  rw [hnames]
  congr 1
  funext i
  rw [hkey, hrow, ← hkey]

end Sharegres
