import Mathlib.Data.List.Nodup
import Sharegres.Parser.QueryParser

/-!
# Parser - Parse trees and their JSON

The parse trees of the statements that are routed by key, and the JSON that
{lit}`pg_query_outfuncs_json.c` of libpg_query prints for them: no white space,
fields with default values left out, integer literals of at least 2^31 in
absolute value printed as {lit}`fval` strings, and identifiers escaped by
{lit}`_outToken`.

Main results:

- Theorem {lit}`outToken_injective`: identifiers with the same printed form are
  equal.
- Theorem {lit}`outToken_eq_self_iff`: the strings that are printed as they are.
- Definitions {lit}`PgExpr.toJson`, {lit}`WhereStmt.toJson` and
  {lit}`InsertStmt.toJson`: the printer.
- Definition {lit}`PgExpr.key`: the equality with a constant that stands leftmost
  in an expression.
-/

namespace Sharegres

open Foundation Foundation.Json

/-! ## Tokens -/

/-- A hexadecimal digit in lower case. -/
def hexDigit (n : UInt8) : UInt8 :=
  if n < 10 then 48 + n else 87 + n

/-- What {lit}`_outToken` writes for one byte. -/
def outByte (b : UInt8) : Text :=
  if b = 8 then [backslash, 98]
  else if b = 12 then [backslash, 102]
  else if b = 10 then [backslash, 110]
  else if b = 13 then [backslash, 114]
  else if b = 9 then [backslash, 116]
  else if b = dquote then [backslash, dquote]
  else if b = backslash then [backslash, backslash]
  else if b < 32 ∨ b = 60 ∨ b = 62 then
    [backslash, 117, 48, 48, hexDigit (b / 16), hexDigit (b % 16)]
  else [b]

/-- {lit}`_outToken`, without the quotes around the token. -/
def outToken (s : Text) : Text :=
  s.flatMap outByte

/-- The three shapes of an escape: a plain byte, a two-byte escape, and a
four-digit one. -/
def isCode : Text → Bool
  | [c] => c != dquote && c != backslash
  | [s, e] => s == backslash && e != 117
  | [s, u, a, b, c, d] =>
      s == backslash && u == 117 && [a, b, c, d].all fun x => x != dquote && x != backslash
  | _ => false

theorem isCode_outByte (b : UInt8) : isCode (outByte b) = true := by
  have hall : ∀ i : Fin 256, isCode (outByte (UInt8.ofFin i)) = true := by decide +kernel
  have hb := hall b.toFin
  rwa [UInt8.ofFin_toFin] at hb

/-- Value of a hexadecimal digit. -/
def hexValue (d : UInt8) : UInt8 :=
  if d < 58 then d - 48 else d - 87

/-- The byte an escape stands for. -/
def unByte : Text → UInt8
  | [c] => c
  | [_, e] =>
      if e = 98 then 8 else if e = 102 then 12 else if e = 110 then 10
      else if e = 114 then 13 else if e = 116 then 9 else e
  | [_, _, _, _, c, d] => hexValue c * 16 + hexValue d
  | _ => 0

theorem unByte_outByte (b : UInt8) : unByte (outByte b) = b := by
  have hall : ∀ i : Fin 256, unByte (outByte (UInt8.ofFin i)) = UInt8.ofFin i := by
    decide +kernel
  have hb := hall b.toFin
  rwa [UInt8.ofFin_toFin] at hb

/-- Number of bytes of the escape at the start of a text. -/
def codeLength : Text → Nat
  | [] => 0
  | b :: p => if b = backslash then (if p.head? = some 117 then 6 else 2) else 1

/-- An escape is delimited by its own first bytes. -/
theorem codeLength_append {t : Text} (ht : isCode t = true) (p : Text) :
    codeLength (t ++ p) = t.length := by
  unfold isCode at ht
  split at ht
  · rename_i c
    simp only [Bool.and_eq_true, bne_iff_ne] at ht
    simp [codeLength, show ¬c = 92 from ht.2]
  · rename_i s e
    simp only [Bool.and_eq_true, bne_iff_ne, beq_iff_eq] at ht
    simp [codeLength, show s = 92 from ht.1, show ¬e = 117 from ht.2]
  · rename_i s u a b c d
    simp only [Bool.and_eq_true, beq_iff_eq] at ht
    simp [codeLength, show s = 92 from ht.1.1, show u = 117 from ht.1.2]
  · exact absurd ht (by simp)

/-- An escape in front of a body keeps it well formed. -/
theorem wellEscaped_code {t : Text} (ht : isCode t = true) (p : Text) :
    wellEscaped (t ++ p) = wellEscaped p := by
  unfold isCode at ht
  split at ht
  · rename_i c
    simp only [Bool.and_eq_true, bne_iff_ne] at ht
    exact wellEscaped_plain ht.1 ht.2
  · rename_i s e
    simp only [Bool.and_eq_true, bne_iff_ne, beq_iff_eq] at ht
    rw [ht.1]
    rfl
  · rename_i s u a b c d
    simp only [Bool.and_eq_true, beq_iff_eq, List.all_cons, bne_iff_ne, List.all_nil] at ht
    rcases ht with ⟨⟨rfl, rfl⟩, ha, hb, hc, hd, -⟩
    have hskip : wellEscaped ([backslash, 117, a, b, c, d] ++ p) =
        wellEscaped (a :: b :: c :: d :: p) := rfl
    rw [hskip, wellEscaped_plain ha.1 ha.2, wellEscaped_plain hb.1 hb.2,
      wellEscaped_plain hc.1 hc.2, wellEscaped_plain hd.1 hd.2]
  · exact absurd ht (by simp)

theorem outToken_wellEscaped (s : Text) : wellEscaped (outToken s) = true := by
  induction s with
  | nil => rfl
  | cons b s ih =>
      rw [outToken, List.flatMap_cons, wellEscaped_code (isCode_outByte b)]
      exact ih

private theorem outByte_append_inj {b c : UInt8} {p q : Text}
    (h : outByte b ++ p = outByte c ++ q) : b = c ∧ p = q := by
  have hlen : (outByte b).length = (outByte c).length := by
    rw [← codeLength_append (isCode_outByte b) p, h, codeLength_append (isCode_outByte c)]
  rcases List.append_inj h hlen with ⟨hbc, hpq⟩
  refine ⟨?_, hpq⟩
  rw [← unByte_outByte b, hbc, unByte_outByte]

/-- Identifiers with the same printed form are equal. -/
theorem outToken_injective {s t : Text} (h : outToken s = outToken t) : s = t := by
  have hne : ∀ (b : UInt8) (p : Text), outByte b ++ p ≠ [] := by
    intro b p hnil
    have hcode := isCode_outByte b
    rw [(List.append_eq_nil_iff.mp hnil).1] at hcode
    exact absurd hcode (by simp [isCode])
  induction s generalizing t with
  | nil =>
      cases t with
      | nil => rfl
      | cons c t => exact absurd h.symm (hne c _)
  | cons b s ih =>
      cases t with
      | nil => exact absurd h (hne b _)
      | cons c t =>
          rcases outByte_append_inj (show outByte b ++ outToken s = outByte c ++ outToken t from h)
            with ⟨rfl, hst⟩
          rw [ih hst]

/-- Neither a quote, a backslash, a control byte nor an angle bracket. -/
def PrintedAsIs (b : UInt8) : Prop :=
  b ≠ dquote ∧ b ≠ backslash ∧ 32 ≤ b ∧ b ≠ 60 ∧ b ≠ 62

theorem outByte_of_printedAsIs {b : UInt8} (hb : PrintedAsIs b) : outByte b = [b] := by
  rcases hb with ⟨hq, hs, hlow, hlt, hgt⟩
  have hctl : ∀ c : UInt8, c < 32 → b ≠ c := by
    rintro c hc rfl
    exact absurd hlow (by simpa using hc)
  unfold outByte
  rw [if_neg (hctl 8 (by decide)), if_neg (hctl 12 (by decide)), if_neg (hctl 10 (by decide)),
    if_neg (hctl 13 (by decide)), if_neg (hctl 9 (by decide)), if_neg hq, if_neg hs, if_neg]
  rintro (hb | hb | hb)
  · exact absurd hlow (by simpa using hb)
  · exact hlt hb
  · exact hgt hb

/-- Every other byte is printed as an escape. -/
theorem outByte_length {b : UInt8} (hb : ¬PrintedAsIs b) : 2 ≤ (outByte b).length := by
  have hstep : ∀ {c : Prop} [Decidable c] {s t : Text}, 2 ≤ s.length → (¬c → 2 ≤ t.length) →
      2 ≤ (if c then s else t).length := by
    intro c _ s t hs ht
    by_cases hc : c
    · rwa [if_pos hc]
    · rw [if_neg hc]
      exact ht hc
  unfold outByte
  iterate 5 refine hstep (by simp) fun _ => ?_
  refine hstep (by simp) fun hq => hstep (by simp) fun hs => hstep (by simp) fun hrest => ?_
  refine absurd ⟨hq, hs, ?_, fun h => hrest (.inr (.inl h)), fun h => hrest (.inr (.inr h))⟩ hb
  simpa using fun h => hrest (.inl h)

theorem outToken_cons (b : UInt8) (s : Text) : outToken (b :: s) = outByte b ++ outToken s :=
  rfl

theorem outToken_length (s : Text) : s.length ≤ (outToken s).length := by
  induction s with
  | nil => simp
  | cons b s ih =>
      have hb : 1 ≤ (outByte b).length := by
        by_cases hb : PrintedAsIs b
        · simp [outByte_of_printedAsIs hb]
        · exact le_trans (by decide) (outByte_length hb)
      rw [outToken_cons, List.length_append, List.length_cons]
      omega

/-- A string is printed as it is when each of its bytes is. -/
theorem outToken_eq_self_iff (s : Text) : outToken s = s ↔ ∀ b ∈ s, PrintedAsIs b := by
  induction s with
  | nil => simp [outToken]
  | cons b s ih =>
      rw [outToken_cons, List.forall_mem_cons, ← ih]
      by_cases hb : PrintedAsIs b
      · simp [outByte_of_printedAsIs hb, hb]
      · -- an escape is longer than the byte, and nothing in the rest makes up for it
        have hlen : (outByte b ++ outToken s).length ≠ (b :: s).length := by
          have hesc := outByte_length hb
          have hrest := outToken_length s
          rw [List.length_append, List.length_cons]
          omega
        exact iff_of_false (fun h => hlen (congrArg List.length h)) fun h => hb h.1

/-! ## Building JSON -/

/-- The keys of the printed trees that the model builds. -/
inductive PgKey where
  | aConst
  | aExpr
  | aStar
  | boolExpr
  | columnRef
  | deleteNode
  | insertNode
  | listNode
  | rangeVar
  | resTarget
  | selectNode
  | stringNode
  | updateNode
  | args
  | boolop
  | boolval
  | bsval
  | catalogname
  | cols
  | fields
  | fromClause
  | fval
  | isnull
  | items
  | ival
  | kind
  | lexpr
  | location
  | name
  | relation
  | relname
  | rexpr
  | schemaname
  | selectStmt
  | stmt
  | stmts
  | sval
  | valuesLists
  | version
  | whereClause
deriving DecidableEq, Repr

/-- The text of a key. -/
def PgKey.text : PgKey → Text
  | .aConst => ascii "A_Const"
  | .aExpr => ascii "A_Expr"
  | .aStar => ascii "A_Star"
  | .boolExpr => ascii "BoolExpr"
  | .columnRef => ascii "ColumnRef"
  | .deleteNode => ascii "DeleteStmt"
  | .insertNode => ascii "InsertStmt"
  | .listNode => ascii "List"
  | .rangeVar => ascii "RangeVar"
  | .resTarget => ascii "ResTarget"
  | .selectNode => ascii "SelectStmt"
  | .stringNode => ascii "String"
  | .updateNode => ascii "UpdateStmt"
  | .args => ascii "args"
  | .boolop => ascii "boolop"
  | .boolval => ascii "boolval"
  | .bsval => ascii "bsval"
  | .catalogname => ascii "catalogname"
  | .cols => ascii "cols"
  | .fields => ascii "fields"
  | .fromClause => ascii "fromClause"
  | .fval => ascii "fval"
  | .isnull => ascii "isnull"
  | .items => ascii "items"
  | .ival => ascii "ival"
  | .kind => ascii "kind"
  | .lexpr => ascii "lexpr"
  | .location => ascii "location"
  | .name => ascii "name"
  | .relation => ascii "relation"
  | .relname => ascii "relname"
  | .rexpr => ascii "rexpr"
  | .schemaname => ascii "schemaname"
  | .selectStmt => ascii "selectStmt"
  | .stmt => ascii "stmt"
  | .stmts => ascii "stmts"
  | .sval => ascii "sval"
  | .valuesLists => ascii "valuesLists"
  | .version => ascii "version"
  | .whereClause => ascii "whereClause"

/-- All keys. -/
def PgKey.all : List PgKey :=
  [.aConst, .aExpr, .aStar, .boolExpr, .columnRef, .deleteNode, .insertNode, .listNode,
    .rangeVar, .resTarget, .selectNode, .stringNode, .updateNode, .args, .boolop, .boolval,
    .bsval, .catalogname, .cols, .fields, .fromClause, .fval, .isnull, .items, .ival, .kind,
    .lexpr, .location, .name, .relation, .relname, .rexpr, .schemaname, .selectStmt, .stmt,
    .stmts, .sval, .valuesLists, .version, .whereClause]

theorem PgKey.mem_all (k : PgKey) : k ∈ PgKey.all := by
  cases k <;> decide

private theorem PgKey.text_nodup : (PgKey.all.map PgKey.text).Nodup := by
  decide +kernel

@[simp]
theorem PgKey.text_inj {k k' : PgKey} : k.text = k'.text ↔ k = k' :=
  ⟨List.inj_on_of_nodup_map PgKey.text_nodup k.mem_all k'.mem_all, congrArg PgKey.text⟩

theorem PgKey.text_wellEscaped (k : PgKey) : wellEscaped k.text = true := by
  have hall : ∀ k ∈ PgKey.all, wellEscaped k.text = true := by decide +kernel
  exact hall k k.mem_all

theorem PgKey.text_plain (k : PgKey) : PlainKey k.text := by
  have hall : ∀ k ∈ PgKey.all, PlainKey k.text := by decide +kernel
  exact hall k k.mem_all

/-- A key as the printer writes it. -/
def tok (k : PgKey) : KeyTok :=
  KeyTok.compact ⟨k.text, k.text_wellEscaped⟩

@[simp]
theorem tok_text (k : PgKey) : (tok k).body.text = k.text := rfl

/-- Members of an object in order. -/
abbrev Members := List (KeyTok × Json)

/-- An object without white space. -/
def obj (members : Members) : Json := .obj Ws.none members

/-- An array without white space. -/
def arr (elems : List Json) : Json := .arr Ws.none (elems.map fun v => (Pad.compact, v))

/-- A node: an object with the node's type as its only key. -/
def node (name : KeyTok) (members : Members) : Json :=
  obj [(name, obj members)]

/-- A string field. -/
def strVal (s : Text) : Json := .str ⟨outToken s, outToken_wellEscaped s⟩

/-- A number. -/
def intVal (n : Int) : Json :=
  .lit ⟨intNumeral n, intNumeral_ne_nil n, List.all_eq_true.mpr fun _ hb => intNumeral_plain n hb⟩

/-- The literal {lit}`true`. -/
def trueLit : Lit := ⟨ascii "true", by decide +kernel, by decide +kernel⟩

/-- {lit}`WRITE_INT_FIELD`: a zero is left out. -/
def intField (key : KeyTok) (n : Int) : Members :=
  if n = 0 then [] else [(key, intVal n)]

/-- {lit}`WRITE_NODE_PTR_FIELD`: a null pointer is left out. -/
def nodeField (key : KeyTok) : Option Json → Members
  | none => []
  | some v => [(key, v)]

/-! ## Constants -/

/-- The value of an {lit}`A_Const` node.  An {lit}`Integer` node holds a C
{lit}`int`. -/
inductive PgConst where
  | int (n : Int32)
  | float (digits : Text)
  | bool (b : Bool)
  | str (s : Text)
  | bits (s : Text)
  | null
deriving DecidableEq

/-- The node the grammar builds for a signed integer literal: digits that do not
fit a C {lit}`int` become a {lit}`Float`, and a minus sign is folded into it. -/
def PgConst.ofLiteral (n : Int) : PgConst :=
  if n.natAbs < 2 ^ 31 then .int (Int32.ofInt n) else .float (intNumeral n)

/-- {lit}`_outAConst` up to the location. -/
def PgConst.members : PgConst → Members
  | .int n => [(tok .ival, obj (intField (tok .ival) n.toInt))]
  | .float digits => [(tok .fval, obj [(tok .fval, strVal digits)])]
  | .bool b => [(tok .boolval, obj (if b then [(tok .boolval, .lit trueLit)] else []))]
  | .str s => [(tok .sval, obj [(tok .sval, strVal s)])]
  | .bits s => [(tok .bsval, obj [(tok .bsval, strVal s)])]
  | .null => [(tok .isnull, .lit trueLit)]

/-- An {lit}`A_Const` node. -/
def PgConst.toJson (c : PgConst) (location : Int) : Json :=
  node (tok .aConst) (c.members ++ [(tok .location, intVal location)])

/-- The key value that the extractor reads from a constant: only non-zero
integers and strings have one, strings in their printed form. -/
def PgConst.key : PgConst → Option ConstKey
  | .int n => if n = 0 then none else some (.int n.toInt64)
  | .str s => some (.str (some (outToken s)))
  | _ => none

/-! ## Expressions -/

/-- {lit}`A_Expr_Kind`. -/
inductive AExprKind where
  | op
  | opAny
  | opAll
  | distinct
  | notDistinct
  | nullif
  | inList
  | like
  | ilike
  | similar
  | between
  | notBetween
  | betweenSym
  | notBetweenSym
deriving DecidableEq, Repr

/-- {lit}`_enumToStringA_Expr_Kind`. -/
def AExprKind.text : AExprKind → Text
  | .op => ascii "AEXPR_OP"
  | .opAny => ascii "AEXPR_OP_ANY"
  | .opAll => ascii "AEXPR_OP_ALL"
  | .distinct => ascii "AEXPR_DISTINCT"
  | .notDistinct => ascii "AEXPR_NOT_DISTINCT"
  | .nullif => ascii "AEXPR_NULLIF"
  | .inList => ascii "AEXPR_IN"
  | .like => ascii "AEXPR_LIKE"
  | .ilike => ascii "AEXPR_ILIKE"
  | .similar => ascii "AEXPR_SIMILAR"
  | .between => ascii "AEXPR_BETWEEN"
  | .notBetween => ascii "AEXPR_NOT_BETWEEN"
  | .betweenSym => ascii "AEXPR_BETWEEN_SYM"
  | .notBetweenSym => ascii "AEXPR_NOT_BETWEEN_SYM"

/-- {lit}`BoolExprType`. -/
inductive BoolOp where
  | and
  | or
  | not
deriving DecidableEq, Repr

/-- {lit}`_enumToStringBoolExprType`. -/
def BoolOp.text : BoolOp → Text
  | .and => ascii "AND_EXPR"
  | .or => ascii "OR_EXPR"
  | .not => ascii "NOT_EXPR"

/-- A field of a column reference behind the first one. -/
inductive RefField where
  | name (s : Text)
  | star

/-- A {lit}`String` node. -/
def stringNode (s : Text) : Json := node (tok .stringNode) [(tok .sval, strVal s)]

/-- The node of a field. -/
def RefField.toJson : RefField → Json
  | .name s => stringNode s
  | .star => node (tok .aStar) []

/-- A side of a comparison: a column reference, a constant, or any other tree. -/
inductive Operand where
  | column (first : Text) (more : List RefField) (location : Int)
  | const (value : PgConst) (location : Int)
  | other (tree : Json) (notColumn : tree.get? (PgKey.text .columnRef) = none)
      (notConst : tree.get? (PgKey.text .aConst) = none)

/-- The node of an operand. -/
def Operand.toJson : Operand → Json
  | .column first more location =>
      node (tok .columnRef)
        ((tok .fields, arr (stringNode first :: more.map RefField.toJson)) ::
          intField (tok .location) location)
  | .const value location => value.toJson location
  | .other tree _ _ => tree

/-- The key value of the right side of a comparison. -/
def constKey : Option Operand → Option ConstKey
  | some (.const value _) => value.key
  | _ => none

/-- Boolean expressions: comparisons, connectives, and any other tree. -/
inductive PgExpr where
  | aexpr (kind : AExprKind) (op : Text) (moreOps : List Text) (lexpr rexpr : Option Operand)
      (location : Int)
  | bool (op : BoolOp) (args : List PgExpr) (location : Int)
  | other (tree : Json) (notAExpr : tree.get? (PgKey.text .aExpr) = none)
      (notBool : tree.get? (PgKey.text .boolExpr) = none)

/-- {lit}`_outAExpr`. -/
def aExprMembers (kind : AExprKind) (ops : List Text) (lexpr rexpr : Option Operand)
    (location : Int) : Members :=
  (tok .kind, strVal kind.text) :: (tok .name, arr (ops.map stringNode)) ::
    (nodeField (tok .lexpr) (lexpr.map Operand.toJson) ++
      (nodeField (tok .rexpr) (rexpr.map Operand.toJson) ++
        intField (tok .location) location))

mutual

/-- The JSON of an expression. -/
def PgExpr.toJson : PgExpr → Json
  | .aexpr kind op moreOps lexpr rexpr location =>
      node (tok .aExpr) (aExprMembers kind (op :: moreOps) lexpr rexpr location)
  | .bool op args location =>
      node (tok .boolExpr)
        ((tok .boolop, strVal op.text) ::
          (tok .args, .arr Ws.none (PgExpr.argsJson args)) ::
            intField (tok .location) location)
  | .other tree _ _ => tree

/-- The elements of an argument list. -/
def PgExpr.argsJson : List PgExpr → List (Pad × Json)
  | [] => []
  | e :: args => (Pad.compact, e.toJson) :: PgExpr.argsJson args

end

mutual

/-- The leftmost {lit}`column = constant` with a readable constant: its column and
key value.  Connectives are not told apart. -/
def PgExpr.key : PgExpr → Option (Text × ConstKey)
  | .aexpr _ op _ (some (.column first _ _)) rexpr _ =>
      if op = ascii "=" then (constKey rexpr).map (first, ·) else none
  | .aexpr .. => none
  | .bool _ args _ => PgExpr.argsKey args
  | .other .. => none

/-- The key of the first argument that has one. -/
def PgExpr.argsKey : List PgExpr → Option (Text × ConstKey)
  | [] => none
  | e :: args =>
      match e.key with
      | some k => some k
      | none => PgExpr.argsKey args

end

/-! ## Statements -/

/-- A {lit}`RangeVar` node: a table with its qualifiers, and the fields printed
behind the name. -/
structure RangeVar where
  catalogname : Option Text
  schemaname : Option Text
  relname : Text
  trailing : Members
  tight : tightMembers trailing = true

theorem tightMembers_nil : tightMembers [] = true :=
  rfl

/-- {lit}`_outRangeVar`. -/
def RangeVar.members (rv : RangeVar) : Members :=
  nodeField (tok .catalogname) (rv.catalogname.map strVal) ++
    (nodeField (tok .schemaname) (rv.schemaname.map strVal) ++
      (tok .relname, strVal rv.relname) :: rv.trailing)

/-- The statements that are routed by their WHERE clause. -/
inductive WhereKind where
  | select
  | update
  | delete
deriving DecidableEq, Repr

/-- Name of the statement's node. -/
def WhereKind.key : WhereKind → PgKey
  | .select => .selectNode
  | .update => .updateNode
  | .delete => .deleteNode

/-- The statement type the proxy detects. -/
def WhereKind.stmtType : WhereKind → StmtType
  | .select => .select
  | .update => .update
  | .delete => .delete

/-- The member that names the table. -/
def WhereKind.tableMember (table : RangeVar) : WhereKind → KeyTok × Json
  | .select => (tok .fromClause, arr [node (tok .rangeVar) table.members])
  | .update => (tok .relation, obj table.members)
  | .delete => (tok .relation, obj table.members)

/-- Keys the parser looks for in a statement node. -/
def stmtKeys : List PgKey :=
  [.fromClause, .relation, .whereClause, .cols, .selectStmt, .valuesLists]

/-- Members the parser passes over. -/
def Uninspected (ms : Members) : Prop :=
  ∀ m ∈ ms, ∀ k ∈ stmtKeys, m.1.body.text ≠ k.text

theorem uninspected_nil : Uninspected [] :=
  fun _ h => absurd h List.not_mem_nil

/-- A SELECT, UPDATE or DELETE on one table with a WHERE clause, and its other
clauses in the places where the printer puts them. -/
structure WhereStmt where
  kind : WhereKind
  table : RangeVar
  before : Members
  between : Members
  after : Members
  before_uninspected : Uninspected before
  between_uninspected : Uninspected between

/-- The statement node with the given WHERE clause. -/
def WhereStmt.toJson (stmt : WhereStmt) (whereClause : PgExpr) : Json :=
  node (tok stmt.kind.key)
    (stmt.before ++ stmt.kind.tableMember stmt.table ::
      (stmt.between ++ (tok .whereClause, whereClause.toJson) :: stmt.after))

/-- A value in a VALUES row: any tree without white space in empty objects. -/
structure ValueTree where
  json : Json
  tight : json.tight = true

/-- A row of a VALUES clause. -/
def rowJson (row : List ValueTree) : Json :=
  node (tok .listNode) [(tok .items, arr (row.map ValueTree.json))]

theorem indirection_wellEscaped : wellEscaped (ascii "indirection") = true := by
  simp [ascii, wellEscaped]

/-- The key of the subscripts of a column. -/
def indirectionTok : KeyTok :=
  KeyTok.compact ⟨ascii "indirection", indirection_wellEscaped⟩

/-- {lit}`WRITE_LIST_FIELD`: an empty list is left out. -/
def listField (key : KeyTok) (vs : List Json) : Members :=
  if vs.isEmpty then [] else [(key, arr vs)]

/-- A target column with its subscripts and field selections. -/
structure InsertTarget where
  name : Text
  indirection : List ValueTree
  location : Int

/-- {lit}`_outResTarget`. -/
def InsertTarget.toJson (target : InsertTarget) : Json :=
  node (tok .resTarget)
    ((tok .name, strVal target.name) ::
      (listField indirectionTok (target.indirection.map ValueTree.json) ++
        intField (tok .location) target.location))

/-- A target column without subscripts. -/
def resTarget (col : Text × Int) : Json :=
  InsertTarget.toJson ⟨col.1, [], col.2⟩

/-- The tree of an INSERT with an explicit list of target columns and a VALUES clause. -/
structure ValuesInsert where
  table : RangeVar
  targets : List InsertTarget
  rows : List (List ValueTree)
  before : Members
  selectBefore : Members
  selectAfter : Members
  after : Members
  before_uninspected : Uninspected before
  selectBefore_uninspected : Uninspected selectBefore

/-- The members from the VALUES clause on. -/
def ValuesInsert.behindTargets (insert : ValuesInsert) : Members :=
  (tok .selectStmt, node (tok .selectNode)
    (insert.selectBefore ++ (tok .valuesLists, arr (insert.rows.map rowJson)) ::
      insert.selectAfter)) ::
    insert.after

/-- {lit}`_outInsertStmt`. -/
def ValuesInsert.members (insert : ValuesInsert) : Members :=
  insert.before ++ (tok .relation, obj insert.table.members) ::
    (tok .cols, arr (insert.targets.map InsertTarget.toJson)) :: insert.behindTargets

/-- An INSERT with an explicit list of simple columns and a VALUES clause.  Every
row has one value for each column. -/
structure InsertStmt where
  table : RangeVar
  cols : List (Text × Int)
  rows : List (List ValueTree)
  before : Members
  selectBefore : Members
  selectAfter : Members
  after : Members
  rows_ne : rows ≠ []
  rows_length : ∀ row ∈ rows, row.length = cols.length
  before_uninspected : Uninspected before
  selectBefore_uninspected : Uninspected selectBefore

/-- Its tree. -/
def InsertStmt.tree (stmt : InsertStmt) : ValuesInsert where
  table := stmt.table
  targets := stmt.cols.map fun col => ⟨col.1, [], col.2⟩
  rows := stmt.rows
  before := stmt.before
  selectBefore := stmt.selectBefore
  selectAfter := stmt.selectAfter
  after := stmt.after
  before_uninspected := stmt.before_uninspected
  selectBefore_uninspected := stmt.selectBefore_uninspected

/-- The statement node of an INSERT. -/
def InsertStmt.toJson (stmt : InsertStmt) : Json :=
  node (tok .insertNode) stmt.tree.members

/-- An INSERT of one row with an explicit list of target columns. -/
structure RowInsert where
  table : RangeVar
  targets : List InsertTarget
  row : List ValueTree
  before : Members
  selectBefore : Members
  selectAfter : Members
  after : Members
  before_uninspected : Uninspected before
  selectBefore_uninspected : Uninspected selectBefore

/-- Its tree. -/
def RowInsert.tree (insert : RowInsert) : ValuesInsert where
  table := insert.table
  targets := insert.targets
  rows := [insert.row]
  before := insert.before
  selectBefore := insert.selectBefore
  selectAfter := insert.selectAfter
  after := insert.after
  before_uninspected := insert.before_uninspected
  selectBefore_uninspected := insert.selectBefore_uninspected

/-- The body of its node. -/
def RowInsert.body (insert : RowInsert) : Json :=
  obj insert.tree.members

/-- The document for a list of statement nodes, each with its position fields. -/
def document (version : Int) (stmts : List (Json × Members)) : Json :=
  obj [(tok .version, intVal version),
    (tok .stmts, arr (stmts.map fun s => obj ((tok .stmt, s.1) :: s.2)))]

end Sharegres
