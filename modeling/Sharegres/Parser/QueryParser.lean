import Sharegres.Parser.JsonUtil

/-!
# Parser - Statement classification and shard keys

Model of {lit}`src/parser/query_parser.c`.  The functions work on the text of the
parse tree that {lit}`pg_query_parse` returns; that library call is a parameter,
with {lean}`none` for a syntax error.  Functions that call the recursive search
return an outer {lean}`none` when the search does not terminate.

Main results:

- Definition {lit}`extractShardKeyFromWhere`: the search for {lit}`column = constant`.
- Definition {lit}`extractShardKeyFromInsert`: the key of the first row of an INSERT.
- Definitions {lit}`parseQuery` and {lit}`parseExtractInsertShardKey`: the two
  passes over a statement.
-/

namespace Sharegres

open Foundation

/-- {lit}`StmtType`. -/
inductive StmtType where
  | select
  | insert
  | update
  | delete
  | ddl
  | transaction
  | set
  | show
  | discard
  | copy
  | unknown
deriving DecidableEq, Repr

/-- {lit}`ParseResult`, with the values {lit}`memset` leaves as defaults. -/
structure ParseResult where
  stmtType : StmtType := .unknown
  tableName : Option Text := none
  schemaName : Option Text := none
  shardKeyFound : Bool := false
  shardKeyColumn : Option Text := none
  shardKeyInt : Int64 := 0
  shardKeyStr : Option Text := none
  shardKeyIsInt : Bool := false
  parseTreeJson : Option Text := none
deriving DecidableEq

/-! ## Statement type -/

/-- The node names that make a statement DDL. -/
def ddlNodes : List Text :=
  [ascii "CreateStmt", ascii "AlterTableStmt", ascii "DropStmt", ascii "IndexStmt",
    ascii "CreateSchemaStmt", ascii "ViewStmt", ascii "CreateFunctionStmt",
    ascii "TruncateStmt", ascii "RenameStmt", ascii "CreateSeqStmt", ascii "AlterSeqStmt"]

/-- {lit}`detect_stmt_type`. -/
def detectStmtType (stmtJson : Text) : StmtType :=
  if jsonStartsWithKey stmtJson (ascii "SelectStmt") then .select
  else if jsonStartsWithKey stmtJson (ascii "InsertStmt") then .insert
  else if jsonStartsWithKey stmtJson (ascii "UpdateStmt") then .update
  else if jsonStartsWithKey stmtJson (ascii "DeleteStmt") then .delete
  else if jsonStartsWithKey stmtJson (ascii "TransactionStmt") then .transaction
  else if jsonStartsWithKey stmtJson (ascii "VariableSetStmt") then .set
  else if jsonStartsWithKey stmtJson (ascii "VariableShowStmt") then .show
  else if jsonStartsWithKey stmtJson (ascii "DiscardStmt") then .discard
  else if jsonStartsWithKey stmtJson (ascii "CopyStmt") then .copy
  else if ddlNodes.any (jsonStartsWithKey stmtJson) then .ddl
  else .unknown

/-- {lit}`extract_table_from_rangevar`. -/
def extractTableFromRangevar (rvJson : Text) (result : ParseResult) : ParseResult :=
  let result :=
    match jsonFindKey rvJson (ascii "relname") with
    | some relname => { result with tableName := jsonGetString relname }
    | none => result
  match jsonFindKey rvJson (ascii "schemaname") with
  | some schemaname => { result with schemaName := jsonGetString schemaname }
  | none => result

/-! ## Constants -/

/-- The key value read from an {lit}`A_Const` node. -/
inductive ConstKey where
  | int (value : Int64)
  | str (value : Option Text)
deriving DecidableEq

/-- Read {lit}`ival.ival`, or else {lit}`sval.sval`, of an {lit}`A_Const` node. -/
def readConst (aconst : Text) : Option ConstKey :=
  match (jsonFindKey aconst (ascii "ival")).bind (jsonFindKey · (ascii "ival")) with
  | some ival => some (.int (jsonGetInt ival))
  | none =>
      match (jsonFindKey aconst (ascii "sval")).bind (jsonFindKey · (ascii "sval")) with
      | some sv => some (.str (jsonGetString sv))
      | none => none

/-- Record a key value as found. -/
def ParseResult.setKey (result : ParseResult) : ConstKey → ParseResult
  | .int value => { result with
      shardKeyInt := value, shardKeyIsInt := true, shardKeyFound := true }
  | .str value => { result with
      shardKeyStr := value, shardKeyIsInt := false, shardKeyFound := true }

/-! ## Keys in a WHERE clause -/

/-- The column side of an equality: the first {lit}`String` among the fields of a
{lit}`ColumnRef`.  A column recorded earlier stays if there is no string. -/
def extractColumn (fields : Text) (result : ParseResult) : Option ParseResult :=
  match jsonFindKeyRecursive (ascii "String") (searchFuel fields) fields with
  | none => none
  | some none => some result
  | some (some strNode) =>
      match jsonFindKey strNode (ascii "sval") with
      | some sv => some { result with shardKeyColumn := jsonGetString sv }
      | none => some result

/-- The constant side of an equality. -/
def extractConst (aexpr : Text) (result : ParseResult) : ParseResult :=
  match (jsonFindKey aexpr (ascii "rexpr")).bind (jsonFindKey · (ascii "A_Const")) with
  | none => result
  | some aconst =>
      match readConst aconst with
      | some key => result.setKey key
      | none => result

/-- The part of {lit}`extract_shard_key_from_where` that handles an
{lit}`A_Expr` node. -/
def extractShardKeyFromAExpr (aexpr : Text) (result : ParseResult) : Option ParseResult :=
  match jsonFindKey aexpr (ascii "name") with
  | none => some result
  | some nameArr =>
      match jsonFindKeyRecursive (ascii "sval") (searchFuel nameArr) nameArr with
      | none => none
      | some none => some result
      | some (some sval) =>
          if jsonGetString sval = some (ascii "=") then
            match (jsonFindKey aexpr (ascii "lexpr")).bind (jsonFindKey · (ascii "ColumnRef")) with
            | none => some result
            | some colref =>
                match jsonFindKey colref (ascii "fields") with
                | none => some result
                | some fields =>
                    match extractColumn fields result with
                    | none => none
                    | some result =>
                        if result.shardKeyColumn.isNone then some result
                        else some (extractConst aexpr result)
          else some result

mutual

/-- {lit}`extract_shard_key_from_where`.  The {lit}`boolop` of a
{lit}`BoolExpr` is not looked at. -/
def extractShardKeyFromWhere : Nat → Text → ParseResult → Option ParseResult
  | 0, _, _ => none
  | fuel + 1, whereJson, result =>
      match jsonFindKey whereJson (ascii "A_Expr") with
      | some aexpr => extractShardKeyFromAExpr aexpr result
      | none =>
          match (jsonFindKey whereJson (ascii "BoolExpr")).bind (jsonFindKey · (ascii "args")) with
          | some (b :: p) =>
              if b = lbracket then extractShardKeyFromArgs fuel p result else some result
          | _ => some result

/-- The loop over the arguments of a {lit}`BoolExpr`; the first one with a key
ends it. -/
def extractShardKeyFromArgs : Nat → Text → ParseResult → Option ParseResult
  | 0, _, _ => none
  | fuel + 1, p, result =>
      match p with
      | [] => some result
      | b :: _ =>
          if b = rbracket then some result
          else
            match jsonSkipWhitespace p with
            | [] => some result
            | c :: q =>
                if c = rbracket then some result
                else
                  match extractShardKeyFromWhere fuel (c :: q) result with
                  | none => none
                  | some result =>
                      if result.shardKeyFound then some result
                      else extractShardKeyFromArgs fuel (skipItem (c :: q)) result

end

/-! ## Keys in an INSERT -/

/-- Skip {lit}`n` elements of an array, stopping at its end. -/
def skipElems : Nat → Text → Text
  | 0, p => p
  | n + 1, p =>
      match p with
      | [] => []
      | b :: q => if b = rbracket then b :: q else skipElems n (skipItem (jsonSkipWhitespace p))

/-- Read the key at position {lit}`targetPos` of a row. -/
def extractRowKey (shardColumn : Text) (targetPos : Nat) (items : Text) (result : ParseResult) :
    Option ParseResult :=
  match jsonSkipWhitespace (skipElems targetPos items) with
  | [] => some result
  | b :: p =>
      if b = rbracket then some result
      else
        match jsonFindKeyRecursive (ascii "A_Const") (searchFuel (b :: p)) (b :: p) with
        | none => none
        | some none => some result
        | some (some aconst) =>
            match readConst aconst with
            | some key => some { result.setKey key with shardKeyColumn := some shardColumn }
            | none => some result

/-- Position of the shard column in the list of target names. -/
def targetPosition (cols shardColumn : Text) : Option Nat :=
  (jsonFindAllValues cols (ascii "name")).findIdx? fun name =>
    decide (jsonGetString name = some shardColumn)

/-- {lit}`extract_shard_key_from_insert`. -/
def extractShardKeyFromInsert (insertJson : Text) (result : ParseResult) (shardColumn : Text) :
    Option ParseResult :=
  match jsonFindKey insertJson (ascii "cols") with
  | some (b :: cols) =>
      if b = lbracket then
        match targetPosition (b :: cols) shardColumn with
        | none => some result
        | some targetPos =>
            match ((jsonFindKey insertJson (ascii "selectStmt")).bind
                (jsonFindKey · (ascii "SelectStmt"))).bind
                (jsonFindKey · (ascii "valuesLists")) with
            | none => some result
            | some valuesLists =>
                match jsonFindKeyRecursive (ascii "items") (searchFuel valuesLists)
                    valuesLists with
                | none => none
                | some (some (c :: items)) =>
                    if c = lbracket then extractRowKey shardColumn targetPos items result
                    else some result
                | some _ => some result
      else some result
  | _ => some result

/-! ## Whole statements -/

/-- The WHERE clause of a statement node, if it has one. -/
def extractWhereClause (node : Text) (result : ParseResult) : Option ParseResult :=
  match jsonFindKey node (ascii "whereClause") with
  | some whereJson => extractShardKeyFromWhere (searchFuel whereJson) whereJson result
  | none => some result

/-- The table of a SELECT: the first {lit}`RangeVar` of its FROM clause. -/
def extractFromClause (ss : Text) (result : ParseResult) : Option ParseResult :=
  match jsonFindKey ss (ascii "fromClause") with
  | none => some result
  | some fromJson =>
      match jsonFindKeyRecursive (ascii "RangeVar") (searchFuel fromJson) fromJson with
      | none => none
      | some (some rv) => some (extractTableFromRangevar rv result)
      | some none =>
          match jsonFindKeyRecursive (ascii "relname") (searchFuel fromJson) fromJson with
          | none => none
          | some (some rv) => some { result with tableName := jsonGetString rv }
          | some none => some result

/-- The table of an INSERT, UPDATE or DELETE. -/
def extractRelation (node : Text) (result : ParseResult) : ParseResult :=
  match jsonFindKey node (ascii "relation") with
  | some rel => extractTableFromRangevar rel result
  | none => result

/-- The {lit}`switch` of {lit}`parse_query` on the statement type. -/
def extractStatement (stmtObj : Text) (result : ParseResult) : Option ParseResult :=
  match result.stmtType with
  | .select =>
      match jsonFindKey stmtObj (ascii "SelectStmt") with
      | none => some result
      | some ss =>
          match extractFromClause ss result with
          | none => none
          | some result => extractWhereClause ss result
  | .insert =>
      match jsonFindKey stmtObj (ascii "InsertStmt") with
      | none => some result
      | some is => some (extractRelation is result)
  | .update =>
      match jsonFindKey stmtObj (ascii "UpdateStmt") with
      | none => some result
      | some us => extractWhereClause us (extractRelation us result)
  | .delete =>
      match jsonFindKey stmtObj (ascii "DeleteStmt") with
      | none => some result
      | some ds => extractWhereClause ds (extractRelation ds result)
  | .ddl =>
      match jsonFindKeyRecursive (ascii "relname") (searchFuel stmtObj) stmtObj with
      | none => none
      | some (some rv) => some { result with tableName := jsonGetString rv }
      | some none => some result
  | _ => some result

/-- {lit}`parse_query`: the return code and the filled in result. -/
def parseQuery (pgQueryParse : Text → Option Text) (sql : Text) : Option (Int × ParseResult) :=
  match pgQueryParse sql with
  | none => some (-1, {})
  | some parseTree =>
      let result : ParseResult := { parseTreeJson := some parseTree }
      match jsonFindKey parseTree (ascii "stmts") with
      | some (b :: p) =>
          if b = lbracket then
            match jsonSkipWhitespace p with
            | [] => some (-1, result)
            | c :: q =>
                if c = rbracket then some (0, result)
                else
                  match jsonFindKey (c :: q) (ascii "stmt") with
                  | none => some (-1, result)
                  | some stmtObj =>
                      (extractStatement stmtObj
                        { result with stmtType := detectStmtType stmtObj }).map ((0, ·))
          else some (-1, result)
      | _ => some (-1, result)

/-- {lit}`parse_extract_insert_shard_key`: the second pass over an INSERT, once the
shard column is known. -/
def parseExtractInsertShardKey (result : ParseResult) (shardColumn : Option Text) :
    Option ParseResult :=
  match result.parseTreeJson, shardColumn with
  | some parseTree, some shardColumn =>
      if result.stmtType = .insert then
        match jsonFindKey parseTree (ascii "stmts") with
        | none => some result
        | some stmts =>
            match (jsonFindKey (jsonSkipWhitespace (stmts.drop 1)) (ascii "stmt")).bind
                (jsonFindKey · (ascii "InsertStmt")) with
            | none => some result
            | some is => extractShardKeyFromInsert is result shardColumn
      else some result
  | _, _ => some result

end Sharegres
