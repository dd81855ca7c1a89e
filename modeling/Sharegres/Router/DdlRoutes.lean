import Sharegres.Parser.Positions
import Sharegres.Router.StatementRoutes
import Sharegres.Router.WhereRouting

/-!
# Router - Routes of DDL statements

The table of a DDL statement is the first {lit}`relname` anywhere in its tree.  Most statements
have their table there.  A TRUNCATE has only the first of its tables there, and a DROP, which
names its objects by strings, none.

Main results:

- Definition {lit}`DdlTree`: the trees of DDL statements on tables, and their targets.
- Theorem {lit}`find?_relname`: the name that is found in a tree.
- Theorem {lit}`ddl_reaches_targets_iff`: when a statement goes to all shards of its targets.
- Theorem {lit}`dropped_on_default`: a DROP, and a TRUNCATE of two tables.
-/

namespace Sharegres

open Foundation Foundation.Json

/-! ## Trees -/

/-- The statements with one target, in a member of its own. -/
inductive RelationDdl where
  | create
  | alterTable
  | index
  | view
  | rename
  | createSeq
  | alterSeq
deriving DecidableEq, Repr

/-- The name of the statement's node. -/
def RelationDdl.node : RelationDdl → Text
  | .create => ascii "CreateStmt"
  | .alterTable => ascii "AlterTableStmt"
  | .index => ascii "IndexStmt"
  | .view => ascii "ViewStmt"
  | .rename => ascii "RenameStmt"
  | .createSeq => ascii "CreateSeqStmt"
  | .alterSeq => ascii "AlterSeqStmt"

/-- The member with the target. -/
def RelationDdl.member : RelationDdl → Text
  | .view => ascii "view"
  | .createSeq | .alterSeq => ascii "sequence"
  | _ => ascii "relation"

/-- All of these statements. -/
def RelationDdl.all : List RelationDdl :=
  [.create, .alterTable, .index, .view, .rename, .createSeq, .alterSeq]

theorem RelationDdl.mem_all (kind : RelationDdl) : kind ∈ all := by
  cases kind <;> simp [all]

theorem RelationDdl.member_wellEscaped (kind : RelationDdl) :
    wellEscaped kind.member = true := by
  cases kind <;> simp [member, ascii, wellEscaped]

theorem RelationDdl.member_ne_relname (kind : RelationDdl) :
    kind.member ≠ PgKey.text .relname := by
  cases kind <;> simp [member, PgKey.text, ascii]

/-- No {lit}`relname` in these members. -/
def Unrelated (ms : Members) : Prop :=
  find? (PgKey.text .relname) (obj ms) = none

/-- The trees of DDL statements on tables.  The members in front of the target and the ones of
a statement without a {lit}`RangeVar` hold no {lit}`relname`. -/
inductive DdlTree where
  | relation (kind : RelationDdl) (before : Members) (table : RangeVar) (after : Members)
      (before_unrelated : Unrelated before)
      (after_unrelated : get? (PgKey.text .relname) (obj after) = none)
  | truncate (tables : List RangeVar) (after : Members) (after_unrelated : Unrelated after)
  | drop (objects : List (List Text)) (after : Members) (after_unrelated : Unrelated after)

theorem lists_wellEscaped :
    wellEscaped (ascii "relations") = true ∧ wellEscaped (ascii "objects") = true := by
  simp [ascii, wellEscaped]

/-- A qualified name as a list of strings. -/
def nameList (names : List Text) : Json :=
  node (tok .listNode) [(tok .items, arr (names.map stringNode))]

namespace DdlTree

/-- The name of the statement's node. -/
def name : DdlTree → Text
  | .relation kind .. => kind.node
  | .truncate .. => ascii "TruncateStmt"
  | .drop .. => ascii "DropStmt"

/-- The members of the statement's node. -/
def members : DdlTree → Members
  | .relation kind before table after _ _ =>
      before ++ (KeyTok.compact ⟨kind.member, kind.member_wellEscaped⟩, obj table.members) :: after
  | .truncate tables after _ =>
      (KeyTok.compact ⟨ascii "relations", lists_wellEscaped.1⟩,
        arr (tables.map fun table => Sharegres.node (tok .rangeVar) table.members)) :: after
  | .drop objects after _ =>
      (KeyTok.compact ⟨ascii "objects", lists_wellEscaped.2⟩, arr (objects.map nameList)) :: after

/-- The tables a statement is about. -/
def targets : DdlTree → List Text
  | .relation _ _ table .. => [table.relname]
  | .truncate tables .. => tables.map RangeVar.relname
  | .drop objects .. => objects.filterMap List.getLast?

/-- The table that is found. -/
def found : DdlTree → Option Text
  | .relation _ _ table .. => some table.relname
  | .truncate tables .. => tables.head?.map RangeVar.relname
  | .drop .. => none

end DdlTree

/-! ## The first relname -/

/-- The first members are searched first. -/
theorem findMembers?_append (key : Text) (before ms : Members) :
    findMembers? key (before ++ ms) = (findMembers? key before).or (findMembers? key ms) := by
  induction before with
  | nil => rfl
  | cons m before ih =>
      rcases m with ⟨k, v⟩
      rw [List.cons_append, findMembers?, findMembers?, ih]
      cases find? key v <;> rfl

/-- Members without a {lit}`relname` are passed over. -/
theorem find?_unrelated {before : Members} (h : Unrelated before) (ms : Members) :
    find? (PgKey.text .relname) (obj (before ++ ms)) = find? (PgKey.text .relname) (obj ms) := by
  rw [Unrelated, find?_obj, Option.or_eq_none_iff] at h
  have hget : get? (PgKey.text .relname) (obj (before ++ ms)) =
      get? (PgKey.text .relname) (obj ms) := by
    rcases h with ⟨hnone, -⟩
    rw [obj, get?, Option.map_eq_none_iff] at hnone
    rw [obj, get?, List.find?_append, hnone, Option.none_or]
    rfl
  rw [find?_obj, find?_obj, hget, findMembers?_append, h.2, Option.none_or]

/-- A member with another key is searched before the ones behind it. -/
theorem find?_relname_cons {k : KeyTok} (hkey : k.body.text ≠ PgKey.text .relname) (v : Json)
    {ms : Members} (hms : get? (PgKey.text .relname) (obj ms) = none) :
    find? (PgKey.text .relname) (obj ((k, v) :: ms)) =
      (find? (PgKey.text .relname) v).or (findMembers? (PgKey.text .relname) ms) := by
  have hget : get? (PgKey.text .relname) (obj ((k, v) :: ms)) = none := by
    rw [obj, get?_cons, if_neg hkey]
    exact hms
  rw [find?_obj, hget, Option.none_or, findMembers?]
  cases find? (PgKey.text .relname) v <;> rfl

/-- The name of a relation is found in it. -/
theorem RangeVar.find?_relname (table : RangeVar) :
    find? (PgKey.text .relname) (obj table.members) = some (strVal table.relname) := by
  rw [find?_obj, RangeVar.members, get?_nodeField_append, get?_nodeField_append,
    if_neg (by simp), if_neg (by simp), get?_obj_cons, if_pos rfl, Option.some_or]

/-- Nothing is found in an array without the key. -/
theorem find?_arr_none {key : Text} {vs : List Json} (h : ∀ v ∈ vs, find? key v = none) :
    find? key (arr vs) = none := by
  induction vs with
  | nil => rfl
  | cons v vs ih =>
      rw [find?_arr_cons, h v List.mem_cons_self, Option.none_or]
      exact ih fun u hu => h u (List.mem_cons_of_mem _ hu)

/-- No relation is found in a list of names. -/
theorem find?_nameList (names : List Text) :
    find? (PgKey.text .relname) (nameList names) = none := by
  have hstring : ∀ s, find? (PgKey.text .relname) (stringNode s) = none := by
    intro s
    rw [stringNode, find?_node, if_neg (by simp), find?_obj, get?_obj_cons, if_neg (by simp)]
    rfl
  have hnames : find? (PgKey.text .relname) (arr (names.map stringNode)) = none := by
    refine find?_arr_none fun v hv => ?_
    rcases List.mem_map.mp hv with ⟨s, -, rfl⟩
    exact hstring s
  rw [nameList, find?_node, if_neg (by simp), find?_obj, get?_obj_cons, if_neg (by simp),
    get?_obj_nil, Option.none_or, findMembers?, hnames]
  rfl

/-- The first {lit}`relname` of a statement. -/
theorem DdlTree.find?_relname (tree : DdlTree) :
    find? (PgKey.text .relname) (obj tree.members) = tree.found.map strVal := by
  cases tree with
  | relation kind before table after hbefore hafter =>
      rw [members, find?_unrelated hbefore, find?_relname_cons kind.member_ne_relname _ hafter,
        table.find?_relname, Option.some_or]
      rfl
  | truncate tables after hafter =>
      have hkey : ascii "relations" ≠ PgKey.text .relname := by simp [PgKey.text, ascii]
      rw [Unrelated, find?_obj, Option.or_eq_none_iff] at hafter
      rw [members, find?_relname_cons hkey _ hafter.1, hafter.2, Option.or_none]
      cases tables with
      | nil => rfl
      | cons table tables =>
          rw [List.map_cons, find?_arr_cons, find?_node, if_neg (by simp), table.find?_relname,
            Option.some_or]
          rfl
  | drop objects after hafter =>
      have hkey : ascii "objects" ≠ PgKey.text .relname := by simp [PgKey.text, ascii]
      have hobjects : find? (PgKey.text .relname) (arr (objects.map nameList)) = none := by
        refine find?_arr_none fun v hv => ?_
        rcases List.mem_map.mp hv with ⟨names, -, rfl⟩
        exact find?_nameList names
      rw [Unrelated, find?_obj, Option.or_eq_none_iff] at hafter
      rw [members, find?_relname_cons hkey _ hafter.1, hafter.2, hobjects]
      rfl

/-! ## Routes -/

/-- Every statement of the family is DDL. -/
theorem DdlTree.nodeType_name (tree : DdlTree) : nodeType tree.name = .ddl := by
  have hall : (∀ kind ∈ RelationDdl.all, nodeType kind.node = .ddl) ∧
      nodeType (ascii "TruncateStmt") = .ddl ∧ nodeType (ascii "DropStmt") = .ddl := by
    decide +kernel
  cases tree with
  | relation kind => exact hall.1 kind kind.mem_all
  | truncate => exact hall.2.1
  | drop => exact hall.2.2

theorem DdlTree.name_ne_relname (tree : DdlTree) : tree.name ≠ PgKey.text .relname := by
  cases tree with
  | relation kind => cases kind <;> simp [name, RelationDdl.node, PgKey.text, ascii]
  | truncate => simp [name, PgKey.text, ascii]
  | drop => simp [name, PgKey.text, ascii]

/-- The statement goes to exactly the shards of each of its targets that has a rule. -/
def ReachesTargets (map : ShardMap) (pgQueryParse : Text → Option Text) (sql : Text)
    (tree : DdlTree) : Prop :=
  ∀ table ∈ tree.targets, ∀ rule, shardMapFindRule map table = some rule →
    ∃ decision, routeQuery map pgQueryParse sql = some decision ∧ decision.type = .scatter ∧
      decision.targetShards = rule.shards

/-- The route of a DDL statement. -/
theorem routeQuery_ddl {map : ShardMap} {pgQueryParse : Text → Option Text} {sql : Text}
    {version : Int} {stmt : RawStmt} {more : List RawStmt} {tree : DdlTree}
    (hparse : pgQueryParse sql = some (printed version (stmt :: more)))
    (hname : stmt.name.body.text = tree.name) (hbody : stmt.body = obj tree.members) :
    routeQuery map pgQueryParse sql =
      some ((tree.found.bind fun table => shardMapFindRule map (outToken table)).elim
        { type := .default } RouteDecision.scatterTo) := by
  have htype : stmt.info.stmtType = .ddl := by
    rw [stmt.info_stmtType, hname]
    exact tree.nodeType_name
  have htable : stmt.info.table = tree.found.map outToken := by
    have hrelname : stmt.name.body.text ≠ PgKey.text .relname := by
      rw [hname]
      exact tree.name_ne_relname
    have hfind : find? (PgKey.text .relname) stmt.toJson = tree.found.map strVal := by
      rw [stmt.find?_toJson, if_neg hrelname, hbody, tree.find?_relname]
    rw [RawStmt.info_ddl (by rw [hname, tree.nodeType_name]), hfind]
    cases tree.found <;> rfl
  rw [routeQuery_tree map hparse, RawStmt.route, htype, htable]
  dsimp only
  rw [Option.bind_map]
  cases hfound : tree.found.bind fun table => shardMapFindRule map (outToken table) with
  | none =>
      rw [show (tree.found.bind (shardMapFindRule map ∘ outToken)) = none from hfound]
      rfl
  | some rule =>
      rw [show (tree.found.bind (shardMapFindRule map ∘ outToken)) = some rule from hfound]
      dsimp only
      rw [RawStmt.routeByRule, if_pos (Or.inr htype)]
      rfl

/-- A DDL statement reaches the shards of its targets exactly if the table that is found in it
has a rule under its printed name, with the shards of each of them. -/
theorem ddl_reaches_targets_iff {map : ShardMap} {pgQueryParse : Text → Option Text} {sql : Text}
    {version : Int} {stmt : RawStmt} {more : List RawStmt} {tree : DdlTree}
    (hparse : pgQueryParse sql = some (printed version (stmt :: more)))
    (hname : stmt.name.body.text = tree.name) (hbody : stmt.body = obj tree.members) :
    ReachesTargets map pgQueryParse sql tree ↔
      ∀ table ∈ tree.targets, ∀ rule, shardMapFindRule map table = some rule →
        ∃ first rule', tree.found = some first ∧
          shardMapFindRule map (outToken first) = some rule' ∧ rule'.shards = rule.shards := by
  unfold ReachesTargets
  rw [routeQuery_ddl hparse hname hbody]
  refine forall_congr' fun table => forall_congr' fun htarget => forall_congr' fun rule =>
    forall_congr' fun hrule => ?_
  cases hfound : tree.found.bind fun table => shardMapFindRule map (outToken table) with
  | none =>
      refine iff_of_false ?_ ?_
      · rintro ⟨decision, hdecision, htype, -⟩
        cases hdecision
        cases htype
      · rintro ⟨first, rule', hfirst, hrule', -⟩
        rw [hfirst, Option.bind_some, hrule'] at hfound
        cases hfound
  | some rule' =>
      rcases Option.bind_eq_some_iff.mp hfound with ⟨first, hfirst, hrule'⟩
      constructor
      · rintro ⟨decision, hdecision, -, htargets⟩
        cases hdecision
        exact ⟨first, rule', hfirst, hrule', htargets⟩
      · rintro ⟨first', rule'', hfirst', hrule'', hshards⟩
        rw [hfirst] at hfirst'
        cases hfirst'
        rw [hrule'] at hrule''
        cases hrule''
        exact ⟨_, rfl, rfl, hshards⟩

/-! ## Three statements -/

theorem dropTable_wellEscaped :
    wellEscaped (ascii "removeType") = true ∧ wellEscaped (ascii "behavior") = true := by
  simp [ascii, wellEscaped]

/-- The members behind the objects of a DROP of tables. -/
def dropTable : Members :=
  [(KeyTok.compact ⟨ascii "removeType", dropTable_wellEscaped.1⟩, strVal (ascii "OBJECT_TABLE")),
    (KeyTok.compact ⟨ascii "behavior", dropTable_wellEscaped.2⟩, strVal (ascii "DROP_RESTRICT"))]

theorem dropTable_unrelated : Unrelated dropTable := by
  have hkeys : ascii "removeType" ≠ PgKey.text .relname ∧
      ascii "behavior" ≠ PgKey.text .relname := by
    simp [PgKey.text, ascii]
  have hbehavior : get? (PgKey.text .relname) (obj dropTable.tail) = none := by
    rw [dropTable, List.tail_cons, obj, get?_cons]
    exact if_neg hkeys.2
  exact find?_relname_cons hkeys.1 (strVal (ascii "OBJECT_TABLE")) hbehavior

theorem unrelated_nil : Unrelated [] :=
  rfl

/-- A table by its name alone. -/
def plainTable (table : Text) : RangeVar :=
  ⟨none, none, table, [], tightMembers_nil⟩

/-- {lit}`ALTER TABLE t ...`, without its commands. -/
def alterTree : DdlTree :=
  .relation .alterTable [] (plainTable (ascii "t")) [] unrelated_nil unrelated_nil

/-- {lit}`DROP TABLE t`. -/
def dropTree : DdlTree :=
  .drop [[ascii "t"]] dropTable dropTable_unrelated

/-- {lit}`TRUNCATE u, t`, without its behaviour. -/
def truncateTree : DdlTree :=
  .truncate [plainTable (ascii "u"), plainTable (ascii "t")] [] unrelated_nil

theorem DdlTree.name_wellEscaped (tree : DdlTree) : wellEscaped tree.name = true := by
  cases tree with
  | relation kind => cases kind <;> simp [name, RelationDdl.node, ascii, wellEscaped]
  | truncate => simp [name, ascii, wellEscaped]
  | drop => simp [name, ascii, wellEscaped]

/-- The statement with a tree. -/
def DdlTree.toStmt (tree : DdlTree) (htight : (obj tree.members).tight = true) : RawStmt :=
  ⟨KeyTok.compact ⟨tree.name, tree.name_wellEscaped⟩, obj tree.members, [], htight, unnamed_nil⟩

theorem ddlTrees_tight : (obj alterTree.members).tight = true ∧
    (obj dropTree.members).tight = true ∧ (obj truncateTree.members).tight = true := by
  decide +kernel

/-- {lit}`ALTER TABLE t` goes to both shards. -/
theorem altered_everywhere :
    ReachesTargets ⟨demoShards, [demoRule], 4⟩ (parsesAs (alterTree.toStmt ddlTrees_tight.1))
      (ascii "ALTER TABLE t") alterTree := by
  refine (ddl_reaches_targets_iff (parsesAs_eq _ _) rfl rfl).mpr ?_
  intro table htable rule hrule
  rw [show table = ascii "t" from List.mem_singleton.mp htable] at hrule
  exact ⟨ascii "t", rule, rfl, by rw [demo_printed.1]; exact hrule, rfl⟩

/-- {lit}`DROP TABLE t` and {lit}`TRUNCATE u, t` go to the default backend, although the table
{lit}`t` has two shards. -/
theorem dropped_on_default :
    (ascii "t" ∈ dropTree.targets ∧ ascii "t" ∈ truncateTree.targets ∧
      shardMapFindRule ⟨demoShards, [demoRule], 4⟩ (ascii "t") = some demoRule) ∧
    (routeQuery ⟨demoShards, [demoRule], 4⟩ (parsesAs (dropTree.toStmt ddlTrees_tight.2.1))
        (ascii "DROP TABLE t")).map (fun d => d.type) = some .default ∧
    (routeQuery ⟨demoShards, [demoRule], 4⟩ (parsesAs (truncateTree.toStmt ddlTrees_tight.2.2))
        (ascii "TRUNCATE u, t")).map (fun d => d.type) = some .default := by
  have hfound := demoRule_found
  rw [demo_printed.1] at hfound
  have hnone : shardMapFindRule ⟨demoShards, [demoRule], 4⟩ (outToken (ascii "u")) = none := by
    simp [shardMapFindRule, demoRule, outToken, outByte, ascii]
  refine ⟨⟨List.mem_singleton.mpr rfl, List.mem_cons_of_mem _ (List.mem_singleton.mpr rfl),
    hfound⟩, ?_, ?_⟩
  · rw [routeQuery_ddl (parsesAs_eq _ _) rfl rfl]
    rfl
  · rw [routeQuery_ddl (parsesAs_eq _ _) rfl rfl,
      show truncateTree.found = some (ascii "u") from rfl, Option.bind_some, hnone]
    rfl

end Sharegres
