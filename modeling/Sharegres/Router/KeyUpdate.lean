import Sharegres.Protocol.FeProtocol
import Sharegres.Router.KeySpelling

/-!
# Router - Updates of the shard key

{lit}`UPDATE ... SET c = b WHERE c = a` is routed by the old key.  The backends rewrite the row
where it is, and a statement that reads it back is routed by the new key.

Main results:

- Definition {lit}`KeyUpdate`: an UPDATE that assigns the shard column.
- Definition {lit}`updateRows`: what it does to the rows of the shards it is sent to.
- Theorem {lit}`updated_row_found_iff`: when the row is found under its new key.
- Theorem {lit}`updated_row_lost`: a row whose new key is at home elsewhere.
-/

namespace Sharegres

open Foundation Foundation.Json

variable {rule : TableRule}

/-! ## The statement -/

theorem targetList_wellEscaped : wellEscaped (ascii "targetList") = true := by
  simp [ascii, wellEscaped]

theorem val_wellEscaped : wellEscaped (ascii "val") = true := by
  simp [ascii, wellEscaped]

/-- The key of the assignments of an UPDATE. -/
def targetListTok : KeyTok :=
  KeyTok.compact ⟨ascii "targetList", targetList_wellEscaped⟩

/-- The key of an assigned value. -/
def valTok : KeyTok :=
  KeyTok.compact ⟨ascii "val", val_wellEscaped⟩

/-- The assignment {lit}`c = constant`: a {lit}`ResTarget` node. -/
def assignment (c : Text) (value : PgConst) (location valueLocation : Int) : Json :=
  node (tok .resTarget)
    ((tok .name, strVal c) :: (valTok, value.toJson valueLocation) ::
      intField (tok .location) location)

/-- An UPDATE that gives a column a new number where it has an old one.  It may assign other
columns as well. -/
structure KeyUpdate where
  stmt : WhereStmt
  column : Text
  old : Int32
  new : Int32
  locations : LeafLocations
  others : List Json
  othersAfter : List Json
  setLocation : Int
  valueLocation : Int
  rest : Members
  kind_eq : stmt.kind = .update
  assigns : stmt.between =
    (targetListTok, arr (others ++
      assignment column (.ofLiteral new.toInt) setLocation valueLocation :: othersAfter)) :: rest

/-- The node of the UPDATE. -/
def KeyUpdate.toJson (update : KeyUpdate) : Json :=
  update.stmt.toJson
    (equalTo update.column (.ofLiteral update.old.toInt) update.locations)

/-! ## Rows -/

/-- A row as far as it matters here: the shard it is stored on and its key. -/
abbrev StoredRow := Shard × Int

/-- The shards an UPDATE is sent to rewrite their rows with the old key. -/
def updateRows (targets : List Shard) (old new : Int) (rows : List StoredRow) : List StoredRow :=
  rows.map fun row => if row.1 ∈ targets ∧ row.2 = old then (row.1, new) else row

/-- A row that is updated where it is. -/
theorem getElem?_updateRows {targets : List Shard} {old new : Int} {rows : List StoredRow}
    {i : Nat} {s : Shard} (hrow : rows[i]? = some (s, old)) (hs : s ∈ targets) :
    (updateRows targets old new rows)[i]? = some (s, new) := by
  rw [updateRows, List.getElem?_map, hrow, Option.map_some, if_pos ⟨hs, rfl⟩]

/-- A row that is stored where a statement with the old key looks for it is found by one with
the new key after an UPDATE that is not rejected. -/
def FoundAfterUpdate (map : ShardMap) (pgQueryParse : Text → Option Text)
    (readOld update readNew : Text) (old new : Int) : Prop :=
  ∀ before change after, routeQuery map pgQueryParse readOld = some before →
    routeQuery map pgQueryParse update = some change →
    routeQuery map pgQueryParse readNew = some after →
    (∃ input x, (executeRoute update change input x).2 = true) →
    ∀ (rows : List StoredRow) (i : Nat) s, rows[i]? = some (s, old) → s ∈ before.targetShards →
      ∃ s', (updateRows change.targetShards old new rows)[i]? = some (s', new) ∧
        s' ∈ after.targetShards

/-- A scattered statement is rejected if it has too many targets, and no other one by key
is. -/
theorem routeByKey_accepted {found : Option (Text × ConstKey)} {sql : Text} :
    (∃ input x, (executeRoute sql (routeByKey rule found) input x).2 = true) ↔
      (routeByKey rule found).targetShards.length ≤ maxScatterShards := by
  have hsession : Nonempty Conf := ⟨({ id := 0 }, { pools := fun _ => { maxSize := 0 } })⟩
  rcases hsession with ⟨x⟩
  have hscatter : ∀ input x, (executeRoute sql (.scatterTo rule) input x).2 =
      decide (rule.shards.length ≤ maxScatterShards) := by
    intro input x
    change (executeScatter sql rule.shards input x).2 = _
    unfold executeScatter
    by_cases hsize : maxScatterShards < rule.shards.length
    · rw [if_pos hsize, decide_eq_false (by omega)]
    · rw [if_neg hsize, decide_eq_true (by omega)]
      dsimp only
      split <;> rfl
  have hall : (∃ input x, (executeRoute sql (.scatterTo rule) input x).2 = true) ↔
      (RouteDecision.scatterTo rule).targetShards.length ≤ maxScatterShards := by
    constructor
    · rintro ⟨input, x, h⟩
      rw [hscatter] at h
      exact of_decide_eq_true h
    · intro h
      exact ⟨{}, x, by rw [hscatter]; exact decide_eq_true h⟩
  cases found with
  | none => exact hall
  | some k =>
      rcases k with ⟨column, key⟩
      rw [routeByKey]
      by_cases hcolumn : rule.shardColumn = some (outToken column)
      · rw [if_pos hcolumn]
        cases keyHome rule key with
        | none => exact hall
        | some target => exact iff_of_true ⟨{}, x, rfl⟩ (by change 1 ≤ 64; decide)
      · rw [if_neg hcolumn]
        exact hall

/-! ## Targets of a key -/

/-- The shards that a statement with {lit}`c = n` is sent to. -/
def keyTargets (rule : TableRule) (c : Text) (n : Int) : List Shard :=
  if outToken c = c ∧ readableLiteral n = true then (shardMapFindByInt rule (Int64.ofInt n)).toList
  else rule.shards

/-- Only a rule without shards has no home for a key. -/
theorem shardMapFindByInt_eq_none {key : Int64} :
    shardMapFindByInt rule key = none ↔ rule.shards = [] := by
  constructor
  · intro hnone
    by_contra hne
    have hsome := shardMapFindByInt_isSome hne key
    rw [hnone] at hsome
    cases hsome
  · intro hnil
    rw [shardMapFindByInt, hnil]
    rfl

/-- The targets for a literal. -/
theorem routeByKey_targets {c : Text} (hcol : rule.shardColumn = some c) (n : Int) :
    (routeByKey rule ((PgConst.ofLiteral n).key.map (c, ·))).targetShards =
      keyTargets rule c n := by
  rw [PgConst.ofLiteral_key, keyTargets]
  by_cases hc : outToken c = c
  · rw [routeByKey_column hc hcol]
    by_cases hread : readableLiteral n = true
    · rw [if_pos hread, if_pos ⟨hc, hread⟩, routeInsert, Option.bind_some, keyHome]
      cases hhome : shardMapFindByInt rule (Int64.ofInt n) with
      | some s => rfl
      | none => exact shardMapFindByInt_eq_none.mp hhome
    · rw [if_neg hread, if_neg (fun h => hread h.2)]
      rfl
  · rw [routeByKey_other hc hcol, if_neg (fun h => hc h.1)]
    rfl

/-- The only number of 32 bits besides zero that is not read as a key. -/
theorem readableLiteral_int32 {n : Int32} (h : n ≠ 0) :
    readableLiteral n.toInt = true ↔ n ≠ Int32.minValue := by
  have hzero : n.toInt ≠ 0 := fun heq => h (Int32.toInt_inj.mp heq)
  have hlow : -2 ^ 31 ≤ n.toInt := n.le_toInt
  have hhigh : n.toInt < 2 ^ 31 := n.toInt_lt
  have hmin : n = Int32.minValue ↔ n.toInt = -2 ^ 31 := Int32.toInt_inj.symm
  rw [readableLiteral_iff, Ne, Ne, hmin]
  omega

/-- The targets of a number of 32 bits. -/
theorem keyTargets_int32 {c : Text} (hc : outToken c = c) {n : Int32} (h : n ≠ 0) :
    keyTargets rule c n.toInt =
      if n = Int32.minValue then rule.shards else (shardMapFindByInt rule n.toInt64).toList := by
  have hint : Int64.ofInt n.toInt = n.toInt64 := by
    rw [← Int64.toInt_inj, Int32.toInt_toInt64, Int64.toInt_ofInt_of_le]
    · exact le_trans (by decide) n.le_toInt
    · exact lt_trans n.toInt_lt (by decide)
  unfold keyTargets
  rw [hint]
  by_cases hmin : n = Int32.minValue
  · rw [if_neg (fun hread => (readableLiteral_int32 h).mp hread.2 hmin), if_pos hmin]
  · rw [if_pos ⟨hc, (readableLiteral_int32 h).mpr hmin⟩, if_neg hmin]

/-- A row is found under its new key exactly if the shard column is not printed under its own
name, so that both statements go to all shards, or each shard of the old key is one of the new
key. -/
theorem updated_row_found_iff {map : ShardMap}
    {pgQueryParse : Text → Option Text} {readOldSql updateSql readNewSql : Text}
    {version version' version'' : Int} (update : KeyUpdate) {readOld readNew : WhereStmt}
    {trailing trailing' trailing'' : Members} {locations locations' : LeafLocations}
    (hreadOld : pgQueryParse readOldSql = some (render (document version
      [(readOld.toJson (equalTo update.column (.ofLiteral update.old.toInt) locations),
        trailing)])))
    (hupdate : pgQueryParse updateSql = some (render (document version'
      [(update.toJson, trailing')])))
    (hreadNew : pgQueryParse readNewSql = some (render (document version''
      [(readNew.toJson (equalTo update.column (.ofLiteral update.new.toInt) locations'),
        trailing'')])))
    (holdTable : readOld.table.relname = update.stmt.table.relname)
    (hnewTable : readNew.table.relname = update.stmt.table.relname)
    (hrule : shardMapFindRule map (outToken update.stmt.table.relname) = some rule)
    (hbroadcast : rule.broadcast = false) (hcol : rule.shardColumn = some update.column)
    (hold : update.old ≠ 0) (hnew : update.new ≠ 0) :
    FoundAfterUpdate map pgQueryParse readOldSql updateSql readNewSql update.old.toInt
        update.new.toInt ↔
      outToken update.column ≠ update.column ∨ update.new = Int32.minValue ∨
      (if update.old = Int32.minValue then
        rule.shards.length ≤ maxScatterShards →
          ∀ s ∈ rule.shards, shardMapFindByInt rule update.new.toInt64 = some s
      else shardMapFindByInt rule update.old.toInt64 =
        shardMapFindByInt rule update.new.toInt64) := by
  have hroutes : FoundAfterUpdate map pgQueryParse readOldSql updateSql readNewSql
      update.old.toInt update.new.toInt ↔
      ((keyTargets rule update.column update.old.toInt).length ≤ maxScatterShards →
        ∀ s ∈ keyTargets rule update.column update.old.toInt,
          s ∈ keyTargets rule update.column update.new.toInt) := by
    unfold FoundAfterUpdate
    rw [routeQuery_where hreadOld (by rw [holdTable]; exact hrule) hbroadcast,
      routeQuery_where hupdate hrule hbroadcast,
      routeQuery_where hreadNew (by rw [hnewTable]; exact hrule) hbroadcast, equalTo_key,
      equalTo_key, equalTo_key]
    constructor
    · intro h hsize s hs
      rcases h _ _ _ rfl rfl rfl
        (routeByKey_accepted.mpr (by rw [routeByKey_targets hcol]; exact hsize))
        [(s, update.old.toInt)] 0 s rfl (by rw [routeByKey_targets hcol]; exact hs) with
        ⟨s', hrow, hs'⟩
      rw [routeByKey_targets hcol] at hrow hs'
      rw [getElem?_updateRows rfl hs] at hrow
      cases hrow
      exact hs'
    · rintro h before change after hbefore hchange hafter haccepted rows i s hrow hs
      cases hbefore
      cases hchange
      cases hafter
      have hsize := routeByKey_accepted.mp haccepted
      rw [routeByKey_targets hcol] at hs hsize
      rw [routeByKey_targets hcol, routeByKey_targets hcol]
      exact ⟨s, getElem?_updateRows hrow hs, h hsize s hs⟩
  rw [hroutes]
  by_cases hc : outToken update.column = update.column
  · rw [keyTargets_int32 hc hold, keyTargets_int32 hc hnew, or_iff_right (not_not.mpr hc)]
    by_cases hnewMin : update.new = Int32.minValue
    · rw [if_pos hnewMin]
      refine iff_of_true (fun _ s hs => ?_) (Or.inl hnewMin)
      by_cases holdMin : update.old = Int32.minValue
      · rwa [if_pos holdMin] at hs
      · rw [if_neg holdMin] at hs
        exact shardMapFindByInt_mem (Option.mem_toList.mp hs)
    · rw [if_neg hnewMin, or_iff_right hnewMin]
      by_cases holdMin : update.old = Int32.minValue
      · rw [if_pos holdMin, if_pos holdMin]
        simp only [Option.mem_toList]
      · rw [if_neg holdMin, if_neg holdMin]
        simp only [Option.mem_toList]
        constructor
        · intro h
          cases hhome : shardMapFindByInt rule update.old.toInt64 with
          | some s =>
              have hsize : (some s).toList.length ≤ maxScatterShards := by
                change 1 ≤ 64
                decide
              rw [hhome] at h
              exact (h hsize s rfl).symm
          | none =>
              have hnil := shardMapFindByInt_eq_none.mp hhome
              exact (shardMapFindByInt_eq_none.mpr hnil).symm
        · intro heq _ s hs
          rwa [← heq]
  · rw [keyTargets, keyTargets, if_neg (fun h => hc h.1), if_neg (fun h => hc h.1)]
    exact iff_of_true (fun _ s hs => hs) (Or.inl hc)

/-- The assignments of {lit}`SET id = n`. -/
def setId (n : Int32) : Members :=
  [(targetListTok, arr ([] ++ assignment (ascii "id") (.ofLiteral n.toInt) 13 18 :: []))]

theorem setId_uninspected (n : Int32) : Uninspected (setId n) := by
  intro m hm k hk
  rw [setId, List.mem_singleton] at hm
  rw [hm]
  have hall : ∀ k ∈ stmtKeys, targetListTok.body.text ≠ k.text := by decide +kernel
  exact hall k hk

/-- {lit}`UPDATE t SET id = new WHERE id = 5`. -/
def demoUpdate (new : Int32) : KeyUpdate where
  stmt :=
    { kind := .update
      table := ⟨none, none, ascii "t", [], tightMembers_nil⟩
      before := []
      between := setId new
      after := []
      before_uninspected := uninspected_nil
      between_uninspected := setId_uninspected new }
  column := ascii "id"
  old := 5
  new := new
  locations := ⟨29, 26, 31⟩
  others := []
  othersAfter := []
  setLocation := 13
  valueLocation := 18
  rest := []
  kind_eq := rfl
  assigns := rfl

/-- A SELECT from the table {lit}`t`, without its output columns. -/
def plainSelect : WhereStmt :=
  { plainDelete (ascii "t") with kind := .select }

/-- The tree of {lit}`SELECT FROM t WHERE id = n`. -/
def selectOf (n : Int32) : Json :=
  document 170000
    [(plainSelect.toJson (equalTo (ascii "id") (.ofLiteral n.toInt) ⟨22, 19, 24⟩), [])]

/-- A parser that knows the UPDATE and the statement with the old key by their texts, and takes
everything else for the one with the new key. -/
def parsesUpdate (new : Int32) (text : Text) : Option Text :=
  if text = ascii "update" then
    some (render (document 170000 [((demoUpdate new).toJson, [])]))
  else parsesOr (ascii "old") (selectOf 5) (selectOf new) text

theorem parsesUpdate_texts (new : Int32) :
    parsesUpdate new (ascii "old") = some (render (selectOf 5)) ∧
      parsesUpdate new (ascii "update") =
        some (render (document 170000 [((demoUpdate new).toJson, [])])) ∧
      parsesUpdate new (ascii "new") = some (render (selectOf new)) := by
  unfold parsesUpdate parsesOr
  refine ⟨?_, if_pos rfl, ?_⟩
  · rw [if_neg (by simp [ascii]), if_pos rfl]
  · rw [if_neg (by simp [ascii]), if_neg (by simp [ascii])]

/-- A row whose key is changed from 5 to 7 is found again. -/
theorem updated_row_found :
    FoundAfterUpdate ⟨demoShards, [demoRule], 4⟩ (parsesUpdate 7) (ascii "old") (ascii "update")
      (ascii "new") 5 7 := by
  rcases parsesUpdate_texts 7 with ⟨hold, hupdate, hnew⟩
  refine (updated_row_found_iff (demoUpdate 7) hold hupdate hnew rfl rfl demoRule_found rfl rfl
    (by decide) (by decide)).mpr (Or.inr (Or.inr ?_))
  decide +kernel

/-- A row whose key is changed from 5 to 12 by an UPDATE that is not rejected stays on the first
shard, and a statement with the new key goes to the second one. -/
theorem updated_row_lost :
    (∃ before change after,
      routeQuery ⟨demoShards, [demoRule], 4⟩ (parsesUpdate 12) (ascii "old") = some before ∧
      routeQuery ⟨demoShards, [demoRule], 4⟩ (parsesUpdate 12) (ascii "update") = some change ∧
      routeQuery ⟨demoShards, [demoRule], 4⟩ (parsesUpdate 12) (ascii "new") = some after ∧
      (∃ input x, (executeRoute (ascii "update") change input x).2 = true) ∧
      ∃ s ∈ before.targetShards, updateRows change.targetShards 5 12 [(s, 5)] = [(s, 12)] ∧
        s ∉ after.targetShards) ∧
    ¬ FoundAfterUpdate ⟨demoShards, [demoRule], 4⟩ (parsesUpdate 12) (ascii "old")
      (ascii "update") (ascii "new") 5 12 := by
  rcases parsesUpdate_texts 12 with ⟨hold, hupdate, hnew⟩
  have hbefore := routeQuery_where hold demoRule_found rfl
  have hchange := routeQuery_where hupdate demoRule_found rfl
  have hafter := routeQuery_where hnew demoRule_found rfl
  rw [equalTo_key] at hbefore hchange hafter
  have haccepts := (@routeByKey_accepted demoRule ((PgConst.ofLiteral 5).key.map (ascii "id", ·))
    (ascii "update")).mpr (by decide +kernel)
  have hlost : ∃ s ∈ (routeByKey demoRule
        ((PgConst.ofLiteral 5).key.map (ascii "id", ·))).targetShards,
      updateRows (routeByKey demoRule
        ((PgConst.ofLiteral 5).key.map (ascii "id", ·))).targetShards 5 12 [(s, 5)] = [(s, 12)] ∧
      s ∉ (routeByKey demoRule
        ((PgConst.ofLiteral 12).key.map (ascii "id", ·))).targetShards :=
    ⟨⟨0, ascii "shard_0", ascii "host=a", 0, 10⟩, by decide +kernel⟩
  refine ⟨⟨_, _, _, hbefore, hchange, hafter, haccepts, hlost⟩, fun h => ?_⟩
  rcases hlost with ⟨s, hs, hrow, hnot⟩
  rcases h _ _ _ hbefore hchange hafter haccepts [(s, 5)] 0 s rfl hs with ⟨s', hrow', hs'⟩
  cases (congrArg (·[0]?) hrow).symm.trans hrow'
  exact hnot hs'

end Sharegres
