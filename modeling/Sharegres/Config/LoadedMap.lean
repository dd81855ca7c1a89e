import Mathlib.Data.Option.Basic
import Sharegres.Config.ConfigLoad

/-!
# Config - The shard map of a file

The shard map that {lit}`config_load` builds, field by field, in terms of the assignments
that are read from the file and taken by the tables: the first ones, up to the one that
creates the 64th entry.

Main results:

- Definition {lit}`lastValue`: the value that was assigned last.
- Definition {lit}`loadedMap`: the shard map of a file.
- Theorem {lit}`configLoad_map`: every file is loaded with this map.
- Theorems {lit}`mem_loadedMap_shards` and {lit}`loadedMap_rules_eq`: its shards and rules.
-/

namespace Sharegres

open Foundation

/-- The value that was assigned last to a key of a shard or a table. -/
def lastValue (us : List (Text × Text × Text)) (name key : Text) : Option Text :=
  Registry.last (fun setting => if setting.1 = key then some setting.2 else none) us name

/-- A value that was assigned last was assigned. -/
theorem lastValue_mem {us : List (Text × Text × Text)} {name key val : Text}
    (h : lastValue us name key = some val) : (name, key, val) ∈ us := by
  have hmem := List.mem_of_getLast? h
  rcases List.mem_filterMap.mp hmem with ⟨⟨name', key', val'⟩, hu, hval⟩
  rcases List.mem_filter.mp hu with ⟨hu, hname⟩
  have hname' : name' = name := of_decide_eq_true hname
  dsimp only at hval
  by_cases hkey : key' = key
  · rw [if_pos hkey, Option.some.injEq] at hval
    rwa [← hname', ← hkey, ← hval]
  · rw [if_neg hkey] at hval
    cases hval

/-! ## The meaning of values -/

/-- The end of a key range. -/
def rangeValue (val : Option Text) : UInt64 :=
  (val.map strtoull).getD 0

/-- A shard column, if it is not empty. -/
def columnValue (val : Option Text) : Option Text :=
  val.filter fun v => decide (v ≠ [])

/-- A sharding method. -/
def methodValue (val : Option Text) : ShardMethod :=
  if val = some (ascii "hash") then .hash else .range

/-- A broadcast flag. -/
def broadcastValue (val : Option Text) : Bool :=
  decide (val = some (ascii "true"))

/-- The existing shards that a list names, as often as it names them. -/
def namedShards (shards : List Shard) (list : Text) : List Shard :=
  (strtok list).filterMap fun tok => findShard shards (trim tok)

/-- The shards of a rule: those of its list, or all of them for a broadcast rule without
one. -/
def ruleShards (shards : List Shard) (list : Option Text) (broadcast : Bool) : List Shard :=
  match columnValue list with
  | some list => namedShards shards list
  | none => if broadcast then shards else []

/-! ## Fields of the tables -/

/-- The fields of a shard after a setting. -/
theorem Shard.set_fields (s : Shard) (setting : Text × Text) :
    (s.set setting).index = s.index ∧
    (s.set setting).conninfo =
      ((if setting.1 = ascii "conninfo" then some setting.2 else none).map some).getD
        s.conninfo ∧
    (s.set setting).keyRangeStart =
      ((if setting.1 = ascii "key_range_start" then some setting.2 else none).map strtoull).getD
        s.keyRangeStart ∧
    (s.set setting).keyRangeEnd =
      ((if setting.1 = ascii "key_range_end" then some setting.2 else none).map strtoull).getD
        s.keyRangeEnd := by
  have hkeys : [ascii "conninfo", ascii "key_range_start", ascii "key_range_end"].Nodup := by
    simp [ascii]
  unfold Shard.set
  generalize ascii "conninfo" = conninfo, ascii "key_range_start" = start,
    ascii "key_range_end" = stop at *
  simp only [List.nodup_cons, List.mem_cons, List.not_mem_nil, not_or] at hkeys
  split_ifs <;> simp_all

/-- The fields of a rule after a setting. -/
theorem TmpTableRule.set_fields (r : TmpTableRule) (setting : Text × Text) :
    (r.set setting).shardColumn =
      ((if setting.1 = ascii "shard_column" then some setting.2 else none).map
        (List.take 127)).getD r.shardColumn ∧
    (r.set setting).method =
      ((if setting.1 = ascii "method" then some setting.2 else none).map
        (List.take 15)).getD r.method ∧
    (r.set setting).shardList =
      ((if setting.1 = ascii "shards" then some setting.2 else none).map
        (List.take 1023)).getD r.shardList ∧
    (r.set setting).broadcast =
      ((if setting.1 = ascii "broadcast" then some setting.2 else none).map
        (fun v => decide (v = ascii "true"))).getD r.broadcast := by
  have hkeys : [ascii "shard_column", ascii "method", ascii "shards",
      ascii "broadcast"].Nodup := by simp [ascii]
  unfold TmpTableRule.set
  generalize ascii "shard_column" = column, ascii "method" = method, ascii "shards" = shards,
    ascii "broadcast" = broadcast at *
  simp only [List.nodup_cons, List.mem_cons, List.not_mem_nil, not_or] at hkeys
  split_ifs <;> simp_all

section Entries

variable (i : Nat) (name : Text) (us : List (Text × Text × Text))

/-- A field of an entry that the settings with one key give. -/
theorem entry_value {α γ : Type} (R : Registry Text (Text × Text) α) (get : α → γ) (key : Text)
    (f : Text → γ)
    (hset : ∀ a setting, get (R.assign a setting) =
      ((if setting.1 = key then some setting.2 else none).map f).getD (get a)) :
    get (R.entry i name us) = ((lastValue us name key).map f).getD (get (R.blank i name)) := by
  rw [R.entry_field get hset, Registry.last_map]
  rfl

/-- A shard after a series of assignments. -/
theorem shardTable_entry :
    shardTable.entry i name us =
      ⟨i, name, lastValue us name (ascii "conninfo"),
        rangeValue (lastValue us name (ascii "key_range_start")),
        rangeValue (lastValue us name (ascii "key_range_end"))⟩ := by
  have hindex : (shardTable.entry i name us).index = i := by
    have hfold : ∀ (vs : List (Text × Text × Text)) (s : Shard),
        (vs.foldl (fun a u => shardTable.assign a u.2) s).index = s.index := by
      intro vs
      induction vs with
      | nil => exact fun _ => rfl
      | cons v vs ih => exact fun s => (ih _).trans (s.set_fields v.2).1
    exact hfold _ _
  have hname : (shardTable.entry i name us).name = name := shardTable.name_entry i name us
  have hconninfo := entry_value i name us shardTable Shard.conninfo (ascii "conninfo") some
    fun s b => (s.set_fields b).2.1
  have hstart := entry_value i name us shardTable Shard.keyRangeStart (ascii "key_range_start")
    strtoull fun s b => (s.set_fields b).2.2.1
  have hend := entry_value i name us shardTable Shard.keyRangeEnd (ascii "key_range_end")
    strtoull fun s b => (s.set_fields b).2.2.2
  have hnull : ((lastValue us name (ascii "conninfo")).map some).getD none =
      lastValue us name (ascii "conninfo") := by
    cases lastValue us name (ascii "conninfo") <;> rfl
  refine Shard.ext hindex hname (hconninfo.trans hnull) hstart hend

/-- The table and the values of a rule after a series of assignments. -/
theorem ruleTable_entry :
    ruleTable.entry i name us =
      { tableName := name
        shardColumn := ((lastValue us name (ascii "shard_column")).map (List.take 127)).getD []
        method := ((lastValue us name (ascii "method")).map (List.take 15)).getD []
        shardList := ((lastValue us name (ascii "shards")).map (List.take 1023)).getD []
        broadcast := broadcastValue (lastValue us name (ascii "broadcast")) } := by
  have hname : (ruleTable.entry i name us).tableName = name := ruleTable.name_entry i name us
  have hcolumn := entry_value i name us ruleTable TmpTableRule.shardColumn
    (ascii "shard_column") (List.take 127) fun r b => (r.set_fields b).1
  have hmethod := entry_value i name us ruleTable TmpTableRule.method (ascii "method")
    (List.take 15) fun r b => (r.set_fields b).2.1
  have hlist := entry_value i name us ruleTable TmpTableRule.shardList (ascii "shards")
    (List.take 1023) fun r b => (r.set_fields b).2.2.1
  have hbroadcast := entry_value i name us ruleTable TmpTableRule.broadcast (ascii "broadcast")
    (fun v => decide (v = ascii "true")) fun r b => (r.set_fields b).2.2.2
  have hflag : ((lastValue us name (ascii "broadcast")).map
      (fun v => decide (v = ascii "true"))).getD false =
      broadcastValue (lastValue us name (ascii "broadcast")) := by
    unfold broadcastValue
    cases lastValue us name (ascii "broadcast") <;> simp
  exact TmpTableRule.ext hname hcolumn hmethod hlist (hbroadcast.trans hflag)

end Entries

/-! ## Rules -/

/-- The loop over a list stops when it found as many shards as there are. -/
theorem listShards_eq (shards : List Shard) (room : Nat) (toks : List Text) :
    listShards shards room toks =
      (toks.filterMap fun tok => findShard shards (trim tok)).take room := by
  induction toks generalizing room with
  | nil => cases room <;> rfl
  | cons tok toks ih =>
      cases room with
      | zero => rfl
      | succ room =>
          rw [listShards, List.filterMap_cons]
          cases findShard shards (trim tok) with
          | none => exact ih (room + 1)
          | some s => exact congrArg (s :: ·) (ih room)

/-- The shards of a rule are cut off at the number of shards. -/
theorem buildRule_shards (shards : List Shard) (list : Option Text) (r : TmpTableRule)
    (hlist : r.shardList = list.getD []) :
    (buildRule shards r).shards = (ruleShards shards list r.broadcast).take shards.length := by
  have hunlisted : (if r.broadcast ∧ 0 < shards.length then shards else []) =
      (if r.broadcast then shards else []).take shards.length := by
    cases shards <;> cases r.broadcast <;> simp
  rw [buildRule, hlist]
  dsimp only
  cases list with
  | none => exact hunlisted
  | some list =>
      by_cases hnil : list = []
      · rw [hnil]
        exact hunlisted
      · have hcolumn : columnValue (some list) = some list := by simp [columnValue, hnil]
        rw [ruleShards, hcolumn, Option.getD_some]
        dsimp only
        by_cases hshards : 0 < shards.length
        · rw [if_pos ⟨hnil, hshards⟩, listShards_eq]
          rfl
        · rw [if_neg (fun h => hshards h.2), if_neg (fun h => hshards h.2)]
          have hzero : shards.length = 0 := by omega
          rw [hzero]
          rfl

/-- A rule, from the values that were assigned to its table. -/
theorem buildRule_entry (shards : List Shard) (i : Nat) (name : Text)
    (us : List (Text × Text × Text)) :
    buildRule shards (ruleTable.entry i name us) =
      { tableName := name
        shardColumn := columnValue ((lastValue us name (ascii "shard_column")).map (List.take 127))
        method := methodValue ((lastValue us name (ascii "method")).map (List.take 15))
        broadcast := broadcastValue (lastValue us name (ascii "broadcast"))
        shards := (ruleShards shards ((lastValue us name (ascii "shards")).map (List.take 1023))
          (broadcastValue (lastValue us name (ascii "broadcast")))).take shards.length } := by
  rw [ruleTable_entry]
  refine TableRule.ext rfl ?_ ?_ rfl (buildRule_shards _ _ _ rfl)
  · unfold buildRule columnValue
    cases (lastValue us name (ascii "shard_column")).map (List.take 127) with
    | none => rfl
    | some column => by_cases h : column = [] <;> simp [h, Option.filter]
  · unfold buildRule methodValue
    have hhash : [] ≠ ascii "hash" := by simp [ascii]
    cases (lastValue us name (ascii "method")).map (List.take 15) with
    | none => simp [hhash]
    | some method => simp

/-! ## The map -/

/-- The assignments to shards that are taken from a file. -/
def takenShards (file : Text) : List (Text × Text × Text) :=
  Registry.taken maxShards (shardSettings file)

/-- The assignments to tables that are taken from a file. -/
def takenTables (file : Text) : List (Text × Text × Text) :=
  Registry.taken maxTables (tableSettings file)

/-- The shard map of a file. -/
def loadedMap (file : Text) : ShardMap :=
  buildMap ((readSettings file).foldl LoadState.apply {})

/-- Every file that can be opened gives a configuration with its map. -/
theorem configLoad_map (file : Text) :
    ∃ cfg, configLoad (some file) = some cfg ∧ cfg.shardMap = loadedMap file :=
  ⟨_, rfl, rfl⟩

theorem loadedMap_shards (file : Text) :
    (loadedMap file).shards =
      shardTable.entries 0 (Registry.names (takenShards file)) (takenShards file) :=
  (foldl_apply (readSettings file) {}).1.trans
    (shardTable.fillWithin_eq maxShards (shardSettings file))

theorem loadedMap_rules (file : Text) :
    (loadedMap file).tableRules =
      (ruleTable.entries 0 (Registry.names (takenTables file)) (takenTables file)).map
        (buildRule (loadedMap file).shards) :=
  congrArg (List.map (buildRule (loadedMap file).shards))
    ((foldl_apply (readSettings file) {}).2.trans
      (ruleTable.fillWithin_eq maxTables (tableSettings file)))

/-- The shard of a name, from the values that were taken. -/
def takenShard (file : Text) (i : Nat) (name : Text) : Shard where
  index := i
  name := name
  conninfo := lastValue (takenShards file) name (ascii "conninfo")
  keyRangeStart := rangeValue (lastValue (takenShards file) name (ascii "key_range_start"))
  keyRangeEnd := rangeValue (lastValue (takenShards file) name (ascii "key_range_end"))

/-- The rule of a table, from the values that were taken. -/
def takenRule (file : Text) (name : Text) : TableRule where
  tableName := name
  shardColumn := columnValue
    ((lastValue (takenTables file) name (ascii "shard_column")).map (List.take 127))
  method := methodValue ((lastValue (takenTables file) name (ascii "method")).map (List.take 15))
  broadcast := broadcastValue (lastValue (takenTables file) name (ascii "broadcast"))
  shards := (ruleShards (loadedMap file).shards
    (lastValue (takenTables file) name (ascii "shards"))
    (broadcastValue (lastValue (takenTables file) name (ascii "broadcast")))).take
      (loadedMap file).shards.length

/-- The shards of a map stand in the order of their names. -/
theorem getElem?_loadedMap_shards (file : Text) (i : Nat) :
    (loadedMap file).shards[i]? =
      (Registry.names (takenShards file))[i]?.map (takenShard file i) := by
  rw [loadedMap_shards, Registry.getElem?_entries]
  refine congrArg (fun f => Option.map f _) (funext fun name => ?_)
  rw [shardTable_entry, Nat.zero_add]
  rfl

/-- The shards of a map. -/
theorem mem_loadedMap_shards {file : Text} {s : Shard} :
    s ∈ (loadedMap file).shards ↔
      ∃ i name, (Registry.names (takenShards file))[i]? = some name ∧
        s = takenShard file i name := by
  rw [List.mem_iff_getElem?]
  refine exists_congr fun i => ?_
  rw [getElem?_loadedMap_shards, Option.map_eq_some_iff]
  simp only [eq_comm (a := s)]

/-- A value that fits its field is not cut off. -/
theorem map_take_lastValue {us : List (Text × Text × Text)} {name key : Text} {room : Nat}
    (h : ∀ u ∈ us, u.2.1 = key → u.2.2.length ≤ room) :
    (lastValue us name key).map (List.take room) = lastValue us name key := by
  cases hval : lastValue us name key with
  | none => rfl
  | some val =>
      rw [Option.map_some, List.take_of_length_le (h _ (lastValue_mem hval) rfl)]

theorem mem_of_mem_taken {limit : Nat} {us : List (Text × Text × Text)} {u : Text × Text × Text}
    (h : u ∈ Registry.taken limit us) : u ∈ us :=
  (Registry.takenFrom_isPrefix limit [] us).subset h

/-- The rules of a map. -/
theorem loadedMap_rules_eq (file : Text) :
    (loadedMap file).tableRules = (Registry.names (takenTables file)).map (takenRule file) := by
  refine List.ext_getElem? fun i => ?_
  rw [loadedMap_rules, List.getElem?_map, Registry.getElem?_entries, List.getElem?_map,
    Option.map_map]
  refine congrArg (fun f => Option.map f _) (funext fun name => ?_)
  have hlist : (lastValue (takenTables file) name (ascii "shards")).map (List.take 1023) =
      lastValue (takenTables file) name (ascii "shards") :=
    map_take_lastValue fun u hu _ => assignments_length (mem_of_mem_taken hu)
  refine (buildRule_entry _ _ _ _).trans ?_
  rw [hlist]
  rfl

theorem loadedMap_shards_names (file : Text) :
    (loadedMap file).shards.map Shard.name = Registry.names (takenShards file) := by
  rw [loadedMap_shards]
  exact shardTable.map_name_entries 0 _ _

/-- The shards have different names. -/
theorem loadedMap_names_nodup (file : Text) :
    ((loadedMap file).shards.map Shard.name).Nodup := by
  rw [loadedMap_shards_names]
  exact Registry.nodup_names _

/-- The names in a list that are names of shards. -/
def knownNames (file list : Text) : List Text :=
  ((strtok list).map trim).filter (Registry.names (takenShards file)).contains

/-- The names of the shards that a list names. -/
theorem map_name_namedShards (file list : Text) :
    (namedShards (loadedMap file).shards list).map Shard.name = knownNames file list := by
  have hfind : ∀ name : Text, (findShard (loadedMap file).shards name).map Shard.name =
      if name ∈ Registry.names (takenShards file) then some name else none := by
    intro name
    rw [← loadedMap_shards_names]
    cases hfound : findShard (loadedMap file).shards name with
    | none =>
        have hnone := List.find?_eq_none.mp hfound
        rw [if_neg, Option.map_none]
        intro hmem
        rcases List.mem_map.mp hmem with ⟨s, hs, hname⟩
        exact hnone s hs (decide_eq_true hname)
    | some s =>
        have htest := List.find?_some hfound
        have hname : s.name = name := of_decide_eq_true htest
        rw [if_pos (List.mem_map.mpr ⟨s, List.mem_of_find?_eq_some hfound, hname⟩),
          Option.map_some, hname]
  rw [namedShards, List.map_filterMap, knownNames, ← List.filterMap_eq_filter,
    List.filterMap_map]
  refine congrArg (List.filterMap · (strtok list)) (funext fun tok => ?_)
  rw [hfind]
  simp [Option.guard]

/-- There are no more than 64 shards. -/
theorem loadedMap_shards_length (file : Text) : (loadedMap file).shards.length ≤ maxShards := by
  rw [← List.length_map (f := Shard.name), loadedMap_shards_names]
  exact Registry.length_names_taken maxShards (shardSettings file)

theorem namedShards_mem {shards : List Shard} {list : Text} {s : Shard}
    (h : s ∈ namedShards shards list) : s ∈ shards := by
  rcases List.mem_filterMap.mp h with ⟨tok, -, htok⟩
  exact List.mem_of_find?_eq_some htok

theorem ruleShards_mem {shards : List Shard} {list : Option Text} {broadcast : Bool} {s : Shard}
    (h : s ∈ ruleShards shards list broadcast) : s ∈ shards := by
  unfold ruleShards at h
  split at h
  · exact namedShards_mem h
  · split at h
    · exact h
    · cases h

/-- The shards of a rule are shards of the map, and not more of them. -/
theorem loadedMap_rule_shards {file : Text} {rule : TableRule}
    (h : rule ∈ (loadedMap file).tableRules) :
    (∀ s ∈ rule.shards, s ∈ (loadedMap file).shards) ∧
      rule.shards.length ≤ (loadedMap file).shards.length := by
  rw [loadedMap_rules_eq, List.mem_map] at h
  rcases h with ⟨name, -, rfl⟩
  refine ⟨fun s hs => ruleShards_mem (List.mem_of_mem_take hs), ?_⟩
  exact List.length_take_le _ _

/-- Two shards and a table that is sharded by hash. -/
def hashedFile : Text :=
  ascii "[shard:a]\nconninfo = x\n[shard:b]\nconninfo = y\n" ++
    ascii "[table:t]\nshard_column = id\nmethod = hash\nshards = a, b\n"

end Sharegres
