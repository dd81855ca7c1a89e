import Sharegres.Config.LoadedMap

/-!
# Config - Is a configuration loaded completely

Whether the shard map of a file has the values that the file assigns.  Once a table has 64
entries, the loop skips every setting for it, also those of entries that exist; and the list
of a rule is cut off at the number of shards.  What is skipped does no harm as long as it
would change nothing.

Main results:

- Definition {lit}`LoadedCompletely`: every shard and every rule has the values that were
  assigned to it last.
- Theorem {lit}`config_complete_iff`: when a file is loaded completely.
- Theorem {lit}`lateIgnored_of_lt`: files with fewer than 64 shards and tables.
- Theorem {lit}`last_shard_incomplete`: a file with 64 shards.
-/

namespace Sharegres

open Foundation

/-! ## Files and their values -/

/-- The assignments to shards that stand in a file. -/
def writtenShards (file : Text) : List (Text × Text × Text) :=
  assignments (ascii "shard") (writtenSettings file)

/-- The assignments to tables that stand in a file. -/
def writtenTables (file : Text) : List (Text × Text × Text) :=
  assignments (ascii "table") (writtenSettings file)

/-- Lines fit the buffer, names and values fit their fields, and shards and tables fit the
tables. -/
structure ConfigFits (file : Text) : Prop where
  lines : ∀ line ∈ fileLines file, line.length ≤ lineRoom
  names : ∀ line ∈ fileLines file, (parseConfigLine line).Fits
  columns : ∀ u ∈ writtenTables file, u.2.1 = ascii "shard_column" → u.2.2.length ≤ 127
  methods : ∀ u ∈ writtenTables file, u.2.1 = ascii "method" → u.2.2.length ≤ 15
  shards : (Registry.names (writtenShards file)).length ≤ maxShards
  tables : (Registry.names (writtenTables file)).length ≤ maxTables

/-- A shard has the values that were assigned to it last. -/
structure ShardComplete (file : Text) (s : Shard) : Prop where
  conninfo : s.conninfo = lastValue (writtenShards file) s.name (ascii "conninfo")
  keyRangeStart : s.keyRangeStart =
    rangeValue (lastValue (writtenShards file) s.name (ascii "key_range_start"))
  keyRangeEnd : s.keyRangeEnd =
    rangeValue (lastValue (writtenShards file) s.name (ascii "key_range_end"))

/-- A rule has the values that were assigned to its table last. -/
structure RuleComplete (file : Text) (shards : List Shard) (r : TableRule) : Prop where
  shardColumn : r.shardColumn =
    columnValue (lastValue (writtenTables file) r.tableName (ascii "shard_column"))
  method : r.method = methodValue (lastValue (writtenTables file) r.tableName (ascii "method"))
  broadcast : r.broadcast =
    broadcastValue (lastValue (writtenTables file) r.tableName (ascii "broadcast"))
  list : r.shards = ruleShards shards
    (lastValue (writtenTables file) r.tableName (ascii "shards")) r.broadcast

/-- The map has the shards and the tables of the file, with the values that were assigned to
them last. -/
structure LoadedCompletely (file : Text) (map : ShardMap) : Prop where
  shardNames : map.shards.map Shard.name = Registry.names (writtenShards file)
  shards : ∀ s ∈ map.shards, ShardComplete file s
  ruleNames : map.tableRules.map TableRule.tableName = Registry.names (writtenTables file)
  rules : ∀ r ∈ map.tableRules, RuleComplete file map.shards r

/-- The names in a list that have a section, or all sections for a broadcast table without a
list. -/
def listedNames (file : Text) (list : Option Text) (broadcast : Bool) : List Text :=
  match columnValue list with
  | some list => knownNames file list
  | none => if broadcast then Registry.names (takenShards file) else []

/-- What is assigned to a full table changes nothing, and no list has more names than there are
sections. -/
structure LateIgnored (file : Text) : Prop where
  conninfo : ∀ name ∈ Registry.names (writtenShards file),
    lastValue (takenShards file) name (ascii "conninfo") =
      lastValue (writtenShards file) name (ascii "conninfo")
  keyRangeStart : ∀ name ∈ Registry.names (writtenShards file),
    rangeValue (lastValue (takenShards file) name (ascii "key_range_start")) =
      rangeValue (lastValue (writtenShards file) name (ascii "key_range_start"))
  keyRangeEnd : ∀ name ∈ Registry.names (writtenShards file),
    rangeValue (lastValue (takenShards file) name (ascii "key_range_end")) =
      rangeValue (lastValue (writtenShards file) name (ascii "key_range_end"))
  shardColumn : ∀ name ∈ Registry.names (writtenTables file),
    columnValue (lastValue (takenTables file) name (ascii "shard_column")) =
      columnValue (lastValue (writtenTables file) name (ascii "shard_column"))
  method : ∀ name ∈ Registry.names (writtenTables file),
    methodValue (lastValue (takenTables file) name (ascii "method")) =
      methodValue (lastValue (writtenTables file) name (ascii "method"))
  broadcast : ∀ name ∈ Registry.names (writtenTables file),
    broadcastValue (lastValue (takenTables file) name (ascii "broadcast")) =
      broadcastValue (lastValue (writtenTables file) name (ascii "broadcast"))
  list : ∀ name ∈ Registry.names (writtenTables file),
    (listedNames file (lastValue (takenTables file) name (ascii "shards"))
      (broadcastValue (lastValue (takenTables file) name (ascii "broadcast")))).take
        (Registry.names (writtenShards file)).length =
      listedNames file (lastValue (writtenTables file) name (ascii "shards"))
        (broadcastValue (lastValue (takenTables file) name (ascii "broadcast")))

/-! ## Lists of shards -/

/-- Shards with different names are known by their names. -/
theorem map_name_inj {shards l l' : List Shard} (hnodup : (shards.map Shard.name).Nodup)
    (hl : ∀ s ∈ l, s ∈ shards) (hl' : ∀ s ∈ l', s ∈ shards) :
    l.map Shard.name = l'.map Shard.name ↔ l = l' := by
  refine ⟨fun h => ?_, congrArg _⟩
  induction l generalizing l' with
  | nil => exact (List.map_eq_nil_iff.mp h.symm).symm
  | cons s l ih =>
      cases l' with
      | nil => cases h
      | cons s' l' =>
          rw [List.map_cons, List.map_cons, List.cons.injEq] at h
          rw [List.forall_mem_cons] at hl hl'
          rw [List.inj_on_of_nodup_map hnodup hl.1 hl'.1 h.1, ih hl.2 hl'.2 h.2]

/-- The names of the shards of a rule. -/
theorem map_name_ruleShards (file : Text) (list : Option Text) (broadcast : Bool) :
    (ruleShards (loadedMap file).shards list broadcast).map Shard.name =
      listedNames file list broadcast := by
  unfold ruleShards listedNames
  cases columnValue list with
  | some list => exact map_name_namedShards file list
  | none =>
      cases broadcast with
      | true => exact loadedMap_shards_names file
      | false => rfl

/-! ## Settings of a file that fits -/

namespace ConfigFits

variable {file : Text} (hfits : ConfigFits file)

include hfits

theorem takenShards_eq : takenShards file = Registry.taken maxShards (writtenShards file) := by
  rw [takenShards, shardSettings, readSettings_eq hfits.lines hfits.names, writtenShards]

theorem takenTables_eq : takenTables file = Registry.taken maxTables (writtenTables file) := by
  rw [takenTables, tableSettings, readSettings_eq hfits.lines hfits.names, writtenTables]

/-- No name of a shard is lost. -/
theorem names_takenShards :
    Registry.names (takenShards file) = Registry.names (writtenShards file) := by
  rw [hfits.takenShards_eq, Registry.names_taken hfits.shards]

theorem names_takenTables :
    Registry.names (takenTables file) = Registry.names (writtenTables file) := by
  rw [hfits.takenTables_eq, Registry.names_taken hfits.tables]

theorem mem_writtenTables {u : Text × Text × Text} (hu : u ∈ takenTables file) :
    u ∈ writtenTables file := by
  rw [hfits.takenTables_eq] at hu
  exact mem_of_mem_taken hu

/-- The columns and methods of the rules are not cut off. -/
theorem takenRule_eq (name : Text) :
    (takenRule file name).shardColumn =
        columnValue (lastValue (takenTables file) name (ascii "shard_column")) ∧
      (takenRule file name).method =
        methodValue (lastValue (takenTables file) name (ascii "method")) := by
  unfold takenRule
  dsimp only
  rw [map_take_lastValue fun u hu => hfits.columns u (hfits.mem_writtenTables hu),
    map_take_lastValue fun u hu => hfits.methods u (hfits.mem_writtenTables hu)]
  exact ⟨rfl, rfl⟩

/-- A rule has its list exactly if the names of the list are kept. -/
theorem list_complete_iff (taken written : Option Text) (broadcast : Bool) :
    (ruleShards (loadedMap file).shards taken broadcast).take (loadedMap file).shards.length =
        ruleShards (loadedMap file).shards written broadcast ↔
      (listedNames file taken broadcast).take (Registry.names (writtenShards file)).length =
        listedNames file written broadcast := by
  rw [← hfits.names_takenShards, ← loadedMap_shards_names, List.length_map, ← map_name_ruleShards,
    ← map_name_ruleShards, ← List.map_take, map_name_inj (loadedMap_names_nodup file)]
  · exact fun s hs => ruleShards_mem (List.mem_of_mem_take hs)
  · exact fun s hs => ruleShards_mem hs

/-- Every shard is complete if what comes late is ignored, and conversely. -/
theorem shards_complete_iff :
    (∀ s ∈ (loadedMap file).shards, ShardComplete file s) ↔
      ∀ name ∈ Registry.names (writtenShards file),
        ShardComplete file (takenShard file 0 name) := by
  rw [← hfits.names_takenShards]
  constructor
  · intro h name hname
    rcases List.mem_iff_getElem?.mp hname with ⟨i, hi⟩
    have hshard := h _ (mem_loadedMap_shards.mpr ⟨i, name, hi, rfl⟩)
    exact ⟨hshard.conninfo, hshard.keyRangeStart, hshard.keyRangeEnd⟩
  · intro h s hs
    rcases mem_loadedMap_shards.mp hs with ⟨i, name, hi, rfl⟩
    have hshard := h name (List.mem_of_getElem? hi)
    exact ⟨hshard.conninfo, hshard.keyRangeStart, hshard.keyRangeEnd⟩

/-- The rules are complete if every name is. -/
theorem rules_complete_iff :
    (∀ r ∈ (loadedMap file).tableRules, RuleComplete file (loadedMap file).shards r) ↔
      ∀ name ∈ Registry.names (writtenTables file),
        RuleComplete file (loadedMap file).shards (takenRule file name) := by
  rw [← hfits.names_takenTables, loadedMap_rules_eq]
  simp only [List.mem_map, forall_exists_index, and_imp, forall_apply_eq_imp_iff₂]

end ConfigFits

/-- With fewer than 64 shards and tables nothing comes late. -/
theorem lateIgnored_of_lt {file : Text} (hfits : ConfigFits file)
    (hshards : (Registry.names (writtenShards file)).length < maxShards)
    (htables : (Registry.names (writtenTables file)).length < maxTables)
    (hlists : ∀ name ∈ Registry.names (writtenTables file),
      (listedNames file (lastValue (writtenTables file) name (ascii "shards"))
        (broadcastValue (lastValue (writtenTables file) name (ascii "broadcast")))).length ≤
          (Registry.names (writtenShards file)).length) : LateIgnored file := by
  have hs : takenShards file = writtenShards file := by
    rw [hfits.takenShards_eq, Registry.taken_eq_self hshards]
  have ht : takenTables file = writtenTables file := by
    rw [hfits.takenTables_eq, Registry.taken_eq_self htables]
  constructor
  case list =>
      intro name hname
      rw [ht, List.take_of_length_le (hlists name hname)]
  all_goals
    intro name _
    simp only [hs, ht]

/-- A file that fits is loaded completely exactly if what is assigned to a full table changes
nothing and no list is cut off. -/
theorem config_complete_iff {file : Text} (hfits : ConfigFits file) :
    ∃ cfg, configLoad (some file) = some cfg ∧
      (LoadedCompletely file cfg.shardMap ↔ LateIgnored file) := by
  rcases configLoad_map file with ⟨cfg, hload, hmap⟩
  refine ⟨cfg, hload, ?_⟩
  rw [hmap]
  constructor
  · intro h
    have hshards := hfits.shards_complete_iff.mp h.shards
    have hrules := hfits.rules_complete_iff.mp h.rules
    exact
      { conninfo := fun name hname => (hshards name hname).conninfo
        keyRangeStart := fun name hname => (hshards name hname).keyRangeStart
        keyRangeEnd := fun name hname => (hshards name hname).keyRangeEnd
        shardColumn := fun name hname =>
          (hfits.takenRule_eq name).1.symm.trans (hrules name hname).shardColumn
        method := fun name hname =>
          (hfits.takenRule_eq name).2.symm.trans (hrules name hname).method
        broadcast := fun name hname => (hrules name hname).broadcast
        list := fun name hname => (hfits.list_complete_iff _ _ _).mp (hrules name hname).list }
  · intro h
    refine ⟨?_, ?_, ?_, ?_⟩
    · rw [loadedMap_shards_names, hfits.names_takenShards]
    · refine hfits.shards_complete_iff.mpr fun name hname => ?_
      exact ⟨h.conninfo name hname, h.keyRangeStart name hname, h.keyRangeEnd name hname⟩
    · rw [loadedMap_rules_eq, List.map_map, ← hfits.names_takenTables]
      exact List.map_id' _
    · refine hfits.rules_complete_iff.mpr fun name hname => ?_
      exact ⟨(hfits.takenRule_eq name).1.trans (h.shardColumn name hname),
        (hfits.takenRule_eq name).2.trans (h.method name hname), h.broadcast name hname,
        (hfits.list_complete_iff _ _ _).mpr (h.list name hname)⟩

/-- A file with two shards and one table is loaded completely. -/
theorem two_shards_complete :
    ∃ cfg, configLoad (some hashedFile) = some cfg ∧
      LoadedCompletely hashedFile cfg.shardMap := by
  have hfile : (∀ line ∈ fileLines hashedFile,
        line.length ≤ lineRoom ∧ (parseConfigLine line).Fits) ∧
      (∀ u ∈ writtenTables hashedFile, u.2.2.length ≤ 15) ∧
      (Registry.names (writtenShards hashedFile)).length < maxShards ∧
      (Registry.names (writtenTables hashedFile)).length < maxTables ∧
      ∀ name ∈ Registry.names (writtenTables hashedFile),
        (listedNames hashedFile (lastValue (writtenTables hashedFile) name (ascii "shards"))
          (broadcastValue (lastValue (writtenTables hashedFile) name (ascii "broadcast")))).length ≤
            (Registry.names (writtenShards hashedFile)).length := by
    decide +kernel
  rcases hfile with ⟨hlines, hvalues, hshards, htables, hlists⟩
  have hfits : ConfigFits hashedFile :=
    { lines := fun l hl => (hlines l hl).1
      names := fun l hl => (hlines l hl).2
      columns := fun u hu _ => (hvalues u hu).trans (by decide)
      methods := fun u hu _ => hvalues u hu
      shards := hshards.le
      tables := htables.le }
  rcases config_complete_iff hfits with ⟨cfg, hload, hcomplete⟩
  exact ⟨cfg, hload, hcomplete.mpr (lateIgnored_of_lt hfits hshards htables hlists)⟩

/-- A file with 64 shards, the last of which has a key range. -/
def fullFile : Text :=
  ((List.range 64).flatMap fun i =>
    ascii "[shard:" ++ natNumeral i ++ ascii "]\nconninfo=c\n") ++ ascii "key_range_end=9\n"

/-- The file fits, but the last shard does not get its key range. -/
theorem last_shard_incomplete :
    ConfigFits fullFile ∧ ∃ cfg, configLoad (some fullFile) = some cfg ∧
      ¬ LoadedCompletely fullFile cfg.shardMap := by
  have hfile : (∀ line ∈ fileLines fullFile,
        line.length ≤ lineRoom ∧ (parseConfigLine line).Fits) ∧
      writtenTables fullFile = [] ∧
      (Registry.names (writtenShards fullFile)).length ≤ maxShards ∧
      ⟨63, ascii "63", ascii "c", 0, 0⟩ ∈ (loadedMap fullFile).shards ∧
      rangeValue (lastValue (writtenShards fullFile) (ascii "63") (ascii "key_range_end")) ≠ 0 := by
    decide +kernel
  rcases hfile with ⟨hlines, htables, hshards, hlast, hrange⟩
  refine ⟨⟨fun l hl => (hlines l hl).1, fun l hl => (hlines l hl).2, ?_, ?_, hshards, ?_⟩, _, rfl,
    fun h => hrange (h.shards _ hlast).keyRangeEnd.symm⟩
  · simp [htables]
  · simp [htables]
  · simp [htables, Registry.names, Registry.namesFrom]

end Sharegres
