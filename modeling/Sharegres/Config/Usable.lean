import Mathlib.Data.List.Perm.Subperm
import Sharegres.Config.RouteTargets

/-!
# Config - Is a configuration usable

Nothing checks a configuration that was loaded.  A shard without {lit}`conninfo` and a rule
without {lit}`shard_column` leave a NULL in the map, which {lit}`conn_pool_init` passes to
{lit}`strdup` and {lit}`router_decide` to {lit}`strcmp`; and a shard that is named twice in a
list stands twice in the rule, where it may take the place of another one.

Main results:

- Definition {lit}`Usable`: no NULL is used, and each listed shard is reached once.
- Definition {lit}`UsableSettings`: what this asks of the settings of a file.
- Theorem {lit}`usable_iff`: the two are equivalent.
- Theorem {lit}`unusable_accepted`: files that are accepted and not usable.
-/

namespace Sharegres

open Foundation

/-! ## Uses of a map -/

/-- The texts that {lit}`shard_map_init` passes to {lit}`strdup`, in {lit}`conn_pool_init`. -/
def shardMapInitStrdups (map : ShardMap) : List (Option Text) :=
  map.shards.map Shard.conninfo

/-- The comparison of the key's column with the shard column. -/
def keyCompares (rule : TableRule) (parsed : ParseResult) : List (Option Text × Option Text) :=
  if parsed.shardKeyFound ∧ parsed.shardKeyColumn.isSome then
    [(parsed.shardKeyColumn, rule.shardColumn)]
  else []

/-- The texts that {lit}`router_decide` compares once a rule was found.  The names that are
compared before are never NULL. -/
def routerDecideCompares (rule : TableRule) (parsed : ParseResult) :
    Option (List (Option Text × Option Text)) :=
  if rule.broadcast then some []
  else if parsed.stmtType = .ddl then some []
  else if parsed.stmtType = .insert ∧ parsed.shardKeyFound = false then
    (parseExtractInsertShardKey parsed rule.shardColumn).map (keyCompares rule)
  else some (keyCompares rule parsed)

/-- The list that was assigned to a table. -/
def listOf (file name : Text) : Option Text :=
  columnValue (lastValue (takenTables file) name (ascii "shards"))

/-- A map that can be used: strings that are needed are there, and each existing shard that a
list names is in the rule once, so that the pools and the router use no NULL and a scatter
reaches each listed shard once. -/
structure Usable (file : Text) (map : ShardMap) : Prop where
  conninfo : ∀ s ∈ map.shards, s.conninfo ≠ none
  shardColumn : ∀ r ∈ map.tableRules, r.broadcast = false → r.shardColumn ≠ none
  listed : ∀ r ∈ map.tableRules, ∀ list, listOf file r.tableName = some list →
    ∀ s ∈ namedShards map.shards list, r.shards.count s = 1
  init : ∀ text ∈ shardMapInitStrdups map, text ≠ none
  compares : ∀ tableName rule parsed texts, shardMapFindRule map tableName = some rule →
    routerDecideCompares rule parsed = some texts → ∀ p ∈ texts, p.1 ≠ none ∧ p.2 ≠ none
  scatter : ∀ parsed decision rule list, routerDecide map parsed = some decision →
    decision.rule = some rule → decision.type = .scatter →
    listOf file rule.tableName = some list →
    ∀ s ∈ namedShards map.shards list, decision.targetShards.count s = 1

/-! ## Settings -/

/-- Every shard was given a connection string and every table a shard column or the broadcast
flag, and among the known names of a list, as many as there are shards, none is repeated. -/
structure UsableSettings (file : Text) : Prop where
  conninfo : ∀ name ∈ Registry.names (takenShards file),
    lastValue (takenShards file) name (ascii "conninfo") ≠ none
  shardColumn : ∀ name ∈ Registry.names (takenTables file),
    broadcastValue (lastValue (takenTables file) name (ascii "broadcast")) = true ∨
      columnValue (lastValue (takenTables file) name (ascii "shard_column")) ≠ none
  lists : ∀ name ∈ Registry.names (takenTables file),
    ∀ list ∈ listOf file name,
      ((knownNames file list).take (Registry.names (takenShards file)).length).Nodup

/-! ## Lists -/

/-- Elements of a list, taken in any order and as often as wanted: cut off at the length of the
list, each of them stands there once exactly if none is repeated. -/
theorem count_take_iff {α : Type*} [DecidableEq α] {all named : List α}
    (hsub : ∀ a ∈ named, a ∈ all) :
    (∀ a ∈ named, (named.take all.length).count a = 1) ↔ (named.take all.length).Nodup := by
  constructor
  · intro h
    refine List.nodup_iff_count_le_one.mpr fun a => ?_
    by_cases ha : a ∈ named
    · exact (h a ha).le
    · rw [List.count_eq_zero_of_not_mem fun hmem => ha (List.mem_of_mem_take hmem)]
      exact Nat.zero_le 1
  · intro hnodup a ha
    refine List.count_eq_one_of_mem hnodup ?_
    by_cases hlen : named.length ≤ all.length
    · rwa [List.take_of_length_le hlen]
    · -- as many different elements as there are, so all of them
      have hsubperm : (named.take all.length).Subperm all :=
        hnodup.subperm fun b hb => hsub b (List.mem_of_mem_take hb)
      have hperm := hsubperm.perm_of_length_le (by rw [List.length_take]; omega)
      exact hperm.mem_iff.mpr (hsub a ha)

/-- The shards of a list, up to their number, are repeated exactly if their names are. -/
theorem nodup_namedShards_iff (file list : Text) :
    ((namedShards (loadedMap file).shards list).take (loadedMap file).shards.length).Nodup ↔
      ((knownNames file list).take (Registry.names (takenShards file)).length).Nodup := by
  have hlength : (Registry.names (takenShards file)).length = (loadedMap file).shards.length := by
    rw [← loadedMap_shards_names, List.length_map]
  rw [hlength, ← map_name_namedShards, ← List.map_take]
  constructor
  · refine List.Nodup.map_on fun s hs t ht hname => ?_
    exact List.inj_on_of_nodup_map (loadedMap_names_nodup file)
      (namedShards_mem (List.mem_of_mem_take hs)) (namedShards_mem (List.mem_of_mem_take ht)) hname
  · exact List.Nodup.of_map _

/-! ## Rules -/

/-- The rule of a table with a list. -/
theorem takenRule_shards {file name list : Text} (h : listOf file name = some list) :
    (takenRule file name).shards =
      (namedShards (loadedMap file).shards list).take (loadedMap file).shards.length := by
  unfold listOf at h
  rw [takenRule, ruleShards, h]

/-- A shard column is there if it was assigned. -/
theorem takenRule_shardColumn (file name : Text) :
    (takenRule file name).shardColumn ≠ none ↔
      columnValue (lastValue (takenTables file) name (ascii "shard_column")) ≠ none := by
  rw [takenRule]
  dsimp only
  cases lastValue (takenTables file) name (ascii "shard_column") with
  | none => rfl
  | some column => cases column <;> simp [columnValue, Option.filter]

/-- The comparisons of a rule with a shard column, or for broadcast, are of strings. -/
theorem routerDecideCompares_ne_none {rule : TableRule} {parsed : ParseResult}
    {texts : List (Option Text × Option Text)}
    (hcolumn : rule.broadcast = false → rule.shardColumn ≠ none)
    (h : routerDecideCompares rule parsed = some texts) :
    ∀ p ∈ texts, p.1 ≠ none ∧ p.2 ≠ none := by
  have hkey : rule.broadcast = false → ∀ parsed, ∀ p ∈ keyCompares rule parsed,
      p.1 ≠ none ∧ p.2 ≠ none := by
    intro hb parsed p hp
    unfold keyCompares at hp
    split at hp
    · rename_i hfound
      rw [List.mem_singleton.mp hp]
      exact ⟨Option.isSome_iff_ne_none.mp hfound.2, hcolumn hb⟩
    · cases hp
  unfold routerDecideCompares at h
  split at h
  · cases h
    exact fun p hp => absurd hp List.not_mem_nil
  · rename_i hb
    split at h
    · cases h
      exact fun p hp => absurd hp List.not_mem_nil
    · split at h
      · rcases Option.map_eq_some_iff.mp h with ⟨parsed', -, rfl⟩
        exact hkey (by simpa using hb) parsed'
      · cases h
        exact hkey (by simpa using hb) parsed

/-! ## Usable files -/

/-- A file is accepted in any case, and the configuration is usable exactly if its settings
are. -/
theorem usable_iff (file : Text) :
    ∃ cfg, configLoad (some file) = some cfg ∧
      (Usable file cfg.shardMap ↔ UsableSettings file) := by
  rcases configLoad_map file with ⟨cfg, hload, hmap⟩
  refine ⟨cfg, hload, ?_⟩
  rw [hmap]
  have hrule : ∀ {r : TableRule}, r ∈ (loadedMap file).tableRules ↔
      ∃ name ∈ Registry.names (takenTables file), takenRule file name = r := by
    intro r
    rw [loadedMap_rules_eq, List.mem_map]
  have hlisted : ∀ name list, listOf file name = some list →
      ((∀ s ∈ namedShards (loadedMap file).shards list,
          (takenRule file name).shards.count s = 1) ↔
        ((knownNames file list).take (Registry.names (takenShards file)).length).Nodup) := by
    intro name list hlist
    rw [takenRule_shards hlist, ← nodup_namedShards_iff]
    exact count_take_iff fun s hs => namedShards_mem hs
  constructor
  · intro h
    refine ⟨fun name hname => ?_, fun name hname => ?_, fun name hname list hlist => ?_⟩
    · rcases List.mem_iff_getElem?.mp hname with ⟨i, hi⟩
      exact h.conninfo _ (mem_loadedMap_shards.mpr ⟨i, name, hi, rfl⟩)
    · refine or_iff_not_imp_left.mpr fun hb => ?_
      rw [← takenRule_shardColumn]
      exact h.shardColumn _ (hrule.mpr ⟨name, hname, rfl⟩) (Bool.eq_false_of_not_eq_true hb)
    · exact (hlisted name list hlist).mp (h.listed _ (hrule.mpr ⟨name, hname, rfl⟩) list hlist)
  · intro h
    have hconninfo : ∀ s ∈ (loadedMap file).shards, s.conninfo ≠ none := by
      intro s hs
      rcases mem_loadedMap_shards.mp hs with ⟨i, name, hi, rfl⟩
      exact h.conninfo name (List.mem_of_getElem? hi)
    have hcolumn : ∀ r ∈ (loadedMap file).tableRules, r.broadcast = false →
        r.shardColumn ≠ none := by
      intro r hr hb
      rcases hrule.mp hr with ⟨name, hname, rfl⟩
      rw [takenRule_shardColumn]
      exact (h.shardColumn name hname).resolve_left (ne_true_of_eq_false hb)
    have honce : ∀ r ∈ (loadedMap file).tableRules, ∀ list,
        listOf file r.tableName = some list →
        ∀ s ∈ namedShards (loadedMap file).shards list, r.shards.count s = 1 := by
      intro r hr list hlist
      rcases hrule.mp hr with ⟨name, hname, rfl⟩
      exact (hlisted name list hlist).mpr (h.lists name hname list hlist)
    refine ⟨hconninfo, hcolumn, honce, ?_, ?_, ?_⟩
    · intro text htext
      rcases List.mem_map.mp htext with ⟨s, hs, rfl⟩
      exact hconninfo s hs
    · intro tableName rule parsed texts hfind hcompares
      exact routerDecideCompares_ne_none (hcolumn rule (List.mem_of_find?_eq_some hfind)) hcompares
    · intro parsed decision rule list hdecide hdrule htype hlist
      rcases routerDecide_rule hdecide hdrule with ⟨hmem, hdecide'⟩
      rcases decideByRule_targets hdecide' with rfl | ⟨s, -, rfl, -⟩
      · exact honce rule hmem list hlist
      · cases htype

/-- A shard without a connection string. -/
def unconnectedFile : Text :=
  ascii "[shard:a]\nkey_range_end = 9\n"

/-- A table without a shard column. -/
def unkeyedFile : Text :=
  ascii "[shard:a]\nconninfo = x\n[table:t]\nshards = a\n"

/-- A table with a shard that is named twice. -/
def repeatedFile : Text :=
  ascii "[shard:a]\nconninfo=x\n[shard:b]\nconninfo=y\n" ++
    ascii "[table:t]\nshard_column=id\nshards=a,a,b\n"

/-- The three files are accepted.  The pool of the first one is given NULL for its connection
string, the second one has a rule with NULL for its column, and the rule of the third one
stands for its first shard twice and not for its second. -/
theorem unusable_accepted :
    (∃ cfg, configLoad (some unconnectedFile) = some cfg ∧
      none ∈ shardMapInitStrdups cfg.shardMap ∧ ¬ Usable unconnectedFile cfg.shardMap) ∧
    (∃ cfg, configLoad (some unkeyedFile) = some cfg ∧ ¬ Usable unkeyedFile cfg.shardMap) ∧
    (∃ cfg, configLoad (some repeatedFile) = some cfg ∧ ¬ Usable repeatedFile cfg.shardMap) := by
  refine ⟨?_, ?_, ?_⟩
  · have hnull : none ∈ shardMapInitStrdups (loadedMap unconnectedFile) := by decide +kernel
    exact ⟨_, rfl, hnull, fun h => h.init none hnull rfl⟩
  · have hrule : ⟨ascii "t", none, .range, false, [⟨0, ascii "a", ascii "x", 0, 0⟩]⟩ ∈
        (loadedMap unkeyedFile).tableRules := by decide +kernel
    exact ⟨_, rfl, fun h => h.shardColumn _ hrule rfl rfl⟩
  · have hfile : (⟨ascii "t", ascii "id", .range, false,
          [⟨0, ascii "a", ascii "x", 0, 0⟩, ⟨0, ascii "a", ascii "x", 0, 0⟩]⟩ : TableRule) ∈
          (loadedMap repeatedFile).tableRules ∧
        listOf repeatedFile (ascii "t") = some (ascii "a,a,b") ∧
        (⟨1, ascii "b", ascii "y", 0, 0⟩ : Shard) ∈
          namedShards (loadedMap repeatedFile).shards (ascii "a,a,b") := by
      decide +kernel
    rcases hfile with ⟨hrule, hlist, hshard⟩
    refine ⟨_, rfl, fun h => ?_⟩
    exact absurd (h.listed _ hrule _ hlist _ hshard) (by decide +kernel)

end Sharegres
