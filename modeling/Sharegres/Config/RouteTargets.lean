import Sharegres.Config.LoadedMap
import Sharegres.Protocol.FeProtocol

/-!
# Config - Targets of a route

The routes of a map that was loaded from a file.  Their targets are shards of the table's
rule, the shards of a rule are shards of the global array, and there are at most 64 of them,
so that a scatter finds room for all its targets.

Main results:

- Definition {lit}`TableRule.homeReads`: the positions that the search for a home reads.
- Theorem {lit}`decideByRule_targets`: the targets of a decision.
- Theorem {lit}`route_within_rule`: routes of a loaded map stay inside the rule.
-/

namespace Sharegres

open Foundation

variable {parsed : ParseResult} {decision : RouteDecision} {rule : TableRule}

/-! ## Positions read -/

/-- The positions of the array of shards that {lit}`shard_map_find_by_int` and
{lit}`shard_map_find_by_str` read for an unsigned key, the last one being the one that is
returned. -/
def TableRule.homeReads (rule : TableRule) (ukey : UInt64) : List Nat :=
  if rule.shards.length = 0 then []
  else
    match rule.method with
    | .range =>
        match rule.shards.findIdx? (Shard.covers · ukey) with
        | some i => List.range (i + 1)
        | none => List.range rule.shards.length ++ [0]
    | .hash => [ukey.toNat % rule.shards.length]

/-- The positions are inside the array. -/
theorem homeReads_lt {ukey : UInt64} {i : Nat} (h : i ∈ rule.homeReads ukey) :
    i < rule.shards.length := by
  unfold TableRule.homeReads at h
  by_cases hnil : rule.shards.length = 0
  · rw [if_pos hnil] at h
    cases h
  · rw [if_neg hnil] at h
    cases hmethod : rule.method with
    | range =>
        rw [hmethod] at h
        cases hfind : rule.shards.findIdx? (Shard.covers · ukey) with
        | some j =>
            simp only [hfind, List.mem_range] at h
            have hj := (List.findIdx?_eq_some_iff_getElem.mp hfind).1
            omega
        | none =>
            simp only [hfind, List.mem_append, List.mem_range, List.mem_singleton] at h
            omega
    | hash =>
        rw [hmethod] at h
        rw [List.mem_singleton.mp h]
        exact Nat.mod_lt _ (by omega)

/-- The home of a key is at the position that is read last. -/
theorem home_eq_read (ukey : UInt64) (hne : rule.shards.length ≠ 0) :
    rule.home ukey = (rule.homeReads ukey).getLast?.bind fun i => rule.shards[i]? := by
  unfold TableRule.home TableRule.homeReads
  rw [if_neg hne]
  cases rule.method with
  | range =>
      dsimp only
      rw [List.find?_eq_bind_findIdx?_getElem?]
      cases hfind : rule.shards.findIdx? (Shard.covers · ukey) with
      | some i =>
          have hi := (List.findIdx?_eq_some_iff_getElem.mp hfind).1
          simp [List.getLast?_range, List.getElem?_eq_getElem hi]
      | none => simp [List.head?_eq_getElem?]
  | hash => rfl

/-! ## Decisions of a rule -/

/-- A decision by key is for one shard of the rule, or for all of them. -/
theorem decideByKey_targets (rule : TableRule) (parsed : ParseResult) :
    decideByKey rule parsed = .scatterTo rule ∨
      ∃ s ∈ rule.shards, decideByKey rule parsed = .singleTo rule s := by
  unfold decideByKey
  split
  · cases htarget : keyTarget rule parsed with
    | none => exact Or.inl rfl
    | some s =>
        refine Or.inr ⟨s, ?_, rfl⟩
        unfold keyTarget at htarget
        split at htarget
        · exact shardMapFindByInt_mem htarget
        · rcases Option.bind_eq_some_iff.mp htarget with ⟨key, -, hkey⟩
          exact shardMapFindByStr_mem hkey
  · exact Or.inl rfl

/-- The targets of a decision of a rule. -/
theorem decideByRule_targets (h : decideByRule rule parsed = some decision) :
    decision = .scatterTo rule ∨
      ∃ s ∈ rule.shards, decision = .singleTo rule s ∧ rule.broadcast = false ∧
        parsed.stmtType ≠ .ddl := by
  unfold decideByRule at h
  by_cases hbroadcast : rule.broadcast = true
  · rw [if_pos hbroadcast] at h
    cases h
    exact Or.inl rfl
  · rw [if_neg hbroadcast] at h
    by_cases hddl : parsed.stmtType = .ddl
    · rw [if_pos hddl] at h
      cases h
      exact Or.inl rfl
    · rw [if_neg hddl] at h
      -- the second pass of an INSERT changes the key only
      have hkeyed : ∃ parsed', decision = decideByKey rule parsed' := by
        split at h
        · rcases Option.map_eq_some_iff.mp h with ⟨parsed', -, rfl⟩
          exact ⟨parsed', rfl⟩
        · cases h
          exact ⟨parsed, rfl⟩
      rcases hkeyed with ⟨parsed', rfl⟩
      rcases decideByKey_targets rule parsed' with hscatter | ⟨s, hs, hsingle⟩
      · exact Or.inl hscatter
      · exact Or.inr ⟨s, hs, hsingle, by simpa using hbroadcast, hddl⟩

/-- A decision with a rule is one of that rule, and the rule is in the map. -/
theorem routerDecide_rule {map : ShardMap} (h : routerDecide map parsed = some decision)
    (hrule : decision.rule = some rule) :
    rule ∈ map.tableRules ∧ decideByRule rule parsed = some decision := by
  unfold routerDecide at h
  split at h
  · cases h
    cases hrule
  · split at h
    · cases h
      cases hrule
    · split at h
      · cases h
        cases hrule
      · split at h
        · cases h
          cases hrule
        · split at h
          · cases h
            cases hrule
          · rename_i found hfound
            have hsame : found = rule := by
              rcases decideByRule_targets h with rfl | ⟨s, -, rfl, -⟩
              · exact Option.some.inj hrule
              · exact Option.some.inj hrule
            subst hsame
            exact ⟨List.mem_of_find?_eq_some hfound, h⟩

/-! ## Rules of a loaded map -/

/-- A shard of the map stands at its index. -/
theorem loadedMap_index {file : Text} {s : Shard} (h : s ∈ (loadedMap file).shards) :
    (loadedMap file).shards[s.index]? = some s := by
  rcases mem_loadedMap_shards.mp h with ⟨i, name, hname, rfl⟩
  rw [getElem?_loadedMap_shards]
  change (Registry.names (takenShards file))[i]?.map (takenShard file i) = _
  rw [hname]
  rfl

/-- A decision stays inside the rule of its table. -/
structure RouteDecision.Within (decision : RouteDecision) (map : ShardMap) (parsed : ParseResult)
    (rule : TableRule) : Prop where
  targets : ∀ s ∈ decision.targetShards, s ∈ rule.shards
  global : ∀ s ∈ rule.shards, map.shards[s.index]? = some s
  type : decision.type = .single ∨ decision.type = .scatter
  single : decision.type = .single →
    decision.targetShards.length = 1 ∧ rule.broadcast = false ∧ parsed.stmtType ≠ .ddl
  scatter : decision.type = .scatter → decision.targetShards = rule.shards
  reads : ∀ ukey, ∀ i ∈ rule.homeReads ukey, i < rule.shards.length
  home : rule.shards.length ≠ 0 → ∀ ukey,
    rule.home ukey = (rule.homeReads ukey).getLast?.bind fun i => rule.shards[i]?
  count : decision.targetShards.length ≤ maxScatterShards

/-- The routes of a loaded map stay inside the rule of their table, and sending a query to
their targets does not end the session. -/
theorem route_within_rule {file : Text} {cfg : ShagresCfg}
    (hload : configLoad (some file) = some cfg)
    (hdecide : routerDecide cfg.shardMap parsed = some decision)
    (hrule : decision.rule = some rule) :
    decision.Within cfg.shardMap parsed rule ∧
      ∀ sql input x, (executeRoute sql decision input x).2 = true := by
  have hmap : cfg.shardMap = loadedMap file := by
    cases hload
    rfl
  rw [hmap] at hdecide ⊢
  rcases routerDecide_rule hdecide hrule with ⟨hmem, hrule'⟩
  rcases loadedMap_rule_shards hmem with ⟨hglobal, hlength⟩
  have hroom : rule.shards.length ≤ maxScatterShards :=
    hlength.trans (loadedMap_shards_length file)
  have hindex : ∀ s ∈ rule.shards, (loadedMap file).shards[s.index]? = some s :=
    fun s hs => loadedMap_index (hglobal s hs)
  rcases decideByRule_targets hrule' with rfl | ⟨s, hs, rfl, hbroadcast, hddl⟩
  · refine ⟨⟨fun s hs => hs, hindex, Or.inr rfl, (fun h => by cases h), fun _ => rfl,
      fun _ _ => homeReads_lt, fun hne ukey => home_eq_read ukey hne, hroom⟩, fun sql input x => ?_⟩
    change (executeScatter sql rule.shards input x).2 = true
    unfold executeScatter
    rw [if_neg (Nat.not_lt.mpr hroom)]
    dsimp only
    split <;> rfl
  · refine ⟨⟨?_, hindex, Or.inl rfl, fun _ => ⟨rfl, hbroadcast, hddl⟩, (fun h => by cases h),
      fun _ _ => homeReads_lt, fun hne ukey => home_eq_read ukey hne, by change 1 ≤ 64; decide⟩,
      fun sql input x => rfl⟩
    intro t ht
    rw [List.mem_singleton.mp ht]
    exact hs

/-- The parse of a statement on {lit}`t` with the key 5. -/
def keyedParse : ParseResult :=
  { stmtType := .select, tableName := some (ascii "t"), shardKeyFound := true,
    shardKeyColumn := some (ascii "id"), shardKeyIsInt := true, shardKeyInt := 5 }

/-- The key 5 is at home on the second shard. -/
theorem hashed_route_within :
    ∃ cfg decision rule, configLoad (some hashedFile) = some cfg ∧
      routerDecide cfg.shardMap keyedParse = some decision ∧ decision.type = .single ∧
      decision.Within cfg.shardMap keyedParse rule := by
  rcases configLoad_map hashedFile with ⟨cfg, hload, hmap⟩
  have hshards : ∃ rule, routerDecide (loadedMap hashedFile) keyedParse =
      some (.singleTo rule ⟨1, ascii "b", some (ascii "y"), 0, 0⟩) :=
    ⟨⟨ascii "t", some (ascii "id"), .hash, false,
      [⟨0, ascii "a", some (ascii "x"), 0, 0⟩, ⟨1, ascii "b", some (ascii "y"), 0, 0⟩]⟩,
      by decide +kernel⟩
  rcases hshards with ⟨rule, hdecide⟩
  rw [← hmap] at hdecide
  exact ⟨cfg, _, rule, hload, hdecide, rfl, (route_within_rule hload hdecide rfl).1⟩

end Sharegres
