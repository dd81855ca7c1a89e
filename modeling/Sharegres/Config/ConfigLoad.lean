import Mathlib.Tactic.SplitIfs
import Sharegres.Config.ConfigFile
import Sharegres.Foundation.Registry
import Sharegres.Router.ShardMap

/-!
# Config - Loading a configuration

Model of {lit}`src/config.c`.  The settings of a file change a configuration that starts
with defaults; those of {lit}`[shard:*]` and {lit}`[table:*]` sections fill two tables of 64
entries each, from which the shard map is built at the end.

Main results:

- Definition {lit}`configLoad`: the configuration of a file.
- Theorem {lit}`foldl_apply`: the two tables, from the assignments to shards and tables.
-/

namespace Sharegres

open Foundation

/-! ## The configuration -/

/-- {lit}`LogLevel`. -/
inductive LogLevel where
  | debug
  | info
  | warn
  | error
  | fatal
deriving DecidableEq, Repr

/-- {lit}`ShagresCfg`. -/
structure ShagresCfg where
  listenAddr : Text
  listenPort : Int32
  maxClients : Int32
  logLevel : LogLevel
  authMethod : Int32
  defaultPoolSize : Int32
  maxPoolSize : Int32
  idleTimeout : Int32
  backendConninfo : Text
  shardMap : ShardMap
deriving DecidableEq

/-- {lit}`config_default`. -/
def configDefault : ShagresCfg where
  listenAddr := ascii "0.0.0.0"
  listenPort := 15432
  maxClients := 1024
  logLevel := .info
  authMethod := 0
  defaultPoolSize := 20
  maxPoolSize := 100
  idleTimeout := 300
  backendConninfo := ascii "host=127.0.0.1 port=5432 dbname=postgres"
  shardMap := ⟨[], [], 0⟩

/-- {lit}`atoi`: {lit}`strtol`, cut to an {lit}`int`. -/
def atoi (p : Text) : Int32 :=
  (strtoll p).toInt32

/-- {lit}`strtoull(p, NULL, 10)`: a minus sign negates the number modulo 2^64, and a number
that is too large becomes the largest one. -/
def strtoull (p : Text) : UInt64 :=
  match skipSpace p with
  | [] => 0
  | b :: q =>
      if b = minusSign then
        if 2 ^ 64 ≤ readDigits 0 q then UInt64.ofNat (2 ^ 64 - 1)
        else -UInt64.ofNat (readDigits 0 q)
      else if b = plusSign then clamped (readDigits 0 q)
      else clamped (readDigits 0 (b :: q))
where
  /-- The number, or the largest one. -/
  clamped (n : Nat) : UInt64 :=
    UInt64.ofNat (min n (2 ^ 64 - 1))

/-- {lit}`MAX_SHARDS`. -/
def maxShards : Nat := 64

/-- {lit}`MAX_TABLES`. -/
def maxTables : Nat := 64

/-! ## Sections with one configuration -/

namespace ShagresCfg

variable (cfg : ShagresCfg)

/-- A setting of {lit}`[global]`. -/
def setGlobal (key val : Text) : ShagresCfg :=
  if key = ascii "listen_addr" then { cfg with listenAddr := val }
  else if key = ascii "listen_port" then { cfg with listenPort := atoi val }
  else if key = ascii "max_clients" then { cfg with maxClients := atoi val }
  else if key = ascii "log_level" then
    if val = ascii "debug" then { cfg with logLevel := .debug }
    else if val = ascii "info" then { cfg with logLevel := .info }
    else if val = ascii "warn" then { cfg with logLevel := .warn }
    else if val = ascii "error" then { cfg with logLevel := .error }
    else cfg
  else cfg

/-- A setting of {lit}`[auth]`. -/
def setAuth (key val : Text) : ShagresCfg :=
  if key = ascii "method" then
    if val = ascii "trust" then { cfg with authMethod := 0 } else cfg
  else cfg

/-- A setting of {lit}`[pool]`. -/
def setPool (key val : Text) : ShagresCfg :=
  if key = ascii "default_pool_size" then { cfg with defaultPoolSize := atoi val }
  else if key = ascii "max_pool_size" then { cfg with maxPoolSize := atoi val }
  else if key = ascii "idle_timeout" then { cfg with idleTimeout := atoi val }
  else cfg

/-- A setting of {lit}`[backend]`. -/
def setBackend (key val : Text) : ShagresCfg :=
  if key = ascii "conninfo" then { cfg with backendConninfo := val } else cfg

end ShagresCfg

/-! ## Tables of shards and rules -/

/-- A setting of a {lit}`[shard:*]` section. -/
def Shard.set (s : Shard) (setting : Text × Text) : Shard :=
  if setting.1 = ascii "conninfo" then { s with conninfo := some setting.2 }
  else if setting.1 = ascii "key_range_start" then { s with keyRangeStart := strtoull setting.2 }
  else if setting.1 = ascii "key_range_end" then { s with keyRangeEnd := strtoull setting.2 }
  else s

/-- {lit}`TmpTableRule`. -/
@[ext]
structure TmpTableRule where
  tableName : Text
  shardColumn : Text := []
  method : Text := []
  shardList : Text := []
  broadcast : Bool := false
deriving DecidableEq

/-- A setting of a {lit}`[table:*]` section; {lit}`strncpy` cuts off what does not fit. -/
def TmpTableRule.set (r : TmpTableRule) (setting : Text × Text) : TmpTableRule :=
  if setting.1 = ascii "shard_column" then { r with shardColumn := setting.2.take 127 }
  else if setting.1 = ascii "method" then { r with method := setting.2.take 15 }
  else if setting.1 = ascii "shards" then { r with shardList := setting.2.take 1023 }
  else if setting.1 = ascii "broadcast" then
    { r with broadcast := decide (setting.2 = ascii "true") }
  else r

/-- The shards, found or created by their names. -/
def shardTable : Registry Text (Text × Text) Shard where
  name := Shard.name
  blank i name := ⟨i, name, none, 0, 0⟩
  assign := Shard.set
  name_blank _ _ := rfl
  name_assign s setting := by
    unfold Shard.set
    split_ifs <;> rfl

/-- The table rules, found or created by their names. -/
def ruleTable : Registry Text (Text × Text) TmpTableRule where
  name := TmpTableRule.tableName
  blank _ name := { tableName := name }
  assign := TmpTableRule.set
  name_blank _ _ := rfl
  name_assign r setting := by
    unfold TmpTableRule.set
    split_ifs <;> rfl

/-! ## The loop -/

/-- The variables of the loop. -/
structure LoadState where
  cfg : ShagresCfg := configDefault
  tmpShards : List Shard := []
  tmpRules : List TmpTableRule := []

/-- A setting, by the section that it stands in. -/
def LoadState.apply (st : LoadState) (s : Setting) : LoadState :=
  if s.kind = ascii "global" then { st with cfg := st.cfg.setGlobal s.key s.val }
  else if s.kind = ascii "auth" then { st with cfg := st.cfg.setAuth s.key s.val }
  else if s.kind = ascii "pool" then { st with cfg := st.cfg.setPool s.key s.val }
  else if s.kind = ascii "backend" then { st with cfg := st.cfg.setBackend s.key s.val }
  else if s.kind = ascii "shard" ∧ s.arg ≠ [] then
    { st with tmpShards := shardTable.putWithin maxShards st.tmpShards (s.arg, s.key, s.val) }
  else if s.kind = ascii "table" ∧ s.arg ≠ [] then
    { st with tmpRules := ruleTable.putWithin maxTables st.tmpRules (s.arg, s.key, s.val) }
  else st

/-! ## The shard map -/

/-- The shard at {lit}`find_shard_index`. -/
def findShard (shards : List Shard) (name : Text) : Option Shard :=
  shards.find? fun s => decide (s.name = name)

/-- The texts that {lit}`strtok` finds between commas. -/
def strtok (list : Text) : List Text :=
  (list.splitOn comma).filter fun tok => decide (tok ≠ [])

/-- The loop over the names of a list, with room for a number of shards. -/
def listShards (shards : List Shard) : Nat → List Text → List Shard
  | _, [] => []
  | 0, _ => []
  | room + 1, tok :: toks =>
      match findShard shards (trim tok) with
      | some s => s :: listShards shards room toks
      | none => listShards shards (room + 1) toks

/-- The rule that is built from a table section. -/
def buildRule (shards : List Shard) (r : TmpTableRule) : TableRule where
  tableName := r.tableName
  shardColumn := if r.shardColumn = [] then none else some r.shardColumn
  method := if r.method = ascii "hash" then .hash else .range
  broadcast := r.broadcast
  shards :=
    if r.shardList ≠ [] ∧ 0 < shards.length then
      listShards shards shards.length (strtok r.shardList)
    else if r.broadcast ∧ 0 < shards.length then shards
    else []

/-- The shard map that is built from the tables.  A pool size below zero gives a pool that
keeps no connection, as zero does. -/
def buildMap (st : LoadState) : ShardMap where
  shards := st.tmpShards
  tableRules := st.tmpRules.map (buildRule st.tmpShards)
  poolSize := st.cfg.defaultPoolSize.toInt.toNat

/-- {lit}`config_load`, from the content of the file if it can be opened. -/
def configLoad (content : Option Text) : Option ShagresCfg :=
  content.map fun file =>
    let st := (readSettings file).foldl LoadState.apply {}
    { st.cfg with shardMap := buildMap st }

/-! ## The tables of a file -/

/-- The assignments to shards that are read from a file. -/
def shardSettings (file : Text) : List (Text × Text × Text) :=
  assignments (ascii "shard") (readSettings file)

/-- The assignments to tables that are read from a file. -/
def tableSettings (file : Text) : List (Text × Text × Text) :=
  assignments (ascii "table") (readSettings file)

/-- The assignment of a setting to an entry of the wanted kind, if it is one. -/
def Setting.assignment (wanted : Text) (s : Setting) : List (Text × Text × Text) :=
  if s.kind = wanted ∧ s.arg ≠ [] then [(s.arg, s.key, s.val)] else []

theorem assignments_cons (wanted : Text) (s : Setting) (ss : List Setting) :
    assignments wanted (s :: ss) = s.assignment wanted ++ assignments wanted ss := by
  unfold assignments Setting.assignment
  rw [List.filterMap_cons]
  by_cases h : s.kind = wanted ∧ s.arg ≠ []
  · rw [if_pos h, if_pos h]
    rfl
  · rw [if_neg h, if_neg h]
    rfl

/-- A setting changes the table that it is for. -/
theorem LoadState.apply_tables (st : LoadState) (s : Setting) :
    (st.apply s).tmpShards =
        (s.assignment (ascii "shard")).foldl (shardTable.putWithin maxShards) st.tmpShards ∧
      (st.apply s).tmpRules =
        (s.assignment (ascii "table")).foldl (ruleTable.putWithin maxTables) st.tmpRules := by
  have hnot : ∀ {kind wanted : Text}, kind ≠ wanted → ¬ (kind = wanted ∧ s.arg ≠ []) :=
    fun hne h => hne h.1
  unfold LoadState.apply Setting.assignment
  by_cases hshard : s.kind = ascii "shard"
  · have hkind : ascii "shard" ≠ ascii "global" ∧ ascii "shard" ≠ ascii "auth" ∧
        ascii "shard" ≠ ascii "pool" ∧ ascii "shard" ≠ ascii "backend" ∧
        ascii "shard" ≠ ascii "table" := by simp [ascii]
    rw [hshard, if_neg hkind.1, if_neg hkind.2.1, if_neg hkind.2.2.1, if_neg hkind.2.2.2.1,
      if_neg (hnot hkind.2.2.2.2)]
    split <;> exact ⟨rfl, rfl⟩
  · rw [if_neg (hnot hshard), if_neg (hnot hshard)]
    by_cases htable : s.kind = ascii "table"
    · have hkind : ascii "table" ≠ ascii "global" ∧ ascii "table" ≠ ascii "auth" ∧
          ascii "table" ≠ ascii "pool" ∧ ascii "table" ≠ ascii "backend" := by simp [ascii]
      rw [htable, if_neg hkind.1, if_neg hkind.2.1, if_neg hkind.2.2.1, if_neg hkind.2.2.2]
      split <;> exact ⟨rfl, rfl⟩
    · rw [if_neg (hnot htable), if_neg (hnot htable)]
      -- the other sections change the configuration only
      repeat' split
      all_goals exact ⟨rfl, rfl⟩

/-- The loop fills the two tables by the assignments to them. -/
theorem foldl_apply (ss : List Setting) (st : LoadState) :
    (ss.foldl LoadState.apply st).tmpShards =
        (assignments (ascii "shard") ss).foldl (shardTable.putWithin maxShards) st.tmpShards ∧
      (ss.foldl LoadState.apply st).tmpRules =
        (assignments (ascii "table") ss).foldl (ruleTable.putWithin maxTables) st.tmpRules := by
  induction ss generalizing st with
  | nil => exact ⟨rfl, rfl⟩
  | cons s ss ih =>
      rcases st.apply_tables s with ⟨hshards, hrules⟩
      rw [List.foldl_cons, assignments_cons, assignments_cons, List.foldl_append,
        List.foldl_append, ← hshards, ← hrules]
      exact ih (st.apply s)

end Sharegres
