import Sharegres.Router.ShardedTable
import Sharegres.System.SingleRound

/-!
# System - A SELECT on a sharded table

The shards together hold the rows of one table, each row on the shard of its key.  A client sends
a SELECT on this table, it is routed to one shard or to all of them, and each of these answers
with the rows it has.  Whatever order the answers come in and whatever other sessions do
meanwhile, the client gets exactly the rows that the one table would give.

Main results:

- Theorems {lit}`scatterMessages_dataRows` and {lit}`singleMessages_dataRows`: the rows of all
  results are forwarded.
- Theorem {lit}`sum_answers`: in a complete run every target answers once.
- Theorem {lit}`sharded_select_answered`: the client gets the rows of the table.
-/

namespace Sharegres

open Foundation Foundation.Partition

variable {results : List PGresult}

/-! ## Rows among messages -/

/-- The rows among messages. -/
def dataRows (msgs : List BackendMsg) : List (List (Option Text)) :=
  msgs.filterMap fun msg =>
    match msg with
    | .dataRow cells => some cells
    | _ => none

@[simp]
theorem dataRows_append (msgs msgs' : List BackendMsg) :
    dataRows (msgs ++ msgs') = dataRows msgs ++ dataRows msgs' :=
  List.filterMap_append

/-- The rows a result shows to the client. -/
def shownRows (res : PGresult) : List (List (Option Text)) :=
  match res.status with
  | .tuplesOk | .singleTuple => res.rows
  | _ => []

@[simp]
theorem dataRows_rowMessages (res : PGresult) (sendHeader : Bool) :
    dataRows (rowMessages res sendHeader) = res.rows := by
  have hhead : dataRows (if sendHeader = true ∧ res.fields ≠ [] then
      [.rowDescription res.fields] else []) = [] := by
    split <;> rfl
  rw [rowMessages, dataRows_append, hhead, List.nil_append]
  unfold dataRows
  rw [List.filterMap_map]
  exact List.filterMap_some

/-- The rows of all results of a scattered query are forwarded. -/
theorem scatterMessages_dataRows {headerSent : Bool} {r : List BackendMsg × Bool}
    (h : scatterMessages headerSent results = some r) :
    dataRows r.1 = results.flatMap shownRows := by
  induction results generalizing headerSent r with
  | nil =>
      cases h
      rfl
  | cons res results ih =>
      cases hcopy : res.startsCopy with
      | true =>
          rw [scatterMessages_copy hcopy] at h
          cases h
      | false =>
          rw [scatterMessages_cons hcopy] at h
          rcases Option.map_eq_some_iff.mp h with ⟨rest, hrest, rfl⟩
          have hfirst : dataRows (scatterResult headerSent res).1 = shownRows res := by
            unfold scatterResult shownRows
            cases res.status <;> first | rfl | exact dataRows_rowMessages _ _
          rw [dataRows_append, hfirst, ih hrest, List.flatMap_cons]

/-- So are those of a query for one backend. -/
theorem singleMessages_dataRows (hcopy : ∀ res ∈ results, res.startsCopy = false)
    (headerSent : Bool) :
    dataRows (singleMessages headerSent results).1 = results.flatMap shownRows := by
  induction results generalizing headerSent with
  | nil => rfl
  | cons res results ih =>
      have hrest := ih fun res hres => hcopy res (List.mem_cons_of_mem _ hres)
      have hfirst := hcopy res List.mem_cons_self
      unfold PGresult.startsCopy at hfirst
      unfold singleMessages
      rw [List.flatMap_cons, shownRows]
      cases hstatus : res.status with
      | copyIn => simp [hstatus] at hfirst
      | copyOut => simp [hstatus] at hfirst
      | tuplesOk =>
          dsimp only
          rw [dataRows_append, dataRows_rowMessages, ← hrest true]
          rfl
      | singleTuple =>
          dsimp only
          rw [dataRows_append, dataRows_rowMessages, ← hrest true]
      | commandOk => exact hrest headerSent
      | fatalError => exact hrest headerSent
      | emptyQuery => exact hrest headerSent
      | other => exact hrest headerSent

/-! ## Every target once -/

/-- The rows of several lists together. -/
theorem coe_flatMap {α β : Type*} (l : List α) (f : α → List β) :
    ((l.flatMap f : List β) : Multiset β) = (l.map fun a => (f a : Multiset β)).sum := by
  induction l with
  | nil => rfl
  | cons a l ih => rw [List.flatMap_cons, ← Multiset.coe_add, ih, List.map_cons, List.sum_cons]

section Slots

variable {targets : List Shard} {answers : Answers}

/-- When all targets have answered, what each of them contributes adds up to the contributions of
the targets in their own order. -/
theorem sum_answers {μ : Type*} [AddCommMonoid μ] (hslots : answers.FromSlots targets)
    (hall : answers.length = targets.length) (hsize : targets.length ≤ maxScatterShards)
    {f : Shard → μ} {g : Fin maxScatterShards × List PGresult → μ}
    (hfg : ∀ a ∈ answers, ∀ s, targets[a.1.val]? = some s → g a = f s) :
    (answers.map g).sum = (targets.map f).sum := by
  -- the contribution of a slot
  let k : Fin maxScatterShards → μ := fun i => (targets[i.val]?).elim 0 f
  have hg : answers.map g = (answers.map Prod.fst).map k := by
    rw [List.map_map]
    refine List.map_congr_left fun a ha => ?_
    have hlt := hslots.2 a.1 (List.mem_map_of_mem ha)
    have hget : targets[a.1.val]? = some targets[a.1.val] := List.getElem?_eq_getElem hlt
    rw [hfg a ha _ hget]
    simp [k, hget]
  have hperm : (answers.map Prod.fst).Perm
      ((List.finRange maxScatterShards).take targets.length) := by
    refine (List.subperm_of_subset hslots.1 fun i hi => ?_).perm_of_length_le ?_
    · rw [List.mem_take_iff_getElem]
      exact ⟨i.val, by rw [List.length_finRange]; exact lt_min (hslots.2 i hi) i.isLt,
        List.getElem_finRange ..⟩
    · rw [List.length_take, List.length_map, hall]
      exact min_le_left _ _
  have hf : ((List.finRange maxScatterShards).take targets.length).map k = targets.map f := by
    refine List.ext_getElem ?_ fun n hn hn' => ?_
    · rw [List.length_map, List.length_take, List.length_finRange, List.length_map]
      exact min_eq_left hsize
    · rw [List.length_map] at hn'
      rw [List.getElem_map, List.getElem_map, List.getElem_take, List.getElem_finRange]
      simp [k, List.getElem?_eq_getElem hn']
  rw [hg, (hperm.map k).sum_eq, hf]

end Slots

/-! ## The rows of the table -/

/-- The results of a backend show the rows that it has and that satisfy a condition, in some
order and each in its textual form. -/
def PartAnswer (render : Row → List (Option Text)) (cond : Option Where) (rows : Multiset Row)
    (results : List PGresult) : Prop :=
  ((results.flatMap shownRows : List _) : Multiset (List (Option Text))) =
    (rows.filter fun row => satisfies cond row = true).map render

/-- The client has got the rows that satisfy a condition, and the session is ready. -/
def RowsSent (render : Row → List (Option Text)) (cond : Option Where) (rows : Multiset Row)
    (before : List BackendMsg) (s : Session) : Prop :=
  s.state = .ready ∧ ∃ msgs, s.messages = before ++ msgs ∧
    ((dataRows msgs : List _) : Multiset (List (Option Text))) =
      (rows.filter fun row => satisfies cond row = true).map render

section Select

variable {cfg : Config} {p : Proxy} {sid : Nat} {sql table c : Text} {rule : TableRule}
  {cond : Option Where} {store : Shard → Multiset Row} {rows : Multiset Row}
  {input : ClientInput} {render : Row → List (Option Text)}

/-- All targets have answered with what they have. -/
theorem Over.rowsSent {q : Scattered} {before : List BackendMsg} {answers : Answers}
    {r : List BackendMsg × Bool} (h : Over sid q (before ++ r.1) r.2 p)
    (hr : scatterMessages false answers.results = some r) (hslots : answers.FromSlots q.targets)
    (hsize : q.targets.length ≤ maxScatterShards) (hall : answers.length = q.targets.length)
    (hanswers : ∀ a ∈ answers, ∀ s, q.targets[a.1.val]? = some s →
      PartAnswer render cond (store s) a.2)
    (hrows : Partition.answer q.targets (satisfies cond) store =
      rows.filter fun row => satisfies cond row = true) :
    RowsSent render cond rows before (p.sessions sid) := by
  refine ⟨h.state, _, by rw [h.messages, List.append_assoc], ?_⟩
  have hlast : dataRows [.commandComplete (scatterTag r.2), .readyForQuery .idle] = [] := rfl
  have hflat : (Answers.results answers).flatMap shownRows =
      answers.flatMap fun a => a.2.flatMap shownRows := by
    rw [Answers.results, List.flatMap_assoc]
  rw [dataRows_append, hlast, List.append_nil, scatterMessages_dataRows hr, hflat, coe_flatMap,
    sum_answers hslots hall hsize hanswers, ← hrows, Partition.answer, map_total]
  rfl

/-- A backend has answered with what it has. -/
theorem Replied.rowsSent {s : Shard} {before : List BackendMsg}
    (h : Replied (before ++ (singleMessages false results).1) (p.sessions sid))
    (hcopy : ∀ res ∈ results, res.startsCopy = false)
    (hpart : PartAnswer render cond (store s) results)
    (hrows : Partition.answer [s] (satisfies cond) store =
      rows.filter fun row => satisfies cond row = true) :
    RowsSent render cond rows before (p.sessions sid) := by
  rcases h.messages with ⟨status, hmessages⟩
  refine ⟨h.state, _, by rw [hmessages, List.append_assoc], ?_⟩
  have hlast : dataRows [.readyForQuery status] = [] := rfl
  rw [dataRows_append, hlast, List.append_nil, singleMessages_dataRows hcopy, hpart, ← hrows,
    answer, total, List.map_singleton, List.sum_singleton]

/-- The SELECT was sent to one shard.  The shard can answer, and once it has answered with the rows
it has, the client has got those of the table. -/
structure SelectedFrom (cfg : Config) (sid : Nat) (sql : Text) (rule : TableRule)
    (render : Row → List (Option Text)) (cond : Option Where) (store : Shard → Multiset Row)
    (rows : Multiset Row) (p p₁ : Proxy) (s : Shard) : Prop where
  route : routeTaken cfg sql = some (.singleTo rule s)
  sent : ∃ c, SentToOne sid sql (some s) c p p₁
  answered : ∀ reply p₂, Replying cfg sid p₁ reply p₂ →
    (reply = none ∧ AwaitsBackend cfg sid p₂) ∨
      ∃ results, reply = some results ∧ (PartAnswer render cond (store s) results →
        RowsSent render cond rows (p.sessions sid).messages (p₂.sessions sid))

/-- The SELECT was sent to all shards of the rule.  Each of them can answer, and once all have
answered with the rows they have, the client has got those of the table. -/
structure SelectedFromAll (cfg : Config) (sid : Nat) (sql : Text) (rule : TableRule)
    (render : Row → List (Option Text)) (cond : Option Where) (store : Shard → Multiset Row)
    (rows : Multiset Row) (p p₁ : Proxy) : Prop where
  route : routeTaken cfg sql = some (.scatterTo rule)
  sent : ∃ conns, SentToEach sid sql rule.shards conns p p₁
  answered : ∀ answers p₂, Answering cfg sid p₁ answers p₂ →
    AwaitsTargets cfg sid rule.shards answers p₂ ∨
      answers.length = rule.shards.length ∧
        ((∀ a ∈ answers, ∀ s, rule.shards[a.1.val]? = some s →
            PartAnswer render cond (store s) a.2) →
          RowsSent render cond rows (p.sessions sid).messages (p₂.sessions sid))

/-- A client sends a SELECT on a sharded table whose rows are where they belong.  The proxy sends
it to the home shard of its key or to all shards, and once each of these has answered with the
rows it has, whatever happened in between, the client has got exactly the rows that the whole
table would give, and the session is ready. -/
theorem sharded_select_answered (render : Row → List (Option Text))
    (hshards : cfg.shardMap.shards ≠ [])
    (hrule : shardMapFindRule cfg.shardMap (outToken table) = some rule)
    (hbroadcast : rule.broadcast = false) (hcol : rule.shardColumn = some c)
    (hnodup : rule.shards.Nodup) (hrefines : Refines (rowHome rule c) rule.shards store rows)
    (hparsed : ParsedAs cfg.pgQueryParse table sql (.select cond))
    (hsound : TableStmt.Sound rule c (.select cond)) (h : ProxyReaches cfg anyEvent p)
    (hwaits : WaitsForQuery p sid) (hscatter : CanScatter p.backends rule.shards)
    (hsend : ∀ s ∈ rule.shards, CanSend (p.conf sid) (some s)) (hinput : BringsQuery sql input) :
    ∃ p₁, step cfg p (.client sid input) = some p₁ ∧
      ((∃ s ∈ rule.shards, SelectedFrom cfg sid sql rule render cond store rows p p₁ s) ∨
        SelectedFromAll cfg sid sql rule render cond store rows p p₁) := by
  rcases select_targets hrule hbroadcast hcol hnodup hrefines hparsed hsound with
    ⟨decision, hroute, hdecision, hanswer⟩
  have htaken : routeTaken cfg sql = some decision := by
    rw [routeTaken, if_neg hshards, hroute]
  have hinv := owned_of_reaches h
  rcases hdecision with rfl | ⟨s, hs, rfl⟩
  · rcases client_scatters hinv htaken rfl hwaits hscatter hinput with
      ⟨p₁, conns, hstep, hbegin, hsent⟩
    refine ⟨p₁, hstep, Or.inr ⟨htaken, ⟨conns, hsent⟩, fun answers p₂ hrun => ?_⟩⟩
    rcases hrun.progress (step_ledger hstep hinv) hbegin with
      ⟨-, -, hslots, r, hr, hunder | ⟨hall, hover⟩⟩
    · exact Or.inl hunder.awaitsTargets
    · exact Or.inr ⟨hall, fun hanswers =>
        hover.rowsSent hr hslots hscatter.size hall hanswers hanswer⟩
  · rcases client_sends h htaken (Or.inl ⟨rfl, rfl⟩) hwaits (hsend s hs) hinput with
      ⟨p₁, conn, hstep, hpending, hsent⟩
    refine ⟨p₁, hstep, Or.inl ⟨s, hs, htaken, ⟨conn, hsent⟩, fun reply p₂ hrun => ?_⟩⟩
    rcases hrun.progress (step_ledger hstep hinv) hpending with
      ⟨-, -, ⟨hreply, hpending'⟩ | ⟨results, hreply, hcopy, hreplied⟩⟩
    · exact Or.inl ⟨hreply, hpending'.awaitsBackend⟩
    · exact Or.inr ⟨results, hreply, fun hpart => hreplied.rowsSent hcopy hpart hanswer⟩

end Select

/-! ## A SELECT on two shards -/

/-- {lit}`SELECT FROM t`. -/
def selectAll : PlainStmt :=
  { demoDelete 0 with
    stmt := plainSelect
    cond := none
    plain := by simp [plainSelect, plainDelete]
    tight := rfl }

/-- Every text is this SELECT. -/
def selectConfig : Config :=
  ⟨⟨demoShards, [demoRule], 4⟩,
    fun _ => some (Json.render (document 170000 [(selectAll.tree, [])]))⟩

/-- A row with the key 5 and nothing else. -/
def rowFive : Row := fun column => if column = ascii "id" then some 5 else none

theorem rowFive_home : rowHome demoRule (ascii "id") rowFive =
    some ⟨0, ascii "shard_0", ascii "host=a", 0, 10⟩ := by
  decide +kernel

/-- The row on its home shard. -/
theorem rowFive_refines :
    Refines (rowHome demoRule (ascii "id")) demoShards
      (fun s => if s = ⟨0, ascii "shard_0", ascii "host=a", 0, 10⟩ then {rowFive} else 0)
      {rowFive} where
  placed := by
    intro s row hrow
    dsimp only at hrow
    split at hrow
    · rename_i hs
      rw [Multiset.mem_singleton] at hrow
      rw [hrow, hs]
      exact rowFive_home
    · exact absurd hrow (Multiset.notMem_zero row)
  total_eq := by
    rw [demoShards, total_cons, total_cons, total_nil, if_pos rfl, if_neg (by simp), add_zero,
      add_zero]

/-- A row as the backends show it. -/
def renderKey (row : Row) : List (Option Text) :=
  [(row (ascii "id")).map fun _ => ascii "5"]

/-- The SELECT is sent to both shards, and once both have answered with what they have the client
has got the row. -/
theorem row_selected_from_shards :
    ∃ p p₁, ProxyReaches selectConfig anyEvent p ∧
      step selectConfig p (demoQuery 0 (ascii "SELECT FROM t")) = some p₁ ∧
      SelectedFromAll selectConfig 0 (ascii "SELECT FROM t") demoRule renderKey none
        (fun s => if s = ⟨0, ascii "shard_0", ascii "host=a", 0, 10⟩ then {rowFive} else 0)
        {rowFive} p p₁ := by
  have hrun : runsTo (step selectConfig) anyEvent (demoLogin 0) (Proxy.start selectConfig)
      FirstWaits = true := by
    decide +kernel
  rcases exists_firstWaits hrun with ⟨p, hp, hwaits, hconn, hroom⟩
  have hsend : ∀ s ∈ demoShards, CanSend (p.conf 0) (some s) :=
    fun s hs => canSend_of_room hconn (hroom s hs)
  have hparsed : ParsedAs selectConfig.pgQueryParse (ascii "t") (ascii "SELECT FROM t")
      (.select none) :=
    ⟨170000, _, rfl, .select selectAll rfl rfl⟩
  have hsound : TableStmt.Sound demoRule (ascii "id") (.select none) := by
    intro w hw
    cases hw
  rcases sharded_select_answered renderKey (by decide) demoRule_found rfl rfl (by decide +kernel)
    rowFive_refines hparsed hsound hp hwaits ⟨by decide, by decide, by decide, hroom⟩ hsend
    (bringsQuery_plain (by decide +kernel) (by decide +kernel)) with ⟨p₁, hstep, hone | hall⟩
  · -- the SELECT has no key
    have hscatter : (routeTaken selectConfig (ascii "SELECT FROM t")).any
        (fun d => decide (d.type = .scatter)) = true := by
      decide +kernel
    rcases hone with ⟨s, -, hselected⟩
    rw [hselected.route] at hscatter
    cases hscatter
  · exact ⟨p, p₁, hp, hstep, hall⟩

end Sharegres
