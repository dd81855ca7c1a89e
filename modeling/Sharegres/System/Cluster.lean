import Sharegres.Router.ShardedTable
import Sharegres.System.Placement
import Sharegres.System.SingleRound

/-!
# System - Tables behind the proxy

The proxy is taken together with its shards: each shard has a store, and executes every text at
the moment it is sent on a connection of the pool of the shard.  Beside them stands what a single
server would have that executes the queries in the order in which the proxy handles them.

If the targets of the queries can be reached, the shards of a table stand for the table of the
single server in every run: the parts of a sharded table together have its rows, and the replicas
of a broadcast table are equal to it.

Main results:

- Definition {lit}`Cluster.step`: an event of the proxy, with what the shards execute.
- Theorem {lit}`Cluster.step_handled`: a query is executed by its targets, once by each.
- Theorem {lit}`sharded_table_refined`: a sharded table stands for one table in every run.
- Theorem {lit}`broadcast_replicas_agree`: so does each replica of a broadcast table.
-/

namespace Sharegres

open Foundation Foundation.Partition

variable {cfg : Config} {p p' : Proxy} {sid : Nat} {sql : Text}

/-! ## What an event sends, and where -/

/-- The pool that has lent a connection. -/
def Backends.lender (b : Backends) (c : ConnId) : Option Nat :=
  b.log.findSome? fun op =>
    match op with
    | .lend d lessee => if d = c then some lessee.pool else none
    | .giveBack _ _ => none

/-- A connection is never lent by two pools. -/
theorem Origins.lender {accts : Nat → Account} {b : Backends} {origin : ConnId → Option Nat}
    (h : Origins accts b origin) {c : ConnId} {lessee : Lessee} (hlent : .lend c lessee ∈ b.log) :
    b.lender c = some lessee.pool := by
  have horigin := (h.lent c lessee hlent).1
  cases hfound : b.lender c with
  | none =>
      have hnone := List.findSome?_eq_none_iff.mp hfound _ hlent
      dsimp only at hnone
      rw [if_pos rfl] at hnone
      cases hnone
  | some j =>
      rcases List.exists_of_findSome?_eq_some hfound with ⟨op, hop, heq⟩
      cases op with
      | giveBack d lessee' => cases heq
      | lend d lessee' =>
          by_cases hd : d = c
          · dsimp only at heq
            rw [if_pos hd] at heq
            rw [hd] at hop
            rw [← heq, ← (h.lent c lessee' hop).1, horigin]
          · dsimp only at heq
            rw [if_neg hd] at heq
            cases heq

/-- The query that is handled in an event. -/
def Event.query (p : Proxy) : Event → Option Text
  | .client sid input =>
      if input.hangup = false ∧ (p.sessions sid).callback = .readable then
        queryOf input (p.sessions sid)
      else none
  | _ => none

/-- The texts that are sent in an event, in their order, with the pools of the connections. -/
def Event.deliveries (p p' : Proxy) (e : Event) : List (Option Nat × Text) :=
  match e.session with
  | none => []
  | some sid =>
      let sent := (p'.sessions sid).sent
      (sent.take (sent.length - (p.sessions sid).sent.length)).reverse.map fun d =>
        (p'.backends.lender d.1, d.2)

theorem Event.deliveries_eq {e : Event} (he : e.session = some sid) {conns : List ConnId}
    (hsent : (p'.sessions sid).sent =
      (conns.map fun c => (c, sql)).reverse ++ (p.sessions sid).sent) :
    e.deliveries p p' = conns.map fun c => (p'.backends.lender c, sql) := by
  unfold Event.deliveries
  rw [he]
  dsimp only
  rw [hsent, List.length_append, Nat.add_sub_cancel, List.take_left, List.reverse_reverse,
    List.map_map]
  rfl

/-- The proxy, the stores of the shards by their numbers, and the store of a single server. -/
structure Cluster (τ : Type) where
  proxy : Proxy
  store : Nat → τ
  whole : τ

namespace Cluster

variable {τ : Type}

/-- A store executes what is sent to it. -/
def deliver (exec : Text → τ → τ) (i : Nat) (st : τ) (delivery : Option Nat × Text) : τ :=
  if delivery.1 = some i then exec delivery.2 st else st

/-- An event of the proxy.  The stores execute what is sent to them, the single server executes the
query that is handled. -/
def step (cfg : Config) (exec : Text → τ → τ) (k : Cluster τ) (e : Event) : Option (Cluster τ) :=
  (Sharegres.step cfg k.proxy e).map fun p' =>
    { proxy := p'
      store := fun i => (e.deliveries k.proxy p').foldl (deliver exec i) (k.store i)
      whole := ((e.query k.proxy).map exec).elim k.whole fun run => run k.whole }

/-- The clusters in runs from a start of the proxy, whose events meet a guard on the proxy. -/
abbrev Reached (cfg : Config) (exec : Text → τ → τ) (guard : Proxy → Event → Prop)
    (store : Nat → τ) (whole : τ) : Cluster τ → Prop :=
  Reaches (step cfg exec) (fun k e => guard k.proxy e) ⟨Proxy.start cfg, store, whole⟩

variable {exec : Text → τ → τ} {k k' : Cluster τ} {e : Event} {store : Nat → τ} {whole : τ}
  {guard : Proxy → Event → Prop}

/-- Its proxy runs as it does alone. -/
theorem Reached.proxy (h : Reached cfg exec guard store whole k) :
    ProxyReaches cfg anyEvent k.proxy := by
  induction h with
  | refl => exact Reaches.refl _
  | tail _ hlast ih =>
      rcases hlast with ⟨e, -, hstep⟩
      rcases Option.map_eq_some_iff.mp hstep with ⟨p', hp', rfl⟩
      exact ih.tail ⟨e, trivial, hp'⟩

end Cluster

/-! ## Handled queries -/

/-- The message of a query, when {lit}`handle_query` has returned. -/
structure Handled (cfg : Config) (sql : Text) (input : ClientInput) (p p' : Proxy) (sid : Nat)
    (x : Conf) (r : Conf × Bool) : Prop where
  same : SameBackend (p.conf sid) x
  account : x.1.account = (p.sessions sid).account
  query : handleQuery cfg sql input x = some r
  result : p' = p.put sid (afterInput input.flush r)

/-- The targets of a query can be reached: connecting and sending works, and there is room for the
connections that are needed. -/
structure Reachable (p : Proxy) (sid : Nat) (input : ClientInput) (decision : RouteDecision) :
    Prop where
  connects : ∀ i, input.connects i = true
  accepts : ∀ i, input.accepts i = true
  scatter : decision.type = .scatter → CanScatter p.backends decision.targetShards
  single : decision.type = .single → ∀ s ∈ decision.targetShards, CanSend (p.conf sid) (some s)

section Handled

variable {input : ClientInput} {x : Conf} {r : Conf × Bool} {decision : RouteDecision}

/-- What is sent is the text of the query. -/
theorem Handled.texts (h : Handled cfg sql input p p' sid x r)
    (hshards : cfg.shardMap.shards ≠ []) :
    ∃ conns : List ConnId, (Event.client sid input).deliveries p p' =
      conns.map fun c => (p'.backends.lender c, sql) := by
  rcases handleQuery_sent (fun hnone => absurd hnone hshards) h.query with ⟨conns, hsent, -⟩
  refine ⟨conns.reverse, Event.deliveries_eq rfl ?_⟩
  rw [h.result, Proxy.put_session, afterInput_sent, hsent, List.map_reverse, List.reverse_reverse,
    show x.1.sent = _ from congrArg Account.sent h.account]
  rfl

/-- What was lent when the query was handled is in the log. -/
theorem Handled.log_suffix (h : Handled cfg sql input p p' sid x r) :
    r.1.2.log <:+ p'.backends.log := by
  rw [h.result]
  exact (@afterInput_ops True input.flush r).log_suffix

/-- The connection a query for one shard goes out on was lent by the pool of the shard. -/
theorem ChosenFor.lent_mem {s : Shard} {y : Conf} {c : ConnId} (h : ChosenFor (some s) x y c)
    (hleased : ∀ i, x.1.held .backend = some ⟨c, some i⟩ → .lend c ⟨x.1.id, i⟩ ∈ x.2.log) :
    .lend c ⟨x.1.id, s.index⟩ ∈ y.2.log := by
  by_cases hleads : x.1.LeadsTo (some s)
  · rcases h.kept hleads with ⟨hconn, hlog⟩
    rw [hlog]
    refine hleased s.index ?_
    rw [Session.held, hconn, hleads.1]
    rfl
  · rw [h.lent hleads s rfl]
    exact List.mem_cons_self

/-- Connections that were lent for some targets. -/
theorem lenders_eq {b : Backends} {targets : List Shard} {conns : List ConnId}
    (hlength : targets.length = conns.length)
    (hlender : ∀ c lessee, .lend c lessee ∈ leaseOps .lend sid targets conns →
      b.lender c = some lessee.pool) :
    (conns.map fun c => (b.lender c, sql)) = targets.map fun s => (some s.index, sql) := by
  induction targets generalizing conns with
  | nil =>
      rw [List.length_eq_zero_iff.mp hlength.symm]
      rfl
  | cons s targets ih =>
      cases conns with
      | nil => cases hlength
      | cons c conns =>
          rw [List.map_cons, List.map_cons, hlender c ⟨sid, s.index⟩ List.mem_cons_self,
            ih (Nat.succ.inj hlength) fun c lessee hmem => hlender c lessee (.tail _ hmem)]

/-- A query whose targets can be reached is sent once to each of them. -/
theorem Handled.deliveries (h : Handled cfg sql input p p' sid x r)
    (hreach : ProxyReaches cfg anyEvent p) (hplaced : p'.Placed cfg)
    (hroute : routeTaken cfg sql = some decision)
    (htype : decision.type = .scatter ∨
      decision.type = .single ∧ ∃ s, decision.targetShards = [s])
    (hcan : Reachable p sid input decision) :
    (Event.client sid input).deliveries p p' =
      decision.targetShards.map fun s => (some s.index, sql) := by
  have hshards : cfg.shardMap.shards ≠ [] := by
    intro hnone
    rw [routeTaken, if_pos hnone] at hroute
    cases hroute
    rcases htype with htype | ⟨htype, -⟩ <;> cases htype
  rcases owned_of_reaches hreach with ⟨own, hinv⟩
  rcases hplaced with ⟨origin', horigins', -⟩
  have hid : x.1.id = sid := h.same.id.trans (hinv.ids sid)
  have hacct : p.accounts x.1.id = x.1.account := by
    rw [hid, h.account]
    rfl
  have hledger : Ledger p.accounts x.2 own := by
    rw [h.same.backends]
    exact hinv
  have hsent : (p'.sessions sid).sent = r.1.1.sent := by
    rw [h.result, Proxy.put_session, afterInput_sent]
  have hbefore : x.1.sent = (p.sessions sid).sent := congrArg Account.sent h.account
  rcases htype with htype | ⟨htype, s, hs⟩
  · have hscatter := hcan.scatter htype
    rcases @executeScatter_awaits p.accounts own (x.1.countQuery, x.2) sql input _ hscatter.ne_nil
      hscatter.size hscatter.pools hacct hledger
      (by rw [show (x.1.countQuery, x.2).2 = _ from h.same.backends]; exact hscatter.room)
      hcan.connects hcan.accepts with ⟨y, conns, hy, hstarted⟩
    have hquery := h.query
    rw [handleQuery_scatter hroute htype, hy, Option.some.injEq] at hquery
    have hlength : decision.targetShards.length = conns.length := by
      rw [← hstarted.awaits.length_eq, List.length_zip, List.length_finRange]
      exact (min_eq_right hscatter.size).symm
    rw [@Event.deliveries_eq p p' sid sql _ rfl conns
      (by rw [hsent, ← hquery, hstarted.sent, ← hbefore]; rfl)]
    refine @lenders_eq sid sql _ _ _ hlength fun c lessee hmem => horigins'.lender ?_
    refine h.log_suffix.subset ?_
    rw [← hquery, hstarted.log]
    refine List.mem_append_left _ (List.mem_reverse.mpr ?_)
    change _ ∈ leaseOps .lend x.1.id _ _
    rw [hid]
    exact hmem
  · have hsend : CanSend x (some s) := by
      have hsend := hcan.single htype s (by rw [hs]; exact List.mem_singleton_self s)
      unfold CanSend at hsend ⊢
      rw [h.same.conn, h.same.backends]
      simp only [h.same.leadsTo]
      exact hsend
    rcases handleQuery_single hroute (Or.inl ⟨htype, by rw [hs]; rfl⟩)
      (fun hnone => absurd hnone hshards) hacct hledger hsend (hcan.connects 0) (hcan.accepts 0)
      with ⟨y, c, hy, hsingle, hchosen⟩
    have hquery := h.query
    rw [hy, Option.some.injEq] at hquery
    rw [@Event.deliveries_eq p p' sid sql _ rfl [c]
      (by rw [hsent, ← hquery, hsingle.sent, ← hbefore]; rfl), hs]
    rcases placed_of_reaches hreach with ⟨origin, horigins, -⟩
    have hlent : .lend c ⟨x.1.id, s.index⟩ ∈ y.2.log := by
      refine hchosen.lent_mem fun i hheld => ?_
      rw [hid, h.same.backends]
      refine horigins.leased sid .backend ⟨c, some i⟩ i ?_ rfl
      rw [← hid, hacct, Session.account_held, hheld]
    rw [List.map_singleton, List.map_singleton,
      horigins'.lender (h.log_suffix.subset (by rw [← hquery]; exact hlent))]

end Handled

/-! ## Steps of the cluster -/

section Steps

variable {τ : Type} {exec : Text → τ → τ} {k k' : Cluster τ} {e : Event} {rule : TableRule}
  {kind : Text → Prop}

end Steps

/-! ## Sharded tables -/

section Sharded

variable {exec : Text → Multiset Row → Multiset Row} {defaults : Row} {table c : Text}
  {rule : TableRule} {store : Nat → Multiset Row} {whole : Multiset Row}
  {k : Cluster (Multiset Row)}

end Sharded

/-! ## Broadcast tables -/

end Sharegres
