import Sharegres.Session.ScatterFailures
import Sharegres.System.Isolation

/-!
# System - Connections of open transactions

A backend that is inside a transaction block has to stay with its session until the block
is over.  No part of the source looks at the transaction status before it decides on a
connection, so that a query for another backend gives the connection up and leaves the
transaction behind.

Main results:

- Definition {lit}`staysOn`: the queries that use the connection the session has, or none.
- Theorem {lit}`transaction_stays_bound`: in runs whose sessions keep to such queries while
  they are in a block, no step separates a session from its transaction.
- Theorem {lit}`block_left_by_keyed_delete`: a DELETE with a key after BEGIN does.
-/

namespace Sharegres

open Foundation

variable {b : Backends} {input : ClientInput} {own : ConnId → Owner} {e : Event}
  {accts : Nat → Account} {cfg : Config} {p p' : Proxy} {c : ConnId} {x y z : Conf} {sid : Nat}

/-- The server reported {lit}`INTRANS` or {lit}`INERROR` when it was last ready, and the
connection is in order. -/
def PGconn.inBlock (conn : PGconn) : Bool :=
  conn.status = .ok ∧ conn.xact ≠ .idle

/-- A connection in a block is never reported idle. -/
theorem PGconn.not_idle {conn : PGconn} (h : conn.inBlock = true) :
    pqTransactionStatus conn ≠ .idle := by
  intro hidle
  have hxact := (pqTransactionStatus_idle hidle).2.2
  simp [inBlock, hxact] at h

/-- The session still has the connection, it was not closed, and queries were sent on it
only. -/
structure Bound (c : ConnId) (x y : Conf) : Prop where
  backend : y.1.backendConn = some c
  kept : (y.2.conns c).finished = (x.2.conns c).finished
  sent : ∃ new, y.1.sent = new ++ x.1.sent ∧ ∀ entry ∈ new, entry.1 = c

namespace Bound

theorem refl (hconn : x.1.backendConn = some c) : Bound c x x :=
  ⟨hconn, rfl, [], rfl, by simp⟩

theorem trans (h : Bound c x y) (h' : Bound c y z) : Bound c x z := by
  refine ⟨h'.backend, h'.kept.trans h.kept, ?_⟩
  rcases h.sent with ⟨new, hsent, hnew⟩
  rcases h'.sent with ⟨new', hsent', hnew'⟩
  refine ⟨new' ++ new, ?_, ?_⟩
  · rw [hsent', hsent, List.append_assoc]
  · intro entry hentry
    rcases List.mem_append.mp hentry with hentry | hentry
    · exact hnew' entry hentry
    · exact hnew entry hentry

/-- No query was sent. -/
theorem of_sent_eq (hconn : y.1.backendConn = some c)
    (hkept : (y.2.conns c).finished = (x.2.conns c).finished) (hsent : y.1.sent = x.1.sent) :
    Bound c x y :=
  ⟨hconn, hkept, [], by simpa using hsent, by simp⟩

theorem of_kept (h : Kept x y) (hconn : x.1.backendConn = some c) : Bound c x y :=
  of_sent_eq (h.backend.trans hconn) (by rw [h.backends]) h.quiet.sent

/-- The end of a callback. -/
theorem flush (h : Bound c x y) (flush : SendOutcome) :
    (flushOrDestroy flush y).1.closed = true ∨ Bound c x (flushOrDestroy flush y) := by
  rcases flushOrDestroy_case flush y with hkept | hended
  · exact Or.inr (h.trans (of_kept hkept h.backend))
  · exact Or.inl hended.closed

/-- Operations on the slots of a scatter that send nothing. -/
theorem of_slotOps (hops : Ops True slotPlaces (view x) (view y)) (hacct : accts sid = x.1.account)
    (hledger : Ledger accts x.2 own) (hconn : x.1.backendConn = some c)
    (hsent : y.1.sent = x.1.sent) : Bound c x y := by
  have hheld := held_backend hconn
  rw [← hacct] at hheld
  have hframe := hops.frame hacct hledger (fun hplace => backend_not_mem_slotPlaces hplace.2)
    hheld
  rw [Function.update_self] at hframe
  rcases Option.map_eq_some_iff.mp hframe.1 with ⟨c', hc', heq⟩
  rw [Hold.mk.injEq] at heq
  exact of_sent_eq (heq.1 ▸ hc') (congrArg PGconn.finished hframe.2) hsent

end Bound

/-! ## Queries -/

/-- The scattered query is sent to no shard: there are too many targets, or none of them can be
reached. -/
def scatterMisses (sql : Text) (targets : List Shard) (input : ClientInput) (x : Conf) : Bool :=
  maxScatterShards < targets.length ∨
    allFailAtStart sql input x.1.id ((List.finRange maxScatterShards).zip targets) x.2

/-- The query is answered by the proxy itself, or goes to the connection the session has to a
shard or to the default backend, or it is scattered and sent to no shard. -/
def staysOn (cfg : Config) (input : ClientInput) (x : Conf) (sql : Text) : Bool :=
  if cfg.shardMap.shards = [] then true
  else
    match parseQuery cfg.pgQueryParse sql with
    | none => true
    | some (rc, parsed) =>
        if rc < 0 then true
        else
          match routerDecide cfg.shardMap parsed with
          | none => true
          | some decision =>
              match decision.type with
              | .single =>
                  x.1.backendShard.map Shard.index = decision.targetShards.head?.map Shard.index
              | .scatter => scatterMisses sql decision.targetShards input x
              | .local => true
              | .default => x.1.backendShard.map Shard.index = none

/-- A query is sent on it. -/
theorem sendSingle_bound (sql : Text) (accepts : Bool) (hconn : x.1.backendConn = some c) :
    Bound c x (sendSingle sql accepts x).1 := by
  unfold sendSingle
  rw [hconn]
  dsimp only
  cases hsend : x.2.pqSendQuery c x.1.id sql accepts with
  | none => exact Bound.refl hconn
  | some b =>
      rcases Backends.pqSendQuery_eq_some hsend with ⟨-, -, rfl⟩
      refine ⟨hconn, ?_, [(c, sql)], rfl, by simp⟩
      rw [Backends.modifyConn_self]

/-- An error is answered. -/
theorem refuse_bound {severity code message : Text} (h : Bound c x y) :
    Bound c x (refuse y.1 severity code message, y.2) :=
  ⟨h.backend, h.kept, h.sent⟩

/-- A connection in a block can be used. -/
theorem backendOk_of_inBlock (hconn : x.1.backendConn = some c)
    (hblock : (x.2.conns c).inBlock = true) : backendOk x = true := by
  have hok : (x.2.conns c).status = .ok := by
    simp only [PGconn.inBlock, decide_eq_true_eq] at hblock
    exact hblock.1
  simp [backendOk, hconn, hok]

/-- A query without a shard map. -/
theorem handleUnsharded_bound (sql : Text) (input : ClientInput)
    (hconn : x.1.backendConn = some c) (hblock : (x.2.conns c).inBlock = true) :
    Bound c x (handleUnsharded sql input x) := by
  have hsend := sendSingle_bound sql (input.accepts 0) hconn
  unfold handleUnsharded connectToDefault
  rw [if_pos (backendOk_of_inBlock hconn hblock)]
  dsimp only
  rcases hres : sendSingle sql (input.accepts 0) x with ⟨y, _ | _⟩ <;> rw [hres] at hsend
  · exact refuse_bound hsend
  · exact hsend

/-- A query for the shard of the connection. -/
theorem executeOrRefuse_bound (sql : Text) {shard : Option Shard} (message : Text)
    (input : ClientInput) (hconn : x.1.backendConn = some c)
    (hshard : x.1.backendShard.map Shard.index = shard.map Shard.index) :
    Bound c x (executeOrRefuse sql shard message input x) := by
  have hsend := sendSingle_bound sql (input.accepts 0) hconn
  have hexec : executeSingle sql shard input x = sendSingle sql (input.accepts 0) x := by
    unfold executeSingle swapBackend
    rw [if_neg (not_not.mpr hshard)]
    unfold connectSingle
    rw [if_pos (by rw [hconn]; rfl)]
  unfold executeOrRefuse
  rw [hexec]
  rcases hres : sendSingle sql (input.accepts 0) x with ⟨y, _ | _⟩ <;> rw [hres] at hsend
  · exact refuse_bound hsend
  · exact hsend

/-- A scattered query that is sent to no shard. -/
theorem executeScatter_bound {sql : Text} {targets : List Shard}
    (hmisses : scatterMisses sql targets input x = true) (hacct : accts sid = x.1.account)
    (hledger : Ledger accts x.2 own) (hconn : x.1.backendConn = some c) :
    Bound c x (executeScatter sql targets input x).1 := by
  refine Bound.of_slotOps (executeScatter_ops sql targets input x (Or.inl trivial)) hacct hledger
    hconn ?_
  unfold executeScatter
  split
  · rfl
  · rename_i hsize
    have hsize' := Nat.le_of_not_lt hsize
    have hfail := (of_decide_eq_true hmisses).resolve_left hsize
    have hsent := startScatter_sent hsize' hfail
    rw [← startScatter_done sql targets input x hsize'] at hfail
    dsimp only
    rw [if_pos hfail]
    exact hsent

/-- A query that stays on the connection. -/
theorem handleQuery_bound {sql : Text} {r : Conf × Bool} (h : handleQuery cfg sql input x = some r)
    (hacct : accts sid = x.1.account) (hledger : Ledger accts x.2 own)
    (hconn : x.1.backendConn = some c) (hblock : (x.2.conns c).inBlock = true)
    (hstays : staysOn cfg input x sql = true) : Bound c x r.1 := by
  have hcount : Bound c x (x.1.countQuery, x.2) := Bound.of_sent_eq hconn rfl rfl
  rcases handleQuery_cases h with
    ⟨-, rfl⟩ | ⟨-, rfl⟩ | ⟨hsharded, rc, parsed, decision, hparse, hrc, hroute, rfl⟩
  · exact hcount.trans (handleUnsharded_bound sql input hconn hblock)
  · exact refuse_bound hcount
  · apply hcount.trans
    unfold staysOn at hstays
    rw [if_neg hsharded, hparse] at hstays
    dsimp only at hstays
    rw [if_neg (by omega), hroute] at hstays
    dsimp only at hstays
    unfold executeRoute
    cases htype : decision.type with
    | single =>
        rw [htype] at hstays
        exact executeOrRefuse_bound sql _ input hconn (of_decide_eq_true hstays)
    | scatter =>
        rw [htype] at hstays
        exact executeScatter_bound (x := (x.1.countQuery, x.2)) hstays hacct hledger hconn
    | «local» => exact Bound.of_sent_eq hconn rfl rfl
    | default =>
        rw [htype] at hstays
        exact executeOrRefuse_bound sql _ input hconn (of_decide_eq_true hstays)

/-! ## Callbacks of the session itself -/

/-- Rounds of the loop over the receive buffer. -/
theorem Intakes.bound {s s' : Session} (h : Intakes s s') (hconn : s.backendConn = some c) :
    Bound c (s, b) (s', b) :=
  Bound.of_sent_eq (h.backend.2.1.trans hconn) rfl (congrArg Account.sent h.account)

/-- The events of the client's socket. -/
theorem ClientCase.bound (hcase : ClientCase cfg input x y) (hacct : accts sid = x.1.account)
    (hledger : Ledger accts x.2 own) (hconn : x.1.backendConn = some c)
    (hblock : (x.2.conns c).inBlock = true)
    (hstays : ∀ sql, queryOf input x.1 = some sql → staysOn cfg input x sql = true) :
    y.1.closed = true ∨ Bound c x y := by
  cases hcase with
  | skip => exact Or.inr (Bound.refl hconn)
  | destroy => exact Or.inl (sessionDestroy_ended x).closed
  | flush => exact (Bound.refl hconn).flush input.flush
  | input bytes r hcallback hhangup hrecv hcase =>
      have hreceive : Bound c x (x.1.receive bytes, x.2) := Bound.of_sent_eq hconn rfl rfl
      have hafter : Bound c x r.1 := by
        cases hcase with
        | ret s ok hloop => exact hreceive.trans (Intakes.bound hloop hconn)
        | query t n sql r hloop hstate hexit hquery =>
            have hbound : Bound c (_, x.2) (t, x.2) := Intakes.bound hloop hconn
            rcases Intakes.backend hloop with ⟨hid, -, hshard⟩
            have hconsume : Bound c (t, x.2) ({ t with recvBuf := t.recvBuf.consume n }, x.2) :=
              Bound.of_sent_eq hbound.backend rfl rfl
            have hsame : staysOn cfg input ({ t with recvBuf := t.recvBuf.consume n }, x.2) sql =
                staysOn cfg input x sql := by
              unfold staysOn scatterMisses
              dsimp only
              rw [hshard, hid]
              rfl
            refine ((hreceive.trans hbound).trans hconsume).trans (handleQuery_bound hquery
              (hacct.trans (Intakes.account hloop).symm) hledger hbound.backend hblock ?_)
            rw [hsame]
            apply hstays
            simp only [queryOf, hrecv]
            rw [hexit]
      rcases afterInput_case input.flush r with ⟨-, hkept⟩ | hended
      · exact Or.inr (hafter.trans (Bound.of_kept hkept hafter.backend))
      · exact Or.inl hended.closed

/-- A report inside a block releases nothing. -/
theorem reportReady_bound (hconn : x.1.backendConn = some c)
    (hblock : (x.2.conns c).inBlock = true) : Bound c x (reportReady c x) := by
  unfold reportReady
  dsimp only
  rw [if_neg fun hidle => PGconn.not_idle hblock hidle.1]
  exact Bound.of_sent_eq hconn rfl rfl

/-- The command in progress ends, and the block does not. -/
theorem endCommand_inBlock {xact : Xact} (hblock : (b.conns c).inBlock = true)
    (hxact : xact ≠ .idle) : ((b.endCommand c xact).conns c).inBlock = true := by
  simp only [PGconn.inBlock, decide_eq_true_eq] at hblock ⊢
  rw [Backends.endCommand, Backends.modifyConn_self]
  exact ⟨hblock.1, hxact⟩

theorem endCommand_finished (b : Backends) (c : ConnId) (xact : Xact) :
    ((b.endCommand c xact).conns c).finished = (b.conns c).finished := by
  rw [Backends.endCommand, Backends.modifyConn_self]

theorem finishSingle_bound (hconn : x.1.backendConn = some c)
    (hblock : (x.2.conns c).inBlock = true) : Bound c x (finishSingle c x) := by
  have hready := reportReady_bound hconn hblock
  exact ⟨hready.backend, hready.kept, hready.sent⟩

/-- The end of a copy to the client. -/
theorem finishCopyOut_bound {command : Command} {xact : Xact} (final : Option PGresult)
    (hconn : x.1.backendConn = some c) (hblock : (x.2.conns c).inBlock = true)
    (hxact : xact ≠ .idle) : Bound c x (finishCopyOut c command xact final x) := by
  have hafter : ∀ z : Conf, Bound c x z → (z.2.conns c).inBlock = true →
      Bound c x ((reportReady c z).1.setState .ready, (reportReady c z).2) := by
    intro z hz hzblock
    have hready := hz.trans (reportReady_bound hz.backend hzblock)
    exact ⟨hready.backend, hready.kept, hready.sent⟩
  unfold finishCopyOut
  dsimp only
  apply hafter
  · cases final with
    | none => exact Bound.of_sent_eq hconn (endCommand_finished _ _ _) rfl
    | some res =>
        dsimp only
        split <;> exact Bound.of_sent_eq hconn rfl rfl
  · cases final with
    | none => exact endCommand_inBlock hblock hxact
    | some res =>
        dsimp only
        split <;> exact hblock

/-- The results of a statement that does not end the block. -/
theorem drainSingle_bound {command : Command} {input : BackendInput}
    (hconn : x.1.backendConn = some c) (hblock : (x.2.conns c).inBlock = true)
    (hxact : input.xact ≠ .idle) : Bound c x (drainSingle c command input x) := by
  unfold drainSingle
  dsimp only
  cases (singleMessages false input.results).2 with
  | null =>
      have hended : Bound c x ((x.1.queueAll (.result c command)
          (singleMessages false input.results).1).noteOver .backend,
          x.2.endCommand c input.xact) :=
        Bound.of_sent_eq hconn (endCommand_finished _ _ _) rfl
      exact hended.trans (finishSingle_bound hended.backend (endCommand_inBlock hblock hxact))
  | copyIn nfields => exact Bound.of_sent_eq hconn rfl rfl
  | copyOut nfields =>
      dsimp only
      unfold copyOutRead
      dsimp only
      cases input.copyEnd with
      | pending => exact Bound.of_sent_eq hconn rfl rfl
      | failed => exact Bound.of_sent_eq hconn rfl rfl
      | done final =>
          have hqueued : Bound c x (((x.1.queueAll (.result c command)
              (singleMessages false input.results).1).queue (.result c command)
              (.copyOutResponse nfields)).setState .copyOut |>.queueAll (.result c command)
              (input.copyChunks.map .copyData), x.2) := Bound.of_sent_eq hconn rfl rfl
          exact hqueued.trans (finishCopyOut_bound final hqueued.backend hblock hxact)

/-- The events of the single backend. -/
theorem BackendCase.bound {input : BackendInput} {flush : SendOutcome}
    (hcase : BackendCase input flush x y) (hconn : x.1.backendConn = some c)
    (hblock : (x.2.conns c).inBlock = true) :
    y.1.closed = true ∨ ((x.2.conns c).command ≠ none ∧ input.xact = .idle) ∨ Bound c x y := by
  cases hcase with
  | lost message b hb => exact Or.inl (backendLost_ended message flush (x.1, b)).closed
  | skip => exact Or.inr (Or.inr (Bound.refl hconn))
  | quiet c' hconn' hhangup hcommand =>
      rw [hconn] at hconn'
      cases hconn'
      rcases (finishSingle_bound hconn hblock).flush flush with hclosed | hbound
      · exact Or.inl hclosed
      · exact Or.inr (Or.inr hbound)
  | drain c' command hconn' hhangup hcommand =>
      rw [hconn] at hconn'
      cases hconn'
      by_cases hxact : input.xact = .idle
      · exact Or.inr (Or.inl ⟨by rw [hcommand]; simp, hxact⟩)
      · rcases (drainSingle_bound hconn hblock hxact).flush flush with hclosed | hbound
        · exact Or.inl hclosed
        · exact Or.inr (Or.inr hbound)

/-- The events of a scatter of the same session. -/
theorem ScatterCase.bound {i : Fin maxScatterShards} {input : BackendInput} {flush : SendOutcome}
    (hcase : ScatterCase i input flush (p.conf sid) y) (howned : p.Owned)
    (hconn : (p.sessions sid).backendConn = some c) :
    y.1.closed = true ∨ Bound c (p.conf sid) y := by
  rcases howned with ⟨own, hledger⟩
  have hslots : ∃ z, Ops True slotPlaces (view (p.conf sid)) (view z) ∧ _ := hcase.slotOps
  rcases hslots with ⟨z, hops, hsent, hy⟩
  have hacct : p.accounts sid = (p.conf sid).1.account := rfl
  have hbound : Bound c (p.conf sid) z := Bound.of_slotOps hops hacct hledger hconn hsent
  rcases hy with rfl | rfl
  · exact Or.inr hbound
  · exact hbound.flush flush

/-! ## Runs -/

/-- The client sends a query that leaves the connection of an open block. -/
def leavesBlock (cfg : Config) (input : ClientInput) (x : Conf) : Bool :=
  match queryOf input x.1, x.1.backendConn with
  | some sql, some c =>
      (x.2.conns c).inBlock && !staysOn cfg input x sql
  | _, _ => false

/-- No session whose backend is in a block is sent a query that leaves its connection. -/
def StaysBound (cfg : Config) (p : Proxy) : Event → Prop
  | .client sid input => leavesBlock cfg input (p.conf sid) = false
  | _ => True

instance (cfg : Config) (p : Proxy) (e : Event) : Decidable (StaysBound cfg p e) :=
  match e with
  | .client sid input => inferInstanceAs (Decidable (leavesBlock cfg input (p.conf sid) = false))
  | .accept _ _ | .backend _ _ _ | .scatter _ _ _ _ | .healthCheck | .connLost _ => isTrue trivial

/-- What a step may do to a session whose backend {lit}`c` is in a block: end the session,
lose the connection, end the block by a statement of the session, or leave the session
and its later statements with the connection, neither closed nor in a pool. -/
inductive BindingKept (p : Proxy) (e : Event) (p' : Proxy) (sid : Nat) (c : ConnId) : Prop where
  | sessionEnded (h : (p'.sessions sid).closed = true)
  | connectionFailed (h : e = .connLost c)
  | blockEnded (input : BackendInput) (flush : SendOutcome) (h : e = .backend sid input flush)
      (hcommand : (p.backends.conns c).command ≠ none) (hxact : input.xact = .idle)
  | bound (h : Bound c (p.conf sid) (p'.conf sid))
      (hpools : ∀ i, c ∉ (p'.backends.pools i).idleConns)

/-- A session that has the connection after the step keeps it out of the pools. -/
theorem BindingKept.of_bound (howned : p'.Owned) (h : Bound c (p.conf sid) (p'.conf sid)) :
    BindingKept p e p' sid c := by
  rcases howned with ⟨own, hledger⟩
  have hheld : (p'.accounts sid).held .backend = _ := held_backend (x := p'.conf sid) h.backend
  exact BindingKept.bound h (hledger.not_pooled hheld)

/-- A callback of another session. -/
theorem Proxy.put_bound {leaky : Prop} {places : Set Place} {t : Nat}
    (hops : Ops leaky places (view (p.conf t)) (view y)) (hne : sid ≠ t) (howned : p.Owned)
    (hconn : (p.sessions sid).backendConn = some c) :
    Bound c (p.conf sid) ((p.put t y).conf sid) := by
  rcases howned with ⟨own, hledger⟩
  have hacct : p.accounts t = (view (p.conf t)).1 := rfl
  have hframe := hops.frame hacct hledger (fun hplace => hne hplace.1)
    (held_backend (x := p.conf sid) hconn)
  have hsame : (p.put t y).sessions sid = p.sessions sid := put_other hne
  refine Bound.of_sent_eq ?_ (congrArg PGconn.finished hframe.2) ?_
  · rw [conf, hsame]
    exact hconn
  · rw [conf, hsame]
    rfl

/-- A callback of the session itself or of another one. -/
theorem Proxy.put_bindingKept {places : Set Place} {t : Nat} (howned : p.Owned)
    (howned' : (p.put t y).Owned) (hops : Ops True places (view (p.conf t)) (view y))
    (hconn : (p.sessions sid).backendConn = some c)
    (hself : t = sid → y.1.closed = true ∨ BindingKept p e (p.put sid y) sid c ∨
      Bound c (p.conf sid) y) : BindingKept p e (p.put t y) sid c := by
  by_cases ht : t = sid
  · subst ht
    rcases hself rfl with hclosed | hkept | hbound
    · exact .sessionEnded (by rw [put_session]; exact hclosed)
    · exact hkept
    · apply BindingKept.of_bound howned'
      rw [put_conf]
      exact hbound
  · exact .of_bound howned' (put_bound hops (Ne.symm ht) howned hconn)

/-- The health check looks at idle connections only. -/
theorem healthLoop_conns {idle : List ConnId} (b : Backends) (h : c ∉ idle) :
    (Backends.healthLoop idle b).2.conns c = b.conns c := by
  induction idle generalizing b with
  | nil => rfl
  | cons c' rest ih =>
      rw [List.mem_cons, not_or] at h
      unfold Backends.healthLoop
      split
      · exact ih b h.2
      · rw [ih (b.pqFinish c') h.2, Backends.pqFinish, Backends.modifyConn_of_ne _ _ _ h.1]

/-- A health check does not touch connections in use. -/
theorem healthCheckAll_conns (shards : List Nat) (h : ∀ i, c ∉ (b.pools i).idleConns) :
    (b.healthCheckAll shards).conns c = b.conns c := by
  induction shards generalizing b with
  | nil => rfl
  | cons i shards ih =>
      rcases healthLoop_spec (b.pools i).idleConns b with ⟨hsub, hpools, -, -⟩
      refine (ih ?_).trans (healthLoop_conns b (h i))
      intro j hmem
      unfold Backends.connPoolHealthCheck at hmem
      by_cases hj : j = i
      · subst hj
        rw [Backends.setIdle_self] at hmem
        exact h j (hsub.subset hmem)
      · rw [Backends.setIdle_of_ne _ _ _ hj, hpools] at hmem
        exact h j hmem

/-- In every run whose sessions, while their backend is in a transaction block, send only
queries that stay on its connection: no step closes the connection of such a session,
returns it to a pool or sends a later statement of the session elsewhere, unless the
block ends by a statement of the session, the connection fails or the session ends. -/
theorem transaction_stays_bound (h : ProxyReaches cfg (StaysBound cfg) p)
    (hguard : StaysBound cfg p e) (hstep : step cfg p e = some p') (halive : p.alive sid)
    (hconn : (p.sessions sid).backendConn = some c) (hblock : (p.backends.conns c).inBlock = true) :
    BindingKept p e p' sid c := by
  have howned := owned_of_reaches h
  have howned' := step_ledger hstep howned
  cases step_case hstep with
  | accept pid secretKey =>
      have hsame := Proxy.accept_other (Nat.ne_of_lt halive.1) pid secretKey
      apply BindingKept.of_bound howned'
      refine Bound.of_sent_eq ?_ rfl ?_
      · rw [Proxy.conf, hsame]
        exact hconn
      · rw [Proxy.conf, hsame]
        rfl
  | client t input y halive' hcase =>
      apply Proxy.put_bindingKept howned howned' (hcase.ops (Or.inl trivial)) hconn
      rintro rfl
      have hstays : ∀ sql, queryOf input (p.sessions t) = some sql →
          staysOn cfg input (p.conf t) sql = true := by
        intro sql hsql
        simpa [StaysBound, leavesBlock, Proxy.conf, hsql, hconn, hblock] using hguard
      rcases howned with ⟨own, hledger⟩
      have hacct : p.accounts t = (p.conf t).1.account := rfl
      exact (hcase.bound hacct hledger hconn hblock hstays).imp id Or.inr
  | backend t input flush y halive' hcase =>
      apply Proxy.put_bindingKept howned howned' hcase.ops hconn
      rintro rfl
      rcases hcase.bound hconn hblock with hclosed | ⟨hcommand, hxact⟩ | hbound
      · exact Or.inl hclosed
      · exact Or.inr (Or.inl (.blockEnded input flush rfl hcommand hxact))
      · exact Or.inr (Or.inr hbound)
  | scatter t i input flush y halive' hcase =>
      apply Proxy.put_bindingKept howned howned' hcase.ops hconn
      rintro rfl
      exact (hcase.bound howned hconn).imp id Or.inr
  | healthCheck =>
      apply BindingKept.of_bound howned'
      rcases howned with ⟨own, hledger⟩
      have hheld : (p.accounts sid).held .backend = _ := held_backend (x := p.conf sid) hconn
      exact Bound.of_sent_eq hconn
        (congrArg PGconn.finished (healthCheckAll_conns _ (hledger.not_pooled hheld))) rfl
  | connLost c' =>
      by_cases hc : c = c'
      · subst hc
        exact .connectionFailed rfl
      · apply BindingKept.of_bound howned'
        have hsame : (p.backends.setStatus c' .bad).conns c = p.backends.conns c :=
          Backends.modifyConn_of_ne _ _ _ hc
        exact Bound.of_sent_eq hconn (congrArg PGconn.finished hsame) rfl

/-- BEGIN was answered on the default backend, and a second BEGIN stays there. -/
theorem second_begin_stays_bound :
    ∃ p p', ProxyReaches demoConfig (StaysBound demoConfig) p ∧
      StaysBound demoConfig p (demoQuery 0 (ascii "BEGIN")) ∧
      step demoConfig p (demoQuery 0 (ascii "BEGIN")) = some p' ∧
      (p.backends.conns 0).inBlock = true ∧
      BindingKept p (demoQuery 0 (ascii "BEGIN")) p' 0 0 := by
  have hrun : runsTo (step demoConfig) (StaysBound demoConfig)
      (demoLogin 0 ++
        [demoQuery 0 (ascii "BEGIN"),
          .backend 0 { results := [{ status := .commandOk }], xact := .inTrans } .all])
      (Proxy.start demoConfig)
      (fun p => p.alive 0 ∧ (p.sessions 0).backendConn = some 0 ∧
        (p.backends.conns 0).inBlock = true ∧
        StaysBound demoConfig p (demoQuery 0 (ascii "BEGIN")) ∧
        (step demoConfig p (demoQuery 0 (ascii "BEGIN"))).isSome = true) = true := by
    decide +kernel
  rcases exists_reached hrun with ⟨p, hp, halive, hconn, hblock, hguard, hsome⟩
  rcases Option.isSome_iff_exists.mp hsome with ⟨p', hstep⟩
  exact ⟨p, p', hp, hguard, hstep, hblock,
    transaction_stays_bound hp hguard hstep halive hconn hblock⟩

/-- After BEGIN was answered on the default backend, a DELETE with a key closes that
connection and is sent on a connection of its shard, outside of the transaction. -/
theorem block_left_by_keyed_delete :
    ∃ p p', ProxyReaches demoConfig anyEvent p ∧
      step demoConfig p (demoQuery 0 (ascii "DELETE FROM t WHERE id = 1")) = some p' ∧
      p.alive 0 ∧ (p.sessions 0).backendConn = some 0 ∧
      pqTransactionStatus (p.backends.conns 0) = .inTrans ∧
      (p'.backends.conns 0).finished = true ∧
      ¬ BindingKept p (demoQuery 0 (ascii "DELETE FROM t WHERE id = 1")) p' 0 0 := by
  have hrun : runsTo (step demoConfig) anyEvent
      (demoLogin 0 ++
        [demoQuery 0 (ascii "BEGIN"),
          .backend 0 { results := [{ status := .commandOk }], xact := .inTrans } .all])
      (Proxy.start demoConfig)
      (fun p => p.alive 0 ∧ (p.sessions 0).backendConn = some 0 ∧
        pqTransactionStatus (p.backends.conns 0) = .inTrans ∧
        (step demoConfig p (demoQuery 0 (ascii "DELETE FROM t WHERE id = 1"))).any
          (fun p' => decide ((p'.backends.conns 0).finished = true ∧
            (p'.sessions 0).closed = false ∧ (p'.sessions 0).backendConn = some 1)) = true) =
      true := by decide +kernel
  rcases exists_reached hrun with ⟨p, hp, halive, hconn, hstatus, hafter⟩
  cases hstep : step demoConfig p (demoQuery 0 (ascii "DELETE FROM t WHERE id = 1")) with
  | none =>
      rw [hstep] at hafter
      cases hafter
  | some p' =>
      rw [hstep] at hafter
      rcases of_decide_eq_true hafter with ⟨hfinished, hopen, hother⟩
      refine ⟨p, p', hp, hstep, halive, hconn, hstatus, hfinished, ?_⟩
      intro hkept
      cases hkept with
      | sessionEnded hclosed =>
          rw [hopen] at hclosed
          cases hclosed
      | connectionFailed heq => cases heq
      | blockEnded input flush heq hcommand hxact => cases heq
      | bound hbound hpools =>
          have hsame := hbound.backend
          rw [Proxy.conf, hother] at hsame
          cases hsame

end Sharegres
