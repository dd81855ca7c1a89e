import Sharegres.Session.Outcomes
import Sharegres.System.Proxy

/-!
# System - A proxy without a shard map

If no shards are configured every query goes to the default backend.  A session then opens a
connection of its own with its first query and keeps it: nothing is taken from or given to
a pool, no query is scattered, and as long as the connection is in order only the end of the
session separates the two.  So transactions, settings and temporary tables of a client stay
where they are.

Main results:

- Definition {lit}`Session.Unpooled`: a session that has nothing to do with pools.
- Definition {lit}`Stays`: what a callback of such a session does.
- Theorem {lit}`unsharded_sessions_private`: sessions and pools in every run.
-/

namespace Sharegres

open Foundation

/-- The connection of a session is not of a pool, and no scatter was ever started. -/
structure Session.Unpooled (s : Session) : Prop where
  shard : s.backendShard = none
  scatter : s.scatter = fun _ => {}
  count : s.scatterCount = 0
  state : s.state ≠ .scatter

/-- The session stays unpooled, the pools are left alone, and a connection in order is kept, or
the session ends. -/
structure Stays (x y : Conf) : Prop where
  unpooled : y.1.Unpooled
  pools : y.2.pools = x.2.pools
  log : y.2.log = x.2.log
  bound : ∀ c, x.1.backendConn = some c → (x.2.conns c).status = .ok →
    y.1.closed = true ∨ y.1.backendConn = some c

section Stays

variable {cfg : Config} {x y z : Conf} {c : ConnId}

theorem Stays.refl (h : x.1.Unpooled) : Stays x x :=
  ⟨h, rfl, rfl, fun _ hc _ => Or.inr hc⟩

/-- Another start with the same connection and backends. -/
theorem Stays.start {s : Session} (h : Stays (s, x.2) y) (hconn : s.backendConn = x.1.backendConn) :
    Stays x y :=
  ⟨h.unpooled, h.pools, h.log, fun c hc => h.bound c (hconn.trans hc)⟩

/-! ## Giving up -/

/-- Giving up a connection of no pool closes it. -/
theorem releaseBackend_unpooled (h : x.1.Unpooled) :
    (releaseBackend x).1.Unpooled ∧ (releaseBackend x).2.pools = x.2.pools ∧
      (releaseBackend x).2.log = x.2.log := by
  unfold releaseBackend
  cases hheld : x.1.held .backend with
  | none => exact ⟨h, rfl, rfl⟩
  | some hold =>
      have hpool : hold.pool = none := by
        rcases Option.map_eq_some_iff.mp hheld with ⟨c, -, rfl⟩
        rw [h.shard]
        rfl
      dsimp only
      unfold giveUp
      rw [hpool]
      exact ⟨⟨rfl, h.scatter, h.count, h.state⟩, rfl, rfl⟩

/-- The end of a session. -/
theorem sessionDestroy_stays (h : x.1.Unpooled) : Stays x (sessionDestroy x) := by
  rcases releaseBackend_unpooled h with ⟨hunpooled, hpools, hlog⟩
  have hslots : (releaseBackend x).1.slots = [] := by
    rw [Session.slots, hunpooled.count]
    rfl
  unfold sessionDestroy sessionReleaseScatter
  rw [hslots]
  exact ⟨⟨hunpooled.shard, hunpooled.scatter, rfl, hunpooled.state⟩, hpools, hlog,
    fun _ _ _ => Or.inl rfl⟩

/-- The end of a callback. -/
theorem Stays.flush (h : Stays x y) (flush : SendOutcome) : Stays x (flushOrDestroy flush y) := by
  rcases h.unpooled with ⟨hshard, hscatter, hcount, hstate⟩
  have hdestroy := sessionDestroy_stays h.unpooled
  unfold flushOrDestroy sessionSend
  cases y.1.unsent with
  | false => exact ⟨⟨hshard, hscatter, hcount, hstate⟩, h.pools, h.log, h.bound⟩
  | true =>
      cases flush with
      | all => exact ⟨⟨hshard, hscatter, hcount, hstate⟩, h.pools, h.log, h.bound⟩
      | again => exact ⟨⟨hshard, hscatter, hcount, hstate⟩, h.pools, h.log, h.bound⟩
      | failed =>
          exact ⟨hdestroy.unpooled, hdestroy.pools.trans h.pools, hdestroy.log.trans h.log,
            fun _ _ _ => Or.inl rfl⟩

/-! ## Queries -/

/-- The loop leaves the connection and the scatter alone. -/
theorem Intakes.unpooled {s t : Session} (h : Intakes s t) (hs : s.Unpooled) : t.Unpooled where
  shard := h.backend.2.2.trans hs.shard
  scatter := h.sameScatter.scatter.trans hs.scatter
  count := h.sameScatter.count.trans hs.count
  state := h.scatter_iff.not.mpr hs.state

/-- A connection to the default backend. -/
theorem connectToDefault_stays (connects : Bool) (h : x.1.Unpooled) :
    Stays x (connectToDefault connects x).1 := by
  unfold connectToDefault
  by_cases hok : backendOk x = true
  · rw [if_pos hok]
    exact Stays.refl h
  · rw [if_neg hok]
    rcases releaseBackend_unpooled h with ⟨hunpooled, hpools, hlog⟩
    -- a connection that is given up here is not in order
    have hbound : ∀ y : Conf, ∀ c, x.1.backendConn = some c → (x.2.conns c).status = .ok →
        y.1.closed = true ∨ y.1.backendConn = some c := by
      intro y c hc hstatus
      refine absurd ?_ hok
      rw [backendOk, hc]
      exact decide_eq_true hstatus
    cases connects with
    | false => exact ⟨hunpooled, hpools, hlog, hbound _⟩
    | true =>
        exact ⟨⟨rfl, hunpooled.scatter, hunpooled.count, hunpooled.state⟩, hpools, hlog, hbound _⟩

/-- A query is sent on the single backend. -/
theorem sendSingle_stays (sql : Text) (accepts : Bool) (h : Stays x y) :
    Stays x (sendSingle sql accepts y).1 := by
  unfold sendSingle
  cases hconn : y.1.backendConn with
  | none => exact h
  | some c =>
      dsimp only
      cases hsend : y.2.pqSendQuery c y.1.id sql accepts with
      | none => exact h
      | some b =>
          rcases Backends.pqSendQuery_eq_some hsend with ⟨-, -, rfl⟩
          exact ⟨⟨h.unpooled.shard, h.unpooled.scatter, h.unpooled.count, by
            simp [Session.setBusy, Session.setState]⟩, h.pools, h.log, h.bound⟩

/-- An error is answered. -/
theorem refuse_stays (severity code message : Text) (h : Stays x y) :
    Stays x (refuse y.1 severity code message, y.2) :=
  ⟨⟨h.unpooled.shard, h.unpooled.scatter, h.unpooled.count, h.unpooled.state⟩, h.pools, h.log,
    h.bound⟩

/-- A query without a shard map. -/
theorem handleUnsharded_stays (sql : Text) (input : ClientInput) (h : x.1.Unpooled) :
    Stays x (handleUnsharded sql input x) := by
  have hconnect := connectToDefault_stays (input.connects 0) h
  unfold handleUnsharded
  rcases hres : connectToDefault (input.connects 0) x with ⟨y, _ | _⟩ <;> rw [hres] at hconnect
  · exact refuse_stays _ _ _ hconnect
  · have hsend := sendSingle_stays sql (input.accepts 0) hconnect
    dsimp only
    rcases hsent : sendSingle sql (input.accepts 0) y with ⟨z, _ | _⟩ <;> rw [hsent] at hsend
    · exact refuse_stays _ _ _ hsend
    · exact hsend

/-- The events of the client's socket. -/
theorem ClientCase.stays (hcfg : cfg.shardMap.shards = []) {input : ClientInput}
    (h : ClientCase cfg input x y) (hx : x.1.Unpooled) : Stays x y := by
  cases h with
  | skip => exact Stays.refl hx
  | destroy => exact sessionDestroy_stays hx
  | flush => exact (Stays.refl hx).flush input.flush
  | input bytes r hcallback hhangup hrecv hcase =>
      have hinput : Stays x r.1 := by
        have hreceived : (x.1.receive bytes).Unpooled :=
          ⟨hx.shard, hx.scatter, hx.count, hx.state⟩
        cases hcase with
        | ret s ok hloop =>
            have hs := Intakes.unpooled hloop hreceived
            have hconn := (Intakes.backend hloop).2.1
            exact (Stays.refl (x := (s, x.2)) hs).start hconn
        | query t n sql r hloop hstate hexit hquery =>
            have ht := Intakes.unpooled hloop hreceived
            have hconn := (Intakes.backend hloop).2.1
            have hr : r = (handleUnsharded sql input
                (({ t with recvBuf := t.recvBuf.consume n } : Session).countQuery, x.2), true) := by
              rw [handleQuery, if_pos hcfg, Option.some.injEq] at hquery
              exact hquery.symm
            rw [hr]
            refine (handleUnsharded_stays sql input ?_).start hconn
            exact ⟨ht.shard, ht.scatter, ht.count, ht.state⟩
      rcases r with ⟨z, ok⟩
      cases ok with
      | false =>
          have hdestroy := sessionDestroy_stays hinput.unpooled
          exact ⟨hdestroy.unpooled, hdestroy.pools.trans hinput.pools,
            hdestroy.log.trans hinput.log, fun _ _ _ => Or.inl rfl⟩
      | true =>
          unfold afterInput
          dsimp only
          split
          · exact hinput.flush input.flush
          · exact hinput

/-! ## The backend -/

/-- A connection of no pool is not given back with a ReadyForQuery. -/
theorem reportReady_stays (h : Stays x y) : Stays x (reportReady c y) := by
  unfold reportReady
  dsimp only
  rw [if_neg]
  · exact ⟨⟨h.unpooled.shard, h.unpooled.scatter, h.unpooled.count, h.unpooled.state⟩, h.pools,
      h.log, h.bound⟩
  · rintro ⟨-, hshard⟩
    have hnone : (y.1.queueReady (txnStatusOf (pqTransactionStatus (y.2.conns c)))).backendShard =
        none := h.unpooled.shard
    rw [hnone] at hshard
    cases hshard

theorem setState_stays {state : SessionState} (hstate : state ≠ .scatter) (h : Stays x y) :
    Stays x (y.1.setState state, y.2) :=
  ⟨⟨h.unpooled.shard, h.unpooled.scatter, h.unpooled.count, hstate⟩, h.pools, h.log, h.bound⟩

theorem queueAll_stays (origin : Origin) (msgs : List BackendMsg) (h : Stays x y) :
    Stays x (y.1.queueAll origin msgs, y.2) :=
  ⟨⟨h.unpooled.shard, h.unpooled.scatter, h.unpooled.count, h.unpooled.state⟩, h.pools, h.log,
    h.bound⟩

/-- The command of the backend is over. -/
theorem endCommand_stays (xact : Xact) (h : Stays x y) :
    Stays x (y.1.noteOver .backend, y.2.endCommand c xact) :=
  ⟨⟨h.unpooled.shard, h.unpooled.scatter, h.unpooled.count, h.unpooled.state⟩, h.pools, h.log,
    h.bound⟩

/-- The end of an answer. -/
theorem finishSingle_stays (h : Stays x y) : Stays x (finishSingle c y) := by
  have hready := reportReady_stays (c := c) h
  exact ⟨⟨hready.unpooled.shard, hready.unpooled.scatter, hready.unpooled.count, by
    simp [finishSingle, Session.setState]⟩, hready.pools, hready.log, hready.bound⟩

/-- The end of a copy to the client. -/
theorem finishCopyOut_stays (command : Command) (xact : Xact) (final : Option PGresult)
    (h : Stays x y) : Stays x (finishCopyOut c command xact final y) := by
  have hdone := queueAll_stays (.result c command) [.copyDone] h
  unfold finishCopyOut
  dsimp only
  apply setState_stays (by simp)
  apply reportReady_stays
  cases final with
  | none => exact endCommand_stays xact hdone
  | some res =>
      dsimp only
      split
      · exact queueAll_stays _ _ hdone
      · exact hdone

/-- The results of the single backend. -/
theorem drainSingle_stays (command : Command) (input : BackendInput) (h : x.1.Unpooled) :
    Stays x (drainSingle c command input x) := by
  have hresults := queueAll_stays (.result c command) (singleMessages false input.results).1
    (Stays.refl h)
  unfold drainSingle
  dsimp only
  cases (singleMessages false input.results).2 with
  | null => exact finishSingle_stays (endCommand_stays input.xact hresults)
  | copyIn nfields => exact setState_stays (by simp) (queueAll_stays _ _ hresults)
  | copyOut nfields =>
      have hstate : SessionState.copyOut ≠ .scatter := by simp
      have hannounced := setState_stays hstate
        (queueAll_stays (.result c command) [.copyOutResponse nfields] hresults)
      have hcopy := queueAll_stays (.result c command) (input.copyChunks.map .copyData) hannounced
      unfold copyOutRead
      dsimp only
      cases input.copyEnd with
      | pending => exact hcopy
      | failed => exact hcopy
      | done final => exact finishCopyOut_stays command input.xact final hcopy

/-- The events of the single backend. -/
theorem BackendCase.stays {input : BackendInput} {flush : SendOutcome}
    (h : BackendCase input flush x y) (hx : x.1.Unpooled) : Stays x y := by
  cases h with
  | lost message b hb =>
      have hb' : b.pools = x.2.pools ∧ b.log = x.2.log := by
        rcases hb with rfl | ⟨c, status, -, rfl⟩ <;> exact ⟨rfl, rfl⟩
      have hsent : (sessionSend flush (x.1.feSendError (ascii "FATAL") (ascii "08006")
          message)).1.Unpooled := by
        unfold sessionSend
        split
        · cases flush <;> exact ⟨hx.shard, hx.scatter, hx.count, hx.state⟩
        · exact ⟨hx.shard, hx.scatter, hx.count, hx.state⟩
      have hdestroy := sessionDestroy_stays (x := (_, b)) hsent
      exact ⟨hdestroy.unpooled, hdestroy.pools.trans hb'.1, hdestroy.log.trans hb'.2,
        fun _ _ _ => Or.inl rfl⟩
  | skip => exact Stays.refl hx
  | quiet c hconn hhangup hcommand => exact (finishSingle_stays (Stays.refl hx)).flush flush
  | drain c command hconn hhangup hcommand =>
      exact (drainSingle_stays command input hx).flush flush

end Stays

/-! ## Runs -/

/-- No pool was ever used, and no session has to do with one. -/
structure Proxy.Private (p : Proxy) : Prop where
  sessions : ∀ sid, (p.sessions sid).Unpooled
  idle : ∀ i, (p.backends.pools i).idleConns = []
  active : ∀ i, (p.backends.pools i).activeCount = 0
  log : p.backends.log = []

/-- A callback of a session. -/
theorem Proxy.Private.put {p : Proxy} (h : p.Private) {sid : Nat} {y : Conf}
    (hstays : Stays (p.conf sid) y) : (p.put sid y).Private := by
  have hpools : (p.put sid y).backends.pools = p.backends.pools := hstays.pools
  refine ⟨fun t => ?_, fun i => ?_, fun i => ?_, hstays.log.trans h.log⟩
  · by_cases ht : t = sid
    · subst ht
      rw [Proxy.put_session]
      exact hstays.unpooled
    · rw [Proxy.put_other ht]
      exact h.sessions t
  · rw [hpools]
    exact h.idle i
  · rw [hpools]
    exact h.active i

section Runs

variable {cfg : Config} {p p' : Proxy}

theorem start_private (cfg : Config) : (Proxy.start cfg).Private :=
  ⟨fun _ => ⟨rfl, rfl, rfl, by simp [Proxy.start]⟩, fun _ => rfl, fun _ => rfl, rfl⟩

/-- What a step does to the sessions of a proxy without a shard map. -/
theorem step_private (hcfg : cfg.shardMap.shards = []) {e : Event}
    (hstep : step cfg p e = some p') (h : p.Private) :
    p'.Private ∧ ∀ sid c, p.alive sid → (p.sessions sid).backendConn = some c →
      (p.backends.conns c).status = .ok →
      (p'.sessions sid).closed = true ∨ (p'.sessions sid).backendConn = some c := by
  -- a callback of one session leaves the others alone
  have hput : ∀ sid y, Stays (p.conf sid) y → (p.put sid y).Private ∧
      ∀ t c, p.alive t → (p.sessions t).backendConn = some c →
        (p.backends.conns c).status = .ok →
        ((p.put sid y).sessions t).closed = true ∨
          ((p.put sid y).sessions t).backendConn = some c := by
    intro sid y hstays
    refine ⟨h.put hstays, fun t c _ hconn hok => ?_⟩
    by_cases ht : t = sid
    · subst ht
      rw [Proxy.put_session]
      exact hstays.bound c hconn hok
    · rw [Proxy.put_other ht]
      exact Or.inr hconn
  cases e with
  | scatter sid i input flush =>
      -- no slot was ever used
      simp [step, (h.sessions sid).scatter] at hstep
  | accept pid secretKey =>
      cases step_case hstep
      refine ⟨⟨fun t => ?_, h.idle, h.active, h.log⟩, fun t c halive hconn _ => ?_⟩
      · by_cases ht : t = p.created
        · subst ht
          rw [Proxy.accept_new]
          exact ⟨rfl, rfl, rfl, by simp⟩
        · rw [Proxy.accept_other ht]
          exact h.sessions t
      · rw [Proxy.accept_other (Nat.ne_of_lt halive.1)]
        exact Or.inr hconn
  | client sid input =>
      cases step_case hstep with
      | client _ _ y halive hcase => exact hput sid y (hcase.stays hcfg (h.sessions sid))
  | backend sid input flush =>
      cases step_case hstep with
      | backend _ _ _ y halive hcase => exact hput sid y (hcase.stays (h.sessions sid))
  | healthCheck =>
      cases step_case hstep
      rw [hcfg]
      exact ⟨h, fun t c _ hconn _ => Or.inr hconn⟩
  | connLost c =>
      cases step_case hstep
      exact ⟨⟨h.sessions, h.idle, h.active, h.log⟩, fun t c _ hconn _ => Or.inr hconn⟩

/-- Every state of every run. -/
theorem private_of_reaches {guard : Proxy → Event → Prop} (hcfg : cfg.shardMap.shards = [])
    (h : ProxyReaches cfg guard p) : p.Private := by
  refine h.invariant (start_private cfg) ?_
  intro q e q' _ hinv _ hstep
  exact (step_private hcfg hstep hinv).1

/-- Without a shard map no pool is ever used and no query scattered, whatever the events are, and
the next event separates no session from a connection that is in order, unless it ends the
session. -/
theorem unsharded_sessions_private (hcfg : cfg.shardMap.shards = [])
    (h : ProxyReaches cfg anyEvent p) :
    p.Private ∧ ∀ e p', step cfg p e = some p' → ∀ sid c, p.alive sid →
      (p.sessions sid).backendConn = some c → (p.backends.conns c).status = .ok →
      (p'.sessions sid).closed = true ∨ (p'.sessions sid).backendConn = some c := by
  have hprivate := private_of_reaches hcfg h
  exact ⟨hprivate, fun e p' hstep => (step_private hcfg hstep hprivate).2⟩

/-- A client is in a transaction on the default backend, and stays on it with its next query. -/
theorem unsharded_block_kept :
    ∃ p p', ProxyReaches plainConfig anyEvent p ∧ p.Private ∧
      step plainConfig p (demoQuery 0 (ascii "COMMIT")) = some p' ∧
      (p.sessions 0).backendConn = some 0 ∧ (p.backends.conns 0).xact = .inTrans ∧
      (p'.sessions 0).closed = false ∧ (p'.sessions 0).backendConn = some 0 := by
  have hrun : runsTo (step plainConfig) anyEvent
      (demoLogin 0 ++
        [demoQuery 0 (ascii "BEGIN"),
          .backend 0 { results := [{ status := .commandOk }], xact := .inTrans } .all])
      (Proxy.start plainConfig)
      (fun p => p.alive 0 ∧ (p.sessions 0).backendConn = some 0 ∧
        (p.backends.conns 0).status = .ok ∧ (p.backends.conns 0).xact = .inTrans ∧
        (step plainConfig p (demoQuery 0 (ascii "COMMIT"))).any
          (fun p' => !(p'.sessions 0).closed) = true) = true := by
    decide +kernel
  rcases exists_reached hrun with ⟨p, hp, halive, hconn, hok, hblock, hnext⟩
  rcases (Option.any_eq_true _ _).mp hnext with ⟨p', hstep, hopen⟩
  rw [Bool.not_eq_true'] at hopen
  rcases unsharded_sessions_private rfl hp with ⟨hprivate, hkept⟩
  have hsame : (p'.sessions 0).backendConn = some 0 :=
    (hkept _ p' hstep 0 0 halive hconn hok).resolve_left (by rw [hopen]; exact Bool.false_ne_true)
  exact ⟨p, p', hp, hprivate, hstep, hconn, hblock, hopen, hsame⟩

end Runs

end Sharegres
