import Sharegres.Session.ScatterFailures
import Sharegres.System.PooledIdle
import Sharegres.System.ReadyForQuery

/-!
# System - What a ReadyForQuery reports

The status byte of a ReadyForQuery is computed from the backend in two places and is
{lit}`I` in all others.  The parts of a callback that queue one are listed as pairs of
states, the one before and the one after it; the report is compared with the transaction
status the server of {lit}`backend_conn` has in the second.

Main results:

- Definitions {lit}`trueStatus` and {lit}`Truthful`: the status to report, and that every
  ReadyForQuery of a part reports it.
- Definition {lit}`answersItself`: the queries the proxy answers without a backend.
- Theorems {lit}`loop_truthful_iff`, {lit}`handleQuery_truthful_iff`,
  {lit}`drainSingle_truthful_iff` and {lit}`gathered_truthful_iff`: when the reports of each
  part are true.
-/

namespace Sharegres

open Foundation

variable {b : Backends} {command : Command} {s s' : Session} {sql : Text} {status : TxnStatus}
  {cfg : Config} {c : ConnId} {u v w x y z : Conf}

/-! ## The true status -/

/-- The transaction status of the server as it last reported it.  The transaction of a
connection that failed is gone. -/
def PGconn.txnStatus (conn : PGconn) : TxnStatus :=
  match conn.status, conn.xact with
  | .ok, .inTrans => .inTransaction
  | .ok, .inError => .failed
  | _, _ => .idle

/-- A connection is idle in this sense outside a block. -/
theorem PGconn.txnStatus_idle_iff (conn : PGconn) :
    conn.txnStatus = .idle ↔ conn.inBlock = false := by
  unfold txnStatus inBlock
  cases conn.status <;> cases conn.xact <;> simp

/-- The library knows the status while no command is in progress. -/
theorem PGconn.report_quiet {conn : PGconn} (h : conn.command = none) :
    txnStatusOf (pqTransactionStatus conn) = conn.txnStatus := by
  unfold pqTransactionStatus txnStatus
  cases conn.status <;> cases conn.xact <;> simp [h, txnStatusOf]

/-- While a command is in progress the report is idle. -/
theorem PGconn.report_busy {conn : PGconn} (h : conn.command ≠ none) :
    txnStatusOf (pqTransactionStatus conn) = .idle := by
  have hsome : conn.command.isSome := Option.isSome_iff_ne_none.mpr h
  unfold pqTransactionStatus
  cases conn.status <;> simp [hsome, txnStatusOf]

/-- The status a ReadyForQuery has to report: that of {lit}`backend_conn`, or idle without
a connection. -/
def trueStatus (x : Conf) : TxnStatus :=
  match x.1.backendConn with
  | none => .idle
  | some c => (x.2.conns c).txnStatus

theorem trueStatus_none (h : x.1.backendConn = none) : trueStatus x = .idle := by
  rw [trueStatus, h]

/-- The status of its backend. -/
theorem trueStatus_some (h : x.1.backendConn = some c) :
    trueStatus x = (x.2.conns c).txnStatus := by
  rw [trueStatus, h]

/-- A session is idle outside a block. -/
theorem trueStatus_idle_iff (x : Conf) : trueStatus x = .idle ↔ Conf.inBlock x = false := by
  cases hconn : x.1.backendConn with
  | none => simp [trueStatus_none hconn, inBlock_of_none hconn]
  | some c =>
      rw [trueStatus_some hconn, inBlock_of_some hconn]
      exact (x.2.conns c).txnStatus_idle_iff

/-! ## Reports -/

/-- The ReadyForQuery messages queued between two states of a session. -/
def newReadies (u v : Conf) : List Queued :=
  v.1.readies.drop u.1.readies.length

/-- Every ReadyForQuery queued between the states carries the status the backend of the
session has at the end. -/
def Truthful (u v : Conf) : Prop :=
  ∀ q ∈ newReadies u v, q.msg = .readyForQuery (trueStatus v)

instance (u v : Conf) : Decidable (Truthful u v) :=
  inferInstanceAs (Decidable (∀ q ∈ newReadies u v, _))

/-- One ReadyForQuery was queued. -/
def OneReady (u v : Conf) (status : TxnStatus) : Prop :=
  ∃ awaited, v.1.readies = u.1.readies ++ [⟨.readyForQuery status, .ready awaited⟩]

/-- The reports behind those that were there. -/
theorem newReadies_of_append {new : List Queued} (h : v.1.readies = u.1.readies ++ new) :
    newReadies u v = new := by
  rw [newReadies, h, List.drop_left]

/-- What is new after two parts is new in one of them. -/
theorem mem_newReadies {q : Queued} (h : q ∈ newReadies u w)
    (hextends : v.1.readies <+: w.1.readies) : q ∈ newReadies u v ∨ q ∈ newReadies v w := by
  rcases hextends with ⟨new, hnew⟩
  rw [newReadies_of_append hnew.symm]
  unfold newReadies at h ⊢
  rw [← hnew, List.drop_append] at h
  exact (List.mem_append.mp h).imp_right List.mem_of_mem_drop

theorem newReadies_of_same (h : v.1.readies = u.1.readies) : newReadies u v = [] :=
  newReadies_of_append (by rw [h, List.append_nil])

/-- Without a report nothing is wrong. -/
theorem truthful_of_same (h : v.1.readies = u.1.readies) : Truthful u v := by
  intro q hq
  rw [newReadies_of_same h] at hq
  cases hq

theorem OneReady.readies_extend (h : OneReady u v status) :
    u.1.readies <+: v.1.readies := by
  rcases h with ⟨awaited, hnew⟩
  exact ⟨_, hnew.symm⟩

/-- A single report is truthful if it is the true status. -/
theorem OneReady.truthful_iff (h : OneReady u v status) :
    Truthful u v ↔ trueStatus v = status := by
  rcases h with ⟨awaited, hnew⟩
  unfold Truthful
  rw [newReadies_of_append hnew]
  simp [eq_comm]

/-- An idle report is true outside a block. -/
theorem OneReady.idle_truthful_iff (h : OneReady u v .idle) :
    Truthful u v ↔ Conf.inBlock v = false :=
  h.truthful_iff.trans (trueStatus_idle_iff v)

/-- A report is queued before quiet steps. -/
theorem oneReady_of_quiet {s t : Session} (hsame : s.readies = u.1.readies)
    (hreport : Quiet (s.queueReady status) t) :
    OneReady u (t, b) status := by
  refine ⟨s.awaited.card, hreport.readies.trans ?_⟩
  rw [s.readies_queueReady, hsame]

/-- An error that the proxy answers reports an idle session. -/
theorem refuse_truthful_iff {severity code message : Text}
    (hsame : z.1.readies = u.1.readies) :
    Truthful u (refuse z.1 severity code message, z.2) ↔ Conf.inBlock z = false := by
  have hready : OneReady u (refuse z.1 severity code message, z.2) .idle :=
    oneReady_of_quiet ((Quiet.feSendError z.1 severity code message).readies.trans hsame)
      (Quiet.refl _)
  exact hready.idle_truthful_iff

/-! ## The loop over the client's messages -/

/-- The ReadyForQuery messages of some rounds: they are idle, and after startup there is
one for every message of the extended protocol. -/
structure Heard (s s' : Session) (new : List Queued) : Prop where
  readies : s'.readies = s.readies ++ new
  idle : ∀ q ∈ new, q.msg = .readyForQuery .idle
  extended : s.state ≠ .init → s'.extended = s.extended + new.length
  state : s.state ≠ .init → s'.state ≠ .init

theorem Heard.trans {s s' s'' : Session} {new new' : List Queued} (h : Heard s s' new)
    (h' : Heard s' s'' new') : Heard s s'' (new ++ new') where
  readies := by rw [h'.readies, h.readies, List.append_assoc]
  idle q hq := (List.mem_append.mp hq).elim (h.idle q) (h'.idle q)
  extended hinit := by
    rw [h'.extended (h.state hinit), h.extended hinit, List.length_append, Nat.add_assoc]
  state hinit := h'.state (h.state hinit)

theorem Heard.nothing (hreadies : s'.readies = s.readies) (hextended : s'.extended = s.extended)
    (hstate : s.state ≠ .init → s'.state ≠ .init) :
    Heard s s' [] where
  readies := by rw [hreadies, List.append_nil]
  idle q hq := by cases hq
  extended _ := hextended
  state := hstate

/-- A round of the receive loop. -/
theorem Intake.heard (h : Intake s s') : ∃ new, Heard s s' new := by
  cases h with
  | same => exact ⟨[], .nothing rfl rfl id⟩
  | consume n => exact ⟨[], .nothing rfl rfl id⟩
  | sslRefused n hstate =>
      have hqueue : (s.queue .proxy .sslRefused).readies = s.readies :=
        s.filter_queueAll (by simp [BackendMsg.isReady])
      exact ⟨[], .nothing hqueue rfl id⟩
  | startup n user database hstate =>
      refine ⟨[⟨.readyForQuery .idle, .ready s.awaited.card⟩], ?_, by simp, ?_, ?_⟩
      · refine (Session.readies_queueReady _ .idle).trans ?_
        congr 1
        exact Session.filter_queueAll _ (by simp [startupMessages, BackendMsg.isReady])
      · exact fun hinit => absurd hstate hinit
      · exact fun hinit => absurd hstate hinit
  | copyPut n put after hstate hafter =>
      refine ⟨[], .nothing rfl rfl fun _ => ?_⟩
      rcases hafter with rfl | rfl <;> simp
  | extended n hstate =>
      refine ⟨[⟨.readyForQuery .idle, .ready s.awaited.card⟩], ?_, by simp, fun _ => rfl, id⟩
      refine (Session.readies_queueReady _ .idle).trans ?_
      congr 1
      exact Session.filter_queueAll _ (by simp [msgWriteError, BackendMsg.isReady])

theorem Intakes.heard (h : Intakes s s') : ∃ new, Heard s s' new := by
  induction h with
  | refl => exact ⟨[], .nothing rfl rfl id⟩
  | tail _ hlast ih =>
      rcases ih with ⟨new, hnew⟩
      rcases hlast.heard with ⟨new', hnew'⟩
      exact ⟨new ++ new', hnew.trans hnew'⟩

/-- The loop reports the truth unless it answers a message of the extended protocol inside
a block. -/
theorem loop_truthful_iff (h : Intakes s s') (hfresh : s.state = .init → s.backendConn = none) :
    Truthful (s, b) (s', b) ↔ (Conf.inBlock (s, b) = true → s'.extended = s.extended) := by
  rcases h.heard with ⟨new, hnew⟩
  have hsame : Conf.inBlock (s', b) = Conf.inBlock (s, b) := by
    unfold Conf.inBlock
    rw [h.backend.2.1]
  have hreadies : newReadies (s, b) (s', b) = new := newReadies_of_append hnew.readies
  cases hblock : Conf.inBlock (s, b) with
  | false =>
      have hidle : trueStatus (s', b) = .idle :=
        (trueStatus_idle_iff _).mpr (hsame.trans hblock)
      refine iff_of_true ?_ (by simp)
      intro q hq
      rw [hidle]
      exact hnew.idle q (hreadies ▸ hq)
  | true =>
      have hinit : s.state ≠ .init := by
        intro hinit
        rw [inBlock_of_none (x := (s, b)) (hfresh hinit)] at hblock
        cases hblock
      have hbusy : trueStatus (s', b) ≠ .idle := by
        rw [Ne, trueStatus_idle_iff, hsame, hblock]
        simp
      rw [hnew.extended hinit]
      constructor
      · intro htrue _
        cases new with
        | nil => rfl
        | cons q rest =>
            have hq := htrue q (hreadies ▸ List.mem_cons_self)
            rw [hnew.idle q List.mem_cons_self, BackendMsg.readyForQuery.injEq] at hq
            exact absurd hq.symm hbusy
      · intro hnone
        have hnil : new = [] := List.length_eq_zero_iff.mp (by have := hnone rfl; omega)
        intro q hq
        rw [hreadies, hnil] at hq
        cases hq

/-! ## Query messages -/

/-- The library does not take a query for the single backend. -/
def sendRefused (sql : Text) (accepts : Bool) (x : Conf) : Bool :=
  match x.1.backendConn with
  | none => true
  | some c => (x.2.pqSendQuery c x.1.id sql accepts).isNone

/-- The query is sent on the single backend, or the library does not take it. -/
theorem sendSingle_refused (sql : Text) (accepts : Bool) (x : Conf) :
    sendRefused sql accepts x = true ∧ sendSingle sql accepts x = (x, false) ∨
      sendRefused sql accepts x = false ∧
        ∃ c b, sendSingle sql accepts x = ((x.1.waitSingle c sql, b), true) := by
  unfold sendRefused sendSingle
  cases x.1.backendConn with
  | none => exact Or.inl ⟨rfl, rfl⟩
  | some c =>
      dsimp only
      cases x.2.pqSendQuery c x.1.id sql accepts with
      | none => exact Or.inl ⟨rfl, rfl⟩
      | some b => exact Or.inr ⟨rfl, c, b, rfl⟩

/-- A query is sent on the connection there is, or refused. -/
theorem sendSingle_truthful_iff {severity code message sql : Text} {accepts : Bool}
    (hsame : z.1.readies = u.1.readies) :
    Truthful u
        (match sendSingle sql accepts z with
        | (x, false) => (refuse x.1 severity code message, x.2)
        | (x, true) => x) ↔
      (Conf.inBlock z = true → sendRefused sql accepts z = false) := by
  rcases sendSingle_refused sql accepts z with ⟨hrefused, hsend⟩ | ⟨htaken, c, b, hsend⟩
  · rw [hsend, hrefused]
    refine (refuse_truthful_iff hsame).trans ?_
    simp
  · rw [hsend, htaken]
    exact iff_of_true (truthful_of_same hsame) fun _ => rfl

/-- A query without a shard map. -/
theorem handleUnsharded_truthful_iff {input : ClientInput} (hsame : x.1.readies = u.1.readies) :
    Truthful u (handleUnsharded sql input x) ↔
      (Conf.inBlock x = true → sendRefused sql (input.accepts 0) x = false) := by
  have hconnect := (connectToDefault_quiet (input.connects 0) x).readies.trans hsame
  unfold handleUnsharded
  rcases connectToDefault_inBlock (input.connects 0) x with hkept | ⟨hout, hbad⟩
  · rw [hkept]
    exact sendSingle_truthful_iff hsame
  · have hx : Conf.inBlock x = true → sendRefused sql (input.accepts 0) x = false := by
      intro hblock
      cases hconn : x.1.backendConn with
      | none =>
          rw [inBlock_of_none hconn] at hblock
          cases hblock
      | some c =>
          rw [inBlock_of_some hconn] at hblock
          rw [backendOk_of_inBlock hconn hblock] at hbad
          cases hbad
    refine iff_of_true ?_ hx
    generalize connectToDefault (input.connects 0) x = r at hconnect hout ⊢
    rcases r with ⟨z, _ | _⟩
    · exact (refuse_truthful_iff hconnect).mpr hout
    · refine (sendSingle_truthful_iff hconnect).mpr fun hblock => ?_
      rw [hout] at hblock
      cases hblock

/-- A query for one backend. -/
theorem executeOrRefuse_truthful_iff {sql message : Text} {shard : Option Shard}
    {input : ClientInput} (hsame : x.1.readies = u.1.readies) (hpools : x.2.PooledIdle) :
    Truthful u (executeOrRefuse sql shard message input x) ↔
      (Conf.inBlock x = true → x.1.backendShard.map Shard.index = shard.map Shard.index →
        sendRefused sql (input.accepts 0) x = false) := by
  have hconnect := ((swapBackend_quiet shard x).trans
    (connectSingle_quiet shard (input.connects 0) (swapBackend shard x))).readies.trans hsame
  unfold executeOrRefuse executeSingle
  rcases connectSingle_inBlock shard (input.connects 0) hpools with
    ⟨hshard, hkept⟩ | ⟨hout, hother⟩
  · rw [hkept]
    refine (sendSingle_truthful_iff hsame).trans ?_
    exact ⟨fun h hblock _ => h hblock, fun h hblock => h hblock hshard⟩
  · refine iff_of_true ?_ fun hblock hshard => absurd hshard (hother hblock)
    generalize connectSingle shard (input.connects 0) (swapBackend shard x) = r at hconnect hout ⊢
    rcases r with ⟨z, _ | _⟩
    · exact (refuse_truthful_iff hconnect).mpr hout
    · refine (sendSingle_truthful_iff hconnect).mpr fun hblock => ?_
      rw [hout] at hblock
      cases hblock

/-! ## Scattered queries -/

/-- The query is answered because none of its targets could be reached. -/
def scatterRefused (sql : Text) (targets : List Shard) (input : ClientInput) (x : Conf) : Bool :=
  targets.length ≤ maxScatterShards ∧
    allFailAtStart sql input x.1.id ((List.finRange maxScatterShards).zip targets) x.2

/-- A scattered query reports only if it is refused. -/
theorem executeScatter_reports (sql : Text) (targets : List Shard) (input : ClientInput)
    (x : Conf) :
    scatterRefused sql targets input x = false ∧
        (executeScatter sql targets input x).1.1.readies = x.1.readies ∨
      scatterRefused sql targets input x = true ∧
        OneReady x (executeScatter sql targets input x).1 .idle := by
  have hout : (startScatter sql targets input x).1.readies = x.1.readies :=
    congrArg (List.filter _) (startScatter_started sql targets input x).out
  unfold executeScatter scatterRefused
  by_cases hmany : maxScatterShards < targets.length
  · rw [if_pos hmany, decide_eq_false_iff_not]
    exact Or.inl ⟨by omega, rfl⟩
  · have hfit := Nat.le_of_not_lt hmany
    rw [if_neg hmany, decide_eq_true_eq, decide_eq_false_iff_not, and_iff_right hfit,
      ← startScatter_done sql targets input x hfit]
    dsimp only
    split
    · rename_i hall
      refine Or.inr ⟨hall, (startScatter sql targets input x).1.awaited.card, ?_⟩
      refine (Session.readies_queueReady _ .idle).trans ?_
      rw [(Quiet.feSendError _ _ _ _).readies, hout]
      rfl
    · rename_i hsome
      exact Or.inl ⟨hsome, hout⟩

/-- A scattered query.  Its slots are not the single backend. -/
theorem executeScatter_truthful_iff {targets : List Shard} {input : ClientInput}
    (hsame : x.1.readies = u.1.readies)
    (hframe : ∀ y, Ops True slotPlaces (view x) (view y) → Conf.inBlock y = Conf.inBlock x) :
    Truthful u (executeScatter sql targets input x).1 ↔
      (Conf.inBlock x = true → scatterRefused sql targets input x = false) := by
  have hops : Ops True slotPlaces _ _ := executeScatter_ops sql targets input x (Or.inl trivial)
  rcases executeScatter_reports sql targets input x with ⟨htaken, hnone⟩ | ⟨hrefused, n, hready⟩
  · rw [htaken]
    exact iff_of_true (truthful_of_same (hnone.trans hsame)) fun _ => rfl
  · rw [hsame] at hready
    have hone : OneReady u (executeScatter sql targets input x).1 .idle := ⟨n, hready⟩
    rw [hone.idle_truthful_iff, hframe _ hops, hrefused]
    simp

/-- The proxy answers the query by itself and the session keeps its connection: a syntax
error, a statement handled locally, a scattered query none of whose targets can be reached,
or a query for the connection there is that the library does not take. -/
def answersItself (cfg : Config) (sql : Text) (input : ClientInput) (x : Conf) : Bool :=
  if cfg.shardMap.shards = [] then sendRefused sql (input.accepts 0) x
  else
    match parseQuery cfg.pgQueryParse sql with
    | none => false
    | some (rc, parsed) =>
        if rc < 0 then true
        else
          match routerDecide cfg.shardMap parsed with
          | none => false
          | some decision =>
              match decision.type with
              | .single =>
                  x.1.backendShard.map Shard.index =
                      decision.targetShards.head?.map Shard.index ∧
                    sendRefused sql (input.accepts 0) x
              | .scatter => scatterRefused sql decision.targetShards input x
              | .local => true
              | .default =>
                  x.1.backendShard.map Shard.index = none ∧ sendRefused sql (input.accepts 0) x

/-- A Query message is answered truthfully unless the proxy answers it by itself inside a
block. -/
theorem handleQuery_truthful_iff {input : ClientInput} {r : Conf × Bool}
    (h : handleQuery cfg sql input x = some r) (hpools : x.2.PooledIdle)
    (hframe : ∀ y, Ops True slotPlaces (view x) (view y) → Conf.inBlock y = Conf.inBlock x) :
    Truthful x r.1 ↔ (Conf.inBlock x = true → answersItself cfg sql input x = false) := by
  have hcount : x.1.countQuery.readies = x.1.readies := rfl
  have hblock : Conf.inBlock (x.1.countQuery, x.2) = Conf.inBlock x := rfl
  unfold answersItself
  rcases handleQuery_cases h with ⟨hnone, rfl⟩ | ⟨⟨hsome, rc, parsed, hparse, hrc⟩, rfl⟩ |
    ⟨hsome, rc, parsed, decision, hparse, hrc, hroute, rfl⟩
  · rw [if_pos hnone]
    exact handleUnsharded_truthful_iff (x := (x.1.countQuery, x.2)) hcount
  · rw [if_neg hsome, hparse]
    dsimp only
    rw [if_pos hrc]
    refine (refuse_truthful_iff (z := (x.1.countQuery, x.2)) hcount).trans ?_
    simp [hblock]
  · rw [if_neg hsome, hparse]
    dsimp only
    rw [if_neg (by omega), hroute]
    dsimp only
    unfold executeRoute
    cases decision.type with
    | single =>
        refine (executeOrRefuse_truthful_iff (x := (x.1.countQuery, x.2)) hcount hpools).trans ?_
        simp only [decide_eq_false_iff_not, not_and, Bool.not_eq_true]
        exact Iff.rfl
    | scatter =>
        exact executeScatter_truthful_iff (x := (x.1.countQuery, x.2)) hcount hframe
    | «local» =>
        have hready : OneReady x
            ((x.1.countQuery.queue .proxy (.commandComplete (ascii "SET"))).queueReady .idle, x.2)
            .idle :=
          oneReady_of_quiet (Quiet.queue x.1.countQuery rfl (by simp)).readies (Quiet.refl _)
        refine hready.idle_truthful_iff.trans ?_
        change Conf.inBlock x = false ↔ _
        simp
    | default =>
        refine (executeOrRefuse_truthful_iff (x := (x.1.countQuery, x.2)) hcount hpools).trans ?_
        simp only [decide_eq_false_iff_not, not_and, Bool.not_eq_true]
        exact Iff.rfl

/-! ## The single backend -/

/-- The report of the single backend is true unless a command is in progress inside a
block. -/
theorem reportReady_truthful_iff (hsame : x.1.readies = u.1.readies)
    (hconn : x.1.backendConn = some c) :
    Truthful u (reportReady c x) ↔
      (Conf.inBlock x = true → (x.2.conns c).command = none) := by
  have hready : OneReady u (reportReady c x)
      (txnStatusOf (pqTransactionStatus (x.2.conns c))) :=
    oneReady_of_quiet hsame (reportReady_quiet c x)
  rw [hready.truthful_iff, inBlock_of_some hconn]
  unfold reportReady
  dsimp only
  by_cases hidle : pqTransactionStatus (x.2.conns c) = .idle
  · have hout := inBlock_of_idle hidle
    have hquiet := (pqTransactionStatus_idle hidle).2.1
    refine iff_of_true ?_ fun _ => hquiet
    rw [hidle]
    split
    · exact trueStatus_none (releaseBackend_backendConn _)
    · have htrue : trueStatus (x.1.queueReady (txnStatusOf .idle), x.2) =
          (x.2.conns c).txnStatus := trueStatus_some hconn
      exact htrue.trans ((x.2.conns c).txnStatus_idle_iff.mpr hout)
  · rw [if_neg fun h => hidle h.1]
    have htrue : trueStatus (x.1.queueReady (txnStatusOf (pqTransactionStatus (x.2.conns c))),
        x.2) = (x.2.conns c).txnStatus := trueStatus_some hconn
    rw [htrue]
    by_cases hcommand : (x.2.conns c).command = none
    · exact iff_of_true (PGconn.report_quiet hcommand).symm fun _ => hcommand
    · rw [PGconn.report_busy hcommand]
      refine (x.2.conns c).txnStatus_idle_iff.trans ?_
      simp [hcommand]

theorem setState_truthful_iff {state : SessionState} :
    Truthful u (s.setState state, b) ↔ Truthful u (s, b) :=
  Iff.rfl

/-- The end of an answer asks the backend for its status. -/
theorem finishSingle_truthful (hsame : x.1.readies = u.1.readies)
    (hconn : x.1.backendConn = some c) (hcommand : (x.2.conns c).command = none) :
    Truthful u (finishSingle c x) :=
  (reportReady_truthful_iff hsame hconn).mpr fun _ => hcommand

/-- The end of a copy to the client. -/
theorem finishCopyOut_truthful_iff {xact : Xact} {final : Option PGresult}
    (hsame : x.1.readies = u.1.readies) (hconn : x.1.backendConn = some c)
    (hcommand : (x.2.conns c).command = some command) :
    Truthful u (finishCopyOut c command xact final x) ↔
      (Conf.inBlock x = true → final = none) := by
  have hcopy : (x.1.queue (.result c command) .copyDone).readies = u.1.readies :=
    (Quiet.queue x.1 rfl (by simp)).readies.trans hsame
  unfold finishCopyOut
  dsimp only
  rw [setState_truthful_iff]
  cases final with
  | none =>
      refine iff_of_true ?_ fun _ => rfl
      have hover := (Quiet.noteOver _ .backend).readies.trans hcopy
      exact (reportReady_truthful_iff (x := (_, x.2.endCommand c xact)) hover hconn).mpr
        fun _ => Backends.command_endCommand c xact
  | some res =>
      have hbusy : ∀ s : Session, s.readies = u.1.readies → s.backendConn = some c →
          (Truthful u (reportReady c (s, x.2)) ↔ (Conf.inBlock x = true → some res = none)) := by
        intro s hs hsconn
        refine (reportReady_truthful_iff hs hsconn).trans ?_
        rw [inBlock_of_some (x := (s, x.2)) hsconn, inBlock_of_some hconn]
        simp [hcommand]
      dsimp only
      split
      · exact hbusy _ ((Quiet.queue _ rfl (by simp)).readies.trans hcopy) hconn
      · exact hbusy _ hcopy hconn

/-- The data of a copy to the client. -/
theorem copyOutRead_truthful_iff {input : BackendInput} (hsame : x.1.readies = u.1.readies)
    (hconn : x.1.backendConn = some c) (hcommand : (x.2.conns c).command = some command) :
    Truthful u (copyOutRead c command input x) ↔
      (Conf.inBlock x = true → ∀ res, input.copyEnd ≠ .done (some res)) := by
  have hchunks : (x.1.queueAll (.result c command) (input.copyChunks.map .copyData)).readies =
      u.1.readies := by
    refine (x.1.filter_queueAll ?_).trans hsame
    simp [BackendMsg.isReady]
  unfold copyOutRead
  dsimp only
  cases input.copyEnd with
  | pending => exact iff_of_true (truthful_of_same hchunks) (by simp)
  | failed => exact iff_of_true (truthful_of_same hchunks) (by simp)
  | done final =>
      refine (finishCopyOut_truthful_iff (x := (_, x.2)) hchunks hconn hcommand).trans ?_
      cases final with
      | none => simp
      | some res =>
          change (Conf.inBlock x = true → _) ↔ _
          simp

/-- The copy to the client ended, and one more call did not answer NULL. -/
def BackendInput.copyEndsEarly (input : BackendInput) : Bool :=
  match (singleMessages false input.results).2, input.copyEnd with
  | .copyOut _, .done (some _) => true
  | _, _ => false

/-- The results of the single backend are reported truthfully unless a copy ends early
inside a block. -/
theorem drainSingle_truthful_iff {input : BackendInput} (hconn : x.1.backendConn = some c)
    (hcommand : (x.2.conns c).command = some command) :
    Truthful x (drainSingle c command input x) ↔
      (Conf.inBlock x = true → input.copyEndsEarly = false) := by
  have hresults : (x.1.queueAll (.result c command)
      (singleMessages false input.results).1).readies = x.1.readies :=
    (Quiet.queueAll _ (singleMessages_not_ready false input.results) (by simp)).readies
  unfold drainSingle BackendInput.copyEndsEarly
  dsimp only
  cases (singleMessages false input.results).2 with
  | null =>
      refine iff_of_true ?_ fun _ => rfl
      exact finishSingle_truthful ((Quiet.noteOver _ .backend).readies.trans hresults) hconn
        (Backends.command_endCommand c input.xact)
  | copyIn nfields =>
      refine iff_of_true (truthful_of_same ?_) fun _ => rfl
      exact (Quiet.queue _ rfl (by simp)).readies.trans hresults
  | copyOut nfields =>
      have hresponse : (((x.1.queueAll (.result c command)
          (singleMessages false input.results).1).queue (.result c command)
          (.copyOutResponse nfields)).setState .copyOut).readies = x.1.readies :=
        (Quiet.queue _ rfl (by simp)).readies.trans hresults
      refine (copyOutRead_truthful_iff (x := (_, x.2)) hresponse hconn hcommand).trans ?_
      change (Conf.inBlock x = true → _) ↔ _
      cases input.copyEnd with
      | pending => simp
      | failed => simp
      | done final => cases final <;> simp

/-! ## The end of a scattered query -/

/-- What the event of a slot leaves behind before {lit}`check_complete`, unless it is
ignored. -/
def slotOver (i : Fin maxScatterShards) (input : BackendInput) (x : Conf) : Option Conf :=
  if input.hangup then some (markDone i x.1, x.2)
  else
    match (x.1.scatter i).conn with
    | none => none
    | some c =>
        match input.consumeFails with
        | some status => some (markDone i x.1, x.2.setStatus c status)
        | none =>
            match (x.2.conns c).command with
            | none => some (markDone i x.1, x.2)
            | some command => if input.busy then none else drainSlot i c command input x

/-- The event is one that ends its slot. -/
def BackendInput.endsSlot (input : BackendInput) (i : Fin maxScatterShards) (x : Conf) : Bool :=
  input.hangup ||
    match (x.1.scatter i).conn with
    | none => false
    | some c => input.consumeFails.isSome || (x.2.conns c).command.isNone || !input.busy

variable {i : Fin maxScatterShards} {input : BackendInput} {flush : SendOutcome}

/-- An event ends the slot or changes nothing. -/
theorem sessionOnScatterReadable_over (h : sessionOnScatterReadable i input flush x = some y) :
    input.endsSlot i x = false ∧ slotOver i input x = none ∧ y = x ∨
      input.endsSlot i x = true ∧ ∃ z, slotOver i input x = some z ∧
        y = checkComplete flush z := by
  unfold BackendInput.endsSlot slotOver
  cases sessionOnScatterReadable_call h with
  | hangup hhangup => exact Or.inr ⟨by simp [hhangup], _, by simp [hhangup], rfl⟩
  | gone hhangup hconn => exact Or.inl (by simp [hhangup, hconn])
  | failed c status hhangup hconn hfails =>
      exact Or.inr ⟨by simp [hconn, hfails], _, by simp [hhangup, hconn, hfails], rfl⟩
  | again c hhangup hconn hfails hcommand =>
      exact Or.inr ⟨by simp [hconn, hcommand], _, by simp [hhangup, hconn, hfails, hcommand], rfl⟩
  | waiting c command hhangup hconn hfails hcommand hbusy =>
      exact Or.inl (by simp [hhangup, hconn, hfails, hcommand, hbusy])
  | drained c command z hhangup hconn hfails hcommand hbusy hdrain =>
      refine Or.inr ⟨by simp [hconn, hbusy], z, ?_, rfl⟩
      simpa [hhangup, hconn, hfails, hcommand, hbusy] using hdrain

/-- The event of a slot counts it and queues no ReadyForQuery. -/
structure SlotCounted (x z : Conf) : Prop where
  readies : z.1.readies = x.1.readies
  count : z.1.scatterCount = x.1.scatterCount
  done : z.1.scatterDone = x.1.scatterDone + 1
  ops : Ops True slotPlaces (view x) (view z)

/-- A slot is counted after nothing but its connection has changed. -/
theorem SlotCounted.mark (hops : Ops True slotPlaces (view x) (view (x.1, b))) :
    SlotCounted x (markDone i x.1, b) := by
  refine ⟨rfl, rfl, rfl, ?_⟩
  unfold view at hops ⊢
  rw [markDone_account]
  exact hops

/-- A slot that is over is counted. -/
theorem slotOver_counted (h : slotOver i input x = some z) : SlotCounted x z := by
  unfold slotOver at h
  split at h
  · cases h
    exact SlotCounted.mark Ops.refl
  · split at h
    · cases h
    · rename_i c hconn
      split at h
      · rename_i status hfails
        cases h
        have hfault : FaultOf (x.1.scatter i).conn x.2 (x.2.setStatus c status) :=
          Or.inr ⟨c, status, hconn, rfl⟩
        have hops : Ops True {Place.slot i} (view x) (view (x.1, x.2.setStatus c status)) :=
          hfault.ops fun c hconn => held_slot hconn
        exact SlotCounted.mark (hops.mono (singleton_slot_subset i))
      · split at h
        · cases h
          exact SlotCounted.mark Ops.refl
        · rename_i command hcommand
          split at h
          · cases h
          · have hops : Ops True slotPlaces (view x) (view z) := drainSlot_ops h hconn hcommand
            rcases Option.map_eq_some_iff.mp h with ⟨⟨msgs, header⟩, hmsgs, rfl⟩
            have hrows : ∀ msg ∈ msgs, msg.isReady = false :=
              fun msg hmsg => BackendMsg.not_ready_of_isRow (scatterMessages_rows hmsgs msg hmsg)
            exact ⟨x.1.filter_queueAll hrows, rfl, rfl, hops⟩

/-- The tag of the scattered query. -/
def gatherTag (x : Conf) : Text :=
  if x.1.scatterHeaderSent then ascii "SELECT" else ascii "SELECT 0"

/-- The end of a scattered query is reported truthfully outside a block only. -/
theorem gathered_truthful_iff (tag : Text) (x : Conf) :
    Truthful x (gathered tag x) ↔ Conf.inBlock (gathered tag x) = false := by
  have hready : OneReady x (gathered tag x) .idle := ⟨_, (gathered_gathered tag x).readies⟩
  exact hready.idle_truthful_iff

end Sharegres
