import Sharegres.Session.ReadAhead
import Sharegres.Session.ResponseStream
import Sharegres.System.ScatterRound
import Sharegres.System.Unsharded

/-!
# System - A query for one backend from its message to its answer

A client sends a query that goes to one shard or to the default backend.  The connection the
session already has is used if it is one to this backend, otherwise it is given back and another
one is taken.  Whatever other clients do until the backend has answered, the client gets the
messages for the results of its own query, and one ReadyForQuery.

Main results:

- Theorem {lit}`executeSingle_awaits`: {lit}`execute_single` sends the query.
- Definition {lit}`Replying`: the runs in which the backend of a query answers.
- Theorem {lit}`single_query_answered`: a query for one backend is answered, from the message on.
-/

namespace Sharegres

open Foundation

variable {shard : Option Shard} {decision : RouteDecision} {flush : SendOutcome} {cfg : Config}
  {p p' : Proxy} {sid : Nat} {sql : Text}

/-! ## Sending the query -/

/-- The session can send a query to a shard, or to the default backend: it has a connection to it
that is in order and has nothing to do, or it can get one. -/
def CanSend (x : Conf) (shard : Option Shard) : Prop :=
  if x.1.LeadsTo shard then
    ∀ c, x.1.backendConn = some c → (x.2.conns c).status = .ok ∧ (x.2.conns c).command = none
  else
    ∀ s, shard = some s → (x.2.pools s.index).activeCount < (x.2.pools s.index).maxSize

/-- A session without a connection needs room in the pool of the shard. -/
theorem canSend_of_room {x : Conf} {s : Shard} (hconn : x.1.backendConn = none)
    (hroom : (x.2.pools s.index).activeCount < (x.2.pools s.index).maxSize) :
    CanSend x (some s) := by
  rw [CanSend, if_neg]
  · rintro t ht
    cases ht
    exact hroom
  · rw [Session.LeadsTo, hconn]
    simp

/-- The connection a query for a backend goes out on.  The session keeps the one it has if that
leads to the backend.  Otherwise it gives it back, and takes one that the pool of the shard lends
to it, or opens one to the default backend. -/
structure ChosenFor (shard : Option Shard) (x y : Conf) (c : ConnId) : Prop where
  conn : y.1.backendConn = some c
  leads : y.1.backendShard.map Shard.index = shard.map Shard.index
  kept : x.1.LeadsTo shard → x.1.backendConn = some c ∧ y.2.log = x.2.log
  lent : ¬ x.1.LeadsTo shard → ∀ s, shard = some s →
    y.2.log = .lend c ⟨x.1.id, s.index⟩ :: (releaseBackend x).2.log
  opened : ¬ x.1.LeadsTo shard → shard = none →
    c = x.2.opened ∧ y.2.log = (releaseBackend x).2.log

theorem ChosenFor.congr {x x' y y' : Conf} {c : ConnId} (h : ChosenFor shard x' y c)
    (hx : SameBackend x x') (hy : SameBackend y y') :
    ChosenFor shard x y' c where
  conn := hy.conn.trans h.conn
  leads := by rw [hy.shard, h.leads]
  kept hleads := by
    rcases h.kept ((hx.leadsTo shard).mpr hleads) with ⟨hconn, hlog⟩
    exact ⟨hx.conn.symm.trans hconn, by rw [hy.backends, hlog, hx.backends]⟩
  lent hnot s hs := by
    rw [hy.backends, h.lent (mt (hx.leadsTo shard).mp hnot) s hs, hx.id, hx.release]
  opened hnot hs := by
    rcases h.opened (mt (hx.leadsTo shard).mp hnot) hs with ⟨hc, hlog⟩
    exact ⟨by rw [hc, hx.backends], by rw [hy.backends, hlog, hx.release]⟩

/-- The query was sent on the single backend. -/
structure SingleSent (sql : Text) (x y : Conf) (c : ConnId) : Prop where
  id : y.1.id = x.1.id
  state : y.1.state = .query
  closed : y.1.closed = x.1.closed
  out : y.1.out = x.1.out
  command : (y.2.conns c).command = some ⟨x.1.id, sql⟩
  sent : y.1.sent = (c, sql) :: x.1.sent

/-- Only what a session holds in its places may differ. -/
structure SameRecord (s s' : Session) : Prop where
  id : s'.id = s.id
  closed : s'.closed = s.closed
  out : s'.out = s.out
  sent : s'.sent = s.sent

theorem sendSingle_sent {x y : Conf} {c : ConnId} {accepts : Bool} (hsame : SameRecord x.1 y.1)
    (hchosen : ChosenFor shard x y c) (haccepts : accepts = true) (hok : (y.2.conns c).status = .ok)
    (hquiet : (y.2.conns c).command = none) :
    ∃ z, sendSingle sql accepts y = (z, true) ∧ SingleSent sql x z c ∧ ChosenFor shard x z c := by
  have hsend : y.2.pqSendQuery c y.1.id sql accepts =
      some (y.2.modifyConn c fun conn => { conn with command := some ⟨y.1.id, sql⟩ }) := by
    unfold Backends.pqSendQuery
    rw [if_pos ⟨haccepts, hok, hquiet⟩]
  refine ⟨(((y.1.noteSent .backend c sql).setState .query).setBusy true,
    y.2.modifyConn c fun conn => { conn with command := some ⟨y.1.id, sql⟩ }), ?_, ?_,
    hchosen.conn, hchosen.leads, hchosen.kept, hchosen.lent, hchosen.opened⟩
  · unfold sendSingle
    rw [hchosen.conn]
    dsimp only
    rw [hsend]
  · refine ⟨hsame.id, rfl, hsame.closed, hsame.out, ?_, ?_⟩
    · rw [Backends.modifyConn_self, ← hsame.id]
    · exact congrArg (List.cons (c, sql)) hsame.sent

theorem releaseBackend_same (x : Conf) : SameRecord x.1 (releaseBackend x).1 := by
  unfold releaseBackend
  split <;> exact ⟨rfl, rfl, rfl, rfl⟩

theorem releaseBackend_opened (x : Conf) : (releaseBackend x).2.opened = x.2.opened := by
  unfold releaseBackend
  cases x.1.held .backend with
  | none => rfl
  | some hold =>
      dsimp only
      unfold giveUp
      cases hold.pool with
      | none => rfl
      | some j =>
          dsimp only
          rcases x.2.connPoolRelease_cases j x.1.id hold.conn with hclosed | ⟨-, hkept⟩
          · rw [hclosed]
            rfl
          · rw [hkept]
            rfl

/-- Giving back a connection that does not lead to a shard leaves the pool of the shard alone. -/
theorem releaseBackend_pools {x : Conf} {s : Shard} (h : ¬ x.1.LeadsTo shard)
    (hs : shard = some s) :
    (releaseBackend x).2.pools s.index = x.2.pools s.index := by
  unfold releaseBackend
  cases hheld : x.1.held .backend with
  | none => rfl
  | some hold =>
      rcases Option.map_eq_some_iff.mp hheld with ⟨c, hc, rfl⟩
      dsimp only
      unfold giveUp
      cases hj : x.1.backendShard.map Shard.index with
      | none => rfl
      | some j =>
          have hne : s.index ≠ j := by
            intro heq
            exact h ⟨by rw [hs, hj, Option.map_some, heq], by rw [hc]; rfl⟩
          dsimp only
          have hgive : (x.2.giveBack j x.1.id c).pools s.index = x.2.pools s.index :=
            Function.update_of_ne hne ..
          rcases x.2.connPoolRelease_cases j x.1.id c with hclosed | ⟨-, hkept⟩
          · rw [hclosed]
            exact hgive
          · rw [hkept, Backends.setIdle_of_ne _ _ _ hne]
            exact hgive

section Send

variable {accts : Nat → Account} {own : ConnId → Owner} {x : Conf} {input : ClientInput}

/-- A session without a fitting connection gets one that takes a query. -/
theorem connectSingle_fresh (hinv : Ledger accts (releaseBackend x).2 own)
    (hnot : ¬ x.1.LeadsTo shard)
    (hroom : ∀ s, shard = some s → ((releaseBackend x).2.pools s.index).activeCount <
      ((releaseBackend x).2.pools s.index).maxSize) :
    ∃ z c, connectSingle shard true (releaseBackend x) = (z, true) ∧ SameRecord x.1 z.1 ∧
      ChosenFor shard x z c ∧ (z.2.conns c).status = .ok ∧ (z.2.conns c).command = none := by
  have hconn := releaseBackend_backendConn x
  have hsame := releaseBackend_same x
  have hopened : (releaseBackend x).2.opened = x.2.opened := releaseBackend_opened x
  have hkept : ∀ (b : Backends) c, x.1.LeadsTo shard → x.1.backendConn = some c ∧ b.log = x.2.log :=
    fun b c h => absurd h hnot
  unfold connectSingle
  rw [hconn, if_neg (by simp)]
  cases shard with
  | some s =>
      rcases connPoolAcquire_available (releaseBackend x).1.id
        (fun c hc => hinv.quiet s.index c hc) (hroom s rfl) with ⟨b, c, hacquire, hlent⟩
      have hlog := hlent.log
      rw [hsame.id] at hlog
      refine ⟨((releaseBackend x).1.setBackend (some c) (some s), b), c, ?_,
        ⟨hsame.id, hsame.closed, hsame.out, hsame.sent⟩, ⟨rfl, rfl, hkept b c, ?_, ?_⟩,
        hlent.status, hlent.quiet⟩
      · dsimp only
        unfold connectToShard
        rw [hacquire]
      · rintro - s' hs'
        cases hs'
        exact hlog
      · rintro - hs'
        cases hs'
  | none =>
      have hheld : (releaseBackend x).1.held .backend = none := by
        rw [Session.held, hconn]
        rfl
      refine ⟨((releaseBackend x).1.setBackend (some (releaseBackend x).2.opened) none,
        (releaseBackend x).2.openConn), (releaseBackend x).2.opened, ?_,
        ⟨hsame.id, hsame.closed, hsame.out, hsame.sent⟩,
        ⟨rfl, rfl, hkept _ _, ?_, fun _ _ => ⟨hopened, rfl⟩⟩, by simp, by simp⟩
      · dsimp only
        unfold connectToDefault backendOk
        rw [hconn]
        dsimp only
        rw [if_neg (by simp), releaseBackend_view_none hheld]
        rfl
      · rintro - s' hs'
        cases hs'

/-- A connection that leads to the backend is used. -/
theorem chosen_kept (h : x.1.LeadsTo shard) (hcan : CanSend x shard) :
    ∃ c, ChosenFor shard x x c ∧ (x.2.conns c).status = .ok ∧ (x.2.conns c).command = none := by
  rcases Option.isSome_iff_exists.mp h.2 with ⟨c, hc⟩
  rw [CanSend, if_pos h] at hcan
  exact ⟨c, ⟨hc, h.1, fun _ => ⟨hc, rfl⟩, fun hnot => absurd h hnot, fun hnot => absurd h hnot⟩,
    hcan c hc⟩

/-- {lit}`execute_single` sends the query. -/
theorem executeSingle_awaits (hacct : accts x.1.id = x.1.account) (hinv : Ledger accts x.2 own)
    (hcan : CanSend x shard) (hconnects : input.connects 0 = true)
    (haccepts : input.accepts 0 = true) :
    ∃ y c, executeSingle sql shard input x = (y, true) ∧ SingleSent sql x y c ∧
      ChosenFor shard x y c := by
  unfold executeSingle
  rw [hconnects]
  by_cases hleads : x.1.LeadsTo shard
  · rcases chosen_kept hleads hcan with ⟨c, hchosen, hok, hquiet⟩
    have hkeep : connectSingle shard true (swapBackend shard x) = (x, true) := by
      rw [swapBackend, if_neg (not_not.mpr hleads.1)]
      exact if_pos hleads.2
    rw [hkeep]
    rcases @sendSingle_sent shard sql x x c _ ⟨rfl, rfl, rfl, rfl⟩ hchosen haccepts hok hquiet with
      ⟨z, hz, hsent⟩
    exact ⟨z, c, hz, hsent⟩
  · -- the connection it has is given back
    rw [swapBackend_release hleads]
    rw [CanSend, if_neg hleads] at hcan
    have hops : Ops True {.backend} (view x) (view (releaseBackend x)) := releaseBackend_ops x
    rcases hops.ledger hacct hinv with ⟨own', hinv'⟩
    have hroom : ∀ s, shard = some s → ((releaseBackend x).2.pools s.index).activeCount <
        ((releaseBackend x).2.pools s.index).maxSize := by
      intro s hs
      rw [releaseBackend_pools hleads hs]
      exact hcan s hs
    rcases connectSingle_fresh hinv' hleads hroom with ⟨z, c, hz, hsame, hchosen, hok, hquiet⟩
    rw [hz]
    rcases sendSingle_sent hsame hchosen haccepts hok hquiet with ⟨w, hw, hsent⟩
    exact ⟨w, c, hw, hsent⟩

/-- So does {lit}`handle_query` without a shard map. -/
theorem handleUnsharded_awaits (hinv : Ledger accts x.2 own) (hshard : x.1.backendShard = none)
    (hcan : CanSend x none) (hconnects : input.connects 0 = true)
    (haccepts : input.accepts 0 = true) :
    ∃ y c, handleUnsharded sql input x = y ∧ SingleSent sql x y c ∧ ChosenFor none x y c := by
  unfold handleUnsharded
  rw [hconnects]
  by_cases hleads : x.1.LeadsTo none
  · rcases chosen_kept hleads hcan with ⟨c, hchosen, hok, hquiet⟩
    have hkeep : connectToDefault true x = (x, true) := by
      unfold connectToDefault backendOk
      rw [hchosen.conn]
      dsimp only
      rw [if_pos (decide_eq_true hok)]
    rw [hkeep]
    rcases @sendSingle_sent none sql x x c _ ⟨rfl, rfl, rfl, rfl⟩ hchosen haccepts hok hquiet with
      ⟨z, hz, hsent⟩
    dsimp only
    rw [hz]
    exact ⟨z, c, rfl, hsent⟩
  · -- without a connection there is none to give back
    have hconn : x.1.backendConn = none := by
      simpa using fun hsome => hleads ⟨by rw [hshard], hsome⟩
    have hheld : x.1.held .backend = none := by
      rw [Session.held, hconn]
      rfl
    have hsame : releaseBackend x = x := releaseBackend_view_none hheld
    have hnew := connectSingle_fresh (by rw [hsame]; exact hinv) hleads (fun s hs => by cases hs)
    unfold connectSingle at hnew
    rw [hsame, hconn, if_neg (by simp)] at hnew
    rcases hnew with ⟨z, c, hz, hrecord, hchosen, hok, hquiet⟩
    dsimp only at hz
    rw [hz]
    rcases sendSingle_sent hrecord hchosen haccepts hok hquiet with ⟨w, hw, hsent⟩
    dsimp only
    rw [hw]
    exact ⟨w, c, rfl, hsent⟩

end Send

/-! ## Runs in which the backend answers -/

/-- Runs from a state in which the backend of a session's query answers, with the results if it
has done so.  It may be readable before, and all events of other sessions, of the timer and of
the backends may happen. -/
inductive Replying (cfg : Config) (sid : Nat) (start : Proxy) :
    Option (List PGresult) → Proxy → Prop where
  | refl : Replying cfg sid start none start
  | other {reply : Option (List PGresult)} {p p' : Proxy} (h : Replying cfg sid start reply p)
      {e : Event} (he : e.session ≠ some sid) (hstep : step cfg p e = some p') :
      Replying cfg sid start reply p'
  | waits {p p' : Proxy} (h : Replying cfg sid start none p) {input : BackendInput}
      {flush : SendOutcome} (hhangup : input.hangup = false) (hfails : input.consumeFails = none)
      (hbusy : input.busy = true) (hstep : step cfg p (.backend sid input flush) = some p') :
      Replying cfg sid start none p'
  | reply {p p' : Proxy} (h : Replying cfg sid start none p) {input : BackendInput}
      {flush : SendOutcome} (hhangup : input.hangup = false) (hfails : input.consumeFails = none)
      (hbusy : input.busy = false) (hcopy : ∀ res ∈ input.results, res.startsCopy = false)
      (hflush : flush ≠ .failed) (hstep : step cfg p (.backend sid input flush) = some p') :
      Replying cfg sid start (some input.results) p'

/-- A session has sent a query to its backend. -/
structure Queries (msgs : List BackendMsg) (s : Session) : Prop where
  isOpen : s.closed = false
  state : s.state = .query
  messages : s.messages = msgs

/-- The answer of the single backend is awaited. -/
structure Pending (sid : Nat) (sql : Text) (msgs : List BackendMsg) (p : Proxy) : Prop where
  created : sid < p.created
  session : Queries msgs (p.sessions sid)
  command : ∃ c, (p.sessions sid).backendConn = some c ∧
    (p.backends.conns c).command = some ⟨sid, sql⟩

/-- The query was answered: behind the messages for its results stands a ReadyForQuery. -/
structure Replied (msgs : List BackendMsg) (s : Session) : Prop where
  isOpen : s.closed = false
  state : s.state = .ready
  messages : ∃ status, s.messages = msgs ++ [.readyForQuery status]

/-- Without a copy the loop over the results runs to its end. -/
theorem singleMessages_no_copy {results : List PGresult}
    (hcopy : ∀ res ∈ results, res.startsCopy = false) (headerSent : Bool) :
    (singleMessages headerSent results).2 = .null := by
  induction results generalizing headerSent with
  | nil => rfl
  | cons res results ih =>
      have hrest := ih fun res hres => hcopy res (List.mem_cons_of_mem _ hres)
      have hfirst := hcopy res List.mem_cons_self
      unfold PGresult.startsCopy at hfirst
      unfold singleMessages
      cases hstatus : res.status with
      | copyIn => simp [hstatus] at hfirst
      | copyOut => simp [hstatus] at hfirst
      | tuplesOk => exact hrest _
      | singleTuple => exact hrest _
      | commandOk => exact hrest _
      | fatalError => exact hrest _
      | emptyQuery => exact hrest _
      | other => exact hrest _

section Events

variable {msgs : List BackendMsg}

/-- An event of the single backend is a call of its callback. -/
theorem step_single {input : BackendInput}
    (hstep : step cfg p (.backend sid input flush) = some p') :
    p' = p.put sid (sessionOnBackendReadable input flush (p.conf sid)) := by
  rcases Proxy.call_eq_some hstep with ⟨-, y, hy, rfl⟩
  cases hy
  rfl

theorem Pending.other (h : Pending sid sql msgs p) (hinv : p.Owned) {e : Event}
    (he : e.session ≠ some sid) (hstep : step cfg p e = some p') : Pending sid sql msgs p' := by
  rcases step_others hinv h.created he hstep with ⟨hcreated, hsession, -, hcommands⟩
  refine ⟨hcreated, by rw [hsession]; exact h.session, ?_⟩
  · rcases h.command with ⟨c, hconn, hcommand⟩
    have hheld : (p.sessions sid).held .backend =
        some ⟨c, (p.sessions sid).backendShard.map Shard.index⟩ := by
      rw [Session.held, hconn]
      rfl
    refine ⟨c, by rw [hsession, hconn], ?_⟩
    exact (hcommands _ _ hheld).trans hcommand

/-- The backend is not done yet, or its answer is read. -/
theorem Pending.readable (h : Pending sid sql msgs p) {input : BackendInput} (flush : SendOutcome)
    (hhangup : input.hangup = false) (hfails : input.consumeFails = none) :
    ∃ c, sessionOnBackendReadable input flush (p.conf sid) = if input.busy then p.conf sid
      else flushOrDestroy flush (drainSingle c ⟨sid, sql⟩ input (p.conf sid)) := by
  rcases h.command with ⟨c, hconn, hcommand⟩
  refine ⟨c, ?_⟩
  unfold sessionOnBackendReadable
  rw [hhangup, if_neg (by simp), show (p.conf sid).1.backendConn = some c from hconn]
  dsimp only
  rw [hfails]
  dsimp only
  rw [show ((p.conf sid).2.conns c).command = _ from hcommand]

/-- A backend that is not done yet changes nothing. -/
theorem Pending.waits (h : Pending sid sql msgs p) {input : BackendInput}
    (hhangup : input.hangup = false) (hfails : input.consumeFails = none)
    (hbusy : input.busy = true) (hstep : step cfg p (.backend sid input flush) = some p') :
    p' = p := by
  rcases h.readable flush hhangup hfails with ⟨c, hcall⟩
  rw [step_single hstep, hcall, hbusy, if_pos rfl, Proxy.put, Proxy.conf, Function.update_eq_self]

/-- The answer. -/
theorem Pending.reply (h : Pending sid sql msgs p) {input : BackendInput}
    (hhangup : input.hangup = false) (hfails : input.consumeFails = none)
    (hbusy : input.busy = false) (hcopy : ∀ res ∈ input.results, res.startsCopy = false)
    (hflush : flush ≠ .failed) (hstep : step cfg p (.backend sid input flush) = some p') :
    Replied (msgs ++ (singleMessages false input.results).1) (p'.sessions sid) := by
  rcases h.readable flush hhangup hfails with ⟨c, hcall⟩
  rw [hbusy, if_neg (by simp)] at hcall
  have hdrain : drainSingle c ⟨sid, sql⟩ input (p.conf sid) =
      finishSingle c (((p.sessions sid).queueAll (.result c ⟨sid, sql⟩)
        (singleMessages false input.results).1).noteOver .backend,
        p.backends.endCommand c input.xact) := by
    unfold drainSingle
    dsimp only
    rw [singleMessages_no_copy hcopy false]
    rfl
  rw [step_single hstep, hcall, hdrain, Proxy.put_session]
  generalize hx : (((p.sessions sid).queueAll (.result c ⟨sid, sql⟩)
    (singleMessages false input.results).1).noteOver .backend,
    p.backends.endCommand c input.xact) = x
  have hkept := flushOrDestroy_kept hflush (finishSingle c x)
  rcases finishSingle_case c x with ⟨status, u, hquiet, heq⟩
  refine ⟨?_, ?_, ⟨txnStatusOf (pqTransactionStatus (x.2.conns c)), ?_⟩⟩
  · rw [hkept.quiet.closed, heq]
    refine hquiet.closed.trans ?_
    rw [← hx]
    exact h.session.isOpen
  · rw [hkept.quiet.state, heq]
    rfl
  · have hmessages := h.session.messages
    rw [Session.messages, flushOrDestroy_out, finishSingle_out, List.map_append, ← hx]
    rw [Session.messages] at hmessages
    rw [← hmessages]
    simp [Session.queueAll, Session.noteOver, Function.comp_def]

/-- The course of a run. -/
theorem Replying.progress {start : Proxy} {reply : Option (List PGresult)}
    (h : Replying cfg sid start reply p) (hstart : start.Owned)
    (hbegin : Pending sid sql msgs start) :
    p.Owned ∧ sid < p.created ∧
      (reply = none ∧ Pending sid sql msgs p ∨
        ∃ results, reply = some results ∧ (∀ res ∈ results, res.startsCopy = false) ∧
          Replied (msgs ++ (singleMessages false results).1) (p.sessions sid)) := by
  induction h with
  | refl => exact ⟨hstart, hbegin.created, Or.inl ⟨rfl, hbegin⟩⟩
  | other h he hstep ih =>
      rcases ih with ⟨hinv, hcreated, ⟨hreply, hpending⟩ | ⟨results, hreply, hcopy, hreplied⟩⟩
      · have hnext := hpending.other hinv he hstep
        exact ⟨step_ledger hstep hinv, hnext.created, Or.inl ⟨hreply, hnext⟩⟩
      · rcases step_others hinv hcreated he hstep with ⟨hcreated', hsession, -⟩
        refine ⟨step_ledger hstep hinv, hcreated', Or.inr ⟨results, hreply, hcopy, ?_⟩⟩
        rw [hsession]
        exact hreplied
  | waits h hhangup hfails hbusy hstep ih =>
      rcases ih with ⟨hinv, hcreated, ⟨-, hpending⟩ | ⟨results, hreply, -⟩⟩
      · rw [hpending.waits hhangup hfails hbusy hstep]
        exact ⟨hinv, hcreated, Or.inl ⟨rfl, hpending⟩⟩
      · cases hreply
  | reply h hhangup hfails hbusy hcopy hflush hstep ih =>
      rcases ih with ⟨hinv, hcreated, ⟨-, hpending⟩ | ⟨results, hreply, -⟩⟩
      · refine ⟨step_ledger hstep hinv, ?_, Or.inr ⟨_, rfl, hcopy, ?_⟩⟩
        · rw [step_single hstep]
          exact hcreated
        · exact hpending.reply hhangup hfails hbusy hcopy hflush hstep
      · cases hreply

end Events

/-! ## The message of the query -/

/-- Where a query with this route is sent: to one shard, or to the default backend. -/
def RouteDecision.SendsTo (decision : RouteDecision) (shard : Option Shard) : Prop :=
  decision.type = .single ∧ shard = decision.targetShards.head? ∨
    decision.type = .default ∧ shard = none

/-- {lit}`handle_query` sends a query with this route. -/
theorem handleQuery_single {accts : Nat → Account} {own : ConnId → Owner} {x : Conf}
    {input : ClientInput} (hroute : routeTaken cfg sql = some decision)
    (hsends : decision.SendsTo shard)
    (hunpooled : cfg.shardMap.shards = [] → x.1.backendShard = none)
    (hacct : accts x.1.id = x.1.account) (hinv : Ledger accts x.2 own) (hcan : CanSend x shard)
    (hconnects : input.connects 0 = true) (haccepts : input.accepts 0 = true) :
    ∃ y c, handleQuery cfg sql input x = some (y, true) ∧ SingleSent sql x y c ∧
      ChosenFor shard x y c := by
  -- that the query was counted makes no difference
  have hcounted : ∀ y c, SingleSent sql (x.1.countQuery, x.2) y c ∧
      ChosenFor shard (x.1.countQuery, x.2) y c → SingleSent sql x y c ∧ ChosenFor shard x y c :=
    fun y c h => ⟨⟨h.1.id, h.1.state, h.1.closed, h.1.out, h.1.command, h.1.sent⟩,
      h.2.congr ⟨rfl, rfl, rfl, rfl⟩ ⟨rfl, rfl, rfl, rfl⟩⟩
  by_cases hshards : cfg.shardMap.shards = []
  · rw [routeTaken, if_pos hshards] at hroute
    cases hroute
    have hnone : shard = none := by
      rcases hsends with ⟨htype, -⟩ | ⟨-, hnone⟩
      · cases htype
      · exact hnone
    subst hnone
    rcases @handleUnsharded_awaits sql accts own (x.1.countQuery, x.2) input hinv
      (hunpooled hshards) hcan hconnects haccepts with ⟨y, c, hy, hsent⟩
    refine ⟨y, c, ?_, hcounted y c hsent⟩
    unfold handleQuery
    dsimp only
    rw [if_pos hshards, hy]
  · rcases @executeSingle_awaits shard sql accts own (x.1.countQuery, x.2) input hacct hinv hcan
      hconnects haccepts with ⟨y, c, hy, hsent⟩
    refine ⟨y, c, ?_, hcounted y c hsent⟩
    rw [handleQuery_route hshards hroute]
    rcases hsends with ⟨htype, rfl⟩ | ⟨htype, rfl⟩
    · rw [executeRoute, htype]
      dsimp only
      rw [executeOrRefuse, hy]
    · rw [executeRoute, htype]
      dsimp only
      rw [executeOrRefuse, hy]

/-- A query was sent once, on the connection that is chosen for the shard, or for the default
backend. -/
structure SentToOne (sid : Nat) (sql : Text) (shard : Option Shard) (c : ConnId)
    (p p₁ : Proxy) : Prop where
  sent : (p₁.sessions sid).sent = (c, sql) :: (p.sessions sid).sent
  chosen : ChosenFor shard (p.conf sid) (p₁.conf sid) c

/-- The query is pending when its message has been handled. -/
theorem client_sends {input : ClientInput} (h : ProxyReaches cfg anyEvent p)
    (hroute : routeTaken cfg sql = some decision) (hsends : decision.SendsTo shard)
    (hwaits : WaitsForQuery p sid) (hcan : CanSend (p.conf sid) shard)
    (hinput : BringsQuery sql input) :
    ∃ p₁ c, step cfg p (.client sid input) = some p₁ ∧
      Pending sid sql (p.sessions sid).messages p₁ ∧ SentToOne sid sql shard c p p₁ := by
  rcases owned_of_reaches h with ⟨own, hinv⟩
  have hid : (p.sessions sid).id = sid := hinv.ids sid
  have hacct : p.accounts (p.sessions sid).id = (p.sessions sid).account :=
    congrArg p.accounts hid
  rcases @handleQuery_single shard decision cfg sql p.accounts own
    ((p.sessions sid).handling sql, p.backends) input hroute hsends
    (fun hshards => ((private_of_reaches hshards h).sessions sid).shard) hacct hinv hcan
    (hinput.connects 0) (hinput.accepts 0) with ⟨y, c, hquery, hsent, hchosen⟩
  rcases hinput.handled hwaits hquery with ⟨unsent, callback, hstep⟩
  refine ⟨_, c, hstep, ⟨hwaits.alive.1, ?_, c, ?_, ?_⟩, ?_, ?_⟩
  · rw [Proxy.put_session]
    exact ⟨hsent.closed.trans hwaits.alive.2, hsent.state,
      congrArg (List.map Queued.msg) hsent.out⟩
  · rw [Proxy.put_session]
    exact hchosen.conn
  · refine hsent.command.trans ?_
    change some (Command.mk (p.sessions sid).id sql) = _
    rw [hid]
  · rw [Proxy.put_session]
    exact hsent.sent
  · rw [Proxy.put_conf]
    exact hchosen.congr ⟨rfl, rfl, rfl, rfl⟩ ⟨rfl, rfl, rfl, rfl⟩

/-- The backend of a query has not answered: the session waits, and the backend can answer. -/
structure AwaitsBackend (cfg : Config) (sid : Nat) (p : Proxy) : Prop where
  state : (p.sessions sid).state = .query
  accepts : ∀ answer flush, ∃ p', step cfg p (.backend sid answer flush) = some p'

theorem Pending.awaitsBackend {msgs : List BackendMsg} (h : Pending sid sql msgs p) :
    AwaitsBackend cfg sid p where
  state := h.session.state
  accepts _ _ := ⟨_, Proxy.call_alive ⟨h.created, h.session.isOpen⟩ rfl⟩

/-- A client sends a query that goes to one shard or to the default backend.  It is sent once, on
the connection the session has if that leads to the backend, and otherwise on another one.
Whatever else happens until the backend answers, the client gets nothing before and then the
messages for the results and one ReadyForQuery, and the session is ready again. -/
theorem single_query_answered {input : ClientInput} (h : ProxyReaches cfg anyEvent p)
    (hroute : routeTaken cfg sql = some decision) (hsends : decision.SendsTo shard)
    (hwaits : WaitsForQuery p sid) (hcan : CanSend (p.conf sid) shard)
    (hinput : BringsQuery sql input) :
    ∃ p₁ c, step cfg p (.client sid input) = some p₁ ∧ SentToOne sid sql shard c p p₁ ∧
      ∀ reply p₂, Replying cfg sid p₁ reply p₂ →
        (reply = none ∧ AwaitsBackend cfg sid p₂ ∧
            (p₂.sessions sid).messages = (p.sessions sid).messages) ∨
          ∃ results, reply = some results ∧
            Replied ((p.sessions sid).messages ++ (singleMessages false results).1)
              (p₂.sessions sid) := by
  rcases client_sends h hroute hsends hwaits hcan hinput with ⟨p₁, c, hstep, hpending, hsent⟩
  have hinv : p₁.Owned := step_ledger hstep (owned_of_reaches h)
  refine ⟨p₁, c, hstep, hsent, fun reply p₂ hrun => ?_⟩
  rcases hrun.progress hinv hpending with
    ⟨-, -, ⟨hreply, hpending'⟩ | ⟨results, hreply, -, hreplied⟩⟩
  · exact Or.inl ⟨hreply, hpending'.awaitsBackend, hpending'.session.messages⟩
  · exact Or.inr ⟨results, hreply, hreplied⟩

/-- A DELETE with a key is answered by its shard after a health check. -/
theorem keyed_delete_answered :
    ∃ (p p₁ p₃ : Proxy) (shard : Shard) (c : ConnId), ProxyReaches demoConfig anyEvent p ∧
      SentToOne 0 (ascii "DELETE FROM t WHERE id = 1") (some shard) c p p₁ ∧
      (p₃.sessions 0).state = .ready ∧
      ∃ status, (p₃.sessions 0).messages = (p.sessions 0).messages ++
        [.commandComplete (ascii "DELETE 1")] ++ [.readyForQuery status] := by
  have hrun : runsTo (step demoConfig) anyEvent (demoLogin 0 ++ demoLogin 1)
      (Proxy.start demoConfig) FirstWaits = true := by
    decide +kernel
  have hroutes : (routeTaken demoConfig (ascii "DELETE FROM t WHERE id = 1")).any
      (fun d => decide (d.type = .single ∧ ∃ s ∈ demoShards, d.targetShards = [s])) = true := by
    decide +kernel
  rcases exists_firstWaits hrun with ⟨p, hp, hwaits, hconn, hroom⟩
  rcases (Option.any_eq_true _ _).mp hroutes with ⟨decision, hroute, hdecision⟩
  rcases of_decide_eq_true hdecision with ⟨htype, shard, hshard, htargets⟩
  have hcan : CanSend (p.conf 0) (some shard) := canSend_of_room hconn (hroom shard hshard)
  rcases single_query_answered hp hroute (Or.inl ⟨htype, by rw [htargets]; rfl⟩) hwaits hcan
    (bringsQuery_plain (by decide +kernel) (by decide +kernel)) with
    ⟨p₁, c, -, hsent, hanswered⟩
  have hcopy : ∀ res ∈ [({ status := .commandOk, cmdStatus := ascii "DELETE 1" } : PGresult)],
      res.startsCopy = false := by
    decide
  -- the health check runs before the answer
  have hother := Replying.other (.refl : Replying demoConfig 0 p₁ none p₁)
    (show Event.healthCheck.session ≠ some 0 by simp [Event.session]) rfl
  rcases hanswered _ _ hother with ⟨-, hawaits, -⟩ | ⟨results, hreply, -⟩
  · rcases hawaits.accepts
      { results := [{ status := .commandOk, cmdStatus := ascii "DELETE 1" }] } .all with
      ⟨p₃, hstep⟩
    have hreplying := Replying.reply hother rfl rfl rfl hcopy (by simp) hstep
    rcases hanswered _ _ hreplying with ⟨hnone, -⟩ | ⟨results, hreply, hreplied⟩
    · cases hnone
    · cases hreply
      exact ⟨p, p₁, p₃, shard, c, hp, hsent, hreplied.state, hreplied.messages⟩
  · cases hreply

end Sharegres
