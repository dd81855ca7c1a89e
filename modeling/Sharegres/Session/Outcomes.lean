import Sharegres.Session.Control

/-!
# Session - Outcomes of the callbacks

How a callback ends, as far as it matters for the state of the session, the messages that
end a query and the bookkeeping of a scatter: sending may end the session, the results of
the single backend end a query or start a copy, and an event of a scatter counts its slot.

Main results:

- Theorem {lit}`sessionDestroy_ended`: the end of a session.
- Theorem {lit}`drainSingle_case`: reading the results of the single backend.
- Theorems {lit}`ScatterCase.counts` and {lit}`gathered_gathered`: an event of a scatter
  slot, and the end of the scatter.
- Theorems {lit}`ClientCase.scatter` and {lit}`BackendCase.scatter`: only a Query message
  starts a scatter, and the events of the single backend leave it alone.
-/

namespace Sharegres

open Foundation

variable {input : BackendInput} {x y : Conf} {flush : SendOutcome}

/-! ## The end of a session -/

/-- The session was destroyed, and no message that ends a query was queued. -/
structure Ended (s s' : Session) : Prop where
  closed : s'.closed = true
  state : s'.state = s.state
  queries : s'.queries = s.queries
  extended : s'.extended = s.extended
  readies : s'.readies = s.readies
  gathers : s'.gathers = s.gathers
  count : s'.scatterCount = 0
  done : s'.scatterDone = 0
  backend : s'.backendConn = none
  slot : ∀ j, (s'.scatter j).conn ≠ none → j ∉ s.slots ∧ s'.scatter j = s.scatter j

/-- A release leaves no backend. -/
theorem releaseBackend_backendConn (x : Conf) : (releaseBackend x).1.backendConn = none := by
  unfold releaseBackend
  cases hheld : x.1.held .backend with
  | none => simpa [Session.held] using hheld
  | some h => rfl

/-- The session has ended. -/
theorem sessionDestroy_ended (x : Conf) : Ended x.1 (sessionDestroy x).1 := by
  have hquiet := releaseBackend_quiet x
  rcases sessionReleaseScatter_released (releaseBackend x) with ⟨hempty, hcount, hdone⟩
  refine ⟨rfl, hempty.state.trans hquiet.state, hempty.queries.trans hquiet.queries,
    hempty.extended.trans hquiet.extended, ?_, ?_, hcount, hdone,
    hempty.backend.trans (releaseBackend_backendConn x), ?_⟩
  · have hout := congrArg (List.filter fun q : Queued => q.msg.isReady) hempty.out
    exact hout.trans hquiet.readies
  · exact (congrArg (List.filter _) hempty.out).trans hquiet.gathers
  · intro j hj
    rcases hempty.slot j hj with ⟨hnot, hsame⟩
    rw [hquiet.slots] at hnot
    exact ⟨hnot, hsame.trans (congrFun hquiet.scatter j)⟩

/-- It ends after quiet steps. -/
theorem Ended.of_quiet {s t s' : Session} (h : Quiet s t) (h' : Ended t s') : Ended s s' where
  closed := h'.closed
  state := h'.state.trans h.state
  queries := h'.queries.trans h.queries
  extended := h'.extended.trans h.extended
  readies := h'.readies.trans h.readies
  gathers := h'.gathers.trans h.gathers
  count := h'.count
  done := h'.done
  backend := h'.backend
  slot := by
    intro j hj
    rcases h'.slot j hj with ⟨hnot, hsame⟩
    rw [h.slots] at hnot
    exact ⟨hnot, hsame.trans (congrFun h.scatter j)⟩

/-- Sending is quiet. -/
theorem sessionSend_quiet (outcome : SendOutcome) (s : Session) :
    Quiet s (sessionSend outcome s).1 := by
  rcases sessionSend_eq outcome s with ⟨unsent, callback, heq⟩
  rw [heq]
  exact ⟨rfl, rfl, rfl, rfl, rfl, rfl, rfl, rfl, rfl, rfl, Finset.Subset.refl _⟩

/-- The callback is over, and the connections are as before. -/
structure Kept (x y : Conf) : Prop where
  quiet : Quiet x.1 y.1
  backend : y.1.backendConn = x.1.backendConn
  backends : y.2 = x.2

theorem Kept.refl (x : Conf) : Kept x x :=
  ⟨Quiet.refl _, rfl, rfl⟩

theorem sessionSend_backendConn (outcome : SendOutcome) (s : Session) :
    (sessionSend outcome s).1.backendConn = s.backendConn := by
  rcases sessionSend_eq outcome s with ⟨unsent, callback, heq⟩
  rw [heq]

/-- Sending what is queued may end the session. -/
theorem flushOrDestroy_case (flush : SendOutcome) (x : Conf) :
    Kept x (flushOrDestroy flush x) ∨ Ended x.1 (flushOrDestroy flush x).1 := by
  have hsend := sessionSend_quiet flush x.1
  have hconn := sessionSend_backendConn flush x.1
  unfold flushOrDestroy
  rcases hres : sessionSend flush x.1 with ⟨s, _ | _⟩ <;> rw [hres] at hsend hconn
  · exact Or.inr (Ended.of_quiet hsend (sessionDestroy_ended (s, x.2)))
  · exact Or.inl ⟨hsend, hconn, rfl⟩

/-- Sending what is queued keeps the session if the socket does not fail. -/
theorem flushOrDestroy_kept (hflush : flush ≠ .failed) (x : Conf) :
    Kept x (flushOrDestroy flush x) := by
  have hsend := sessionSend_quiet flush x.1
  have hconn := sessionSend_backendConn flush x.1
  have hok : (sessionSend flush x.1).2 = true := by
    unfold sessionSend
    split
    · cases flush with
      | all => rfl
      | again => rfl
      | failed => exact absurd rfl hflush
    · rfl
  unfold flushOrDestroy
  rcases hres : sessionSend flush x.1 with ⟨s, _ | _⟩ <;> rw [hres] at hsend hconn hok
  · cases hok
  · exact ⟨hsend, hconn, rfl⟩

/-- An event of the client's socket ends with the session kept or destroyed. -/
theorem afterInput_case (flush : SendOutcome) (r : Conf × Bool) :
    r.2 = true ∧ Kept r.1 (afterInput flush r) ∨ Ended r.1.1 (afterInput flush r).1 := by
  rcases r with ⟨x, ok⟩
  cases ok with
  | false => exact Or.inr (sessionDestroy_ended x)
  | true =>
      unfold afterInput
      dsimp only
      split
      · rcases flushOrDestroy_case flush x with hkept | hended
        · exact Or.inl ⟨rfl, hkept⟩
        · exact Or.inr hended
      · exact Or.inl ⟨rfl, Kept.refl _⟩

/-- A lost backend ends the session. -/
theorem backendLost_ended (message : Text) (flush : SendOutcome) (x : Conf) :
    Ended x.1 (backendLost message flush x).1 := by
  have herror := Quiet.feSendError x.1 (ascii "FATAL") (ascii "08006") message
  have hsend := sessionSend_quiet flush (x.1.feSendError (ascii "FATAL") (ascii "08006") message)
  exact Ended.of_quiet (herror.trans hsend) (sessionDestroy_ended (_, x.2))

/-! ## Queued messages -/

/-- The messages queued between two states of a session. -/
def newMessages (x y : Conf) : List Queued :=
  y.1.out.drop x.1.out.length

theorem releaseBackend_out (x : Conf) : (releaseBackend x).1.out = x.1.out := by
  unfold releaseBackend
  cases x.1.held .backend <;> rfl

/-- The end of a session takes nothing back. -/
theorem sessionDestroy_out (x : Conf) : (sessionDestroy x).1.out = x.1.out :=
  (sessionReleaseScatter_released (releaseBackend x)).1.out.trans (releaseBackend_out x)

/-- Sending takes nothing back. -/
theorem sessionSend_out (outcome : SendOutcome) (s : Session) :
    (sessionSend outcome s).1.out = s.out := by
  rcases sessionSend_eq outcome s with ⟨unsent, callback, heq⟩
  rw [heq]

/-- Sending what is queued takes nothing back. -/
theorem flushOrDestroy_out (flush : SendOutcome) (x : Conf) :
    (flushOrDestroy flush x).1.out = x.1.out := by
  have hsend := sessionSend_out flush x.1
  unfold flushOrDestroy
  rcases hres : sessionSend flush x.1 with ⟨s, _ | _⟩ <;> rw [hres] at hsend
  · exact (sessionDestroy_out (s, x.2)).trans hsend
  · exact hsend

/-- Nor does the end of an event. -/
theorem afterInput_out (flush : SendOutcome) (r : Conf × Bool) :
    (afterInput flush r).1.out = r.1.1.out := by
  rcases r with ⟨x, _ | _⟩
  · exact sessionDestroy_out x
  · unfold afterInput
    dsimp only
    split
    · exact flushOrDestroy_out flush x
    · rfl

/-- Giving back the single backend does not end a command. -/
theorem command_releaseBackend (x : Conf) (c : ConnId) :
    ((releaseBackend x).2.conns c).command = (x.2.conns c).command := by
  unfold releaseBackend
  cases x.1.held .backend with
  | none => rfl
  | some hold =>
      dsimp only
      unfold giveUp
      cases hold.pool with
      | none => exact Backends.command_pqFinish hold.conn c
      | some i => exact Backends.command_connPoolRelease i x.1.id hold.conn c

/-! ## Results of the single backend -/

/-- No result is forwarded as ReadyForQuery. -/
theorem singleMessages_not_ready (headerSent : Bool) (results : List PGresult) :
    ∀ msg ∈ (singleMessages headerSent results).1, msg.isReady = false := by
  induction results generalizing headerSent with
  | nil =>
      intro msg hmsg
      cases hmsg
  | cons res rest ih =>
      have hrows : ∀ sendHeader, ∀ msg ∈ rowMessages res sendHeader, msg.isReady = false := by
        intro sendHeader msg hmsg
        exact BackendMsg.not_ready_of_isRow (rowMessages_isRow hmsg)
      intro msg hmsg
      unfold singleMessages at hmsg
      cases hstatus : res.status with
      | tuplesOk =>
          rw [hstatus] at hmsg
          rcases List.mem_append.mp hmsg with hmsg | hmsg
          · exact hrows _ msg hmsg
          · rcases List.mem_cons.mp hmsg with rfl | hmsg
            · rfl
            · exact ih _ msg hmsg
      | singleTuple =>
          rw [hstatus] at hmsg
          rcases List.mem_append.mp hmsg with hmsg | hmsg
          · exact hrows _ msg hmsg
          · exact ih _ msg hmsg
      | commandOk =>
          rw [hstatus] at hmsg
          rcases List.mem_cons.mp hmsg with rfl | hmsg
          · rfl
          · exact ih _ msg hmsg
      | fatalError =>
          rw [hstatus] at hmsg
          rcases List.mem_cons.mp hmsg with rfl | hmsg
          · rfl
          · exact ih _ msg hmsg
      | copyIn =>
          rw [hstatus] at hmsg
          cases hmsg
      | copyOut =>
          rw [hstatus] at hmsg
          cases hmsg
      | emptyQuery =>
          rw [hstatus] at hmsg
          exact ih _ msg hmsg
      | other =>
          rw [hstatus] at hmsg
          exact ih _ msg hmsg

/-- The outcomes of reading the results of the single backend: the query is over, a copy
is going on, or a copy to the client is over while the backend may still have an answer. -/
inductive DrainCase (input : BackendInput) (x : Conf) : Conf → Prop where
  | finished (t u : Session) (b : Backends) (status : TxnStatus)
      (hquiet : Quiet (x.1.noteOver .backend) t) (hreport : Quiet (t.queueReady status) u) :
      DrainCase input x (u.setState .ready, b)
  | copyIn (t : Session) (hquiet : Quiet x.1 t) (hconn : t.backendConn = x.1.backendConn) :
      DrainCase input x (t.setState .copyIn, x.2)
  | copyOut (t u : Session) (hquiet : Quiet x.1 t) (hconn : t.backendConn = x.1.backendConn)
      (hcopy : Quiet (t.setState .copyOut) u) (hkept : u.backendConn = t.backendConn) :
      DrainCase input x (u, x.2)
  | copyEnded (t u v : Session) (b : Backends) (status : TxnStatus) (hquiet : Quiet x.1 t)
      (hcopy : Quiet (t.setState .copyOut) u) (hreport : Quiet (u.queueReady status) v)
      (hstop : ∃ nfields, (singleMessages false input.results).2 = .copyOut nfields)
      (hend : ∃ final, input.copyEnd = .done final) :
      DrainCase input x (v.setState .ready, b)

/-- The report is queued before the release. -/
theorem reportReady_quiet (c : ConnId) (x : Conf) :
    Quiet (x.1.queueReady (txnStatusOf (pqTransactionStatus (x.2.conns c))))
      (reportReady c x).1 := by
  unfold reportReady
  dsimp only
  split
  · exact releaseBackend_quiet (_, x.2)
  · exact Quiet.refl _

/-- The session is ready behind its report. -/
theorem finishSingle_case (c : ConnId) (x : Conf) :
    ∃ status u, Quiet (x.1.queueReady status) u ∧ (finishSingle c x).1 = u.setState .ready :=
  ⟨_, _, (reportReady_quiet c x).trans (Quiet.setBusy _ _), rfl⟩

/-- The end of a copy to the client is such a report. -/
theorem finishCopyOut_case (c : ConnId) (command : Command) (xact : Xact)
    (final : Option PGresult) (x : Conf) :
    ∃ t status u, Quiet x.1 t ∧ Quiet (t.queueReady status) u ∧
      (finishCopyOut c command xact final x).1 = u.setState .ready := by
  have hdone : Quiet x.1 (x.1.queue (.result c command) .copyDone) :=
    Quiet.queue _ rfl (by simp)
  unfold finishCopyOut
  dsimp only
  refine ⟨_, _, _, ?_, reportReady_quiet c _, rfl⟩
  cases final with
  | none => exact hdone.trans (Quiet.noteOver _ _)
  | some res =>
      dsimp only
      split
      · exact hdone.trans (Quiet.queue _ rfl (by simp))
      · exact hdone

/-- A copy to the client goes on or ends. -/
theorem copyOutRead_case (c : ConnId) (command : Command) (input : BackendInput) (x : Conf) :
    ∃ u, Quiet x.1 u ∧
      (copyOutRead c command input x = (u, x.2) ∧ u.backendConn = x.1.backendConn ∨
        (∃ final, input.copyEnd = .done final) ∧ ∃ status v b, Quiet (u.queueReady status) v ∧
          copyOutRead c command input x = (v.setState .ready, b)) := by
  have hchunks : Quiet x.1
      (x.1.queueAll (.result c command) (input.copyChunks.map .copyData)) := by
    apply Quiet.queueAll
    · intro msg hmsg
      rcases List.mem_map.mp hmsg with ⟨chunk, -, rfl⟩
      rfl
    · simp
  unfold copyOutRead
  dsimp only
  cases hend : input.copyEnd with
  | pending => exact ⟨_, hchunks, Or.inl ⟨rfl, rfl⟩⟩
  | failed => exact ⟨_, hchunks, Or.inl ⟨rfl, rfl⟩⟩
  | done final =>
      rcases finishCopyOut_case c command input.xact final
        (x.1.queueAll (.result c command) (input.copyChunks.map .copyData), x.2) with
        ⟨t, status, u, ht, hu, heq⟩
      exact ⟨t, hchunks.trans ht, Or.inr ⟨⟨final, rfl⟩, status, u, _, hu, Prod.ext heq rfl⟩⟩

/-- What becomes of the results of the single backend. -/
theorem drainSingle_case (c : ConnId) (command : Command) (input : BackendInput) (x : Conf) :
    DrainCase input x (drainSingle c command input x) := by
  have hresults : Quiet x.1
      (x.1.queueAll (.result c command) (singleMessages false input.results).1) :=
    Quiet.queueAll _ (singleMessages_not_ready false input.results) (by simp)
  unfold drainSingle
  dsimp only
  cases hstop : (singleMessages false input.results).2 with
  | null =>
      rcases finishSingle_case c ((x.1.queueAll (.result c command)
        (singleMessages false input.results).1).noteOver .backend,
        x.2.endCommand c input.xact) with ⟨status, u, hreport, heq⟩
      dsimp only
      rw [← Prod.mk.eta (p := finishSingle c _), heq]
      exact DrainCase.finished _ u _ status (hresults.noteOver_noteOver .backend) hreport
  | copyIn nfields =>
      exact DrainCase.copyIn _ (hresults.trans (Quiet.queue _ rfl (by simp))) rfl
  | copyOut nfields =>
      rcases copyOutRead_case c command input (((x.1.queueAll (.result c command)
        (singleMessages false input.results).1).queue (.result c command)
        (.copyOutResponse nfields)).setState .copyOut, x.2) with ⟨u, hu, hcase⟩
      have hresponse : Quiet x.1 ((x.1.queueAll (.result c command)
          (singleMessages false input.results).1).queue (.result c command)
          (.copyOutResponse nfields)) := hresults.trans (Quiet.queue _ rfl (by simp))
      rcases hcase with ⟨heq, hconn⟩ | ⟨hend, status, v, b, hv, heq⟩
      · dsimp only
        rw [heq]
        exact DrainCase.copyOut _ u hresponse rfl hu hconn
      · dsimp only
        rw [heq]
        exact DrainCase.copyEnded _ u v b status hresponse hu hv ⟨nfields, hstop⟩ hend

/-! ## Events of a scatter -/

/-- The end of a scattered query, up to sending it. -/
def gathered (tag : Text) (x : Conf) : Conf :=
  let s := x.1.queue (.gather x.1.awaitedSlots) (.commandComplete tag)
  let y := sessionReleaseScatter (s.queueReady .idle, x.2)
  (y.1.setState .ready, y.2)

/-- A scatter goes on or is over. -/
theorem checkComplete_case (flush : SendOutcome) (x : Conf) :
    x.1.scatterDone < x.1.scatterCount ∧ checkComplete flush x = x ∨
      x.1.scatterCount ≤ x.1.scatterDone ∧
        ∃ tag, checkComplete flush x = flushOrDestroy flush (gathered tag x) := by
  unfold checkComplete
  split
  · rename_i hdone
    exact Or.inr ⟨hdone, _, rfl⟩
  · rename_i hdone
    exact Or.inl ⟨by omega, rfl⟩

/-- The query is over: its tag and ReadyForQuery were queued and the slots emptied. -/
structure Gathered (s s' : Session) : Prop where
  state : s'.state = .ready
  closed : s'.closed = s.closed
  queries : s'.queries = s.queries
  extended : s'.extended = s.extended
  sent : s'.sent = s.sent
  readies : s'.readies = s.readies ++ [⟨.readyForQuery .idle, .ready s.awaited.card⟩]
  gathers : ∃ tag, s'.gathers = s.gathers ++ [⟨.commandComplete tag, .gather s.awaitedSlots⟩]
  count : s'.scatterCount = 0
  done : s'.scatterDone = 0
  awaited : s'.awaited ⊆ s.awaited
  slot : ∀ j, (s'.scatter j).conn ≠ none → j ∉ s.slots ∧ s'.scatter j = s.scatter j

/-- The end of a scatter. -/
theorem gathered_gathered (tag : Text) (x : Conf) : Gathered x.1 (gathered tag x).1 := by
  rcases sessionReleaseScatter_released ((x.1.queue (.gather x.1.awaitedSlots)
    (.commandComplete tag)).queueReady .idle, x.2) with ⟨hempty, hcount, hdone⟩
  refine ⟨rfl, hempty.closed, hempty.queries, hempty.extended, hempty.sent, ?_, ⟨tag, ?_⟩, hcount,
    hdone, hempty.awaited, hempty.slot⟩
  · refine (congrArg (List.filter fun q : Queued => q.msg.isReady) hempty.out).trans ?_
    simp [Session.readies, Session.queueReady, Session.queue, Session.queueAll,
      BackendMsg.isReady]
  · refine (congrArg (List.filter _) hempty.out).trans ?_
    simp [Session.gathers, Session.queueReady, Session.queue, Session.queueAll]

/-- An event of a scatter is ignored, or counts its slot. -/
theorem ScatterCase.counts {i : Fin maxScatterShards} (h : ScatterCase i input flush x y) :
    y = x ∨ (input.hangup = true ∨ (x.1.scatter i).conn ≠ none) ∧
      ∃ t b, Quiet x.1 t ∧ t.backendConn = x.1.backendConn ∧
        y = checkComplete flush (markDone i t, b) := by
  cases h with
  | skip => exact Or.inl rfl
  | failed b hb hcause => exact Or.inr ⟨hcause, x.1, b, Quiet.refl _, rfl, rfl⟩
  | again c hconn hcommand =>
      exact Or.inr ⟨Or.inr (by rw [hconn]; simp), x.1, x.2, Quiet.refl _, rfl, rfl⟩
  | drained c command y hconn hcommand hdrain =>
      rcases Option.map_eq_some_iff.mp hdrain with ⟨⟨msgs, header⟩, hmsgs, rfl⟩
      have hrows : ∀ msg ∈ msgs, msg.isReady = false :=
        fun msg hmsg => BackendMsg.not_ready_of_isRow (scatterMessages_rows hmsgs msg hmsg)
      have hquiet : Quiet x.1 (x.1.queueAll (.result c command) msgs) :=
        Quiet.queueAll _ hrows (by simp)
      refine Or.inr ⟨Or.inr (by rw [hconn]; simp),
        { x.1.queueAll (.result c command) msgs with scatterHeaderSent := header },
        _, hquiet.trans ?_, rfl, rfl⟩
      exact ⟨rfl, rfl, rfl, rfl, rfl, rfl, rfl, rfl, rfl, rfl, Finset.Subset.refl _⟩

/-! ## What leaves a scatter alone -/

/-- Nothing that belongs to a scatter differs between the sessions. -/
structure SameScatter (s s' : Session) : Prop where
  scatter : s'.scatter = s.scatter
  count : s'.scatterCount = s.scatterCount
  done : s'.scatterDone = s.scatterDone
  closed : s'.closed = s.closed
  gathers : s'.gathers = s.gathers
  awaited : ∀ i, .slot i ∈ s'.awaited → .slot i ∈ s.awaited

namespace SameScatter

variable {s s' s'' : Session}

theorem trans (h : SameScatter s s') (h' : SameScatter s' s'') : SameScatter s s'' where
  scatter := h'.scatter.trans h.scatter
  count := h'.count.trans h.count
  done := h'.done.trans h.done
  closed := h'.closed.trans h.closed
  gathers := h'.gathers.trans h.gathers
  awaited := fun i hi => h.awaited i (h'.awaited i hi)

theorem of_quiet (h : Quiet s s') : SameScatter s s' :=
  ⟨h.scatter, h.count, h.done, h.closed, h.gathers, fun _ hi => h.awaited hi⟩

theorem slots (h : SameScatter s s') : s'.slots = s.slots := by
  rw [Session.slots, Session.slots, h.count]

theorem setState (s : Session) (state : SessionState) : SameScatter s (s.setState state) :=
  ⟨rfl, rfl, rfl, rfl, rfl, fun _ hi => hi⟩

theorem queueReady (s : Session) (status : TxnStatus) : SameScatter s (s.queueReady status) := by
  refine ⟨rfl, rfl, rfl, rfl, ?_, fun _ hi => hi⟩
  apply s.filter_queueAll
  intro msg _
  rfl

theorem refuse (s : Session) (severity code message : Text) :
    SameScatter s (refuse s severity code message) :=
  (of_quiet (Quiet.feSendError s severity code message)).trans (queueReady _ _)

theorem waitSingle (s : Session) (c : ConnId) (sql : Text) :
    SameScatter s (s.waitSingle c sql) := by
  refine ⟨rfl, rfl, rfl, rfl, rfl, fun i hi => ?_⟩
  rcases Finset.mem_insert.mp hi with heq | hi
  · cases heq
  · exact hi

end SameScatter

/-- A report and the change of state after it. -/
theorem SameScatter.report {s u : Session} {status : TxnStatus}
    (h : Quiet (s.queueReady status) u) (state : SessionState) :
    SameScatter s (u.setState state) :=
  ((SameScatter.queueReady s status).trans (.of_quiet h)).trans (.setState u state)

/-- Rounds of the loop over the receive buffer. -/
theorem Intake.sameScatter {s s' : Session} (h : Intake s s') : SameScatter s s' := by
  cases h with
  | same => exact .of_quiet (Quiet.refl s)
  | consume n => exact ⟨rfl, rfl, rfl, rfl, rfl, fun _ hi => hi⟩
  | sslRefused n hstate =>
      have hquiet : Quiet s (s.queue .proxy .sslRefused) := Quiet.queue s rfl (by simp)
      exact ⟨rfl, rfl, rfl, rfl, hquiet.gathers, fun _ hi => hi⟩
  | startup n user database hstate =>
      have hmsgs : ∀ msg ∈ startupMessages s.pid s.secretKey, msg.isReady = false := by
        simp [startupMessages, BackendMsg.isReady]
      have hsame : SameScatter s { s with user := user, database := database,
                                          recvBuf := s.recvBuf.consume n } :=
        ⟨rfl, rfl, rfl, rfl, rfl, fun _ hi => hi⟩
      apply hsame.trans
      refine SameScatter.trans (.of_quiet (Quiet.queueAll _ hmsgs ?_))
        ((SameScatter.queueReady _ .idle).trans (.setState _ .ready))
      simp
  | copyPut n put after hstate hafter => exact ⟨rfl, rfl, rfl, rfl, rfl, fun _ hi => hi⟩
  | extended n hstate =>
      have hsame : SameScatter s { s with extended := s.extended + 1 } :=
        ⟨rfl, rfl, rfl, rfl, rfl, fun _ hi => hi⟩
      apply (hsame.trans (.refuse _ (ascii "ERROR") (ascii "0A000")
        (ascii "extended query protocol not yet supported"))).trans
      exact ⟨rfl, rfl, rfl, rfl, rfl, fun _ hi => hi⟩

/-- The loop over the receive buffer. -/
theorem Intakes.sameScatter {s s' : Session} (h : Intakes s s') : SameScatter s s' := by
  induction h with
  | refl => exact .of_quiet (Quiet.refl s)
  | tail _ hlast ih => exact ih.trans hlast.sameScatter

/-- A session after a callback that may have ended it. -/
def LiveOrEnded (s s' : Session) : Prop :=
  Quiet s s' ∨ Ended s s'

/-- Sending what is queued. -/
theorem flushOrDestroy_end (flush : SendOutcome) (x : Conf) :
    LiveOrEnded x.1 (flushOrDestroy flush x).1 :=
  (flushOrDestroy_case flush x).imp Kept.quiet id

/-- The effect of a callback on a scatter: it is left alone, or a new one is started. -/
inductive ScatterEffect (s : Session) : Session → Prop where
  | kept (t s' : Session) (hsame : SameScatter s t)
      (hstate : t.state = .scatter ↔ s.state = .scatter) (hend : LiveOrEnded t s') :
      ScatterEffect s s'
  | started (t : Session) (b : Backends) (sql : Text) (targets : List Shard)
      (input : ClientInput) (s' : Session) (hsame : SameScatter s t)
      (hfree : s.state ≠ .scatter)
      (hend : LiveOrEnded (executeScatter sql targets input (t, b)).1.1 s') :
      ScatterEffect s s'

/-- What a query does to the scatter. -/
theorem QueryCase.scatter {s t : Session} {r : Conf × Bool} (h : QueryCase s r)
    (hfree : s.state ≠ .scatter) (hend : LiveOrEnded r.1.1 t) : ScatterEffect s t := by
  cases h with
  | refused u b severity code message hquiet =>
      apply ScatterEffect.kept _ t ((SameScatter.of_quiet hquiet).trans (.refuse _ _ _ _)) _ hend
      rw [← hquiet.state]
      rfl
  | answered b tag =>
      apply ScatterEffect.kept _ t _ _ hend
      · exact (SameScatter.of_quiet (Quiet.queue s rfl (by simp))).trans (.queueReady _ _)
      · rfl
  | sent u b c sql hquiet hconn hcommand =>
      apply ScatterEffect.kept _ t ((SameScatter.of_quiet hquiet).trans (.waitSingle _ _ _)) _ hend
      exact iff_of_false (by simp [Session.waitSingle, Session.setState, Session.setBusy]) hfree
  | scattered sql targets input b =>
      exact ScatterEffect.started s b sql targets input t (.of_quiet (Quiet.refl s)) hfree hend

/-- What leaves the scatter alone may come before. -/
theorem ScatterEffect.of_same {s t s' : Session} (hsame : SameScatter s t)
    (hstate : t.state = .scatter ↔ s.state = .scatter) (h : ScatterEffect t s') :
    ScatterEffect s s' := by
  cases h with
  | kept u _ hsame' hstate' hend =>
      exact ScatterEffect.kept u s' (hsame.trans hsame') (hstate'.trans hstate) hend
  | started u b sql targets input _ hsame' hfree hend =>
      exact ScatterEffect.started u b sql targets input s' (hsame.trans hsame')
        (fun hs => hfree (hstate.mpr hs)) hend

/-- Starting a scatter does not end the session. -/
theorem executeScatter_closed (sql : Text) (targets : List Shard) (input : ClientInput)
    (x : Conf) : (executeScatter sql targets input x).1.1.closed = x.1.closed := by
  have hclosed := (startScatter_started sql targets input x).closed
  unfold executeScatter
  split
  · rfl
  · dsimp only
    split
    · exact hclosed
    · exact hclosed

/-- An event of the client's socket starts a scatter only by a Query message, and never
during another one. -/
theorem ClientCase.scatter {cfg : Config} {input : ClientInput} (h : ClientCase cfg input x y) :
    ScatterEffect x.1 y.1 := by
  have hself : SameScatter x.1 x.1 := .of_quiet (Quiet.refl x.1)
  cases h with
  | skip => exact ScatterEffect.kept x.1 _ hself Iff.rfl (Or.inl (Quiet.refl _))
  | destroy => exact ScatterEffect.kept x.1 _ hself Iff.rfl (Or.inr (sessionDestroy_ended x))
  | flush => exact ScatterEffect.kept x.1 _ hself Iff.rfl (flushOrDestroy_end input.flush x)
  | input bytes r hcallback hhangup hrecv hcase =>
      have hend : LiveOrEnded r.1.1 (afterInput input.flush r).1 :=
        (afterInput_case input.flush r).imp (fun hkept => hkept.2.quiet) id
      have hreceive : SameScatter x.1 (x.1.receive bytes) :=
        ⟨rfl, rfl, rfl, rfl, rfl, fun _ hi => hi⟩
      cases hcase with
      | ret s ok hloop =>
          exact ScatterEffect.kept s _ (hreceive.trans hloop.sameScatter) hloop.scatter_iff hend
      | query t n sql r hloop hstate hexit hquery =>
          apply ScatterEffect.of_same (hreceive.trans hloop.sameScatter) hloop.scatter_iff
          have hcount : SameScatter t
              (Session.countQuery { t with recvBuf := t.recvBuf.consume n }) :=
            ⟨rfl, rfl, rfl, rfl, rfl, fun _ hi => hi⟩
          apply ScatterEffect.of_same hcount Iff.rfl
          exact (handleQuery_case hquery).scatter hstate.2.2.1 hend

/-- The results of the single backend leave the scatter alone. -/
theorem DrainCase.sameScatter (h : DrainCase input x y) :
    SameScatter x.1 y.1 ∧ y.1.state ≠ .scatter := by
  cases h with
  | finished t u b status hquiet hreport =>
      exact ⟨(SameScatter.of_quiet ((Quiet.noteOver _ _).trans hquiet)).trans
        (.report hreport .ready), by simp [Session.setState]⟩
  | copyIn t hquiet hconn =>
      exact ⟨(SameScatter.of_quiet hquiet).trans (.setState t .copyIn), by simp [Session.setState]⟩
  | copyOut t u hquiet hconn hcopy hkept =>
      refine ⟨((SameScatter.of_quiet hquiet).trans (.setState t .copyOut)).trans (.of_quiet hcopy),
        ?_⟩
      change u.state ≠ .scatter
      rw [hcopy.state]
      simp [Session.setState]
  | copyEnded t u v b status hquiet hcopy hreport hstop hend =>
      exact ⟨(((SameScatter.of_quiet hquiet).trans (.setState t .copyOut)).trans
        (.of_quiet hcopy)).trans (.report hreport .ready), by simp [Session.setState]⟩

/-- The events of the single backend leave a scatter alone, but may set the state. -/
theorem BackendCase.scatter (h : BackendCase input flush x y) :
    ∃ t, SameScatter x.1 t ∧ (t.state = x.1.state ∨ input.hangup = false ∧ t.state ≠ .scatter) ∧
      LiveOrEnded t y.1 := by
  have hself : SameScatter x.1 x.1 := .of_quiet (Quiet.refl x.1)
  cases h with
  | lost message b hb =>
      exact ⟨x.1, hself, Or.inl rfl, Or.inr (backendLost_ended message flush (x.1, b))⟩
  | skip => exact ⟨x.1, hself, Or.inl rfl, Or.inl (Quiet.refl _)⟩
  | quiet c hconn hhangup hcommand =>
      rcases finishSingle_case c x with ⟨status, u, hreport, heq⟩
      refine ⟨(finishSingle c x).1, ?_, Or.inr ⟨hhangup, ?_⟩, flushOrDestroy_end flush _⟩
      · rw [heq]
        exact .report hreport .ready
      · rw [heq]
        simp [Session.setState]
  | drain c command hconn hhangup hcommand =>
      have hdrain := (drainSingle_case c command input x).sameScatter
      exact ⟨_, hdrain.1, Or.inr ⟨hhangup, hdrain.2⟩, flushOrDestroy_end flush _⟩

end Sharegres
