import Sharegres.Session.Refinement
import Sharegres.System.Isolation
import Sharegres.System.ScatterCounting

/-!
# System - One ReadyForQuery per Query

A session owes one ReadyForQuery for the startup packet and one for every Query message.
It queues them one by one, each when no answer of a backend is awaited, as long as the
handler of the single backend is called for the answer of a query only.  The source does
not check the state of the session there, so that any other message of an idle backend
yields one more ReadyForQuery.

Main results:

- Definitions {lit}`InStep` and {lit}`Due`: a session between callbacks, and one that owes
  an answer and awaits nothing.
- Theorem {lit}`one_ready_per_query`: the count in every orderly run.
- Theorem {lit}`notice_answered_again`: an idle backend that speaks up is answered.
-/

namespace Sharegres

open Foundation

variable {cfg : Config} {p p' : Proxy}

/-- A query is in progress on the single backend. -/
def SessionState.single (state : SessionState) : Prop :=
  state = .query ∨ state = .copyIn ∨ state = .copyOut

instance (state : SessionState) : Decidable state.single :=
  inferInstanceAs (Decidable (_ ∨ _))

/-- The number of queries in progress. -/
def SessionState.inFlight : SessionState → Nat
  | .query | .scatter | .copyIn | .copyOut => 1
  | .init | .auth | .ready | .closing => 0

/-- The number of startup packets handled. -/
def SessionState.started : SessionState → Nat
  | .init => 0
  | _ => 1

/-- Between two callbacks of a live session: what it awaits belongs to its query, and one
ReadyForQuery is missing if a query is in progress. -/
structure InStep (x : Conf) : Prop where
  counted : x.1.Counted
  state : x.1.state ≠ .auth ∧ x.1.state ≠ .closing
  running : ∀ i ∈ x.1.slots, (x.1.scatter i).done = false → x.1.state = .scatter
  backend : .backend ∈ x.1.awaited →
    x.1.state.single ∧ ∃ c, x.1.backendConn = some c ∧ (x.2.conns c).command ≠ none
  slot : ∀ i, .slot i ∈ x.1.awaited → i ∈ x.1.slots ∧ (x.1.scatter i).done = false
  ready : ∀ q ∈ x.1.readies, q.origin = .ready 0
  count : x.1.readies.length + x.1.state.inFlight =
    x.1.state.started + x.1.queries + x.1.extended

/-- During a callback: one ReadyForQuery is missing, and no answer is awaited. -/
structure Due (s : Session) : Prop where
  counted : s.Counted
  done : ∀ i ∈ s.slots, (s.scatter i).done = true
  none : s.awaited = ∅
  ready : ∀ q ∈ s.readies, q.origin = .ready 0
  count : s.readies.length = s.queries + s.extended

/-- What is left of both when the session has ended. -/
structure Session.Answers (s : Session) : Prop where
  ready : ∀ q ∈ s.readies, q.origin = .ready 0
  count : s.readies.length ≤ 1 + s.queries + s.extended

/-- One more report. -/
theorem Session.readies_queueReady (s : Session) (status : TxnStatus) :
    (s.queueReady status).readies =
      s.readies ++ [⟨.readyForQuery status, .ready s.awaited.card⟩] := by
  unfold readies queueReady queue queueAll
  rw [List.filter_append]
  rfl

/-! ## Owing an answer -/

/-- The answer: one ReadyForQuery. -/
structure Answered (s s' : Session) : Prop where
  state : s'.state = .ready
  scatter : SameScatter s s'
  queries : s'.queries = s.queries
  extended : s'.extended = s.extended
  readies : ∃ status, s'.readies = s.readies ++ [⟨.readyForQuery status, .ready s.awaited.card⟩]
  awaited : s'.awaited ⊆ s.awaited

/-- A report and quiet steps answer a query. -/
theorem Answered.report {s u : Session} {status : TxnStatus} (h : Quiet (s.queueReady status) u) :
    Answered s (u.setState .ready) where
  state := rfl
  scatter := .report h .ready
  queries := h.queries
  extended := h.extended
  readies := ⟨status, h.readies.trans (s.readies_queueReady status)⟩
  awaited := h.awaited

theorem Answered.queueReady (s : Session) (hstate : s.state = .ready) (status : TxnStatus) :
    Answered s (s.queueReady status) where
  state := hstate
  scatter := .queueReady s status
  queries := rfl
  extended := rfl
  readies := ⟨status, s.readies_queueReady status⟩
  awaited := Finset.Subset.refl _

/-- A session in step has no more answers than are due. -/
theorem InStep.answers {x : Conf} (h : InStep x) : x.1.Answers := by
  refine ⟨h.ready, ?_⟩
  have hcount := h.count
  have hstarted : x.1.state.started ≤ 1 := by
    cases x.1.state <;> decide
  omega

namespace Due

variable {s s' : Session} {b : Backends}

theorem quiet (h : Due s) (hquiet : Quiet s s') : Due s' where
  counted := h.counted.same (.of_quiet hquiet)
  done := by
    rw [hquiet.slots, hquiet.scatter]
    exact h.done
  none := Finset.subset_empty.mp (h.none ▸ hquiet.awaited)
  ready := by
    rw [hquiet.readies]
    exact h.ready
  count := by
    rw [hquiet.readies, hquiet.queries, hquiet.extended]
    exact h.count

/-- Nor has a session that owes one. -/
theorem answers (h : Due s) : s.Answers :=
  ⟨h.ready, by have := h.count; omega⟩

/-- The query is answered. -/
theorem answered (h : Due s) (hanswer : Answered s s') : InStep (s', b) := by
  have hnone : s'.awaited = ∅ := Finset.subset_empty.mp (h.none ▸ hanswer.awaited)
  rcases hanswer.readies with ⟨status, hreadies⟩
  constructor
  case counted => exact h.counted.same hanswer.scatter
  case state =>
    rw [hanswer.state]
    simp
  case running =>
    intro i hi hopen
    rw [hanswer.scatter.slots] at hi
    rw [hanswer.scatter.scatter, h.done i hi] at hopen
    cases hopen
  case backend =>
    intro hawaited
    rw [hnone] at hawaited
    cases hawaited
  case slot =>
    intro i hawaited
    rw [hnone] at hawaited
    cases hawaited
  case ready =>
    rw [hreadies]
    intro q hq
    rcases List.mem_append.mp hq with hq | hq
    · exact h.ready q hq
    · rw [List.mem_singleton] at hq
      rw [hq, h.none]
      rfl
  case count =>
    have hcount := h.count
    rw [hreadies, hanswer.state, hanswer.queries, hanswer.extended, List.length_append]
    simp only [SessionState.inFlight, SessionState.started, List.length_singleton]
    omega

theorem queueReady (h : Due s) (hstate : s.state = .ready) (status : TxnStatus) :
    InStep (s.queueReady status, b) :=
  h.answered (Answered.queueReady s hstate status)

/-- The query is sent on the single backend. -/
theorem waitSingle (h : Due s) {c : ConnId} (sql : Text) (hconn : s.backendConn = some c)
    (hcommand : (b.conns c).command ≠ Option.none) : InStep (s.waitSingle c sql, b) := by
  have hawaited : ∀ q, q ∈ (s.waitSingle c sql).awaited → q = .backend := by
    intro q hq
    rcases Finset.mem_insert.mp hq with hq | hq
    · exact hq
    · rw [h.none] at hq
      cases hq
  constructor
  case counted => exact h.counted.same (.waitSingle s c sql)
  case state => simp [Session.waitSingle, Session.setState, Session.setBusy]
  case running =>
    intro i hi hopen
    have hdone := h.done i hi
    rw [show (s.waitSingle c sql).scatter = s.scatter from rfl, hdone] at hopen
    cases hopen
  case backend => exact fun _ => ⟨Or.inl rfl, c, hconn, hcommand⟩
  case slot =>
    intro i hi
    cases hawaited _ hi
  case ready => exact h.ready
  case count =>
    have hcount := h.count
    change s.readies.length + 1 = 1 + s.queries + s.extended
    omega

/-- What a scatter that was started awaits. -/
theorem awaited_startScatter (h : Due s) {sql : Text} {targets : List Shard}
    {input : ClientInput} {q : Place} (hq : q ∈ (startScatter sql targets input (s, b)).1.awaited) :
    ∃ i ∈ (startScatter sql targets input (s, b)).1.slots, q = .slot i ∧
      ((startScatter sql targets input (s, b)).1.scatter i).done = false := by
  have hstarted := startScatter_started sql targets input (s, b)
  rw [startScatter_slots]
  by_cases hslot : ∃ i ∈ (List.finRange maxScatterShards).take targets.length, q = .slot i
  · rcases hslot with ⟨i, hi, rfl⟩
    rcases hstarted.slot i hi with ⟨-, -, hover⟩ | ⟨hopen, -, -⟩
    · exact absurd hq hover
    · exact ⟨i, hi, rfl, hopen⟩
  · -- nothing else was awaited before
    rw [hstarted.awaited q fun i hi heq => hslot ⟨i, hi, heq⟩] at hq
    have hnone : q ∈ s.awaited := hq
    rw [h.none] at hnone
    cases hnone

/-- A scatter whose targets all failed is answered at once; otherwise it is in progress. -/
theorem executeScatter (h : Due s) (sql : Text) (targets : List Shard) (input : ClientInput) :
    (executeScatter sql targets input (s, b)).1.1.Answers ∧
      ((executeScatter sql targets input (s, b)).2 = true →
        InStep (executeScatter sql targets input (s, b)).1) := by
  have hstarted := startScatter_started sql targets input (s, b)
  have hcounted := h.counted.startScatter sql targets input b
  have hawaited : ∀ q ∈ (startScatter sql targets input (s, b)).1.awaited, _ :=
    fun q hq => h.awaited_startScatter hq
  unfold Sharegres.executeScatter
  generalize startScatter sql targets input (s, b) = y at *
  have hreadies : y.1.readies = s.readies := congrArg (List.filter _) hstarted.out
  have hcount : y.1.readies.length = y.1.queries + y.1.extended := by
    rw [hreadies, hstarted.queries, hstarted.extended]
    exact h.count
  have hready : ∀ q ∈ y.1.readies, q.origin = .ready 0 := by
    rw [hreadies]
    exact h.ready
  by_cases hmany : maxScatterShards < targets.length
  · rw [if_pos hmany]
    exact ⟨h.answers, fun hfalse => by cases hfalse⟩
  · rw [if_neg hmany]
    dsimp only
    by_cases hfailed : targets.length ≤ y.1.scatterDone
    · rw [if_pos hfailed]
      have hdone : ∀ i ∈ y.1.slots, (y.1.scatter i).done = true := by
        apply Session.all_done
        rw [← hcounted.done, hstarted.count]
        exact hfailed
      have hdue : Due y.1 := by
        refine ⟨hcounted, hdone, Finset.eq_empty_of_forall_notMem fun q hq => ?_, hready, hcount⟩
        rcases hawaited q hq with ⟨i, hi, -, hopen⟩
        rw [hdone i hi] at hopen
        cases hopen
      have herror : Due (y.1.feSendError (ascii "ERROR") (ascii "08001")
          (ascii "all scatter connections failed")) := hdue.quiet (Quiet.feSendError _ _ _ _)
      have hstep : InStep (_, y.2) :=
        herror.answered (Answered.report (Quiet.refl (Session.queueReady _ .idle)))
      exact ⟨hstep.answers, fun _ => hstep⟩
    · rw [if_neg hfailed]
      have hstep : InStep (y.1.setState .scatter, y.2) := by
        constructor
        case counted => exact hcounted.same (.setState _ _)
        case state => simp [Session.setState]
        case running => exact fun i hi hopen => rfl
        case backend =>
          intro hq
          rcases hawaited _ hq with ⟨i, -, heq, -⟩
          cases heq
        case slot =>
          intro i hq
          rcases hawaited _ hq with ⟨j, hj, heq, hopen⟩
          cases heq
          exact ⟨hj, hopen⟩
        case ready => exact hready
        case count =>
          change y.1.readies.length + 1 = 1 + y.1.queries + y.1.extended
          omega
      exact ⟨hstep.answers, fun _ => hstep⟩

end Due

/-! ## Between callbacks -/

namespace InStep

variable {x y : Conf}

/-- Only a query in progress awaits answers. -/
theorem awaited_eq_empty (h : InStep x) (hsingle : ¬ x.1.state.single)
    (hscatter : x.1.state ≠ .scatter) : x.1.awaited = ∅ := by
  apply Finset.eq_empty_of_forall_notMem
  intro q hq
  cases q with
  | backend => exact hsingle (h.backend hq).1
  | slot i =>
      rcases h.slot i hq with ⟨hi, hopen⟩
      exact hscatter (h.running i hi hopen)

/-- Outside a scatter its slots are done. -/
theorem done_of_not_scatter (h : InStep x) (hscatter : x.1.state ≠ .scatter) :
    ∀ i ∈ x.1.slots, (x.1.scatter i).done = true := by
  intro i hi
  by_contra hopen
  exact hscatter (h.running i hi (by simpa using hopen))

/-- Nothing happened but messages that end no query, and the backend is as before. -/
theorem quiet (h : InStep x) {s : Session} {b : Backends} (hquiet : Quiet x.1 s)
    (hconn : s.backendConn = x.1.backendConn)
    (hcommand : ∀ c, x.1.backendConn = some c → (b.conns c).command = (x.2.conns c).command) :
    InStep (s, b) := by
  constructor
  case counted => exact h.counted.same (.of_quiet hquiet)
  case state =>
    rw [hquiet.state]
    exact h.state
  case running =>
    rw [hquiet.slots, hquiet.scatter, hquiet.state]
    exact h.running
  case backend =>
    intro hq
    rcases h.backend (hquiet.awaited hq) with ⟨hsingle, c, hc, hbusy⟩
    rw [hquiet.state, hconn]
    refine ⟨hsingle, c, hc, ?_⟩
    rw [hcommand c hc]
    exact hbusy
  case slot =>
    intro i hq
    rw [hquiet.slots, hquiet.scatter]
    exact h.slot i (hquiet.awaited hq)
  case ready =>
    rw [hquiet.readies]
    exact h.ready
  case count =>
    rw [hquiet.readies, hquiet.state, hquiet.queries, hquiet.extended]
    exact h.count

theorem kept (h : InStep x) (hkept : Kept x y) : InStep y :=
  h.quiet hkept.quiet hkept.backend fun _ _ => by rw [hkept.backends]

/-- The state in which the messages of a client are handled. -/
theorem ready_of_takesQueries (h : InStep x) (hstate : x.1.state.takesQueries) :
    x.1.state = .ready := by
  rcases hstate with ⟨hinit, hquery, hscatter, hout, hin⟩
  cases hs : x.1.state with
  | init => exact absurd hs hinit
  | auth => exact absurd hs h.state.1
  | ready => rfl
  | query => exact absurd hs hquery
  | scatter => exact absurd hs hscatter
  | copyIn => exact absurd hs hin
  | copyOut => exact absurd hs hout
  | closing => exact absurd hs h.state.2

/-- A message of the client that asks for an answer. -/
theorem due_request (h : InStep x) (hstate : x.1.state = .ready) {s : Session}
    (hsame : SameScatter x.1 s) (hawaited : s.awaited = x.1.awaited)
    (hreadies : s.readies = x.1.readies)
    (hasked : s.queries + s.extended = x.1.queries + x.1.extended + 1) : Due s where
  counted := h.counted.same hsame
  done := by
    rw [hsame.slots, hsame.scatter]
    exact h.done_of_not_scatter (by rw [hstate]; simp)
  none := by
    rw [hawaited]
    exact h.awaited_eq_empty (by rw [hstate]; decide) (by rw [hstate]; simp)
  ready := by
    rw [hreadies]
    exact h.ready
  count := by
    have hcount := h.count
    rw [hstate] at hcount
    simp only [SessionState.inFlight, SessionState.started] at hcount
    rw [hreadies]
    omega

/-- The startup packet asks for an answer. -/
theorem due_startup (h : InStep x) (hstate : x.1.state = .init) : Due x.1 where
  counted := h.counted
  done := h.done_of_not_scatter (by rw [hstate]; simp)
  none := h.awaited_eq_empty (by rw [hstate]; decide) (by rw [hstate]; simp)
  ready := h.ready
  count := by
    have hcount := h.count
    rw [hstate] at hcount
    simp only [SessionState.inFlight, SessionState.started] at hcount
    omega

/-- The single backend has answered. -/
theorem due_single (h : InStep x) (hstate : x.1.state.single) (hover : .backend ∉ x.1.awaited) :
    Due x.1 where
  counted := h.counted
  done := h.done_of_not_scatter (by rcases hstate with hs | hs | hs <;> rw [hs] <;> simp)
  none := by
    apply Finset.eq_empty_of_forall_notMem
    intro q hq
    cases q with
    | backend => exact hover hq
    | slot i =>
        rcases h.slot i hq with ⟨hi, hopen⟩
        have hscatter := h.running i hi hopen
        rcases hstate with hs | hs | hs <;> rw [hs] at hscatter <;> cases hscatter
  ready := h.ready
  count := by
    have hcount := h.count
    rcases hstate with hs | hs | hs <;> rw [hs] at hcount <;>
      simp only [SessionState.inFlight, SessionState.started] at hcount <;> omega

/-- A copy is started or goes on, or its end was passed on to the backend. -/
theorem setState (h : InStep x) (hstate : x.1.state.single) {state : SessionState}
    (hafter : state.single) : InStep (x.1.setState state, x.2) where
  counted := h.counted.same (.setState _ _)
  state := by rcases hafter with rfl | rfl | rfl <;> simp [Session.setState]
  running := by
    intro i hi hopen
    have hscatter := h.running i hi hopen
    rcases hstate with hs | hs | hs <;> rw [hs] at hscatter <;> cases hscatter
  backend := fun hq => ⟨hafter, (h.backend hq).2⟩
  slot := h.slot
  ready := h.ready
  count := by
    have hcount := h.count
    change x.1.readies.length + state.inFlight = state.started + x.1.queries + x.1.extended
    rcases hstate with hs | hs | hs <;> rcases hafter with rfl | rfl | rfl <;>
      rw [hs] at hcount <;> exact hcount

end InStep

/-! ## The loop over the receive buffer -/

/-- A round of the receive loop. -/
theorem Intake.inStep {s s' : Session} {b : Backends} (h : Intake s s') (hstep : InStep (s, b)) :
    InStep (s', b) := by
  have hquiet : ∀ {t : Session}, Quiet s t → t.backendConn = s.backendConn → InStep (t, b) :=
    fun hq hconn => hstep.quiet hq hconn fun _ _ => rfl
  cases h with
  | same => exact hstep
  | consume n =>
      exact hquiet ⟨rfl, rfl, rfl, rfl, rfl, rfl, rfl, rfl, rfl, rfl, Finset.Subset.refl _⟩ rfl
  | sslRefused n hstate =>
      have hqueue : Quiet s (s.queue .proxy .sslRefused) := Quiet.queue s rfl (by simp)
      exact hquiet ⟨rfl, rfl, rfl, rfl, rfl, rfl, rfl, rfl, hqueue.readies, hqueue.gathers,
        Finset.Subset.refl _⟩ rfl
  | startup n user database hstate =>
      have hmsgs : ∀ msg ∈ startupMessages s.pid s.secretKey, msg.isReady = false := by
        simp [startupMessages, BackendMsg.isReady]
      have hsame : Quiet s { s with user := user, database := database,
                                    recvBuf := s.recvBuf.consume n } :=
        ⟨rfl, rfl, rfl, rfl, rfl, rfl, rfl, rfl, rfl, rfl, Finset.Subset.refl _⟩
      have hdue := (hstep.due_startup hstate).quiet (hsame.trans
        (Quiet.queueAll _ hmsgs (fun _ => Origin.noConfusion : ∀ n, Origin.proxy ≠ .gather n)))
      exact hdue.answered (Answered.report (Quiet.refl (Session.queueReady _ .idle)))
  | copyPut n put after hstate hafter =>
      have hsingle : s.state.single := Or.inr (Or.inl hstate)
      have hcopy := hstep.setState hsingle (hafter.elim (fun h => Or.inr (Or.inl h)) Or.inl)
      exact hcopy.quiet
        ⟨rfl, rfl, rfl, rfl, rfl, rfl, rfl, rfl, rfl, rfl, Finset.Subset.refl _⟩ rfl fun _ _ => rfl
  | extended n hstate =>
      have hready := hstep.ready_of_takesQueries hstate
      have hdue : Due { s with extended := s.extended + 1 } :=
        hstep.due_request hready ⟨rfl, rfl, rfl, rfl, rfl, fun _ hi => hi⟩ rfl rfl rfl
      have herror := hdue.quiet (Quiet.feSendError _ (ascii "ERROR") (ascii "0A000")
        (ascii "extended query protocol not yet supported"))
      have hanswered : InStep (_, b) := herror.queueReady hready .idle
      exact hanswered.quiet
        ⟨rfl, rfl, rfl, rfl, rfl, rfl, rfl, rfl, rfl, rfl, Finset.Subset.refl _⟩ rfl fun _ _ => rfl

theorem Intakes.inStep {s s' : Session} {b : Backends} (h : Intakes s s')
    (hstep : InStep (s, b)) : InStep (s', b) := by
  induction h with
  | refl => exact hstep
  | tail _ hlast ih => exact hlast.inStep ih

/-! ## Callbacks -/

/-- The outcome of a callback: the session is between callbacks, or it has ended. -/
structure Settled (x : Conf) : Prop where
  live : x.1.closed = false → InStep x
  answers : x.1.Answers

theorem InStep.settled {x : Conf} (h : InStep x) : Settled x :=
  ⟨fun _ => h, h.answers⟩

/-- Nor has a session that has ended. -/
theorem Settled.of_ended {s : Session} {y : Conf} (h : s.Answers) (hended : Ended s y.1) :
    Settled y := by
  constructor
  · intro hopen
    rw [hended.closed] at hopen
    cases hopen
  · refine ⟨?_, ?_⟩
    · rw [hended.readies]
      exact h.ready
    · rw [hended.readies, hended.queries, hended.extended]
      exact h.count

/-- Sending what is queued, or the end of the session. -/
theorem InStep.flush {x : Conf} (h : InStep x) (flush : SendOutcome) :
    Settled (flushOrDestroy flush x) := by
  rcases flushOrDestroy_case flush x with hkept | hended
  · exact (h.kept hkept).settled
  · exact .of_ended h.answers hended

/-- A Query message in a session that is ready. -/
theorem QueryCase.inStep {s : Session} {r : Conf × Bool} (h : QueryCase s r) (hdue : Due s)
    (hstate : s.state = .ready) : r.1.1.Answers ∧ (r.2 = true → InStep r.1) := by
  have hboth : ∀ {x : Conf}, InStep x → x.1.Answers ∧ (true = true → InStep x) :=
    fun hx => ⟨hx.answers, fun _ => hx⟩
  cases h with
  | refused t b severity code message hquiet =>
      have herror := (hdue.quiet hquiet).quiet (Quiet.feSendError t severity code message)
      exact hboth (herror.queueReady (hquiet.state.trans hstate) .idle)
  | answered b tag =>
      have htag : Due (s.queue .proxy (.commandComplete tag)) :=
        hdue.quiet (Quiet.queue s rfl (by simp))
      exact hboth (htag.queueReady hstate .idle)
  | sent t b c sql hquiet hconn hcommand =>
      exact hboth ((hdue.quiet hquiet).waitSingle sql hconn hcommand)
  | scattered sql targets input b => exact hdue.executeScatter sql targets input

/-- The events of the client's socket. -/
theorem ClientCase.settled {input : ClientInput} {x y : Conf} (hcase : ClientCase cfg input x y)
    (h : InStep x) : Settled y := by
  cases hcase with
  | skip => exact h.settled
  | destroy => exact .of_ended h.answers (sessionDestroy_ended x)
  | flush => exact h.flush input.flush
  | input bytes r hcallback hhangup hrecv hcase =>
      have hreceive : InStep (x.1.receive bytes, x.2) := h.quiet
        ⟨rfl, rfl, rfl, rfl, rfl, rfl, rfl, rfl, rfl, rfl, Finset.Subset.refl _⟩ rfl fun _ _ => rfl
      have hafter : r.1.1.Answers ∧ (r.2 = true → InStep r.1) := by
        cases hcase with
        | ret s ok hloop =>
            have hstep := hloop.inStep hreceive
            exact ⟨hstep.answers, fun _ => hstep⟩
        | query t n sql r hloop hstate hexit hquery =>
            have hstep := hloop.inStep hreceive
            have hready := hstep.ready_of_takesQueries hstate
            have hdue : Due (Session.countQuery { t with recvBuf := t.recvBuf.consume n }) := by
              refine InStep.due_request (s := Session.countQuery _) hstep hready
                ⟨rfl, rfl, rfl, rfl, rfl, fun _ hi => hi⟩ rfl rfl ?_
              exact Nat.add_right_comm _ _ _
            exact (handleQuery_case hquery).inStep hdue hready
      rcases afterInput_case input.flush r with ⟨hok, hkept⟩ | hended
      · exact ((hafter.2 hok).kept hkept).settled
      · exact .of_ended hafter.1 hended

/-- A copy to the client ends. -/
def endsCopyOut (input : BackendInput) : Bool :=
  match (singleMessages false input.results).2, input.copyEnd with
  | .copyOut _, .done _ => true
  | _, _ => false

/-- The handler asks the single backend for results: it has a connection that neither fails nor
keeps it waiting. -/
def asksBackend (input : BackendInput) (x : Conf) : Bool :=
  !input.hangup && input.consumeFails.isNone &&
    x.1.backendConn.any fun c => (x.2.conns c).command.isNone || !input.busy

/-- The single backend reports for the query in progress, and no copy to the client ends. -/
def Reports (state : SessionState) (input : BackendInput) : Prop :=
  state.single ∧ endsCopyOut input = false

instance (state : SessionState) (input : BackendInput) : Decidable (Reports state input) :=
  inferInstanceAs (Decidable (_ ∧ _))

/-- The results of the single backend. -/
theorem DrainCase.inStep {input : BackendInput} {x y : Conf} (hcase : DrainCase input x y)
    (h : InStep x) (hreports : Reports x.1.state input) : InStep y := by
  cases hcase with
  | finished t u b status hquiet hreport =>
      have hover : InStep (x.1.noteOver .backend, x.2) :=
        h.quiet (Quiet.noteOver _ _) rfl fun _ _ => rfl
      have hdue := (hover.due_single hreports.1 (Finset.notMem_erase _ _)).quiet hquiet
      exact hdue.answered (Answered.report hreport)
  | copyIn t hquiet hconn =>
      have ht : InStep (t, x.2) := h.quiet hquiet hconn fun _ _ => rfl
      exact ht.setState (hquiet.state ▸ hreports.1) (Or.inr (Or.inl rfl))
  | copyOut t u hquiet hconn hcopy hkept =>
      have ht : InStep (t, x.2) := h.quiet hquiet hconn fun _ _ => rfl
      have hcopying := ht.setState (hquiet.state ▸ hreports.1) (Or.inr (Or.inr rfl))
      exact hcopying.quiet hcopy hkept fun _ _ => rfl
  | copyEnded t u v b status hquiet hcopy hreport hstop hend =>
      rcases hstop with ⟨nfields, hstop⟩
      rcases hend with ⟨final, hend⟩
      have hends : endsCopyOut input = true := by rw [endsCopyOut, hstop, hend]
      rw [hreports.2] at hends
      cases hends

/-- The events of the single backend. -/
theorem BackendCase.settled {input : BackendInput} {flush : SendOutcome} {x y : Conf}
    (hcase : BackendCase input flush x y) (h : InStep x)
    (hguard : asksBackend input x = true → Reports x.1.state input) : Settled y := by
  cases hcase with
  | lost message b hb => exact .of_ended h.answers (backendLost_ended message flush (x.1, b))
  | skip => exact h.settled
  | quiet c hconn hhangup hcommand hfails =>
      have hreports := hguard (by simp [asksBackend, hhangup, hfails, hconn, hcommand])
      -- the backend has no command in progress, so its answer is not awaited
      have hover : .backend ∉ x.1.awaited := by
        intro hawaited
        rcases (h.backend hawaited).2 with ⟨c', hconn', hbusy⟩
        rw [hconn] at hconn'
        cases hconn'
        exact hbusy hcommand
      have hdue := h.due_single hreports.1 hover
      rcases finishSingle_case c x with ⟨status, u, hreport, heq⟩
      have hstep : InStep (finishSingle c x) := by
        rw [← Prod.mk.eta (p := finishSingle c x), heq]
        exact hdue.answered (Answered.report hreport)
      exact hstep.flush flush
  | drain c command hconn hhangup hcommand hfails hbusy =>
      have hreports := hguard (by simp [asksBackend, hhangup, hfails, hconn, hbusy])
      exact ((drainSingle_case c command input x).inStep h hreports).flush flush

/-- A slot is marked as done. -/
theorem InStep.markDone {s : Session} {b b' : Backends} {i : Fin maxScatterShards}
    (h : InStep (s, b)) (hi : i ∈ s.slots) (hopen : (s.scatter i).done = false) :
    InStep (markDone i s, b') := by
  have hscatter : s.state = .scatter := h.running i hi hopen
  have hawaited : (Sharegres.markDone i s).awaited ⊆ s.awaited := Finset.erase_subset _ _
  constructor
  case counted => exact h.counted.markDone hi hopen
  case state => exact h.state
  case running => exact fun _ _ _ => hscatter
  case backend =>
    intro hq
    rcases (h.backend (hawaited hq)).1 with hs | hs | hs <;> rw [hscatter] at hs <;> cases hs
  case slot =>
    intro j hq
    have hji : j ≠ i := by
      rintro rfl
      exact Finset.notMem_erase _ _ hq
    have hother : (Sharegres.markDone i s).scatter j = s.scatter j := Function.update_of_ne hji ..
    rw [hother]
    exact h.slot j (hawaited hq)
  case ready => exact h.ready
  case count => exact h.count

/-- All targets are counted, and the query is answered. -/
theorem InStep.gathered {x y : Conf} (h : InStep x) (hscatter : x.1.state = .scatter)
    (hall : x.1.scatterCount ≤ x.1.scatterDone) (hgathered : Gathered x.1 y.1) : InStep y := by
  have hnone : x.1.awaited = ∅ := by
    apply Finset.eq_empty_of_forall_notMem
    intro q hq
    cases q with
    | backend =>
        rcases (h.backend hq).1 with hs | hs | hs <;> rw [hscatter] at hs <;> cases hs
    | slot i =>
        rcases h.slot i hq with ⟨hi, hopen⟩
        rw [h.counted.done] at hall
        rw [Session.all_done hall i hi] at hopen
        cases hopen
  have hafter : y.1.awaited = ∅ := Finset.subset_empty.mp (hnone ▸ hgathered.awaited)
  constructor
  case counted => exact h.counted.gathered hall hgathered
  case state =>
    rw [hgathered.state]
    simp
  case running =>
    rw [Session.slots_eq_nil hgathered.count]
    intro i hi
    cases hi
  case backend =>
    rw [hafter]
    intro hq
    cases hq
  case slot =>
    rw [hafter]
    intro i hq
    cases hq
  case ready =>
    rw [hgathered.readies, hnone]
    intro q hq
    rcases List.mem_append.mp hq with hq | hq
    · exact h.ready q hq
    · rw [List.mem_singleton] at hq
      rw [hq]
      rfl
  case count =>
    have hcount := h.count
    rw [hscatter] at hcount
    rw [hgathered.readies, hgathered.state, hgathered.queries, hgathered.extended,
      List.length_append]
    simp only [SessionState.inFlight, SessionState.started, List.length_singleton] at hcount ⊢
    omega

/-- The events of a scatter slot that was not counted before. -/
theorem ScatterCase.settled {i : Fin maxScatterShards} {input : BackendInput}
    {flush : SendOutcome} {x y : Conf} (hcase : ScatterCase i input flush x y) (h : InStep x)
    (hguard : i ∈ x.1.slots ∧ (x.1.scatter i).done = false ∨
      input.hangup = false ∧ (x.1.scatter i).conn = none) : Settled y := by
  rcases hcase.counts with rfl | ⟨hcause, t, b, hquiet, hconn, rfl⟩
  · exact h.settled
  · rcases hguard with ⟨hi, hopen⟩ | ⟨hhangup, hgone⟩
    · have ht : InStep (t, x.2) := h.quiet hquiet hconn fun _ _ => rfl
      have hscatter : t.state = .scatter := hquiet.state.trans (h.running i hi hopen)
      rw [← hquiet.slots] at hi
      rw [← hquiet.scatter] at hopen
      have hmarked : InStep (markDone i t, b) := ht.markDone hi hopen
      rcases checkComplete_case flush (markDone i t, b) with ⟨-, heq⟩ | ⟨hall, tag, heq⟩
      · rw [heq]
        exact hmarked.settled
      · rw [heq]
        exact (hmarked.gathered hscatter hall (gathered_gathered tag _)).flush flush
    · rcases hcause with hcause | hcause
      · rw [hhangup] at hcause
        cases hcause
      · exact absurd hgone hcause

/-! ## Runs -/

/-- The single backend is asked for results only when it reports for the query in progress, no
copy to the client ends, and no slot of a scatter is counted twice. -/
def Orderly (p : Proxy) : Event → Prop
  | .backend sid input _ =>
      asksBackend input (p.conf sid) = true → Reports (p.sessions sid).state input
  | e => CountsOnce p e

instance (p : Proxy) (e : Event) : Decidable (Orderly p e) :=
  match e with
  | .backend sid input _ => inferInstanceAs (Decidable (
      asksBackend input (p.conf sid) = true → Reports (p.sessions sid).state input))
  | .scatter sid i input flush =>
      inferInstanceAs (Decidable (CountsOnce p (.scatter sid i input flush)))
  | .accept _ _ | .client _ _ | .healthCheck | .connLost _ => isTrue trivial

/-- All live sessions are between callbacks. -/
structure Proxy.InStep (p : Proxy) : Prop where
  live : ∀ t, p.alive t → Sharegres.InStep (p.conf t)
  answers : ∀ t, (p.sessions t).Answers

/-- A callback of a session does not disturb the others. -/
theorem Proxy.put_inStep {leaky : Prop} {places : Set Place} {sid : Nat} {y : Conf}
    (hops : Ops leaky places (view (p.conf sid)) (view y)) (hy : Settled y) (howned : p.Owned)
    (halive : p.alive sid) (h : p.InStep) : (p.put sid y).InStep := by
  rcases howned with ⟨own, hledger⟩
  constructor
  · intro t ht
    by_cases hts : t = sid
    · subst hts
      have hopen : y.1.closed = false := by
        have hclosed := ht.2
        rw [put_session] at hclosed
        exact hclosed
      rw [conf, put_session]
      exact hy.live hopen
    · have hsame : (p.put sid y).sessions t = p.sessions t := put_other hts
      have hlive : p.alive t := ⟨ht.1, hsame ▸ ht.2⟩
      rw [conf, hsame]
      apply (h.live t hlive).quiet (Quiet.refl _) rfl
      intro c hconn
      have hheld := held_backend (x := p.conf t) hconn
      have hacct : p.accounts sid = (view (p.conf sid)).1 := rfl
      have hframe := hops.frame hacct hledger (fun hplace => hts hplace.1) hheld
      exact congrArg PGconn.command hframe.2
  · intro t
    by_cases hts : t = sid
    · subst hts
      rw [put_session]
      exact hy.answers
    · rw [put_other hts]
      exact h.answers t

/-- New backends with the same commands in progress. -/
theorem Proxy.setBackends_inStep {b : Backends}
    (hcommand : ∀ c, (b.conns c).command = (p.backends.conns c).command) (h : p.InStep) :
    (p.setBackends b).InStep :=
  ⟨fun t ht => (h.live t ht).quiet (Quiet.refl _) rfl fun c _ => hcommand c, h.answers⟩

/-- A session that was just accepted. -/
theorem inStep_accepted (id : Nat) (pid secretKey : Int) (b : Backends) :
    InStep (({ id := id, pid := pid, secretKey := secretKey } : Session), b) := by
  constructor
  case counted => exact Session.Counted.of_none rfl rfl (by simp [Session.gathers])
  case state => simp
  case running =>
    intro i hi
    cases hi
  case backend =>
    intro hq
    cases hq
  case slot =>
    intro i hq
    cases hq
  case ready =>
    intro q hq
    cases hq
  case count => rfl

/-- An orderly step. -/
theorem step_inStep {e : Event} (hguard : Orderly p e) (hstep : step cfg p e = some p')
    (howned : p.Owned) (h : p.InStep) : p'.InStep := by
  cases step_case hstep with
  | accept pid secretKey =>
      constructor
      · intro t ht
        by_cases hcreated : t = p.created
        · subst hcreated
          rw [Proxy.conf, Proxy.accept_new]
          exact inStep_accepted _ _ _ _
        · have hlive : p.alive t :=
            ⟨Nat.lt_of_le_of_ne (Nat.le_of_lt_succ ht.1) hcreated,
              Proxy.accept_other hcreated pid secretKey ▸ ht.2⟩
          rw [Proxy.conf, Proxy.accept_other hcreated]
          exact h.live t hlive
      · intro t
        by_cases hcreated : t = p.created
        · subst hcreated
          rw [Proxy.accept_new]
          exact (inStep_accepted _ _ _ p.backends).answers
        · rw [Proxy.accept_other hcreated]
          exact h.answers t
  | client sid input y halive hcase =>
      have hops : Ops True Set.univ _ _ := hcase.ops (Or.inl trivial)
      exact Proxy.put_inStep hops (hcase.settled (h.live sid halive)) howned halive h
  | backend sid input flush y halive hcase =>
      have hops : Ops True Set.univ _ _ := hcase.ops
      exact Proxy.put_inStep hops (hcase.settled (h.live sid halive) hguard) howned halive h
  | scatter sid i input flush y halive hcase =>
      have hops : Ops True Set.univ _ _ := hcase.ops
      exact Proxy.put_inStep hops (hcase.settled (h.live sid halive) hguard) howned halive h
  | healthCheck => exact Proxy.setBackends_inStep (healthCheckAll_command _ _) h
  | connLost c => exact Proxy.setBackends_inStep (fun c' => Backends.command_setStatus c c' .bad) h

theorem start_inStep (cfg : Config) : (Proxy.start cfg).InStep := by
  constructor
  · intro t ht
    exact absurd ht.1 (Nat.not_lt_zero t)
  · intro t
    refine ⟨?_, Nat.zero_le _⟩
    intro q hq
    cases hq

/-- In every orderly run each ReadyForQuery was queued while no answer of a backend was
awaited, and a live session that was started has queued one for the startup packet and
one for each query and each refused message of the extended protocol, but for the query
in progress. -/
theorem one_ready_per_query (h : ProxyReaches cfg Orderly p) (sid : Nat) :
    (∀ q ∈ (p.sessions sid).out, q.msg.isReady = true → q.origin = .ready 0) ∧
    (p.sessions sid).readies.length ≤
      1 + (p.sessions sid).queries + (p.sessions sid).extended ∧
    (p.alive sid → (p.sessions sid).state ≠ .init →
      (p.sessions sid).readies.length + (p.sessions sid).state.inFlight =
        1 + (p.sessions sid).queries + (p.sessions sid).extended) := by
  have hstep : p.InStep := by
    apply h.invariant (start_inStep cfg)
    intro t e t' hreach hinv hguard hstep
    exact step_inStep hguard hstep (owned_of_reaches hreach) hinv
  refine ⟨?_, (hstep.answers sid).count, ?_⟩
  · intro q hq hready
    exact (hstep.answers sid).ready q (List.mem_filter.mpr ⟨hq, hready⟩)
  · intro halive hinit
    have hcount := (hstep.live sid halive).count
    have hstarted : (p.sessions sid).state.started = 1 := by
      cases hs : (p.sessions sid).state with
      | init => exact absurd hs hinit
      | _ => rfl
    rw [← hstarted]
    exact hcount

/-- A session that has sent two queries, one of them scattered, and has both answers. -/
theorem two_queries_two_readies :
    ∃ p, ProxyReaches demoConfig Orderly p ∧ p.alive 0 ∧ (p.sessions 0).state = .ready ∧
      (p.sessions 0).queries = 2 ∧
      (∀ q ∈ (p.sessions 0).out, q.msg.isReady = true → q.origin = .ready 0) ∧
      (p.sessions 0).readies.length ≤ 1 + (p.sessions 0).queries + (p.sessions 0).extended ∧
      (p.alive 0 → (p.sessions 0).state ≠ .init →
        (p.sessions 0).readies.length + (p.sessions 0).state.inFlight =
          1 + (p.sessions 0).queries + (p.sessions 0).extended) := by
  have hrun : runsTo (step demoConfig) Orderly
      (demoLogin 0 ++
        [demoQuery 0 (ascii "DELETE FROM t WHERE id = 1"),
          .backend 0 { results := [{ status := .commandOk }] } .all,
          demoQuery 0 (ascii "DELETE FROM t WHERE x = 5"),
          .scatter 0 1 { results := [{ status := .commandOk }] } .all,
          .scatter 0 0 { hangup := true } .all])
      (Proxy.start demoConfig)
      (fun p => p.alive 0 ∧ (p.sessions 0).state = .ready ∧
        (p.sessions 0).queries = 2) = true := by decide +kernel
  rcases exists_reached hrun with ⟨p, hp, halive, hstate, hqueries⟩
  exact ⟨p, hp, halive, hstate, hqueries, one_ready_per_query hp 0⟩

/-- One query was answered, and the idle backend then sends a notice.  Its handler finds
no result, and queues a ReadyForQuery that no query asked for. -/
theorem notice_answered_again :
    ∃ p, ProxyReaches plainConfig anyEvent p ∧ p.alive 0 ∧ (p.sessions 0).state = .ready ∧
      (p.sessions 0).queries = 1 ∧ (p.sessions 0).extended = 0 ∧
      (p.sessions 0).readies.length = 3 := by
  have hrun : runsTo (step plainConfig) anyEvent
      (demoLogin 0 ++
        [demoQuery 0 (ascii "SELECT 1"),
          .backend 0 { results := [{ status := .tuplesOk }] } .all, .backend 0 {} .all])
      (Proxy.start plainConfig)
      (fun p => p.alive 0 ∧ (p.sessions 0).state = .ready ∧
        (p.sessions 0).queries = 1 ∧ (p.sessions 0).extended = 0 ∧
        (p.sessions 0).readies.length = 3) = true := by decide +kernel
  rcases exists_reached hrun with ⟨p, hp, htest⟩
  exact ⟨p, hp, htest⟩

end Sharegres
