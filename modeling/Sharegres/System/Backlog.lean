import Sharegres.Session.FrameProgress
import Sharegres.Session.Outcomes
import Sharegres.System.Proxy

/-!
# System - Messages left in the receive buffer

The receive buffer is looked at only when the client's socket is readable, and the loop over
it ends with the first query.  A message that stands behind the query, or that arrives
while the query is answered, stays in the buffer when the session is ready again, and no
event makes the proxy look at it.

Main results:

- Definition {lit}`Alone`: no message is received before the query in front of it is
  answered.
- Theorem {lit}`no_message_stranded`: in runs of such clients a session that is ready, or
  takes copy data, has no complete message in its buffer.
- Theorem {lit}`pipelined_query_stranded`: two queries sent at once.
-/

namespace Sharegres

open Foundation

variable {cfg : Config} {p p' : Proxy} {x y : Conf} {sid : Nat}

/-! ## Clients that wait -/

/-- The first message left is a Query. -/
def QueryFront (xs : Text) : Prop :=
  5 ≤ xs.length ∧ 4 ≤ be32At xs 1 ∧ xs.getD 0 0 = 81

instance (xs : Text) : Decidable (QueryFront xs) :=
  inferInstanceAs (Decidable (_ ∧ _ ∧ _))

/-- Where the loop stops, no complete message is left that nobody would look at: none while
a backend is awaited, and none behind a query.  A message of 2^32 bytes is not there. -/
def NoneBehind (state : SessionState) (xs : Text) : Prop :=
  state = .init ∨
    (5 ≤ xs.length → be32At xs 1 ≠ 2 ^ 32 - 1) ∧
      (state.busy = true → ¬ Complete xs) ∧
      (state.busy = false → state ≠ .copyIn → QueryFront xs →
        ¬ Complete (xs.drop (1 + be32At xs 1)))

instance (state : SessionState) (xs : Text) : Decidable (NoneBehind state xs) :=
  inferInstanceAs (Decidable (_ ∨ (_ → _) ∧ (_ → _) ∧ (_ → _ → _ → _)))

/-- What the client sends is alone in this sense: behind the messages the loop takes, no
complete message is left. -/
def ClientInput.alone (input : ClientInput) (s : Session) : Prop :=
  match input.recv with
  | .data bytes =>
      let w := (clientFrames input.puts s.backendConn.isSome).walk (0, s.state)
        (s.recvBuf.content ++ bytes)
      NoneBehind w.1.2 w.2
  | _ => True

instance (input : ClientInput) (s : Session) : Decidable (input.alone s) := by
  unfold ClientInput.alone
  cases input.recv <;> infer_instance

/-- No message is received before the query in front of it is answered. -/
def Alone (p : Proxy) : Event → Prop
  | .client sid input => input.alone (p.sessions sid)
  | _ => True

instance (p : Proxy) (e : Event) : Decidable (Alone p e) :=
  match e with
  | .client sid input => inferInstanceAs (Decidable (input.alone (p.sessions sid)))
  | .accept _ _ | .backend _ _ _ | .scatter _ _ _ _ | .healthCheck | .connLost _ => isTrue trivial

/-! ## Sessions without a backend -/

/-- Without a connection a call of its handler ends the session or returns at once. -/
theorem BackendCase.of_none {input : BackendInput} {flush : SendOutcome}
    (h : BackendCase input flush x y) (hnone : x.1.backendConn = none) :
    y.1.closed = true ∨ y = x := by
  cases h with
  | lost message b => exact Or.inl (backendLost_ended message flush (x.1, b)).closed
  | skip => exact Or.inr rfl
  | quiet c hconn =>
      rw [hnone] at hconn
      cases hconn
  | drain c command hconn =>
      rw [hnone] at hconn
      cases hconn

/-! ## The invariant -/

/-- No complete message is in the buffer, and before the startup packet no handler of a
backend is registered. -/
structure Clear (s : Session) : Prop where
  none : s.state ≠ .init → ¬ Complete s.recvBuf.content
  backend : s.state = .init → s.backendConn = Option.none
  slots : s.state = .init → ∀ i, (s.scatter i).shard = Option.none

namespace Clear

variable {s s' : Session}

/-- A session after its startup packet. -/
theorem of_not_init (hinit : s.state ≠ .init) (hnone : ¬ Complete s.recvBuf.content) : Clear s :=
  ⟨fun _ => hnone, fun h => absurd h hinit, fun h => absurd h hinit⟩

/-- A callback that does not read, after the startup packet. -/
theorem unread (h : Clear s) (hread : Unread s s') (hinit : s.state ≠ .init) : Clear s' := by
  refine of_not_init (fun hs => hinit (hread.init hs)) ?_
  rw [hread.recvBuf]
  exact h.none hinit

/-- Sending what is queued. -/
theorem flush (h : Clear x.1) (flush : SendOutcome) :
    (flushOrDestroy flush x).1.closed = true ∨ Clear (flushOrDestroy flush x).1 := by
  have hread := flushOrDestroy_unread flush x
  rcases flushOrDestroy_case flush x with hkept | hended
  · right
    refine ⟨fun hinit => ?_, fun hinit => ?_, fun hinit => ?_⟩
    · rw [hread.recvBuf]
      exact h.none fun hs => hinit (hkept.quiet.state.trans hs)
    · rw [hkept.backend]
      exact h.backend (hread.init hinit)
    · rw [hkept.quiet.scatter]
      exact h.slots (hread.init hinit)
  · exact Or.inl hended.closed

end Clear

/-! ## The client's messages -/

/-- The loop up to the startup packet keeps the handlers as they are. -/
theorem Intakes.fresh {s s' : Session} (h : Intakes s s') (hinit : s'.state = .init) :
    s.state = .init ∧ s'.backendConn = s.backendConn ∧ s'.scatter = s.scatter :=
  ⟨by_contra fun hs => h.not_init hs hinit, h.backend.2.1, h.sameScatter.scatter⟩

/-- An empty buffer has no message. -/
theorem not_complete_of_empty {s : Session} (h : s.recvBuf.len = 0) :
    ¬ Complete s.recvBuf.content := by
  intro hcomplete
  have hfive := hcomplete.1
  rw [RecvBuf.content_length] at hfive
  omega

/-- The loop over what a client sent alone leaves no message. -/
theorem processInput_clear {input : ClientInput} {r : Conf × Bool}
    (hprocess : processInput cfg input x = some r) (hclear : x.1.state = .init →
      x.1.backendConn = none ∧ ∀ i, (x.1.scatter i).shard = none)
    (hguard : NoneBehind
      ((clientFrames input.puts x.1.backendConn.isSome).walk (0, x.1.state)
        x.1.recvBuf.content).1.2
      ((clientFrames input.puts x.1.backendConn.isSome).walk (0, x.1.state)
        x.1.recvBuf.content).2) :
    r.2 = false ∨ Clear r.1.1 := by
  generalize hw : (clientFrames input.puts x.1.backendConn.isSome).walk (0, x.1.state)
    x.1.recvBuf.content = w at hguard
  have hover : ¬ Overflows input.puts x.1.backendConn.isSome w.1 w.2 := by
    intro hover
    rcases hguard with hinit | ⟨hsize, -⟩
    · exact hover.1 hinit
    · exact hsize hover.2.2.1 hover.2.2.2.1
  have hloop := (loop_progress input.puts _ (0, x.1.state) _ x.1 rfl rfl rfl (hw ▸ hover)).2.2
  rw [hw] at hloop
  unfold processInput at hprocess
  cases hr : feProtocolProcess input.puts input.rounds 0 x.1 with
  | none =>
      rw [hr] at hprocess
      cases hprocess
  | some round =>
      rw [hr] at hprocess
      -- before the startup packet the session is as it was accepted
      have hfrom := feProtocolProcess_intake hr
      have hfresh : ∀ t ok, round = .ret t ok → t.state = .init →
          t.backendConn = none ∧ ∀ i, (t.scatter i).shard = none := by
        rintro t ok rfl hinit
        rcases Intakes.fresh hfrom hinit with ⟨hstart, hconn, hscatter⟩
        rw [hconn, hscatter]
        exact hclear hstart
      rcases hloop input.rounds round hr with ⟨t, -, hstate, hcontent, hend⟩
      rcases hend with ⟨hempty, rfl⟩ | ⟨hreturns, hcase⟩
      · cases hprocess
        exact Or.inr ⟨fun _ => not_complete_of_empty hempty, fun h => (hfresh t true rfl h).1,
          fun h => (hfresh t true rfl h).2⟩
      · cases hcase with
        | pass t' => exact absurd rfl (hreturns t')
        | stuck t' => exact absurd rfl (hreturns t')
        | fail t' =>
            cases hprocess
            exact Or.inl rfl
        | wait _ _ hwhy =>
            cases hprocess
            refine Or.inr ⟨fun hinit => ?_, fun h => (hfresh t true rfl h).1,
              fun h => (hfresh t true rfl h).2⟩
            rcases hwhy with hwhy | hbusy | hpart
            · exact absurd hwhy hinit
            · rw [← hstate, ← hcontent] at hguard
              rcases hguard with hstart | ⟨-, hwaits, -⟩
              · exact absurd hstart hinit
              · exact hwaits hbusy
            · exact hpart
        | query _ _ hasks =>
            rcases hasks with ⟨htakes, htype, hfive, hfour, -, -⟩
            have hread := handleQuery_unread hprocess
            rw [← hstate, ← hcontent] at hguard
            rcases hguard with hstart | ⟨hsize, -, hbehind⟩
            · exact absurd hstart htakes.1
            · have hwrap := hsize hfive
              have hlt := be32At_lt t.recvBuf.content 1
              have hn : frameTotal t.recvBuf.content = 1 + be32At t.recvBuf.content 1 := by
                unfold frameTotal
                omega
              have hfree : t.state.busy = false := by
                simp [SessionState.busy, htakes.2.1, htakes.2.2.1, htakes.2.2.2.1]
              refine Or.inr (Clear.of_not_init (fun hinit => htakes.1 (hread.init hinit)) ?_)
              rw [hread.recvBuf, RecvBuf.content_consume, hn]
              exact hbehind hfree htakes.2.2.2.2 ⟨hfive, hfour, htype⟩

/-- An event of the client's socket. -/
theorem onClient_clear {input : ClientInput} (h : onClient cfg input x = some y)
    (hguard : input.alone x.1) (hclear : Clear x.1) : y.1.closed = true ∨ Clear y.1 := by
  cases onClient_call h with
  | hangup => exact Or.inl rfl
  | flush => exact hclear.flush input.flush
  | lost => exact Or.inl rfl
  | again => exact Or.inr hclear
  | received bytes r hhangup hcallback hrecv hprocess =>
      rcases r with ⟨z, ok⟩
      unfold ClientInput.alone at hguard
      rw [hrecv] at hguard
      dsimp only at hguard
      rw [← RecvBuf.content_receive] at hguard
      rcases processInput_clear hprocess
        (fun hinit => ⟨hclear.backend hinit, hclear.slots hinit⟩) hguard with hfailed | hz
      · cases hfailed
        exact Or.inl rfl
      · cases ok with
        | false => exact Or.inl rfl
        | true =>
            unfold afterInput
            dsimp only
            split
            · exact hz.flush input.flush
            · exact Or.inr hz

/-- The invariant of the runs. -/
theorem sessions_clear (h : ProxyReaches cfg Alone p) : p.Each Clear := by
  refine Proxy.session_invariant h ?_ ?_ ?_ ?_
  · intro id pid secretKey
    refine ⟨fun hinit => absurd rfl hinit, fun _ => rfl, fun _ _ => rfl⟩
  · intro q sid input y hguard hclear hy
    exact onClient_clear hy hguard hclear
  · intro q sid input flush _ hclear
    have hcase := sessionOnBackendReadable_case input flush (q.conf sid)
    generalize sessionOnBackendReadable input flush (q.conf sid) = y at hcase ⊢
    by_cases hinit : (q.sessions sid).state = .init
    · rcases hcase.of_none (hclear.backend hinit) with hclosed | rfl
      · exact Or.inl hclosed
      · exact Or.inr hclear
    · exact Or.inr (hclear.unread hcase.unread hinit)
  · intro q sid i input flush y _ hclear hshard hy
    have hinit : (q.sessions sid).state ≠ .init := by
      intro hinit
      rw [hclear.slots hinit i] at hshard
      cases hshard
    exact Or.inr (hclear.unread (sessionOnScatterReadable_case hy).unread hinit)

/-- In runs whose clients wait for the answer to a query before they send more, a session
that is ready or takes copy data has no complete message in its buffer. -/
theorem no_message_stranded (h : ProxyReaches cfg Alone p) (sid : Nat) (halive : p.alive sid)
    (hstate : (p.sessions sid).state = .ready ∨ (p.sessions sid).state = .copyIn) :
    ¬ Complete (p.sessions sid).recvBuf.content := by
  refine (sessions_clear h sid halive).none ?_
  rcases hstate with hstate | hstate <;> rw [hstate] <;> simp

/-- A client that sends two queries one after the other, the second in two parts. -/
theorem waiting_client_served :
    ∃ p, ProxyReaches demoConfig Alone p ∧ p.alive 0 ∧ (p.sessions 0).state = .ready ∧
      (p.sessions 0).queries = 2 ∧ ¬ Complete (p.sessions 0).recvBuf.content := by
  have hrun : runsTo (step demoConfig) Alone
      (demoLogin 0 ++
        [demoQuery 0 (ascii "DELETE FROM t WHERE id = 1"),
          .backend 0 { results := [{ status := .commandOk }] } .all,
          .client 0 { recv := .data ((queryFrame (ascii "BEGIN" ++ [0])).take 7) },
          .client 0 { recv := .data ((queryFrame (ascii "BEGIN" ++ [0])).drop 7) },
          .backend 0 { results := [{ status := .commandOk }], xact := .inTrans } .all])
      (Proxy.start demoConfig)
      (fun p => p.alive 0 ∧ (p.sessions 0).state = .ready ∧
        (p.sessions 0).queries = 2) = true := by decide +kernel
  rcases exists_reached hrun with ⟨p, hp, halive, hstate, hqueries⟩
  exact ⟨p, hp, halive, hstate, hqueries, no_message_stranded hp 0 halive (Or.inl hstate)⟩

/-- Two queries sent at once: the answer to the first makes the session ready, and the second
stays in the buffer. -/
theorem pipelined_query_stranded :
    ∃ p, ProxyReaches demoConfig anyEvent p ∧ p.alive 0 ∧ (p.sessions 0).state = .ready ∧
      (p.sessions 0).queries = 1 ∧ Complete (p.sessions 0).recvBuf.content := by
  have hrun : runsTo (step demoConfig) anyEvent
      (demoLogin 0 ++
        [.client 0 { recv := .data (queryFrame (ascii "BEGIN" ++ [0]) ++
            queryFrame (ascii "BEGIN" ++ [0])) },
          .backend 0 { results := [{ status := .commandOk }], xact := .inTrans } .all])
      (Proxy.start demoConfig)
      (fun p => p.alive 0 ∧ (p.sessions 0).state = .ready ∧
        (p.sessions 0).queries = 1 ∧ Complete (p.sessions 0).recvBuf.content) = true := by
    decide +kernel
  rcases exists_reached hrun with ⟨p, hp, htest⟩
  exact ⟨p, hp, htest⟩

end Sharegres
