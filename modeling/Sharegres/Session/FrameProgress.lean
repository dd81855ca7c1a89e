import Sharegres.Protocol.Frames
import Sharegres.Session.Actions
import Sharegres.Router.StatementRoutes
import Sharegres.Session.Callbacks

/-!
# Session - Progress of the loop over the receive buffer

Every round of {lit}`fe_protocol_process` that does not return should remove a message from
the front of the buffer, so that the loop comes to an end.  It does, but for messages whose
length field is 2^32 - 1: their total is 0, the loop removes nothing, and if the message is
of an unknown type the same round is repeated for ever.

Main results:

- Definition {lit}`Progress`: the loop ends, removes whole messages and loses no byte.
- Theorem {lit}`framing_progress_iff`: it makes progress if and only if it comes to no such
  message.
- Theorem {lit}`unknown_message_loops`: a message of five bytes that keeps it busy.
-/

namespace Sharegres

open Foundation

/-! ## Progress -/

/-- A whole message: a startup packet or a message with a type. -/
def IsFrame (state : SessionState) (frame : Text) : Prop :=
  if state = .init then 4 ≤ frame.length ∧ be32At frame 0 = frame.length
  else 5 ≤ frame.length ∧ 1 + be32At frame 1 = frame.length

/-- A whole message was removed from the front of the buffer. -/
def RemovesFrame (s s' : Session) : Prop :=
  ∃ frame, IsFrame s.state frame ∧ s.recvBuf.content = frame ++ s'.recvBuf.content

/-- A round of the loop that does not return. -/
def GoesOn (puts : Nat → PutOutcome) (p q : Nat × Session) : Prop :=
  p.2.recvBuf.len ≠ 0 ∧ feProtocolRound (puts p.1) p.2 = .next q.2 ∧ q.1 = p.1 + 1

/-- The loop makes progress: it ends, and {lit}`fe_protocol_process` returns if the parser prints
parse trees; each round that does not return removes a whole message, and what is left when
{lit}`fe_protocol_process` returns 0 starts behind whole messages. -/
structure Progress (cfg : Config) (input : ClientInput) (b : Backends) (s : Session) : Prop where
  terminates : ∃ rounds, (feProtocolProcess input.puts rounds 0 s).isSome
  returns : PrintsTrees cfg.pgQueryParse →
    ∃ rounds, (processInput cfg { input with rounds := rounds } (s, b)).isSome
  removes : ∀ p q, Relation.ReflTransGen (GoesOn input.puts) (0, s) p → GoesOn input.puts p q →
    RemovesFrame p.2 q.2
  boundary : ∀ rounds y, processInput cfg { input with rounds := rounds } (s, b) = some (y, true) →
    ∃ t, Relation.ReflTransGen RemovesFrame s t ∧ y.1.recvBuf.content = t.recvBuf.content

/-! ## Whole messages -/

theorem be32At_take {xs : Text} {pos n : Nat} (h : pos + 4 ≤ n) (hn : n ≤ xs.length) :
    be32At (xs.take n) pos = be32At xs pos := by
  have hlong : pos + 4 ≤ (xs.take n).length := by
    rw [List.length_take]
    omega
  have happend := be32At_append hlong (xs.drop n)
  rw [List.take_append_drop] at happend
  exact happend.symm

/-- The first bytes of a content are removed, and their number is that of the length field. -/
theorem removesFrame_of_drop {s t : Session} {n : Nat}
    (hcontent : t.recvBuf.content = s.recvBuf.content.drop n)
    (hfits : n ≤ s.recvBuf.content.length)
    (hsize : if s.state = .init then 4 ≤ n ∧ be32At s.recvBuf.content 0 = n
      else 5 ≤ n ∧ 1 + be32At s.recvBuf.content 1 = n) : RemovesFrame s t := by
  refine ⟨s.recvBuf.content.take n, ?_, ?_⟩
  · unfold IsFrame
    rw [List.length_take, Nat.min_eq_left hfits]
    by_cases hinit : s.state = .init
    · rw [if_pos hinit] at hsize ⊢
      rw [be32At_take (by omega) hfits]
      exact hsize
    · rw [if_neg hinit] at hsize ⊢
      rw [be32At_take (by omega) hfits]
      exact hsize
  · rw [hcontent, List.take_append_drop]

/-- A message behind which the loop goes on. -/
theorem removesFrame_of_next {puts : Nat → PutOutcome} {conn : Bool} {k n : Nat}
    {st : Nat × SessionState} {s t : Session}
    (hnext : (clientFrames puts conn).next (k, s.state) s.recvBuf.content = some (n, st))
    (hcontent : t.recvBuf.content = s.recvBuf.content.drop n) : RemovesFrame s t := by
  refine removesFrame_of_drop hcontent ((clientFrames puts conn).bounds hnext).2 ?_
  simp only [clientFrames] at hnext
  by_cases hinit : s.state = .init
  · rw [if_pos hinit] at hnext ⊢
    split at hnext
    · rename_i hfirst
      rcases Option.map_eq_some_iff.mp hnext with ⟨state, -, heq⟩
      cases heq
      exact ⟨Nat.le_trans (by omega) hfirst.2.1, rfl⟩
    · cases hnext
  · rw [if_neg hinit] at hnext ⊢
    split at hnext
    · cases hnext
    · split at hnext
      · rename_i hcomplete
        rcases Option.map_eq_some_iff.mp hnext with ⟨state, -, heq⟩
        cases heq
        exact ⟨by have := hcomplete.1.2.1; omega, rfl⟩
      · cases hnext

/-! ## The loop -/

/-- The loop ends where a walk over the messages ends, behind whole messages: the buffer is
empty there, or the round there returns. -/
def StopsAt (puts : Nat → PutOutcome) (w : (Nat × SessionState) × Text) (s : Session)
    (r : Round) : Prop :=
  ∃ t, Relation.ReflTransGen RemovesFrame s t ∧ t.state = w.1.2 ∧ t.recvBuf.content = w.2 ∧
    (t.recvBuf.len = 0 ∧ r = .ret t true ∨ (∀ t', r ≠ .next t') ∧ RoundCase puts w.1.1 t r)

section Loop

variable {puts : Nat → PutOutcome} {conn : Bool} {k : Nat} {s : Session}

/-- A round on a message behind which the loop goes on. -/
theorem round_of_next (hconn : s.backendConn.isSome = conn) {n : Nat} {st : Nat × SessionState}
    (hnext : (clientFrames puts conn).next (k, s.state) s.recvBuf.content = some (n, st)) :
    ∃ t, feProtocolRound (puts k) s = .next t ∧ s.recvBuf.len ≠ 0 ∧ st = (k + 1, t.state) ∧
      t.backendConn.isSome = conn ∧ t.recvBuf.content = s.recvBuf.content.drop n := by
  subst hconn
  have hbounds := (clientFrames puts _).bounds hnext
  rw [RecvBuf.content_length] at hbounds
  have hcase := feProtocolRound_case puts k s
  cases hround : feProtocolRound (puts k) s with
  | next t =>
      rw [hround] at hcase
      cases hcase with
      | pass _ n' hnext' hconn' hbuf =>
          rw [hnext] at hnext'
          cases hnext'
          exact ⟨t, rfl, by omega, rfl, by rw [hconn'], by rw [hbuf, RecvBuf.content_consume]⟩
      | stuck _ hover hcontent =>
          rw [next_of_overflows hover] at hnext
          cases hnext
  | ret t ok =>
      rw [hround] at hcase
      cases hcase with
      | wait hstop => rw [hstop] at hnext; cases hnext
      | fail _ hstop => rw [hstop] at hnext; cases hnext
  | query t sql =>
      rw [hround] at hcase
      cases hcase with
      | query hstop => rw [hstop] at hnext; cases hnext

/-- A round on another message returns, unless the message has 2^32 bytes. -/
theorem round_of_stop (hconn : s.backendConn.isSome = conn)
    (hstop : (clientFrames puts conn).next (k, s.state) s.recvBuf.content = none)
    (hover : ¬ Overflows puts conn (k, s.state) s.recvBuf.content) (t : Session) :
    feProtocolRound (puts k) s ≠ .next t := by
  subst hconn
  intro hround
  have hcase := feProtocolRound_case puts k s
  rw [hround] at hcase
  cases hcase with
  | pass _ n hnext =>
      rw [hstop] at hnext
      cases hnext
  | stuck _ hstuck => exact hover hstuck

/-- The loop from a session whose messages it can pass or stops at. -/
theorem loop_progress (puts : Nat → PutOutcome) (conn : Bool) (st : Nat × SessionState)
    (xs : Text) :
    ∀ s : Session, s.state = st.2 → s.recvBuf.content = xs → s.backendConn.isSome = conn →
      ¬ Overflows puts conn ((clientFrames puts conn).walk st xs).1
        ((clientFrames puts conn).walk st xs).2 →
      (∃ rounds, (feProtocolProcess puts rounds st.1 s).isSome) ∧
        (∀ p q, Relation.ReflTransGen (GoesOn puts) (st.1, s) p → GoesOn puts p q →
          RemovesFrame p.2 q.2) ∧
        ∀ rounds r, feProtocolProcess puts rounds st.1 s = some r →
          StopsAt puts ((clientFrames puts conn).walk st xs) s r := by
  induction st, xs using (clientFrames puts conn).induct with
  | stop st xs hstop =>
      -- the loop stops here
      rcases st with ⟨k, state⟩
      rintro s rfl rfl hconn hover
      rw [(clientFrames puts conn).walk_stop hstop] at hover ⊢
      have hreturns := round_of_stop hconn hstop hover
      have hexit : ∀ rounds, feProtocolProcess puts (rounds + 1) k s =
          if s.recvBuf.len = 0 then some (.ret s true) else some (feProtocolRound (puts k) s) := by
        intro rounds
        rw [feProtocolProcess]
        congr 1
        cases hround : feProtocolRound (puts k) s with
        | next t => exact absurd hround (hreturns t)
        | ret t ok => rfl
        | query t sql => rfl
      refine ⟨⟨1, ?_⟩, ?_, ?_⟩
      · rw [hexit]
        split <;> rfl
      · intro p q hreach hpass
        rcases Relation.ReflTransGen.cases_head hreach with rfl | ⟨p', hfirst, -⟩
        · exact absurd hpass.2.1 (hreturns _)
        · exact absurd hfirst.2.1 (hreturns _)
      · intro rounds r hr
        cases rounds with
        | zero => cases hr
        | succ rounds =>
            rw [hexit] at hr
            refine ⟨s, Relation.ReflTransGen.refl, rfl, rfl, ?_⟩
            split at hr
            · rename_i hempty
              cases hr
              exact Or.inl ⟨hempty, rfl⟩
            · cases hr
              exact Or.inr ⟨hreturns, feProtocolRound_case puts k s⟩
  | step st xs n st' hnext ih =>
      -- the loop goes on behind the first message
      rcases st with ⟨k, state⟩
      rintro s rfl rfl hconn hover
      rw [(clientFrames puts conn).walk_next hnext] at hover ⊢
      rcases round_of_next hconn hnext with ⟨t, hround, hlen, rfl, hconn', hcontent⟩
      rcases ih t rfl hcontent hconn' hover with ⟨⟨rounds, hsome⟩, hremoves, hends⟩
      have hfirst : RemovesFrame s t := removesFrame_of_next hnext hcontent
      have hagain : ∀ rounds, feProtocolProcess puts (rounds + 1) k s =
          feProtocolProcess puts rounds (k + 1) t := by
        intro rounds
        rw [feProtocolProcess, if_neg hlen, hround]
      refine ⟨⟨rounds + 1, ?_⟩, ?_, ?_⟩
      · rw [hagain]
        exact hsome
      · intro p q hreach hpass
        have honly : ∀ q, GoesOn puts (k, s) q → q = (k + 1, t) := by
          rintro ⟨k', t'⟩ ⟨-, hround', hk⟩
          rw [hround] at hround'
          cases hround'
          cases hk
          rfl
        rcases Relation.ReflTransGen.cases_head hreach with rfl | ⟨p', hhead, hrest⟩
        · rw [honly q hpass]
          exact hfirst
        · rw [honly p' hhead] at hrest
          exact hremoves p q hrest hpass
      · intro rounds r hr
        cases rounds with
        | zero => cases hr
        | succ rounds =>
            rw [hagain] at hr
            rcases hends rounds r hr with ⟨u, hu, hexit⟩
            exact ⟨u, Relation.ReflTransGen.head hfirst hu, hexit⟩

/-- The loop comes to a message of 2^32 bytes and goes on with the same content. -/
theorem loop_stuck (puts : Nat → PutOutcome) (conn : Bool) (st : Nat × SessionState) (xs : Text) :
    ∀ s : Session, s.state = st.2 → s.recvBuf.content = xs → s.backendConn.isSome = conn →
      Overflows puts conn ((clientFrames puts conn).walk st xs).1
        ((clientFrames puts conn).walk st xs).2 →
      ∃ p q, Relation.ReflTransGen (GoesOn puts) (st.1, s) p ∧ GoesOn puts p q ∧
        q.2.recvBuf.content = p.2.recvBuf.content := by
  induction st, xs using (clientFrames puts conn).induct with
  | stop st xs hstop =>
      rcases st with ⟨k, state⟩
      rintro s rfl rfl rfl hover
      rw [(clientFrames puts _).walk_stop hstop] at hover
      have hcase := feProtocolRound_case puts k s
      have hlen : s.recvBuf.len ≠ 0 := by
        have hfive := hover.2.2.1
        rw [RecvBuf.content_length] at hfive
        omega
      cases hround : feProtocolRound (puts k) s with
      | next t =>
          rw [hround] at hcase
          refine ⟨(k, s), (k + 1, t), Relation.ReflTransGen.refl, ⟨hlen, hround, rfl⟩, ?_⟩
          cases hcase with
          | pass _ n hnext => rw [hstop] at hnext; cases hnext
          | stuck _ _ hcontent => exact hcontent
      | ret t ok =>
          rw [hround] at hcase
          cases hcase with
          | wait _ hnot => exact absurd hover hnot
          | fail _ _ hnot => exact absurd hover hnot
      | query t sql =>
          rw [hround] at hcase
          cases hcase with
          | query _ hnot => exact absurd hover hnot
  | step st xs n st' hnext ih =>
      rcases st with ⟨k, state⟩
      rintro s rfl rfl hconn hover
      rw [(clientFrames puts conn).walk_next hnext] at hover
      rcases round_of_next hconn hnext with ⟨t, hround, hlen, rfl, hconn', hcontent⟩
      rcases ih t rfl hcontent hconn' hover with ⟨p, q, hreach, hpass, hsame⟩
      exact ⟨p, q, Relation.ReflTransGen.head ⟨hlen, hround, rfl⟩ hreach, hpass, hsame⟩

end Loop

/-- A whole message is not empty. -/
theorem IsFrame.ne_nil {state : SessionState} {frame : Text} (h : IsFrame state frame) :
    frame ≠ [] := by
  rintro rfl
  unfold IsFrame at h
  split at h <;> simp at h

/-- A query is removed from the front of the buffer, unless its total is 0. -/
theorem query_removes {s : Session} (h : AskedFirst s.state s.recvBuf.content) :
    frameTotal s.recvBuf.content = 0 ∨
      RemovesFrame s { s with recvBuf := s.recvBuf.consume (frameTotal s.recvBuf.content) } := by
  rcases h with ⟨hstate, -, -, hfour, -, hfits⟩
  have hlt := be32At_lt s.recvBuf.content 1
  have htotal : frameTotal s.recvBuf.content = (1 + be32At s.recvBuf.content 1) % 2 ^ 32 := rfl
  by_cases hwrap : be32At s.recvBuf.content 1 = 2 ^ 32 - 1
  · exact Or.inl (by omega)
  · right
    refine removesFrame_of_drop (RecvBuf.content_consume _ _) hfits ?_
    rw [if_neg hstate.1]
    omega

/-- Every query is handled if the parser prints parse trees. -/
theorem handleQuery_isSome {cfg : Config} (h : PrintsTrees cfg.pgQueryParse) (sql : Text)
    (input : ClientInput) (x : Conf) : (handleQuery cfg sql input x).isSome := by
  unfold handleQuery
  dsimp only
  split
  · rfl
  · rcases h.decides cfg.shardMap sql with ⟨rc, parsed, hparsed, hdecides⟩
    unfold handleSharded
    rw [hparsed]
    dsimp only
    split
    · rfl
    · rename_i hrc
      rcases Option.isSome_iff_exists.mp (hdecides.resolve_left hrc) with ⟨decision, hdecision⟩
      rw [hdecision]
      rfl

/-- The loop makes progress on a buffer if and only if it does not come to a message whose
length field is 2^32 - 1 and behind which it goes on. -/
theorem framing_progress_iff (cfg : Config) (input : ClientInput) (b : Backends) (s : Session) :
    Progress cfg input b s ↔
      ¬ Overflows input.puts s.backendConn.isSome
        ((clientFrames input.puts s.backendConn.isSome).walk (0, s.state) s.recvBuf.content).1
        ((clientFrames input.puts s.backendConn.isSome).walk (0, s.state) s.recvBuf.content).2 := by
  constructor
  · intro h hover
    rcases loop_stuck input.puts _ (0, s.state) _ s rfl rfl rfl hover with
      ⟨p, q, hreach, hpass, hsame⟩
    rcases h.removes p q hreach hpass with ⟨frame, hframe, hcontent⟩
    rw [hsame] at hcontent
    exact hframe.ne_nil (List.self_eq_append_left.mp hcontent)
  · intro hover
    rcases loop_progress input.puts _ (0, s.state) _ s rfl rfl rfl hover with
      ⟨hends, hremoves, hstops⟩
    refine ⟨hends, fun hprints => ?_, hremoves, ?_⟩
    · rcases hends with ⟨rounds, hsome⟩
      rcases Option.isSome_iff_exists.mp hsome with ⟨r, hr⟩
      refine ⟨rounds, ?_⟩
      unfold processInput
      dsimp only
      rw [hr]
      cases r with
      | next t => rfl
      | ret t ok => rfl
      | query t sql => exact handleQuery_isSome hprints sql _ _
    intro rounds y hy
    unfold processInput at hy
    dsimp only at hy
    cases hr : feProtocolProcess input.puts rounds 0 s with
    | none =>
        rw [hr] at hy
        cases hy
    | some r =>
        rw [hr] at hy
        rcases hstops rounds r hr with ⟨t, ht, -, -, ⟨-, rfl⟩ | ⟨hreturns, hcase⟩⟩
        · cases hy
          exact ⟨t, ht, rfl⟩
        · cases hcase with
          | pass t' => exact absurd rfl (hreturns t')
          | stuck t' => exact absurd rfl (hreturns t')
          | wait =>
              cases hy
              exact ⟨t, ht, rfl⟩
          | fail => cases hy
          | query _ _ hasks =>
              have hunread := handleQuery_unread hy
              rcases query_removes hasks with hzero | hframe
              · refine ⟨t, ht, ?_⟩
                rw [hunread.recvBuf, RecvBuf.content_consume, hzero, List.drop_zero]
              · refine ⟨_, Relation.ReflTransGen.tail ht hframe, ?_⟩
                rw [hunread.recvBuf]

/-- A session that has received an unknown message type and a length field of 2^32 - 1. -/
def stuckSession : Session where
  id := 0
  state := .ready
  recvBuf := { data := [112, 255, 255, 255, 255], len := 5 }

/-- A proxy without shards. -/
def unshardedConfig : Config :=
  ⟨⟨[], [], 1⟩, fun _ => none⟩

/-- The loop never returns from five bytes. -/
theorem unknown_message_loops :
    ¬ Progress unshardedConfig {} { pools := fun _ => { maxSize := 1 } } stuckSession ∧
      ∀ rounds, feProtocolProcess (fun _ => .queued) rounds 0 stuckSession = none := by
  have hlen : stuckSession.recvBuf.be32 1 = 2 ^ 32 - 1 := by decide
  have htotal : (1 + (2 ^ 32 - 1)) % 2 ^ 32 = 0 := by decide
  have hround : feProtocolRound .queued stuckSession = .next stuckSession := by
    unfold feProtocolRound
    dsimp only
    rw [hlen, htotal, if_neg (by decide), if_neg (by decide), if_neg (by decide),
      if_neg (by decide), if_neg (by decide)]
    rfl
  have hloop : ∀ rounds k,
      feProtocolProcess (fun _ => .queued) rounds k stuckSession = none := by
    intro rounds
    induction rounds with
    | zero => exact fun _ => rfl
    | succ rounds ih =>
        intro k
        rw [feProtocolProcess, if_neg (by decide), hround]
        exact ih (k + 1)
  refine ⟨fun h => ?_, fun rounds => hloop rounds 0⟩
  rcases h.terminates with ⟨rounds, hsome⟩
  rw [hloop rounds 0] at hsome
  cases hsome

end Sharegres
