import Sharegres.Protocol.Frames
import Sharegres.Session.Emission
import Sharegres.Session.ScatterFailures

/-!
# Session - What becomes of received bytes

Whether {lit}`session_on_client_readable` goes on after it has received bytes is decided by what
is there before the call: the content of the receive buffer, which is passed message by message
up to the one at which the loop stops, what is queued for the client, and the connections at
hand if that message is a query.

Main results:

- Definition {lit}`Reader`: what is known where the loop over the buffer stops.
- Definitions {lit}`Reader.Refuses` and {lit}`answersQuery`: a message that is refused, and a
  query that the proxy answers itself.
- Theorem {lit}`processInput_fate`: the answer of {lit}`fe_protocol_process`, and whether
  something is queued after it.
-/

namespace Sharegres

open Foundation

/-! ## Passing messages -/

/-- What is known of a session while the messages in its buffer are passed. -/
structure Reader where
  round : Nat
  state : SessionState
  buf : RecvBuf
  unsent : Bool

/-- The messages behind which the loop goes on, with the buffer and the queue. -/
def readerFrames (puts : Nat → PutOutcome) (conn : Bool) : Framing Reader UInt8 where
  next e xs :=
    ((clientFrames puts conn).next (e.round, e.state) xs).map fun out =>
      (out.1, ⟨out.2.1, out.2.2, e.buf.consume out.1, e.unsent || answersFirst e.state xs⟩)
  bounds := by
    intro e e' xs n h
    rcases Option.map_eq_some_iff.mp h with ⟨out, hout, heq⟩
    cases heq
    exact (clientFrames puts conn).bounds hout

/-- Where the loop stops that starts in a round. -/
def Session.readFrom (s : Session) (puts : Nat → PutOutcome) (k : Nat) : Reader :=
  ((readerFrames puts s.backendConn.isSome).walk ⟨k, s.state, s.recvBuf, s.unsent⟩
    s.recvBuf.content).1

/-- The loop returns -1 where it stops: the message is refused, or it is a message of copy data
with a length field of 2^32 - 1, which is put again and again until that fails. -/
def Reader.Refuses (e : Reader) (puts : Nat → PutOutcome) (conn : Bool) : Prop :=
  RefusedFirst conn (puts e.round) e.state e.buf.content ∨
    Overflows puts conn (e.round, e.state) e.buf.content ∧ e.state = .copyIn ∧
      e.buf.content.getD 0 0 = 100

/-- The loop hands over a query where it stops. -/
def Reader.Asks (e : Reader) : Prop :=
  AskedFirst e.state e.buf.content

/-- The text of that query, as it is read from the buffer. -/
def Reader.sql (e : Reader) : Text :=
  (e.buf.consume (frameTotal e.buf.content)).cstring 5

instance (e : Reader) (puts : Nat → PutOutcome) (conn : Bool) : Decidable (e.Refuses puts conn) :=
  inferInstanceAs (Decidable (_ ∨ _ ∧ _ ∧ _))

instance (e : Reader) : Decidable e.Asks :=
  inferInstanceAs (Decidable (AskedFirst _ _))

section Loop

variable {puts : Nat → PutOutcome} {k : Nat} {s t : Session} {r : Round}

theorem readFrom_stop
    (h : (clientFrames puts s.backendConn.isSome).next (k, s.state) s.recvBuf.content = none) :
    s.readFrom puts k = ⟨k, s.state, s.recvBuf, s.unsent⟩ := by
  unfold Session.readFrom
  rw [(readerFrames puts _).walk_stop (by simp [readerFrames, h])]

/-- A message is taken. -/
theorem readFrom_pass {n : Nat}
    (hnext : (clientFrames puts s.backendConn.isSome).next (k, s.state) s.recvBuf.content =
      some (n, k + 1, t.state)) (hconn : t.backendConn = s.backendConn)
    (hbuf : t.recvBuf = s.recvBuf.consume n)
    (hunsent : t.unsent = (s.unsent || answersFirst s.state s.recvBuf.content)) :
    s.readFrom puts k = t.readFrom puts (k + 1) := by
  have hstep : (readerFrames puts s.backendConn.isSome).next
      ⟨k, s.state, s.recvBuf, s.unsent⟩ s.recvBuf.content =
        some (n, ⟨k + 1, t.state, t.recvBuf, t.unsent⟩) := by
    simp [readerFrames, hnext, hbuf, hunsent]
  unfold Session.readFrom
  rw [(readerFrames puts s.backendConn.isSome).walk_next hstep, hconn, hbuf,
    RecvBuf.content_consume]

/-- A busy session reads nothing. -/
theorem loop_busy {rounds : Nat} (hloop : feProtocolProcess puts rounds k s = some r)
    (hbusy : s.state.busy = true) : r = .ret s true := by
  have hwaits : s.state = .query ∨ s.state = .scatter ∨ s.state = .copyOut := by
    simpa [SessionState.busy] using hbusy
  have hinit : s.state ≠ .init := by rcases hwaits with h | h | h <;> simp [h]
  cases rounds with
  | zero => cases hloop
  | succ rounds =>
      rw [feProtocolProcess, feProtocolRound, if_neg hinit, if_pos hwaits] at hloop
      split at hloop <;> exact (Option.some.inj hloop).symm

/-- A message that is refused ends the loop. -/
theorem loop_refused {rounds : Nat} (hloop : feProtocolProcess puts rounds k s = some r)
    (hlen : s.recvBuf.len ≠ 0)
    (hstop : (clientFrames puts s.backendConn.isSome).next (k, s.state) s.recvBuf.content = none)
    (hbad : RefusedFirst s.backendConn.isSome (puts k) s.state s.recvBuf.content) :
    ∃ t, r = .ret t false := by
  cases rounds with
  | zero => cases hloop
  | succ rounds =>
      rw [feProtocolProcess, if_neg hlen] at hloop
      have hcase := feProtocolRound_case puts k s
      generalize feProtocolRound (puts k) s = round at hcase hloop
      cases hcase with
      | pass t n hnext =>
          rw [hstop] at hnext
          cases hnext
      | stuck t hover => exact absurd hbad hover.not_refused
      | wait _ _ _ hgood => exact absurd hbad hgood
      | fail t => exact ⟨t, (Option.some.inj hloop).symm⟩
      | query _ _ hasks => exact absurd hbad hasks.not_refused

/-- A message with a length field of 2^32 - 1 is handled again and again.  The loop returns from
it only in a copy: when copy data cannot be put any more, or after the end of the copy. -/
theorem loop_overflow {rounds : Nat} (hloop : feProtocolProcess puts rounds k s = some r)
    (hover : Overflows puts s.backendConn.isSome (k, s.state) s.recvBuf.content) :
    s.state = .copyIn ∧ (s.recvBuf.content.getD 0 0 = 100 ∧ (∃ t, r = .ret t false) ∨
      s.recvBuf.content.getD 0 0 ≠ 100 ∧ ∃ t, r = .ret t true ∧ t.unsent = s.unsent) := by
  induction rounds generalizing k s with
  | zero => cases hloop
  | succ rounds ih =>
      have hlen : s.recvBuf.len ≠ 0 := by
        have hfive := hover.2.2.1
        rw [RecvBuf.content_length] at hfive
        omega
      rw [feProtocolProcess, if_neg hlen] at hloop
      have hcase := feProtocolRound_case puts k s
      generalize feProtocolRound (puts k) s = round at hcase hloop
      cases hcase with
      | pass t n hnext =>
          rw [next_of_overflows hover] at hnext
          cases hnext
      | wait _ hnot => exact absurd hover hnot
      | fail t _ hnot => exact absurd hover hnot
      | query _ hnot => exact absurd hover hnot
      | stuck t _ hcontent hconn hstate hunsent =>
          dsimp only at hloop
          rcases hover with ⟨hinit, hbusy, hfive, hwrap, -⟩
          have hagain : t.state = s.state →
              (frameState s.backendConn.isSome (puts (k + 1)) s.state
                (s.recvBuf.content.getD 0 0)).isSome → _ := fun hsame hsome =>
            ih hloop (by
              rw [hcontent, hconn, hsame]
              exact ⟨hinit, hbusy, hfive, hwrap, hsome⟩)
          rw [hcontent] at hagain
          by_cases hcopy : s.state = .copyIn
          · rw [frameState, if_pos hcopy] at hstate
            refine ⟨hcopy, ?_⟩
            have hquiet : answersFirst s.state s.recvBuf.content = false := by
              simp [answersFirst, hcopy]
            rw [hquiet, Bool.or_false] at hunsent
            by_cases hend : s.recvBuf.content.getD 0 0 = 99 ∨ s.recvBuf.content.getD 0 0 = 102
            · -- the end of the copy: the next round waits for the backend
              have hdata : s.recvBuf.content.getD 0 0 ≠ 100 := by
                rcases hend with h | h <;> rw [h] <;> decide
              rw [if_pos (Or.inr hend)] at hstate
              split at hstate
              · have hquery : t.state = .query := (Option.some.inj hstate).symm
                exact Or.inr ⟨hdata, t, loop_busy hloop (by rw [hquery]; rfl), hunsent⟩
              · cases hstate
            · have hsame : t.state = s.state := by
                rw [hcopy]
                split at hstate
                · rename_i hput
                  have hdata := hput.resolve_right hend
                  split at hstate
                  · exact (Option.some.inj hstate).symm
                  · cases hstate
                · exact (Option.some.inj hstate).symm
              by_cases hnext : (frameState s.backendConn.isSome (puts (k + 1)) s.state
                  (s.recvBuf.content.getD 0 0)).isSome
              · rw [← hunsent]
                exact (hagain hsame hnext).2
              · -- the copy data cannot be put any more
                have hnone := Option.not_isSome_iff_eq_none.mp hnext
                have hdata : s.recvBuf.content.getD 0 0 = 100 := by
                  by_contra hdata
                  rw [frameState, if_pos hcopy, if_neg (by tauto)] at hnone
                  cases hnone
                refine Or.inl ⟨hdata, loop_refused hloop ?_ ?_ ?_⟩
                · rw [← RecvBuf.content_length, hcontent]
                  omega
                · rw [hcontent]
                  exact next_of_wrap (by rw [hsame]; exact hinit) hwrap
                · rw [hcontent, hsame, hconn, RefusedFirst, if_neg hinit, frameTotal, hwrap]
                  exact ⟨hbusy, hfive, Or.inr (Or.inr ⟨by omega, hnone, fun h => absurd hcopy h⟩)⟩
          · -- outside a copy the message is handled for ever
            rw [frameState, if_neg hcopy] at hstate
            split at hstate
            · cases hstate
            · rename_i htype
              have hsame : t.state = s.state := (Option.some.inj hstate).symm
              have hforever := hagain hsame (by rw [frameState, if_neg hcopy, if_neg htype]; rfl)
              exact absurd (hsame.symm.trans hforever.1) hcopy

/-- How the loop ends, by what is known where it stops. -/
def Reader.EndsIn (e : Reader) (puts : Nat → PutOutcome) (conn : Bool) : Round → Prop
  | .next _ => False
  | .ret t ok => ¬ e.Asks ∧ (ok = false ↔ e.Refuses puts conn) ∧ (ok = true → t.unsent = e.unsent)
  | .query t sql => e.Asks ∧ ¬ e.Refuses puts conn ∧ t.unsent = e.unsent ∧ sql = e.sql

/-- The loop ends as it is decided where the messages that it passes end. -/
theorem loop_readFrom {rounds : Nat} (hloop : feProtocolProcess puts rounds k s = some r) :
    (s.readFrom puts k).EndsIn puts s.backendConn.isSome r := by
  induction rounds generalizing k s with
  | zero => cases hloop
  | succ rounds ih =>
      have hround := hloop
      rw [feProtocolProcess] at hround
      by_cases hempty : s.recvBuf.len = 0
      · rw [if_pos hempty] at hround
        cases hround
        have hnil : s.recvBuf.content = [] :=
          List.eq_nil_of_length_eq_zero (by rw [RecvBuf.content_length, hempty])
        rw [readFrom_stop (by rw [hnil]; exact (clientFrames puts _).next_nil _)]
        simp [Reader.EndsIn, Reader.Asks, Reader.Refuses, AskedFirst, RefusedFirst, Overflows, hnil]
      · rw [if_neg hempty] at hround
        have hcase := feProtocolRound_case puts k s
        generalize feProtocolRound (puts k) s = round at hcase hround
        cases hcase with
        | pass t n hnext hconn hbuf hunsent =>
            rw [readFrom_pass hnext hconn hbuf hunsent, ← hconn]
            exact ih hround
        | stuck t hover =>
            rw [readFrom_stop (next_of_overflows hover)]
            rcases loop_overflow hloop hover with
              ⟨hcopy, ⟨htype, t', rfl⟩ | ⟨htype, t', rfl, hunsent⟩⟩
            · exact ⟨hover.not_asked, iff_of_true rfl (Or.inr ⟨hover, hcopy, htype⟩), by simp⟩
            · refine ⟨hover.not_asked, iff_of_false (by simp) ?_, fun _ => hunsent⟩
              rintro (hrefused | ⟨-, -, hdata⟩)
              · exact hover.not_refused hrefused
              · exact htype hdata
        | wait hstop hover hwhy hgood hasks =>
            cases hround
            rw [readFrom_stop hstop]
            refine ⟨hasks, iff_of_false (by simp) ?_, fun _ => rfl⟩
            rintro (hrefused | hdata)
            · exact hgood hrefused
            · exact hover hdata.1
        | fail t hstop hover hbad =>
            cases hround
            rw [readFrom_stop hstop]
            exact ⟨fun hasks => AskedFirst.not_refused hasks hbad, iff_of_true rfl (Or.inl hbad),
              by simp⟩
        | query hstop hover hasks =>
            cases hround
            rw [readFrom_stop hstop]
            refine ⟨hasks, ?_, rfl, rfl⟩
            rintro (hrefused | hdata)
            · exact hasks.not_refused hrefused
            · exact hover hdata.1

end Loop

/-! ## Queries -/

/-- A connection takes a query: it is in order, has nothing to do, and the library accepts it. -/
def Backends.takes (b : Backends) (c : ConnId) (accepts : Bool) : Bool :=
  accepts && (b.conns c).status = .ok && (b.conns c).command = none

/-- The session has a connection to this shard, or to the default backend. -/
def Session.LeadsTo (s : Session) (shard : Option Shard) : Prop :=
  s.backendShard.map Shard.index = shard.map Shard.index ∧ s.backendConn.isSome = true

instance (s : Session) (shard : Option Shard) : Decidable (s.LeadsTo shard) :=
  inferInstanceAs (Decidable (_ ∧ _))

/-- The connection a query for one backend goes out on, with the backends at that time: the one
at hand if it leads there, and otherwise one that is acquired once the other is given back. -/
def connFor (shard : Option Shard) (connects : Bool) (x : Conf) : Option (Backends × ConnId) :=
  if x.1.LeadsTo shard then x.1.backendConn.map (x.2, ·)
  else
    let r :=
      match shard with
      | some s => (releaseBackend x).2.connPoolAcquire s.index x.1.id connects
      | none => (releaseBackend x).2.pqConnectdb connects
    r.2.map (r.1, ·)

/-- The same without a shard map: the connection at hand if it is in order, or a new one. -/
def defaultConn (connects : Bool) (x : Conf) : Option (Backends × ConnId) :=
  if backendOk x then x.1.backendConn.map (x.2, ·)
  else
    let r := (releaseBackend x).2.pqConnectdb connects
    r.2.map (r.1, ·)

/-- The query is sent to no backend, and the proxy answers it itself. -/
def answersQuery (cfg : Config) (input : ClientInput) (sql : Text) (x : Conf) : Bool :=
  if cfg.shardMap.shards = [] then
    !(defaultConn (input.connects 0) x).any fun bc => bc.1.takes bc.2 (input.accepts 0)
  else
    match routeQuery cfg.shardMap cfg.pgQueryParse sql with
    | none => true
    | some decision =>
        match decision.type with
        | .local => true
        | .single =>
            !(connFor decision.targetShards.head? (input.connects 0) x).any fun bc =>
              bc.1.takes bc.2 (input.accepts 0)
        | .default =>
            !(connFor none (input.connects 0) x).any fun bc => bc.1.takes bc.2 (input.accepts 0)
        | .scatter =>
            allFailAtStart sql input x.1.id
              ((List.finRange maxScatterShards).zip decision.targetShards) x.2

/-- The query is scattered to more shards than there are slots, and refused. -/
def tooWide (cfg : Config) (sql : Text) : Bool :=
  cfg.shardMap.shards ≠ [] &&
    (routeQuery cfg.shardMap cfg.pgQueryParse sql).any fun decision =>
      decision.type = .scatter && decide (maxScatterShards < decision.targetShards.length)

section Queries

variable {input : ClientInput} {x : Conf}

/-- A connection takes a query if it is ready for one. -/
theorem pqSendQuery_isSome (sql : Text) (b : Backends) (c : ConnId) (session : Nat)
    (accepts : Bool) :
    (b.pqSendQuery c session sql accepts).isSome = b.takes c accepts := by
  unfold Backends.pqSendQuery Backends.takes
  split <;> simp_all

/-- A connection that does not lead there is given back. -/
theorem swapBackend_release {shard : Option Shard} (h : ¬ x.1.LeadsTo shard) :
    swapBackend shard x = releaseBackend x := by
  unfold swapBackend
  split
  · rfl
  · rename_i hsame
    have hnone : x.1.backendConn = none := by
      simpa using fun hconn => h ⟨not_not.mp hsame, hconn⟩
    rw [releaseBackend, Session.held, hnone]
    rfl

variable (sql : Text)

/-- The way to a connection for one backend. -/
theorem connectSingle_conn (shard : Option Shard) (connects : Bool) (x : Conf) :
    match connFor shard connects x with
    | none => (connectSingle shard connects (swapBackend shard x)).2 = false
    | some bc => ∃ s, connectSingle shard connects (swapBackend shard x) = ((s, bc.1), true) ∧
        s.backendConn = some bc.2 := by
  unfold connFor
  by_cases hfits : x.1.LeadsTo shard
  · rw [if_pos hfits]
    rcases Option.isSome_iff_exists.mp hfits.2 with ⟨c, hc⟩
    have hkeep : swapBackend shard x = x := if_neg (not_not.mpr hfits.1)
    rw [hkeep, hc]
    exact ⟨x.1, if_pos hfits.2, hc⟩
  · rw [if_neg hfits]
    have hid : (releaseBackend x).1.id = x.1.id := by
      unfold releaseBackend
      split <;> rfl
    have hnone := releaseBackend_backendConn x
    rw [swapBackend_release hfits]
    generalize releaseBackend x = y at hid hnone
    unfold connectSingle
    rw [hnone, if_neg (by simp)]
    cases shard with
    | some s =>
        dsimp only
        rw [connectToShard, hid]
        rcases y.2.connPoolAcquire s.index x.1.id connects with ⟨b, _ | c⟩
        · rfl
        · exact ⟨_, rfl, rfl⟩
    | none =>
        have hheld : releaseBackend y = y := by
          rw [releaseBackend, Session.held, hnone]
          rfl
        dsimp only
        rw [connectToDefault, if_neg (by simp [backendOk, hnone]), hheld]
        dsimp only
        rcases y.2.pqConnectdb connects with ⟨b, _ | c⟩
        · rfl
        · exact ⟨_, rfl, rfl⟩

/-- A query is sent if the connection takes it. -/
theorem sendSingle_ok {s : Session} {bc : Backends × ConnId} (hconn : s.backendConn = some bc.2)
    (accepts : Bool) : (sendSingle sql accepts (s, bc.1)).2 = bc.1.takes bc.2 accepts := by
  rw [← pqSendQuery_isSome sql bc.1 bc.2 s.id, sendSingle, hconn]
  dsimp only
  cases bc.1.pqSendQuery bc.2 s.id sql accepts <;> rfl

/-- A query for one backend is sent exactly if there is a connection that takes it. -/
theorem executeSingle_ok (shard : Option Shard) (input : ClientInput) (x : Conf) :
    (executeSingle sql shard input x).2 =
      (connFor shard (input.connects 0) x).any fun bc => bc.1.takes bc.2 (input.accepts 0) := by
  have hconnect := connectSingle_conn shard (input.connects 0) x
  unfold executeSingle
  cases hconn : connFor shard (input.connects 0) x with
  | none =>
      rw [hconn] at hconnect
      rcases hres : connectSingle shard (input.connects 0) (swapBackend shard x) with ⟨y, ok⟩
      rw [hres] at hconnect
      cases hconnect
      rfl
  | some bc =>
      rw [hconn] at hconnect
      rcases hconnect with ⟨s, hres, hs⟩
      rw [hres]
      exact sendSingle_ok sql hs _

/-- An error waits to be sent. -/
theorem refuse_unsent (s : Session) (severity code message : Text) :
    (refuse s severity code message).unsent = true := by
  simp [refuse, Session.feSendError, Session.queueReady, Session.queue, Session.queueAll]

/-- A query for one backend is answered at once only if it fails. -/
theorem executeOrRefuse_unsent (shard : Option Shard) (message : Text) (input : ClientInput)
    (x : Conf) :
    (executeOrRefuse sql shard message input x).1.unsent =
      (x.1.unsent || !(connFor shard (input.connects 0) x).any fun bc =>
        bc.1.takes bc.2 (input.accepts 0)) := by
  have hport : (executeSingle sql shard input x).1.1.unsent = x.1.unsent :=
    congrArg Port.unsent (executeSingle_acts sql shard input x).port_eq
  rw [← executeSingle_ok sql, executeOrRefuse]
  rcases hres : executeSingle sql shard input x with ⟨y, _ | _⟩ <;> rw [hres] at hport
  · simp [refuse_unsent]
  · simpa using hport

/-- So is a query without a shard map. -/
theorem handleUnsharded_unsent (input : ClientInput) (x : Conf) :
    (handleUnsharded sql input x).1.unsent =
      (x.1.unsent || !(defaultConn (input.connects 0) x).any fun bc =>
        bc.1.takes bc.2 (input.accepts 0)) := by
  have hport : (connectToDefault (input.connects 0) x).1.1.unsent = x.1.unsent :=
    congrArg Port.unsent (connectToDefault_acts (input.connects 0) x).port_eq
  have hconnect : match defaultConn (input.connects 0) x with
      | none => (connectToDefault (input.connects 0) x).2 = false
      | some bc => ∃ s, connectToDefault (input.connects 0) x = ((s, bc.1), true) ∧
          s.backendConn = some bc.2 := by
    unfold defaultConn connectToDefault
    by_cases hok : backendOk x = true
    · rw [if_pos hok, if_pos hok]
      cases hconn : x.1.backendConn with
      | none => simp [backendOk, hconn] at hok
      | some c => exact ⟨x.1, rfl, hconn⟩
    · rw [if_neg hok, if_neg hok]
      dsimp only
      rcases (releaseBackend x).2.pqConnectdb (input.connects 0) with ⟨b, _ | c⟩
      · rfl
      · exact ⟨_, rfl, rfl⟩
  unfold handleUnsharded
  cases hconn : defaultConn (input.connects 0) x with
  | none =>
      rw [hconn] at hconnect
      rcases hres : connectToDefault (input.connects 0) x with ⟨y, ok⟩
      rw [hres] at hconnect
      cases hconnect
      simp [refuse_unsent]
  | some bc =>
      rw [hconn] at hconnect
      rcases hconnect with ⟨s, hres, hs⟩
      rw [hres] at hport ⊢
      dsimp only at hport ⊢
      have hsend : (sendSingle sql (input.accepts 0) (s, bc.1)).1.1.unsent = s.unsent :=
        congrArg Port.unsent (sendSingle_acts sql (input.accepts 0) (s, bc.1)).port_eq
      have htakes : _ = bc.1.takes bc.2 (input.accepts 0) := sendSingle_ok sql hs _
      rw [Option.any_some, ← htakes]
      rcases hres' : sendSingle sql (input.accepts 0) (s, bc.1) with ⟨z, _ | _⟩ <;>
        rw [hres'] at hsend
      · simp [refuse_unsent]
      · simpa using hsend.trans hport

/-- A scattered query is refused if there are too many targets, and answered if no target takes
it. -/
theorem executeScatter_fate (targets : List Shard) (input : ClientInput) (x : Conf) :
    (executeScatter sql targets input x).2 = !decide (maxScatterShards < targets.length) ∧
      ((executeScatter sql targets input x).2 = true →
        (executeScatter sql targets input x).1.1.unsent =
          (x.1.unsent || allFailAtStart sql input x.1.id
            ((List.finRange maxScatterShards).zip targets) x.2)) := by
  have hport : (startScatter sql targets input x).1.unsent = x.1.unsent :=
    congrArg Port.unsent (startScatter_acts sql targets input x).port_eq
  unfold executeScatter
  split
  · rename_i hwide
    simp [hwide]
  · rename_i hfits
    have hdone := startScatter_done sql targets input x (by omega)
    dsimp only
    split
    · rename_i hall
      rw [hdone.mp hall]
      exact ⟨by simp [hfits], fun _ => by simp [Session.setState, refuse_unsent]⟩
    · rename_i hsome
      have hgoes : allFailAtStart sql input x.1.id
          ((List.finRange maxScatterShards).zip targets) x.2 = false := by
        simpa using fun hall => hsome (hdone.mpr hall)
      rw [hgoes, Bool.or_false]
      exact ⟨by simp [hfits], fun _ => hport⟩

/-- Two states of a session in which it has the same connection. -/
structure SameBackend (x y : Conf) : Prop where
  backends : y.2 = x.2
  id : y.1.id = x.1.id
  conn : y.1.backendConn = x.1.backendConn
  shard : y.1.backendShard = x.1.backendShard

/-- Giving back the connection leaves the same backends. -/
theorem SameBackend.release {x y : Conf} (h : SameBackend x y) :
    (releaseBackend y).2 = (releaseBackend x).2 := by
  unfold releaseBackend Session.held
  rw [h.conn, h.shard]
  cases x.1.backendConn with
  | none => exact h.backends
  | some c =>
      dsimp only [Option.map_some]
      rw [giveUp, giveUp, h.id, h.backends]

theorem SameBackend.leadsTo {x y : Conf} (h : SameBackend x y) (shard : Option Shard) :
    y.1.LeadsTo shard ↔ x.1.LeadsTo shard := by
  rw [Session.LeadsTo, Session.LeadsTo, h.conn, h.shard]

/-- What becomes of a query depends on the session by its connection alone. -/
theorem answersQuery_congr (cfg : Config) (input : ClientInput) {x y : Conf}
    (h : SameBackend x y) : answersQuery cfg input sql y = answersQuery cfg input sql x := by
  have hsame : ∀ shard connects, connFor shard connects y = connFor shard connects x := by
    intro shard connects
    unfold connFor
    rw [h.backends, h.id, h.conn, h.release]
    exact if_congr (h.leadsTo shard) rfl rfl
  unfold answersQuery defaultConn backendOk
  simp only [hsame]
  rw [h.backends, h.id, h.conn, h.release]

/-- A Query message is refused if it goes to too many shards, and otherwise leaves an answer
behind exactly if it is sent to no backend. -/
theorem handleQuery_fate {cfg : Config} {r : Conf × Bool}
    (h : handleQuery cfg sql input x = some r) :
    r.2 = !tooWide cfg sql ∧
      (r.2 = true → r.1.1.unsent = (x.1.unsent || answersQuery cfg input sql x)) := by
  have hcounted : answersQuery cfg input sql x =
      answersQuery cfg input sql (x.1.countQuery, x.2) :=
    answersQuery_congr sql cfg input ⟨rfl, rfl, rfl, rfl⟩
  rw [hcounted]
  rcases handleQuery_cases h with
    ⟨hmap, rfl⟩ | ⟨⟨hmap, rc, parsed, hparse, hrc⟩, rfl⟩ |
      ⟨hmap, rc, parsed, decision, hparse, hrc, hroute, rfl⟩
  · refine ⟨by simp [tooWide, hmap], fun _ => ?_⟩
    rw [answersQuery, if_pos hmap]
    exact handleUnsharded_unsent sql input (x.1.countQuery, x.2)
  · have hnone : routeQuery cfg.shardMap cfg.pgQueryParse sql = none := by
      rw [routeQuery, hparse]
      exact if_neg (by omega)
    refine ⟨by simp [tooWide, hnone], fun _ => ?_⟩
    rw [answersQuery, if_neg hmap, hnone]
    simp [refuse_unsent]
  · have hzero : rc = 0 := by
      rcases parseQuery_rc hparse with hrc' | hrc' <;> omega
    subst hzero
    have hdecision : routeQuery cfg.shardMap cfg.pgQueryParse sql = some decision :=
      (routeQuery_of_parse hparse).trans hroute
    rw [answersQuery, if_neg hmap, tooWide, hdecision, executeRoute, Option.any_some]
    dsimp only
    cases decision.type with
    | single => exact ⟨by simp, fun _ => executeOrRefuse_unsent sql _ _ input _⟩
    | scatter =>
        rcases executeScatter_fate sql decision.targetShards input (x.1.countQuery, x.2) with
          ⟨hok, hunsent⟩
        exact ⟨by simpa [hmap] using hok, hunsent⟩
    | «local» =>
        exact ⟨by simp, fun _ => by simp [Session.queueReady, Session.queue, Session.queueAll]⟩
    | default => exact ⟨by simp, fun _ => executeOrRefuse_unsent sql _ _ input _⟩

end Queries

/-! ## Received bytes -/

/-- Once it returns, {lit}`fe_protocol_process` has refused the message at which the loop stops or
the query in it, and otherwise something is queued exactly if it was before, or a message that is
passed or that query is answered. -/
theorem processInput_fate {cfg : Config} {input : ClientInput} {x y : Conf} {ok : Bool}
    (h : processInput cfg input x = some (y, ok)) :
    let e := x.1.readFrom input.puts 0
    (ok = false ↔ e.Refuses input.puts x.1.backendConn.isSome ∨
      e.Asks ∧ tooWide cfg e.sql = true) ∧
    (ok = true → y.1.unsent =
      (e.unsent || decide e.Asks && answersQuery cfg input e.sql x)) := by
  unfold processInput at h
  dsimp only
  cases hloop : feProtocolProcess input.puts input.rounds 0 x.1 with
  | none => simp [hloop] at h
  | some round =>
      rw [hloop] at h
      have hends := loop_readFrom hloop
      have hfrom := feProtocolProcess_intake hloop
      cases round with
      | next t => exact absurd hends id
      | ret t ok' =>
          cases h
          rcases hends with ⟨hasks, hrefuses, hunsent⟩
          exact ⟨by simp [hasks, hrefuses], fun hok => by simp [hasks, hunsent hok]⟩
      | query t sql =>
          rcases hends with ⟨hasks, hrefuses, hunsent, rfl⟩
          rcases hfrom with ⟨t', n, hintakes, -, rfl⟩
          rcases hintakes.backend with ⟨hid, hconn, hshard⟩
          rcases handleQuery_fate _ h with ⟨hok, hanswer⟩
          refine ⟨?_, fun hyes => (hanswer hyes).trans ?_⟩
          · dsimp only at hok
            rw [hok]
            simp [hasks, hrefuses]
          · rw [decide_eq_true hasks, Bool.true_and, ← hunsent]
            exact congrArg _ (answersQuery_congr _ cfg input ⟨rfl, hid, hconn, hshard⟩)

end Sharegres
