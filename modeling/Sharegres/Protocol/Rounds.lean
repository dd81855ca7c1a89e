import Mathlib.Logic.Relation
import Sharegres.Protocol.FeProtocol

/-!
# Protocol - What a round of the loop does

The rounds of {lit}`fe_protocol_process` that do not end in a query change a session in
one of six ways.  Every invariant of the loop is proved from this list.

Main results:

- Definition {lit}`Intake`: the six ways.
- Theorem {lit}`feProtocolProcess_intake`: the loop is a series of them, ended by a
  return or by a query in a state that takes messages.
-/

namespace Sharegres

open Foundation

variable {r : Round} {s s' : Session}

/-- States in which messages of the query protocol are handled. -/
def SessionState.takesQueries (state : SessionState) : Prop :=
  state ≠ .init ∧ state ≠ .query ∧ state ≠ .scatter ∧ state ≠ .copyOut ∧ state ≠ .copyIn

/-- What a round that handles no query does to a session. -/
inductive Intake (s : Session) : Session → Prop where
  | same : Intake s s
  | consume (n : Nat) : Intake s { s with recvBuf := s.recvBuf.consume n }
  | sslRefused (n : Nat) (hstate : s.state = .init) :
      Intake s { s.queue .proxy .sslRefused with recvBuf := s.recvBuf.consume n }
  | startup (n : Nat) (user database : Option Text) (hstate : s.state = .init) :
      Intake s
        { (({ s with user := user, database := database,
                     recvBuf := s.recvBuf.consume n }).queueAll .proxy
              (startupMessages s.pid s.secretKey)).queueReady .idle with state := .ready }
  | copyPut (n : Nat) (put : CopyPut × PutOutcome) (after : SessionState)
      (hstate : s.state = .copyIn) (hafter : after = .copyIn ∨ after = .query) :
      Intake s
        { s with copyPuts := s.copyPuts ++ [put], state := after,
                 recvBuf := s.recvBuf.consume n }
  | extended (n : Nat) (hstate : s.state.takesQueries) :
      Intake s
        { refuse { s with extended := s.extended + 1 } (ascii "ERROR") (ascii "0A000")
            (ascii "extended query protocol not yet supported") with
          recvBuf := s.recvBuf.consume n }

/-- A series of rounds that handle no query. -/
def Intakes : Session → Session → Prop :=
  Relation.ReflTransGen Intake

/-- The ways a round can end, from what it does. -/
def Round.From (s : Session) : Round → Prop
  | .next s' => Intakes s s'
  | .ret s' _ => Intakes s s'
  | .query s' _ => ∃ t n, Intakes s t ∧ t.state.takesQueries ∧
      s' = { t with recvBuf := t.recvBuf.consume n }

theorem Intake.intakes (h : Intake s s') : Intakes s s' :=
  Relation.ReflTransGen.single h

theorem Round.From.trans {s t : Session} (h : Intakes s t) (hr : r.From t) :
    r.From s := by
  cases r with
  | next s' => exact Relation.ReflTransGen.trans h hr
  | ret s' ok => exact Relation.ReflTransGen.trans h hr
  | query s' sql =>
      rcases hr with ⟨t', n, ht, hstate, heq⟩
      exact ⟨t', n, Relation.ReflTransGen.trans h ht, hstate, heq⟩

/-- The loop neither starts nor ends a scatter. -/
theorem Intake.scatter_iff (h : Intake s s') :
    s'.state = .scatter ↔ s.state = .scatter := by
  cases h with
  | same => rfl
  | consume n => rfl
  | sslRefused n hstate => rfl
  | startup n user database hstate => simp [hstate]
  | copyPut n put after hstate hafter => rcases hafter with rfl | rfl <;> simp [hstate]
  | extended n hstate => rfl

/-- The loop starts and ends no scatter. -/
theorem Intakes.scatter_iff (h : Intakes s s') :
    s'.state = .scatter ↔ s.state = .scatter := by
  induction h with
  | refl => rfl
  | tail _ hlast ih => exact hlast.scatter_iff.trans ih

/-- A round does not lead back to the first state. -/
theorem Intake.not_init (h : Intake s s') (hinit : s.state ≠ .init) :
    s'.state ≠ .init := by
  cases h with
  | same => exact hinit
  | consume n => exact hinit
  | sslRefused n hstate => exact hinit
  | startup n user database hstate => exact absurd hstate hinit
  | copyPut n put after hstate hafter => rcases hafter with rfl | rfl <;> simp
  | extended n hstate => exact hinit

theorem Intakes.not_init (h : Intakes s s') (hinit : s.state ≠ .init) :
    s'.state ≠ .init := by
  induction h with
  | refl => exact hinit
  | tail _ hlast ih => exact hlast.not_init ih

/-- The loop does not touch the backend of the session. -/
theorem Intakes.backend {s t : Session} (h : Intakes s t) :
    t.id = s.id ∧ t.backendConn = s.backendConn ∧ t.backendShard = s.backendShard := by
  induction h with
  | refl => exact ⟨rfl, rfl, rfl⟩
  | tail _ hlast ih =>
      rcases ih with ⟨hid, hconn, hshard⟩
      cases hlast <;> exact ⟨hid, hconn, hshard⟩

/-! ## One round -/

/-- The parameters of a startup packet set the user and the database only. -/
theorem startupParams_eq (rb : RecvBuf) (msgLen fuel pos : Nat) (s : Session) :
    ∃ user database, startupParams rb msgLen fuel pos s =
      { s with user := user, database := database } := by
  induction fuel generalizing pos s with
  | zero => exact ⟨s.user, s.database, rfl⟩
  | succ fuel ih =>
      unfold startupParams
      dsimp only
      by_cases hend : msgLen ≤ pos ∨ rb.byte pos = 0
      · rw [if_pos hend]
        exact ⟨s.user, s.database, rfl⟩
      · rw [if_neg hend]
        by_cases hval : msgLen ≤ pos + (rb.cstring pos).length + 1
        · rw [if_pos hval]
          exact ⟨s.user, s.database, rfl⟩
        · rw [if_neg hval]
          split
          · rcases ih _ { s with user := some _ } with ⟨user, database, h⟩
            exact ⟨user, database, h⟩
          · split
            · rcases ih _ { s with database := some _ } with ⟨user, database, h⟩
              exact ⟨user, database, h⟩
            · exact ih _ s

/-- The startup packet. -/
theorem handleStartupMessage_intake (msgLen : Nat) (hstate : s.state = .init) :
    Intake s (handleStartupMessage msgLen s).1 := by
  unfold handleStartupMessage
  by_cases hshort : msgLen < 8
  · rw [if_pos hshort]
    exact Intake.same
  · rw [if_neg hshort]
    dsimp only
    by_cases hssl : s.recvBuf.be32 4 = pgSslRequest
    · rw [if_pos hssl]
      exact Intake.sslRefused msgLen hstate
    · rw [if_neg hssl]
      by_cases hcancel : s.recvBuf.be32 4 = pgCancelRequest
      · rw [if_pos hcancel]
        exact Intake.consume msgLen
      · rw [if_neg hcancel]
        by_cases hversion : s.recvBuf.be32 4 / 65536 ≠ 3
        · rw [if_pos hversion]
          exact Intake.same
        · rw [if_neg hversion]
          rcases startupParams_eq s.recvBuf msgLen msgLen 8 s with ⟨user, database, hparams⟩
          rw [hparams]
          exact Intake.startup msgLen _ _ hstate

/-- A message of the COPY protocol. -/
theorem copyHandleClientMessage_intake (msgType : UInt8) (payloadLen n : Nat) (outcome : PutOutcome)
    (hstate : s.state = .copyIn) :
    Intake s { (copyHandleClientMessage msgType payloadLen outcome s).1 with
      recvBuf := s.recvBuf.consume n } := by
  unfold copyHandleClientMessage
  by_cases hconn : s.backendConn = none
  · rw [if_pos hconn]
    exact Intake.consume n
  · rw [if_neg hconn]
    have hkeep := Intake.copyPut n (copyPut s.recvBuf msgType payloadLen, outcome) s.state hstate
      (Or.inl hstate)
    dsimp only
    by_cases hfailed : outcome = .failed
    · rw [if_pos hfailed]
      exact hkeep
    · rw [if_neg hfailed]
      by_cases hdata : msgType = 100
      · rw [if_pos hdata]
        exact hkeep
      · rw [if_neg hdata]
        exact Intake.copyPut n _ .query hstate (Or.inr rfl)

/-- A complete frame. -/
theorem handleFrame_from {msgType : UInt8} {msgLen total : Nat} {outcome : PutOutcome}
    (hinit : s.state ≠ .init)
    (hbusy : ¬ (s.state = .query ∨ s.state = .scatter ∨ s.state = .copyOut)) :
    (handleFrame msgType msgLen total outcome s).From s := by
  rw [not_or, not_or] at hbusy
  have hconsume : Intakes s { s with recvBuf := s.recvBuf.consume total } :=
    (Intake.consume total).intakes
  unfold handleFrame
  dsimp only
  by_cases hcopy : s.state = .copyIn
  · rw [if_pos hcopy]
    by_cases hput : msgType = 100 ∨ msgType = 99 ∨ msgType = 102
    · rw [if_pos hput]
      have hround :=
        copyHandleClientMessage_intake msgType (msgLen - 4) total outcome hcopy
      rcases hres : copyHandleClientMessage msgType (msgLen - 4) outcome s with ⟨t, _ | _⟩ <;>
        rw [hres] at hround
      · exact hround.intakes
      · exact hround.intakes
    · rw [if_neg hput]
      exact hconsume
  · have htakes : s.state.takesQueries := ⟨hinit, hbusy.1, hbusy.2.1, hbusy.2.2, hcopy⟩
    rw [if_neg hcopy]
    by_cases hquery : msgType = 81
    · rw [if_pos hquery]
      exact ⟨s, total, Relation.ReflTransGen.refl, htakes, rfl⟩
    · rw [if_neg hquery]
      by_cases hterminate : msgType = 88
      · rw [if_pos hterminate]
        exact Relation.ReflTransGen.refl
      · rw [if_neg hterminate]
        by_cases hext : isExtended msgType = true
        · rw [if_pos hext]
          exact (Intake.extended total htakes).intakes
        · rw [if_neg hext]
          exact hconsume

/-- One round of the loop. -/
theorem feProtocolRound_from (outcome : PutOutcome) (s : Session) :
    (feProtocolRound outcome s).From s := by
  have hsame : Intakes s s := Relation.ReflTransGen.refl
  unfold feProtocolRound
  dsimp only
  by_cases hinit : s.state = .init
  · rw [if_pos hinit]
    by_cases hfour : s.recvBuf.len < 4
    · rw [if_pos hfour]
      exact hsame
    · rw [if_neg hfour]
      by_cases hlen : s.recvBuf.be32 0 < 4 ∨ 65535 < s.recvBuf.be32 0
      · rw [if_pos hlen]
        exact hsame
      · rw [if_neg hlen]
        by_cases hpart : s.recvBuf.len < s.recvBuf.be32 0
        · rw [if_pos hpart]
          exact hsame
        · rw [if_neg hpart]
          have hstartup := handleStartupMessage_intake (s.recvBuf.be32 0) hinit
          rcases hres : handleStartupMessage (s.recvBuf.be32 0) s with ⟨t, _ | _⟩ <;>
            rw [hres] at hstartup
          · exact hstartup.intakes
          · exact hstartup.intakes
  · rw [if_neg hinit]
    by_cases hbusy : s.state = .query ∨ s.state = .scatter ∨ s.state = .copyOut
    · rw [if_pos hbusy]
      exact hsame
    · rw [if_neg hbusy]
      split
      · exact hsame
      · split
        · exact hsame
        · split
          · exact hsame
          · exact handleFrame_from hinit hbusy

/-- The loop up to its return or to the query it hands over. -/
theorem feProtocolProcess_intake {puts : Nat → PutOutcome} {rounds k : Nat}
    (h : feProtocolProcess puts rounds k s = some r) : r.From s := by
  induction rounds generalizing k s with
  | zero => cases h
  | succ rounds ih =>
      unfold feProtocolProcess at h
      by_cases hempty : s.recvBuf.len = 0
      · rw [if_pos hempty] at h
        cases h
        exact Relation.ReflTransGen.refl
      · rw [if_neg hempty] at h
        have hround := feProtocolRound_from (puts k) s
        cases hr : feProtocolRound (puts k) s with
        | next t =>
            rw [hr] at h hround
            exact Round.From.trans hround (ih h)
        | ret t ok =>
            rw [hr] at h hround
            cases h
            exact hround
        | query t sql =>
            rw [hr] at h hround
            cases h
            exact hround

/-- More rounds do not change the answer of the loop. -/
theorem feProtocolProcess_add {puts : Nat → PutOutcome} {rounds k : Nat}
    (h : feProtocolProcess puts rounds k s = some r) (more : Nat) :
    feProtocolProcess puts (rounds + more) k s = some r := by
  induction rounds generalizing k s with
  | zero => cases h
  | succ rounds ih =>
      rw [Nat.add_right_comm, feProtocolProcess]
      rw [feProtocolProcess] at h
      split at h
      · rw [if_pos ‹_›]
        exact h
      · rw [if_neg ‹_›]
        cases hround : feProtocolRound (puts k) s with
        | next t =>
            rw [hround] at h
            exact ih h
        | ret t ok =>
            rw [hround] at h
            exact h
        | query t sql =>
            rw [hround] at h
            exact h

end Sharegres
