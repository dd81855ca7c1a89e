import Sharegres.Foundation.Framing
import Sharegres.Protocol.Rounds

/-!
# Protocol - Frames of the client's stream

The content of the receive buffer as a series of messages, each with its length in front,
and what a round of {lit}`fe_protocol_process` does with the first of them.  The loop goes
on behind some messages and stops at others; which ones is said here by the state, the
type and the length of a message.  A length field of 2^32 - 1 gives a total of 0, so that
the loop handles the message without removing it.

Main results:

- Definition {lit}`clientFrames`: the messages behind which the loop goes on.
- Definition {lit}`Overflows`: a message that is handled and not removed.
- Definitions {lit}`RefusedFirst` and {lit}`AskedFirst`: a message at which it returns -1, and a
  query that it hands over.
- Theorem {lit}`feProtocolRound_case`: what one round does.
-/

namespace Sharegres

open Foundation

/-! ## The content of the buffer -/

namespace RecvBuf

variable (rb : RecvBuf)

/-- The bytes that were received and not removed yet. -/
def content : Text :=
  rb.data.take rb.len

/-- As many bytes as the buffer counts. -/
@[simp]
theorem content_length : rb.content.length = rb.len := by
  rw [content, List.length_take, Nat.min_eq_left rb.inBounds]

/-- Removing a frame takes it off the front. -/
@[simp]
theorem content_consume (n : Nat) : (rb.consume n).content = rb.content.drop n := by
  have hlen : ((rb.data.drop n).take (rb.len - n)).length = rb.len - n := by
    have := rb.inBounds
    rw [List.length_take, List.length_drop]
    omega
  unfold content consume
  dsimp only
  rw [List.take_append_of_le_length (by omega), List.take_take, Nat.min_self, List.drop_take]

/-- Received bytes come last. -/
@[simp]
theorem content_receive (bytes : Text) : (rb.receive bytes).content = rb.content ++ bytes := by
  unfold content receive
  dsimp only
  rw [List.take_append_of_le_length (by simp [Nat.min_eq_left rb.inBounds]),
    List.take_of_length_le (by simp [Nat.min_eq_left rb.inBounds])]

end RecvBuf

/-- The 32 bit number in network order at an offset. -/
def be32At (xs : Text) (pos : Nat) : Nat :=
  (((xs.getD pos 0).toNat * 256 + (xs.getD (pos + 1) 0).toNat) * 256 +
    (xs.getD (pos + 2) 0).toNat) * 256 + (xs.getD (pos + 3) 0).toNat

/-- A field of four bytes is below 2^32. -/
theorem be32At_lt (xs : Text) (pos : Nat) : be32At xs pos < 2 ^ 32 := by
  have h0 := (xs.getD pos 0).toNat_lt
  have h1 := (xs.getD (pos + 1) 0).toNat_lt
  have h2 := (xs.getD (pos + 2) 0).toNat_lt
  have h3 := (xs.getD (pos + 3) 0).toNat_lt
  unfold be32At
  omega

theorem be32At_append {xs : Text} {pos : Nat} (h : pos + 4 ≤ xs.length) (ys : Text) :
    be32At (xs ++ ys) pos = be32At xs pos := by
  have hget : ∀ i, i < xs.length → (xs ++ ys).getD i 0 = xs.getD i 0 := by
    intro i hi
    rw [List.getD_eq_getElem?_getD, List.getElem?_append_left hi, List.getD_eq_getElem?_getD]
  rw [be32At, be32At, hget _ (by omega), hget _ (by omega), hget _ (by omega),
    hget _ (by omega)]

namespace RecvBuf

variable {rb : RecvBuf}

/-- A byte of the content. -/
theorem byte_content {pos : Nat} (h : pos < rb.len) : rb.content.getD pos 0 = rb.byte pos := by
  rw [content, byte, List.getD_eq_getElem?_getD, List.getElem?_take_of_lt h,
    List.getD_eq_getElem?_getD]

/-- A length field of the content. -/
theorem be32_content {pos : Nat} (h : pos + 4 ≤ rb.len) :
    be32At rb.content pos = rb.be32 pos := by
  rw [be32At, be32, byte_content (by omega), byte_content (by omega), byte_content (by omega),
    byte_content (by omega)]

end RecvBuf

/-! ## The messages behind which the loop goes on -/

/-- States in which the loop waits for a backend. -/
def SessionState.busy (state : SessionState) : Bool :=
  state = .query ∨ state = .scatter ∨ state = .copyOut

/-- The state after a startup packet with the given version, if the session goes on. -/
def startupState (version : Nat) : Option SessionState :=
  if version = pgSslRequest then some .init
  else if version = pgCancelRequest then none
  else if version / 65536 = 3 then some .ready
  else none

/-- The state after a message of the given type, if the loop goes on behind it. -/
def frameState (conn : Bool) (outcome : PutOutcome) (state : SessionState) (msgType : UInt8) :
    Option SessionState :=
  if state = .copyIn then
    if msgType = 100 ∨ msgType = 99 ∨ msgType = 102 then
      if conn ∧ outcome ≠ .failed then some (if msgType = 100 then .copyIn else .query) else none
    else some .copyIn
  else if msgType = 81 ∨ msgType = 88 then none
  else some state

/-- A startup packet stands at the front. -/
def StartupFirst (xs : Text) : Prop :=
  4 ≤ xs.length ∧ 8 ≤ be32At xs 0 ∧ be32At xs 0 ≤ 65535 ∧ be32At xs 0 ≤ xs.length

/-- A complete message with a type stands at the front. -/
def Complete (xs : Text) : Prop :=
  5 ≤ xs.length ∧ 4 ≤ be32At xs 1 ∧ 1 + be32At xs 1 ≤ xs.length

instance (xs : Text) : Decidable (StartupFirst xs) :=
  inferInstanceAs (Decidable (_ ∧ _ ∧ _ ∧ _))

instance (xs : Text) : Decidable (Complete xs) :=
  inferInstanceAs (Decidable (_ ∧ _ ∧ _))

/-- The messages behind which the loop goes on, with the round and the state.  The answers
of the backend to copy data are counted by the round. -/
def clientFrames (puts : Nat → PutOutcome) (conn : Bool) :
    Framing (Nat × SessionState) UInt8 where
  next := fun st xs =>
    if st.2 = .init then
      if StartupFirst xs then
        (startupState (be32At xs 4)).map fun state => (be32At xs 0, st.1 + 1, state)
      else none
    else if st.2.busy then none
    else if Complete xs ∧ 1 + be32At xs 1 ≤ 16 * 1024 * 1024 then
      (frameState conn (puts st.1) st.2 (xs.getD 0 0)).map fun state =>
        (1 + be32At xs 1, st.1 + 1, state)
    else none
  bounds := by
    intro st st' xs n h
    split at h
    · split at h
      · rename_i hfirst
        rcases Option.map_eq_some_iff.mp h with ⟨state, -, heq⟩
        cases heq
        exact ⟨by have := hfirst.2.1; omega, hfirst.2.2.2⟩
      · cases h
    · split at h
      · cases h
      · split at h
        · rename_i hcomplete
          rcases Option.map_eq_some_iff.mp h with ⟨state, -, heq⟩
          cases heq
          exact ⟨by omega, hcomplete.1.2.2⟩
        · cases h

/-- A message whose length field is 2^32 - 1 stands at the front, and the loop goes on. -/
def Overflows (puts : Nat → PutOutcome) (conn : Bool) (st : Nat × SessionState) (xs : Text) :
    Prop :=
  st.2 ≠ .init ∧ st.2.busy = false ∧ 5 ≤ xs.length ∧ be32At xs 1 = 2 ^ 32 - 1 ∧
    (frameState conn (puts st.1) st.2 (xs.getD 0 0)).isSome

instance (puts : Nat → PutOutcome) (conn : Bool) (st : Nat × SessionState) (xs : Text) :
    Decidable (Overflows puts conn st xs) :=
  inferInstanceAs (Decidable (_ ∧ _ ∧ _ ∧ _ ∧ _))

/-- The total length of the message at the front, in 32 bits. -/
def frameTotal (xs : Text) : Nat :=
  (1 + be32At xs 1) % 2 ^ 32

/-- The message at the front is refused, so that the loop returns -1: a startup packet with a bad
length, a request to cancel or another protocol, a message with a bad length, a Terminate, or a
message of the COPY protocol that cannot be put. -/
def RefusedFirst (conn : Bool) (outcome : PutOutcome) (state : SessionState) (xs : Text) : Prop :=
  if state = .init then
    4 ≤ xs.length ∧ (be32At xs 0 < 4 ∨ 65535 < be32At xs 0 ∨
      be32At xs 0 ≤ xs.length ∧ (be32At xs 0 < 8 ∨ startupState (be32At xs 4) = none))
  else
    state.busy = false ∧ 5 ≤ xs.length ∧ (be32At xs 1 < 4 ∨ 16 * 1024 * 1024 < frameTotal xs ∨
      frameTotal xs ≤ xs.length ∧ frameState conn outcome state (xs.getD 0 0) = none ∧
        (state ≠ .copyIn → xs.getD 0 0 ≠ 81))

instance (conn : Bool) (outcome : PutOutcome) (state : SessionState) (xs : Text) :
    Decidable (RefusedFirst conn outcome state xs) := by
  delta RefusedFirst
  infer_instance

/-- A complete Query stands at the front, and the loop hands it over. -/
def AskedFirst (state : SessionState) (xs : Text) : Prop :=
  state.takesQueries ∧ xs.getD 0 0 = 81 ∧ 5 ≤ xs.length ∧ 4 ≤ be32At xs 1 ∧
    frameTotal xs ≤ 16 * 1024 * 1024 ∧ frameTotal xs ≤ xs.length

instance (state : SessionState) (xs : Text) : Decidable (AskedFirst state xs) :=
  inferInstanceAs (Decidable ((_ ∧ _ ∧ _ ∧ _ ∧ _) ∧ _ ∧ _ ∧ _ ∧ _ ∧ _))

/-- The loop answers the message at the front itself: every packet before the startup, and then
the messages of the extended protocol. -/
def answersFirst (state : SessionState) (xs : Text) : Bool :=
  state = .init || state ≠ .copyIn && isExtended (xs.getD 0 0)

/-- The loop does not go on behind a message of 2^32 bytes in the way it should. -/
theorem next_of_wrap {puts : Nat → PutOutcome} {conn : Bool} {st : Nat × SessionState}
    {xs : Text} (hinit : st.2 ≠ .init) (hwrap : be32At xs 1 = 2 ^ 32 - 1) :
    (clientFrames puts conn).next st xs = none := by
  simp only [clientFrames]
  rw [if_neg hinit]
  split
  · rfl
  · rw [if_neg]
    intro hcomplete
    have hsize := hcomplete.2
    rw [hwrap] at hsize
    omega

/-- A length of 2^32 - 1 leaves nothing to take. -/
theorem next_of_overflows {puts : Nat → PutOutcome} {conn : Bool} {st : Nat × SessionState}
    {xs : Text} (h : Overflows puts conn st xs) : (clientFrames puts conn).next st xs = none :=
  next_of_wrap h.1 h.2.2.2.1

/-- What the loop hands over it does not refuse. -/
theorem AskedFirst.not_refused {conn : Bool} {outcome : PutOutcome} {state : SessionState}
    {xs : Text} (h : AskedFirst state xs) : ¬ RefusedFirst conn outcome state xs := by
  rcases h with ⟨htakes, htype, -, hfour, hmax, -⟩
  intro hrefused
  rw [RefusedFirst, if_neg htakes.1] at hrefused
  rcases hrefused.2.2 with hlow | hhigh | ⟨-, -, hnot⟩
  · omega
  · omega
  · exact hnot htakes.2.2.2.2 htype

section Overflow

variable {puts : Nat → PutOutcome} {conn : Bool} {st : Nat × SessionState} {xs : Text}

/-- It is not refused then. -/
theorem Overflows.not_refused (h : Overflows puts conn st xs) :
    ¬ RefusedFirst conn (puts st.1) st.2 xs := by
  rcases h with ⟨hinit, -, -, hwrap, hsome⟩
  intro hrefused
  rw [RefusedFirst, if_neg hinit, frameTotal, hwrap] at hrefused
  rcases hrefused.2.2 with hlow | hhigh | ⟨-, hnone, -⟩
  · omega
  · omega
  · rw [hnone] at hsome
    cases hsome

/-- It is no query then. -/
theorem Overflows.not_asked (h : Overflows puts conn st xs) : ¬ AskedFirst st.2 xs := by
  rcases h with ⟨-, -, -, -, hsome⟩
  rintro ⟨htakes, htype, -⟩
  rw [frameState, if_neg htakes.2.2.2.2, if_pos (Or.inl htype)] at hsome
  cases hsome

end Overflow

/-! ## One round -/

/-- A message of the COPY protocol leaves the buffer to the loop. -/
theorem copyHandleClientMessage_spec (msgType : UInt8) (payloadLen : Nat) (outcome : PutOutcome)
    {s : Session} (hcopy : s.state = .copyIn) :
    (copyHandleClientMessage msgType payloadLen outcome s).2 =
        (s.backendConn.isSome && outcome ≠ .failed) ∧
      ((copyHandleClientMessage msgType payloadLen outcome s).2 = true →
        (copyHandleClientMessage msgType payloadLen outcome s).1.state =
          if msgType = 100 then .copyIn else .query) ∧
      (copyHandleClientMessage msgType payloadLen outcome s).1.backendConn = s.backendConn ∧
      (copyHandleClientMessage msgType payloadLen outcome s).1.unsent = s.unsent := by
  unfold copyHandleClientMessage
  by_cases hconn : s.backendConn = none
  · rw [if_pos hconn]
    simp [hconn]
  · rw [if_neg hconn]
    have hsome : s.backendConn.isSome = true := Option.isSome_iff_ne_none.mpr hconn
    dsimp only
    by_cases hfailed : outcome = .failed
    · rw [if_pos hfailed]
      simp [hfailed]
    · rw [if_neg hfailed]
      by_cases hdata : msgType = 100
      · rw [if_pos hdata]
        simp [hsome, hfailed, hdata, hcopy]
      · rw [if_neg hdata]
        simp [hsome, hfailed, hdata]

/-- What a complete frame does, by the state in which the loop goes on. -/
theorem handleFrame_spec (msgType : UInt8) (msgLen total : Nat) (outcome : PutOutcome)
    (s : Session) :
    match frameState s.backendConn.isSome outcome s.state msgType with
    | some state => ∃ t, handleFrame msgType msgLen total outcome s = .next t ∧
        t.state = state ∧ t.backendConn = s.backendConn ∧ t.recvBuf = s.recvBuf.consume total ∧
        t.unsent = (s.unsent || s.state ≠ .copyIn && isExtended msgType)
    | none =>
        if s.state ≠ .copyIn ∧ msgType = 81 then
          handleFrame msgType msgLen total outcome s =
            .query { s with recvBuf := s.recvBuf.consume total }
              ((s.recvBuf.consume total).cstring 5)
        else ∃ t, handleFrame msgType msgLen total outcome s = .ret t false := by
  unfold handleFrame frameState
  dsimp only
  by_cases hcopy : s.state = .copyIn
  · rw [if_pos hcopy, if_pos hcopy]
    by_cases hput : msgType = 100 ∨ msgType = 99 ∨ msgType = 102
    · rw [if_pos hput, if_pos hput]
      rcases copyHandleClientMessage_spec msgType (msgLen - 4) outcome hcopy with
        ⟨hflag, hstate, hconn, hunsent⟩
      rcases hres : copyHandleClientMessage msgType (msgLen - 4) outcome s with ⟨t, _ | _⟩ <;>
        rw [hres] at hflag hstate hconn hunsent
      · rw [if_neg (by simpa using hflag)]
        dsimp only
        rw [if_neg (by simp [hcopy])]
        exact ⟨_, rfl⟩
      · rw [if_pos (by simpa using hflag)]
        exact ⟨_, rfl, hstate rfl, hconn, rfl, by simpa [hcopy] using hunsent⟩
    · rw [if_neg hput, if_neg hput]
      exact ⟨_, rfl, hcopy, rfl, rfl, by simp [hcopy]⟩
  · rw [if_neg hcopy, if_neg hcopy]
    by_cases hquery : msgType = 81
    · rw [if_pos hquery, if_pos (Or.inl hquery)]
      dsimp only
      rw [if_pos ⟨hcopy, hquery⟩]
    · rw [if_neg hquery]
      by_cases hterminate : msgType = 88
      · rw [if_pos hterminate, if_pos (Or.inr hterminate)]
        dsimp only
        rw [if_neg (fun h => hquery h.2)]
        exact ⟨_, rfl⟩
      · rw [if_neg hterminate, if_neg (by simp [hquery, hterminate])]
        by_cases hext : isExtended msgType = true
        · rw [if_pos hext]
          exact ⟨_, rfl, rfl, rfl, rfl, by simp [hcopy, hext, refuse, Session.queueReady,
            Session.queue, Session.queueAll]⟩
        · rw [if_neg hext]
          exact ⟨_, rfl, rfl, rfl, rfl, by simp [hext]⟩

/-- What a startup packet does. -/
theorem handleStartupMessage_spec {msgLen : Nat} (hlen : 8 ≤ msgLen) (s : Session) :
    match startupState (s.recvBuf.be32 4) with
    | some state => ∃ t, handleStartupMessage msgLen s = (t, true) ∧
        (s.state = .init → t.state = state) ∧ t.backendConn = s.backendConn ∧
        t.recvBuf = s.recvBuf.consume msgLen ∧ t.unsent = true
    | none => (handleStartupMessage msgLen s).2 = false := by
  have hshort : ¬ msgLen < 8 := by omega
  unfold handleStartupMessage startupState
  rw [if_neg hshort]
  dsimp only
  by_cases hssl : s.recvBuf.be32 4 = pgSslRequest
  · rw [if_pos hssl, if_pos hssl]
    exact ⟨_, rfl, fun h => h, rfl, rfl, by simp [Session.queue, Session.queueAll]⟩
  · rw [if_neg hssl, if_neg hssl]
    by_cases hcancel : s.recvBuf.be32 4 = pgCancelRequest
    · rw [if_pos hcancel, if_pos hcancel]
    · rw [if_neg hcancel, if_neg hcancel]
      by_cases hversion : s.recvBuf.be32 4 / 65536 = 3
      · rw [if_pos hversion, if_neg (by simp [hversion])]
        rcases startupParams_eq s.recvBuf msgLen msgLen 8 s with ⟨user, database, hparams⟩
        rw [hparams]
        exact ⟨_, rfl, fun _ => rfl, rfl, rfl, by simp [Session.queueReady, Session.queue,
          Session.queueAll]⟩
      · rw [if_neg hversion, if_pos hversion]

/-- The ways a round on a buffer that is not empty can end: the loop goes on behind the first
message, or with the same content, or it returns, or it hands over a query. -/
inductive RoundCase (puts : Nat → PutOutcome) (k : Nat) (s : Session) : Round → Prop where
  | pass (t : Session) (n : Nat)
      (hnext : (clientFrames puts s.backendConn.isSome).next (k, s.state) s.recvBuf.content =
        some (n, k + 1, t.state))
      (hconn : t.backendConn = s.backendConn)
      (hbuf : t.recvBuf = s.recvBuf.consume n)
      (hunsent : t.unsent = (s.unsent || answersFirst s.state s.recvBuf.content)) :
      RoundCase puts k s (.next t)
  | stuck (t : Session)
      (hover : Overflows puts s.backendConn.isSome (k, s.state) s.recvBuf.content)
      (hcontent : t.recvBuf.content = s.recvBuf.content)
      (hconn : t.backendConn = s.backendConn)
      (hstate : frameState s.backendConn.isSome (puts k) s.state (s.recvBuf.content.getD 0 0) =
        some t.state)
      (hunsent : t.unsent = (s.unsent || answersFirst s.state s.recvBuf.content)) :
      RoundCase puts k s (.next t)
  | wait
      (hstop : (clientFrames puts s.backendConn.isSome).next (k, s.state) s.recvBuf.content = none)
      (hover : ¬ Overflows puts s.backendConn.isSome (k, s.state) s.recvBuf.content)
      (hwhy : s.state = .init ∨ s.state.busy = true ∨ ¬ Complete s.recvBuf.content)
      (hgood : ¬ RefusedFirst s.backendConn.isSome (puts k) s.state s.recvBuf.content)
      (hasks : ¬ AskedFirst s.state s.recvBuf.content) : RoundCase puts k s (.ret s true)
  | fail (t : Session)
      (hstop : (clientFrames puts s.backendConn.isSome).next (k, s.state) s.recvBuf.content = none)
      (hover : ¬ Overflows puts s.backendConn.isSome (k, s.state) s.recvBuf.content)
      (hbad : RefusedFirst s.backendConn.isSome (puts k) s.state s.recvBuf.content) :
      RoundCase puts k s (.ret t false)
  | query
      (hstop : (clientFrames puts s.backendConn.isSome).next (k, s.state) s.recvBuf.content = none)
      (hover : ¬ Overflows puts s.backendConn.isSome (k, s.state) s.recvBuf.content)
      (hasks : AskedFirst s.state s.recvBuf.content) :
      RoundCase puts k s (.query
        { s with recvBuf := s.recvBuf.consume (frameTotal s.recvBuf.content) }
        ((s.recvBuf.consume (frameTotal s.recvBuf.content)).cstring 5))

section Rounds

variable {puts : Nat → PutOutcome} {k : Nat} {s : Session}

/-- A round before the startup packet. -/
theorem feProtocolRound_init (hstate : s.state = .init) :
    RoundCase puts k s (feProtocolRound (puts k) s) := by
  have hover : ¬ Overflows puts s.backendConn.isSome (k, s.state) s.recvBuf.content :=
    fun h => h.1 hstate
  have hnext : (clientFrames puts s.backendConn.isSome).next (k, s.state) s.recvBuf.content =
      if StartupFirst s.recvBuf.content then
        (startupState (be32At s.recvBuf.content 4)).map fun state =>
          (be32At s.recvBuf.content 0, k + 1, state)
      else none := if_pos hstate
  have hnone : ¬ StartupFirst s.recvBuf.content →
      (clientFrames puts s.backendConn.isSome).next (k, s.state) s.recvBuf.content = none := by
    intro hnot
    rw [hnext, if_neg hnot]
  have hquery : ¬ AskedFirst s.state s.recvBuf.content := fun h => h.1.1 hstate
  have hrefused : RefusedFirst s.backendConn.isSome (puts k) s.state s.recvBuf.content ↔ _ :=
    iff_of_eq (if_pos hstate)
  have hlength := s.recvBuf.content_length
  unfold feProtocolRound
  dsimp only
  rw [if_pos hstate]
  by_cases hfour : s.recvBuf.len < 4
  · rw [if_pos hfour]
    refine RoundCase.wait (hnone fun h => ?_) hover (Or.inl hstate)
      (mt hrefused.mp fun h => ?_) hquery <;>
    · have := h.1
      omega
  · rw [if_neg hfour]
    have hlen : be32At s.recvBuf.content 0 = s.recvBuf.be32 0 :=
      RecvBuf.be32_content (by omega)
    by_cases hrange : s.recvBuf.be32 0 < 4 ∨ 65535 < s.recvBuf.be32 0
    · rw [if_pos hrange]
      refine RoundCase.fail s (hnone fun h => ?_) hover (hrefused.mpr ⟨by omega, by omega⟩)
      have h8 := h.2.1
      have hmax := h.2.2.1
      omega
    · rw [if_neg hrange]
      by_cases hpart : s.recvBuf.len < s.recvBuf.be32 0
      · rw [if_pos hpart]
        refine RoundCase.wait (hnone fun h => ?_) hover (Or.inl hstate)
          (mt hrefused.mp fun h => ?_) hquery
        · have hfits := h.2.2.2
          omega
        · have hwhy := h.2
          omega
      · rw [if_neg hpart]
        by_cases hshort : s.recvBuf.be32 0 < 8
        · have hresult : handleStartupMessage (s.recvBuf.be32 0) s = (s, false) := by
            unfold handleStartupMessage
            rw [if_pos hshort]
          rw [hresult]
          refine RoundCase.fail s (hnone fun h => ?_) hover
            (hrefused.mpr ⟨by omega, Or.inr (Or.inr ⟨by omega, Or.inl (by omega)⟩)⟩)
          have h8 := h.2.1
          omega
        · have hfirst : StartupFirst s.recvBuf.content := by
            refine ⟨?_, ?_, ?_, ?_⟩ <;> omega
          have hversion : be32At s.recvBuf.content 4 = s.recvBuf.be32 4 :=
            RecvBuf.be32_content (by omega)
          have hspec := handleStartupMessage_spec (Nat.le_of_not_lt hshort) s
          rw [if_pos hfirst, hversion, hlen] at hnext
          cases hnew : startupState (s.recvBuf.be32 4) with
          | none =>
              rw [hnew] at hspec hnext
              rcases hres : handleStartupMessage (s.recvBuf.be32 0) s with ⟨t, ok⟩
              rw [hres] at hspec
              cases hspec
              exact RoundCase.fail t hnext hover (hrefused.mpr
                ⟨by omega, Or.inr (Or.inr ⟨by omega, Or.inr (hversion ▸ hnew)⟩)⟩)
          | some state =>
              rw [hnew] at hspec hnext
              rcases hspec with ⟨t, hres, hstate', hconn, hbuf, hunsent⟩
              rw [hres]
              refine RoundCase.pass t (s.recvBuf.be32 0) ?_ hconn hbuf ?_
              · rw [hnext, hstate' hstate]
                rfl
              · simp [hunsent, answersFirst, hstate]

/-- A round after the startup packet. -/
theorem feProtocolRound_typed (hinit : s.state ≠ .init) :
    RoundCase puts k s (feProtocolRound (puts k) s) := by
  have hrefused : RefusedFirst s.backendConn.isSome (puts k) s.state s.recvBuf.content ↔ _ :=
    iff_of_eq (if_neg hinit)
  have hlength := s.recvBuf.content_length
  unfold feProtocolRound
  dsimp only
  rw [if_neg hinit]
  by_cases hbusy : s.state.busy = true
  · have hwaits : s.state = .query ∨ s.state = .scatter ∨ s.state = .copyOut := by
      simpa [SessionState.busy] using hbusy
    rw [if_pos hwaits]
    have hfree : s.state.busy ≠ false := by simp [hbusy]
    refine RoundCase.wait ?_ (fun h => hfree h.2.1) (Or.inr (Or.inl hbusy))
      (mt hrefused.mp fun h => hfree h.1) fun h => ?_
    · exact (if_neg hinit).trans (if_pos hbusy)
    · rcases hwaits with hquery | hscatter | hcopy
      · exact h.1.2.1 hquery
      · exact h.1.2.2.1 hscatter
      · exact h.1.2.2.2.1 hcopy
  · have hwaits : ¬ (s.state = .query ∨ s.state = .scatter ∨ s.state = .copyOut) := by
      simpa [SessionState.busy] using hbusy
    rw [if_neg hwaits]
    have hnext : (clientFrames puts s.backendConn.isSome).next (k, s.state) s.recvBuf.content =
        if Complete s.recvBuf.content ∧ 1 + be32At s.recvBuf.content 1 ≤ 16 * 1024 * 1024 then
          (frameState s.backendConn.isSome (puts k) s.state (s.recvBuf.content.getD 0 0)).map
            fun state => (1 + be32At s.recvBuf.content 1, k + 1, state)
        else none := (if_neg hinit).trans (if_neg hbusy)
    have hnone : ¬ (Complete s.recvBuf.content ∧
          1 + be32At s.recvBuf.content 1 ≤ 16 * 1024 * 1024) →
        (clientFrames puts s.backendConn.isSome).next (k, s.state) s.recvBuf.content = none := by
      intro hnot
      rw [hnext, if_neg hnot]
    by_cases hfive : s.recvBuf.len < 5
    · rw [if_pos hfive]
      have hpart : ¬ Complete s.recvBuf.content := fun h => by
        have := h.1
        omega
      refine RoundCase.wait (hnone fun h => hpart h.1) (fun h => ?_) (Or.inr (Or.inr hpart))
        (mt hrefused.mp fun h => ?_) fun h => ?_
      · have := h.2.2.1
        omega
      · have := h.2.1
        omega
      · have := h.2.2.1
        omega
    · rw [if_neg hfive]
      have hlen : be32At s.recvBuf.content 1 = s.recvBuf.be32 1 :=
        RecvBuf.be32_content (by omega)
      have htype : s.recvBuf.content.getD 0 0 = s.recvBuf.byte 0 :=
        RecvBuf.byte_content (by omega)
      have hlt := be32At_lt s.recvBuf.content 1
      have hframe : frameTotal s.recvBuf.content = (1 + be32At s.recvBuf.content 1) % 2 ^ 32 := rfl
      rw [← hlen, ← hframe]
      by_cases hrange : be32At s.recvBuf.content 1 < 4 ∨
          16 * 1024 * 1024 < frameTotal s.recvBuf.content
      · rw [if_pos hrange]
        refine RoundCase.fail s (hnone fun h => ?_) (fun h => ?_)
          (hrefused.mpr ⟨by simpa using hbusy, by omega, by omega⟩)
        · have hfour := h.1.2.1
          have hmax := h.2
          omega
        · have hwrap := h.2.2.2.1
          omega
      · rw [if_neg hrange]
        by_cases hpart : s.recvBuf.len < frameTotal s.recvBuf.content
        · rw [if_pos hpart]
          refine RoundCase.wait (hnone fun h => ?_) (fun h => ?_) (Or.inr (Or.inr fun h => ?_))
            (mt hrefused.mp fun h => ?_) fun h => ?_
          · have hfits := h.1.2.2
            omega
          · have hwrap := h.2.2.2.1
            omega
          · have hfits := h.2.2
            omega
          · have hwhy := h.2.2
            omega
          · have hfits := h.2.2.2.2.2
            omega
        · rw [if_neg hpart, ← htype]
          have htakes : s.state ≠ .copyIn → s.state.takesQueries := fun hcopy =>
            ⟨hinit, fun h => hwaits (Or.inl h), fun h => hwaits (Or.inr (Or.inl h)),
              fun h => hwaits (Or.inr (Or.inr h)), hcopy⟩
          have hspec := handleFrame_spec (s.recvBuf.content.getD 0 0)
            (be32At s.recvBuf.content 1) (frameTotal s.recvBuf.content) (puts k) s
          cases hnew : frameState s.backendConn.isSome (puts k) s.state
              (s.recvBuf.content.getD 0 0) with
          | some state =>
              rw [hnew] at hspec hnext
              rcases hspec with ⟨t, hround, hstate, hconn, hbuf, hunsent⟩
              have hanswers : t.unsent =
                  (s.unsent || answersFirst s.state s.recvBuf.content) := by
                simpa [answersFirst, hinit] using hunsent
              rw [hround]
              by_cases hwrap : be32At s.recvBuf.content 1 = 2 ^ 32 - 1
              · refine RoundCase.stuck t ⟨hinit, by simpa using hbusy, by omega, hwrap, ?_⟩ ?_ hconn
                  (by rw [hnew, hstate]) hanswers
                · dsimp only
                  rw [hnew]
                  rfl
                · have hzero : frameTotal s.recvBuf.content = 0 := by omega
                  rw [hbuf, hzero, RecvBuf.content_consume, List.drop_zero]
              · have hsize : frameTotal s.recvBuf.content = 1 + be32At s.recvBuf.content 1 := by
                  omega
                rw [if_pos ⟨⟨by omega, by omega, by omega⟩, by omega⟩] at hnext
                refine RoundCase.pass t (frameTotal s.recvBuf.content) ?_ hconn hbuf hanswers
                rw [hnext, hstate, hsize]
                rfl
          | none =>
              have hstop : (clientFrames puts s.backendConn.isSome).next (k, s.state)
                  s.recvBuf.content = none := by
                rw [hnext, hnew]
                split <;> rfl
              have hover : ¬ Overflows puts s.backendConn.isSome (k, s.state)
                  s.recvBuf.content := fun h => by
                have hsome := h.2.2.2.2
                dsimp only at hsome
                rw [hnew] at hsome
                cases hsome
              rw [hnew] at hspec
              dsimp only at hspec
              by_cases hquery : s.state ≠ .copyIn ∧ s.recvBuf.content.getD 0 0 = 81
              · rw [if_pos hquery] at hspec
                rw [hspec]
                exact RoundCase.query hstop hover
                  ⟨htakes hquery.1, hquery.2, by omega, by omega, by omega, by omega⟩
              · rw [if_neg hquery] at hspec
                rcases hspec with ⟨t, hround⟩
                rw [hround]
                refine RoundCase.fail t hstop hover (hrefused.mpr ⟨by simpa using hbusy, by omega,
                  Or.inr (Or.inr ⟨by omega, hnew, fun hcopy htype' => hquery ⟨hcopy, htype'⟩⟩)⟩)

/-- One round of the loop. -/
theorem feProtocolRound_case (puts : Nat → PutOutcome) (k : Nat) (s : Session) :
    RoundCase puts k s (feProtocolRound (puts k) s) := by
  by_cases hinit : s.state = .init
  · exact feProtocolRound_init hinit
  · exact feProtocolRound_typed hinit

end Rounds

end Sharegres
