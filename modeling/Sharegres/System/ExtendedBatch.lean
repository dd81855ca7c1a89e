import Sharegres.Session.CopyIn
import Sharegres.System.Handshake

/-!
# System - A batch of the extended query protocol

A client of the extended query protocol sends Parse, Bind, Describe, Execute and Close messages
and ends them with a Sync.  It expects that a server which refuses one of them drops the rest and
is ready again at the Sync.  The session refuses each message by itself, the Sync as well, and
tells the client each time that it is ready.

Main results:

- Definition {lit}`ClientRun`: the reads of a session, with the bytes received.
- Definition {lit}`LeavesInSync`: a batch is answered once, and a Query follows.
- Theorem {lit}`refuse_loop`: the loop over the receive buffer refuses message by message.
- Theorem {lit}`batch_in_sync_iff`: the client is in sync after a Sync alone, and after no other
  batch.
- Theorem {lit}`parse_answered_twice`: a Parse and a Sync in one read.
-/

namespace Sharegres

open Foundation

/-! ## Batches -/

/-- A message of the extended query protocol; its length field is below 2^32 - 1. -/
structure ExtendedMsg where
  type : UInt8
  payload : Text
  extended : isExtended type = true
  fits : (frameBytes type payload).length < 2 ^ 32

/-- The bytes of a message. -/
def ExtendedMsg.bytes (m : ExtendedMsg) : Text :=
  frameBytes m.type m.payload

theorem isExtended_sync : isExtended 83 = true :=
  rfl

theorem frameBytes_sync_fits : (frameBytes 83 []).length < 2 ^ 32 := by
  decide

/-- The message that ends a batch. -/
def ExtendedMsg.sync : ExtendedMsg :=
  ⟨83, [], isExtended_sync, frameBytes_sync_fits⟩

/-- The messages in front of a Sync. -/
structure ExtendedBatch where
  messages : List ExtendedMsg
  unsynced : ∀ m ∈ messages, m.type ≠ 83

/-- The bytes of messages. -/
def extendedBytes (messages : List ExtendedMsg) : Text :=
  messages.flatMap ExtendedMsg.bytes

/-- The messages with the Sync. -/
def ExtendedBatch.synced (batch : ExtendedBatch) : List ExtendedMsg :=
  batch.messages ++ [.sync]

/-- What the client sends. -/
def ExtendedBatch.bytes (batch : ExtendedBatch) : Text :=
  extendedBytes batch.synced

/-! ## Runs -/

/-- The events of a client's socket that works, with the bytes they bring; the backends are
those the other sessions leave. -/
inductive ClientRun (cfg : Config) (s₀ : Session) : Text → Session → Prop where
  | start : ClientRun cfg s₀ [] s₀
  | event {received : Text} {s : Session} (input : ClientInput) (b : Backends) (y : Conf)
      (hrun : ClientRun cfg s₀ received s) (hopen : s.closed = false)
      (horderly : input.orderly) (hcall : onClient cfg input (s, b) = some y) :
      ClientRun cfg s₀ (received ++ input.received s) y.1

/-- A session in front of a new message. -/
structure AwaitsMessage (s : Session) : Prop where
  state : s.state = .ready
  alive : s.closed = false
  unread : s.recvBuf.content = []

/-- The messages queued since a session was in front of a batch. -/
def queuedSince (s₀ s : Session) : List Queued :=
  s.out.drop s₀.out.length

/-- A batch of which some bytes were received is answered as a client expects it. -/
structure InSync (cfg : Config) (batch : ExtendedBatch) (s₀ : Session) (received : Text)
    (s : Session) : Prop where
  /-- An event that brings more of the batch returns. -/
  returns : s.closed = false → ∀ (input : ClientInput) (b : Backends),
    received ++ input.received s <+: batch.bytes →
    ∃ rounds, (onClient cfg { input with rounds := rounds } (s, b)).isSome
  /-- ReadyForQuery is queued in answer to the Sync, and not before. -/
  awaits : received.length < batch.bytes.length →
    (queuedSince s₀ s).countP (·.msg.isReady) = 0
  /-- The batch has one ErrorResponse and one ReadyForQuery. -/
  answered : received = batch.bytes → (queuedSince s₀ s).countP (·.msg.isError) = 1 ∧
    (queuedSince s₀ s).countP (·.msg.isReady) = 1
  /-- The session goes on, and hands the next Query with its text to {lit}`handle_query`. -/
  goesOn : received = batch.bytes → s.closed = false ∧ ∀ sql : Text, 0 ∉ sql →
    (sql ++ [0]).length + 5 ≤ 16 * 1024 * 1024 → ∀ puts rounds,
    CallsHandleQuery puts (rounds + 1) (s.receive (queryFrame (sql ++ [0]))) sql

/-- Whatever the reads are, the batch is answered as a client expects it. -/
def LeavesInSync (cfg : Config) (batch : ExtendedBatch) (s₀ : Session) : Prop :=
  ∀ received s, ClientRun cfg s₀ received s → received <+: batch.bytes →
    InSync cfg batch s₀ received s

/-! ## Refusals -/

/-- The answer to one message. -/
def refusal : List BackendMsg :=
  [msgWriteError (ascii "ERROR") (ascii "0A000")
    (ascii "extended query protocol not yet supported"), .readyForQuery .idle]

/-- The answers to some messages. -/
def refusals (n : Nat) : List BackendMsg :=
  (List.replicate n refusal).flatten

/-- The answers to two batches. -/
theorem refusals_add (m n : Nat) : refusals (m + n) = refusals m ++ refusals n := by
  rw [refusals, List.replicate_add, List.flatten_append, refusals, refusals]

theorem countP_refusals (p : BackendMsg → Bool) (n : Nat) :
    (refusals n).countP p = n * refusal.countP p := by
  rw [refusals, List.countP_flatten, List.map_replicate, List.sum_replicate_nat]

/-- A session that has refused some messages, with what is left in the buffer. -/
structure Refused (s : Session) (n : Nat) (rest : Text) (t : Session) : Prop where
  state : t.state = .ready
  closed : t.closed = s.closed
  out : ∃ more : List Queued, t.out = s.out ++ more ∧ more.map Queued.msg = refusals n
  unread : t.recvBuf.content = rest

namespace Refused

variable {s t u : Session} {m n : Nat} {rest behind : Text}

theorem refl (hstate : s.state = .ready) : Refused s 0 s.recvBuf.content s :=
  ⟨hstate, rfl, ⟨[], (List.append_nil _).symm, rfl⟩, rfl⟩

theorem trans (h : Refused s m rest t) (h' : Refused t n behind u) :
    Refused s (m + n) behind u where
  state := h'.state
  closed := h'.closed.trans h.closed
  out := by
    rcases h.out with ⟨more, hmore, hmsgs⟩
    rcases h'.out with ⟨more', hmore', hmsgs'⟩
    refine ⟨more ++ more', by rw [hmore', hmore, List.append_assoc], ?_⟩
    rw [List.map_append, hmsgs, hmsgs', refusals_add]
  unread := h'.unread

/-- More bytes are read. -/
theorem receive (h : Refused s n rest t) (bytes : Text) :
    Refused s n (rest ++ bytes) (t.receive bytes) where
  state := h.state
  closed := h.closed
  out := h.out
  unread := by rw [← h.unread]; exact t.recvBuf.content_receive bytes

/-- What was queued is sent. -/
theorem settles (h : Refused s n rest t) (hopen : s.closed = false)
    (hsettles : Settles true t u) (hout : u.out = t.out) (hclosed : u.closed = t.closed) :
    Refused s n rest u where
  state := hsettles.state.trans h.state
  closed := hclosed.trans h.closed
  out := by rw [hout]; exact h.out
  unread := by
    rw [(hsettles.alive (by rw [hclosed, h.closed, hopen])).2.2.1]
    exact h.unread

/-- The number of messages of a kind that were queued. -/
theorem countP_queued (h : Refused s n rest t) (p : BackendMsg → Bool) :
    (queuedSince s t).countP (p ·.msg) = n * refusal.countP p := by
  rcases h.out with ⟨more, hmore, hmsgs⟩
  rw [queuedSince, hmore, List.drop_left, ← countP_refusals, ← hmsgs, List.countP_map]
  rfl

end Refused

/-- A message of the extended query protocol is refused. -/
theorem round_refused (outcome : PutOutcome) {s : Session} {m : ExtendedMsg} {rest : Text}
    (hready : s.state = .ready) (hcontent : s.recvBuf.content = m.bytes ++ rest)
    (hsmall : m.bytes.length ≤ 16 * 1024 * 1024) :
    ∃ t, feProtocolRound outcome s = .next t ∧ Refused s 1 rest t := by
  have hquery : m.type ≠ 81 := by
    intro htype
    have hextended := m.extended
    rw [htype] at hextended
    cases hextended
  have hterminate : m.type ≠ 88 := by
    intro htype
    have hextended := m.extended
    rw [htype] at hextended
    cases hextended
  have hround := round_frame outcome (by simp [hready]) (by simp [hready, SessionState.busy])
    m.fits hcontent
  rw [← ExtendedMsg.bytes, if_neg (by omega), handleFrame, if_neg (by simp [hready]),
    if_neg hquery, if_neg hterminate, if_pos m.extended] at hround
  refine ⟨_, hround, hready, rfl, ⟨_, List.append_assoc .., rfl⟩, ?_⟩
  change (s.recvBuf.consume m.bytes.length).content = rest
  rw [RecvBuf.content_consume, hcontent, List.drop_left]

/-! ## The loop -/

/-- A session that has refused the messages it received, up to one that is not complete. -/
def RefusedAll (messages : List ExtendedMsg) (s₀ : Session) (received : Text) (s : Session) :
    Prop :=
  ∃ front later rest, messages = front ++ later ∧ received = extendedBytes front ++ rest ∧
    (later ≠ [] → rest.length < (extendedBytes later).length) ∧ Refused s₀ front.length rest s

theorem extendedBytes_cons (m : ExtendedMsg) (messages : List ExtendedMsg) :
    extendedBytes (m :: messages) = m.bytes ++ extendedBytes messages :=
  List.flatMap_cons

/-- Messages one behind the other. -/
theorem extendedBytes_append (front later : List ExtendedMsg) :
    extendedBytes (front ++ later) = extendedBytes front ++ extendedBytes later :=
  List.flatMap_append

theorem ExtendedMsg.bytes_ne_nil (m : ExtendedMsg) : m.bytes ≠ [] :=
  List.cons_ne_nil _ _

section RefusedAll

variable {messages : List ExtendedMsg} {s₀ s t : Session} {received : Text}

/-- More messages are refused behind those that were. -/
theorem Refused.append (front : List ExtendedMsg) {later : List ExtendedMsg} {rest : Text}
    (h : Refused s₀ front.length rest s) (hrest : RefusedAll later s rest t) :
    RefusedAll (front ++ later) s₀ (extendedBytes front ++ rest) t := by
  rcases hrest with ⟨front', later', rest', hlater, hreceived, hshort, hrefused⟩
  refine ⟨front ++ front', later', rest', ?_, ?_, hshort, ?_⟩
  · rw [hlater, List.append_assoc]
  · rw [hreceived, extendedBytes_append, List.append_assoc]
  · rw [List.length_append]
    exact h.trans hrefused

/-- Once all messages were received, all are refused. -/
theorem RefusedAll.all (h : RefusedAll messages s₀ (extendedBytes messages) s) :
    Refused s₀ messages.length [] s := by
  rcases h with ⟨front, later, rest, rfl, hreceived, hshort, hrefused⟩
  rw [extendedBytes_append, List.append_cancel_left_eq] at hreceived
  have hlater : later = [] := by
    by_contra hsome
    have hlt := hshort hsome
    rw [hreceived] at hlt
    omega
  rw [hlater] at hreceived ⊢
  rw [List.append_nil, show ([] : Text) = rest from hreceived]
  exact hrefused

end RefusedAll

/-- The loop refuses the messages in the buffer one by one, unless one is too long. -/
theorem refuse_loop (puts : Nat → PutOutcome) (messages : List ExtendedMsg) :
    ∀ (k : Nat) (s : Session), s.state = .ready →
      s.recvBuf.content <+: extendedBytes messages →
      ∃ t ok, (ok = true → RefusedAll messages s s.recvBuf.content t) ∧
        (ok = false → ∃ m ∈ messages, 16 * 1024 * 1024 < m.bytes.length) ∧
        ∃ rounds, ∀ more, feProtocolProcess puts (more + rounds) k s = some (.ret t ok) := by
  induction messages with
  | nil =>
      intro k s hready hpart
      have hempty : s.recvBuf.content = [] := List.prefix_nil.mp hpart
      have hlen : s.recvBuf.len = 0 := by rw [← s.recvBuf.content_length, hempty, List.length_nil]
      refine ⟨s, true, fun _ => ⟨[], [], _, rfl, rfl, by simp, Refused.refl hready⟩, by simp, 1,
        fun more => ?_⟩
      rw [feProtocolProcess, if_pos hlen]
  | cons m messages ih =>
      intro k s hready hpart
      rw [extendedBytes_cons] at hpart
      rcases part_cases hpart with hshort | ⟨behind, hcontent, hbehind⟩
      · -- the first message is not complete
        have hwaits : RefusedAll (m :: messages) s s.recvBuf.content s := by
          refine ⟨[], m :: messages, s.recvBuf.content, rfl, rfl, fun _ => ?_, Refused.refl hready⟩
          rw [extendedBytes_cons, List.length_append]
          omega
        rcases round_short (puts k) (by simp [hready]) (by simp [hready, SessionState.busy]) m.fits
          hpart hshort with ⟨ok, hround, hlong⟩
        by_cases hempty : s.recvBuf.len = 0
        · exact ⟨s, true, fun _ => hwaits, by simp, 1, fun more => by
            rw [feProtocolProcess, if_pos hempty]⟩
        · exact ⟨s, ok, fun _ => hwaits, fun hok => ⟨m, List.mem_cons_self, hlong hok⟩, 1,
            fun more => by rw [feProtocolProcess, if_neg hempty, hround]⟩
      · have hlen : s.recvBuf.len ≠ 0 := by
          rw [← s.recvBuf.content_length, hcontent, List.length_append]
          have := List.length_pos_iff.mpr m.bytes_ne_nil
          omega
        by_cases hlong : 16 * 1024 * 1024 < m.bytes.length
        · have hround := round_frame (puts k) (by simp [hready])
            (by simp [hready, SessionState.busy]) m.fits hcontent
          rw [← ExtendedMsg.bytes, if_pos hlong] at hround
          exact ⟨s, false, by simp, fun _ => ⟨m, List.mem_cons_self, hlong⟩, 1, fun more => by
            rw [feProtocolProcess, if_neg hlen, hround]⟩
        · rcases round_refused (puts k) hready hcontent (by omega) with ⟨t, hround, hrefused⟩
          rcases ih (k + 1) t hrefused.state (hrefused.unread ▸ hbehind) with
            ⟨u, ok, hall, hfails, rounds, hloop⟩
          refine ⟨u, ok, fun hok => ?_, fun hok => ?_, rounds + 1, fun more => ?_⟩
          · have hmore := hrefused.append [m] (hrefused.unread ▸ hall hok)
            rw [hcontent]
            simpa [extendedBytes] using hmore
          · rcases hfails hok with ⟨long, hmem, hsize⟩
            exact ⟨long, List.mem_cons_of_mem _ hmem, hsize⟩
          · rw [← Nat.add_assoc, process_next hlen hround]
            exact hloop more

/-! ## Every run -/

section Runs

variable {cfg : Config} {messages : List ExtendedMsg} {s₀ s : Session} {received bytes : Text}

/-- The loop on a read. -/
theorem RefusedAll.loop (h : RefusedAll messages s₀ received s)
    (hpart : received ++ bytes <+: extendedBytes messages) (puts : Nat → PutOutcome) :
    ∃ t ok, (ok = true → RefusedAll messages s₀ (received ++ bytes) t) ∧
      (ok = false → ∃ m ∈ messages, 16 * 1024 * 1024 < m.bytes.length) ∧
      ∃ rounds, ∀ more, feProtocolProcess puts (more + rounds) 0 (s.receive bytes) =
        some (.ret t ok) := by
  rcases h with ⟨front, later, rest, rfl, rfl, -, hrefused⟩
  have hread := hrefused.receive bytes
  rw [extendedBytes_append, List.append_assoc, List.prefix_append_right_inj] at hpart
  rcases refuse_loop puts later 0 (s.receive bytes) hread.state (hread.unread ▸ hpart) with
    ⟨t, ok, hall, hfails, hloop⟩
  refine ⟨t, ok, fun hok => ?_, fun hok => ?_, hloop⟩
  · rw [List.append_assoc]
    exact hread.append front (hread.unread ▸ hall hok)
  · rcases hfails hok with ⟨m, hmem, hlong⟩
    exact ⟨m, List.mem_append_right _ hmem, hlong⟩

/-- What was queued is sent. -/
theorem RefusedAll.settles {t : Session} (h : RefusedAll messages s₀ received s)
    (hopen : s₀.closed = false) (hsettles : Settles true s t) (hout : t.out = s.out)
    (hclosed : t.closed = s.closed) : RefusedAll messages s₀ received t := by
  rcases h with ⟨front, later, rest, hmessages, hreceived, hshort, hrefused⟩
  exact ⟨front, later, rest, hmessages, hreceived, hshort,
    hrefused.settles hopen hsettles hout hclosed⟩

/-- In every run the session has refused the messages it received, or has ended at one that is
too long. -/
theorem ClientRun.refusedAll (hstart : AwaitsMessage s₀) (hrun : ClientRun cfg s₀ received s)
    (hpart : received <+: extendedBytes messages) :
    RefusedAll messages s₀ received s ∨
      s.closed = true ∧ ∃ m ∈ messages, 16 * 1024 * 1024 < m.bytes.length := by
  induction hrun with
  | start =>
      left
      refine ⟨[], messages, [], rfl, rfl, fun hsome => ?_,
        hstart.unread ▸ Refused.refl hstart.state⟩
      rcases List.exists_cons_of_ne_nil hsome with ⟨m, later, rfl⟩
      rw [extendedBytes_cons, List.length_append]
      have := List.length_pos_iff.mpr m.bytes_ne_nil
      exact Nat.lt_add_right _ this
  | @event received s input b y hrun hopen horderly hcall ih =>
      have hkeep : RefusedAll messages s₀ received s := by
        rcases ih ((List.prefix_append ..).trans hpart) with hall | ⟨hclosed, -⟩
        · exact hall
        · rw [hopen] at hclosed
          cases hclosed
      cases onClient_call hcall with
      | hangup hhangup =>
          rw [horderly.1] at hhangup
          cases hhangup
      | lost hhangup hcallback hrecv =>
          rcases hrecv with hrecv | hrecv
          · exact absurd hrecv horderly.2.1
          · exact absurd hrecv horderly.2.2.1
      | flush hhangup hcallback =>
          have hnone : input.received s = [] := by
            simp [ClientInput.received, show s.callback = .writable from hcallback]
          rw [hnone, List.append_nil]
          exact Or.inl (hkeep.settles hstart.alive (Settles.flush input.flush (s, b))
            (flushOrDestroy_out ..) (flushOrDestroy_kept horderly.2.2.2 (s, b)).quiet.closed)
      | again hhangup hcallback hrecv =>
          have hnone : input.received s = [] := by simp [ClientInput.received, hrecv]
          rw [hnone, List.append_nil]
          exact Or.inl hkeep
      | received bytes r hhangup hcallback hrecv hprocess =>
          have hbytes : input.received s = bytes :=
            ClientInput.received_data hhangup hcallback hrecv
          rw [hbytes] at hpart ⊢
          rcases hkeep.loop hpart input.puts with ⟨t, ok, hall, hfails, rounds, hloop⟩
          rw [processInput_ret hloop hprocess]
          cases ok with
          | false => exact Or.inr ⟨rfl, hfails rfl⟩
          | true =>
              have hclosed : (afterInput input.flush ((t, b), true)).1.closed = t.closed := by
                unfold afterInput
                dsimp only
                split
                · exact (flushOrDestroy_kept horderly.2.2.2 (t, b)).quiet.closed
                · rfl
              exact Or.inl ((hall rfl).settles hstart.alive
                (Settles.afterInput input.flush (t, b) true) (afterInput_out ..) hclosed)

/-- The next event of a run returns. -/
theorem RefusedAll.returns (h : RefusedAll messages s₀ received s) (input : ClientInput)
    (b : Backends) (hpart : received ++ input.received s <+: extendedBytes messages) :
    ∃ rounds, (onClient cfg { input with rounds := rounds } (s, b)).isSome := by
  rcases h.loop hpart input.puts with ⟨t, ok, -, -, rounds, hloop⟩
  refine ⟨0 + rounds, onClient_isSome fun bytes hhangup hcallback hrecv => ?_⟩
  have hbytes : input.received s = bytes := ClientInput.received_data hhangup hcallback hrecv
  rw [hbytes] at hloop
  unfold processInput
  dsimp only
  rw [hloop 0]
  rfl

/-- A session that has something to send comes to read again. -/
theorem ClientRun.readable (cfg : Config) (b : Backends) (hopen : s₀.closed = false) :
    ∃ s, ClientRun cfg s₀ [] s ∧ s.closed = false ∧ s.callback = .readable := by
  cases hcallback : s₀.callback with
  | readable => exact ⟨s₀, .start, hopen, hcallback⟩
  | writable =>
      have hcall : onClient cfg {} (s₀, b) = some (flushOrDestroy .all (s₀, b)) :=
        ClientCall.eq_some (.flush rfl hcallback)
      have hrun := ClientRun.start.event {} b _ hopen (by simp [ClientInput.orderly]) hcall
      have hnone : ({} : ClientInput).received s₀ = [] := by
        simp [ClientInput.received]
      rw [hnone] at hrun
      refine ⟨_, hrun, (flushOrDestroy_kept (by simp) (s₀, b)).quiet.closed.trans hopen, ?_⟩
      unfold flushOrDestroy sessionSend
      by_cases hunsent : s₀.unsent = true
      · simp [hunsent]
      · simp [hunsent]

/-- All messages can arrive in one read. -/
theorem exists_run (cfg : Config) (messages : List ExtendedMsg) (hstart : AwaitsMessage s₀) :
    ∃ s, ClientRun cfg s₀ (extendedBytes messages) s := by
  let b : Backends := { pools := fun _ => { maxSize := 0 } }
  rcases ClientRun.readable cfg b hstart.alive with ⟨s, hrun, hopen, hcallback⟩
  have hkeep : RefusedAll messages s₀ [] s := by
    rcases hrun.refusedAll hstart (List.nil_prefix : [] <+: extendedBytes messages) with
      hall | ⟨hclosed, -⟩
    · exact hall
    · rw [hopen] at hclosed
      cases hclosed
  have hpart : [] ++ extendedBytes messages <+: extendedBytes messages := List.prefix_refl _
  rcases hkeep.loop hpart (fun _ => .queued) with ⟨t, ok, -, -, rounds, hloop⟩
  let input : ClientInput := { recv := .data (extendedBytes messages), rounds := 0 + rounds }
  have hprocess : processInput cfg input (s.receive (extendedBytes messages), b) =
      some ((t, b), ok) := by
    unfold processInput
    dsimp only [input]
    rw [hloop 0]
  have hcall : onClient cfg input (s, b) = some (afterInput .all ((t, b), ok)) :=
    ClientCall.eq_some (.received _ _ rfl hcallback rfl hprocess)
  have hnext := hrun.event input b _ hopen (by simp [ClientInput.orderly, input]) hcall
  have hbytes : input.received s = extendedBytes messages :=
    ClientInput.received_data rfl hcallback rfl
  rw [hbytes] at hnext
  exact ⟨_, hnext⟩

end Runs

/-! ## Batches that are answered once -/

section InSync

variable {cfg : Config} {batch : ExtendedBatch} {s₀ s : Session} {received : Text}

theorem countP_isError_refusal : refusal.countP BackendMsg.isError = 1 :=
  rfl

theorem countP_isReady_refusal : refusal.countP BackendMsg.isReady = 1 :=
  rfl

/-- A Query behind messages that were refused is handed on with its text. -/
theorem Refused.query {n : Nat} (h : Refused s₀ n [] s) {sql : Text} (hclean : 0 ∉ sql)
    (hsmall : (sql ++ [0]).length + 5 ≤ 16 * 1024 * 1024) (puts : Nat → PutOutcome)
    (rounds : Nat) :
    CallsHandleQuery puts (rounds + 1) (s.receive (queryFrame (sql ++ [0]))) sql := by
  have hread := h.receive (queryFrame (sql ++ [0]))
  have hfirst : QueryFirst (s.receive (queryFrame (sql ++ [0]))).recvBuf sql [] [] :=
    ⟨by rw [← RecvBuf.content, hread.unread, List.nil_append, List.append_nil], hclean, by omega⟩
  exact (query_text_intact_iff puts rounds hread.state hfirst).mpr
    (Or.inl ⟨hsmall, by simp⟩)

/-- A Sync alone is answered once. -/
theorem inSync_of_nil (hbatch : batch.messages = [])
    (h : RefusedAll batch.synced s₀ received s) (hopen : s₀.closed = false) :
    InSync cfg batch s₀ received s := by
  have hsynced : batch.synced = [.sync] := by rw [ExtendedBatch.synced, hbatch, List.nil_append]
  have hall : received = batch.bytes → Refused s₀ 1 [] s := by
    rintro rfl
    have hone := RefusedAll.all h
    rwa [hsynced] at hone
  refine ⟨fun _ input b hpart => h.returns input b hpart, fun hless => ?_, fun hreceived => ?_,
    fun hreceived => ?_⟩
  · rcases h with ⟨front, later, rest, hmessages, rfl, -, hrefused⟩
    rw [hrefused.countP_queued, countP_isReady_refusal]
    rw [hsynced] at hmessages
    cases front with
    | nil => rfl
    | cons m front =>
        -- a Sync that was refused was received
        rw [ExtendedBatch.bytes, hsynced, hmessages, extendedBytes_append, List.length_append,
          List.length_append] at hless
        rw [List.cons_append, List.cons.injEq, List.nil_eq, List.append_eq_nil_iff] at hmessages
        rw [hmessages.2.2] at hless
        exact absurd hless (by simp [extendedBytes])
  · have hone := hall hreceived
    exact ⟨hone.countP_queued _, hone.countP_queued _⟩
  · have hone := hall hreceived
    exact ⟨hone.closed.trans hopen, fun sql hclean hsmall puts rounds =>
      hone.query hclean hsmall puts rounds⟩

end InSync

/-- A batch leaves the client in sync if and only if it is a Sync alone. -/
theorem batch_in_sync_iff (cfg : Config) (batch : ExtendedBatch) {s₀ : Session}
    (hstart : AwaitsMessage s₀) : LeavesInSync cfg batch s₀ ↔ batch.messages = [] := by
  constructor
  · intro hsync
    rcases exists_run cfg batch.synced hstart with ⟨s, hrun⟩
    have hin := hsync batch.bytes s hrun (List.prefix_refl _)
    rcases hrun.refusedAll hstart (List.prefix_refl _) with hall | ⟨hclosed, -⟩
    · have herrors := (hin.answered rfl).1
      rw [hall.all.countP_queued BackendMsg.isError, countP_isError_refusal, Nat.mul_one,
        ExtendedBatch.synced, List.length_append, List.length_singleton] at herrors
      exact List.length_eq_zero_iff.mp (by omega)
    · -- the session has ended at a message that is too long
      rw [(hin.goesOn rfl).1] at hclosed
      cases hclosed
  · intro hbatch received s hrun hpart
    rcases hrun.refusedAll hstart hpart with hall | ⟨-, m, hmem, hlong⟩
    · exact inSync_of_nil hbatch hall hstart.alive
    · rw [ExtendedBatch.synced, hbatch, List.nil_append, List.mem_singleton] at hmem
      rw [hmem] at hlong
      exact absurd hlong (by decide)

/-- A session that has been told to be ready. -/
def readySession : Session :=
  { id := 0, state := .ready }

theorem readySession_awaits : AwaitsMessage readySession :=
  ⟨rfl, rfl, rfl⟩

/-- A Sync without messages in front. -/
def syncAlone : ExtendedBatch where
  messages := []
  unsynced := by simp

/-- After a Sync alone the client is in sync. -/
theorem sync_alone_in_sync : LeavesInSync plainConfig syncAlone readySession :=
  (batch_in_sync_iff plainConfig syncAlone readySession_awaits).mpr rfl

/-- A Parse message without parameters. -/
def parseMsg : ExtendedMsg where
  type := 80
  payload := 0 :: ascii "SELECT 1" ++ [0, 0, 0]
  extended := rfl
  fits := by decide +kernel

/-- A Parse and a Sync. -/
def parseBatch : ExtendedBatch where
  messages := [parseMsg]
  unsynced := by simp [parseMsg]

/-- A Parse and a Sync in one read are answered with two ErrorResponses and two
ReadyForQuery. -/
theorem parse_answered_twice :
    (∃ s, ClientRun plainConfig readySession parseBatch.bytes s ∧ s.closed = false ∧
      s.out.map Queued.msg = [
        .errorResponse [(83, ascii "ERROR"), (67, ascii "0A000"),
          (77, ascii "extended query protocol not yet supported")],
        .readyForQuery .idle,
        .errorResponse [(83, ascii "ERROR"), (67, ascii "0A000"),
          (77, ascii "extended query protocol not yet supported")],
        .readyForQuery .idle]) ∧
    ¬ LeavesInSync plainConfig parseBatch readySession := by
  let read : ClientInput := { recv := .data parseBatch.bytes }
  let b : Backends := { pools := fun _ => { maxSize := 4 } }
  have heval : (onClient plainConfig read (readySession, b)).map (fun y =>
      (y.1.closed, y.1.out.map Queued.msg)) = some (false, refusals 2) := by
    decide +kernel
  rcases Option.map_eq_some_iff.mp heval with ⟨y, hy, hfields⟩
  simp only [Prod.mk.injEq] at hfields
  have hrun : ClientRun plainConfig readySession parseBatch.bytes y.1 :=
    ClientRun.start.event read b y rfl (by simp [ClientInput.orderly, read]) hy
  refine ⟨⟨y.1, hrun, hfields.1, hfields.2⟩, fun hsync => ?_⟩
  have hone := ((hsync _ _ hrun (List.prefix_refl _)).answered rfl).1
  have htwo : (queuedSince readySession y.1).countP (·.msg.isError) = 2 := by
    change (y.1.out.drop 0).countP (BackendMsg.isError ∘ Queued.msg) = 2
    rw [List.drop_zero, ← List.countP_map, hfields.2]
    rfl
  omega

end Sharegres
