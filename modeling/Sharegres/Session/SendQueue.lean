import Sharegres.Protocol.MessageBuffer

/-!
# Session - The stream to the client

The bytes between {lit}`session_queue_send` and the client's socket.  Messages are appended
to the send buffer while a part of it may have been sent already; {lit}`session_send` sends
from {lit}`send_pos` on, and arms the handler for the rest if the socket is full.

Main results:

- Definition {lit}`Outgoing`: the send buffer, its position and the handler.
- Theorem {lit}`stream_intact`: whatever is appended and however the socket takes it, what
  it took and what is left is what was appended.
- Theorems {lit}`Shows.queue` and {lit}`Shows.send`: the flag by which the model of a
  session stands for its send buffer.
-/

namespace Sharegres

open Foundation

/-- The event a handler is armed for. -/
inductive Interest where
  | epollin
  | epollout
deriving DecidableEq, Repr

/-- The fields of {lit}`ClientSession` for the way out, and what the socket has accepted. -/
structure Outgoing where
  sendBuf : MsgBuf
  sendPos : Nat
  callback : ClientCallback
  events : Interest
  accepted : Text := []
  inBounds : sendPos ≤ sendBuf.len

/-- The answers of {lit}`send`: a number of bytes, EAGAIN, or another error. -/
inductive SendAnswer where
  | taken (n : Nat)
  | again
  | failed
deriving DecidableEq, Repr

namespace Outgoing

/-- The bytes that wait in the send buffer. -/
def unsent (o : Outgoing) : Text :=
  o.sendBuf.content.drop o.sendPos

/-- {lit}`SEND_BUF_INITIAL`. -/
def sendBufInitial : Nat := 8192

/-- The fields after {lit}`session_create`. -/
def start : Outgoing where
  sendBuf := msgbufInit sendBufInitial (by decide)
  sendPos := 0
  callback := .readable
  events := .epollin
  inBounds := Nat.zero_le _

/-- {lit}`session_queue_send`. -/
def sessionQueueSend (data : Text) (o : Outgoing) : Outgoing :=
  { o with
    sendBuf := msgbufPutBytes o.sendBuf data
    inBounds := Nat.le_trans o.inBounds (Nat.le_add_right ..) }

/-- A writer of messages called on the send buffer. -/
def write (w : MsgWrite) (o : Outgoing) : Outgoing :=
  { o with
    sendBuf := w.apply o.sendBuf
    inBounds := by
      have hlen := congrArg List.length (w.content_apply o.sendBuf)
      rw [GrowBuffer.content_length, List.length_append, GrowBuffer.content_length] at hlen
      have := o.inBounds
      omega }

/-- The bytes that {lit}`send` takes: at least one and at most those it was offered. -/
def takenBytes (o : Outgoing) (n : Nat) : Text :=
  o.unsent.take (max 1 n)

/-- A round of the loop of {lit}`session_send` in which bytes are taken. -/
def advance (o : Outgoing) (n : Nat) : Outgoing :=
  { o with
    sendPos := o.sendPos + (o.takenBytes n).length
    accepted := o.accepted ++ o.takenBytes n
    inBounds := by
      have hunsent : (o.takenBytes n).length ≤ o.unsent.length := List.length_take_le' ..
      rw [unsent, List.length_drop, GrowBuffer.content_length] at hunsent
      have := o.inBounds
      omega }

/-- The end of {lit}`session_send` with everything sent. -/
def drained (o : Outgoing) : Outgoing :=
  { o with
    sendBuf := msgbufReset o.sendBuf
    sendPos := 0
    callback := .readable
    events := .epollin
    inBounds := Nat.zero_le _ }

/-- The end of {lit}`session_send` with the socket full. -/
def blocked (o : Outgoing) : Outgoing :=
  { o with callback := .writable, events := .epollout }

/-- {lit}`session_send` with the answers of {lit}`send` in turn; the flag tells that it did
not answer -1.  The socket is full once the answers are used up. -/
def sessionSend : List SendAnswer → Outgoing → Outgoing × Bool
  | [], o => if o.sendPos < o.sendBuf.len then (o.blocked, true) else (o.drained, true)
  | answer :: answers, o =>
      if o.sendPos < o.sendBuf.len then
        match answer with
        | .taken n => sessionSend answers (o.advance n)
        | .again => (o.blocked, true)
        | .failed => (o, false)
      else (o.drained, true)

end Outgoing

/-- What a session does to its send buffer. -/
inductive SendOp where
  | queueSend (data : Text)
  | write (w : MsgWrite)
  | send (answers : List SendAnswer)

namespace SendOp

/-- The effect of a step. -/
def apply (o : Outgoing) : SendOp → Outgoing
  | .queueSend data => o.sessionQueueSend data
  | .write w => o.write w
  | .send answers => (o.sessionSend answers).1

/-- The bytes a step appends. -/
def bytes : SendOp → Text
  | .queueSend data => data
  | .write w => w.bytes
  | .send _ => []

end SendOp

namespace Outgoing

variable (o : Outgoing)

/-! ## One step -/

/-- Bytes remain exactly if the position is not at the end. -/
theorem unsent_eq_nil_iff : o.unsent = [] ↔ ¬ o.sendPos < o.sendBuf.len := by
  rw [unsent, List.drop_eq_nil_iff, GrowBuffer.content_length, Nat.not_lt]

/-- Appended bytes wait behind the others. -/
theorem unsent_of_append {o' : Outgoing} {data : Text} (hpos : o'.sendPos = o.sendPos)
    (hcontent : o'.sendBuf.content = o.sendBuf.content ++ data) :
    o'.unsent = o.unsent ++ data := by
  rw [unsent, unsent, hcontent, hpos, List.drop_append_of_le_length]
  rw [GrowBuffer.content_length]
  exact o.inBounds

theorem unsent_queueSend (data : Text) : (o.sessionQueueSend data).unsent = o.unsent ++ data :=
  o.unsent_of_append rfl (content_putBytes o.sendBuf data)

theorem unsent_write (w : MsgWrite) : (o.write w).unsent = o.unsent ++ w.bytes :=
  o.unsent_of_append rfl (w.content_apply o.sendBuf)

/-- What {lit}`send` takes is taken off the front. -/
theorem unsent_advance (n : Nat) : o.takenBytes n ++ (o.advance n).unsent = o.unsent := by
  have hrest : (o.advance n).unsent = o.unsent.drop (o.takenBytes n).length := by
    rw [unsent, unsent, List.drop_drop]
    rfl
  rw [hrest, takenBytes, List.length_take]
  by_cases hle : max 1 n ≤ o.unsent.length
  · rw [Nat.min_eq_left hle, List.take_append_drop]
  · rw [Nat.min_eq_right (by omega), List.drop_length, List.take_of_length_le (by omega),
      List.append_nil]

@[simp]
theorem unsent_drained : o.drained.unsent = [] :=
  rfl

/-! ## The loop of session_send -/

/-- Sending moves bytes from the buffer to the socket, in order. -/
theorem sessionSend_stream (answers : List SendAnswer) :
    (o.sessionSend answers).1.accepted ++ (o.sessionSend answers).1.unsent =
      o.accepted ++ o.unsent := by
  have hdrained : ¬ o.sendPos < o.sendBuf.len →
      o.drained.accepted ++ o.drained.unsent = o.accepted ++ o.unsent := by
    intro hend
    rw [o.unsent_eq_nil_iff.mpr hend]
    rfl
  induction answers generalizing o with
  | nil =>
      rw [sessionSend]
      split
      · rfl
      · exact hdrained (by assumption)
  | cons answer answers ih =>
      unfold sessionSend
      split
      · cases answer with
        | taken n =>
            dsimp only
            rw [ih]
            · rw [← o.unsent_advance n, ← List.append_assoc]
              rfl
            · intro hend
              rw [(o.advance n).unsent_eq_nil_iff.mpr hend]
              rfl
        | again => rfl
        | failed => rfl
      · exact hdrained (by assumption)

/-- The handler is armed for the bytes that are left. -/
def Armed : Prop :=
  (o.unsent ≠ [] ↔ o.callback = .writable ∧ o.events = .epollout) ∧
    (o.unsent = [] ↔ o.callback = .readable ∧ o.events = .epollin)

theorem armed_drained : o.drained.Armed := by
  refine ⟨iff_of_false (by simp) ?_, iff_of_true rfl ⟨rfl, rfl⟩⟩
  rintro ⟨h, -⟩
  cases h

theorem armed_blocked (h : o.sendPos < o.sendBuf.len) : o.blocked.Armed := by
  have hleft : o.blocked.unsent ≠ [] := fun hnil => o.unsent_eq_nil_iff.mp hnil h
  refine ⟨iff_of_true hleft ⟨rfl, rfl⟩, iff_of_false hleft ?_⟩
  rintro ⟨h, -⟩
  cases h

/-- After a call that did not fail the handler is armed for what is left. -/
theorem sessionSend_armed (answers : List SendAnswer) (hok : (o.sessionSend answers).2 = true) :
    (o.sessionSend answers).1.Armed := by
  induction answers generalizing o with
  | nil =>
      rw [sessionSend]
      split
      · exact o.armed_blocked (by assumption)
      · exact o.armed_drained
  | cons answer answers ih =>
      unfold sessionSend at hok ⊢
      split
      · rename_i hleft
        rw [if_pos hleft] at hok
        cases answer with
        | taken n => exact ih (o.advance n) hok
        | again => exact o.armed_blocked hleft
        | failed => cases hok
      · exact o.armed_drained

/-- A call with nothing to send. -/
theorem sessionSend_of_nil (answers : List SendAnswer) (h : o.unsent = []) :
    o.sessionSend answers = (o.drained, true) := by
  have hend := o.unsent_eq_nil_iff.mp h
  cases answers with
  | nil => exact if_neg hend
  | cons answer answers => exact if_neg hend

/-- A call that fails leaves bytes and the handler as it was. -/
theorem sessionSend_failed (answers : List SendAnswer)
    (hfailed : (o.sessionSend answers).2 = false) :
    (o.sessionSend answers).1.unsent ≠ [] ∧
      (o.sessionSend answers).1.callback = o.callback := by
  induction answers generalizing o with
  | nil =>
      unfold sessionSend at hfailed
      split at hfailed <;> cases hfailed
  | cons answer answers ih =>
      unfold sessionSend at hfailed ⊢
      split
      · rename_i hleft
        rw [if_pos hleft] at hfailed
        cases answer with
        | taken n => exact ih (o.advance n) hfailed
        | again => cases hfailed
        | failed => exact ⟨fun hnil => o.unsent_eq_nil_iff.mp hnil hleft, rfl⟩
      · rename_i hend
        rw [if_neg hend] at hfailed
        cases hfailed

end Outgoing

/-! ## Whole runs -/

/-- One step appends its bytes to the stream. -/
theorem SendOp.apply_stream (o : Outgoing) (op : SendOp) :
    (op.apply o).accepted ++ (op.apply o).unsent = o.accepted ++ o.unsent ++ op.bytes := by
  cases op with
  | queueSend data =>
      rw [List.append_assoc, bytes, ← o.unsent_queueSend]
      rfl
  | write w =>
      rw [List.append_assoc, bytes, ← o.unsent_write]
      rfl
  | send answers =>
      rw [bytes, List.append_nil]
      exact o.sessionSend_stream answers

theorem foldl_stream (ops : List SendOp) (o : Outgoing) :
    (ops.foldl SendOp.apply o).accepted ++ (ops.foldl SendOp.apply o).unsent =
      o.accepted ++ o.unsent ++ ops.flatMap SendOp.bytes := by
  induction ops generalizing o with
  | nil => simp
  | cons op ops ih =>
      rw [List.foldl_cons, ih, op.apply_stream, List.flatMap_cons, List.append_assoc]

/-- The bytes the socket has accepted and those that wait are the bytes appended, in order,
and after a call of {lit}`session_send` that answers 0 the handler is armed for what is
left. -/
theorem stream_intact (ops : List SendOp) :
    let o := ops.foldl SendOp.apply Outgoing.start
    o.accepted ++ o.unsent = ops.flatMap SendOp.bytes ∧
      ∀ answers, (o.sessionSend answers).2 = true → (o.sessionSend answers).1.Armed :=
  ⟨foldl_stream ops Outgoing.start, fun answers hok =>
    (ops.foldl SendOp.apply Outgoing.start).sessionSend_armed answers hok⟩

/-- A message is sent in two parts, with another one queued in between, and the socket is full
before its end. -/
theorem tag_sent_in_parts :
    let ops := [SendOp.write (.commandComplete (ascii "BEGIN")), .send [.taken 4],
      .queueSend (ascii "xyz"), .send [.taken 1, .taken 2]]
    let o := ops.foldl SendOp.apply Outgoing.start
    o.accepted ++ o.unsent = MsgWrite.bytes (.commandComplete (ascii "BEGIN")) ++ ascii "xyz" ∧
      o.accepted.length = 7 ∧ (o.sessionSend [.taken 1]).1.Armed := by
  intro ops o
  rcases stream_intact ops with ⟨hstream, harmed⟩
  refine ⟨?_, by decide +kernel, harmed [.taken 1] (by decide +kernel)⟩
  exact hstream

/-! ## The model of a session -/

/-- The flag and the callback of a session say what its send buffer and handler are. -/
structure Shows (s : Session) (o : Outgoing) : Prop where
  unsent : s.unsent = !o.unsent.isEmpty
  callback : s.callback = o.callback

namespace Shows

variable {s : Session} {o : Outgoing}

/-- Queueing a message. -/
theorem queue (h : Shows s o) (origin : Origin) (msg : BackendMsg) {data : Text}
    (hdata : data ≠ []) : Shows (s.queue origin msg) (o.sessionQueueSend data) := by
  refine ⟨?_, h.callback⟩
  have hleft : (o.unsent ++ data).isEmpty = false := by simp [hdata]
  rw [o.unsent_queueSend, hleft]
  simp [Session.queue, Session.queueAll]

/-- Sending: the three outcomes of the model stand for the answers of the socket. -/
theorem send (h : Shows s o) (answers : List SendAnswer) :
    ∃ outcome, Shows (sessionSend outcome s).1 (o.sessionSend answers).1 ∧
      (sessionSend outcome s).2 = (o.sessionSend answers).2 := by
  by_cases hnone : o.unsent = []
  · have hunsent : s.unsent = false := by simp [h.unsent, hnone]
    refine ⟨.all, ?_⟩
    rw [o.sessionSend_of_nil answers hnone]
    unfold sessionSend
    rw [if_neg (by simp [hunsent])]
    exact ⟨⟨hunsent, rfl⟩, rfl⟩
  · have hunsent : s.unsent = true := by simp [h.unsent, hnone]
    cases hflag : (o.sessionSend answers).2 with
    | false =>
        rcases o.sessionSend_failed answers hflag with ⟨hleft, hcallback⟩
        refine ⟨.failed, ?_⟩
        unfold sessionSend
        rw [if_pos hunsent]
        exact ⟨⟨by simp [hunsent, hleft], by rw [hcallback]; exact h.callback⟩, rfl⟩
    | true =>
        have harmed := o.sessionSend_armed answers hflag
        by_cases hleft : (o.sessionSend answers).1.unsent = []
        · refine ⟨.all, ?_⟩
          unfold sessionSend
          rw [if_pos hunsent]
          exact ⟨⟨by simp [hleft], (harmed.2.mp hleft).1.symm⟩, rfl⟩
        · refine ⟨.again, ?_⟩
          unfold sessionSend
          rw [if_pos hunsent]
          exact ⟨⟨by simp [hunsent, hleft], (harmed.1.mp hleft).1.symm⟩, rfl⟩

end Shows

end Sharegres
