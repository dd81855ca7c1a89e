import Sharegres.Foundation.GrowBuffer
import Sharegres.Protocol.QueryFraming

/-!
# Protocol - Messages as bytes

Model of the buffers of {lit}`src/protocol/message.c` and of its writers.  A writer leaves
room for the length of the message, appends the fields, and writes the length over the room
that it left.

Main results:

- Definitions {lit}`msgbufPutBytes` to {lit}`msgbufPutString`, {lit}`msgBegin` and
  {lit}`msgEnd`.
- Definition {lit}`MsgWrite`: the writers, and {lit}`MsgWrite.bytes`, what each appends.
- Theorem {lit}`MsgWrite.content_apply`: a writer appends its message to the content.
-/

namespace Sharegres

open Foundation

/-- {lit}`MsgBuf`; the position for reading is not used on the way out. -/
abbrev MsgBuf := GrowBuffer UInt8

/-- {lit}`msgbuf_init`. -/
def msgbufInit (initialCap : Nat) (hcap : 0 < initialCap) : MsgBuf where
  cells := List.replicate initialCap 0
  len := 0
  inBounds := Nat.zero_le _
  allocated := by simpa using hcap

/-- {lit}`msgbuf_reset`. -/
def msgbufReset (buf : MsgBuf) : MsgBuf :=
  buf.reset

/-! ## Fields -/

/-- {lit}`msgbuf_put_bytes`. -/
def msgbufPutBytes (buf : MsgBuf) (data : Text) : MsgBuf :=
  buf.append data

/-- {lit}`msgbuf_put_byte`. -/
def msgbufPutByte (buf : MsgBuf) (val : UInt8) : MsgBuf :=
  msgbufPutBytes buf [val]

/-- A number of 32 bits, as {lit}`htonl` stores it. -/
def int32Bytes (val : Int) : Text :=
  be32Bytes (val % 2 ^ 32).toNat

/-- {lit}`msgbuf_put_int32`. -/
def msgbufPutInt32 (buf : MsgBuf) (val : Int) : MsgBuf :=
  msgbufPutBytes buf (int32Bytes val)

/-- A number of 16 bits, as {lit}`htons` stores it. -/
def int16Bytes (val : Int) : Text :=
  [UInt8.ofNat ((val % 2 ^ 16).toNat / 2 ^ 8), UInt8.ofNat (val % 2 ^ 16).toNat]

/-- {lit}`msgbuf_put_int16`. -/
def msgbufPutInt16 (buf : MsgBuf) (val : Int) : MsgBuf :=
  msgbufPutBytes buf (int16Bytes val)

/-- {lit}`msgbuf_put_string`. -/
def msgbufPutString (buf : MsgBuf) (str : Text) : MsgBuf :=
  msgbufPutBytes buf (str ++ [0])

/-! ## Messages -/

/-- {lit}`msg_begin`: the buffer and the offset of the length. -/
def msgBegin (buf : MsgBuf) (type : UInt8) : MsgBuf × Nat :=
  let buf := msgbufPutByte buf type
  (msgbufPutInt32 buf 0, buf.len)

/-- {lit}`msg_end`. -/
def msgEnd (buf : MsgBuf) (lenOffset : Nat) : MsgBuf :=
  buf.patch lenOffset (be32Bytes (buf.len - lenOffset))

/-- A message with the fields that a function appends. -/
def msgWrite (type : UInt8) (fields : MsgBuf → MsgBuf) (buf : MsgBuf) : MsgBuf :=
  let started := msgBegin buf type
  msgEnd (fields started.1) started.2

namespace MsgBuf

/-- {lit}`msg_write_auth_ok`. -/
def msgWriteAuthOk : MsgBuf → MsgBuf :=
  msgWrite 82 fun buf => msgbufPutInt32 buf 0

/-- {lit}`msg_write_param_status`. -/
def msgWriteParamStatus (name value : Text) : MsgBuf → MsgBuf :=
  msgWrite 83 fun buf => msgbufPutString (msgbufPutString buf name) value

/-- {lit}`msg_write_backend_key`. -/
def msgWriteBackendKey (pid key : Int) : MsgBuf → MsgBuf :=
  msgWrite 75 fun buf => msgbufPutInt32 (msgbufPutInt32 buf pid) key

/-- {lit}`msg_write_ready_for_query`. -/
def msgWriteReadyForQuery (txnStatus : UInt8) : MsgBuf → MsgBuf :=
  msgWrite 90 fun buf => msgbufPutByte buf txnStatus

/-- {lit}`msg_write_error`. -/
def msgWriteError (severity code message : Text) : MsgBuf → MsgBuf :=
  msgWrite 69 fun buf =>
    let buf := msgbufPutString (msgbufPutByte buf 83) severity
    let buf := msgbufPutString (msgbufPutByte buf 67) code
    let buf := msgbufPutString (msgbufPutByte buf 77) message
    msgbufPutByte buf 0

/-- {lit}`msg_write_command_complete`. -/
def msgWriteCommandComplete (tag : Text) : MsgBuf → MsgBuf :=
  msgWrite 67 fun buf => msgbufPutString buf tag

end MsgBuf

/-- The calls of the writers. -/
inductive MsgWrite where
  | authOk
  | paramStatus (name value : Text)
  | backendKey (pid key : Int)
  | readyForQuery (txnStatus : UInt8)
  | error (severity code message : Text)
  | commandComplete (tag : Text)
deriving DecidableEq

/-- A message: its type, its length and its fields. -/
def frameBytes (type : UInt8) (payload : Text) : Text :=
  type :: be32Bytes (payload.length + 4) ++ payload

namespace MsgWrite

/-- Call a writer. -/
def apply : MsgWrite → MsgBuf → MsgBuf
  | .authOk => MsgBuf.msgWriteAuthOk
  | .paramStatus name value => MsgBuf.msgWriteParamStatus name value
  | .backendKey pid key => MsgBuf.msgWriteBackendKey pid key
  | .readyForQuery txnStatus => MsgBuf.msgWriteReadyForQuery txnStatus
  | .error severity code message => MsgBuf.msgWriteError severity code message
  | .commandComplete tag => MsgBuf.msgWriteCommandComplete tag

/-- The message that a writer is to append. -/
def bytes : MsgWrite → Text
  | .authOk => frameBytes 82 (int32Bytes 0)
  | .paramStatus name value => frameBytes 83 (name ++ [0] ++ (value ++ [0]))
  | .backendKey pid key => frameBytes 75 (int32Bytes pid ++ int32Bytes key)
  | .readyForQuery txnStatus => frameBytes 90 [txnStatus]
  | .error severity code message =>
      frameBytes 69 (83 :: severity ++ 0 :: 67 :: code ++ 0 :: 77 :: message ++ [0, 0])
  | .commandComplete tag => frameBytes 67 (tag ++ [0])

end MsgWrite

/-! ## What is appended -/

@[simp]
theorem content_putBytes (buf : MsgBuf) (data : Text) :
    (msgbufPutBytes buf data).content = buf.content ++ data :=
  buf.content_append data

theorem be32Bytes_length (n : Nat) : (be32Bytes n).length = 4 :=
  rfl

/-- A message is appended with its length. -/
theorem content_msgWrite {type : UInt8} {fields : MsgBuf → MsgBuf} {payload : Text}
    (hfields : ∀ buf : MsgBuf, (fields buf).content = buf.content ++ payload) (buf : MsgBuf) :
    (msgWrite type fields buf).content = buf.content ++ frameBytes type payload := by
  have hcontent := hfields (msgBegin buf type).1
  have hstart : (msgBegin buf type).1.content = buf.content ++ [type] ++ int32Bytes 0 := by
    simp [msgBegin, msgbufPutInt32, msgbufPutByte]
  have hoffset : (msgBegin buf type).2 = (buf.content ++ [type]).length := by
    simp [msgBegin, msgbufPutByte, msgbufPutBytes]
  have hfour : (int32Bytes 0).length = 4 := rfl
  rw [hstart] at hcontent
  have hlen := congrArg List.length hcontent
  rw [GrowBuffer.content_length, List.length_append, List.length_append, hfour] at hlen
  -- the four bytes that were left out are written over
  have hfront : (buf.content ++ [type] ++ int32Bytes 0 ++ payload).take
      (buf.content ++ [type]).length = buf.content ++ [type] := by
    rw [List.append_assoc (buf.content ++ [type]), List.take_left]
  have hback : (buf.content ++ [type] ++ int32Bytes 0 ++ payload).drop
      ((buf.content ++ [type]).length + 4) = payload :=
    List.drop_left' (by rw [List.length_append, hfour])
  have hsize : (buf.content ++ [type]).length + 4 + payload.length -
      (buf.content ++ [type]).length = payload.length + 4 := by omega
  unfold msgWrite msgEnd
  dsimp only
  rw [hoffset, GrowBuffer.content_patch _ (by rw [be32Bytes_length]; omega), hcontent, hlen,
    hsize, splice, hfront, be32Bytes_length, hback, frameBytes]
  simp

/-- A writer appends its message to the content. -/
theorem MsgWrite.content_apply (w : MsgWrite) (buf : MsgBuf) :
    (w.apply buf).content = buf.content ++ w.bytes := by
  cases w with
  | authOk =>
      rw [apply, bytes, MsgBuf.msgWriteAuthOk]
      exact content_msgWrite (fun buf => by simp [msgbufPutInt32]) buf
  | paramStatus name value =>
      rw [apply, bytes, MsgBuf.msgWriteParamStatus]
      exact content_msgWrite (fun buf => by simp [msgbufPutString]) buf
  | backendKey pid key =>
      rw [apply, bytes, MsgBuf.msgWriteBackendKey]
      exact content_msgWrite (fun buf => by simp [msgbufPutInt32]) buf
  | readyForQuery txnStatus =>
      rw [apply, bytes, MsgBuf.msgWriteReadyForQuery]
      exact content_msgWrite (fun buf => by simp [msgbufPutByte]) buf
  | error severity code message =>
      rw [apply, bytes, MsgBuf.msgWriteError]
      exact content_msgWrite (fun buf => by simp [msgbufPutByte, msgbufPutString]) buf
  | commandComplete tag =>
      rw [apply, bytes, MsgBuf.msgWriteCommandComplete]
      exact content_msgWrite (fun buf => by simp [msgbufPutString]) buf

end Sharegres
