import Sharegres.Protocol.Frames
import Sharegres.Protocol.MessageBuffer

/-!
# Protocol - Messages read back

The readers of {lit}`src/protocol/message.c`, which take fields from a position of a buffer,
and the rule by which a client splits the bytes it receives into messages.  What the writers
append is split into one message for each call, and the readers find the arguments of the
call in it.

Main results:

- Definitions {lit}`msgbufGetByte`, {lit}`msgbufGetInt32` and {lit}`msgbufGetString`.
- Definition {lit}`splitFrames`: the messages in a series of bytes.
- Theorem {lit}`splitFrames_frames`: the messages are found again.
- Theorem {lit}`splitFrames_writes`: one message for each call of a writer.
- Theorem {lit}`messages_read_back`: the arguments are found in the messages.
-/

namespace Sharegres

open Foundation

/-! ## Readers -/

/-- A reader of a buffer: it advances the position, and has no result where the code would
read behind the allocation. -/
abbrev MsgGet (α : Type) := StateT Nat Option α

/-- {lit}`msgbuf_get_byte`. -/
def msgbufGetByte (buf : MsgBuf) : MsgGet UInt8 := fun pos =>
  buf.cells[pos]?.map (·, pos + 1)

/-- {lit}`msgbuf_get_int32`: {lit}`ntohl`, taken for a signed number. -/
def msgbufGetInt32 (buf : MsgBuf) : MsgGet Int := fun pos =>
  if pos + 4 ≤ buf.cells.length then
    some (Int.bmod (be32At buf.cells pos) (2 ^ 32), pos + 4)
  else none

/-- {lit}`msgbuf_get_string`. -/
def msgbufGetString (buf : MsgBuf) : MsgGet Text := fun pos =>
  if 0 ∈ buf.cells.drop pos then
    let str := (buf.cells.drop pos).takeWhile (· ≠ 0)
    some (str, pos + (str.length + 1))
  else none

/-- A reader takes these bytes for this value, wherever they stand in the buffer. -/
def Gets {α : Type} (buf : MsgBuf) (get : MsgGet α) (bytes : Text) (a : α) : Prop :=
  ∀ pos rest, buf.cells.drop pos = bytes ++ rest → get.run pos = some (a, pos + bytes.length)

namespace Gets

variable {α β : Type} {buf : MsgBuf}

theorem pure (a : α) : Gets buf (pure a) [] a :=
  fun _ _ _ => rfl

/-- Readers in sequence. -/
theorem bind {get : MsgGet α} {f : α → MsgGet β} {xs ys : Text} {a : α} {b : β}
    (h : Gets buf get xs a) (hf : Gets buf (f a) ys b) : Gets buf (get >>= f) (xs ++ ys) b := by
  intro pos rest hdrop
  rw [List.append_assoc] at hdrop
  have hnext : buf.cells.drop (pos + xs.length) = ys ++ rest := by
    rw [← List.drop_drop, hdrop, List.drop_left]
  rw [StateT.run_bind, h pos _ hdrop]
  refine (hf _ rest hnext).trans ?_
  rw [List.length_append, Nat.add_assoc]

/-- The last reader of a sequence. -/
theorem last {get : MsgGet α} {f : α → MsgGet β} {xs : Text} {a : α} {b : β}
    (h : Gets buf get xs a) (hf : Gets buf (f a) [] b) : Gets buf (get >>= f) xs b := by
  have hboth := h.bind hf
  rwa [List.append_nil] at hboth

theorem byte (val : UInt8) : Gets buf (msgbufGetByte buf) [val] val := by
  intro pos rest hdrop
  have hat : buf.cells[pos]? = some val := by
    rw [← Nat.add_zero pos, ← List.getElem?_drop, hdrop]
    rfl
  exact congrArg (Option.map _) hat

end Gets

/-! ## Numbers of 32 bits -/

theorem be32At_drop (xs : Text) (pos : Nat) : be32At xs pos = be32At (xs.drop pos) 0 := by
  simp only [be32At, List.getD_eq_getElem?_getD, List.getElem?_drop, Nat.add_zero, Nat.zero_add]

theorem be32At_be32Bytes (n : Nat) (rest : Text) : be32At (be32Bytes n ++ rest) 0 = n % 2 ^ 32 := by
  simp only [be32At, be32Bytes, List.cons_append, List.nil_append, List.getD_cons_zero,
    List.getD_cons_succ, Nat.zero_add, UInt8.toNat_ofNat']
  omega

/-- A signed number is read back. -/
theorem Gets.int32 {buf : MsgBuf} {val : Int} (hlow : -2 ^ 31 ≤ val) (hhigh : val < 2 ^ 31) :
    Gets buf (msgbufGetInt32 buf) (int32Bytes val) val := by
  intro pos rest hdrop
  have hlen := congrArg List.length hdrop
  rw [int32Bytes, List.length_drop, List.length_append, be32Bytes_length] at hlen
  have hval : Int.bmod (be32At buf.cells pos) (2 ^ 32) = val := by
    rw [be32At_drop, hdrop, int32Bytes, be32At_be32Bytes]
    unfold Int.bmod
    dsimp only
    split <;> omega
  rw [StateT.run, msgbufGetInt32, if_pos (by omega), hval]
  rfl

/-- A text without NUL is read back. -/
theorem Gets.string {buf : MsgBuf} {str : Text} (hclean : 0 ∉ str) :
    Gets buf (msgbufGetString buf) (str ++ [0]) str := by
  intro pos rest hdrop
  have htext : (buf.cells.drop pos).takeWhile (· ≠ 0) = str := by
    rw [hdrop, List.append_assoc, List.takeWhile_append_of_pos]
    · simp
    · intro b hb
      simp only [ne_eq, decide_eq_true_eq]
      rintro rfl
      exact hclean hb
  rw [StateT.run, msgbufGetString, if_pos (by simp [hdrop]), htext, List.length_append]
  rfl

/-! ## Messages of the writers -/

namespace MsgWrite

/-- The type of a message. -/
def type : MsgWrite → UInt8
  | .authOk => 82
  | .paramStatus .. => 83
  | .backendKey .. => 75
  | .readyForQuery _ => 90
  | .error .. => 69
  | .commandComplete _ => 67

/-- The bytes behind the length. -/
def payload : MsgWrite → Text
  | .authOk => int32Bytes 0
  | .paramStatus name value => name ++ [0] ++ (value ++ [0])
  | .backendKey pid key => int32Bytes pid ++ int32Bytes key
  | .readyForQuery txnStatus => [txnStatus]
  | .error severity code message =>
      83 :: severity ++ 0 :: 67 :: code ++ 0 :: 77 :: message ++ [0, 0]
  | .commandComplete tag => tag ++ [0]

/-- The texts among the arguments. -/
def texts : MsgWrite → List Text
  | .paramStatus name value => [name, value]
  | .error severity code message => [severity, code, message]
  | .commandComplete tag => [tag]
  | _ => []

/-- The numbers among the arguments. -/
def numbers : MsgWrite → List Int
  | .backendKey pid key => [pid, key]
  | _ => []

/-- The arguments are C strings and C numbers, and the payload fits a length. -/
structure Valid (w : MsgWrite) : Prop where
  clean : ∀ str ∈ w.texts, 0 ∉ str
  ranged : ∀ val ∈ w.numbers, -2 ^ 31 ≤ val ∧ val < 2 ^ 31
  fits : w.payload.length < 2 ^ 31

theorem bytes_eq (w : MsgWrite) : w.bytes = frameBytes w.type w.payload := by
  cases w <;> rfl

end MsgWrite

/-! ## Fields of a message -/

section Fields

variable (buf : MsgBuf)

/-- The fields of an authentication message. -/
def msgGetAuthOk : MsgGet MsgWrite := do
  let code ← msgbufGetInt32 buf
  if code = 0 then pure .authOk else failure

/-- The fields of a parameter status. -/
def msgGetParamStatus : MsgGet MsgWrite := do
  let name ← msgbufGetString buf
  let value ← msgbufGetString buf
  pure (.paramStatus name value)

/-- The fields of the key data. -/
def msgGetBackendKey : MsgGet MsgWrite := do
  let pid ← msgbufGetInt32 buf
  let key ← msgbufGetInt32 buf
  pure (.backendKey pid key)

/-- The field of a ready message. -/
def msgGetReadyForQuery : MsgGet MsgWrite := do
  let txnStatus ← msgbufGetByte buf
  pure (.readyForQuery txnStatus)

/-- A field of an error, with its tag. -/
def msgGetErrorField (tag : UInt8) : MsgGet Text := do
  let found ← msgbufGetByte buf
  if found = tag then msgbufGetString buf else failure

/-- The fields of an error. -/
def msgGetError : MsgGet MsgWrite := do
  let severity ← msgGetErrorField buf 83
  let code ← msgGetErrorField buf 67
  let message ← msgGetErrorField buf 77
  let terminator ← msgbufGetByte buf
  if terminator = 0 then pure (.error severity code message) else failure

/-- The field of a command completion. -/
def msgGetCommandComplete : MsgGet MsgWrite := do
  let tag ← msgbufGetString buf
  pure (.commandComplete tag)

/-- The fields of a message with the given type. -/
def msgGetFields (type : UInt8) : MsgGet MsgWrite :=
  if type = 82 then msgGetAuthOk buf
  else if type = 83 then msgGetParamStatus buf
  else if type = 75 then msgGetBackendKey buf
  else if type = 90 then msgGetReadyForQuery buf
  else if type = 69 then msgGetError buf
  else if type = 67 then msgGetCommandComplete buf
  else failure

end Fields

theorem Gets.errorField {buf : MsgBuf} {str : Text} (tag : UInt8) (hclean : 0 ∉ str) :
    Gets buf (msgGetErrorField buf tag) ([tag] ++ (str ++ [0])) str := by
  refine (Gets.byte tag).bind ?_
  rw [if_pos rfl]
  exact Gets.string hclean

/-- The fields of a message are the arguments of the writer. -/
theorem MsgWrite.Valid.gets {buf : MsgBuf} {w : MsgWrite} (hw : w.Valid) :
    Gets buf (msgGetFields buf w.type) w.payload w := by
  cases w with
  | authOk =>
      have hzero : Gets buf (msgbufGetInt32 buf) (int32Bytes 0) 0 :=
        Gets.int32 (by decide) (by decide)
      exact hzero.last (Gets.pure _)
  | paramStatus name value =>
      have hname : 0 ∉ name := hw.clean name (by simp [texts])
      have hvalue : 0 ∉ value := hw.clean value (by simp [texts])
      exact (Gets.string hname).bind ((Gets.string hvalue).last (Gets.pure _))
  | backendKey pid key =>
      have hpid := hw.ranged pid (by simp [numbers])
      have hkey := hw.ranged key (by simp [numbers])
      exact (Gets.int32 hpid.1 hpid.2).bind ((Gets.int32 hkey.1 hkey.2).last (Gets.pure _))
  | readyForQuery txnStatus => exact (Gets.byte txnStatus).last (Gets.pure _)
  | error severity code message =>
      have hseverity : 0 ∉ severity := hw.clean severity (by simp [texts])
      have hcode : 0 ∉ code := hw.clean code (by simp [texts])
      have hmessage : 0 ∉ message := hw.clean message (by simp [texts])
      have hpayload : (MsgWrite.error severity code message).payload =
          ([83] ++ (severity ++ [0])) ++ (([67] ++ (code ++ [0])) ++
            (([77] ++ (message ++ [0])) ++ [0])) := by
        simp [payload]
      rw [hpayload]
      exact (Gets.errorField 83 hseverity).bind ((Gets.errorField 67 hcode).bind
        ((Gets.errorField 77 hmessage).bind ((Gets.byte 0).last (Gets.pure _))))
  | commandComplete tag =>
      exact (Gets.string (hw.clean tag (by simp [texts]))).last (Gets.pure _)

/-! ## Splitting into messages -/

/-- Messages with their types and payloads: one byte for the type, then the length, which
counts itself and the payload. -/
def wireFrames : Framing (List (UInt8 × Text)) UInt8 where
  next := fun frames xs =>
    if Complete xs then
      some (1 + be32At xs 1, frames ++ [(xs.getD 0 0, (xs.take (1 + be32At xs 1)).drop 5)])
    else none
  bounds := by
    intro frames frames' xs n h
    by_cases hxs : Complete xs
    · rw [if_pos hxs] at h
      cases h
      exact ⟨by omega, hxs.2.2⟩
    · rw [if_neg hxs] at h
      cases h

/-- The bytes of messages. -/
def framesBytes (frames : List (UInt8 × Text)) : Text :=
  frames.flatMap fun frame => frameBytes frame.1 frame.2

/-- The messages in a series of bytes, and the bytes that are left. -/
def splitFrames (xs : Text) : List (UInt8 × Text) × Text :=
  wireFrames.walk [] xs

/-- A type, a length and the payload. -/
theorem frameBytes_length (type : UInt8) (payload : Text) :
    (frameBytes type payload).length = 5 + payload.length := by
  rw [frameBytes, List.cons_append, List.length_cons, List.length_append, be32Bytes_length]
  omega

/-- The length field of a message in front. -/
theorem be32At_frameBytes (type : UInt8) {payload : Text} (hfits : payload.length + 4 < 2 ^ 32)
    (rest : Text) : be32At (frameBytes type payload ++ rest) 1 = payload.length + 4 := by
  rw [be32At_drop, frameBytes, List.cons_append, List.cons_append, List.drop_succ_cons,
    List.drop_zero, List.append_assoc, be32At_be32Bytes]
  omega

/-- A message in front is split off. -/
theorem wireFrames_next (type : UInt8) {payload : Text} (hfits : payload.length < 2 ^ 31)
    (frames : List (UInt8 × Text)) (rest : Text) :
    wireFrames.next frames (frameBytes type payload ++ rest) =
      some ((frameBytes type payload).length, frames ++ [(type, payload)]) := by
  have hlength := be32At_frameBytes type (by omega : payload.length + 4 < 2 ^ 32) rest
  have hsize : (frameBytes type payload).length = 1 + (payload.length + 4) := by
    rw [frameBytes_length]
    omega
  have hcomplete : Complete (frameBytes type payload ++ rest) := by
    refine ⟨?_, ?_, ?_⟩
    · rw [List.length_append]
      omega
    · omega
    · rw [hlength, List.length_append]
      omega
  have hpayload : (frameBytes type payload).drop 5 = payload := by
    simp [frameBytes, be32Bytes]
  unfold wireFrames
  dsimp only
  rw [if_pos hcomplete, hlength, ← hsize, List.take_left, hpayload]
  rfl

/-- Call writers one after the other. -/
def msgWriteAll (buf : MsgBuf) (ws : List MsgWrite) : MsgBuf :=
  ws.foldl (fun buf w => w.apply buf) buf

theorem content_msgWriteAll (buf : MsgBuf) (ws : List MsgWrite) :
    (msgWriteAll buf ws).content = buf.content ++ ws.flatMap MsgWrite.bytes := by
  induction ws generalizing buf with
  | nil => simp [msgWriteAll]
  | cons w ws ih =>
      have hcons : msgWriteAll buf (w :: ws) = msgWriteAll (w.apply buf) ws := rfl
      rw [hcons, ih, w.content_apply, List.flatMap_cons, List.append_assoc]

/-- The bytes of messages are split into them. -/
theorem splitFrames_frames {frames : List (UInt8 × Text)}
    (hfits : ∀ frame ∈ frames, frame.2.length < 2 ^ 31) :
    splitFrames (framesBytes frames) = (frames, []) := by
  have hwalk : ∀ before : List (UInt8 × Text),
      wireFrames.walk before (framesBytes frames) = (before ++ frames, []) := by
    induction frames with
    | nil =>
        intro before
        rw [framesBytes, List.flatMap_nil, wireFrames.walk_stop (wireFrames.next_nil before)]
        simp
    | cons frame frames ih =>
        intro before
        have hnext := wireFrames_next frame.1 (hfits frame List.mem_cons_self) before
          (framesBytes frames)
        have hcons : framesBytes (frame :: frames) =
            frameBytes frame.1 frame.2 ++ framesBytes frames := List.flatMap_cons
        rw [hcons, wireFrames.walk_next hnext, List.drop_left,
          ih fun f hf => hfits f (List.mem_cons_of_mem _ hf)]
        simp
  exact hwalk []

/-- The bytes of valid writers are split into one message for each. -/
theorem splitFrames_writes {ws : List MsgWrite} (hws : ∀ w ∈ ws, w.Valid) :
    splitFrames (ws.flatMap MsgWrite.bytes) = (ws.map fun w => (w.type, w.payload), []) := by
  have hbytes : ws.flatMap MsgWrite.bytes = framesBytes (ws.map fun w => (w.type, w.payload)) := by
    rw [framesBytes, List.flatMap_map]
    exact List.flatMap_congr fun w _ => w.bytes_eq
  rw [hbytes]
  refine splitFrames_frames fun frame hframe => ?_
  rcases List.mem_map.mp hframe with ⟨w, hw, rfl⟩
  exact (hws w hw).fits

/-- Writers leave the content of a buffer as it is and append to it; the appended bytes are
split into one message for each call, in order; and from the payload of each message the
readers take the arguments of the call, up to the end of the message. -/
theorem messages_read_back (buf : MsgBuf) {ws : List MsgWrite} (hws : ∀ w ∈ ws, w.Valid) :
    ∃ appended, (msgWriteAll buf ws).content = buf.content ++ appended ∧
      splitFrames appended = (ws.map fun w => (w.type, w.payload), []) ∧
      ∀ front w back, ws = front ++ w :: back →
        (msgGetFields (msgWriteAll buf ws) w.type).run
            (buf.len + (front.map fun v => 5 + v.payload.length).sum + 5) =
          some (w, buf.len + ((front ++ [w]).map fun v => 5 + v.payload.length).sum) := by
  refine ⟨ws.flatMap MsgWrite.bytes, content_msgWriteAll buf ws, splitFrames_writes hws, ?_⟩
  intro front w back hsplit
  have hw : w.Valid := hws w (by simp [hsplit])
  have hsize : ∀ v : MsgWrite, v.bytes.length = 5 + v.payload.length := by
    intro v
    rw [v.bytes_eq, frameBytes, List.cons_append, List.length_cons, List.length_append,
      be32Bytes_length]
    omega
  have hfront : (front.flatMap MsgWrite.bytes).length =
      (front.map fun v => 5 + v.payload.length).sum := by
    rw [List.length_flatMap]
    exact congrArg List.sum (List.map_congr_left fun v _ => hsize v)
  -- the payload stands behind the header of the message
  have hcells : (msgWriteAll buf ws).cells.drop
      (buf.len + (front.map fun v => 5 + v.payload.length).sum + 5) =
      w.payload ++ (back.flatMap MsgWrite.bytes ++
        (msgWriteAll buf ws).cells.drop (msgWriteAll buf ws).len) := by
    have hheader : (buf.content ++ front.flatMap MsgWrite.bytes ++
        (w.type :: be32Bytes (w.payload.length + 4))).length =
        buf.len + (front.map fun v => 5 + v.payload.length).sum + 5 := by
      rw [List.length_append, List.length_append, GrowBuffer.content_length, hfront,
        List.length_cons, be32Bytes_length]
    have hall : (msgWriteAll buf ws).cells = (buf.content ++ front.flatMap MsgWrite.bytes ++
        (w.type :: be32Bytes (w.payload.length + 4))) ++ (w.payload ++
          (back.flatMap MsgWrite.bytes ++
            (msgWriteAll buf ws).cells.drop (msgWriteAll buf ws).len)) := by
      conv_lhs => rw [← List.take_append_drop (msgWriteAll buf ws).len (msgWriteAll buf ws).cells]
      rw [← GrowBuffer.content, content_msgWriteAll, hsplit, List.flatMap_append,
        List.flatMap_cons, w.bytes_eq, frameBytes]
      simp only [List.append_assoc, List.cons_append]
    conv_lhs => rw [hall]
    rw [← hheader, List.drop_left]
  rw [hw.gets _ _ hcells, List.map_append, List.sum_append]
  simp only [List.map_cons, List.map_nil, List.sum_cons, List.sum_nil]
  congr 2
  omega

/-- A key message with a negative number behind other content. -/
theorem negative_key_read_back :
    ∃ appended, (msgWriteAll (msgbufPutString (msgbufInit 1 Nat.one_pos) (ascii "x"))
        [.backendKey 7 (-2), .commandComplete (ascii "SELECT 1")]).content =
        ascii "x" ++ [0] ++ appended ∧
      splitFrames appended = ([(75, [0, 0, 0, 7, 255, 255, 255, 254]),
        (67, ascii "SELECT 1" ++ [0])], []) := by
  have hws : ∀ w ∈ [MsgWrite.backendKey 7 (-2), .commandComplete (ascii "SELECT 1")], w.Valid := by
    intro w hw
    rcases List.mem_cons.mp hw with rfl | hw
    · exact ⟨by simp [MsgWrite.texts], by simp [MsgWrite.numbers], by decide +kernel⟩
    · rw [List.mem_singleton.mp hw]
      exact ⟨by simp only [MsgWrite.texts, List.mem_singleton]; rintro str rfl; decide +kernel,
        by simp [MsgWrite.numbers], by decide +kernel⟩
  rcases messages_read_back (msgbufPutString (msgbufInit 1 Nat.one_pos) (ascii "x")) hws with
    ⟨appended, hcontent, hsplit, -⟩
  refine ⟨appended, ?_, ?_⟩
  · rw [hcontent]
    exact congrArg (· ++ appended) (by decide +kernel)
  · rw [hsplit]
    decide +kernel

end Sharegres
