import Sharegres.Foundation.Decoder
import Sharegres.Protocol.MessageReading
import Sharegres.Session.SendQueue

/-!
# Session - Rows as bytes

Model of {lit}`session_forward_result` with the bytes it queues.  One buffer is used for all
messages: it is reset in front of each row, the fields are appended, the length is written over
the room left for it, and the content goes to the send buffer.  A client splits what it receives
into messages and reads the fields of each by the rules of the protocol.

Main results:

- Definition {lit}`sessionForwardResult`: the messages for a result.
- Definition {lit}`decodeMessages`: the rules of the protocol for RowDescription and DataRow.
- Theorem {lit}`sessionForwardResult_content`: the bytes that are queued.
- Theorem {lit}`sessionForwardResult_rowMessages`: the bytes say what {lit}`rowMessages` says.
- Theorem {lit}`result_read_back`: a client reads the columns and the cells of the result.
-/

namespace Sharegres

open Foundation

/-! ## Writing -/

/-- The fields of a column in a RowDescription. -/
def putColumn (buf : MsgBuf) (field : FieldDesc) : MsgBuf :=
  let buf := msgbufPutString buf field.name
  let buf := msgbufPutInt32 buf 0
  let buf := msgbufPutInt16 buf 0
  let buf := msgbufPutInt32 buf field.type
  let buf := msgbufPutInt16 buf field.size
  let buf := msgbufPutInt32 buf field.mod
  msgbufPutInt16 buf 0

/-- A cell in a DataRow: the length -1 for NULL, or the length and the value. -/
def putCell (buf : MsgBuf) : Option Text → MsgBuf
  | none => msgbufPutInt32 buf (-1)
  | some value => msgbufPutBytes (msgbufPutInt32 buf value.length) value

/-- The RowDescription; the code has the steps of {lit}`msg_begin` and {lit}`msg_end` in
place. -/
def writeRowDescription (fields : List FieldDesc) : MsgBuf → MsgBuf :=
  msgWrite 84 fun buf => fields.foldl putColumn (msgbufPutInt16 buf fields.length)

/-- A DataRow, likewise. -/
def writeDataRow (nfields : Nat) (cells : List (Option Text)) : MsgBuf → MsgBuf :=
  msgWrite 68 fun buf => cells.foldl putCell (msgbufPutInt16 buf nfields)

/-- A round of the loop over the rows, with the buffer and the way out. -/
def forwardRow (nfields : Nat) (x : MsgBuf × Outgoing) (cells : List (Option Text)) :
    MsgBuf × Outgoing :=
  let msg := writeDataRow nfields cells (msgbufReset x.1)
  (msg, x.2.sessionQueueSend msg.content)

theorem rowBuffer_pos : 0 < 256 := by
  decide

/-- {lit}`session_forward_result`, with the number of rows it answers. -/
def sessionForwardResult (o : Outgoing) (res : PGresult) (sendHeader : Bool) : Outgoing × Nat :=
  let msg := msgbufInit 256 rowBuffer_pos
  let x :=
    if sendHeader ∧ 0 < res.fields.length then
      let msg := writeRowDescription res.fields msg
      (msg, o.sessionQueueSend msg.content)
    else (msg, o)
  ((res.rows.foldl (forwardRow res.fields.length) x).2, res.rows.length)

/-! ## What is queued -/

/-- The bytes of a column. -/
def columnBytes (field : FieldDesc) : Text :=
  (field.name ++ [0]) ++ (int32Bytes 0 ++ (int16Bytes 0 ++ (int32Bytes field.type ++
    (int16Bytes field.size ++ (int32Bytes field.mod ++ int16Bytes 0)))))

/-- The bytes of a cell. -/
def cellBytes : Option Text → Text
  | none => int32Bytes (-1)
  | some value => int32Bytes value.length ++ value

/-- The payload of the RowDescription. -/
def descriptionPayload (fields : List FieldDesc) : Text :=
  int16Bytes fields.length ++ fields.flatMap columnBytes

/-- The payload of a DataRow. -/
def rowPayload (nfields : Nat) (cells : List (Option Text)) : Text :=
  int16Bytes nfields ++ cells.flatMap cellBytes

/-- The types and payloads of the messages for a result. -/
def resultFrames (res : PGresult) (sendHeader : Bool) : List (UInt8 × Text) :=
  (if sendHeader ∧ 0 < res.fields.length then [(84, descriptionPayload res.fields)] else []) ++
    res.rows.map fun cells => (68, rowPayload res.fields.length cells)

/-- What is appended one by one is appended. -/
theorem content_foldl {α : Type} {put : MsgBuf → α → MsgBuf} {bytes : α → Text}
    (hput : ∀ buf a, (put buf a).content = buf.content ++ bytes a) (as : List α) (buf : MsgBuf) :
    (as.foldl put buf).content = buf.content ++ as.flatMap bytes := by
  induction as generalizing buf with
  | nil => rw [List.foldl_nil, List.flatMap_nil, List.append_nil]
  | cons a as ih => rw [List.foldl_cons, ih, hput, List.flatMap_cons, List.append_assoc]

/-- A column of the description. -/
theorem content_putColumn (buf : MsgBuf) (field : FieldDesc) :
    (putColumn buf field).content = buf.content ++ columnBytes field := by
  simp [putColumn, msgbufPutString, msgbufPutInt32, msgbufPutInt16, columnBytes]

theorem content_putCell (buf : MsgBuf) (cell : Option Text) :
    (putCell buf cell).content = buf.content ++ cellBytes cell := by
  cases cell with
  | none => simp [putCell, msgbufPutInt32, cellBytes]
  | some value => simp [putCell, msgbufPutInt32, cellBytes]

/-- The description of the rows. -/
theorem content_writeRowDescription (fields : List FieldDesc) (buf : MsgBuf) :
    (writeRowDescription fields buf).content =
      buf.content ++ frameBytes 84 (descriptionPayload fields) := by
  refine content_msgWrite (fun buf => ?_) buf
  rw [content_foldl content_putColumn, msgbufPutInt16, content_putBytes, List.append_assoc,
    descriptionPayload]

theorem content_writeDataRow (nfields : Nat) (cells : List (Option Text)) (buf : MsgBuf) :
    (writeDataRow nfields cells buf).content =
      buf.content ++ frameBytes 68 (rowPayload nfields cells) := by
  refine content_msgWrite (fun buf => ?_) buf
  rw [content_foldl content_putCell, msgbufPutInt16, content_putBytes, List.append_assoc,
    rowPayload]

theorem content_init (initialCap : Nat) (hcap : 0 < initialCap) :
    (msgbufInit initialCap hcap).content = [] :=
  List.take_zero

theorem content_reset (buf : MsgBuf) : (msgbufReset buf).content = [] :=
  rfl

/-- What is queued stands behind what waits. -/
theorem content_queueSend (data : Text) (o : Outgoing) :
    (o.sessionQueueSend data).sendBuf.content = o.sendBuf.content ++ data :=
  content_putBytes o.sendBuf data

/-- A row is appended to the send buffer, whatever the buffer for messages held. -/
theorem forwardRow_content (nfields : Nat) (x : MsgBuf × Outgoing) (cells : List (Option Text)) :
    (forwardRow nfields x cells).2.sendBuf.content =
      x.2.sendBuf.content ++ frameBytes 68 (rowPayload nfields cells) := by
  unfold forwardRow
  dsimp only
  rw [content_queueSend, content_writeDataRow, content_reset, List.nil_append]

/-- The rows are appended to the send buffer. -/
theorem forwardRows_content (nfields : Nat) (rows : List (List (Option Text)))
    (x : MsgBuf × Outgoing) :
    (rows.foldl (forwardRow nfields) x).2.sendBuf.content = x.2.sendBuf.content ++
      framesBytes (rows.map fun cells => (68, rowPayload nfields cells)) := by
  induction rows generalizing x with
  | nil => simp [framesBytes]
  | cons cells rows ih =>
      rw [List.foldl_cons, ih, forwardRow_content, List.map_cons, List.append_assoc]
      rfl

theorem framesBytes_singleton (type : UInt8) (payload : Text) :
    framesBytes [(type, payload)] = frameBytes type payload :=
  List.flatMap_singleton ..

/-- Frames one behind the other. -/
theorem framesBytes_append (front back : List (UInt8 × Text)) :
    framesBytes (front ++ back) = framesBytes front ++ framesBytes back :=
  List.flatMap_append

/-- The messages for a result are appended to the send buffer. -/
theorem sessionForwardResult_content (o : Outgoing) (res : PGresult) (sendHeader : Bool) :
    (sessionForwardResult o res sendHeader).1.sendBuf.content =
      o.sendBuf.content ++ framesBytes (resultFrames res sendHeader) := by
  unfold sessionForwardResult resultFrames
  dsimp only
  rw [forwardRows_content, framesBytes_append]
  by_cases hheader : sendHeader = true ∧ 0 < res.fields.length
  · rw [if_pos hheader, if_pos hheader, content_queueSend, content_writeRowDescription,
      content_init, List.nil_append, List.append_assoc, framesBytes_singleton]
  · rw [if_neg hheader, if_neg hheader]
    rfl

/-! ## The rules of the protocol -/

/-- A column as a client learns it: also the table and the attribute it is from, and the format
of its values. -/
structure ColumnDesc where
  desc : FieldDesc
  tableOid : Int
  attnum : Int
  format : Int
deriving DecidableEq

/-- The messages with rows that a client reads. -/
inductive RowMsg where
  | rowDescription (columns : List ColumnDesc)
  | dataRow (cells : List (Option Text))
deriving DecidableEq

/-- A signed number of 16 bits. -/
def decodeInt16 : Decoder UInt8 Int := do
  let bytes ← Decoder.take 2
  pure (Int.bmod ((bytes.getD 0 0).toNat * 2 ^ 8 + (bytes.getD 1 0).toNat) (2 ^ 16))

/-- A number of 32 bits without a sign, such as an OID. -/
def decodeOid : Decoder UInt8 Int := do
  let bytes ← Decoder.take 4
  pure (be32At bytes 0)

/-- A signed number of 32 bits. -/
def decodeInt32 : Decoder UInt8 Int := do
  let bytes ← Decoder.take 4
  pure (Int.bmod (be32At bytes 0) (2 ^ 32))

/-- A column of a RowDescription. -/
def decodeColumn : Decoder UInt8 ColumnDesc := do
  let name ← Decoder.upTo 0
  let tableOid ← decodeOid
  let attnum ← decodeInt16
  let type ← decodeOid
  let size ← decodeInt16
  let mod ← decodeInt32
  let format ← decodeInt16
  pure ⟨⟨name, type, size, mod⟩, tableOid, attnum, format⟩

/-- A cell of a DataRow. -/
def decodeCell : Decoder UInt8 (Option Text) := do
  let length ← decodeInt32
  if length = -1 then pure none
  else if length < 0 then failure
  else
    let value ← Decoder.take length.toNat
    pure (some value)

/-- A number of columns or cells. -/
def decodeCounted {α : Type} (d : Decoder UInt8 α) : Decoder UInt8 (List α) := do
  let count ← decodeInt16
  if count < 0 then failure else d.many count.toNat

/-- The message with a type and a payload. -/
def decodeFrame (frame : UInt8 × Text) : Option RowMsg :=
  if frame.1 = 84 then ((decodeCounted decodeColumn).complete frame.2).map .rowDescription
  else if frame.1 = 68 then ((decodeCounted decodeCell).complete frame.2).map .dataRow
  else none

/-- The messages in a series of bytes. -/
def decodeMessages (xs : Text) : Option (List RowMsg) :=
  let split := splitFrames xs
  if split.2.isEmpty then split.1.mapM decodeFrame else none

/-! ## Reading back -/

/-- Sixteen bits with a sign. -/
theorem Decodes.int16 {val : Int} (hlow : -2 ^ 15 ≤ val) (hhigh : val < 2 ^ 15) :
    Decodes decodeInt16 (int16Bytes val) val := by
  have htake : Decodes (Decoder.take 2) (int16Bytes val) (int16Bytes val) :=
    Decodes.take (int16Bytes val)
  have hval : Int.bmod (((int16Bytes val).getD 0 0).toNat * 2 ^ 8 +
      ((int16Bytes val).getD 1 0).toNat) (2 ^ 16) = val := by
    simp only [int16Bytes, List.getD_cons_zero, List.getD_cons_succ, UInt8.toNat_ofNat']
    unfold Int.bmod
    dsimp only
    split <;> omega
  refine htake.last ?_
  rw [hval]
  exact Decodes.pure val

theorem be32At_int32Bytes (val : Int) : (be32At (int32Bytes val) 0 : Int) = val % 2 ^ 32 := by
  have hread := be32At_be32Bytes (val % 2 ^ 32).toNat []
  rw [List.append_nil] at hread
  rw [int32Bytes, hread]
  omega

/-- An unsigned number of 32 bits. -/
theorem Decodes.oid {val : Int} (hlow : 0 ≤ val) (hhigh : val < 2 ^ 32) :
    Decodes decodeOid (int32Bytes val) val := by
  have htake : Decodes (Decoder.take 4) (int32Bytes val) (int32Bytes val) :=
    Decodes.take (int32Bytes val)
  refine htake.last ?_
  rw [be32At_int32Bytes, Int.emod_eq_of_lt hlow hhigh]
  exact Decodes.pure val

/-- Thirty-two bits with a sign. -/
theorem Decodes.int32 {val : Int} (hlow : -2 ^ 31 ≤ val) (hhigh : val < 2 ^ 31) :
    Decodes decodeInt32 (int32Bytes val) val := by
  have htake : Decodes (Decoder.take 4) (int32Bytes val) (int32Bytes val) :=
    Decodes.take (int32Bytes val)
  have hval : Int.bmod (be32At (int32Bytes val) 0) (2 ^ 32) = val := by
    rw [be32At_int32Bytes]
    unfold Int.bmod
    dsimp only
    split <;> omega
  refine htake.last ?_
  rw [hval]
  exact Decodes.pure val

/-- What libpq answers about a column: a C string, and C numbers of which the size fits 16
bits. -/
structure FieldDesc.Encodable (field : FieldDesc) : Prop where
  name : 0 ∉ field.name
  type : 0 ≤ field.type ∧ field.type < 2 ^ 32
  size : -2 ^ 15 ≤ field.size ∧ field.size < 2 ^ 15
  mod : -2 ^ 31 ≤ field.mod ∧ field.mod < 2 ^ 31

/-- A column as the proxy describes it. -/
def FieldDesc.wire (field : FieldDesc) : ColumnDesc :=
  ⟨field, 0, 0, 0⟩

/-- A column is decoded. -/
theorem FieldDesc.Encodable.decodes {field : FieldDesc} (h : field.Encodable) :
    Decodes decodeColumn (columnBytes field) field.wire :=
  (Decodes.upTo h.name).bind <|
    (Decodes.oid (Int.le_refl 0) (by decide)).bind <|
    (Decodes.int16 (by decide) (by decide)).bind <|
    (Decodes.oid h.type.1 h.type.2).bind <|
    (Decodes.int16 h.size.1 h.size.2).bind <|
    (Decodes.int32 h.mod.1 h.mod.2).bind <|
    (Decodes.int16 (by decide) (by decide)).last (Decodes.pure field.wire)

/-- A cell is decoded, also a null. -/
theorem decodes_cell {cell : Option Text} (hfits : (cellBytes cell).length < 2 ^ 31) :
    Decodes decodeCell (cellBytes cell) cell := by
  cases cell with
  | none =>
      refine (Decodes.int32 (by decide) (by decide)).last ?_
      rw [if_pos rfl]
      exact Decodes.pure none
  | some value =>
      have hsmall : value.length < 2 ^ 31 := by
        rw [cellBytes, List.length_append] at hfits
        omega
      refine (Decodes.int32 (by omega) (by omega)).bind ?_
      rw [if_neg (by omega), if_neg (by omega), Int.toNat_natCast]
      exact (Decodes.take value).last (Decodes.pure (some value))

/-- A count and as many items. -/
theorem decodes_counted {α β : Type} {d : Decoder UInt8 β} {encode : α → Text} {f : α → β}
    {as : List α} (hcount : as.length < 2 ^ 15) (h : ∀ a ∈ as, Decodes d (encode a) (f a)) :
    Decodes (decodeCounted d) (int16Bytes as.length ++ as.flatMap encode) (as.map f) := by
  refine (Decodes.int16 (by omega) (by omega)).bind ?_
  rw [if_neg (by omega), Int.toNat_natCast]
  exact Decodes.many h

/-! ## The result -/

/-- A result whose messages can be written: it has less than 2^15 columns, every row has a cell
for each of them, and each message is below 2^31 bytes. -/
structure PGresult.Encodable (res : PGresult) : Prop where
  count : res.fields.length < 2 ^ 15
  fields : ∀ field ∈ res.fields, field.Encodable
  rows : ∀ cells ∈ res.rows, cells.length = res.fields.length
  fits : ∀ frame ∈ resultFrames res true, (frameBytes frame.1 frame.2).length < 2 ^ 31

/-- The messages a client is to read. -/
def wireMessages (res : PGresult) (sendHeader : Bool) : List RowMsg :=
  (if sendHeader ∧ 0 < res.fields.length then
    [.rowDescription (res.fields.map FieldDesc.wire)] else []) ++ res.rows.map .dataRow

/-- The message in the model of a session. -/
def RowMsg.toBackend : RowMsg → BackendMsg
  | .rowDescription columns => .rowDescription (columns.map ColumnDesc.desc)
  | .dataRow cells => .dataRow cells

/-- The messages are those the model of a session queues for the result. -/
theorem wireMessages_toBackend (res : PGresult) (sendHeader : Bool) :
    (wireMessages res sendHeader).map RowMsg.toBackend = rowMessages res sendHeader := by
  have hdesc : (res.fields.map FieldDesc.wire).map ColumnDesc.desc = res.fields := by
    rw [List.map_map]
    exact List.map_id _
  have hsome : (sendHeader ∧ 0 < res.fields.length) ↔ sendHeader ∧ res.fields ≠ [] := by
    rw [List.length_pos_iff]
  rw [wireMessages, rowMessages, List.map_append, List.map_map]
  congr 1
  by_cases hheader : sendHeader = true ∧ 0 < res.fields.length
  · rw [if_pos hheader, if_pos (hsome.mp hheader), List.map_singleton, RowMsg.toBackend, hdesc]
  · rw [if_neg hheader, if_neg fun h => hheader (hsome.mpr h)]
    rfl

section Result

variable {res : PGresult}

/-- The frame of the description. -/
theorem decodeFrame_description (hres : res.Encodable) :
    decodeFrame (84, descriptionPayload res.fields) =
      some (.rowDescription (res.fields.map FieldDesc.wire)) := by
  have hdecodes := decodes_counted hres.count fun field hfield => (hres.fields field hfield).decodes
  rw [decodeFrame, if_pos rfl, descriptionPayload, hdecodes.complete]
  rfl

/-- The frame of a row. -/
theorem decodeFrame_row (hres : res.Encodable) {cells : List (Option Text)}
    (hcells : cells ∈ res.rows) :
    decodeFrame (68, rowPayload res.fields.length cells) = some (.dataRow cells) := by
  have hfits := hres.fits (68, rowPayload res.fields.length cells)
    (List.mem_append_right _ (List.mem_map_of_mem hcells))
  rw [frameBytes_length, rowPayload, List.length_append] at hfits
  have hcell : ∀ cell ∈ cells, Decodes decodeCell (cellBytes cell) (id cell) := by
    intro cell hcell
    refine decodes_cell ?_
    rcases List.append_of_mem hcell with ⟨front, back, hsplit⟩
    rw [hsplit, List.flatMap_append, List.flatMap_cons, List.length_append,
      List.length_append] at hfits
    omega
  have hcount : cells.length < 2 ^ 15 := by
    rw [hres.rows cells hcells]
    exact hres.count
  have hdecodes := decodes_counted hcount hcell
  rw [hres.rows cells hcells, List.map_id] at hdecodes
  have htype : (68 : UInt8) ≠ 84 := by decide
  rw [decodeFrame, if_neg htype, if_pos rfl, rowPayload, hdecodes.complete]
  rfl

/-- The rows are decoded one by one. -/
theorem mapM_decodeFrame_rows (hres : res.Encodable) :
    ∀ rows : List (List (Option Text)), (∀ cells ∈ rows, cells ∈ res.rows) →
      (rows.map fun cells => ((68 : UInt8), rowPayload res.fields.length cells)).mapM decodeFrame =
        some (rows.map RowMsg.dataRow) := by
  intro rows hall
  induction rows with
  | nil => rfl
  | cons cells rows ih =>
      rw [List.map_cons, List.mapM_cons, decodeFrame_row hres (hall cells List.mem_cons_self),
        ih fun more hmore => hall more (List.mem_cons_of_mem _ hmore)]
      rfl

/-- All frames of a result. -/
theorem mapM_decodeFrame (hres : res.Encodable) (sendHeader : Bool) :
    (resultFrames res sendHeader).mapM decodeFrame = some (wireMessages res sendHeader) := by
  have hrows := mapM_decodeFrame_rows hres res.rows fun _ h => h
  unfold resultFrames wireMessages
  by_cases hheader : sendHeader = true ∧ 0 < res.fields.length
  · rw [if_pos hheader, if_pos hheader, List.singleton_append, List.mapM_cons,
      decodeFrame_description hres, hrows]
    rfl
  · rw [if_neg hheader, if_neg hheader]
    exact hrows

/-- The length of each payload fits its field. -/
theorem length_of_resultFrames (hres : res.Encodable) {sendHeader : Bool} {frame : UInt8 × Text}
    (hframe : frame ∈ resultFrames res sendHeader) : frame.2.length < 2 ^ 31 := by
  have hmem : frame ∈ resultFrames res true := by
    unfold resultFrames at hframe ⊢
    rcases List.mem_append.mp hframe with hhead | hrow
    · refine List.mem_append_left _ ?_
      split at hhead
      · rename_i hheader
        rw [if_pos ⟨rfl, hheader.2⟩]
        exact hhead
      · cases hhead
    · exact List.mem_append_right _ hrow
  have hfits := hres.fits frame hmem
  rw [frameBytes_length] at hfits
  omega

/-- A client reads the messages of the result from what is queued for it. -/
theorem decodeMessages_result (hres : res.Encodable) (sendHeader : Bool) :
    decodeMessages (framesBytes (resultFrames res sendHeader)) =
      some (wireMessages res sendHeader) := by
  have hsplit : splitFrames (framesBytes (resultFrames res sendHeader)) =
      (resultFrames res sendHeader, []) :=
    splitFrames_frames fun frame hframe => length_of_resultFrames hres hframe
  unfold decodeMessages
  dsimp only
  rw [hsplit]
  exact mapM_decodeFrame hres sendHeader

/-- The bytes that are queued say what the model of a session queues. -/
theorem sessionForwardResult_rowMessages (o : Outgoing) (hres : res.Encodable)
    (sendHeader : Bool) :
    ∃ queued msgs, (sessionForwardResult o res sendHeader).1.sendBuf.content =
        o.sendBuf.content ++ queued ∧
      decodeMessages queued = some msgs ∧
      msgs.map RowMsg.toBackend = rowMessages res sendHeader :=
  ⟨_, _, sessionForwardResult_content o res sendHeader, decodeMessages_result hres sendHeader,
    wireMessages_toBackend res sendHeader⟩

/-- From the bytes that are queued for a result with columns and its header a client reads one
RowDescription with the columns in order, and one DataRow with the same cells for each row in
order. -/
theorem result_read_back (o : Outgoing) (hres : res.Encodable) (hsome : 0 < res.fields.length) :
    ∃ queued, (sessionForwardResult o res true).1.sendBuf.content = o.sendBuf.content ++ queued ∧
      decodeMessages queued = some (.rowDescription (res.fields.map FieldDesc.wire) ::
        res.rows.map .dataRow) := by
  refine ⟨_, sessionForwardResult_content o res true, ?_⟩
  rw [decodeMessages_result hres, wireMessages, if_pos ⟨rfl, hsome⟩]
  rfl

end Result

/-- A result with NULL, an empty cell and a cell with a NUL, of columns without a size and
without a modifier. -/
def mixedResult : PGresult where
  status := .tuplesOk
  fields := [⟨ascii "id", 23, 4, -1⟩, ⟨ascii "note", 25, -1, -1⟩]
  rows := [[some (ascii "1"), none], [some [], some [97, 0, 98]]]

theorem mixedResult_encodable : mixedResult.Encodable where
  count := by decide
  fields := by
    intro field hfield
    rcases List.mem_cons.mp hfield with rfl | hfield
    · exact ⟨by decide +kernel, by decide, by decide, by decide⟩
    · rw [List.mem_singleton.mp hfield]
      exact ⟨by decide +kernel, by decide, by decide, by decide⟩
  rows := by decide +kernel
  fits := by decide +kernel

/-- NULL, the empty cell and the cell with a NUL are told apart. -/
theorem mixed_result_read_back :
    ∃ queued, (sessionForwardResult .start mixedResult true).1.sendBuf.content = [] ++ queued ∧
      decodeMessages queued = some [
        .rowDescription [⟨⟨ascii "id", 23, 4, -1⟩, 0, 0, 0⟩,
          ⟨⟨ascii "note", 25, -1, -1⟩, 0, 0, 0⟩],
        .dataRow [some (ascii "1"), none], .dataRow [some [], some [97, 0, 98]]] :=
  result_read_back .start mixedResult_encodable (by decide)

end Sharegres
