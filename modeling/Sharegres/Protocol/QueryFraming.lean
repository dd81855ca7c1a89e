import Mathlib.Data.List.TakeWhile
import Sharegres.Protocol.FeProtocol

/-!
# Protocol - The text of a Query frame

The loop over the receive buffer keeps a pointer to the text of a Query message, moves
the bytes behind the frame to the front of the buffer, and only then reads the text.
The text survives exactly if the bytes that were moved over it repeat it.

Main results:

- Theorem {lit}`cstring_consume`: the text behind the pointer after the move.
- Theorem {lit}`query_text_intact_iff`: when the text executed is the text received.
- Theorem {lit}`pipelinedQuery_garbled`: two pipelined queries where it is not.
-/

namespace Sharegres

open Foundation

/-! ## Texts in a buffer -/

/-- A C string is a given text exactly if that text and a NUL stand there. -/
theorem takeWhile_eq_iff_isPrefix {sql bytes : Text} (hclean : 0 ∉ sql)
    (hlength : sql.length < bytes.length) :
    bytes.takeWhile (· ≠ 0) = sql ↔ sql ++ [0] <+: bytes := by
  induction sql generalizing bytes with
  | nil =>
      cases bytes with
      | nil => simp at hlength
      | cons b bytes =>
          rw [List.takeWhile_cons, List.nil_append, List.cons_prefix_cons]
          by_cases hb : b = 0
          · simp [hb]
          · simp [hb, Ne.symm hb]
  | cons a sql ih =>
      rw [List.mem_cons, not_or] at hclean
      cases bytes with
      | nil => simp at hlength
      | cons b bytes =>
          have hshort : sql.length < bytes.length := by simpa using hlength
          rw [List.takeWhile_cons, List.cons_append, List.cons_prefix_cons,
            ← ih hclean.2 hshort]
          by_cases hb : b = 0
          · simp [hb, Ne.symm hclean.1]
          · simp [hb, eq_comm]

/-- Bytes written over the front of a text leave it as a front exactly if they repeat
it. -/
theorem isPrefix_overwrite (text moved behind : Text) :
    text <+: moved ++ (text ++ behind).drop moved.length ↔ moved.take text.length <+: text := by
  have hfront : (moved ++ (text ++ behind).drop moved.length).take text.length =
      moved.take text.length ++ text.drop moved.length := by
    rw [List.take_append, List.take_drop]
    congr 1
    by_cases hle : moved.length ≤ text.length
    · rw [Nat.add_sub_cancel' hle, List.take_left]
    · rw [Nat.sub_eq_zero_of_le (by omega), List.drop_of_length_le (by simp),
        List.drop_of_length_le (by omega)]
  constructor
  · intro hprefix
    have htext := List.prefix_iff_eq_take.mp hprefix
    rw [hfront] at htext
    exact ⟨_, htext.symm⟩
  · intro hprefix
    rw [List.prefix_iff_eq_take, hfront]
    have hover := List.prefix_iff_eq_take.mp hprefix
    rw [List.length_take] at hover
    by_cases hle : moved.length ≤ text.length
    · rw [min_eq_right hle] at hover
      rw [hover, List.take_append_drop]
    · rw [min_eq_left (by omega), List.take_length] at hover
      rw [hover, List.drop_of_length_le (by omega), List.append_nil]

/-! ## The frame -/

/-- A 32 bit number in network order. -/
def be32Bytes (n : Nat) : Text :=
  [UInt8.ofNat (n / 2 ^ 24), UInt8.ofNat (n / 2 ^ 16), UInt8.ofNat (n / 2 ^ 8), UInt8.ofNat n]

/-- A Query message with its payload. -/
def queryFrame (payload : Text) : Text :=
  81 :: be32Bytes (payload.length + 4) ++ payload

/-- The content of the buffer is a complete Query message, whose payload is a text
ended by NUL, and further bytes. -/
structure QueryFirst (rb : RecvBuf) (sql junk following : Text) : Prop where
  content : rb.data.take rb.len = queryFrame (sql ++ 0 :: junk) ++ following
  clean : 0 ∉ sql
  fits : (sql ++ 0 :: junk).length + 4 < 2 ^ 32

variable {rb : RecvBuf} {sql junk following : Text}

theorem queryFrame_length (payload : Text) : (queryFrame payload).length = payload.length + 5 := by
  simp [queryFrame, be32Bytes]

namespace QueryFirst

/-- The whole allocation. -/
theorem data_eq (h : QueryFirst rb sql junk following) :
    rb.data = queryFrame (sql ++ 0 :: junk) ++ following ++ rb.data.drop rb.len := by
  rw [← h.content, List.take_append_drop]

theorem len_eq (h : QueryFirst rb sql junk following) :
    rb.len = (sql ++ 0 :: junk).length + 5 + following.length := by
  have hlen := congrArg List.length h.content
  rw [List.length_take, Nat.min_eq_left rb.inBounds, List.length_append,
    queryFrame_length] at hlen
  exact hlen

theorem byte_zero (h : QueryFirst rb sql junk following) : rb.byte 0 = 81 := by
  unfold RecvBuf.byte
  rw [h.data_eq]
  rfl

/-- The length field. -/
theorem be32_one (h : QueryFirst rb sql junk following) :
    rb.be32 1 = (sql ++ 0 :: junk).length + 4 := by
  have hfits := h.fits
  have hdata := h.data_eq
  generalize sql ++ 0 :: junk = payload at hdata hfits
  unfold RecvBuf.be32 RecvBuf.byte
  rw [hdata]
  simp only [queryFrame, be32Bytes, List.cons_append, List.nil_append, List.getD_cons_succ,
    List.getD_cons_zero, UInt8.toNat_ofNat']
  omega

/-- What stands behind the header. -/
theorem drop_header (h : QueryFirst rb sql junk following) :
    rb.data.drop 5 = (sql ++ [0]) ++ (junk ++ following ++ rb.data.drop rb.len) := by
  conv_lhs => rw [h.data_eq]
  simp [queryFrame, be32Bytes]

end QueryFirst

/-- The allocation after the content behind the frame was moved to the front, from the
place where the text of the query stood. -/
theorem drop_consume (h : QueryFirst rb sql junk following) :
    ((rb.consume ((sql ++ 0 :: junk).length + 5)).data.drop 5) =
      following.drop 5 ++
        ((sql ++ [0]) ++ (junk ++ following ++ rb.data.drop rb.len)).drop
          (following.drop 5).length := by
  have hlen := h.len_eq
  have hmoved : (rb.data.drop ((sql ++ 0 :: junk).length + 5)).take
      (rb.len - ((sql ++ 0 :: junk).length + 5)) = following := by
    rw [List.take_drop, Nat.add_sub_cancel' (by omega), h.content, List.drop_left']
    exact queryFrame_length _
  have hrest : rb.len - ((sql ++ 0 :: junk).length + 5) = following.length := by omega
  unfold RecvBuf.consume
  dsimp only
  rw [hmoved, hrest, List.drop_append, ← h.drop_header, List.drop_drop, List.drop_drop,
    List.length_drop]
  congr 2
  omega

/-- The text behind the pointer is the query's exactly if the moved bytes repeat what
they replace. -/
theorem cstring_consume (h : QueryFirst rb sql junk following) :
    (rb.consume ((sql ++ 0 :: junk).length + 5)).cstring 5 = sql ↔
      (following.drop 5).take (sql.length + 1) <+: sql ++ [0] := by
  unfold RecvBuf.cstring
  rw [drop_consume h, takeWhile_eq_iff_isPrefix h.clean, isPrefix_overwrite]
  · simp
  · simp only [List.length_append, List.length_drop, List.length_cons, List.length_nil]
    omega

/-- Without a move the text behind the pointer is the query's. -/
theorem cstring_unmoved (h : QueryFirst rb sql junk following) :
    (rb.consume 0).cstring 5 = sql := by
  have hsame : (rb.consume 0).data = rb.data := by
    simp [RecvBuf.consume]
  unfold RecvBuf.cstring
  rw [hsame, takeWhile_eq_iff_isPrefix h.clean, h.drop_header]
  · exact List.prefix_append _ _
  · rw [h.drop_header]
    simp only [List.length_append, List.length_cons, List.length_nil]
    omega

/-! ## The query handled -/

/-- {lit}`fe_protocol_process` calls {lit}`handle_query` with the text. -/
def CallsHandleQuery (puts : Nat → PutOutcome) (rounds : Nat) (s : Session) (sql : Text) : Prop :=
  ∃ s', feProtocolProcess puts rounds 0 s = some (.query s' sql)

/-- The first round on a Query frame: it is refused for its length, or the query is
read from the buffer after the move. -/
theorem feProtocolRound_query {s : Session} (outcome : PutOutcome) (hstate : s.state = .ready)
    (h : QueryFirst s.recvBuf sql junk following) :
    feProtocolRound outcome s =
      if 16 * 1024 * 1024 < ((sql ++ 0 :: junk).length + 5) % 2 ^ 32 then .ret s false
      else
        .query { s with recvBuf := s.recvBuf.consume (((sql ++ 0 :: junk).length + 5) % 2 ^ 32) }
          ((s.recvBuf.consume (((sql ++ 0 :: junk).length + 5) % 2 ^ 32)).cstring 5) := by
  have hlen := h.len_eq
  have htotal : (1 + s.recvBuf.be32 1) % 2 ^ 32 = ((sql ++ 0 :: junk).length + 5) % 2 ^ 32 := by
    rw [h.be32_one]
    congr 1
    omega
  have hcomplete : ((sql ++ 0 :: junk).length + 5) % 2 ^ 32 ≤ s.recvBuf.len :=
    le_trans (Nat.mod_le _ _) (by omega)
  unfold feProtocolRound
  simp only [hstate, reduceCtorEq, if_false, or_self]
  rw [if_neg (by omega), htotal]
  by_cases hlarge : 16 * 1024 * 1024 < ((sql ++ 0 :: junk).length + 5) % 2 ^ 32
  · rw [if_pos (Or.inr hlarge), if_pos hlarge]
  · rw [if_neg, if_neg (by omega), if_neg hlarge, h.byte_zero]
    · simp [handleFrame, hstate]
    · rw [h.be32_one]
      omega

/-- A frame of admissible length is handled with the text that stands behind the
pointer after the move. -/
theorem callsHandleQuery_iff {s : Session} (puts : Nat → PutOutcome) (rounds : Nat)
    (hstate : s.state = .ready) (h : QueryFirst s.recvBuf sql junk following)
    (hsmall : (sql ++ 0 :: junk).length + 5 ≤ 16 * 1024 * 1024) (text : Text) :
    CallsHandleQuery puts (rounds + 1) s text ↔
      (s.recvBuf.consume ((sql ++ 0 :: junk).length + 5)).cstring 5 = text := by
  have hlen := h.len_eq
  unfold CallsHandleQuery feProtocolProcess
  rw [if_neg (by omega), feProtocolRound_query (puts 0) hstate h, Nat.mod_eq_of_lt (by omega),
    if_neg (by omega)]
  simp

/-- The query handled has exactly the text of the first frame if the frame is of
admissible length and the bytes behind it, where they are moved over the text, repeat
it; or if the length field is the largest 32 bit number, since nothing is moved then. -/
theorem query_text_intact_iff {s : Session} (puts : Nat → PutOutcome) (rounds : Nat)
    (hstate : s.state = .ready) (h : QueryFirst s.recvBuf sql junk following) :
    CallsHandleQuery puts (rounds + 1) s sql ↔
      ((sql ++ 0 :: junk).length + 5 ≤ 16 * 1024 * 1024 ∧
        (following.drop 5).take (sql.length + 1) <+: sql ++ [0]) ∨
      (sql ++ 0 :: junk).length + 4 = 2 ^ 32 - 1 := by
  have hfits := h.fits
  have hlen := h.len_eq
  by_cases hsmall : (sql ++ 0 :: junk).length + 5 ≤ 16 * 1024 * 1024
  · rw [callsHandleQuery_iff puts rounds hstate h hsmall, cstring_consume h]
    constructor
    · intro hrepeats
      exact Or.inl ⟨hsmall, hrepeats⟩
    · rintro (⟨-, hrepeats⟩ | hmax)
      · exact hrepeats
      · omega
  · unfold CallsHandleQuery feProtocolProcess
    rw [if_neg (by omega), feProtocolRound_query (puts 0) hstate h]
    by_cases hwrap : (sql ++ 0 :: junk).length + 4 = 2 ^ 32 - 1
    · have htotal : ((sql ++ 0 :: junk).length + 5) % 2 ^ 32 = 0 := by omega
      rw [htotal, if_neg (by omega), cstring_unmoved h]
      exact iff_of_true ⟨_, rfl⟩ (Or.inr hwrap)
    · rw [Nat.mod_eq_of_lt (by omega), if_pos (by omega)]
      apply iff_of_false
      · rintro ⟨s', heq⟩
        cases heq
      · rintro (⟨hle, -⟩ | hmax)
        · exact hsmall hle
        · exact hwrap hmax

/-- A session that has received a Query message and further bytes. -/
def pipelinedSession (following : Text) : Session :=
  { id := 0
    state := .ready
    recvBuf := RecvBuf.empty.receive (queryFrame (ascii "SELECT 1" ++ [0]) ++ following) }

theorem pipelinedSession_queryFirst (following : Text) :
    QueryFirst (pipelinedSession following).recvBuf (ascii "SELECT 1") [] following where
  content := by
    simp only [pipelinedSession, RecvBuf.empty, RecvBuf.receive, List.take_nil, List.drop_nil,
      List.nil_append, List.append_nil, Nat.zero_add, List.take_length]
  clean := by decide +kernel
  fits := by decide +kernel

/-- A Query followed by Terminate in one packet is handled with its own text. -/
theorem query_then_terminate_intact :
    CallsHandleQuery (fun _ => .queued) 1 (pipelinedSession [88, 0, 0, 0, 4])
      (ascii "SELECT 1") :=
  (query_text_intact_iff (fun _ => .queued) 0 rfl
    (pipelinedSession_queryFirst [88, 0, 0, 0, 4])).mpr (by decide +kernel)

/-- Of two pipelined queries of equal length the first is handled with the text of the
second. -/
theorem pipelinedQuery_garbled :
    CallsHandleQuery (fun _ => .queued) 1
        (pipelinedSession (queryFrame (ascii "SELECT 2" ++ [0]))) (ascii "SELECT 2") ∧
      ¬ CallsHandleQuery (fun _ => .queued) 1
        (pipelinedSession (queryFrame (ascii "SELECT 2" ++ [0]))) (ascii "SELECT 1") := by
  have hfirst := pipelinedSession_queryFirst (queryFrame (ascii "SELECT 2" ++ [0]))
  have hsmall : (ascii "SELECT 1" ++ 0 :: []).length + 5 ≤ 16 * 1024 * 1024 := by decide +kernel
  rw [callsHandleQuery_iff _ 0 rfl hfirst hsmall, callsHandleQuery_iff _ 0 rfl hfirst hsmall]
  decide +kernel

end Sharegres
