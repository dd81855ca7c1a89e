import Sharegres.Protocol.MessageReading
import Sharegres.Protocol.QueryFraming
import Sharegres.Session.Actions

/-!
# Session - A copy from the client

The client sends CopyData messages and a CopyDone or CopyFail, in any number of reads, and
the session hands each of them to {lit}`PQputCopyData` or {lit}`PQputCopyEnd`.  These
answer 1 if the message was queued, -1 if they failed, and 0 if the connection has no room
for it at the moment.  The session treats 0 like 1.

Main results:

- Definition {lit}`CopyFaithful`: nothing of the copy is lost, and the end of the copy is
  awaited only after it was queued.
- Theorem {lit}`copy_loop`: what the loop over the receive buffer does in a copy.
- Theorem {lit}`copy_faithful_iff`: a copy loses nothing if and only if the socket is read since it
  started, and no answer is 0, but for empty data or in a session that ends.
- Theorem {lit}`full_answer_loses`: a copy whose data are dropped.
-/

namespace Sharegres

open Foundation

/-! ## Messages of a copy -/

namespace CopyPut

/-- The type of the client's message. -/
def type : CopyPut → UInt8
  | .data _ => 100
  | .done => 99
  | .fail _ => 102

/-- What the message carries. -/
def payload : CopyPut → Text
  | .data payload => payload
  | .done => []
  | .fail message => message ++ [0]

/-- The client's message. -/
def bytes (put : CopyPut) : Text :=
  frameBytes put.type put.payload

/-- The state behind the message. -/
def after : CopyPut → SessionState
  | .data _ => .copyIn
  | _ => .query

/-- The message can be sent: its text has no NUL, and its length field is below 2^32 - 1. -/
def Sendable (put : CopyPut) : Prop :=
  put.bytes.length < 2 ^ 32 ∧ ∀ message, put = .fail message → 0 ∉ message

theorem bytes_length (put : CopyPut) : put.bytes.length = 5 + put.payload.length :=
  frameBytes_length put.type put.payload

end CopyPut

/-- What a client sends in a copy. -/
structure CopyLoad where
  payloads : List Text
  ending : CopyPut
  ends : ∀ payload, ending ≠ .data payload
  sendable : ∀ put ∈ payloads.map .data ++ [ending], put.Sendable

/-- The messages in their order. -/
def copyMessages (payloads : List Text) (ending : CopyPut) : List CopyPut :=
  payloads.map .data ++ [ending]

/-- The bytes of messages. -/
def copyBytes (messages : List CopyPut) : Text :=
  messages.flatMap CopyPut.bytes

/-- The bytes the client sends. -/
def CopyLoad.bytes (load : CopyLoad) : Text :=
  copyBytes (copyMessages load.payloads load.ending)

/-! ## Nothing is lost -/

/-- The calls that were answered 1. -/
def acceptedPuts (puts : List (CopyPut × PutOutcome)) : List CopyPut :=
  (puts.filter fun p => p.2 = .queued).map Prod.fst

/-- The data accepted are the data sent, in order, and are followed by one end. -/
def Delivered (load : CopyLoad) (puts : List (CopyPut × PutOutcome)) : Prop :=
  ∃ pieces : List Text, acceptedPuts puts = copyMessages pieces load.ending ∧
    pieces.flatten = load.payloads.flatten

/-- The calls since a copy started. -/
def newPuts (s₀ s : Session) : List (CopyPut × PutOutcome) :=
  s.copyPuts.drop s₀.copyPuts.length

/-- Once the client has sent everything, the copy is delivered or the client knows that it is
not, and the end is awaited only after it was accepted. -/
structure CopyFaithful (load : CopyLoad) (s₀ : Session) (received : Text) (s : Session) :
    Prop where
  delivered : load.bytes <+: received →
    s.closed = true ∨ (∃ q ∈ s.out.drop s₀.out.length, q.msg.isError = true) ∨
      Delivered load (newPuts s₀ s)
  accepted : s.state = .query → (load.ending, .queued) ∈ newPuts s₀ s

/-- A message was not queued, and nobody was told. -/
def Lossy (s : Session) (p : CopyPut × PutOutcome) : Prop :=
  p.2 = .full ∧ ¬ ∃ payload, p.1 = .data payload ∧ (payload = [] ∨ s.closed = true)

/-- Once the client has sent everything, the socket was read since the copy started, unless the
session has ended, and no message was lost. -/
def NothingDropped (load : CopyLoad) (s₀ : Session) (read : Bool) (received : Text)
    (s : Session) : Prop :=
  load.bytes <+: received →
    (s.closed = false → read = true) ∧ ∀ p ∈ newPuts s₀ s, ¬ Lossy s p

/-- The data that was put. -/
theorem acceptedPuts_data {taken : List (CopyPut × PutOutcome)} {payloads : List Text}
    (htaken : taken.map Prod.fst = payloads.map .data) :
    ∃ pieces : List Text, acceptedPuts taken = pieces.map .data ∧
      pieces.flatten.length ≤ payloads.flatten.length ∧
      ((∀ p ∈ taken, p.2 ≠ .failed) →
        (pieces.flatten = payloads.flatten ↔ ∀ p ∈ taken, p.2 = .full → p.1 = .data [])) := by
  induction taken generalizing payloads with
  | nil =>
      cases payloads with
      | nil => exact ⟨[], rfl, Nat.le_refl _, by simp⟩
      | cons payload payloads => cases htaken
  | cons p taken ih =>
      cases payloads with
      | nil => cases htaken
      | cons payload payloads =>
          rw [List.map_cons, List.map_cons, List.cons.injEq] at htaken
          rcases ih htaken.2 with ⟨pieces, haccepted, hlength, hiff⟩
          rcases p with ⟨put, outcome⟩
          have hput : put = .data payload := htaken.1
          cases outcome with
          | queued =>
              refine ⟨payload :: pieces, ?_, ?_, fun hkept => ?_⟩
              · rw [acceptedPuts, List.filter_cons_of_pos (by simp), List.map_cons, List.map_cons,
                  ← haccepted, hput]
                rfl
              · rw [List.flatten_cons, List.flatten_cons, List.length_append, List.length_append]
                omega
              · rw [List.flatten_cons, List.flatten_cons, List.append_right_inj,
                  hiff fun q hq => hkept q (List.mem_cons_of_mem _ hq)]
                simp
          | full =>
              refine ⟨pieces, ?_, ?_, fun hkept => ?_⟩
              · rw [acceptedPuts, List.filter_cons_of_neg (by simp), ← haccepted]
                rfl
              · rw [List.flatten_cons, List.length_append]
                omega
              · rw [List.flatten_cons]
                have hrest := hiff fun q hq => hkept q (List.mem_cons_of_mem _ hq)
                constructor
                · intro hsame
                  have hempty : payload = [] := by
                    have hlen := congrArg List.length hsame
                    rw [List.length_append] at hlen
                    exact List.length_eq_zero_iff.mp (by omega)
                  subst hempty
                  rw [List.nil_append] at hsame
                  intro q hq hfull
                  rcases List.mem_cons.mp hq with rfl | hq
                  · exact hput
                  · exact hrest.mp hsame q hq hfull
                · intro hall
                  have hempty : CopyPut.data payload = .data [] :=
                    hput.symm.trans (hall _ (List.mem_cons_self ..) rfl)
                  rw [CopyPut.data.injEq] at hempty
                  rw [hempty, List.nil_append]
                  exact hrest.mpr fun q hq => hall q (List.mem_cons_of_mem _ hq)
          | failed =>
              refine ⟨pieces, ?_, ?_, fun hkept => absurd rfl (hkept _ (List.mem_cons_self ..))⟩
              · rw [acceptedPuts, List.filter_cons_of_neg (by simp), ← haccepted]
                rfl
              · rw [List.flatten_cons, List.length_append]
                omega

/-- The call for the end is the last one. -/
theorem puts_ending {puts : List (CopyPut × PutOutcome)} {payloads : List Text}
    {ending : CopyPut} (hputs : puts.map Prod.fst = copyMessages payloads ending) :
    ∃ taken outcome, puts = taken ++ [(ending, outcome)] ∧
      taken.map Prod.fst = payloads.map .data := by
  rcases List.map_eq_append_iff.mp hputs with ⟨taken, last, rfl, htaken, hlast⟩
  rcases List.map_eq_singleton_iff.mp hlast with ⟨⟨put, outcome⟩, rfl, rfl⟩
  exact ⟨taken, outcome, rfl, htaken⟩

/-- The calls for all messages deliver them if and only if only calls for empty data were
answered 0. -/
theorem delivered_iff {load : CopyLoad} {puts : List (CopyPut × PutOutcome)}
    (hputs : puts.map Prod.fst = copyMessages load.payloads load.ending)
    (hkept : ∀ p ∈ puts, p.2 ≠ .failed) :
    Delivered load puts ↔ ∀ p ∈ puts, p.2 = .full → p.1 = .data [] := by
  rcases puts_ending hputs with ⟨taken, outcome, rfl, htaken⟩
  rcases acceptedPuts_data htaken with ⟨pieces, haccepted, -, hiff⟩
  have hsame := hiff fun p hp => hkept p (List.mem_append_left _ hp)
  have hsplit : acceptedPuts (taken ++ [(load.ending, outcome)]) =
      pieces.map .data ++ if outcome = .queued then [load.ending] else [] := by
    rw [← haccepted, acceptedPuts, List.filter_append, List.map_append]
    by_cases houtcome : outcome = .queued <;> simp [acceptedPuts, houtcome]
  have hlastKept : outcome ≠ .failed := hkept (load.ending, outcome) (by simp)
  constructor
  · rintro ⟨pieces', hall, hflat⟩
    rw [hsplit, copyMessages] at hall
    by_cases hqueued : outcome = .queued
    · rw [if_pos hqueued, List.append_left_inj] at hall
      have hdata : Function.Injective CopyPut.data := fun _ _ h => by injection h
      rw [← List.map_injective_iff.mpr hdata hall] at hflat
      intro p hp hfull
      rcases List.mem_append.mp hp with hp | hp
      · exact hsame.mp hflat p hp hfull
      · rw [List.mem_singleton.mp hp, hqueued] at hfull
        cases hfull
    · -- an end that was not accepted is not among the data
      rw [if_neg hqueued, List.append_nil] at hall
      have hmem : load.ending ∈ pieces.map CopyPut.data := by
        rw [hall]
        simp
      rcases List.mem_map.mp hmem with ⟨payload, -, hdata⟩
      exact absurd hdata.symm (load.ends payload)
  · intro hfull
    have hqueued : outcome = .queued := by
      cases outcome with
      | queued => rfl
      | full => exact absurd (hfull (load.ending, .full) (by simp) rfl) (load.ends [])
      | failed => exact absurd rfl hlastKept
    refine ⟨pieces, ?_, hsame.mpr fun p hp => hfull p (List.mem_append_left _ hp)⟩
    rw [hsplit, if_pos hqueued, copyMessages]

/-! ## One message -/

/-- The session after messages were handed on. -/
def Session.took (s : Session) (taken : List (CopyPut × PutOutcome)) (state : SessionState)
    (rb : RecvBuf) : Session :=
  { s with copyPuts := s.copyPuts ++ taken, state := state, recvBuf := rb }

theorem Session.took_nil {s : Session} {state : SessionState} (hstate : s.state = state) :
    s.took [] state s.recvBuf = s := by
  rw [took, List.append_nil, ← hstate]

/-- One message after the other. -/
theorem Session.took_took (s : Session) (taken more : List (CopyPut × PutOutcome))
    (state state' : SessionState) (rb rb' : RecvBuf) :
    (s.took taken state rb).took more state' rb' = s.took (taken ++ more) state' rb' := by
  rw [took, took, took, List.append_assoc]

section Rounds

variable {s : Session} {put : CopyPut} {rest : Text}

/-- The call made for a message is the one it asks for. -/
theorem copyPut_eq (hsend : put.Sendable) (hlength : put.payload.length < 2 ^ 31)
    (hcontent : s.recvBuf.content = put.bytes ++ rest) :
    copyPut s.recvBuf put.type put.payload.length = put := by
  have hdata : s.recvBuf.data = s.recvBuf.content ++ s.recvBuf.data.drop s.recvBuf.len :=
    (List.take_append_drop ..).symm
  generalize s.recvBuf.data.drop s.recvBuf.len = stale at hdata
  have hdrop : s.recvBuf.data.drop 5 = put.payload ++ (rest ++ stale) := by
    rw [hdata, hcontent]
    change put.payload ++ rest ++ stale = _
    rw [List.append_assoc]
  cases put with
  | data payload =>
      rw [copyPut, CopyPut.type, if_pos rfl, hdrop, Int32.toInt_ofNat_of_lt hlength,
        Int.toNat_natCast]
      exact congrArg CopyPut.data List.take_left
  | done => rfl
  | fail message =>
      have hclean := hsend.2 message rfl
      rw [copyPut, CopyPut.type, if_neg (by decide), if_neg (by decide),
        if_pos (by simp [CopyPut.payload]), RecvBuf.cstring, hdrop]
      congr 1
      rw [takeWhile_eq_iff_isPrefix hclean (by simp [CopyPut.payload])]
      exact ⟨rest ++ stale, rfl⟩

/-- A part of a message is left in the buffer, or it is too long. -/
theorem round_short (outcome : PutOutcome) {type : UInt8} {payload : Text}
    (hinit : s.state ≠ .init) (hbusy : s.state.busy = false)
    (hfits : (frameBytes type payload).length < 2 ^ 32)
    (hpart : s.recvBuf.content <+: frameBytes type payload ++ rest)
    (hshort : s.recvBuf.content.length < (frameBytes type payload).length) :
    ∃ ok, feProtocolRound outcome s = .ret s ok ∧
      (ok = false → 16 * 1024 * 1024 < (frameBytes type payload).length) := by
  have hsize := frameBytes_length type payload
  rw [RecvBuf.content_length] at hshort
  unfold feProtocolRound
  dsimp only
  rw [if_neg hinit, if_neg (by simpa [SessionState.busy] using hbusy)]
  by_cases hfive : s.recvBuf.len < 5
  · exact ⟨true, if_pos hfive, by simp⟩
  · have hlength : s.recvBuf.be32 1 = payload.length + 4 := by
      rcases hpart with ⟨more, hmore⟩
      rw [← RecvBuf.be32_content (by omega), ← be32At_frameBytes type (by omega) rest, ← hmore,
        be32At_append (by rw [RecvBuf.content_length]; omega)]
    rw [if_neg hfive, hlength, Nat.mod_eq_of_lt (by omega)]
    by_cases hlong : payload.length + 4 < 4 ∨ 16 * 1024 * 1024 < 1 + (payload.length + 4)
    · exact ⟨false, if_pos hlong, fun _ => by omega⟩
    · exact ⟨true, (if_neg hlong).trans (if_pos (by omega)), by simp⟩

/-- A whole message is handled, unless it is too long. -/
theorem round_frame (outcome : PutOutcome) {type : UInt8} {payload : Text}
    (hinit : s.state ≠ .init) (hbusy : s.state.busy = false)
    (hfits : (frameBytes type payload).length < 2 ^ 32)
    (hcontent : s.recvBuf.content = frameBytes type payload ++ rest) :
    feProtocolRound outcome s =
      if 16 * 1024 * 1024 < (frameBytes type payload).length then .ret s false
      else handleFrame type (payload.length + 4) (frameBytes type payload).length outcome s := by
  have hsize := frameBytes_length type payload
  have hlen : (frameBytes type payload).length ≤ s.recvBuf.len := by
    rw [← s.recvBuf.content_length, hcontent, List.length_append]
    exact Nat.le_add_right _ _
  have hlength : s.recvBuf.be32 1 = payload.length + 4 := by
    rw [← RecvBuf.be32_content (by omega), hcontent, be32At_frameBytes type (by omega)]
  have htype : s.recvBuf.byte 0 = type := by
    rw [← RecvBuf.byte_content (by omega), hcontent]
    rfl
  unfold feProtocolRound
  dsimp only
  rw [if_neg hinit, if_neg (by simpa [SessionState.busy] using hbusy), if_neg (by omega), hlength,
    htype, Nat.mod_eq_of_lt (by omega), show 1 + (payload.length + 4) =
      (frameBytes type payload).length by omega]
  by_cases hlong : 16 * 1024 * 1024 < (frameBytes type payload).length
  · rw [if_pos (Or.inr hlong), if_pos hlong]
  · rw [if_neg (by omega), if_neg (by omega), if_neg hlong]

/-- A whole message is handed on, unless it is too long. -/
theorem round_put (outcome : PutOutcome) (hcopy : s.state = .copyIn)
    (hconn : s.backendConn ≠ none) (hsend : put.Sendable)
    (hcontent : s.recvBuf.content = put.bytes ++ rest) :
    feProtocolRound outcome s = .ret s false ∨
      outcome = .failed ∧ feProtocolRound outcome s =
        .ret (s.took [(put, outcome)] .copyIn (s.recvBuf.consume put.bytes.length)) false ∨
      outcome ≠ .failed ∧ feProtocolRound outcome s =
        .next (s.took [(put, outcome)] put.after (s.recvBuf.consume put.bytes.length)) := by
  have hsize : put.bytes.length = _ := frameBytes_length put.type put.payload
  have hround := round_frame outcome (by simp [hcopy]) (by simp [hcopy, SessionState.busy])
    hsend.1 hcontent
  rw [← CopyPut.bytes] at hround
  by_cases hlong : 16 * 1024 * 1024 < put.bytes.length
  · exact Or.inl (hround.trans (if_pos hlong))
  · right
    have hcall := copyPut_eq hsend (by omega) hcontent
    rw [hround, if_neg hlong, handleFrame, if_pos hcopy,
      if_pos (by cases put <;> simp [CopyPut.type]), copyHandleClientMessage, if_neg hconn,
      Nat.add_sub_cancel, hcall]
    dsimp only
    by_cases hfailed : outcome = .failed
    · left
      rw [if_pos hfailed, Session.took, ← hcopy]
      exact ⟨hfailed, rfl⟩
    · right
      rw [if_neg hfailed]
      refine ⟨hfailed, ?_⟩
      cases put with
      | data payload =>
          rw [CopyPut.type, if_pos rfl, Session.took, CopyPut.after, ← hcopy]
      | done => rfl
      | fail message => rfl

end Rounds

/-! ## The loop -/

/-- How far the messages in a content were handed on: up to a message that is not there yet,
up to the end, or up to a message that failed. -/
inductive Took (payloads : List Text) (ending : CopyPut) (content : Text) :
    List (CopyPut × PutOutcome) → SessionState → Text → Bool → Prop where
  | waits (front later : List Text) (taken : List (CopyPut × PutOutcome)) (rest : Text)
      (hpayloads : payloads = front ++ later) (htaken : taken.map Prod.fst = front.map .data)
      (hkept : ∀ p ∈ taken, p.2 ≠ .failed)
      (hcontent : content = copyBytes (front.map .data) ++ rest)
      (hshort : rest.length < (copyBytes (copyMessages later ending)).length) :
      Took payloads ending content taken .copyIn rest true
  | ends (taken : List (CopyPut × PutOutcome)) (rest : Text)
      (htaken : taken.map Prod.fst = copyMessages payloads ending)
      (hkept : ∀ p ∈ taken, p.2 ≠ .failed)
      (hcontent : content = copyBytes (copyMessages payloads ending) ++ rest) :
      Took payloads ending content taken .query rest true
  | fails (taken : List (CopyPut × PutOutcome)) (rest : Text)
      (hdata : ∀ p ∈ taken, p.2 = .failed ∨ ∃ payload, p.1 = .data payload) :
      Took payloads ending content taken .copyIn rest false

theorem copyBytes_cons (put : CopyPut) (messages : List CopyPut) :
    copyBytes (put :: messages) = put.bytes ++ copyBytes messages :=
  List.flatMap_cons

theorem copyBytes_singleton (put : CopyPut) : copyBytes [put] = put.bytes :=
  List.flatMap_singleton ..

theorem copyBytes_append (messages more : List CopyPut) :
    copyBytes (messages ++ more) = copyBytes messages ++ copyBytes more :=
  List.flatMap_append

theorem copyMessages_cons (payload : Text) (payloads : List Text) (ending : CopyPut) :
    copyMessages (payload :: payloads) ending = .data payload :: copyMessages payloads ending :=
  rfl

theorem copyMessages_append (front later : List Text) (ending : CopyPut) :
    copyMessages (front ++ later) ending = front.map .data ++ copyMessages later ending := by
  rw [copyMessages, copyMessages, List.map_append, List.append_assoc]

namespace Took

variable {payloads : List Text} {ending : CopyPut} {content : Text}
  {taken : List (CopyPut × PutOutcome)} {state : SessionState} {rest : Text} {ok : Bool}

/-- More messages are handed on behind data that were. -/
theorem append {front : List Text} {before : List (CopyPut × PutOutcome)}
    (hbefore : before.map Prod.fst = front.map .data) (hkept : ∀ p ∈ before, p.2 ≠ .failed)
    (h : Took payloads ending content taken state rest ok) :
    Took (front ++ payloads) ending (copyBytes (front.map .data) ++ content) (before ++ taken)
      state rest ok := by
  have hall : ∀ {more : List (CopyPut × PutOutcome)}, (∀ p ∈ more, p.2 ≠ .failed) →
      ∀ p ∈ before ++ more, p.2 ≠ .failed := by
    intro more hmore p hp
    rcases List.mem_append.mp hp with hp | hp
    · exact hkept p hp
    · exact hmore p hp
  cases h with
  | waits front' later _ _ hpayloads htaken hkept' hcontent hshort =>
      refine waits (front ++ front') later _ _ ?_ ?_ (hall hkept') ?_ hshort
      · rw [hpayloads, List.append_assoc]
      · rw [List.map_append, List.map_append, hbefore, htaken]
      · rw [hcontent, List.map_append, copyBytes_append, List.append_assoc]
  | ends _ _ htaken hkept' hcontent =>
      refine ends _ _ ?_ (hall hkept') ?_
      · rw [List.map_append, hbefore, htaken, copyMessages_append]
      · rw [hcontent, copyMessages_append, copyBytes_append, List.append_assoc]
  | fails _ _ hdata =>
      refine fails _ _ fun p hp => ?_
      rcases List.mem_append.mp hp with hp | hp
      · have hmem : p.1 ∈ front.map CopyPut.data := hbefore ▸ List.mem_map_of_mem hp
        rcases List.mem_map.mp hmem with ⟨payload, -, hput⟩
        exact Or.inr ⟨payload, hput.symm⟩
      · exact hdata p hp

end Took

/-- A message in front of a stream is there or not. -/
theorem part_cases {content front behind : Text} (hpart : content <+: front ++ behind) :
    content.length < front.length ∨ ∃ rest, content = front ++ rest ∧ rest <+: behind := by
  rcases Nat.lt_or_ge content.length front.length with hshort | hlong
  · exact Or.inl hshort
  · right
    rcases List.prefix_of_prefix_length_le (List.prefix_append front behind) hpart hlong with
      ⟨rest, rfl⟩
    exact ⟨rest, rfl, (List.prefix_append_right_inj front).mp hpart⟩

section Loop

variable (puts : Nat → PutOutcome) (k : Nat) {s : Session} {payloads : List Text}
  {ending put : CopyPut} {later : List CopyPut} {rest : Text}

/-- The first message is not there yet, or is too long. -/
theorem copy_wait (hmessages : copyMessages payloads ending = put :: later)
    (hsend : put.Sendable) (hcopy : s.state = .copyIn)
    (hpart : s.recvBuf.content <+: put.bytes ++ rest)
    (hshort : s.recvBuf.content.length < put.bytes.length) :
    ∃ ok, Took payloads ending s.recvBuf.content [] .copyIn s.recvBuf.content ok ∧
      ∀ more, feProtocolProcess puts (more + 1) k s = some (.ret s ok) := by
  have hwaits : Took payloads ending s.recvBuf.content [] .copyIn s.recvBuf.content true := by
    refine .waits [] payloads [] _ rfl rfl (by simp) rfl ?_
    rw [hmessages, copyBytes_cons, List.length_append]
    omega
  rcases round_short (puts k) (by simp [hcopy]) (by simp [hcopy, SessionState.busy]) hsend.1 hpart
    hshort with ⟨ok, hround, -⟩
  by_cases hempty : s.recvBuf.len = 0
  · exact ⟨true, hwaits, fun more => by rw [feProtocolProcess, if_pos hempty]⟩
  · refine ⟨ok, ?_, fun more => by rw [feProtocolProcess, if_neg hempty, hround]⟩
    cases ok with
    | true => exact hwaits
    | false => exact .fails [] _ (by simp)

/-- The first message is there: it fails, or the loop goes on behind it. -/
theorem copy_first (hsend : put.Sendable) (hcopy : s.state = .copyIn)
    (hconn : s.backendConn ≠ none) (hcontent : s.recvBuf.content = put.bytes ++ rest) :
    (∃ taken rb, Took payloads ending s.recvBuf.content taken .copyIn rb.content false ∧
        ∀ more, feProtocolProcess puts (more + 1) k s =
          some (.ret (s.took taken .copyIn rb) false)) ∨
      puts k ≠ .failed ∧ ∀ more, feProtocolProcess puts (more + 1) k s =
        feProtocolProcess puts more (k + 1)
          (s.took [(put, puts k)] put.after (s.recvBuf.consume put.bytes.length)) := by
  have hlen : s.recvBuf.len ≠ 0 := by
    rw [← s.recvBuf.content_length, hcontent, List.length_append, put.bytes_length]
    omega
  rcases round_put (puts k) hcopy hconn hsend hcontent with hround | ⟨hfailed, hround⟩ |
    ⟨hkept, hround⟩
  · refine Or.inl ⟨[], s.recvBuf, .fails [] _ (by simp), fun more => ?_⟩
    rw [Session.took_nil hcopy, feProtocolProcess, if_neg hlen, hround]
  · refine Or.inl ⟨[(put, puts k)], s.recvBuf.consume put.bytes.length, .fails _ _ ?_,
      fun more => ?_⟩
    · intro p hp
      rw [List.mem_singleton.mp hp]
      exact Or.inl hfailed
    · rw [feProtocolProcess, if_neg hlen, hround]
  · refine Or.inr ⟨hkept, fun more => ?_⟩
    rw [feProtocolProcess, if_neg hlen, hround]

/-- While the end of the copy is awaited, the loop takes no message. -/
theorem process_query (hquery : s.state = .query) (more : Nat) :
    feProtocolProcess puts (more + 1) k s = some (.ret s true) := by
  have hround : feProtocolRound (puts k) s = .ret s true := by
    unfold feProtocolRound
    dsimp only
    rw [if_neg (by simp [hquery]), if_pos (Or.inl hquery)]
  rw [feProtocolProcess, hround]
  split <;> rfl

/-- The loop stops at the first message, or goes on behind it. -/
theorem copy_head (hmessages : copyMessages payloads ending = put :: later)
    (hsend : put.Sendable) (hcopy : s.state = .copyIn) (hconn : s.backendConn ≠ none)
    (hpart : s.recvBuf.content <+: put.bytes ++ rest) :
    (∃ taken rb ok, Took payloads ending s.recvBuf.content taken .copyIn rb.content ok ∧
        ∀ more, feProtocolProcess puts (more + 1) k s =
          some (.ret (s.took taken .copyIn rb) ok)) ∨
      ∃ behind, s.recvBuf.content = put.bytes ++ behind ∧ behind <+: rest ∧ puts k ≠ .failed ∧
        ∀ more, feProtocolProcess puts (more + 1) k s = feProtocolProcess puts more (k + 1)
          (s.took [(put, puts k)] put.after (s.recvBuf.consume put.bytes.length)) := by
  rcases part_cases hpart with hshort | ⟨behind, hcontent, hbehind⟩
  · rcases copy_wait puts k hmessages hsend hcopy hpart hshort with ⟨ok, htook, hloop⟩
    refine Or.inl ⟨[], s.recvBuf, ok, htook, fun more => ?_⟩
    rw [Session.took_nil hcopy, hloop]
  · rcases copy_first puts k hsend hcopy hconn hcontent with ⟨taken, rb, htook, hloop⟩ |
      ⟨hkept, hloop⟩
    · exact Or.inl ⟨taken, rb, false, htook, hloop⟩
    · exact Or.inr ⟨behind, hcontent, hbehind, hkept, hloop⟩

end Loop

/-- The loop hands on the messages that are there, and returns. -/
theorem copy_loop (puts : Nat → PutOutcome) {ending : CopyPut}
    (hends : ∀ payload, ending ≠ .data payload) (payloads : List Text) :
    ∀ (k : Nat) (s : Session) (continuation : Text),
      (∀ put ∈ copyMessages payloads ending, put.Sendable) → s.state = .copyIn →
      s.backendConn ≠ none →
      s.recvBuf.content <+: copyBytes (copyMessages payloads ending) ++ continuation →
      ∃ taken state rb ok, Took payloads ending s.recvBuf.content taken state rb.content ok ∧
        ∃ rounds, ∀ more, feProtocolProcess puts (more + rounds) k s =
          some (.ret (s.took taken state rb) ok) := by
  induction payloads with
  | nil =>
      intro k s continuation hsend hcopy hconn hpart
      have hmessages : copyMessages [] ending = [ending] := rfl
      rw [hmessages, copyBytes_cons, List.append_assoc] at hpart
      have hlast := hsend ending (by simp [hmessages])
      have hafter : ending.after = .query := by
        cases ending with
        | data payload => exact absurd rfl (hends payload)
        | done => rfl
        | fail message => rfl
      rcases copy_head puts k hmessages hlast hcopy hconn hpart with
        ⟨taken, rb, ok, htook, hloop⟩ | ⟨behind, hcontent, -, hkept, hloop⟩
      · exact ⟨taken, .copyIn, rb, ok, htook, 1, hloop⟩
      · refine ⟨[(ending, puts k)], .query, s.recvBuf.consume ending.bytes.length, true, ?_, 2,
          fun more => ?_⟩
        · refine .ends _ _ rfl ?_ ?_
          · intro p hp
            rw [List.mem_singleton.mp hp]
            exact hkept
          · rw [RecvBuf.content_consume, hcontent, List.drop_left, hmessages, copyBytes_singleton]
        · rw [show more + 2 = more + 1 + 1 from rfl, hloop, hafter,
            process_query puts (k + 1) rfl more]
  | cons payload payloads ih =>
      intro k s continuation hsend hcopy hconn hpart
      have hmessages := copyMessages_cons payload payloads ending
      rw [hmessages, copyBytes_cons, List.append_assoc] at hpart
      have hfirst := hsend (.data payload) (by simp [hmessages])
      rcases copy_head puts k hmessages hfirst hcopy hconn hpart with
        ⟨taken, rb, ok, htook, hloop⟩ | ⟨behind, hcontent, hbehind, hkept, hloop⟩
      · exact ⟨taken, .copyIn, rb, ok, htook, 1, hloop⟩
      · have hrest : (s.recvBuf.consume (CopyPut.data payload).bytes.length).content = behind := by
          rw [RecvBuf.content_consume, hcontent, List.drop_left]
        rcases ih (k + 1) (s.took [(.data payload, puts k)] .copyIn
            (s.recvBuf.consume (CopyPut.data payload).bytes.length)) continuation
          (fun put hput => hsend put (by rw [hmessages]; exact List.mem_cons_of_mem _ hput)) rfl
          hconn (hrest.symm ▸ hbehind) with ⟨taken, state, rb, ok, htook, rounds, hmore⟩
        have hbefore : ([(CopyPut.data payload, puts k)] : List _).map Prod.fst =
            [payload].map CopyPut.data := rfl
        have happend := htook.append hbefore (by simpa using hkept)
        refine ⟨[(.data payload, puts k)] ++ taken, state, rb, ok, ?_, rounds + 1, fun more => ?_⟩
        · rw [hcontent]
          rw [List.map_singleton, copyBytes_singleton] at happend
          have hsame : (s.took [(.data payload, puts k)] .copyIn
              (s.recvBuf.consume (CopyPut.data payload).bytes.length)).recvBuf.content =
              behind := hrest
          rw [hsame] at happend
          exact happend
        · rw [← Nat.add_assoc, hloop]
          exact (hmore more).trans (by rw [Session.took_took])

/-! ## Runs -/

/-- A copy goes on: {lit}`PQgetResult` answers PGRES_COPY_IN of the command in progress, again
and again, until {lit}`PQputCopyEnd` was called. -/
def CopyGoesOn (input : BackendInput) (x : Conf) : Prop :=
  ∀ c, x.1.backendConn = some c →
    (x.2.conns c).command ≠ none ∧ ∃ res rest, input.results = res :: rest ∧
      res.status = .copyIn

/-- The event reads bytes from the client's socket. -/
def ClientInput.reads (input : ClientInput) (s : Session) : Bool :=
  match input.hangup, s.callback, input.recv with
  | false, .readable, .data _ => true
  | _, _, _ => false

/-- The runs of a session in a copy: whether the socket was read since the copy started, and the
bytes that were received since then or stood in the buffer.  The handler of the backend may be
called while the copy goes on. -/
inductive CopyInRun (cfg : Config) (s₀ : Session) : Bool → Text → Session → Prop where
  | start : CopyInRun cfg s₀ false s₀.recvBuf.content s₀
  | client {read : Bool} {received : Text} {s : Session} (input : ClientInput) (b : Backends)
      (y : Conf) (hrun : CopyInRun cfg s₀ read received s) (hopen : s.closed = false)
      (hcall : onClient cfg input (s, b) = some y) :
      CopyInRun cfg s₀ (read || input.reads s) (received ++ input.received s) y.1
  | backend {read : Bool} {received : Text} {s : Session} (input : BackendInput)
      (flush : SendOutcome) (b : Backends) (hrun : CopyInRun cfg s₀ read received s)
      (hopen : s.closed = false) (hcopy : s.state = .copyIn) (hgoes : CopyGoesOn input (s, b)) :
      CopyInRun cfg s₀ read received (sessionOnBackendReadable input flush (s, b)).1

/-- A copy has started. -/
structure CopyStarted (s : Session) : Prop where
  state : s.state = .copyIn
  connected : s.backendConn ≠ none

/-! ## The end of an event -/

/-- The session that is left when an event is over: the loop's, unless it ends there. -/
structure Settles (ok : Bool) (s s' : Session) : Prop where
  out : ∃ more, s'.out = s.out ++ more ∧
    (s'.closed = false → ∀ q ∈ more, q.msg.isError = false)
  copyPuts : s'.copyPuts = s.copyPuts
  state : s'.state = s.state
  alive : s'.closed = false → ok = true ∧ s.closed = false ∧ s'.recvBuf = s.recvBuf ∧
    s'.backendConn = s.backendConn

namespace Settles

variable {ok : Bool} {s s' s'' : Session}

/-- Nothing is queued. -/
theorem quiet (hout : s'.out = s.out) (hputs : s'.copyPuts = s.copyPuts)
    (hstate : s'.state = s.state)
    (halive : s'.closed = false → ok = true ∧ s.closed = false ∧ s'.recvBuf = s.recvBuf ∧
      s'.backendConn = s.backendConn) : Settles ok s s' :=
  ⟨⟨[], by rw [hout, List.append_nil], by simp⟩, hputs, hstate, halive⟩

theorem refl (s : Session) : Settles true s s :=
  quiet rfl rfl rfl fun h => ⟨rfl, h, rfl, rfl⟩

theorem trans (h : Settles ok s s') (h' : Settles true s' s'') : Settles ok s s'' where
  out := by
    rcases h.out with ⟨more, hmore, hquiet⟩
    rcases h'.out with ⟨more', hmore', hquiet'⟩
    refine ⟨more ++ more', by rw [hmore', hmore, List.append_assoc], fun hopen q hq => ?_⟩
    rcases List.mem_append.mp hq with hq | hq
    · exact hquiet (h'.alive hopen).2.1 q hq
    · exact hquiet' hopen q hq
  copyPuts := h'.copyPuts.trans h.copyPuts
  state := h'.state.trans h.state
  alive := fun hopen => by
    rcases h'.alive hopen with ⟨-, hopen', hbuf, hconn⟩
    rcases h.alive hopen' with ⟨hok, hstart, hbuf', hconn'⟩
    exact ⟨hok, hstart, hbuf.trans hbuf', hconn.trans hconn'⟩

/-- The session ends. -/
theorem destroy (ok : Bool) (x : Conf) : Settles ok x.1 (sessionDestroy x).1 :=
  quiet (sessionDestroy_out x) (sessionDestroy_unread x).copyPuts (sessionDestroy_ended x).state
    fun hopen => by cases hopen

/-- Sending what is queued. -/
theorem flush (flush : SendOutcome) (x : Conf) : Settles true x.1 (flushOrDestroy flush x).1 := by
  unfold flushOrDestroy sessionSend
  by_cases hunsent : x.1.unsent = true
  · rw [if_pos hunsent]
    cases flush with
    | all => exact quiet rfl rfl rfl fun h => ⟨rfl, h, rfl, rfl⟩
    | again => exact quiet rfl rfl rfl fun h => ⟨rfl, h, rfl, rfl⟩
    | failed => exact destroy true (x.1, x.2)
  · rw [if_neg hunsent]
    exact quiet rfl rfl rfl fun h => ⟨rfl, h, rfl, rfl⟩

/-- The backend is lost, and the client is told. -/
theorem lost (message : Text) (flush : SendOutcome) (x : Conf) :
    Settles true x.1 (backendLost message flush x).1 := by
  have hended := backendLost_ended message flush x
  have hclosed : (backendLost message flush x).1.closed ≠ false := by
    rw [hended.closed]
    simp
  refine ⟨?_, ?_, hended.state, fun hopen => absurd hopen hclosed⟩
  · exact ⟨_, (sessionDestroy_out _).trans (sessionSend_out flush _), fun hopen =>
      absurd hopen hclosed⟩
  · exact (sessionDestroy_unread _).copyPuts.trans (sessionSend_unread flush _).copyPuts

/-- The handler of the backend while the copy goes on. -/
theorem backend {input : BackendInput} {x : Conf} (flush : SendOutcome)
    (hcopy : x.1.state = .copyIn) (hgoes : CopyGoesOn input x) :
    Settles true x.1 (sessionOnBackendReadable input flush x).1 := by
  have hcase := sessionOnBackendReadable_case input flush x
  generalize sessionOnBackendReadable input flush x = y at hcase ⊢
  cases hcase with
  | lost message b => exact lost message flush (x.1, b)
  | skip => exact refl _
  | quiet c hconn _ hcommand => exact absurd hcommand (hgoes c hconn).1
  | drain c command hconn =>
      refine Settles.trans ?_ (Settles.flush flush _)
      rcases (hgoes c hconn).2 with ⟨res, rest, hresults, hstatus⟩
      have hstop : singleMessages false input.results = ([], .copyIn res.fields.length) := by
        rw [hresults, singleMessages, hstatus]
      unfold drainSingle
      rw [hstop]
      refine ⟨⟨[⟨.copyInResponse res.fields.length, .result c command⟩], ?_, ?_⟩, rfl, hcopy.symm,
        fun hopen => ⟨rfl, hopen, rfl, rfl⟩⟩
      · simp [Session.queue, Session.queueAll, Session.setState]
      · simp [BackendMsg.isError]

/-- The end of an event of the client's socket. -/
theorem afterInput (flush : SendOutcome) (x : Conf) (ok : Bool) :
    Settles ok x.1 (Sharegres.afterInput flush (x, ok)).1 := by
  cases ok with
  | false => exact destroy false x
  | true =>
      unfold Sharegres.afterInput
      dsimp only
      split
      · exact Settles.flush flush x
      · exact refl _

end Settles

/-! ## The invariant -/

/-- How far a copy was handed on: the socket was not read since it started, or the loop took what
it could. -/
inductive CopyProgress (load : CopyLoad) (received : Text) :
    Bool → List (CopyPut × PutOutcome) → SessionState → Text → Bool → Prop where
  | unread : CopyProgress load received false [] .copyIn received true
  | took {puts : List (CopyPut × PutOutcome)} {state : SessionState} {rest : Text} {ok : Bool}
      (htook : Took load.payloads load.ending received puts state rest ok) :
      CopyProgress load received true puts state rest ok

/-- Where the loop is in a copy of which some bytes were received. -/
structure CopyAt (load : CopyLoad) (s₀ : Session) (read : Bool) (received : Text) (ok : Bool)
    (s : Session) : Prop where
  out : ∃ more, s.out = s₀.out ++ more ∧ ∀ q ∈ more, q.msg.isError = false
  connected : s.backendConn ≠ none
  progress : ∃ puts, s.copyPuts = s₀.copyPuts ++ puts ∧
    CopyProgress load received read puts s.state s.recvBuf.content ok

/-- A session of a run: it goes on behind what it received, or it has ended. -/
def InCopy (load : CopyLoad) (s₀ : Session) (read : Bool) (received : Text) (s : Session) :
    Prop :=
  ∃ part ok t, CopyAt load s₀ read part ok t ∧ Settles ok t s ∧ part <+: received ∧
    (s.closed = false → part = received)

section Runs

variable {cfg : Config} {load : CopyLoad} {s₀ s : Session} {read : Bool}
  {received bytes continuation : Text}

/-- The start of a copy. -/
theorem CopyStarted.copyAt (h : CopyStarted s₀) :
    CopyAt load s₀ false s₀.recvBuf.content true s₀ := by
  refine ⟨⟨[], (List.append_nil _).symm, by simp⟩, h.connected, [], (List.append_nil _).symm, ?_⟩
  rw [h.state]
  exact .unread

/-- The loop goes on behind the data that were taken. -/
theorem CopyAt.resume (h : CopyAt load s₀ read received true s) {front later : List Text}
    {taken : List (CopyPut × PutOutcome)} (hputs : s.copyPuts = s₀.copyPuts ++ taken)
    (hstate : s.state = .copyIn) (hpayloads : load.payloads = front ++ later)
    (htaken : taken.map Prod.fst = front.map .data) (hkept : ∀ p ∈ taken, p.2 ≠ .failed)
    (hreceived : received = copyBytes (front.map .data) ++ s.recvBuf.content)
    (hpart : received ++ bytes <+: load.bytes ++ continuation) (puts : Nat → PutOutcome) :
    ∃ ok t, CopyAt load s₀ true (received ++ bytes) ok t ∧ t.closed = s.closed ∧ ∃ rounds, ∀ more,
      feProtocolProcess puts (more + rounds) 0 (s.receive bytes) = some (.ret t ok) := by
  have hcontent : (s.receive bytes).recvBuf.content = s.recvBuf.content ++ bytes :=
    s.recvBuf.content_receive bytes
  have hbytes : load.bytes =
      copyBytes (front.map .data) ++ copyBytes (copyMessages later load.ending) := by
    rw [CopyLoad.bytes, hpayloads, copyMessages_append, copyBytes_append]
  rw [hreceived, hbytes, List.append_assoc, List.append_assoc,
    List.prefix_append_right_inj, ← hcontent] at hpart
  have hsend : ∀ put ∈ copyMessages later load.ending, put.Sendable := by
    intro put hput
    refine load.sendable put ?_
    rw [show load.payloads.map .data ++ [load.ending] =
      front.map .data ++ copyMessages later load.ending by
        rw [← copyMessages_append, ← hpayloads, copyMessages]]
    exact List.mem_append_right _ hput
  rcases copy_loop puts load.ends later 0 (s.receive bytes) continuation hsend hstate
    h.connected hpart with ⟨more, state', rb, ok, hmore, hloop⟩
  refine ⟨ok, (s.receive bytes).took more state' rb,
    ⟨h.out, h.connected, taken ++ more, ?_, .took ?_⟩, rfl, hloop⟩
  · change s.copyPuts ++ more = _
    rw [hputs, List.append_assoc]
  · have happend := hmore.append htaken hkept
    rw [hcontent, ← hpayloads, ← List.append_assoc, ← hreceived] at happend
    exact happend

/-- The loop on a read. -/
theorem CopyAt.loop (h : CopyAt load s₀ read received true s)
    (hpart : received ++ bytes <+: load.bytes ++ continuation) (puts : Nat → PutOutcome) :
    ∃ ok t, CopyAt load s₀ true (received ++ bytes) ok t ∧ t.closed = s.closed ∧ ∃ rounds, ∀ more,
      feProtocolProcess puts (more + rounds) 0 (s.receive bytes) = some (.ret t ok) := by
  rcases h.progress with ⟨taken, hputs, hprogress⟩
  generalize hrest : s.recvBuf.content = rest at hprogress
  generalize hstate : s.state = state at hprogress
  cases hprogress with
  | unread =>
      exact h.resume hputs hstate (List.nil_append _).symm rfl (by simp) hrest.symm hpart puts
  | took htook =>
      cases htook with
      | waits front later _ _ hpayloads htaken hkept hreceived hshort =>
          exact h.resume hputs hstate hpayloads htaken hkept (hrest ▸ hreceived) hpart puts
      | ends _ _ htaken hkept hreceived =>
          refine ⟨true, s.receive bytes, ⟨h.out, h.connected, taken, hputs, .took ?_⟩, rfl, 1,
            fun more => ?_⟩
          · rw [show (s.receive bytes).recvBuf.content = rest ++ bytes from
                hrest ▸ s.recvBuf.content_receive bytes,
              show (s.receive bytes).state = .query from hstate]
            exact .ends _ _ htaken hkept (by rw [hreceived, List.append_assoc])
          · exact process_query puts 0 (show (s.receive bytes).state = .query from hstate) more

/-- A session that goes on is where its loop is. -/
theorem InCopy.copyAt (h : InCopy load s₀ read received s) (hopen : s.closed = false) :
    CopyAt load s₀ read received true s := by
  rcases h with ⟨part, ok, t, hat, hsettles, -, hpart⟩
  rcases hsettles.alive hopen with ⟨hok, -, hbuf, hconn⟩
  rw [← hpart hopen, ← hok]
  refine ⟨?_, hconn ▸ hat.connected, ?_⟩
  · rcases hat.out with ⟨more, hmore, hquiet⟩
    rcases hsettles.out with ⟨more', hmore', hquiet'⟩
    refine ⟨more ++ more', by rw [hmore', hmore, List.append_assoc], fun q hq => ?_⟩
    rcases List.mem_append.mp hq with hq | hq
    · exact hquiet q hq
    · exact hquiet' hopen q hq
  · rcases hat.progress with ⟨puts, hputs, hprogress⟩
    exact ⟨puts, hsettles.copyPuts.trans hputs, hsettles.state ▸ hbuf ▸ hprogress⟩

/-- An event that reads nothing. -/
theorem InCopy.settles {s' : Session} (h : InCopy load s₀ read received s)
    (hsettles : Settles true s s') (more : Text) (hmore : s'.closed = false → more = []) :
    InCopy load s₀ read (received ++ more) s' := by
  rcases h with ⟨part, ok, t, hat, hbefore, hpart, hsame⟩
  refine ⟨part, ok, t, hat, hbefore.trans hsettles, hpart.trans (List.prefix_append ..), ?_⟩
  intro hopen
  rw [hmore hopen, List.append_nil]
  exact hsame (hsettles.alive hopen).2.1

end Runs

/-- Every session of a run. -/
theorem CopyInRun.inCopy {cfg : Config} {load : CopyLoad} {s₀ s : Session} {read : Bool}
    {received continuation : Text} (hstart : CopyStarted s₀)
    (hrun : CopyInRun cfg s₀ read received s)
    (hpart : received <+: load.bytes ++ continuation) : InCopy load s₀ read received s := by
  induction hrun with
  | start =>
      exact ⟨_, true, s₀, hstart.copyAt, Settles.refl s₀, List.prefix_refl _, fun _ => rfl⟩
  | @client read received s input b y hrun hopen hcall ih =>
      have hin := ih ((List.prefix_append ..).trans hpart)
      -- an event that reads nothing
      have hunread : ∀ {s' : Session}, Settles true s s' → input.reads s = false →
          (s'.closed = false → input.received s = []) →
          InCopy load s₀ (read || input.reads s) (received ++ input.received s) s' := by
        intro s' hsettles hnone hmore
        rw [hnone, Bool.or_false]
        exact hin.settles hsettles _ hmore
      cases onClient_call hcall with
      | hangup hhangup =>
          exact hunread (Settles.destroy true (s, b)) (by simp [ClientInput.reads, hhangup])
            (fun h => by cases h)
      | flush hhangup hcallback =>
          have hwrites : s.callback = .writable := hcallback
          exact hunread (Settles.flush input.flush (s, b))
            (by simp [ClientInput.reads, hwrites])
            fun _ => by simp [ClientInput.received, hwrites]
      | lost hhangup hcallback hrecv =>
          refine hunread (Settles.destroy true (s, b)) ?_ (fun h => by cases h)
          rcases hrecv with hrecv | hrecv <;> simp [ClientInput.reads, hrecv]
      | again hhangup hcallback hrecv =>
          exact hunread (Settles.refl s) (by simp [ClientInput.reads, hrecv])
            fun _ => by simp [ClientInput.received, hrecv]
      | received bytes r hhangup hcallback hrecv hprocess =>
          have hbytes : input.received s = bytes :=
            ClientInput.received_data hhangup hcallback hrecv
          have hreads : input.reads s = true := by
            rw [ClientInput.reads, hhangup, show s.callback = _ from hcallback, hrecv]
          rw [hbytes] at hpart ⊢
          rw [hreads, Bool.or_true]
          rcases (hin.copyAt hopen).loop hpart input.puts with ⟨ok, t, hat, -, rounds, hloop⟩
          rw [processInput_ret hloop hprocess]
          exact ⟨_, ok, t, hat, Settles.afterInput input.flush (t, b) ok, List.prefix_refl _,
            fun _ => rfl⟩
  | backend input flush b hrun hopen hcopy hgoes ih =>
      have hevent := (ih hpart).settles (Settles.backend flush hcopy hgoes) [] fun _ => rfl
      rwa [List.append_nil] at hevent

/-- The next event of a run returns. -/
theorem InCopy.returns {cfg : Config} {load : CopyLoad} {s₀ s : Session} {read : Bool}
    {received continuation : Text} (h : InCopy load s₀ read received s) (hopen : s.closed = false)
    (input : ClientInput) (b : Backends)
    (hpart : received ++ input.received s <+: load.bytes ++ continuation) :
    ∃ rounds, (onClient cfg { input with rounds := rounds } (s, b)).isSome := by
  rcases (h.copyAt hopen).loop hpart input.puts with ⟨ok, t, -, -, rounds, hloop⟩
  refine ⟨0 + rounds, onClient_isSome fun bytes hhangup hcallback hrecv => ?_⟩
  have hbytes : input.received s = bytes := ClientInput.received_data hhangup hcallback hrecv
  rw [hbytes] at hloop
  unfold processInput
  dsimp only
  rw [hloop 0]
  rfl

/-- A message that failed or is data is lost only if the session goes on. -/
theorem not_lossy_of_closed {s : Session} {p : CopyPut × PutOutcome} (hclosed : s.closed = true)
    (hdata : p.2 = .failed ∨ ∃ payload, p.1 = .data payload) : ¬ Lossy s p := by
  rintro ⟨hfull, hnot⟩
  rcases hdata with hfailed | ⟨payload, hput⟩
  · rw [hfull] at hfailed
    cases hfailed
  · exact hnot ⟨payload, hput, Or.inr hclosed⟩

/-- A session that is told an error has ended. -/
theorem InCopy.told {load : CopyLoad} {s₀ s : Session} {read : Bool} {received : Text}
    (h : InCopy load s₀ read received s)
    (herror : ∃ q ∈ s.out.drop s₀.out.length, q.msg.isError = true) : s.closed = true := by
  by_contra hopen
  rcases (h.copyAt (by simpa using hopen)).out with ⟨more, hmore, hquiet⟩
  rcases herror with ⟨q, hq, herror⟩
  rw [hmore, List.drop_left] at hq
  rw [hquiet q hq] at herror
  cases herror

section Faithful

variable {load : CopyLoad} {s₀ s : Session} {received : Text}
  {puts : List (CopyPut × PutOutcome)}

/-- The end was not handed on, and a session that received everything has ended. -/
theorem faithful_iff_of_ended (hnew : newPuts s₀ s = puts) (hstate : s.state ≠ .query)
    (hclosed : load.bytes <+: received → s.closed = true)
    (hdata : ∀ p ∈ puts, p.2 = .failed ∨ ∃ payload, p.1 = .data payload) :
    CopyFaithful load s₀ received s ↔ NothingDropped load s₀ true received s := by
  constructor
  · intro _ hall
    exact ⟨fun _ => rfl, fun p hp => not_lossy_of_closed (hclosed hall) (hdata p (hnew ▸ hp))⟩
  · intro _
    exact ⟨fun hall => Or.inl (hclosed hall), fun hquery => absurd hquery hstate⟩

/-- Every message was handed on. -/
theorem faithful_iff_of_all (hnew : newPuts s₀ s = puts) (hstate : s.state = .query)
    (hall : load.bytes <+: received)
    (htold : (∃ q ∈ s.out.drop s₀.out.length, q.msg.isError = true) → s.closed = true)
    (htaken : puts.map Prod.fst = copyMessages load.payloads load.ending)
    (hkept : ∀ p ∈ puts, p.2 ≠ .failed) :
    CopyFaithful load s₀ received s ↔ NothingDropped load s₀ true received s := by
  have hdelivered := delivered_iff htaken hkept
  rcases puts_ending htaken with ⟨taken, outcome, rfl, hdata⟩
  have hdataPut : ∀ p ∈ taken, ∃ payload, p.1 = .data payload := by
    intro p hp
    have hmem : p.1 ∈ load.payloads.map CopyPut.data := hdata ▸ List.mem_map_of_mem hp
    rcases List.mem_map.mp hmem with ⟨payload, -, hput⟩
    exact ⟨payload, hput.symm⟩
  rw [NothingDropped, hnew]
  constructor
  · rintro hfaithful -
    refine ⟨fun _ => rfl, ?_⟩
    rintro p hp ⟨hfull, hnot⟩
    rcases List.mem_append.mp hp with hmem | hlast
    · rcases hdataPut p hmem with ⟨payload, hput⟩
      rcases hfaithful.delivered hall with hclosed | herror | hdel
      · exact hnot ⟨payload, hput, Or.inr hclosed⟩
      · exact hnot ⟨payload, hput, Or.inr (htold herror)⟩
      · rw [hnew] at hdel
        exact hnot ⟨[], hdelivered.mp hdel p hp hfull, Or.inl rfl⟩
    · -- the end was accepted, so its answer is not 0
      rw [List.mem_singleton.mp hlast] at hfull
      have haccepted := hfaithful.accepted hstate
      rw [hnew, show outcome = .full from hfull] at haccepted
      rcases List.mem_append.mp haccepted with hmem | hmem
      · rcases hdataPut _ hmem with ⟨payload, hput⟩
        exact load.ends payload hput
      · simp at hmem
  · intro hnone
    have hfull : ∀ p ∈ taken ++ [(load.ending, outcome)], p.2 = .full →
        ∃ payload, p.1 = .data payload ∧ (payload = [] ∨ s.closed = true) :=
      fun p hp hfull => not_not.mp fun hnot => (hnone hall).2 p hp ⟨hfull, hnot⟩
    refine ⟨fun _ => ?_, fun _ => ?_⟩
    · by_cases hclosed : s.closed = true
      · exact Or.inl hclosed
      · refine Or.inr (Or.inr ?_)
        rw [hnew]
        refine hdelivered.mpr fun p hp hanswer => ?_
        rcases hfull p hp hanswer with ⟨payload, hput, hempty | hended⟩
        · rw [hput, hempty]
        · exact absurd hended hclosed
    · rw [hnew]
      have hlast : (load.ending, outcome) ∈ taken ++ [(load.ending, outcome)] := by simp
      cases outcome with
      | queued => exact hlast
      | full =>
          rcases hfull _ hlast rfl with ⟨payload, hput, -⟩
          exact absurd hput (load.ends payload)
      | failed => exact absurd rfl (hkept _ hlast)

end Faithful

/-- No message was sent. -/
theorem not_delivered_nil (load : CopyLoad) : ¬ Delivered load [] := by
  rintro ⟨pieces, hpieces, -⟩
  cases pieces <;> cases hpieces

/-- In every run each event returns, and the copy is faithful if and only if nothing was
dropped: once everything was received, the socket was read since the copy started, and no answer
was 0 but for empty data or in a session that has ended. -/
theorem copy_faithful_iff {cfg : Config} {load : CopyLoad} {s₀ s : Session} {read : Bool}
    {received continuation : Text} (hstart : CopyStarted s₀)
    (hrun : CopyInRun cfg s₀ read received s) (hpart : received <+: load.bytes ++ continuation) :
    (s.closed = false → ∀ (input : ClientInput) (b : Backends),
      received ++ input.received s <+: load.bytes ++ continuation →
      ∃ rounds, (onClient cfg { input with rounds := rounds } (s, b)).isSome) ∧
    (CopyFaithful load s₀ received s ↔ NothingDropped load s₀ read received s) := by
  have hin := hrun.inCopy hstart hpart
  refine ⟨fun hopen input b hmore => hin.returns hopen input b hmore, ?_⟩
  have htold := hin.told
  rcases hin with ⟨part, ok, t, hat, hsettles, hprefix, hsame⟩
  rcases hat.progress with ⟨puts, hputs, hprogress⟩
  have hnew : newPuts s₀ s = puts := by
    rw [newPuts, hsettles.copyPuts, hputs, List.drop_left]
  have hstate := hsettles.state
  generalize t.state = state at hprogress hstate
  generalize t.recvBuf.content = rest at hprogress
  cases hprogress with
  | unread =>
      -- nothing was handed on, so the session has to have ended
      constructor
      · intro hfaithful hall
        refine ⟨fun hopen => ?_, fun p hp => ?_⟩
        · rcases hfaithful.delivered hall with hclosed | herror | hdelivered
          · rw [hopen] at hclosed
            cases hclosed
          · rw [hopen] at htold
            cases htold herror
          · rw [hnew] at hdelivered
            exact absurd hdelivered (not_delivered_nil load)
        · rw [hnew] at hp
          cases hp
      · intro hcond
        refine ⟨fun hall => Or.inl ?_, fun hquery => ?_⟩
        · by_contra hopen
          cases (hcond hall).1 (by simpa using hopen)
        · rw [hstate] at hquery
          cases hquery
  | took htook =>
      cases htook with
      | waits front later _ _ hpayloads htaken hkept hcontent hshort =>
          -- the copy is not complete, or the session has ended
          have hdata : ∀ p ∈ puts, p.2 = .failed ∨ ∃ payload, p.1 = .data payload := by
            intro p hp
            have hmem : p.1 ∈ front.map CopyPut.data := htaken ▸ List.mem_map_of_mem hp
            rcases List.mem_map.mp hmem with ⟨payload, -, hput⟩
            exact Or.inr ⟨payload, hput.symm⟩
          have hclosed : load.bytes <+: received → s.closed = true := by
            intro hall
            by_contra hopen
            have hlen := hall.length_le
            rw [← hsame (by simpa using hopen), hcontent, CopyLoad.bytes, hpayloads,
              copyMessages_append, copyBytes_append, List.length_append,
              List.length_append] at hlen
            omega
          exact faithful_iff_of_ended hnew (by rw [hstate]; simp) hclosed hdata
      | fails _ _ hdata =>
          have hclosed : s.closed = true := by
            by_contra hopen
            have hok := (hsettles.alive (by simpa using hopen)).1
            cases hok
          exact faithful_iff_of_ended hnew (by rw [hstate]; simp) (fun _ => hclosed) hdata
      | ends _ _ htaken hkept hcontent =>
          have hall : load.bytes <+: received := by
            refine List.IsPrefix.trans ?_ hprefix
            rw [hcontent]
            exact List.prefix_append ..
          exact faithful_iff_of_all hnew hstate hall htold htaken hkept

/-- A session in a copy. -/
def copyingSession : Session :=
  { id := 0, state := .copyIn, backendConn := some 0, awaited := {.backend} }

theorem copyingSession_started : CopyStarted copyingSession :=
  ⟨rfl, by simp [copyingSession]⟩

/-- Two rows and an end. -/
def twoRows : CopyLoad where
  payloads := [ascii "a", ascii "b"]
  ending := .done
  ends := by simp
  sendable := by
    intro put hput
    rcases List.mem_append.mp hput with hput | hput
    · rcases List.mem_map.mp hput with ⟨payload, hpayload, rfl⟩
      refine ⟨?_, by simp⟩
      revert payload
      decide +kernel
    · rw [List.mem_singleton.mp hput]
      exact ⟨by decide, by simp⟩

/-- The rows arrive in two reads, and all messages are queued. -/
theorem queued_answers_deliver :
    ∃ s, CopyInRun ⟨⟨[], [], 4⟩, fun _ => none⟩ copyingSession true twoRows.bytes s ∧
      CopyFaithful twoRows copyingSession twoRows.bytes s := by
  let cfg : Config := ⟨⟨[], [], 4⟩, fun _ => none⟩
  let first : ClientInput := { recv := .data (twoRows.bytes.take 8) }
  let second : ClientInput := { recv := .data (twoRows.bytes.drop 8) }
  let b : Backends := { pools := fun _ => { maxSize := 4 } }
  have hreads : ((onClient cfg first (copyingSession, b)).bind fun y =>
      if y.1.callback = .readable ∧ y.1.closed = false then onClient cfg second (y.1, b)
      else none).map (fun z => newPuts copyingSession z.1) =
      some [(.data (ascii "a"), .queued), (.data (ascii "b"), .queued), (.done, .queued)] := by
    decide +kernel
  rcases Option.map_eq_some_iff.mp hreads with ⟨z, hz, hputs⟩
  rcases Option.bind_eq_some_iff.mp hz with ⟨y, hy, hz⟩
  split at hz
  · rename_i hready
    have hfirst := CopyInRun.client first b y CopyInRun.start rfl hy
    have hrun := CopyInRun.client second b z hfirst hready.2 hz
    have hbytes : copyingSession.recvBuf.content ++ first.received copyingSession ++
        second.received y.1 = twoRows.bytes := by
      rw [show second.received y.1 = twoRows.bytes.drop 8 by
        exact ClientInput.received_data rfl hready.1 rfl]
      decide +kernel
    rw [hbytes] at hrun
    refine ⟨z.1, hrun, (copy_faithful_iff copyingSession_started hrun
      (List.prefix_append twoRows.bytes [])).2.mpr fun _ => ⟨fun _ => rfl, fun p hp => ?_⟩⟩
    rw [hputs] at hp
    rintro ⟨hfull, -⟩
    simp only [List.mem_cons, List.not_mem_nil, or_false] at hp
    rcases hp with rfl | rfl | rfl <;> cases hfull
  · cases hz

/-- The same rows in one read.  The answer to the second row is 0, and the row is dropped;
then the answer to the end is 0, and the session waits for the end of a copy that goes on. -/
theorem full_answer_loses :
    (∃ s, CopyInRun ⟨⟨[], [], 4⟩, fun _ => none⟩ copyingSession true twoRows.bytes s ∧
      s.state = .query ∧ s.closed = false ∧ ¬ Delivered twoRows (newPuts copyingSession s) ∧
      ¬ CopyFaithful twoRows copyingSession twoRows.bytes s) ∧
    ∃ s, CopyInRun ⟨⟨[], [], 4⟩, fun _ => none⟩ copyingSession true twoRows.bytes s ∧
      s.state = .query ∧ s.closed = false ∧
      (twoRows.ending, .queued) ∉ newPuts copyingSession s ∧
      ¬ CopyFaithful twoRows copyingSession twoRows.bytes s := by
  let cfg : Config := ⟨⟨[], [], 4⟩, fun _ => none⟩
  let read (k : Nat) : ClientInput :=
    { recv := .data twoRows.bytes, puts := fun i => if i = k then .full else .queued }
  let b : Backends := { pools := fun _ => { maxSize := 4 } }
  have hreads : ∀ k ∈ [1, 2], ∃ y, onClient cfg (read k) (copyingSession, b) = some y ∧
      y.1.state = .query ∧ y.1.closed = false ∧ y.1.out = [] ∧
      newPuts copyingSession y.1 = [(.data (ascii "a"), .queued),
        (.data (ascii "b"), if k = 1 then .full else .queued),
        (.done, if k = 2 then .full else .queued)] := by
    have heval : ∀ k ∈ [1, 2], (onClient cfg (read k) (copyingSession, b)).map (fun y =>
        (y.1.state, y.1.closed, y.1.out, newPuts copyingSession y.1)) =
        some (.query, false, [], [(.data (ascii "a"), .queued),
          (.data (ascii "b"), if k = 1 then .full else .queued),
          (.done, if k = 2 then .full else .queued)]) := by
      decide +kernel
    intro k hk
    rcases Option.map_eq_some_iff.mp (heval k hk) with ⟨y, hy, hfields⟩
    simp only [Prod.mk.injEq] at hfields
    exact ⟨y, hy, hfields⟩
  have hrun : ∀ k y, onClient cfg (read k) (copyingSession, b) = some y →
      CopyInRun cfg copyingSession true twoRows.bytes y.1 :=
    fun k y hy => CopyInRun.client (read k) b y CopyInRun.start rfl hy
  refine ⟨?_, ?_⟩
  · rcases hreads 1 (by simp) with ⟨y, hy, hstate, hclosed, hout, hputs⟩
    have hlost : ¬ Delivered twoRows (newPuts copyingSession y.1) := by
      rw [hputs, delivered_iff rfl (by decide +kernel)]
      decide +kernel
    refine ⟨y.1, hrun 1 y hy, hstate, hclosed, hlost, fun hfaithful => ?_⟩
    rcases hfaithful.delivered (List.prefix_refl _) with hended | ⟨q, hq, -⟩ | hdelivered
    · rw [hclosed] at hended
      cases hended
    · simp [hout] at hq
    · exact hlost hdelivered
  · rcases hreads 2 (by simp) with ⟨y, hy, hstate, hclosed, -, hputs⟩
    have hwaits : (twoRows.ending, .queued) ∉ newPuts copyingSession y.1 := by
      rw [hputs]
      decide +kernel
    exact ⟨y.1, hrun 2 y hy, hstate, hclosed, hwaits, fun hfaithful =>
      hwaits (hfaithful.accepted hstate)⟩

end Sharegres
