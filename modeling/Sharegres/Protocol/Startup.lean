import Sharegres.Protocol.MessageReading
import Sharegres.Protocol.QueryFraming

/-!
# Protocol - Packets of the startup phase

Before its first message with a type a client sends packets that carry only a length: any
number of SSLRequests, which the proxy refuses, and one StartupMessage with the parameters
of the session.  The packets are written down here as bytes, and the loop of
{lit}`fe_protocol_process` is run on them, up to the point where it has the first message
behind the StartupMessage in front of it, or waits for more bytes.

Main results:

- Definition {lit}`ClientHello`: the packets of the startup phase.
- Theorem {lit}`startupParams_last`: the parameters read from the buffer.
- Theorem {lit}`process_requests`: the loop on SSLRequests.
- Theorem {lit}`round_wait`, {lit}`round_startup`: the loop on a part of a packet, and on a
  StartupMessage.
-/

namespace Sharegres

open Foundation

variable {pos : Nat} {rb : RecvBuf}

/-! ## Packets -/

/-- A packet without a type: its length, and its body. -/
def startupPacket (body : Text) : Text :=
  be32Bytes (4 + body.length) ++ body

/-- An SSLRequest. -/
def sslRequest : Text :=
  startupPacket (be32Bytes pgSslRequest)

/-- A parameter of a StartupMessage: a name and a value. -/
def paramBytes (param : Text × Text) : Text :=
  param.1 ++ 0 :: (param.2 ++ [0])

/-- What a StartupMessage carries: a version of protocol 3, the parameters and a
terminator. -/
def startupBody (minor : Nat) (params : List (Text × Text)) : Text :=
  be32Bytes (3 * 65536 + minor) ++ (params.flatMap paramBytes ++ [0])

/-- The packets of the startup phase: some SSLRequests and a StartupMessage that the proxy
takes. -/
structure ClientHello where
  requests : Nat
  minor : Nat
  params : List (Text × Text)
  minor_lt : minor < 65536
  names : ∀ param ∈ params, param.1 ≠ [] ∧ 0 ∉ param.1 ∧ 0 ∉ param.2
  size : (startupPacket (startupBody minor params)).length ≤ 65535

namespace ClientHello

/-- The StartupMessage. -/
def message (hello : ClientHello) : Text :=
  startupPacket (startupBody hello.minor hello.params)

/-- All packets. -/
def bytes (hello : ClientHello) : Text :=
  (List.replicate hello.requests sslRequest).flatten ++ hello.message

/-- The value given last to a parameter. -/
def last (params : List (Text × Text)) (name : Text) : Option Text :=
  ((params.filter fun param => param.1 = name).map Prod.snd).getLast?

/-- The user of the session. -/
def user (hello : ClientHello) : Text :=
  (last hello.params (ascii "user")).getD (ascii "unknown")

/-- The database of the session. -/
def database (hello : ClientHello) : Text :=
  (last hello.params (ascii "database")).getD hello.user

end ClientHello

theorem startupPacket_length (body : Text) : (startupPacket body).length = 4 + body.length := by
  rw [startupPacket, List.length_append, be32Bytes_length]

/-- The length in front of a packet. -/
theorem be32At_startupPacket {body : Text} (hsize : (startupPacket body).length ≤ 65535)
    (rest : Text) : be32At (startupPacket body ++ rest) 0 = (startupPacket body).length := by
  rw [startupPacket_length] at hsize
  rw [startupPacket_length, startupPacket, List.append_assoc, be32At_be32Bytes]
  omega

/-- The code or version in a packet. -/
theorem be32At_body (n : Nat) (body rest : Text) :
    be32At (startupPacket (be32Bytes n ++ body) ++ rest) 4 = n % 2 ^ 32 := by
  rw [be32At_drop, startupPacket, List.append_assoc,
    List.drop_append_of_le_length (Nat.le_of_eq (be32Bytes_length _).symm),
    List.drop_eq_nil_of_le (Nat.le_of_eq (be32Bytes_length _)), List.nil_append, List.append_assoc,
    be32At_be32Bytes]

/-! ## Parameters -/

/-- The last value of a parameter counts. -/
theorem ClientHello.last_cons (param : Text × Text) (params : List (Text × Text)) (name : Text) :
    last (param :: params) name =
      (last params name).or (if param.1 = name then some param.2 else none) := by
  unfold last
  by_cases hname : param.1 = name
  · rw [List.filter_cons_of_pos (by simp [hname]), List.map_cons, if_pos hname,
      List.getLast?_cons]
    cases ((params.filter fun param => param.1 = name).map Prod.snd).getLast? <;> rfl
  · rw [List.filter_cons_of_neg (by simp [hname]), if_neg hname, Option.or_none]

/-- A text up to its terminator. -/
theorem cstring_of_drop {str rest : Text} (hclean : 0 ∉ str)
    (hdrop : rb.data.drop pos = str ++ 0 :: rest) : rb.cstring pos = str := by
  rw [RecvBuf.cstring, hdrop, takeWhile_eq_iff_isPrefix hclean (by simp)]
  exact ⟨rest, by simp⟩

theorem byte_of_drop {b : UInt8} {rest : Text} (hdrop : rb.data.drop pos = b :: rest) :
    rb.byte pos = b := by
  have hget := congrArg (fun xs => xs.getD 0 0) hdrop
  simpa [RecvBuf.byte, List.getD_eq_getElem?_getD, List.getElem?_drop] using hget

theorem drop_behind {str rest : Text} (hdrop : rb.data.drop pos = str ++ 0 :: rest) :
    rb.data.drop (pos + str.length + 1) = rest := by
  rw [Nat.add_assoc, ← List.drop_drop, hdrop, List.append_cons,
    show str.length + 1 = (str ++ [0]).length by simp, List.drop_left]

/-- The assignment for one parameter. -/
def Session.takeParam (s : Session) (param : Text × Text) : Session :=
  if param.1 = ascii "user" then { s with user := some param.2 }
  else if param.1 = ascii "database" then { s with database := some param.2 }
  else s

theorem paramBytes_length (param : Text × Text) :
    (paramBytes param).length = param.1.length + 1 + param.2.length + 1 := by
  rw [paramBytes, List.length_append, List.length_cons, List.length_append, List.length_singleton]
  omega

/-- The first byte of a name. -/
theorem byte_ne_zero {name rest : Text} (hne : name ≠ []) (hclean : 0 ∉ name)
    (hdrop : rb.data.drop pos = name ++ rest) : rb.byte pos ≠ 0 := by
  rcases List.exists_cons_of_ne_nil hne with ⟨b, more, rfl⟩
  rw [List.cons_append] at hdrop
  rw [byte_of_drop hdrop]
  exact fun h => hclean (h ▸ List.mem_cons_self ..)

/-- The loop goes on behind a parameter. -/
theorem startupParams_param {msgLen pos : Nat} {param : Text × Text} {rest : Text}
    (hparam : param.1 ≠ [] ∧ 0 ∉ param.1 ∧ 0 ∉ param.2)
    (hdrop : rb.data.drop pos = paramBytes param ++ rest)
    (hend : pos + (paramBytes param).length ≤ msgLen) (fuel : Nat) (s : Session) :
    rb.data.drop (pos + (paramBytes param).length) = rest ∧
      startupParams rb msgLen (fuel + 1) pos s =
        startupParams rb msgLen fuel (pos + (paramBytes param).length) (s.takeParam param) := by
  rcases hparam with ⟨hne, hname, hval⟩
  have hlength := paramBytes_length param
  rw [paramBytes, List.append_assoc, List.cons_append, List.append_assoc,
    List.singleton_append] at hdrop
  have hkey := cstring_of_drop hname hdrop
  have hdropVal := drop_behind hdrop
  have hvalue := cstring_of_drop hval hdropVal
  have hbyte : rb.byte pos ≠ 0 := byte_ne_zero hne hname hdrop
  have hnext : pos + (paramBytes param).length =
      pos + param.1.length + 1 + param.2.length + 1 := by omega
  refine ⟨by rw [hnext]; exact drop_behind hdropVal, ?_⟩
  rw [startupParams, if_neg (by rw [not_or]; exact ⟨by omega, hbyte⟩)]
  dsimp only
  rw [hkey, if_neg (by omega), hvalue, hnext]
  rfl

/-- The loop over the parameters takes the last user and the last database. -/
theorem startupParams_last {msgLen : Nat} (params : List (Text × Text))
    (hnames : ∀ param ∈ params, param.1 ≠ [] ∧ 0 ∉ param.1 ∧ 0 ∉ param.2) :
    ∀ (fuel pos : Nat) (s : Session) (rest : Text), params.length ≤ fuel →
      rb.data.drop pos = params.flatMap paramBytes ++ 0 :: rest →
      pos + (params.flatMap paramBytes).length < msgLen →
      startupParams rb msgLen fuel pos s =
        { s with
          user := (ClientHello.last params (ascii "user")).or s.user
          database := (ClientHello.last params (ascii "database")).or s.database } := by
  induction params with
  | nil =>
      intro fuel pos s rest _ hdrop _
      have hbyte : rb.byte pos = 0 := byte_of_drop hdrop
      cases fuel with
      | zero => rfl
      | succ fuel =>
          rw [startupParams, if_pos (Or.inr hbyte)]
          rfl
  | cons param params ih =>
      intro fuel pos s rest hfuel hdrop hend
      rw [List.flatMap_cons, List.length_append] at hend
      rw [List.flatMap_cons, List.append_assoc] at hdrop
      cases fuel with
      | zero => exact absurd hfuel (Nat.not_succ_le_zero _)
      | succ fuel =>
          have hroom : pos + (paramBytes param).length ≤ msgLen := by omega
          rcases startupParams_param (hnames param (List.mem_cons_self ..)) hdrop hroom fuel s with
            ⟨hbehind, hstep⟩
          rw [hstep, ih (fun p hp => hnames p (List.mem_cons_of_mem _ hp)) fuel _ _ rest
            (Nat.le_of_succ_le_succ hfuel) hbehind (by omega), ClientHello.last_cons,
            ClientHello.last_cons, Session.takeParam]
          have hdistinct : ascii "user" ≠ ascii "database" := by decide +kernel
          by_cases huser : param.1 = ascii "user"
          · rw [if_pos huser, if_pos huser, if_neg (huser ▸ hdistinct)]
            simp
          · rw [if_neg huser, if_neg huser]
            by_cases hdatabase : param.1 = ascii "database"
            · rw [if_pos hdatabase, if_pos hdatabase]
              simp
            · rw [if_neg hdatabase, if_neg hdatabase]
              simp

/-! ## Rounds -/

section Rounds

variable {s : Session} {body rest : Text}

/-- A part of a packet is left in the buffer. -/
theorem round_wait (outcome : PutOutcome) (hinit : s.state = .init)
    (hsize : (startupPacket body).length ≤ 65535)
    (hpart : s.recvBuf.content <+: startupPacket body ++ rest)
    (hshort : s.recvBuf.content.length < (startupPacket body).length) :
    feProtocolRound outcome s = .ret s true := by
  unfold feProtocolRound
  dsimp only
  rw [if_pos hinit]
  by_cases hfour : s.recvBuf.len < 4
  · rw [if_pos hfour]
  · have hlength : s.recvBuf.be32 0 = (startupPacket body).length := by
      rcases hpart with ⟨more, hmore⟩
      rw [← RecvBuf.be32_content (by omega), ← be32At_startupPacket hsize rest, ← hmore,
        be32At_append (by rw [RecvBuf.content_length]; omega)]
    rw [RecvBuf.content_length] at hshort
    rw [if_neg hfour, hlength, if_neg (by rw [startupPacket_length] at hsize ⊢; omega),
      if_pos hshort]

/-- The loop goes on behind a whole packet that is taken. -/
theorem round_packet (outcome : PutOutcome) {t : Session} (hinit : s.state = .init)
    (hsize : (startupPacket body).length ≤ 65535)
    (hcontent : s.recvBuf.content = startupPacket body ++ rest)
    (htaken : handleStartupMessage (startupPacket body).length s = (t, true)) :
    feProtocolRound outcome s = .next t := by
  have hlen : (startupPacket body).length ≤ s.recvBuf.len := by
    rw [← s.recvBuf.content_length, hcontent, List.length_append]
    exact Nat.le_add_right _ _
  have hfour : 4 ≤ (startupPacket body).length := by
    rw [startupPacket_length]
    exact Nat.le_add_right _ _
  have hlength : s.recvBuf.be32 0 = (startupPacket body).length := by
    rw [← RecvBuf.be32_content (by omega), hcontent, be32At_startupPacket hsize]
  unfold feProtocolRound
  dsimp only
  rw [if_pos hinit, if_neg (by omega), hlength, if_neg (by omega), if_neg (by omega), htaken]

/-- The code or version of the packet in front. -/
theorem be32_of_packet {n : Nat}
    (hcontent : s.recvBuf.content = startupPacket (be32Bytes n ++ body) ++ rest) :
    s.recvBuf.be32 4 = n % 2 ^ 32 := by
  have hlen : 4 + 4 ≤ s.recvBuf.len := by
    rw [← s.recvBuf.content_length, hcontent, List.length_append, startupPacket_length,
      List.length_append, be32Bytes_length]
    omega
  rw [← RecvBuf.be32_content hlen, hcontent, be32At_body]

/-- An SSLRequest is refused. -/
theorem round_request (outcome : PutOutcome) (hinit : s.state = .init)
    (hcontent : s.recvBuf.content = sslRequest ++ rest) :
    feProtocolRound outcome s =
      .next { s.queue .proxy .sslRefused with recvBuf := s.recvBuf.consume 8 } := by
  have hversion : s.recvBuf.be32 4 = pgSslRequest := by
    rw [sslRequest, ← List.append_nil (be32Bytes pgSslRequest)] at hcontent
    rw [be32_of_packet hcontent]
    rfl
  refine round_packet outcome hinit (by decide) hcontent ?_
  rw [show (startupPacket (be32Bytes pgSslRequest)).length = 8 from rfl, handleStartupMessage,
    if_neg (by omega)]
  dsimp only
  rw [if_pos hversion]

end Rounds

/-- The session behind the StartupMessage. -/
def ClientHello.welcome (hello : ClientHello) (s : Session) (rb : RecvBuf) : Session :=
  { (({ s with
        user := some hello.user
        database := some hello.database
        recvBuf := rb }).queueAll .proxy (startupMessages s.pid s.secretKey)).queueReady .idle with
    state := .ready }

theorem length_le_flatMap_paramBytes (params : List (Text × Text)) :
    params.length ≤ (params.flatMap paramBytes).length := by
  induction params with
  | nil => exact Nat.le_refl _
  | cons param params ih =>
      rw [List.flatMap_cons, List.length_append, List.length_cons, paramBytes, List.length_append,
        List.length_cons]
      omega

/-- The StartupMessage is answered. -/
theorem round_startup (hello : ClientHello) (outcome : PutOutcome) {s : Session} {rest : Text}
    (hinit : s.state = .init) (huser : s.user = none) (hdatabase : s.database = none)
    (hcontent : s.recvBuf.content = hello.message ++ rest) :
    feProtocolRound outcome s =
      .next (hello.welcome s (s.recvBuf.consume hello.message.length)) := by
  have hversion := be32_of_packet hcontent
  rw [Nat.mod_eq_of_lt (by have := hello.minor_lt; omega)] at hversion
  have hmajor : s.recvBuf.be32 4 / 65536 = 3 := by
    have := hello.minor_lt
    omega
  have hlength : hello.message.length = 8 + ((hello.params.flatMap paramBytes).length + 1) := by
    rw [ClientHello.message, startupPacket_length, startupBody, List.length_append,
      be32Bytes_length, List.length_append, List.length_singleton]
    omega
  have hdrop : s.recvBuf.data.drop 8 =
      hello.params.flatMap paramBytes ++ 0 :: (rest ++ s.recvBuf.data.drop s.recvBuf.len) := by
    have hdata : s.recvBuf.data = s.recvBuf.content ++ s.recvBuf.data.drop s.recvBuf.len :=
      (List.take_append_drop ..).symm
    generalize s.recvBuf.data.drop s.recvBuf.len = stale at hdata ⊢
    rw [hdata, hcontent]
    change hello.params.flatMap paramBytes ++ [0] ++ rest ++ stale = _
    simp
  have hfuel : hello.params.length ≤ hello.message.length := by
    have := length_le_flatMap_paramBytes hello.params
    omega
  have hparams : startupParams s.recvBuf hello.message.length hello.message.length 8 s = _ :=
    startupParams_last hello.params hello.names _ 8 s _ hfuel hdrop (by omega)
  refine round_packet outcome hinit hello.size hcontent ?_
  rw [show (startupPacket (startupBody hello.minor hello.params)).length = hello.message.length
    from rfl, handleStartupMessage, if_neg (by omega)]
  dsimp only
  rw [if_neg (by unfold pgSslRequest; omega), if_neg (by unfold pgCancelRequest; omega),
    if_neg (by omega), hparams, huser, hdatabase, Option.or_none, Option.or_none]
  rfl

/-! ## The loop -/

/-- A round of the loop. -/
theorem process_next {puts : Nat → PutOutcome} {k : Nat} {s t : Session}
    (hlen : s.recvBuf.len ≠ 0) (hround : feProtocolRound (puts k) s = .next t) (rounds : Nat) :
    feProtocolProcess puts (rounds + 1) k s = feProtocolProcess puts rounds (k + 1) t := by
  rw [feProtocolProcess, if_neg hlen, hround]

/-- The session behind some SSLRequests. -/
def Session.refusing (s : Session) (n : Nat) (rb : RecvBuf) : Session :=
  { s.queueAll .proxy (List.replicate n .sslRefused) with recvBuf := rb }

/-- The loop refuses the SSLRequests in front. -/
theorem process_requests (puts : Nat → PutOutcome) (n : Nat) :
    ∀ (k : Nat) (s : Session) (rest : Text), s.state = .init →
      s.recvBuf.content = (List.replicate n sslRequest).flatten ++ rest →
      ∃ rb : RecvBuf, rb.content = rest ∧ ∀ rounds,
        feProtocolProcess puts (rounds + n) k s =
          feProtocolProcess puts rounds (k + n) (s.refusing n rb) := by
  induction n with
  | zero =>
      intro k s rest _ hcontent
      refine ⟨s.recvBuf, hcontent, fun rounds => ?_⟩
      rw [show s.refusing 0 s.recvBuf = s by simp [Session.refusing, Session.queueAll]]
      rfl
  | succ n ih =>
      intro k s rest hinit hcontent
      rw [List.replicate_succ, List.flatten_cons, List.append_assoc] at hcontent
      have hround := round_request (puts k) hinit hcontent
      have hlen : s.recvBuf.len ≠ 0 := by
        rw [← s.recvBuf.content_length, hcontent, List.length_append]
        exact Nat.ne_of_gt (Nat.lt_of_lt_of_le (by decide : 0 < sslRequest.length)
          (Nat.le_add_right _ _))
      rcases ih (k + 1) { s.queue .proxy .sslRefused with recvBuf := s.recvBuf.consume 8 } rest
        hinit (by rw [RecvBuf.content_consume, hcontent]; rfl) with ⟨rb, hrest, hloop⟩
      refine ⟨rb, hrest, fun rounds => ?_⟩
      rw [← Nat.add_assoc, process_next hlen hround, hloop, Nat.add_right_comm k 1 n, Nat.add_assoc]
      congr 1
      simp [Session.refusing, Session.queueAll, Session.queue, List.replicate_succ]

end Sharegres
