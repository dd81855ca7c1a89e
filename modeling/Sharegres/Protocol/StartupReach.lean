import Sharegres.Protocol.Rounds
import Sharegres.Protocol.Startup

/-!
# Protocol - How far startup parsing reads

The bound on the parameters of a StartupMessage is tested where a name or a value starts, and
each of them is then read up to a NUL.  A value that has no NUL within its packet is read on into
the bytes behind it: those of the next message, or those that an earlier message left there.

Main results:

- Definition {lit}`ReadsOwnMessage`: what follows a packet has no influence.
- Theorem {lit}`startupParams_agree`: the parameters read from two buffers.
- Theorem {lit}`reads_own_message_iff`: the packet alone decides if and only if it does not end
  within a user or a database.
- Theorem {lit}`user_read_on`: a user with bytes of the next message.
-/

namespace Sharegres

open Foundation

variable {msgLen pos : Nat}

/-! ## Two buffers -/

/-- The outcome of {lit}`handle_startup_message` for a packet in a buffer: the flag, and the
session without the buffer. -/
def startupOutcome (packet : Text) (s : Session) (rb : RecvBuf) : Session × Bool :=
  let r := handleStartupMessage packet.length { s with recvBuf := rb }
  ({ r.1 with recvBuf := .empty }, r.2)

/-- Buffers that start with the packet lead to the same outcome, whatever follows it in their
content or stands behind their content. -/
def ReadsOwnMessage (packet : Text) (s : Session) : Prop :=
  ∀ rb rb' : RecvBuf, packet <+: rb.content → packet <+: rb'.content →
    startupOutcome packet s rb = startupOutcome packet s rb'

/-- The bytes end within the value of a parameter, which is not empty so far, behind parameters
that are complete. -/
def EndsInValue (name bytes : Text) : Prop :=
  ∃ params : List (Text × Text), ∃ value : Text,
    (∀ param ∈ params, param.1 ≠ [] ∧ 0 ∉ param.1 ∧ 0 ∉ param.2) ∧ value ≠ [] ∧ 0 ∉ value ∧
    bytes = params.flatMap paramBytes ++ (name ++ 0 :: value)

/-- A StartupMessage of protocol 3 ends within its user or its database. -/
def LeavesValueOpen (packet : Text) : Prop :=
  be32At packet 4 / 65536 = 3 ∧
    (EndsInValue (ascii "user") (packet.drop 8) ∨ EndsInValue (ascii "database") (packet.drop 8))

theorem EndsInValue.cons {name bytes : Text} {param : Text × Text}
    (hparam : param.1 ≠ [] ∧ 0 ∉ param.1 ∧ 0 ∉ param.2) (h : EndsInValue name bytes) :
    EndsInValue name (paramBytes param ++ bytes) := by
  rcases h with ⟨params, value, hparams, hne, hclean, rfl⟩
  refine ⟨param :: params, value, ?_, hne, hclean, ?_⟩
  · intro p hp
    rcases List.mem_cons.mp hp with rfl | hp
    · exact hparam
    · exact hparams p hp
  · rw [List.flatMap_cons, List.append_assoc]

/-! ## Texts in the packet -/

section Reads

variable {packet : Text} {rb rb' : RecvBuf}

/-- What stands in the allocation from a position of the packet on. -/
theorem drop_of_isPrefix (h : packet <+: rb.content) (hpos : pos ≤ packet.length) :
    ∃ behind, rb.data.drop pos = packet.drop pos ++ behind := by
  have hdata : packet <+: rb.data := h.trans (List.take_prefix _ _)
  rcases hdata with ⟨behind, hbehind⟩
  exact ⟨behind, by rw [← hbehind, List.drop_append_of_le_length hpos]⟩

/-- A text without a NUL in the packet is read beyond it. -/
theorem le_cstring_of_open (h : packet <+: rb.content) (hpos : pos ≤ packet.length)
    (hopen : 0 ∉ packet.drop pos) : packet.length ≤ pos + (rb.cstring pos).length := by
  rcases drop_of_isPrefix h hpos with ⟨behind, hdrop⟩
  rw [RecvBuf.cstring, hdrop, List.takeWhile_append_of_pos, List.length_append, List.length_drop]
  · omega
  · intro b hb
    simp only [ne_eq, decide_eq_true_eq]
    rintro rfl
    exact hopen hb

/-- A text with its NUL in the packet is read from it. -/
theorem cstring_of_closed (h : packet <+: rb.content) (hpos : pos ≤ packet.length) {str rest : Text}
    (hclean : 0 ∉ str) (hdrop : packet.drop pos = str ++ 0 :: rest) :
    rb.cstring pos = str := by
  rcases drop_of_isPrefix h hpos with ⟨behind, hbehind⟩
  rw [hdrop, List.append_assoc, List.cons_append] at hbehind
  exact cstring_of_drop hclean hbehind

theorem length_le_len (h : packet <+: rb.content) : packet.length ≤ rb.len := by
  rw [← rb.content_length]
  exact h.length_le

/-- A field of the packet in the buffer. -/
theorem be32_of_isPrefix (h : packet <+: rb.content) (hpos : pos + 4 ≤ packet.length) :
    rb.be32 pos = be32At packet pos := by
  have hlen := length_le_len h
  rcases h with ⟨more, hmore⟩
  rw [← RecvBuf.be32_content (by omega), ← hmore, be32At_append hpos]

end Reads

/-! ## Parameters that end in the packet -/

theorem startupParams_end {rb : RecvBuf} (hpos : msgLen ≤ pos) (fuel : Nat) (s : Session) :
    startupParams rb msgLen fuel pos s = s := by
  cases fuel with
  | zero => rfl
  | succ fuel => rw [startupParams, if_pos (Or.inl hpos)]

/-- The loop ends at a name that has no NUL in the packet, or no byte behind its NUL. -/
theorem startupParams_name {rb : RecvBuf} (hend : msgLen ≤ pos + (rb.cstring pos).length + 1)
    (fuel : Nat) (s : Session) :
    startupParams rb msgLen fuel pos s = s := by
  cases fuel with
  | zero => rfl
  | succ fuel =>
      rw [startupParams]
      split
      · rfl
      · dsimp only
        rw [if_pos hend]

/-- The loop ends behind a value that has no NUL in the packet. -/
theorem startupParams_value {rb : RecvBuf} (param : Text × Text) (hname : rb.cstring pos = param.1)
    (hbyte : rb.byte pos ≠ 0) (hvalue : rb.cstring (pos + param.1.length + 1) = param.2)
    (hstart : pos + param.1.length + 1 < msgLen)
    (hend : msgLen ≤ pos + param.1.length + 1 + param.2.length) (fuel : Nat) (s : Session) :
    startupParams rb msgLen (fuel + 1) pos s = s.takeParam param := by
  rw [startupParams, if_neg (by rw [not_or]; exact ⟨by omega, hbyte⟩)]
  dsimp only
  rw [hname, if_neg (by omega), hvalue]
  exact startupParams_end (by omega) fuel (s.takeParam param)

/-- At a position of the packet the loop ends, whatever follows the packet, or there is a name
with its NUL and the start of a value. -/
theorem startupParams_stops (packet : Text) (pos : Nat) :
    (∀ rb : RecvBuf, packet <+: rb.content → ∀ fuel s,
        startupParams rb packet.length fuel pos s = s) ∨
      ∃ name after, name ≠ [] ∧ 0 ∉ name ∧ after ≠ [] ∧ packet.drop pos = name ++ 0 :: after := by
  by_cases hend : packet.length ≤ pos
  · exact Or.inl fun rb _ fuel s => startupParams_end hend fuel s
  by_cases hnul : 0 ∈ packet.drop pos
  · rcases List.eq_append_cons_of_mem hnul with ⟨name, after, hsplit, hclean⟩
    by_cases hname : name = []
    · -- the terminator of the parameters
      subst hname
      refine Or.inl fun rb h fuel s => ?_
      rcases drop_of_isPrefix h (by omega : pos ≤ packet.length) with ⟨behind, hbehind⟩
      rw [hsplit] at hbehind
      cases fuel with
      | zero => rfl
      | succ fuel => rw [startupParams, if_pos (Or.inr (byte_of_drop hbehind))]
    · by_cases hafter : after = []
      · refine Or.inl fun rb h fuel s => startupParams_name ?_ fuel s
        have hlen := congrArg List.length hsplit
        rw [hafter, List.length_drop, List.length_append, List.length_singleton] at hlen
        rw [cstring_of_closed h (by omega) hclean hsplit]
        omega
      · exact Or.inr ⟨name, after, hname, hclean, hafter, hsplit⟩
  · -- a name that is read on
    refine Or.inl fun rb h fuel s => startupParams_name ?_ fuel s
    have hlong := le_cstring_of_open h (by omega) hnul
    omega

/-- The loop ends with a parameter whose value has no NUL in the packet. -/
theorem startupParams_open {packet : Text} {name after : Text} (hne : name ≠ []) (hclean : 0 ∉ name)
    (hafter : after ≠ []) (hopen : 0 ∉ after) (hsplit : packet.drop pos = name ++ 0 :: after)
    {rb : RecvBuf} (h : packet <+: rb.content) (fuel : Nat) (s : Session) :
    startupParams rb packet.length (fuel + 1) pos s =
      s.takeParam (name, rb.cstring (pos + name.length + 1)) := by
  have hlen := congrArg List.length hsplit
  rw [List.length_drop, List.length_append, List.length_cons] at hlen
  have hpos := List.length_pos_iff.mpr hafter
  have hvalue : packet.drop (pos + name.length + 1) = after := by
    rw [Nat.add_assoc, ← List.drop_drop, hsplit, List.append_cons,
      show name.length + 1 = (name ++ [0]).length by simp, List.drop_left]
  have hlong := le_cstring_of_open h (by omega) (hvalue ▸ hopen)
  rcases drop_of_isPrefix h (by omega : pos ≤ packet.length) with ⟨behind, hbehind⟩
  rw [hsplit, List.append_assoc] at hbehind
  exact startupParams_value (name, rb.cstring (pos + name.length + 1))
    (cstring_of_closed h (by omega) hclean hsplit) (byte_ne_zero hne hclean hbehind) rfl
    (show pos + name.length + 1 < packet.length by omega) hlong fuel s

theorem takeParam_congr {s s' : Session} (huser : s.user = s'.user)
    (hdatabase : s.database = s'.database) (param : Text × Text) :
    (s.takeParam param).user = (s'.takeParam param).user ∧
      (s.takeParam param).database = (s'.takeParam param).database := by
  unfold Session.takeParam
  split
  · exact ⟨rfl, hdatabase⟩
  · split
    · exact ⟨huser, rfl⟩
    · exact ⟨huser, hdatabase⟩

/-- A parameter that the proxy does not use. -/
theorem takeParam_other {s : Session} {param : Text × Text} (huser : param.1 ≠ ascii "user")
    (hdatabase : param.1 ≠ ascii "database") : s.takeParam param = s := by
  rw [Session.takeParam, if_neg huser, if_neg hdatabase]

/-- From two buffers that start with a packet which does not end within a user or a database,
the same parameters are read. -/
theorem startupParams_agree {packet : Text} {rb rb' : RecvBuf} (h : packet <+: rb.content)
    (h' : packet <+: rb'.content) (fuel : Nat) :
    ∀ (pos : Nat) (s s' : Session), ¬ EndsInValue (ascii "user") (packet.drop pos) →
      ¬ EndsInValue (ascii "database") (packet.drop pos) → s.user = s'.user →
      s.database = s'.database →
      (startupParams rb packet.length fuel pos s).user =
          (startupParams rb' packet.length fuel pos s').user ∧
        (startupParams rb packet.length fuel pos s).database =
          (startupParams rb' packet.length fuel pos s').database := by
  induction fuel with
  | zero => exact fun pos s s' _ _ huser hdatabase => ⟨huser, hdatabase⟩
  | succ fuel ih =>
      intro pos s s' hnoUser hnoDatabase huser hdatabase
      rcases startupParams_stops packet pos with hstops | ⟨name, after, hne, hclean, hafter, hsplit⟩
      · rw [hstops rb h, hstops rb' h']
        exact ⟨huser, hdatabase⟩
      by_cases hvalue : 0 ∈ after
      · -- a complete parameter
        rcases List.eq_append_cons_of_mem hvalue with ⟨value, rest, rfl, hcleanVal⟩
        have hparam : name ≠ [] ∧ 0 ∉ name ∧ 0 ∉ value := ⟨hne, hclean, hcleanVal⟩
        have hbytes : packet.drop pos = paramBytes (name, value) ++ rest := by
          rw [hsplit, paramBytes]
          simp
        have hlen := congrArg List.length hbytes
        rw [List.length_drop, List.length_append] at hlen
        have hsome := paramBytes_length (name, value)
        have hnext : packet.drop (pos + (paramBytes (name, value)).length) = rest := by
          rw [← List.drop_drop, hbytes, List.drop_left]
        have hstep : ∀ {buf : RecvBuf}, packet <+: buf.content → ∀ t : Session,
            startupParams buf packet.length (fuel + 1) pos t =
              startupParams buf packet.length fuel (pos + (paramBytes (name, value)).length)
                (t.takeParam (name, value)) := by
          intro buf hbuf t
          rcases drop_of_isPrefix hbuf (by omega : pos ≤ packet.length) with ⟨behind, hbehind⟩
          rw [hbytes, List.append_assoc] at hbehind
          exact (startupParams_param hparam hbehind (by omega) fuel t).2
        have htaken := takeParam_congr huser hdatabase (name, value)
        rw [hstep h, hstep h']
        refine ih _ _ _ ?_ ?_ htaken.1 htaken.2
        · rw [hnext]
          exact fun hopen => hnoUser (hbytes ▸ hopen.cons hparam)
        · rw [hnext]
          exact fun hopen => hnoDatabase (hbytes ▸ hopen.cons hparam)
      · -- a value that is read on, of a parameter that is not kept
        have hopen : ∀ kept, name = kept → EndsInValue kept (packet.drop pos) := by
          rintro kept rfl
          exact ⟨[], after, by simp, hafter, hvalue, hsplit⟩
        have hother : ∀ {buf : RecvBuf}, packet <+: buf.content → ∀ t : Session,
            startupParams buf packet.length (fuel + 1) pos t = t := by
          intro buf hbuf t
          rw [startupParams_open hne hclean hafter hvalue hsplit hbuf]
          exact takeParam_other (fun hkept => hnoUser (hopen _ hkept))
            (fun hkept => hnoDatabase (hopen _ hkept))
        rw [hother h, hother h']
        exact ⟨huser, hdatabase⟩

/-! ## A value that is read on -/

/-- Behind complete parameters the loop takes the open value with what follows it. -/
theorem startupParams_reads_on {packet : Text} {rb : RecvBuf} (h : packet <+: rb.content)
    {name value : Text} (hne : name ≠ []) (hclean : 0 ∉ name) (hvalue : value ≠ [])
    (hopen : 0 ∉ value) (params : List (Text × Text))
    (hparams : ∀ param ∈ params, param.1 ≠ [] ∧ 0 ∉ param.1 ∧ 0 ∉ param.2) :
    ∀ (fuel pos : Nat) (s : Session), params.length < fuel →
      packet.drop pos = params.flatMap paramBytes ++ (name ++ 0 :: value) →
      ∃ t : Session, startupParams rb packet.length fuel pos s =
        t.takeParam (name, rb.cstring (packet.length - value.length)) := by
  induction params with
  | nil =>
      intro fuel pos s hfuel hsplit
      rw [List.flatMap_nil, List.nil_append] at hsplit
      have hlen := congrArg List.length hsplit
      rw [List.length_drop, List.length_append, List.length_cons] at hlen
      have hpos : packet.length - value.length = pos + name.length + 1 := by omega
      rcases Nat.exists_eq_add_of_lt hfuel with ⟨more, rfl⟩
      refine ⟨s, ?_⟩
      rw [hpos]
      exact startupParams_open hne hclean hvalue hopen hsplit h _ s
  | cons param params ih =>
      intro fuel pos s hfuel hsplit
      rw [List.flatMap_cons, List.append_assoc] at hsplit
      have hlen := congrArg List.length hsplit
      rw [List.length_drop, List.length_append] at hlen
      have hsome := paramBytes_length param
      cases fuel with
      | zero => exact absurd hfuel (Nat.not_lt_zero _)
      | succ fuel =>
          rcases drop_of_isPrefix h (by omega : pos ≤ packet.length) with ⟨behind, hbehind⟩
          rw [hsplit, List.append_assoc] at hbehind
          have hroom : pos + (paramBytes param).length ≤ packet.length := by omega
          rw [(startupParams_param (hparams param List.mem_cons_self) hbehind hroom fuel s).2]
          refine ih (fun p hp => hparams p (List.mem_cons_of_mem _ hp)) fuel _ _
            (Nat.lt_of_succ_lt_succ hfuel) ?_
          rw [← List.drop_drop, hsplit, List.drop_left]

/-! ## The outcome -/

/-- The outcome of a StartupMessage with these parameters. -/
def greeted (s : Session) (user database : Option Text) : Session × Bool :=
  let user := user.getD (ascii "unknown")
  let s := { s with
    user := some user, database := some (database.getD user), recvBuf := .empty }
  ({ (s.queueAll .proxy (startupMessages s.pid s.secretKey)).queueReady .idle with
      state := .ready }, true)

section Outcome

variable {packet : Text} {s : Session} {rb rb' : RecvBuf}

/-- A packet of protocol version 3 is greeted. -/
theorem startupOutcome_greeted (h : packet <+: rb.content) (hlen : 8 ≤ packet.length)
    (hversion : be32At packet 4 / 65536 = 3) :
    startupOutcome packet s rb = greeted s
      (startupParams rb packet.length packet.length 8 { s with recvBuf := rb }).user
      (startupParams rb packet.length packet.length 8 { s with recvBuf := rb }).database := by
  have hfour : rb.be32 4 = be32At packet 4 := be32_of_isPrefix h (by omega)
  rcases startupParams_eq rb packet.length packet.length 8 { s with recvBuf := rb } with
    ⟨user, database, hparams⟩
  unfold startupOutcome handleStartupMessage
  dsimp only
  rw [if_neg (by omega), hfour, if_neg (by unfold pgSslRequest; omega),
    if_neg (by unfold pgCancelRequest; omega), if_neg (by omega), hparams]
  rfl

/-- The packet alone decides unless it is a StartupMessage. -/
theorem startupOutcome_other (h : packet <+: rb.content) (h' : packet <+: rb'.content)
    (hother : ¬ (8 ≤ packet.length ∧ be32At packet 4 / 65536 = 3)) :
    startupOutcome packet s rb = startupOutcome packet s rb' := by
  unfold startupOutcome handleStartupMessage
  dsimp only
  by_cases hlen : packet.length < 8
  · rw [if_pos hlen, if_pos hlen]
  · rw [if_neg hlen, if_neg hlen, be32_of_isPrefix h (by omega), be32_of_isPrefix h' (by omega)]
    by_cases hssl : be32At packet 4 = pgSslRequest
    · rw [if_pos hssl, if_pos hssl]
      rfl
    · rw [if_neg hssl, if_neg hssl]
      by_cases hcancel : be32At packet 4 = pgCancelRequest
      · rw [if_pos hcancel, if_pos hcancel]
      · rw [if_neg hcancel, if_neg hcancel, if_pos (by omega), if_pos (by omega)]

/-- A packet that has been received. -/
theorem prefix_receive (packet behind : Text) :
    packet <+: (RecvBuf.empty.receive (packet ++ behind)).content := by
  rw [RecvBuf.content_receive]
  exact List.prefix_append packet behind

/-- The parameters of a packet that ends within a value, in front of a text. -/
theorem startupParams_of_ends {name : Text} (hne : name ≠ []) (hclean : 0 ∉ name)
    (h : EndsInValue name (packet.drop 8)) :
    ∃ value : Text, ∀ tail : Text, 0 ∉ tail → ∀ s : Session, ∃ t : Session,
      startupParams (RecvBuf.empty.receive (packet ++ (tail ++ [0]))) packet.length packet.length
        8 s = t.takeParam (name, value ++ tail) := by
  rcases h with ⟨params, value, hparams, hvalue, hopen, hsplit⟩
  refine ⟨value, fun tail htail s => ?_⟩
  have hdata : (RecvBuf.empty.receive (packet ++ (tail ++ [0]))).data =
      packet ++ (tail ++ [0]) := by
    simp [RecvBuf.empty, RecvBuf.receive]
  have hsuffix : packet.drop (packet.length - value.length) = value := by
    have hends : value <:+ packet := by
      refine List.IsSuffix.trans ⟨params.flatMap paramBytes ++ (name ++ [0]), ?_⟩
        (List.drop_suffix 8 packet)
      rw [hsplit]
      simp
    rcases hends with ⟨front, rfl⟩
    rw [List.length_append, Nat.add_sub_cancel, List.drop_left]
  have hread : (RecvBuf.empty.receive (packet ++ (tail ++ [0]))).cstring
      (packet.length - value.length) = value ++ tail := by
    have hboth : 0 ∉ value ++ tail := by
      rw [List.mem_append, not_or]
      exact ⟨hopen, htail⟩
    have hdrop : (RecvBuf.empty.receive (packet ++ (tail ++ [0]))).data.drop
        (packet.length - value.length) = value ++ tail ++ [0] := by
      rw [hdata, List.drop_append_of_le_length (Nat.sub_le _ _), hsuffix, List.append_assoc]
    exact cstring_of_drop hboth hdrop
  have hfuel : params.length < packet.length := by
    have hlen := congrArg List.length hsplit
    have hcount := length_le_flatMap_paramBytes params
    have hsome := List.length_pos_iff.mpr hvalue
    rw [List.length_drop, List.length_append, List.length_append, List.length_cons] at hlen
    omega
  rw [← hread]
  exact startupParams_reads_on (prefix_receive ..) hne hclean hvalue hopen params hparams _ 8 s
    hfuel hsplit

/-- Two texts behind a packet that ends within a value lead to two outcomes. -/
theorem not_readsOwnMessage {name : Text} (hne : name ≠ []) (hclean : 0 ∉ name)
    (h : EndsInValue name (packet.drop 8)) (hversion : be32At packet 4 / 65536 = 3)
    (read : Session → Option Text)
    (hread : ∀ (s t : Session) (value : Text), read (greeted s
      (t.takeParam (name, value)).user (t.takeParam (name, value)).database).1 = some value) :
    ¬ ReadsOwnMessage packet s := by
  intro hreads
  rcases startupParams_of_ends hne hclean h with ⟨value, hparams⟩
  have hlen : 8 ≤ packet.length := by
    rcases h with ⟨params, value, -, -, -, hsplit⟩
    have hlen := congrArg List.length hsplit
    rw [List.length_drop, List.length_append, List.length_append, List.length_cons] at hlen
    omega
  have houtcome : ∀ tail : Text, 0 ∉ tail →
      read (startupOutcome packet s (RecvBuf.empty.receive (packet ++ (tail ++ [0])))).1 =
        some (value ++ tail) := by
    intro tail htail
    rcases hparams tail htail
      { s with recvBuf := RecvBuf.empty.receive (packet ++ (tail ++ [0])) } with ⟨t, ht⟩
    rw [startupOutcome_greeted (prefix_receive ..) hlen hversion, ht]
    exact hread s t (value ++ tail)
  have hsame := houtcome [] (by simp)
  rw [hreads _ _ (prefix_receive ..) (prefix_receive packet ([120] ++ [0])),
    houtcome [120] (by simp)] at hsame
  simp at hsame

end Outcome

/-- The bytes behind a packet have no influence if and only if it is not a StartupMessage that
ends within its user or its database. -/
theorem reads_own_message_iff (packet : Text) (s : Session) :
    ReadsOwnMessage packet s ↔ ¬ LeavesValueOpen packet := by
  constructor
  · rintro hreads ⟨hversion, huser | hdatabase⟩
    · exact not_readsOwnMessage (by decide) (by simp [ascii]) huser hversion Session.user
        (fun s t value => rfl) hreads
    · exact not_readsOwnMessage (by decide) (by simp [ascii]) hdatabase hversion
        Session.database (fun s t value => rfl) hreads
  · intro hclosed rb rb' h h'
    by_cases hstartup : 8 ≤ packet.length ∧ be32At packet 4 / 65536 = 3
    · rcases hstartup with ⟨hlen, hversion⟩
      have hsame := startupParams_agree h h' packet.length 8 { s with recvBuf := rb }
        { s with recvBuf := rb' } (fun huser => hclosed ⟨hversion, Or.inl huser⟩)
        (fun hdatabase => hclosed ⟨hversion, Or.inr hdatabase⟩) rfl rfl
      rw [startupOutcome_greeted h hlen hversion, startupOutcome_greeted h' hlen hversion,
        hsame.1, hsame.2]
    · exact startupOutcome_other h h' hstartup

/-- A StartupMessage that ends within its user. -/
def openPacket : Text :=
  startupPacket (be32Bytes (3 * 65536) ++ (ascii "user" ++ 0 :: ascii "bob"))

/-- The type of the next message, of a Query or of a Terminate, is taken for a letter of the
user. -/
theorem user_read_on :
    (startupOutcome openPacket { id := 0 } (RecvBuf.empty.receive
        (openPacket ++ queryFrame (ascii "SELECT 1" ++ [0])))).1.user = some (ascii "bobQ") ∧
      (startupOutcome openPacket { id := 0 } (RecvBuf.empty.receive
        (openPacket ++ [88, 0, 0, 0, 4]))).1.user = some (ascii "bobX") ∧
      ¬ ReadsOwnMessage openPacket { id := 0 } := by
  have hquery : (startupOutcome openPacket { id := 0 } (RecvBuf.empty.receive
      (openPacket ++ queryFrame (ascii "SELECT 1" ++ [0])))).1.user = some (ascii "bobQ") := by
    decide +kernel
  have hterminate : (startupOutcome openPacket { id := 0 } (RecvBuf.empty.receive
      (openPacket ++ [88, 0, 0, 0, 4]))).1.user = some (ascii "bobX") := by
    decide +kernel
  refine ⟨hquery, hterminate, fun hreads => ?_⟩
  rw [hreads _ _ (prefix_receive ..) (prefix_receive openPacket [88, 0, 0, 0, 4]),
    hterminate] at hquery
  exact absurd hquery (by decide +kernel)

end Sharegres
