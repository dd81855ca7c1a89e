import Sharegres.Pool.Libpq

/-!
# Protocol - Messages to the client

The messages the proxy queues to a client, as values.  The error fields and the texts
of {lit}`src/protocol/message.c` and of the callers in {lit}`src/session/session.c`
are kept; the byte layout is not part of this module.

Main results:

- Definitions {lit}`rowMessages`, {lit}`singleMessages` and {lit}`scatterMessages`:
  what the results of a backend are turned into.
- Theorem {lit}`scatterMessages_rows`: a scattered query forwards rows only.
-/

namespace Sharegres

open Foundation

/-- The transaction status byte of a ReadyForQuery message. -/
inductive TxnStatus where
  | idle
  | inTransaction
  | failed
deriving DecidableEq, Repr

/-- A message to the client. -/
inductive BackendMsg where
  | sslRefused
  | authOk
  | paramStatus (name value : Text)
  | backendKey (pid key : Int)
  | readyForQuery (status : TxnStatus)
  | errorResponse (fields : List (UInt8 × Text))
  | commandComplete (tag : Text)
  | rowDescription (fields : List FieldDesc)
  | dataRow (cells : List (Option Text))
  | copyInResponse (nfields : Nat)
  | copyOutResponse (nfields : Nat)
  | copyData (bytes : Text)
  | copyDone
deriving DecidableEq, Repr

namespace BackendMsg

/-- The message carries data of a table. -/
def isRow : BackendMsg → Bool
  | .rowDescription _ | .dataRow _ | .copyData _ => true
  | _ => false

/-- The message is an ErrorResponse. -/
def isError : BackendMsg → Bool
  | .errorResponse _ => true
  | _ => false

/-- The message is a CommandComplete. -/
def isComplete : BackendMsg → Bool
  | .commandComplete _ => true
  | _ => false

/-- The message is a ReadyForQuery. -/
def isReady : BackendMsg → Bool
  | .readyForQuery _ => true
  | _ => false

theorem not_ready_of_isRow {msg : BackendMsg} (h : msg.isRow = true) : msg.isReady = false := by
  cases msg <;> first | rfl | cases h

end BackendMsg

/-- {lit}`msg_write_error`. -/
def msgWriteError (severity code message : Text) : BackendMsg :=
  .errorResponse [(83, severity), (67, code), (77, message)]

/-- {lit}`fe_send_startup_response` up to its ReadyForQuery. -/
def startupMessages (pid secretKey : Int) : List BackendMsg :=
  [.authOk,
   .paramStatus (ascii "server_version") (ascii "16.0 (Sharegres)"),
   .paramStatus (ascii "server_encoding") (ascii "UTF8"),
   .paramStatus (ascii "client_encoding") (ascii "UTF8"),
   .paramStatus (ascii "is_superuser") (ascii "off"),
   .paramStatus (ascii "DateStyle") (ascii "ISO, MDY"),
   .paramStatus (ascii "integer_datetimes") (ascii "on"),
   .paramStatus (ascii "standard_conforming_strings") (ascii "on"),
   .backendKey pid secretKey]

/-- The status reported for the backend's transaction status. -/
def txnStatusOf : PGTransactionStatus → TxnStatus
  | .inTrans => .inTransaction
  | .inError => .failed
  | _ => .idle

/-! ## Results of a backend -/

/-- {lit}`session_forward_result`. -/
def rowMessages (res : PGresult) (sendHeader : Bool) : List BackendMsg :=
  (if sendHeader ∧ res.fields ≠ [] then [.rowDescription res.fields] else []) ++
    res.rows.map .dataRow

/-- The tag of a result with rows: the status text cut to the buffer of 128 bytes, or
the number of rows. -/
def selectTag (res : PGresult) : Text :=
  if res.cmdStatus ≠ [] then res.cmdStatus.take 127
  else ascii "SELECT " ++ natNumeral res.rows.length

/-- The ErrorResponse built from an error result. -/
def errorFields (res : PGresult) : List (UInt8 × Text) :=
  (res.severity.map (83, ·)).toList ++ (res.sqlstate.map (67, ·)).toList ++
    (res.primary.map (77, ·)).toList ++ (res.detail.map (68, ·)).toList

/-- Where the loop over the results of a single backend stops. -/
inductive DrainStop where
  | null
  | copyIn (nfields : Nat)
  | copyOut (nfields : Nat)
deriving DecidableEq, Repr

/-- The loop of {lit}`session_on_backend_readable` over the results: the messages it
queues and where it stops.  The flag is {lit}`header_sent`. -/
def singleMessages : Bool → List PGresult → List BackendMsg × DrainStop
  | _, [] => ([], .null)
  | headerSent, res :: rest =>
      match res.status with
      | .tuplesOk =>
          let (msgs, stop) := singleMessages true rest
          (rowMessages res (!headerSent) ++ .commandComplete (selectTag res) :: msgs, stop)
      | .singleTuple =>
          let (msgs, stop) := singleMessages true rest
          (rowMessages res (!headerSent) ++ msgs, stop)
      | .commandOk =>
          let (msgs, stop) := singleMessages headerSent rest
          (.commandComplete res.cmdStatus :: msgs, stop)
      | .fatalError =>
          let (msgs, stop) := singleMessages headerSent rest
          (.errorResponse (errorFields res) :: msgs, stop)
      | .copyIn => ([], .copyIn res.fields.length)
      | .copyOut => ([], .copyOut res.fields.length)
      | .emptyQuery | .other => singleMessages headerSent rest

/-- The loop of {lit}`session_on_scatter_readable` over the results: the messages it
queues and the value of {lit}`scatter_header_sent` after it.  In a copy the library
answers the same result for ever, so the loop has no end. -/
def scatterMessages : Bool → List PGresult → Option (List BackendMsg × Bool)
  | headerSent, [] => some ([], headerSent)
  | headerSent, res :: rest =>
      match res.status with
      | .tuplesOk | .singleTuple =>
          (scatterMessages true rest).map fun r => (rowMessages res (!headerSent) ++ r.1, r.2)
      | .copyIn | .copyOut => none
      | .commandOk | .fatalError | .emptyQuery | .other => scatterMessages headerSent rest

theorem rowMessages_isRow {res : PGresult} {sendHeader : Bool} {msg : BackendMsg}
    (h : msg ∈ rowMessages res sendHeader) : msg.isRow = true := by
  unfold rowMessages at h
  rcases List.mem_append.mp h with hhead | hrow
  · split at hhead
    · rw [List.mem_singleton] at hhead
      rw [hhead]
      rfl
    · cases hhead
  · rcases List.mem_map.mp hrow with ⟨row, -, hmsg⟩
    rw [← hmsg]
    rfl

/-- The results of a scattered query add rows to the answer and nothing else: neither
an error nor a tag. -/
theorem scatterMessages_rows {headerSent : Bool} {results : List PGresult}
    {msgs : List BackendMsg} {after : Bool}
    (h : scatterMessages headerSent results = some (msgs, after)) :
    ∀ msg ∈ msgs, msg.isRow = true := by
  induction results generalizing headerSent msgs after with
  | nil =>
      cases h
      intro msg hmsg
      cases hmsg
  | cons res rest ih =>
      unfold scatterMessages at h
      have hrows : ∀ r, scatterMessages true rest = some r →
          (rowMessages res (!headerSent) ++ r.1, r.2) = (msgs, after) →
          ∀ msg ∈ msgs, msg.isRow = true := by
        intro r hr heq msg hmsg
        cases heq
        rcases List.mem_append.mp hmsg with hhere | hlater
        · exact rowMessages_isRow hhere
        · exact ih hr msg hlater
      cases hstatus : res.status with
      | tuplesOk =>
          rw [hstatus] at h
          rcases Option.map_eq_some_iff.mp h with ⟨r, hr, heq⟩
          exact hrows r hr heq
      | singleTuple =>
          rw [hstatus] at h
          rcases Option.map_eq_some_iff.mp h with ⟨r, hr, heq⟩
          exact hrows r hr heq
      | copyIn => simp [hstatus] at h
      | copyOut => simp [hstatus] at h
      | commandOk =>
          rw [hstatus] at h
          exact ih h
      | fatalError =>
          rw [hstatus] at h
          exact ih h
      | emptyQuery =>
          rw [hstatus] at h
          exact ih h
      | other =>
          rw [hstatus] at h
          exact ih h

end Sharegres
