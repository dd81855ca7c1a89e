import Sharegres.Foundation.ByteText

/-!
# Pool - Backend connections

The part of the client library that the proxy relies on, as its documentation
describes it.  A connection remembers the command in progress on it and who sent it;
the server's answers are inputs of the model.

Main results:

- Definition {lit}`pqTransactionStatus`: idle only if no command is in progress.
- Definitions {lit}`PGresult` and {lit}`BackendInput`: what a backend can answer when
  its socket is readable.
-/

namespace Sharegres

open Foundation

/-- A connection object, told apart by the order in which they were opened. -/
abbrev ConnId := Nat

/-- {lit}`PQstatus`. -/
inductive ConnStatus where
  | ok
  | bad
deriving DecidableEq, Repr

/-- The transaction status a server reports when it becomes ready. -/
inductive Xact where
  | idle
  | inTrans
  | inError
deriving DecidableEq, Repr

/-- {lit}`PGTransactionStatusType`. -/
inductive PGTransactionStatus where
  | idle
  | active
  | inTrans
  | inError
  | unknown
deriving DecidableEq, Repr

/-- A query sent with {lit}`PQsendQuery` and the session that sent it. -/
structure Command where
  sender : Nat
  sql : Text
deriving DecidableEq, Repr

/-- {lit}`PGconn`: a command is in progress until {lit}`PQgetResult` has answered
NULL. -/
structure PGconn where
  status : ConnStatus := .ok
  xact : Xact := .idle
  command : Option Command := none
  finished : Bool := false
deriving DecidableEq, Repr

/-- {lit}`PQtransactionStatus`. -/
def pqTransactionStatus (conn : PGconn) : PGTransactionStatus :=
  if conn.status = .bad then .unknown
  else if conn.command.isSome then .active
  else
    match conn.xact with
    | .idle => .idle
    | .inTrans => .inTrans
    | .inError => .inError

/-- An idle connection is in order and has no command in progress. -/
theorem pqTransactionStatus_idle {conn : PGconn} (h : pqTransactionStatus conn = .idle) :
    conn.status = .ok ∧ conn.command = none ∧ conn.xact = .idle := by
  unfold pqTransactionStatus at h
  cases hstatus : conn.status with
  | bad =>
      rw [if_pos hstatus] at h
      cases h
  | ok =>
      rw [if_neg (by simp [hstatus])] at h
      cases hcommand : conn.command with
      | some cmd => simp [hcommand] at h
      | none =>
          cases hxact : conn.xact with
          | idle => exact ⟨rfl, rfl, rfl⟩
          | inTrans => simp [hcommand, hxact] at h
          | inError => simp [hcommand, hxact] at h

/-! ## Answers of a backend -/

/-- {lit}`ExecStatusType`, as far as the proxy tells the values apart. -/
inductive ExecStatus where
  | emptyQuery
  | commandOk
  | tuplesOk
  | singleTuple
  | copyIn
  | copyOut
  | fatalError
  | other
deriving DecidableEq, Repr

/-- {lit}`PQfname`, {lit}`PQftype`, {lit}`PQfsize` and {lit}`PQfmod` of a column. -/
structure FieldDesc where
  name : Text
  type : Int
  size : Int
  mod : Int
deriving DecidableEq, Repr

/-- {lit}`PGresult`: the columns, the rows with NULL as {lean}`none`, the command
status and the error fields. -/
structure PGresult where
  status : ExecStatus
  fields : List FieldDesc := []
  rows : List (List (Option Text)) := []
  cmdStatus : Text := []
  severity : Option Text := none
  sqlstate : Option Text := none
  primary : Option Text := none
  detail : Option Text := none
deriving DecidableEq, Repr

/-- How a series of calls of {lit}`PQgetCopyData` ends: nothing more yet, an error, or
the end of the copy together with the answer of the one {lit}`PQgetResult` after it. -/
inductive CopyEnd where
  | pending
  | failed
  | done (final : Option PGresult)
deriving DecidableEq, Repr

/-- What the client library answers while a readable backend is handled.

{lit}`consumeFails` is the status {lit}`PQconsumeInput` leaves when it fails.  The
results are those of {lit}`PQgetResult` up to NULL, and {lit}`xact` is the status the
server reports there.  On a connection with no command in progress the library is
not busy and has no result, whatever this record says. -/
structure BackendInput where
  hangup : Bool := false
  consumeFails : Option ConnStatus := none
  busy : Bool := false
  results : List PGresult := []
  xact : Xact := .idle
  copyChunks : List Text := []
  copyEnd : CopyEnd := .pending
deriving DecidableEq, Repr

end Sharegres
