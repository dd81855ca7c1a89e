import Mathlib.Data.Finset.Card
import Mathlib.Data.Fintype.Basic
import Sharegres.Pool.ConnPool
import Sharegres.Protocol.Message
import Sharegres.Router.ShardMap

/-!
# Session - State of a client session

Model of the record {lit}`ClientSession` and of the helpers of
{lit}`src/session/session.c` that only touch it.  Beside the fields of the source the
record keeps what the session has done: the messages queued, with their origin, the
queries handled and sent, and the backends whose answer is still awaited.

Main results:

- Definition {lit}`RecvBuf.consume`: removing a frame by {lit}`memmove`.
- Definition {lit}`Session`: the record, and {lit}`Session.held`, the connections it
  holds.
-/

namespace Sharegres

open Foundation

/-- {lit}`SessionState`. -/
inductive SessionState where
  | init
  | auth
  | ready
  | query
  | scatter
  | copyIn
  | copyOut
  | closing
deriving DecidableEq, Repr

/-- {lit}`MAX_SCATTER_SHARDS`. -/
def maxScatterShards : Nat := 64

instance : NeZero maxScatterShards := ⟨by decide⟩

/-- The places of a session that can hold a connection. -/
inductive Place where
  | backend
  | slot (i : Fin maxScatterShards)
deriving DecidableEq, Repr

/-! ## The receive buffer -/

/-- {lit}`RecvBuf`: the bytes written to the allocation so far, of which the first
{lit}`len` are the content. -/
structure RecvBuf where
  data : Text := []
  len : Nat := 0
  inBounds : len ≤ data.length := by simp

namespace RecvBuf

/-- The buffer of a new session. -/
def empty : RecvBuf := {}

/-- {lit}`recv`: the bytes are written behind the content. -/
def receive (rb : RecvBuf) (bytes : Text) : RecvBuf where
  data := rb.data.take rb.len ++ bytes ++ rb.data.drop (rb.len + bytes.length)
  len := rb.len + bytes.length
  inBounds := by
    have := rb.inBounds
    simp only [List.length_append, List.length_take, List.length_drop]
    omega

/-- {lit}`memmove` of the content behind the first {lit}`n` bytes to the front.  The
bytes behind the new content stay as they are. -/
def consume (rb : RecvBuf) (n : Nat) : RecvBuf where
  data := (rb.data.drop n).take (rb.len - n) ++ rb.data.drop (rb.len - n)
  len := rb.len - n
  inBounds := by
    have := rb.inBounds
    simp only [List.length_append, List.length_take, List.length_drop]
    omega

/-- The byte at an offset. -/
def byte (rb : RecvBuf) (pos : Nat) : UInt8 :=
  rb.data.getD pos 0

/-- The 32 bit number in network order at an offset. -/
def be32 (rb : RecvBuf) (pos : Nat) : Nat :=
  (((rb.byte pos).toNat * 256 + (rb.byte (pos + 1)).toNat) * 256 +
    (rb.byte (pos + 2)).toNat) * 256 + (rb.byte (pos + 3)).toNat

/-- The C string that starts at an offset. -/
def cstring (rb : RecvBuf) (pos : Nat) : Text :=
  (rb.data.drop pos).takeWhile (· ≠ 0)

end RecvBuf

/-! ## The record -/

/-- {lit}`ScatterConn`. -/
structure ScatterConn where
  shard : Option Shard := none
  conn : Option ConnId := none
  done : Bool := false
  fromPool : Bool := false

/-- The callback of the client's event handler. -/
inductive ClientCallback where
  | readable
  | writable
deriving DecidableEq, Repr

/-- What a queued message was made from: by the proxy itself, from a result of a
command, a ReadyForQuery with the number of backends awaited at that moment, or the
tag of a gathered query with the number of its targets awaited at that moment. -/
inductive Origin where
  | proxy
  | result (conn : ConnId) (command : Command)
  | ready (awaited : Nat)
  | gather (awaited : Nat)
deriving DecidableEq, Repr

/-- A queued message. -/
structure Queued where
  msg : BackendMsg
  origin : Origin
deriving DecidableEq, Repr

/-- A call of {lit}`PQputCopyData` or {lit}`PQputCopyEnd`. -/
inductive CopyPut where
  | data (payload : Text)
  | done
  | fail (message : Text)
deriving DecidableEq, Repr

/-- The answers 1, 0 and -1 of these calls. -/
inductive PutOutcome where
  | queued
  | full
  | failed
deriving DecidableEq, Repr

/-- {lit}`ClientSession`.  The fields from {lit}`closed` on record what happened. -/
structure Session where
  id : Nat
  state : SessionState := .init
  callback : ClientCallback := .readable
  recvBuf : RecvBuf := .empty
  unsent : Bool := false
  backendConn : Option ConnId := none
  backendBusy : Bool := false
  backendShard : Option Shard := none
  scatter : Fin maxScatterShards → ScatterConn := fun _ => {}
  scatterCount : Nat := 0
  scatterDone : Nat := 0
  scatterHeaderSent : Bool := false
  user : Option Text := none
  database : Option Text := none
  pid : Int := 0
  secretKey : Int := 0
  closed : Bool := false
  out : List Queued := []
  queries : Nat := 0
  extended : Nat := 0
  sent : List (ConnId × Text) := []
  awaited : Finset Place := ∅
  copyPuts : List (CopyPut × PutOutcome) := []

/-- A session and the backends it works with. -/
abbrev Conf := Session × Backends

/-- A connection and the pool it was acquired from. -/
structure Hold where
  conn : ConnId
  pool : Option Nat
deriving DecidableEq, Repr

/-- The connection in a slot. -/
def ScatterConn.hold (slot : ScatterConn) : Option Hold :=
  slot.conn.map fun c => ⟨c, if slot.fromPool then slot.shard.map Shard.index else none⟩

namespace Session

/-- The connection a session holds in a place. -/
def held (s : Session) : Place → Option Hold
  | .backend => s.backendConn.map fun c => ⟨c, s.backendShard.map Shard.index⟩
  | .slot i => (s.scatter i).hold

/-- The slots of the current scatter. -/
def slots (s : Session) : List (Fin maxScatterShards) :=
  (List.finRange maxScatterShards).take s.scatterCount

/-- {lit}`session_queue_send` of messages of one origin. -/
def queueAll (s : Session) (origin : Origin) (msgs : List BackendMsg) : Session :=
  { s with
    out := s.out ++ msgs.map fun msg => ⟨msg, origin⟩
    unsent := s.unsent || !msgs.isEmpty }

/-- {lit}`session_queue_send` of one message. -/
def queue (s : Session) (origin : Origin) (msg : BackendMsg) : Session :=
  s.queueAll origin [msg]

/-- {lit}`fe_send_error`. -/
def feSendError (s : Session) (severity code message : Text) : Session :=
  s.queue .proxy (msgWriteError severity code message)

/-- Queue a ReadyForQuery. -/
def queueReady (s : Session) (status : TxnStatus) : Session :=
  s.queue (.ready s.awaited.card) (.readyForQuery status)

/-- A query was sent on the connection of a place. -/
def noteSent (s : Session) (p : Place) (c : ConnId) (sql : Text) : Session :=
  { s with sent := (c, sql) :: s.sent, awaited := insert p s.awaited }

/-- The answer of the backend in a place is complete, or the backend failed or was
given up. -/
def noteOver (s : Session) (p : Place) : Session :=
  { s with awaited := s.awaited.erase p }

/-- {lit}`recv` into the receive buffer. -/
def receive (s : Session) (bytes : Text) : Session :=
  { s with recvBuf := s.recvBuf.receive bytes }

/-- A query is handled. -/
def countQuery (s : Session) : Session :=
  { s with queries := s.queries + 1 }

/-- Enter a state. -/
def setState (s : Session) (state : SessionState) : Session :=
  { s with state := state }

/-- Set {lit}`backend_busy`. -/
def setBusy (s : Session) (busy : Bool) : Session :=
  { s with backendBusy := busy }

/-- Set {lit}`backend_conn` and {lit}`backend_shard`. -/
def setBackend (s : Session) (conn : Option ConnId) (shard : Option Shard) : Session :=
  { s with backendConn := conn, backendShard := shard }

/-- Set {lit}`scatter_count` and reset the other fields of a scatter. -/
def resetScatter (s : Session) (count : Nat) : Session :=
  { s with scatterCount := count, scatterDone := 0, scatterHeaderSent := false }

/-- Increment {lit}`scatter_done`. -/
def countDone (s : Session) : Session :=
  { s with scatterDone := s.scatterDone + 1 }

/-- Replace a slot. -/
def setSlot (s : Session) (i : Fin maxScatterShards) (slot : ScatterConn) : Session :=
  { s with scatter := Function.update s.scatter i slot }

end Session

/-- The outcomes of {lit}`send` in {lit}`session_send`. -/
inductive SendOutcome where
  | all
  | again
  | failed
deriving DecidableEq, Repr

/-- {lit}`session_send`; the flag tells that it did not answer -1. -/
def sessionSend (outcome : SendOutcome) (s : Session) : Session × Bool :=
  if s.unsent then
    match outcome with
    | .all => ({ s with unsent := false, callback := .readable }, true)
    | .again => ({ s with callback := .writable }, true)
    | .failed => (s, false)
  else ({ s with callback := .readable }, true)

/-- Sending changes what waits to be sent and the callback. -/
theorem sessionSend_eq (outcome : SendOutcome) (s : Session) :
    ∃ unsent callback,
      (sessionSend outcome s).1 = { s with unsent := unsent, callback := callback } := by
  unfold sessionSend
  split
  · cases outcome <;> exact ⟨_, _, rfl⟩
  · exact ⟨_, _, rfl⟩

/-! ## Giving connections back -/

/-- Give back the connection of a place to its pool, or close it. -/
def giveUp (s : Session) (b : Backends) (hold : Hold) : Backends :=
  match hold.pool with
  | some i => b.connPoolRelease i s.id hold.conn
  | none => b.pqFinish hold.conn

/-- The repeated piece of code that gives back the single backend and forgets it. -/
def releaseBackend (x : Conf) : Conf :=
  match x.1.held .backend with
  | none => x
  | some hold =>
      ((x.1.noteOver .backend).setBackend none none, giveUp x.1 x.2 hold)

/-- One round of {lit}`session_release_scatter`. -/
def releaseSlot (x : Conf) (i : Fin maxScatterShards) : Conf :=
  match x.1.held (.slot i) with
  | none => x
  | some hold =>
      ((x.1.noteOver (.slot i)).setSlot i { x.1.scatter i with conn := none },
        giveUp x.1 x.2 hold)

/-- {lit}`session_release_scatter`. -/
def sessionReleaseScatter (x : Conf) : Conf :=
  let y := x.1.slots.foldl releaseSlot x
  (y.1.resetScatter 0, y.2)

/-- {lit}`session_destroy`. -/
def sessionDestroy (x : Conf) : Conf :=
  let y := sessionReleaseScatter (releaseBackend x)
  ({ y.1 with closed := true }, y.2)

end Sharegres
