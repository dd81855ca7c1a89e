import Sharegres.Router.Router
import Sharegres.Session.State

/-!
# Protocol - Client messages

Model of {lit}`src/protocol/fe_protocol.c` and of the COPY handler in
{lit}`src/executor/copy_handler.c`.  A function that the source lets return -1 answers
with a flag that is false then.  What the client library and the sockets answer is
part of the input.

Main results:

- Definitions {lit}`executeSingle` and {lit}`executeScatter`: sending a query.
- Definition {lit}`handleQuery`: a Query message.
- Definition {lit}`feProtocolProcess`: the loop over the receive buffer, which stops
  at the first Query.
-/

namespace Sharegres

open Foundation

/-- What all sessions share: the shard map, without shards if none is configured, and
the SQL parser. -/
structure Config where
  shardMap : ShardMap
  pgQueryParse : Text → Option Text

/-- What {lit}`recv` answers. -/
inductive RecvOutcome where
  | closed
  | error
  | again
  | data (bytes : Text)
deriving DecidableEq, Repr

/-- The answers of the environment while an event of the client is handled.  The
attempts to connect and to send are counted by scatter slot, the calls that put copy
data by the round of the loop; {lit}`rounds` bounds the rounds that are followed. -/
structure ClientInput where
  hangup : Bool := false
  recv : RecvOutcome := .again
  rounds : Nat := 8
  puts : Nat → PutOutcome := fun _ => .queued
  connects : Nat → Bool := fun _ => true
  accepts : Nat → Bool := fun _ => true
  errorMessage : Text := []
  flush : SendOutcome := .all

/-- An error answered by the proxy itself, followed by ReadyForQuery. -/
def refuse (s : Session) (severity code message : Text) : Session :=
  (s.feSendError severity code message).queueReady .idle

/-! ## Sending a query -/

/-- {lit}`connect_to_shard`. -/
def connectToShard (shard : Shard) (connects : Bool) (x : Conf) : Conf × Bool :=
  match x.2.connPoolAcquire shard.index x.1.id connects with
  | (b, none) => ((x.1, b), false)
  | (b, some c) => ((x.1.setBackend (some c) (some shard), b), true)

/-- The single backend is connected and in order. -/
def backendOk (x : Conf) : Bool :=
  match x.1.backendConn with
  | none => false
  | some c => (x.2.conns c).status = .ok

/-- {lit}`connect_to_default`. -/
def connectToDefault (connects : Bool) (x : Conf) : Conf × Bool :=
  if backendOk x then (x, true)
  else
    let y := releaseBackend x
    match y.2.pqConnectdb connects with
    | (b, none) => ((y.1, b), false)
    | (b, some c) => ((y.1.setBackend (some c) none, b), true)

/-- {lit}`PQsendQuery` on the single backend and what follows if it is accepted. -/
def sendSingle (sql : Text) (accepts : Bool) (x : Conf) : Conf × Bool :=
  match x.1.backendConn with
  | none => (x, false)
  | some c =>
      match x.2.pqSendQuery c x.1.id sql accepts with
      | none => (x, false)
      | some b => ((((x.1.noteSent .backend c sql).setState .query).setBusy true, b), true)

/-- The first part of {lit}`execute_single`: a connection to a different shard is
given back. -/
def swapBackend (shard : Option Shard) (x : Conf) : Conf :=
  if x.1.backendShard.map Shard.index ≠ shard.map Shard.index then releaseBackend x else x

/-- The second part of {lit}`execute_single`: connect if there is no connection. -/
def connectSingle (shard : Option Shard) (connects : Bool) (x : Conf) : Conf × Bool :=
  if x.1.backendConn.isSome then (x, true)
  else
    match shard with
    | some shard => connectToShard shard connects x
    | none => connectToDefault connects x

/-- {lit}`execute_single`. -/
def executeSingle (sql : Text) (shard : Option Shard) (input : ClientInput) (x : Conf) :
    Conf × Bool :=
  match connectSingle shard (input.connects 0) (swapBackend shard x) with
  | (x, false) => (x, false)
  | (x, true) => sendSingle sql (input.accepts 0) x

/-- One round of the loop of {lit}`execute_scatter`. -/
def startSlot (sql : Text) (input : ClientInput) (x : Conf)
    (target : Fin maxScatterShards × Shard) : Conf :=
  let i := target.1
  let shard := target.2
  let s := x.1.noteOver (.slot i)
  match x.2.connPoolAcquire shard.index s.id (input.connects i) with
  | (b, none) => ((s.setSlot i { shard := some shard, done := true }).countDone, b)
  | (b, some c) =>
      match b.pqSendQuery c s.id sql (input.accepts i) with
      | none =>
          ((s.setSlot i { shard := some shard, done := true, fromPool := true }).countDone,
            b.connPoolRelease shard.index s.id c)
      | some b =>
          ((s.noteSent (.slot i) c sql).setSlot i
            { shard := some shard, conn := some c, fromPool := true }, b)

/-- The loop of {lit}`execute_scatter`: the targets are paired with the slots. -/
def startScatter (sql : Text) (targets : List Shard) (input : ClientInput) (x : Conf) : Conf :=
  ((List.finRange maxScatterShards).zip targets).foldl (startSlot sql input)
    (x.1.resetScatter targets.length, x.2)

/-- {lit}`execute_scatter`. -/
def executeScatter (sql : Text) (targets : List Shard) (input : ClientInput) (x : Conf) :
    Conf × Bool :=
  if maxScatterShards < targets.length then (x, false)
  else
    let y := startScatter sql targets input x
    if targets.length ≤ y.1.scatterDone then
      (((refuse y.1 (ascii "ERROR") (ascii "08001")
        (ascii "all scatter connections failed")).setState .ready, y.2), true)
    else ((y.1.setState .scatter, y.2), true)

/-! ## Query messages -/

/-- {lit}`handle_query` without a shard map. -/
def handleUnsharded (sql : Text) (input : ClientInput) (x : Conf) : Conf :=
  match connectToDefault (input.connects 0) x with
  | (x, false) =>
      (refuse x.1 (ascii "FATAL") (ascii "08001") (ascii "cannot connect to backend"), x.2)
  | (x, true) =>
      match sendSingle sql (input.accepts 0) x with
      | (x, false) => (refuse x.1 (ascii "ERROR") (ascii "XX000") input.errorMessage, x.2)
      | (x, true) => x

/-- A query for one backend, with the message of {lit}`handle_query` if that fails. -/
def executeOrRefuse (sql : Text) (shard : Option Shard) (message : Text) (input : ClientInput)
    (x : Conf) : Conf :=
  match executeSingle sql shard input x with
  | (x, false) => (refuse x.1 (ascii "ERROR") (ascii "08001") message, x.2)
  | (x, true) => x

/-- The switch of {lit}`handle_query` over the route. -/
def executeRoute (sql : Text) (decision : RouteDecision) (input : ClientInput) (x : Conf) :
    Conf × Bool :=
  match decision.type with
  | .single =>
      (executeOrRefuse sql decision.targetShards.head? (ascii "cannot connect to shard") input x,
        true)
  | .scatter => executeScatter sql decision.targetShards input x
  | .local =>
      (((x.1.queue .proxy (.commandComplete (ascii "SET"))).queueReady .idle, x.2), true)
  | .default =>
      (executeOrRefuse sql none (ascii "cannot connect to default backend") input x, true)

/-- {lit}`handle_query` with a shard map; no answer if parsing does not terminate. -/
def handleSharded (cfg : Config) (sql : Text) (input : ClientInput) (x : Conf) :
    Option (Conf × Bool) :=
  match parseQuery cfg.pgQueryParse sql with
  | none => none
  | some (rc, parsed) =>
      if rc < 0 then
        some ((refuse x.1 (ascii "ERROR") (ascii "42601") (ascii "syntax error in query"),
          x.2), true)
      else
        match routerDecide cfg.shardMap parsed with
        | none => none
        | some decision => some (executeRoute sql decision input x)

/-- {lit}`handle_query`. -/
def handleQuery (cfg : Config) (sql : Text) (input : ClientInput) (x : Conf) :
    Option (Conf × Bool) :=
  let x := (x.1.countQuery, x.2)
  if cfg.shardMap.shards = [] then some (handleUnsharded sql input x, true)
  else handleSharded cfg sql input x

/-- The ways a Query message can be handled: on the default backend without a shard
map, refused for its syntax, or executed on its route. -/
theorem handleQuery_cases {cfg : Config} {sql : Text} {input : ClientInput} {x : Conf}
    {r : Conf × Bool} (h : handleQuery cfg sql input x = some r) :
    (cfg.shardMap.shards = [] ∧
      r = (handleUnsharded sql input (x.1.countQuery, x.2), true)) ∨
    ((cfg.shardMap.shards ≠ [] ∧
        ∃ rc parsed, parseQuery cfg.pgQueryParse sql = some (rc, parsed) ∧ rc < 0) ∧
      r = ((refuse x.1.countQuery (ascii "ERROR") (ascii "42601")
        (ascii "syntax error in query"), x.2), true)) ∨
    (cfg.shardMap.shards ≠ [] ∧
      ∃ rc parsed decision, parseQuery cfg.pgQueryParse sql = some (rc, parsed) ∧ 0 ≤ rc ∧
        routerDecide cfg.shardMap parsed = some decision ∧
        r = executeRoute sql decision input (x.1.countQuery, x.2)) := by
  unfold handleQuery at h
  dsimp only at h
  by_cases hnone : cfg.shardMap.shards = []
  · rw [if_pos hnone] at h
    exact Or.inl ⟨hnone, (Option.some.inj h).symm⟩
  · rw [if_neg hnone] at h
    unfold handleSharded at h
    right
    split at h
    · cases h
    · rename_i rc parsed hparse
      by_cases hrc : rc < 0
      · rw [if_pos hrc] at h
        exact Or.inl ⟨⟨hnone, rc, parsed, hparse, hrc⟩, (Option.some.inj h).symm⟩
      · rw [if_neg hrc] at h
        right
        split at h
        · cases h
        · rename_i decision hroute
          exact ⟨hnone, rc, parsed, decision, hparse, by omega, hroute, (Option.some.inj h).symm⟩

/-! ## The startup packet -/

/-- The request codes in the place of a protocol version. -/
def pgSslRequest : Nat := 80877103

/-- {lit}`PG_CANCEL_REQUEST`. -/
def pgCancelRequest : Nat := 80877102

/-- The loop of {lit}`handle_startup_message` over the parameters. -/
def startupParams (rb : RecvBuf) (msgLen : Nat) : Nat → Nat → Session → Session
  | 0, _, s => s
  | fuel + 1, pos, s =>
      if msgLen ≤ pos ∨ rb.byte pos = 0 then s
      else
        let key := rb.cstring pos
        let valPos := pos + key.length + 1
        if msgLen ≤ valPos then s
        else
          let val := rb.cstring valPos
          let s :=
            if key = ascii "user" then { s with user := some val }
            else if key = ascii "database" then { s with database := some val }
            else s
          startupParams rb msgLen fuel (valPos + val.length + 1) s

/-- {lit}`handle_startup_message`. -/
def handleStartupMessage (msgLen : Nat) (s : Session) : Session × Bool :=
  if msgLen < 8 then (s, false)
  else
    let version := s.recvBuf.be32 4
    if version = pgSslRequest then
      ({ s.queue .proxy .sslRefused with recvBuf := s.recvBuf.consume msgLen }, true)
    else if version = pgCancelRequest then
      ({ s with recvBuf := s.recvBuf.consume msgLen }, false)
    else if version / 65536 ≠ 3 then (s, false)
    else
      let s := startupParams s.recvBuf msgLen msgLen 8 s
      let user := s.user.getD (ascii "unknown")
      let s := { s with
        user := some user, database := some (s.database.getD user),
        recvBuf := s.recvBuf.consume msgLen }
      ({ (s.queueAll .proxy (startupMessages s.pid s.secretKey)).queueReady .idle with
          state := .ready }, true)

/-! ## Frames -/

/-- {lit}`copy_handle_client_message`: the call it makes.  The length of the data is cast to
{lit}`int`, and {lit}`PQputCopyData` takes no data if it is negative. -/
def copyPut (rb : RecvBuf) (msgType : UInt8) (payloadLen : Nat) : CopyPut :=
  if msgType = 100 then .data ((rb.data.drop 5).take (Int32.ofNat payloadLen).toInt.toNat)
  else if msgType = 99 then .done
  else if 0 < payloadLen then .fail (rb.cstring 5)
  else .fail (ascii "client cancel")

/-- A CopyData, CopyDone or CopyFail message; the flag tells that the answer was not
-1, and the end of the copy is awaited like a query. -/
def copyHandleClientMessage (msgType : UInt8) (payloadLen : Nat) (outcome : PutOutcome)
    (s : Session) : Session × Bool :=
  if s.backendConn = none then (s, false)
  else
    let s := { s with
      copyPuts := s.copyPuts ++ [(copyPut s.recvBuf msgType payloadLen, outcome)] }
    if outcome = .failed then (s, false)
    else if msgType = 100 then (s, true)
    else ({ s with state := .query }, true)

/-- How a round of the loop of {lit}`fe_protocol_process` ends. -/
inductive Round where
  | next (s : Session)
  | ret (s : Session) (ok : Bool)
  | query (s : Session) (sql : Text)

/-- The types of the messages of the extended query protocol. -/
def isExtended (msgType : UInt8) : Bool :=
  [80, 66, 68, 69, 83, 67].contains msgType

/-- A complete frame in a state that takes messages. -/
def handleFrame (msgType : UInt8) (msgLen total : Nat) (outcome : PutOutcome) (s : Session) :
    Round :=
  let rb := s.recvBuf.consume total
  if s.state = .copyIn then
    if msgType = 100 ∨ msgType = 99 ∨ msgType = 102 then
      match copyHandleClientMessage msgType (msgLen - 4) outcome s with
      | (s, true) => .next { s with recvBuf := rb }
      | (s, false) => .ret { s with recvBuf := rb } false
    else .next { s with recvBuf := rb }
  else if msgType = 81 then
    -- the pointer into the buffer is read after the content was moved
    .query { s with recvBuf := rb } (rb.cstring 5)
  else if msgType = 88 then .ret s false
  else if isExtended msgType then
    let s := refuse { s with extended := s.extended + 1 } (ascii "ERROR") (ascii "0A000")
      (ascii "extended query protocol not yet supported")
    .next { s with recvBuf := rb }
  else .next { s with recvBuf := rb }

/-- One round of {lit}`fe_protocol_process` on a buffer that is not empty.  The sum
{lit}`1 + msg_len` is taken in 32 bits. -/
def feProtocolRound (outcome : PutOutcome) (s : Session) : Round :=
  let rb := s.recvBuf
  if s.state = .init then
    if rb.len < 4 then .ret s true
    else
      let msgLen := rb.be32 0
      if msgLen < 4 ∨ 65535 < msgLen then .ret s false
      else if rb.len < msgLen then .ret s true
      else
        match handleStartupMessage msgLen s with
        | (s, true) => .next s
        | (s, false) => .ret s false
  else if s.state = .query ∨ s.state = .scatter ∨ s.state = .copyOut then .ret s true
  else if rb.len < 5 then .ret s true
  else
    let msgLen := rb.be32 1
    let total := (1 + msgLen) % 2 ^ 32
    if msgLen < 4 ∨ 16 * 1024 * 1024 < total then .ret s false
    else if rb.len < total then .ret s true
    else handleFrame (rb.byte 0) msgLen total outcome s

/-- {lit}`fe_protocol_process` up to the call of {lit}`handle_query`; no answer if the
loop is not over after the given number of rounds. -/
def feProtocolProcess (puts : Nat → PutOutcome) : Nat → Nat → Session → Option Round
  | 0, _, _ => none
  | rounds + 1, k, s =>
      if s.recvBuf.len = 0 then some (.ret s true)
      else
        match feProtocolRound (puts k) s with
        | .next s => feProtocolProcess puts rounds (k + 1) s
        | round => some round

end Sharegres
