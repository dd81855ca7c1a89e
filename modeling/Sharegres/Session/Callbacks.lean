import Sharegres.Protocol.Rounds

/-!
# Session - Event callbacks

Model of the callbacks of {lit}`src/session/session.c`.  A callback that destroys its
session leaves it closed; a callback that does not return has no result.

Main results:

- Definitions {lit}`sessionOnClientReadable`, {lit}`sessionOnClientWritable`,
  {lit}`sessionOnBackendReadable` and {lit}`sessionOnScatterReadable`.
- Theorems {lit}`onClient_call`, {lit}`sessionOnBackendReadable_call` and
  {lit}`sessionOnScatterReadable_call`: what a call meets and how it ends.
- Theorems {lit}`onClient_case`, {lit}`sessionOnBackendReadable_case` and
  {lit}`sessionOnScatterReadable_case`: the ways a callback can end.
-/

namespace Sharegres

open Foundation

variable {input : ClientInput} {x y : Conf} {cfg : Config}

/-! ## The client's socket -/

/-- {lit}`session_send`, and {lit}`session_destroy` if it fails. -/
def flushOrDestroy (flush : SendOutcome) (x : Conf) : Conf :=
  match sessionSend flush x.1 with
  | (s, true) => (s, x.2)
  | (s, false) => sessionDestroy (s, x.2)

/-- {lit}`session_on_client_writable`. -/
def sessionOnClientWritable (input : ClientInput) (x : Conf) : Conf :=
  if input.hangup then sessionDestroy x else flushOrDestroy input.flush x

/-- {lit}`fe_protocol_process` with the query it may end in. -/
def processInput (cfg : Config) (input : ClientInput) (x : Conf) : Option (Conf × Bool) :=
  match feProtocolProcess input.puts input.rounds 0 x.1 with
  | none => none
  | some (.next s) => some ((s, x.2), true)
  | some (.ret s ok) => some ((s, x.2), ok)
  | some (.query s sql) => handleQuery cfg sql input (s, x.2)

/-- The query that ends the processing of what the client has sent. -/
def queryOf (input : ClientInput) (s : Session) : Option Text :=
  match input.recv with
  | .data bytes =>
      match feProtocolProcess input.puts input.rounds 0 (s.receive bytes) with
      | some (.query _ sql) => some sql
      | _ => none
  | _ => none

/-- The part of {lit}`session_on_client_readable` after {lit}`fe_protocol_process`. -/
def afterInput (flush : SendOutcome) : Conf × Bool → Conf
  | (x, false) => sessionDestroy x
  | (x, true) => if x.1.unsent then flushOrDestroy flush x else x

/-- {lit}`session_on_client_readable`. -/
def sessionOnClientReadable (cfg : Config) (input : ClientInput) (x : Conf) : Option Conf :=
  if input.hangup then some (sessionDestroy x)
  else
    match input.recv with
    | .closed | .error => some (sessionDestroy x)
    | .again => some x
    | .data bytes =>
        (processInput cfg input (x.1.receive bytes, x.2)).map (afterInput input.flush)

/-- The callback registered for the client's socket. -/
def onClient (cfg : Config) (input : ClientInput) (x : Conf) : Option Conf :=
  match x.1.callback with
  | .readable => sessionOnClientReadable cfg input x
  | .writable => some (sessionOnClientWritable input x)

/-- The bytes an event of the client's socket brings. -/
def ClientInput.received (input : ClientInput) (s : Session) : Text :=
  match input.hangup, s.callback, input.recv with
  | false, .readable, .data bytes => bytes
  | _, _, _ => []

/-! ## The single backend -/

/-- ReadyForQuery with the status of the backend, which goes back to its pool if it is
idle. -/
def reportReady (c : ConnId) (x : Conf) : Conf :=
  let status := pqTransactionStatus (x.2.conns c)
  let x := (x.1.queueReady (txnStatusOf status), x.2)
  if status = .idle ∧ x.1.backendShard.isSome then releaseBackend x else x

/-- The end of the loop over the results of the single backend. -/
def finishSingle (c : ConnId) (x : Conf) : Conf :=
  let y := reportReady c x
  ((y.1.setBusy false).setState .ready, y.2)

/-- The end of a copy to the client after one more {lit}`PQgetResult`, which leaves
the command in progress unless its answer is NULL. -/
def finishCopyOut (c : ConnId) (command : Command) (xact : Xact) (final : Option PGresult)
    (x : Conf) : Conf :=
  let s := x.1.queue (.result c command) .copyDone
  let x :=
    match final with
    | none => (s.noteOver .backend, x.2.endCommand c xact)
    | some res =>
        if res.status = .commandOk then
          (s.queue (.result c command) (.commandComplete res.cmdStatus), x.2)
        else (s, x.2)
  let y := reportReady c x
  (y.1.setState .ready, y.2)

/-- The label {lit}`copy_out_read`. -/
def copyOutRead (c : ConnId) (command : Command) (input : BackendInput) (x : Conf) : Conf :=
  let s := x.1.queueAll (.result c command) (input.copyChunks.map .copyData)
  match input.copyEnd with
  | .pending | .failed => (s, x.2)
  | .done final => finishCopyOut c command input.xact final (s, x.2)

/-- The results of the command in progress on the single backend. -/
def drainSingle (c : ConnId) (command : Command) (input : BackendInput) (x : Conf) : Conf :=
  let drained := singleMessages false input.results
  let s := x.1.queueAll (.result c command) drained.1
  match drained.2 with
  | .null => finishSingle c (s.noteOver .backend, x.2.endCommand c input.xact)
  | .copyIn nfields =>
      ((s.queue (.result c command) (.copyInResponse nfields)).setState .copyIn, x.2)
  | .copyOut nfields =>
      copyOutRead c command input
        ((s.queue (.result c command) (.copyOutResponse nfields)).setState .copyOut, x.2)

/-- The backend is lost: the client is told and the session destroyed. -/
def backendLost (message : Text) (flush : SendOutcome) (x : Conf) : Conf :=
  let s := x.1.feSendError (ascii "FATAL") (ascii "08006") message
  sessionDestroy ((sessionSend flush s).1, x.2)

/-- {lit}`session_on_backend_readable`. -/
def sessionOnBackendReadable (input : BackendInput) (flush : SendOutcome) (x : Conf) : Conf :=
  if input.hangup then backendLost (ascii "backend connection lost") flush x
  else
    match x.1.backendConn with
    | none => x
    | some c =>
        match input.consumeFails with
        | some status =>
            backendLost (ascii "backend connection error") flush (x.1, x.2.setStatus c status)
        | none =>
            match (x.2.conns c).command with
            | none => flushOrDestroy flush (finishSingle c x)
            | some command =>
                if input.busy then x
                else flushOrDestroy flush (drainSingle c command input x)

/-! ## Scattered queries -/

/-- A slot is done and counted. -/
def markDone (i : Fin maxScatterShards) (s : Session) : Session :=
  ((s.noteOver (.slot i)).setSlot i { s.scatter i with done := true }).countDone

/-- The targets of the current scatter whose answers are awaited. -/
def Session.awaitedSlots (s : Session) : Nat :=
  (s.slots.filter fun i => .slot i ∈ s.awaited).length

/-- The label {lit}`check_complete`. -/
def checkComplete (flush : SendOutcome) (x : Conf) : Conf :=
  if x.1.scatterCount ≤ x.1.scatterDone then
    let tag := if x.1.scatterHeaderSent then ascii "SELECT" else ascii "SELECT 0"
    let s := x.1.queue (.gather x.1.awaitedSlots) (.commandComplete tag)
    let y := sessionReleaseScatter (s.queueReady .idle, x.2)
    flushOrDestroy flush (y.1.setState .ready, y.2)
  else x

/-- The results of the command in progress on a slot. -/
def drainSlot (i : Fin maxScatterShards) (c : ConnId) (command : Command)
    (input : BackendInput) (x : Conf) : Option Conf :=
  (scatterMessages x.1.scatterHeaderSent input.results).map fun r =>
    (markDone i { x.1.queueAll (.result c command) r.1 with scatterHeaderSent := r.2 },
      x.2.endCommand c input.xact)

/-- {lit}`session_on_scatter_readable`. -/
def sessionOnScatterReadable (i : Fin maxScatterShards) (input : BackendInput)
    (flush : SendOutcome) (x : Conf) : Option Conf :=
  if input.hangup then some (checkComplete flush (markDone i x.1, x.2))
  else
    match (x.1.scatter i).conn with
    | none => some x
    | some c =>
        match input.consumeFails with
        | some status => some (checkComplete flush (markDone i x.1, x.2.setStatus c status))
        | none =>
            match (x.2.conns c).command with
            | none => some (checkComplete flush (markDone i x.1, x.2))
            | some command =>
                if input.busy then some x
                else (drainSlot i c command input x).map (checkComplete flush)

/-! ## The ways a callback can end -/

/-- The outcomes of {lit}`processInput`: the loop returns, or it hands over a query. -/
inductive InputCase (cfg : Config) (input : ClientInput) (x : Conf) : Conf × Bool → Prop where
  | ret (s : Session) (ok : Bool) (hloop : Intakes x.1 s) : InputCase cfg input x ((s, x.2), ok)
  | query (t : Session) (n : Nat) (sql : Text) (r : Conf × Bool) (hloop : Intakes x.1 t)
      (hstate : t.state.takesQueries)
      (hexit : feProtocolProcess input.puts input.rounds 0 x.1 =
        some (.query { t with recvBuf := t.recvBuf.consume n } sql))
      (hquery : handleQuery cfg sql input ({ t with recvBuf := t.recvBuf.consume n }, x.2) =
        some r) : InputCase cfg input x r

/-- Every call returns from the loop or handles a query. -/
theorem processInput_case {r : Conf × Bool} (h : processInput cfg input x = some r) :
    InputCase cfg input x r := by
  unfold processInput at h
  cases hloop : feProtocolProcess input.puts input.rounds 0 x.1 with
  | none => simp [hloop] at h
  | some round =>
      rw [hloop] at h
      have hfrom := feProtocolProcess_intake hloop
      cases round with
      | next s =>
          cases h
          exact InputCase.ret s true hfrom
      | ret s ok =>
          cases h
          exact InputCase.ret s ok hfrom
      | query s sql =>
          rcases hfrom with ⟨t, n, ht, hstate, rfl⟩
          exact InputCase.query t n sql r ht hstate hloop h

/-- The loop returns by itself. -/
theorem processInput_ret {t : Session} {ok : Bool} {rounds : Nat} {r : Conf × Bool}
    (hloop : ∀ more, feProtocolProcess input.puts (more + rounds) 0 x.1 = some (.ret t ok))
    (hprocess : processInput cfg input x = some r) : r = ((t, x.2), ok) := by
  unfold processInput at hprocess
  cases hround : feProtocolProcess input.puts input.rounds 0 x.1 with
  | none =>
      rw [hround] at hprocess
      cases hprocess
  | some round =>
      have hmore := feProtocolProcess_add hround rounds
      rw [hloop] at hmore
      cases hmore
      rw [hround] at hprocess
      cases hprocess
      rfl

/-- The calls for the client's socket, with what each of them meets. -/
inductive ClientCall (cfg : Config) (input : ClientInput) (x : Conf) : Conf → Prop where
  | hangup (hhangup : input.hangup = true) : ClientCall cfg input x (sessionDestroy x)
  | flush (hhangup : input.hangup = false) (hcallback : x.1.callback = .writable) :
      ClientCall cfg input x (flushOrDestroy input.flush x)
  | lost (hhangup : input.hangup = false) (hcallback : x.1.callback = .readable)
      (hrecv : input.recv = .closed ∨ input.recv = .error) :
      ClientCall cfg input x (sessionDestroy x)
  | again (hhangup : input.hangup = false) (hcallback : x.1.callback = .readable)
      (hrecv : input.recv = .again) : ClientCall cfg input x x
  | received (bytes : Text) (r : Conf × Bool) (hhangup : input.hangup = false)
      (hcallback : x.1.callback = .readable) (hrecv : input.recv = .data bytes)
      (hprocess : processInput cfg input (x.1.receive bytes, x.2) = some r) :
      ClientCall cfg input x (afterInput input.flush r)

/-- Every call takes one of the ways. -/
theorem onClient_call (h : onClient cfg input x = some y) : ClientCall cfg input x y := by
  unfold onClient at h
  cases hhangup : input.hangup with
  | true =>
      have hdestroy : y = sessionDestroy x := by
        cases hcallback : x.1.callback with
        | writable => simpa [hcallback, sessionOnClientWritable, hhangup] using h.symm
        | readable => simpa [hcallback, sessionOnClientReadable, hhangup] using h.symm
      rw [hdestroy]
      exact .hangup hhangup
  | false =>
      cases hcallback : x.1.callback with
      | writable =>
          rw [hcallback] at h
          dsimp only at h
          rw [sessionOnClientWritable, hhangup, if_neg (by simp)] at h
          cases h
          exact .flush hhangup hcallback
      | readable =>
          rw [hcallback] at h
          dsimp only at h
          rw [sessionOnClientReadable, hhangup, if_neg (by simp)] at h
          cases hrecv : input.recv with
          | closed =>
              rw [hrecv] at h
              cases h
              exact .lost hhangup hcallback (Or.inl hrecv)
          | error =>
              rw [hrecv] at h
              cases h
              exact .lost hhangup hcallback (Or.inr hrecv)
          | again =>
              rw [hrecv] at h
              cases h
              exact .again hhangup hcallback hrecv
          | data bytes =>
              rw [hrecv] at h
              rcases Option.map_eq_some_iff.mp h with ⟨r, hr, rfl⟩
              exact .received bytes r hhangup hcallback hrecv hr

/-- The call that is made. -/
theorem ClientCall.eq_some (h : ClientCall cfg input x y) : onClient cfg input x = some y := by
  unfold onClient sessionOnClientReadable sessionOnClientWritable
  cases h with
  | hangup hhangup =>
      rw [if_pos hhangup, if_pos hhangup]
      cases x.1.callback <;> rfl
  | flush hhangup hcallback =>
      rw [hcallback, hhangup]
      rfl
  | lost hhangup hcallback hrecv =>
      rw [hcallback, hhangup, if_neg (by simp)]
      rcases hrecv with hrecv | hrecv <;> rw [hrecv]
  | again hhangup hcallback hrecv => rw [hcallback, hhangup, if_neg (by simp), hrecv]
  | received bytes r hhangup hcallback hrecv hprocess =>
      rw [hcallback, hhangup, if_neg (by simp), hrecv]
      dsimp only
      rw [hprocess, Option.map_some]

theorem ClientInput.received_data {s : Session} {bytes : Text} (hhangup : input.hangup = false)
    (hcallback : s.callback = .readable) (hrecv : input.recv = .data bytes) :
    input.received s = bytes := by
  rw [received, hhangup, hcallback, hrecv]

/-- An event returns if the loop over what it brings does. -/
theorem onClient_isSome
    (hloop : ∀ bytes, input.hangup = false → x.1.callback = .readable →
      input.recv = .data bytes → (processInput cfg input (x.1.receive bytes, x.2)).isSome) :
    (onClient cfg input x).isSome := by
  unfold onClient sessionOnClientReadable
  cases hcallback : x.1.callback with
  | writable => rfl
  | readable =>
      dsimp only
      split
      · rfl
      · rename_i hhangup
        cases hrecv : input.recv with
        | closed | error | again => rfl
        | data bytes =>
            dsimp only
            rw [Option.isSome_map]
            exact hloop bytes (by simpa using hhangup) hcallback hrecv

/-- The outcomes of an event of the client's socket. -/
inductive ClientCase (cfg : Config) (input : ClientInput) (x : Conf) : Conf → Prop where
  | skip : ClientCase cfg input x x
  | destroy : ClientCase cfg input x (sessionDestroy x)
  | flush : ClientCase cfg input x (flushOrDestroy input.flush x)
  | input (bytes : Text) (r : Conf × Bool) (hcallback : x.1.callback = .readable)
      (hhangup : input.hangup = false) (hrecv : input.recv = .data bytes)
      (hcase : InputCase cfg input (x.1.receive bytes, x.2) r) :
      ClientCase cfg input x (afterInput input.flush r)

theorem onClient_case (h : onClient cfg input x = some y) : ClientCase cfg input x y := by
  cases onClient_call h with
  | hangup => exact ClientCase.destroy
  | flush => exact ClientCase.flush
  | lost => exact ClientCase.destroy
  | again => exact ClientCase.skip
  | received bytes r hhangup hcallback hrecv hprocess =>
      exact ClientCase.input bytes r hcallback hhangup hrecv (processInput_case hprocess)

/-- The backends are unchanged, or the connection has a new status. -/
def FaultOf (conn : Option ConnId) (b b' : Backends) : Prop :=
  b' = b ∨ ∃ c status, conn = some c ∧ b' = b.setStatus c status

/-- The calls for the single backend, with what each of them meets. -/
inductive BackendCall (input : BackendInput) (flush : SendOutcome) (x : Conf) : Conf → Prop where
  | hangup (hhangup : input.hangup = true) :
      BackendCall input flush x (backendLost (ascii "backend connection lost") flush x)
  | unbound (hhangup : input.hangup = false) (hconn : x.1.backendConn = none) :
      BackendCall input flush x x
  | failed (c : ConnId) (status : ConnStatus) (hhangup : input.hangup = false)
      (hconn : x.1.backendConn = some c) (hfails : input.consumeFails = some status) :
      BackendCall input flush x
        (backendLost (ascii "backend connection error") flush (x.1, x.2.setStatus c status))
  | quiet (c : ConnId) (hhangup : input.hangup = false) (hconn : x.1.backendConn = some c)
      (hfails : input.consumeFails = none) (hcommand : (x.2.conns c).command = none) :
      BackendCall input flush x (flushOrDestroy flush (finishSingle c x))
  | waiting (c : ConnId) (command : Command) (hhangup : input.hangup = false)
      (hconn : x.1.backendConn = some c) (hfails : input.consumeFails = none)
      (hcommand : (x.2.conns c).command = some command) (hbusy : input.busy = true) :
      BackendCall input flush x x
  | drain (c : ConnId) (command : Command) (hhangup : input.hangup = false)
      (hconn : x.1.backendConn = some c) (hfails : input.consumeFails = none)
      (hcommand : (x.2.conns c).command = some command) (hbusy : input.busy = false) :
      BackendCall input flush x (flushOrDestroy flush (drainSingle c command input x))

theorem sessionOnBackendReadable_call (input : BackendInput) (flush : SendOutcome) (x : Conf) :
    BackendCall input flush x (sessionOnBackendReadable input flush x) := by
  unfold sessionOnBackendReadable
  cases hhangup : input.hangup with
  | true =>
      rw [if_pos rfl]
      exact .hangup hhangup
  | false =>
      rw [if_neg (by simp)]
      cases hconn : x.1.backendConn with
      | none => exact .unbound hhangup hconn
      | some c =>
          dsimp only
          cases hfails : input.consumeFails with
          | some status => exact .failed c status hhangup hconn hfails
          | none =>
              dsimp only
              cases hcommand : (x.2.conns c).command with
              | none => exact .quiet c hhangup hconn hfails hcommand
              | some command =>
                  dsimp only
                  cases hbusy : input.busy with
                  | true =>
                      rw [if_pos rfl]
                      exact .waiting c command hhangup hconn hfails hcommand hbusy
                  | false =>
                      rw [if_neg (by simp)]
                      exact .drain c command hhangup hconn hfails hcommand hbusy

/-- The outcomes of an event of the single backend. -/
inductive BackendCase (input : BackendInput) (flush : SendOutcome) (x : Conf) : Conf → Prop where
  | lost (message : Text) (b : Backends) (hb : FaultOf x.1.backendConn x.2 b) :
      BackendCase input flush x (backendLost message flush (x.1, b))
  | skip : BackendCase input flush x x
  | quiet (c : ConnId) (hconn : x.1.backendConn = some c) (hhangup : input.hangup = false)
      (hcommand : (x.2.conns c).command = none) (hfails : input.consumeFails = none) :
      BackendCase input flush x (flushOrDestroy flush (finishSingle c x))
  | drain (c : ConnId) (command : Command) (hconn : x.1.backendConn = some c)
      (hhangup : input.hangup = false) (hcommand : (x.2.conns c).command = some command)
      (hfails : input.consumeFails = none) (hbusy : input.busy = false) :
      BackendCase input flush x (flushOrDestroy flush (drainSingle c command input x))

theorem sessionOnBackendReadable_case (input : BackendInput) (flush : SendOutcome) (x : Conf) :
    BackendCase input flush x (sessionOnBackendReadable input flush x) := by
  have hcall := sessionOnBackendReadable_call input flush x
  generalize sessionOnBackendReadable input flush x = y at hcall ⊢
  cases hcall with
  | hangup => exact BackendCase.lost _ x.2 (Or.inl rfl)
  | unbound => exact BackendCase.skip
  | failed c status hhangup hconn =>
      exact BackendCase.lost _ _ (Or.inr ⟨c, status, hconn, rfl⟩)
  | quiet c hhangup hconn hfails hcommand =>
      exact BackendCase.quiet c hconn hhangup hcommand hfails
  | waiting => exact BackendCase.skip
  | drain c command hhangup hconn hfails hcommand hbusy =>
      exact BackendCase.drain c command hconn hhangup hcommand hfails hbusy

/-- The calls for a scatter slot, with what each of them meets. -/
inductive ScatterCall (i : Fin maxScatterShards) (input : BackendInput) (flush : SendOutcome)
    (x : Conf) : Conf → Prop where
  | hangup (hhangup : input.hangup = true) :
      ScatterCall i input flush x (checkComplete flush (markDone i x.1, x.2))
  | gone (hhangup : input.hangup = false) (hconn : (x.1.scatter i).conn = none) :
      ScatterCall i input flush x x
  | failed (c : ConnId) (status : ConnStatus) (hhangup : input.hangup = false)
      (hconn : (x.1.scatter i).conn = some c) (hfails : input.consumeFails = some status) :
      ScatterCall i input flush x
        (checkComplete flush (markDone i x.1, x.2.setStatus c status))
  | again (c : ConnId) (hhangup : input.hangup = false) (hconn : (x.1.scatter i).conn = some c)
      (hfails : input.consumeFails = none) (hcommand : (x.2.conns c).command = none) :
      ScatterCall i input flush x (checkComplete flush (markDone i x.1, x.2))
  | waiting (c : ConnId) (command : Command) (hhangup : input.hangup = false)
      (hconn : (x.1.scatter i).conn = some c) (hfails : input.consumeFails = none)
      (hcommand : (x.2.conns c).command = some command) (hbusy : input.busy = true) :
      ScatterCall i input flush x x
  | drained (c : ConnId) (command : Command) (z : Conf) (hhangup : input.hangup = false)
      (hconn : (x.1.scatter i).conn = some c) (hfails : input.consumeFails = none)
      (hcommand : (x.2.conns c).command = some command) (hbusy : input.busy = false)
      (hdrain : drainSlot i c command input x = some z) :
      ScatterCall i input flush x (checkComplete flush z)

theorem sessionOnScatterReadable_call {i : Fin maxScatterShards} {input : BackendInput}
    {flush : SendOutcome} (h : sessionOnScatterReadable i input flush x = some y) :
    ScatterCall i input flush x y := by
  unfold sessionOnScatterReadable at h
  cases hhangup : input.hangup with
  | true =>
      rw [hhangup, if_pos rfl] at h
      cases h
      exact .hangup hhangup
  | false =>
      rw [hhangup, if_neg (by simp)] at h
      cases hconn : (x.1.scatter i).conn with
      | none =>
          rw [hconn] at h
          cases h
          exact .gone hhangup hconn
      | some c =>
          rw [hconn] at h
          dsimp only at h
          cases hfails : input.consumeFails with
          | some status =>
              rw [hfails] at h
              cases h
              exact .failed c status hhangup hconn hfails
          | none =>
              rw [hfails] at h
              dsimp only at h
              cases hcommand : (x.2.conns c).command with
              | none =>
                  rw [hcommand] at h
                  cases h
                  exact .again c hhangup hconn hfails hcommand
              | some command =>
                  rw [hcommand] at h
                  dsimp only at h
                  cases hbusy : input.busy with
                  | true =>
                      rw [hbusy, if_pos rfl] at h
                      cases h
                      exact .waiting c command hhangup hconn hfails hcommand hbusy
                  | false =>
                      rw [hbusy, if_neg (by simp)] at h
                      rcases Option.map_eq_some_iff.mp h with ⟨z, hz, rfl⟩
                      exact .drained c command z hhangup hconn hfails hcommand hbusy hz

/-- The outcomes of an event of a scatter slot. -/
inductive ScatterCase (i : Fin maxScatterShards) (input : BackendInput) (flush : SendOutcome)
    (x : Conf) : Conf → Prop where
  | skip : ScatterCase i input flush x x
  | failed (b : Backends) (hb : FaultOf (x.1.scatter i).conn x.2 b)
      (hcause : input.hangup = true ∨ (x.1.scatter i).conn ≠ none) :
      ScatterCase i input flush x (checkComplete flush (markDone i x.1, b))
  | again (c : ConnId) (hconn : (x.1.scatter i).conn = some c)
      (hcommand : (x.2.conns c).command = none) :
      ScatterCase i input flush x (checkComplete flush (markDone i x.1, x.2))
  | drained (c : ConnId) (command : Command) (y : Conf)
      (hconn : (x.1.scatter i).conn = some c)
      (hcommand : (x.2.conns c).command = some command)
      (hdrain : drainSlot i c command input x = some y) :
      ScatterCase i input flush x (checkComplete flush y)

theorem sessionOnScatterReadable_case {i : Fin maxScatterShards} {input : BackendInput}
    {flush : SendOutcome} (h : sessionOnScatterReadable i input flush x = some y) :
    ScatterCase i input flush x y := by
  cases sessionOnScatterReadable_call h with
  | hangup hhangup => exact ScatterCase.failed x.2 (Or.inl rfl) (Or.inl hhangup)
  | gone => exact ScatterCase.skip
  | failed c status hhangup hconn =>
      exact ScatterCase.failed _ (Or.inr ⟨c, status, hconn, rfl⟩) (Or.inr (by rw [hconn]; simp))
  | again c hhangup hconn hfails hcommand => exact ScatterCase.again c hconn hcommand
  | waiting => exact ScatterCase.skip
  | drained c command z hhangup hconn hfails hcommand hbusy hdrain =>
      exact ScatterCase.drained c command z hconn hcommand hdrain

end Sharegres
