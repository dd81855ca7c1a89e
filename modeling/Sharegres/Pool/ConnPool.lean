import Mathlib.Logic.Function.Basic
import Sharegres.Foundation.LeaseLog
import Sharegres.Pool.Libpq

/-!
# Pool - Connection pools

Model of {lit}`src/pool/conn_pool.c` and {lit}`src/pool/health_check.c`.  The
connections live in a store; a pool holds the identities of its idle ones, the top of
the stack first.  Every acquisition and release is written to a log together with the
session that made it.

Main results:

- Definitions {lit}`connPoolAcquire`, {lit}`connPoolRelease` and
  {lit}`connPoolHealthCheck`.
- Theorem {lit}`connPoolRelease_cases`: a released connection is kept only if the library
  reports it idle.
-/

namespace Sharegres

open Foundation

/-- {lit}`ConnPool`. -/
structure ConnPool where
  maxSize : Nat
  idleConns : List ConnId := []
  activeCount : Int := 0

/-- Who acquired a connection and from which pool. -/
structure Lessee where
  session : Nat
  pool : Nat
deriving DecidableEq, Repr

/-- The pools, indexed by shard, and the connections opened so far. -/
structure Backends where
  pools : Nat → ConnPool
  conns : ConnId → PGconn := fun _ => { finished := true }
  opened : Nat := 0
  log : List (LeaseOp ConnId Lessee) := []

namespace Backends

/-- Change one connection. -/
def modifyConn (b : Backends) (c : ConnId) (f : PGconn → PGconn) : Backends :=
  { b with conns := Function.update b.conns c (f (b.conns c)) }

/-- Replace the idle connections of a pool. -/
def setIdle (b : Backends) (i : Nat) (idle : List ConnId) : Backends :=
  { b with pools := Function.update b.pools i { b.pools i with idleConns := idle } }

/-- Count an acquisition. -/
def lend (b : Backends) (i session : Nat) (c : ConnId) : Backends :=
  { b with
    pools := Function.update b.pools i
      { b.pools i with activeCount := (b.pools i).activeCount + 1 }
    log := .lend c { session := session, pool := i } :: b.log }

/-- Count a release. -/
def giveBack (b : Backends) (i session : Nat) (c : ConnId) : Backends :=
  { b with
    pools := Function.update b.pools i
      { b.pools i with activeCount := (b.pools i).activeCount - 1 }
    log := .giveBack c { session := session, pool := i } :: b.log }

/-- {lit}`PQfinish`. -/
def pqFinish (b : Backends) (c : ConnId) : Backends :=
  b.modifyConn c fun conn => { conn with finished := true }

/-- The new connection of a {lit}`PQconnectdb` that succeeds. -/
def openConn (b : Backends) : Backends :=
  { b with conns := Function.update b.conns b.opened {}, opened := b.opened + 1 }

/-- {lit}`PQconnectdb` with {lit}`PQstatus` asked right after it.  A connection that
failed is finished at once and leaves no trace. -/
def pqConnectdb (b : Backends) (connects : Bool) : Backends × Option ConnId :=
  if connects then (b.openConn, some b.opened) else (b, none)

/-- {lit}`PQsendQuery`: refused on a bad connection and while another command is in
progress. -/
def pqSendQuery (b : Backends) (c : ConnId) (session : Nat) (sql : Text) (accepts : Bool) :
    Option Backends :=
  if accepts ∧ (b.conns c).status = .ok ∧ (b.conns c).command = none then
    some (b.modifyConn c fun conn => { conn with command := some ⟨session, sql⟩ })
  else none

/-- {lit}`PQgetResult` has answered NULL: the command in progress is over. -/
def endCommand (b : Backends) (c : ConnId) (xact : Xact) : Backends :=
  b.modifyConn c fun conn => { conn with command := none, xact := xact }

/-- The status of a connection changes. -/
def setStatus (b : Backends) (c : ConnId) (status : ConnStatus) : Backends :=
  b.modifyConn c fun conn => { conn with status := status }

/-- The loop of {lit}`conn_pool_acquire` over the idle connections. -/
def reuseIdle (i session : Nat) : List ConnId → Backends → Backends × Option ConnId
  | [], b => (b, none)
  | c :: rest, b =>
      if (b.conns c).status = .ok then ((b.setIdle i rest).lend i session c, some c)
      else reuseIdle i session rest ((b.setIdle i rest).pqFinish c)

/-- {lit}`conn_pool_acquire`. -/
def connPoolAcquire (b : Backends) (i session : Nat) (connects : Bool) :
    Backends × Option ConnId :=
  match reuseIdle i session (b.pools i).idleConns b with
  | (b, some c) => (b, some c)
  | (b, none) =>
      if (b.pools i).maxSize ≤ (b.pools i).activeCount then (b, none)
      else
        match b.pqConnectdb connects with
        | (b, none) => (b, none)
        | (b, some c) => (b.lend i session c, some c)

/-- {lit}`conn_pool_release` of a connection that is not NULL. -/
def connPoolRelease (b : Backends) (i session : Nat) (c : ConnId) : Backends :=
  let b := b.giveBack i session c
  if (b.conns c).status ≠ .ok then b.pqFinish c
  else if pqTransactionStatus (b.conns c) ≠ .idle then b.pqFinish c
  else if (b.pools i).idleConns.length < (b.pools i).maxSize then
    b.setIdle i (c :: (b.pools i).idleConns)
  else b.pqFinish c

/-- The loop of {lit}`conn_pool_health_check` from the top of the stack down. -/
def healthLoop : List ConnId → Backends → List ConnId × Backends
  | [], b => ([], b)
  | c :: rest, b =>
      if (b.conns c).status = .ok then
        let (kept, b) := healthLoop rest b
        (c :: kept, b)
      else healthLoop rest (b.pqFinish c)

/-- {lit}`conn_pool_health_check`. -/
def connPoolHealthCheck (b : Backends) (i : Nat) : Backends :=
  let (kept, b') := healthLoop (b.pools i).idleConns b
  b'.setIdle i kept

/-- {lit}`health_check_all` over the pools of the given shards. -/
def healthCheckAll (b : Backends) (shards : List Nat) : Backends :=
  shards.foldl connPoolHealthCheck b

/-! ## Projections -/

section Projections

variable (b : Backends) (c : ConnId) (i session : Nat) (idle : List ConnId) (f : PGconn → PGconn)

@[simp] theorem modifyConn_pools : (b.modifyConn c f).pools = b.pools := rfl
@[simp] theorem setIdle_conns : (b.setIdle i idle).conns = b.conns := rfl
@[simp] theorem lend_conns : (b.lend i session c).conns = b.conns := rfl
@[simp] theorem giveBack_conns : (b.giveBack i session c).conns = b.conns := rfl
@[simp] theorem open_pools : b.openConn.pools = b.pools := rfl

/-- The new connection is fresh. -/
@[simp]
theorem open_self : b.openConn.conns b.opened = {} :=
  Function.update_self ..

/-- The other connections stay. -/
theorem open_of_ne {c' : ConnId} (h : c' ≠ b.opened) : b.openConn.conns c' = b.conns c' :=
  Function.update_of_ne h ..

@[simp]
theorem modifyConn_self : (b.modifyConn c f).conns c = f (b.conns c) :=
  Function.update_self ..

theorem modifyConn_of_ne {c' : ConnId} (h : c' ≠ c) :
    (b.modifyConn c f).conns c' = b.conns c' :=
  Function.update_of_ne h ..

@[simp]
theorem setIdle_self : ((b.setIdle i idle).pools i).idleConns = idle := by
  simp [setIdle]

theorem setIdle_of_ne {j : Nat} (h : j ≠ i) : (b.setIdle i idle).pools j = b.pools j :=
  Function.update_of_ne h ..

/-- Idle connections are not active. -/
@[simp]
theorem setIdle_activeCount (j : Nat) :
    ((b.setIdle i idle).pools j).activeCount = (b.pools j).activeCount := by
  by_cases h : j = i
  · subst h
    simp [setIdle]
  · rw [setIdle_of_ne b i idle h]

@[simp]
theorem lend_idleConns (j : Nat) :
    ((b.lend i session c).pools j).idleConns = (b.pools j).idleConns := by
  by_cases h : j = i
  · subst h
    simp [lend]
  · simp [lend, Function.update_of_ne h]

@[simp]
theorem giveBack_idleConns (j : Nat) :
    ((b.giveBack i session c).pools j).idleConns = (b.pools j).idleConns := by
  by_cases h : j = i
  · subst h
    simp [giveBack]
  · simp [giveBack, Function.update_of_ne h]

/-- The lender counts one more. -/
theorem lend_activeCount (j : Nat) :
    ((b.lend i session c).pools j).activeCount =
      (b.pools j).activeCount + if j = i then 1 else 0 := by
  by_cases h : j = i
  · subst h
    simp [lend]
  · simp [lend, h]

/-- The pool counts one less. -/
theorem giveBack_activeCount (j : Nat) :
    ((b.giveBack i session c).pools j).activeCount =
      (b.pools j).activeCount - if j = i then 1 else 0 := by
  by_cases h : j = i
  · subst h
    simp [giveBack]
  · simp [giveBack, h]

end Projections

/-- A query is accepted only without another command in progress. -/
theorem pqSendQuery_eq_some {b b' : Backends} {c : ConnId} {session : Nat} {sql : Text}
    {accepts : Bool} (h : b.pqSendQuery c session sql accepts = some b') :
    (b.conns c).status = .ok ∧ (b.conns c).command = none ∧
      b' = b.modifyConn c fun conn => { conn with command := some ⟨session, sql⟩ } := by
  unfold pqSendQuery at h
  split at h
  · rename_i hok
    cases h
    exact ⟨hok.2.1, hok.2.2, rfl⟩
  · cases h

/-- A released connection is closed, or it is kept because the library reports it idle. -/
theorem connPoolRelease_cases (b : Backends) (i session : Nat) (c : ConnId) :
    b.connPoolRelease i session c = (b.giveBack i session c).pqFinish c ∨
      pqTransactionStatus (b.conns c) = .idle ∧
        b.connPoolRelease i session c =
          (b.giveBack i session c).setIdle i (c :: (b.pools i).idleConns) := by
  unfold connPoolRelease
  dsimp only
  split
  · exact Or.inl rfl
  · split
    · exact Or.inl rfl
    · rename_i hidle
      split
      · right
        rw [giveBack_conns, not_not] at hidle
        exact ⟨hidle, by rw [giveBack_idleConns]⟩
      · exact Or.inl rfl

/-! ## The command in progress -/

section Command

variable {b : Backends}

/-- A change that leaves the command alone. -/
theorem command_modifyConn {c : ConnId} {f : PGconn → PGconn}
    (hf : (f (b.conns c)).command = (b.conns c).command) (c' : ConnId) :
    ((b.modifyConn c f).conns c').command = (b.conns c').command := by
  by_cases h : c' = c
  · subst h
    rw [modifyConn_self, hf]
  · rw [modifyConn_of_ne b c _ h]

theorem command_pqFinish (c c' : ConnId) :
    ((b.pqFinish c).conns c').command = (b.conns c').command :=
  command_modifyConn rfl c'

theorem command_setStatus (c c' : ConnId) (status : ConnStatus) :
    ((b.setStatus c status).conns c').command = (b.conns c').command :=
  command_modifyConn rfl c'

/-- The command is over. -/
@[simp]
theorem command_endCommand (c : ConnId) (xact : Xact) :
    ((b.endCommand c xact).conns c).command = none := by
  simp [endCommand]

/-- Releasing a connection does not end its command. -/
theorem command_connPoolRelease (i session : Nat) (c c' : ConnId) :
    ((b.connPoolRelease i session c).conns c').command = (b.conns c').command := by
  rcases b.connPoolRelease_cases i session c with hclosed | ⟨-, hkept⟩
  · rw [hclosed, command_pqFinish, giveBack_conns]
  · rw [hkept, setIdle_conns, giveBack_conns]

end Command

end Backends

end Sharegres
