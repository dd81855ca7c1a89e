import Sharegres.System.TransactionBinding

/-!
# System - Pooled connections are outside blocks

A connection goes to an idle list only if the client library reports it idle, and nothing
happens to it there that could open a transaction block.  So a session that takes a
connection from a pool never starts inside a block of somebody else.

Main results:

- Theorem {lit}`Ops.pooledIdle`: the operations of a session keep the idle lists outside
  blocks.
- Theorem {lit}`pooledIdle_of_reaches`: this holds in every state of every run.
- Theorem {lit}`connectSingle_inBlock`: a connection in a block is the one the session had.
-/

namespace Sharegres

open Foundation

variable {i session : Nat} {cfg : Config} {p p' : Proxy} {b b' : Backends} {c : ConnId} {x y : Conf}

/-- No idle connection is in a block. -/
def Backends.PooledIdle (b : Backends) : Prop :=
  ∀ i, ∀ c ∈ (b.pools i).idleConns, (b.conns c).inBlock = false

/-! ## Changes of the backends -/

/-- Closing a connection leaves the blocks alone. -/
theorem inBlock_pqFinish (c c' : ConnId) :
    ((b.pqFinish c).conns c').inBlock = (b.conns c').inBlock := by
  by_cases h : c' = c
  · subst h
    rw [Backends.pqFinish, Backends.modifyConn_self]
    rfl
  · rw [Backends.pqFinish, Backends.modifyConn_of_ne _ _ _ h]

/-- An idle connection has no open block. -/
theorem inBlock_of_idle {conn : PGconn} (h : pqTransactionStatus conn = .idle) :
    conn.inBlock = false := by
  rw [← Bool.not_eq_true]
  exact fun hblock => PGconn.not_idle hblock h

namespace Backends.PooledIdle

/-- The idle connections were idle before and entered no block. -/
theorem shrink (h : b.PooledIdle)
    (hidle : ∀ i, ∀ c ∈ (b'.pools i).idleConns, c ∈ (b.pools i).idleConns)
    (hconns : ∀ i, ∀ c ∈ (b.pools i).idleConns,
      (b'.conns c).inBlock = true → (b.conns c).inBlock = true) : b'.PooledIdle := by
  intro i c hmem
  rw [← Bool.not_eq_true]
  intro hblock
  have hbefore := hconns i c (hidle i c hmem) hblock
  rw [h i c (hidle i c hmem)] at hbefore
  cases hbefore

/-- Only a connection that is not idle changes. -/
theorem modifyConn (h : b.PooledIdle) (hfree : ∀ i, c ∉ (b.pools i).idleConns)
    (f : PGconn → PGconn) : (b.modifyConn c f).PooledIdle := by
  refine h.shrink (fun _ _ hmem => hmem) fun i c' hmem hblock => ?_
  have hne : c' ≠ c := fun heq => hfree i (heq ▸ hmem)
  rwa [modifyConn_of_ne _ _ _ hne] at hblock

theorem pqFinish (h : b.PooledIdle) (c : ConnId) : (b.pqFinish c).PooledIdle := by
  refine h.shrink (fun _ _ hmem => hmem) fun i c' hmem hblock => ?_
  rwa [inBlock_pqFinish] at hblock

/-- A pool gets other idle connections, none in a block. -/
theorem setIdle (h : b.PooledIdle) {idle : List ConnId}
    (hidle : ∀ c ∈ idle, (b.conns c).inBlock = false) : (b.setIdle i idle).PooledIdle := by
  intro j c hmem
  rcases mem_setIdle hmem with ⟨-, hnew⟩ | ⟨-, hold⟩
  · exact hidle c hnew
  · exact h j c hold

/-- The top of the stack is taken. -/
theorem pop (h : b.PooledIdle) {rest : List ConnId} (htop : (b.pools i).idleConns = c :: rest) :
    (b.setIdle i rest).PooledIdle := by
  refine h.setIdle fun c' hmem => h i c' ?_
  rw [htop]
  exact List.mem_cons_of_mem c hmem

theorem lend (h : b.PooledIdle) (i session : Nat) (c : ConnId) :
    (b.lend i session c).PooledIdle := by
  intro j c' hmem
  rw [lend_idleConns] at hmem
  exact h j c' hmem

theorem giveBack (h : b.PooledIdle) (i session : Nat) (c : ConnId) :
    (b.giveBack i session c).PooledIdle := by
  intro j c' hmem
  rw [giveBack_idleConns] at hmem
  exact h j c' hmem

/-- A new connection is in no block. -/
theorem openConn (h : b.PooledIdle) : b.openConn.PooledIdle := by
  refine h.shrink (fun _ _ hmem => hmem) fun i c' _ hblock => ?_
  by_cases hnew : c' = b.opened
  · rw [hnew, open_self] at hblock
    cases hblock
  · rwa [open_of_ne _ hnew] at hblock

/-- A connection without a block is put on the stack. -/
theorem shelve (h : b.PooledIdle) (hidle : pqTransactionStatus (b.conns c) = .idle) :
    ((b.giveBack i session c).setIdle i (c :: (b.pools i).idleConns)).PooledIdle := by
  refine (h.giveBack i session c).setIdle fun c' hmem => ?_
  rcases List.mem_cons.mp hmem with rfl | hold
  · exact inBlock_of_idle hidle
  · exact h i c' hold

/-- A release puts an idle connection on the stack or closes it. -/
theorem connPoolRelease (h : b.PooledIdle) (i session : Nat) (c : ConnId) :
    (b.connPoolRelease i session c).PooledIdle := by
  rcases b.connPoolRelease_cases i session c with hclosed | ⟨hidle, hkept⟩
  · rw [hclosed]
    exact (h.giveBack i session c).pqFinish c
  · rw [hkept]
    exact h.shelve hidle

end Backends.PooledIdle

/-! ## Operations -/

section Operations

variable {leaky : Prop} {accts : Nat → Account} {own : ConnId → Owner} {sid : Nat} {q : Place}

/-- Every operation of a session. -/
theorem Op.pooledIdle {u v : Account × Backends} (hop : Op leaky q u v) (hacct : accts sid = u.1)
    (hinv : Ledger accts u.2 own) (h : u.2.PooledIdle) : v.2.PooledIdle := by
  cases hop with
  | retire htop => exact (h.pop htop).pqFinish _
  | take hfree htop => exact (h.pop htop).lend _ _ _
  | openPooled hfree => exact h.openConn.lend _ _ _
  | openDefault hfree => exact h.openConn
  | discard hheld => exact (h.giveBack _ _ _).pqFinish _
  | shelve hheld hidle => exact h.shelve hidle
  | finish hheld => exact h.pqFinish _
  | drop hleaky => exact h
  | send sql hheld hquiet =>
      subst hacct
      dsimp only at h hinv ⊢
      exact h.modifyConn (hinv.not_pooled hheld) _
  | forward hheld hcommand hrows => exact h
  | complete xact hheld =>
      subst hacct
      dsimp only at h hinv ⊢
      exact h.modifyConn (hinv.not_pooled hheld) _
  | fault status hheld =>
      subst hacct
      dsimp only at h hinv ⊢
      exact h.modifyConn (hinv.not_pooled hheld) _

/-- The operations of a session keep the idle lists outside blocks. -/
theorem Ops.pooledIdle {places : Set Place} {u v : Account × Backends}
    (hops : Ops leaky places u v) (hacct : accts sid = u.1) (hinv : Ledger accts u.2 own)
    (h : u.2.PooledIdle) : v.2.PooledIdle := by
  induction hops with
  | refl => exact h
  | tail hfirst hlast ih =>
      rcases hlast with ⟨q, -, hop⟩
      rcases Ops.ledger hfirst hacct hinv with ⟨own', hinv'⟩
      exact hop.pooledIdle (Function.update_self ..) hinv' ih

end Operations

/-! ## Runs -/

/-- The health check closes connections. -/
theorem healthLoop_inBlock (idle : List ConnId) (b : Backends) (c : ConnId) :
    ((Backends.healthLoop idle b).2.conns c).inBlock = (b.conns c).inBlock := by
  induction idle generalizing b with
  | nil => rfl
  | cons c' rest ih =>
      unfold Backends.healthLoop
      split
      · exact ih b
      · rw [ih, inBlock_pqFinish]

/-- The health check of all pools. -/
theorem healthCheckAll_pooledIdle (shards : List Nat) (h : b.PooledIdle) :
    (b.healthCheckAll shards).PooledIdle := by
  induction shards generalizing b with
  | nil => exact h
  | cons i shards ih =>
      apply ih
      rcases healthLoop_spec (b.pools i).idleConns b with ⟨hsub, hpools, -, -⟩
      have hloop : (Backends.healthLoop (b.pools i).idleConns b).2.PooledIdle := by
        intro j c hmem
        rw [hpools] at hmem
        rw [healthLoop_inBlock]
        exact h j c hmem
      refine hloop.setIdle fun c hmem => ?_
      rw [healthLoop_inBlock]
      exact h i c (hsub.subset hmem)

/-- A session changes by operations. -/
theorem Proxy.put_pooledIdle {places : Set Place} {sid : Nat}
    (hops : Ops True places (view (p.conf sid)) (view y)) (howned : p.Owned)
    (h : p.backends.PooledIdle) : (p.put sid y).backends.PooledIdle := by
  rcases howned with ⟨own, hledger⟩
  have hacct : p.accounts sid = (view (p.conf sid)).1 := rfl
  exact hops.pooledIdle hacct hledger h

theorem step_pooledIdle {e : Event} (hstep : step cfg p e = some p') (howned : p.Owned)
    (h : p.backends.PooledIdle) : p'.backends.PooledIdle := by
  cases step_case hstep with
  | accept pid secretKey => exact h
  | client sid input y halive hcase =>
      exact Proxy.put_pooledIdle (hcase.ops (Or.inl trivial)) howned h
  | backend sid input flush y halive hcase => exact Proxy.put_pooledIdle hcase.ops howned h
  | scatter sid i input flush y halive hcase => exact Proxy.put_pooledIdle hcase.ops howned h
  | healthCheck => exact healthCheckAll_pooledIdle _ h
  | connLost c =>
      refine h.shrink (fun _ _ hmem => hmem) fun i c' _ hblock => ?_
      by_cases hc : c' = c
      · subst hc
        have hbad : ((p.backends.setStatus c' .bad).conns c').inBlock = true := hblock
        rw [Backends.setStatus, Backends.modifyConn_self] at hbad
        cases hbad
      · have hsame : (p.backends.setStatus c .bad).conns c' = p.backends.conns c' :=
          Backends.modifyConn_of_ne _ _ _ hc
        exact hsame ▸ hblock

/-- In every state reached no idle connection is in a block. -/
theorem pooledIdle_of_reaches {guard : Proxy → Event → Prop} (h : ProxyReaches cfg guard p) :
    p.backends.PooledIdle := by
  have hstart : (Proxy.start cfg).backends.PooledIdle := by
    intro i c hmem
    cases hmem
  apply h.invariant hstart
  intro t e t' hreach hinv _ hstep
  exact step_pooledIdle hstep (owned_of_reaches hreach) hinv

/-! ## Connections for a query -/

/-- The single backend is released. -/
theorem releaseBackend_pooledIdle (h : x.2.PooledIdle) : (releaseBackend x).2.PooledIdle := by
  unfold releaseBackend
  split
  · exact h
  · rename_i hold hheld
    unfold giveUp
    split
    · exact h.connPoolRelease _ _ _
    · exact h.pqFinish _

/-- A pool lends what was idle in it. -/
theorem reuseIdle_inBlock {idle : List ConnId} (b : Backends)
    (h : ∀ c ∈ idle, (b.conns c).inBlock = false)
    (hreuse : Backends.reuseIdle i session idle b = (b', some c)) :
    (b'.conns c).inBlock = false := by
  induction idle generalizing b with
  | nil => cases hreuse
  | cons top rest ih =>
      unfold Backends.reuseIdle at hreuse
      split at hreuse
      · cases hreuse
        exact h c List.mem_cons_self
      · refine ih _ (fun c' hmem => ?_) hreuse
        rw [inBlock_pqFinish]
        exact h c' (List.mem_cons_of_mem top hmem)

/-- A connection from a pool is in no block. -/
theorem connPoolAcquire_inBlock {connects : Bool} (h : b.PooledIdle)
    (hacquire : b.connPoolAcquire i session connects = (b', some c)) :
    (b'.conns c).inBlock = false := by
  unfold Backends.connPoolAcquire at hacquire
  split at hacquire
  · rename_i b₁ c₁ hreuse
    cases hacquire
    exact reuseIdle_inBlock b (h i) hreuse
  · rename_i b₁ hreuse
    unfold Backends.pqConnectdb at hacquire
    cases connects with
    | false =>
        split at hacquire <;> cases hacquire
    | true =>
        split at hacquire
        · cases hacquire
        · cases hacquire
          rw [Backends.lend_conns, Backends.open_self]
          rfl

/-- The session's single backend is in a block. -/
def Conf.inBlock (x : Conf) : Bool :=
  match x.1.backendConn with
  | none => false
  | some c => (x.2.conns c).inBlock

/-- Without a backend there is no block. -/
theorem inBlock_of_none (h : x.1.backendConn = none) : Conf.inBlock x = false := by
  rw [Conf.inBlock, h]

/-- The block of a session is its backend's. -/
theorem inBlock_of_some (h : x.1.backendConn = some c) :
    Conf.inBlock x = (x.2.conns c).inBlock := by
  rw [Conf.inBlock, h]

/-- A new connection to a shard is in no block. -/
theorem connectToShard_inBlock {shard : Shard} {connects : Bool} (h : x.2.PooledIdle)
    (hconn : x.1.backendConn = none) :
    Conf.inBlock (connectToShard shard connects x).1 = false := by
  unfold connectToShard
  split
  · exact inBlock_of_none hconn
  · rename_i b c hacquire
    exact connPoolAcquire_inBlock h hacquire

/-- The default backend is kept if it is in order; otherwise it is replaced by a connection
that is in no block. -/
theorem connectToDefault_inBlock (connects : Bool) (x : Conf) :
    connectToDefault connects x = (x, true) ∨
      Conf.inBlock (connectToDefault connects x).1 = false ∧ backendOk x = false := by
  unfold connectToDefault
  cases hok : backendOk x with
  | true => exact Or.inl rfl
  | false =>
      right
      cases connects with
      | false => exact ⟨inBlock_of_none (releaseBackend_backendConn x), rfl⟩
      | true =>
          refine ⟨?_, rfl⟩
          change ((releaseBackend x).2.openConn.conns (releaseBackend x).2.opened).inBlock = false
          rw [Backends.open_self]
          rfl

/-- A query for one backend goes to the connection the session has, or the session is
left with a connection in no block. -/
theorem connectSingle_inBlock (shard : Option Shard) (connects : Bool) (h : x.2.PooledIdle) :
    x.1.backendShard.map Shard.index = shard.map Shard.index ∧
      connectSingle shard connects (swapBackend shard x) = (x, true) ∨
    Conf.inBlock (connectSingle shard connects (swapBackend shard x)).1 = false ∧
      (Conf.inBlock x = true →
        x.1.backendShard.map Shard.index ≠ shard.map Shard.index) := by
  -- a session without a connection gets a new one
  have hnew : ∀ z : Conf, z.2.PooledIdle → z.1.backendConn = none →
      Conf.inBlock (connectSingle shard connects z).1 = false := by
    intro z hz hconn
    unfold connectSingle
    rw [if_neg (by simp [hconn])]
    cases shard with
    | some shard => exact connectToShard_inBlock hz hconn
    | none =>
        rcases connectToDefault_inBlock connects z with hsame | ⟨hout, -⟩
        · rw [hsame]
          exact inBlock_of_none hconn
        · exact hout
  unfold swapBackend
  by_cases hshard : x.1.backendShard.map Shard.index = shard.map Shard.index
  · rw [if_neg (not_not.mpr hshard)]
    cases hconn : x.1.backendConn with
    | none =>
        refine Or.inr ⟨hnew x h hconn, fun hblock => ?_⟩
        rw [inBlock_of_none hconn] at hblock
        cases hblock
    | some c =>
        refine Or.inl ⟨hshard, ?_⟩
        unfold connectSingle
        rw [if_pos (by simp [hconn])]
  · rw [if_pos hshard]
    exact Or.inr ⟨hnew _ (releaseBackend_pooledIdle h) (releaseBackend_backendConn x),
      fun _ => hshard⟩

end Sharegres
