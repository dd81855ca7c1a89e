import Sharegres.Config.RouteTargets
import Sharegres.Protocol.MultiStatement
import Sharegres.System.PoolAccounting
import Sharegres.System.Unsharded

/-!
# System - Where statements are executed

The router decides for each text which backends it is meant for.  Between the decision and
the connections stand the pools, the connection a session already has, and the slots of a
scatter.  Here every connection is given the pool it was opened for, and in every run
each text that was sent on a connection was routed to the shard of that pool, or to the default
backend if the connection is of no pool.

Main results:

- Definition {lit}`Origins`: the pools of the connections.
- Theorem {lit}`Ops.origins`: the operations of a session keep them.
- Theorem {lit}`handleQuery_sent`: the connections a Query message is sent on.
- Theorem {lit}`statements_stay_on_route`: what was sent in every run.
-/

namespace Sharegres

open Foundation

variable {a : Account} {x y : Conf} {sql : Text}

/-! ## The pools of the connections -/

/-- Connections have been opened, and the others have kept their pools. -/
structure Extends (b b' : Backends) (origin origin' : ConnId → Option Nat) : Prop where
  opened : b.opened ≤ b'.opened
  agree : ∀ c, c < b.opened → origin' c = origin c
  log : ∀ op ∈ b.log, op ∈ b'.log

namespace Extends

variable {b b' b'' : Backends} {origin origin' origin'' : ConnId → Option Nat}

theorem refl (b : Backends) (origin : ConnId → Option Nat) : Extends b b origin origin :=
  ⟨le_refl _, fun _ _ => rfl, fun _ h => h⟩

theorem trans (h : Extends b b' origin origin') (h' : Extends b' b'' origin' origin'') :
    Extends b b'' origin origin'' where
  opened := le_trans h.opened h'.opened
  agree c hc := (h'.agree c (lt_of_lt_of_le hc h.opened)).trans (h.agree c hc)
  log op hop := h'.log op (h.log op hop)

/-- Nothing was opened. -/
theorem of_log (hopened : b'.opened = b.opened) (hlog : ∀ op ∈ b.log, op ∈ b'.log) :
    Extends b b' origin origin :=
  ⟨hopened.ge, fun _ _ => rfl, hlog⟩

end Extends

/-- Every connection that is held, idle or was lent is one of its pool, and a pooled connection
that is held was lent to its holder. -/
structure Origins (accts : Nat → Account) (b : Backends) (origin : ConnId → Option Nat) :
    Prop where
  ids : ∀ t, (accts t).id = t
  held : ∀ t q h, (accts t).held q = some h → origin h.conn = h.pool ∧ h.conn < b.opened
  idle : ∀ i c, c ∈ (b.pools i).idleConns → origin c = some i ∧ c < b.opened
  lent : ∀ c lessee, .lend c lessee ∈ b.log → origin c = some lessee.pool ∧ c < b.opened
  leased : ∀ t q h i, (accts t).held q = some h → h.pool = some i →
    .lend h.conn ⟨t, i⟩ ∈ b.log

section Origins

variable {accts : Nat → Account} {b b' : Backends} {origin origin' : ConnId → Option Nat}
  {leaky : Prop} {sid : Nat} {p : Place}

/-- A session changes what it holds, and the backends change with it. -/
theorem Origins.change (hinv : Origins accts b origin)
    (hext : Extends b b' origin origin') (hid : a.id = sid)
    (hheld : ∀ q h, a.held q = some h → (accts sid).held q = some h ∨
      (origin' h.conn = h.pool ∧ h.conn < b'.opened ∧
        ∀ i, h.pool = some i → .lend h.conn ⟨sid, i⟩ ∈ b'.log))
    (hidle : ∀ i c, c ∈ (b'.pools i).idleConns → c ∈ (b.pools i).idleConns ∨
      (origin' c = some i ∧ c < b'.opened))
    (hlent : ∀ c lessee, .lend c lessee ∈ b'.log → .lend c lessee ∈ b.log ∨
      (origin' c = some lessee.pool ∧ c < b'.opened)) :
    Origins (Function.update accts sid a) b' origin' := by
  -- what was known of a connection is still known of it
  have hold : ∀ c pool, origin c = pool ∧ c < b.opened → origin' c = pool ∧ c < b'.opened := by
    rintro c pool ⟨horigin, hc⟩
    exact ⟨(hext.agree c hc).trans horigin, lt_of_lt_of_le hc hext.opened⟩
  constructor
  case ids =>
    intro t
    by_cases ht : t = sid
    · subst ht
      rw [Function.update_self, hid]
    · rw [Function.update_of_ne ht]
      exact hinv.ids t
  case held =>
    intro t q h hq
    by_cases ht : t = sid
    · subst ht
      rw [Function.update_self] at hq
      rcases hheld q h hq with hbefore | ⟨horigin, hc, -⟩
      · exact hold _ _ (hinv.held t q h hbefore)
      · exact ⟨horigin, hc⟩
    · rw [Function.update_of_ne ht] at hq
      exact hold _ _ (hinv.held t q h hq)
  case idle =>
    intro i c hc
    rcases hidle i c hc with hbefore | hnew
    · exact hold _ _ (hinv.idle i c hbefore)
    · exact hnew
  case lent =>
    intro c lessee hc
    rcases hlent c lessee hc with hbefore | hnew
    · exact hold _ _ (hinv.lent c lessee hbefore)
    · exact hnew
  case leased =>
    intro t q h i hq hpool
    by_cases ht : t = sid
    · subst ht
      rw [Function.update_self] at hq
      rcases hheld q h hq with hbefore | ⟨-, -, hlog⟩
      · exact hext.log _ (hinv.leased t q h i hbefore hpool)
      · exact hlog i hpool
    · rw [Function.update_of_ne ht] at hq
      exact hext.log _ (hinv.leased t q h i hq hpool)

/-- A place is emptied or filled, and the others are left as they are. -/
theorem hold_cases {hold : Option Hold} {q : Place} {h : Hold}
    (hq : (a.hold p hold).held q = some h) : a.held q = some h ∨ hold = some h := by
  by_cases hqp : q = p
  · subst hqp
    rw [Account.hold_held_self] at hq
    exact Or.inr hq
  · rw [Account.hold_held_of_ne _ _ _ hqp] at hq
    exact Or.inl hq

/-- A place is emptied, and the backends are left alone but for the connection. -/
theorem Origins.empty (hinv : Origins accts b origin)
    (hopened : b'.opened = b.opened) (hlog : ∀ op ∈ b.log, op ∈ b'.log)
    (hidle : ∀ i c, c ∈ (b'.pools i).idleConns → c ∈ (b.pools i).idleConns ∨
      (origin c = some i ∧ c < b'.opened))
    (hlent : ∀ c lessee, .lend c lessee ∈ b'.log → .lend c lessee ∈ b.log) :
    Origins (Function.update accts sid ((accts sid).hold p none)) b' origin := by
  refine hinv.change (Extends.of_log hopened hlog) (hinv.ids sid) ?_ hidle ?_
  · intro q h hq
    rcases hold_cases hq with hbefore | hnone
    · exact Or.inl hbefore
    · cases hnone
  · intro c lessee hc
    exact Or.inl (hlent c lessee hc)

/-- Nothing changes but what was sent and forwarded, and the states of connections. -/
theorem Origins.same (hinv : Origins accts b origin) (hid : a.id = sid)
    (hheld : a.held = (accts sid).held) (hpools : b'.pools = b.pools)
    (hopened : b'.opened = b.opened) (hlog : b'.log = b.log) :
    Origins (Function.update accts sid a) b' origin := by
  refine hinv.change (Extends.of_log hopened fun op hop => by rwa [hlog]) hid ?_ ?_ ?_
  · intro q h hq
    rw [hheld] at hq
    exact Or.inl hq
  · intro i c hc
    rw [hpools] at hc
    exact Or.inl hc
  · intro c lessee hc
    rw [hlog] at hc
    exact Or.inl hc

/-- A place gets a connection that was opened for a pool, or for the default backend. -/
theorem Origins.open (hinv : Origins accts b origin) (pool : Option Nat)
    (hidle : ∀ i, (b'.pools i).idleConns = (b.pools i).idleConns)
    (hopened : b'.opened = b.opened + 1)
    (hlog : b'.log = match pool with
      | some i => .lend b.opened ⟨sid, i⟩ :: b.log
      | none => b.log) :
    Origins (Function.update accts sid ((accts sid).hold p (some ⟨b.opened, pool⟩))) b'
        (Function.update origin b.opened pool) ∧
      Extends b b' origin (Function.update origin b.opened pool) := by
  have hext : Extends b b' origin (Function.update origin b.opened pool) := by
    refine ⟨by omega, fun c hc => Function.update_of_ne hc.ne .., fun op hop => ?_⟩
    rw [hlog]
    cases pool with
    | none => exact hop
    | some i => exact List.mem_cons_of_mem _ hop
  refine ⟨hinv.change hext (hinv.ids sid) ?_ ?_ ?_, hext⟩
  · intro q h hq
    rcases hold_cases hq with hbefore | hnew
    · exact Or.inl hbefore
    · cases hnew
      refine Or.inr ⟨Function.update_self .., hopened ▸ Nat.lt_succ_self _, ?_⟩
      intro i hi
      dsimp only at hi
      rw [hlog, hi]
      exact List.mem_cons_self
  · intro i c hc
    rw [hidle] at hc
    exact Or.inl hc
  · intro c lessee hc
    rw [hlog] at hc
    cases pool with
    | none => exact Or.inl hc
    | some i =>
        rcases List.mem_cons.mp hc with heq | hbefore
        · cases heq
          exact Or.inr ⟨Function.update_self .., hopened ▸ Nat.lt_succ_self _⟩
        · exact Or.inl hbefore

/-- Membership in idle lists of which one was replaced. -/
theorem mem_setIdle_cases {i j : Nat} {idle : List ConnId} {c : ConnId}
    (hc : c ∈ ((b.setIdle i idle).pools j).idleConns) :
    (j = i ∧ c ∈ idle) ∨ c ∈ (b.pools j).idleConns := by
  by_cases hj : j = i
  · subst hj
    rw [Backends.setIdle_self] at hc
    exact Or.inl ⟨rfl, hc⟩
  · rw [Backends.setIdle_of_ne _ _ _ hj] at hc
    exact Or.inr hc

/-- An operation keeps the pools of the connections. -/
theorem Op.origins {x y : Account × Backends} (hop : Op leaky p x y) (hacct : accts sid = x.1)
    (hinv : Origins accts x.2 origin) :
    ∃ origin', Origins (Function.update accts sid y.1) y.2 origin' ∧
      Extends x.2 y.2 origin origin' := by
  cases hop with
  | @retire a b i c rest htop =>
      subst hacct
      have hsub : ∀ j c', c' ∈ ((b.setIdle i rest).pools j).idleConns →
          c' ∈ (b.pools j).idleConns := by
        intro j c' hc'
        rcases mem_setIdle_cases hc' with ⟨rfl, hmem⟩ | hmem
        · rw [htop]
          exact List.mem_cons_of_mem c hmem
        · exact hmem
      have hext : Extends b ((b.setIdle i rest).pqFinish c) origin origin :=
        Extends.of_log rfl fun _ h => h
      refine ⟨origin, hinv.change hext (hinv.ids sid) (fun q h hq => Or.inl hq) ?_
        (fun c' lessee hc' => Or.inl hc'), hext⟩
      intro j c' hc'
      exact Or.inl (hsub j c' hc')
  | @take a b i c rest hfree htop =>
      subst hacct
      have hc := hinv.idle i c (by rw [htop]; exact List.mem_cons_self)
      have hext : Extends b ((b.setIdle i rest).lend i (accts sid).id c) origin origin :=
        Extends.of_log rfl fun op h => List.mem_cons_of_mem _ h
      refine ⟨origin, hinv.change hext (hinv.ids sid) ?_ ?_ ?_, hext⟩
      · intro q h hq
        rcases hold_cases hq with hbefore | hnew
        · exact Or.inl hbefore
        · cases hnew
          refine Or.inr ⟨hc.1, hc.2, ?_⟩
          intro j hj
          cases hj
          rw [hinv.ids sid]
          exact List.mem_cons_self
      · intro j c' hc'
        rw [Backends.lend_idleConns] at hc'
        rcases mem_setIdle_cases hc' with ⟨rfl, hmem⟩ | hmem
        · left
          rw [htop]
          exact List.mem_cons_of_mem c hmem
        · exact Or.inl hmem
      · intro c' lessee hc'
        rcases List.mem_cons.mp hc' with heq | hbefore
        · cases heq
          exact Or.inr hc
        · exact Or.inl hbefore
  | @openPooled a b i hfree =>
      subst hacct
      refine ⟨_, hinv.open (some i) (fun j => ?_) rfl ?_⟩
      · rw [Backends.lend_idleConns, Backends.open_pools]
      · change _ = .lend b.opened ⟨sid, i⟩ :: b.log
        rw [← congrArg (fun t => LeaseOp.lend b.opened (⟨t, i⟩ : Lessee) :: b.log) (hinv.ids sid)]
        rfl
  | openDefault hfree =>
      subst hacct
      exact ⟨_, hinv.open none (fun j => rfl) rfl rfl⟩
  | @discard a b i c hheld =>
      subst hacct
      have hlog : ∀ op ∈ b.log, op ∈ ((b.giveBack i (accts sid).id c).pqFinish c).log :=
        fun op h => List.mem_cons_of_mem _ h
      refine ⟨origin, hinv.empty rfl hlog ?_ ?_, Extends.of_log rfl hlog⟩
      · intro j c' hc'
        left
        simpa [Backends.pqFinish] using hc'
      · intro c' lessee hc'
        exact (List.mem_cons.mp hc').resolve_left (by simp)
  | @shelve a b i c hheld hidle =>
      subst hacct
      have hlog : ∀ op ∈ b.log, op ∈
          ((b.giveBack i (accts sid).id c).setIdle i (c :: (b.pools i).idleConns)).log :=
        fun op h => List.mem_cons_of_mem _ h
      refine ⟨origin, hinv.empty rfl hlog ?_ ?_, Extends.of_log rfl hlog⟩
      · intro j c' hc'
        rcases mem_setIdle_cases hc' with ⟨rfl, hmem⟩ | hmem
        · rcases List.mem_cons.mp hmem with rfl | hmem
          · exact Or.inr (hinv.held sid p ⟨c', some j⟩ hheld)
          · exact Or.inl hmem
        · rw [Backends.giveBack_idleConns] at hmem
          exact Or.inl hmem
      · intro c' lessee hc'
        exact (List.mem_cons.mp hc').resolve_left (by simp)
  | finish hheld =>
      subst hacct
      exact ⟨origin, hinv.empty rfl (fun _ h => h) (fun _ _ h => Or.inl h) (fun _ _ h => h),
        Extends.of_log rfl fun _ h => h⟩
  | drop hleaky =>
      subst hacct
      exact ⟨origin, hinv.empty rfl (fun _ h => h) (fun _ _ h => Or.inl h) (fun _ _ h => h),
        Extends.refl _ _⟩
  | send sql hheld hquiet =>
      subst hacct
      exact ⟨origin, hinv.same (hinv.ids sid) rfl rfl rfl rfl, Extends.of_log rfl fun _ h => h⟩
  | forward hheld hcommand hrows =>
      subst hacct
      exact ⟨origin, hinv.same (hinv.ids sid) rfl rfl rfl rfl, Extends.refl _ _⟩
  | complete xact hheld =>
      subst hacct
      exact ⟨origin, hinv.same (hinv.ids sid) rfl rfl rfl rfl, Extends.of_log rfl fun _ h => h⟩
  | fault status hheld =>
      subst hacct
      exact ⟨origin, hinv.same (hinv.ids sid) rfl rfl rfl rfl, Extends.of_log rfl fun _ h => h⟩

/-- The operations of a session keep the pools of the connections. -/
theorem Ops.origins {places : Set Place} {x y : Account × Backends} (hops : Ops leaky places x y)
    (hacct : accts sid = x.1) (hinv : Origins accts x.2 origin) :
    ∃ origin', Origins (Function.update accts sid y.1) y.2 origin' ∧
      Extends x.2 y.2 origin origin' := by
  induction hops with
  | refl => exact ⟨origin, by rwa [← hacct, Function.update_eq_self], Extends.refl _ _⟩
  | tail _ hstep ih =>
      rcases hstep with ⟨q, -, hop⟩
      rcases ih with ⟨origin₁, hinv₁, hext₁⟩
      rcases hop.origins (Function.update_self ..) hinv₁ with ⟨origin₂, hinv₂, hext₂⟩
      rw [Function.update_idem] at hinv₂
      exact ⟨origin₂, hinv₂, hext₁.trans hext₂⟩

end Origins

/-! ## What a Query message sends -/

/-- A text may be sent on a connection of this pool, or of none. -/
def Permitted (cfg : Config) (sql : Text) (pool : Option Nat) : Prop :=
  ∃ decision, routeTaken cfg sql = some decision ∧
    match pool with
    | none => decision.type = .default
    | some i => (decision.type = .single ∨ decision.type = .scatter) ∧
        ∃ s ∈ decision.targetShards, s.index = i

/-- Nothing was sent but this text, on connections that are held and were meant for it. -/
def SentOn (x y : Session) (sql : Text) (meant : Option Nat → Prop) : Prop :=
  ∃ conns : List ConnId, y.sent = (conns.map fun c => (c, sql)) ++ x.sent ∧
    ∀ c ∈ conns, ∃ q h, y.held q = some h ∧ h.conn = c ∧ meant h.pool

theorem SentOn.of_eq {s t : Session} {meant : Option Nat → Prop} (h : t.sent = s.sent) :
    SentOn s t sql meant :=
  ⟨[], h, by simp⟩

/-- The single backend of a query is one of the shard it is for. -/
theorem connectSingle_shard {shard : Option Shard} {connects : Bool}
    (h : connectSingle shard connects (swapBackend shard x) = (y, true)) :
    y.1.backendShard.map Shard.index = shard.map Shard.index := by
  unfold connectSingle at h
  by_cases hconn : (swapBackend shard x).1.backendConn.isSome = true
  · -- the connection was kept, so it is one of this shard
    rw [if_pos hconn] at h
    cases h
    unfold swapBackend at hconn ⊢
    by_cases hshard : x.1.backendShard.map Shard.index ≠ shard.map Shard.index
    · rw [if_pos hshard, releaseBackend_backendConn] at hconn
      cases hconn
    · rw [if_neg hshard]
      exact not_not.mp hshard
  · rw [if_neg hconn] at h
    cases shard with
    | some shard =>
        unfold connectToShard at h
        dsimp only at h
        split at h
        · cases h
        · cases h
          rfl
    | none =>
        have hbad : backendOk (swapBackend none x) = false := by
          unfold backendOk
          cases hc : (swapBackend none x).1.backendConn with
          | none => rfl
          | some c => rw [hc] at hconn; exact absurd rfl hconn
        unfold connectToDefault at h
        rw [hbad] at h
        dsimp only at h
        rw [if_neg Bool.false_ne_true] at h
        split at h
        · cases h
        · cases h
          rfl

/-- Nothing is sent to connect. -/
theorem connectSingle_sent (shard : Option Shard) (connects : Bool) (x : Conf) :
    (connectSingle shard connects (swapBackend shard x)).1.1.sent = x.1.sent :=
  ((swapBackend_quiet shard x).trans (connectSingle_quiet shard connects _)).sent

/-- A query is sent on the single backend, if it is one that the query is meant for. -/
theorem sendSingle_sentOn (sql : Text) (accepts : Bool) {meant : Option Nat → Prop}
    (hsent : y.1.sent = x.1.sent) (hmeant : meant (y.1.backendShard.map Shard.index)) :
    SentOn x.1 (sendSingle sql accepts y).1.1 sql meant := by
  rcases sendSingle_case sql accepts y with heq | ⟨c, b, heq, hconn, -⟩
  · rw [heq]
    exact SentOn.of_eq hsent
  · rw [heq]
    refine ⟨[c], congrArg (List.cons (c, sql)) hsent, List.forall_mem_singleton.mpr ?_⟩
    refine ⟨.backend, ⟨c, y.1.backendShard.map Shard.index⟩, ?_, rfl, hmeant⟩
    change y.1.backendConn.map _ = _
    rw [hconn]
    rfl

/-- A query for one backend is sent on a connection of that backend. -/
theorem executeSingle_sentOn (sql : Text) (shard : Option Shard) (input : ClientInput) (x : Conf) :
    SentOn x.1 (executeSingle sql shard input x).1.1 sql (· = shard.map Shard.index) := by
  have hsent := connectSingle_sent shard (input.connects 0) x
  unfold executeSingle
  rcases hres : connectSingle shard (input.connects 0) (swapBackend shard x) with ⟨y, _ | _⟩ <;>
    rw [hres] at hsent
  · exact SentOn.of_eq hsent
  · exact sendSingle_sentOn sql _ hsent (connectSingle_shard hres)

/-- A slot that is started sends on a connection of its shard. -/
theorem SlotCase.sentOn {i : Fin maxScatterShards} {shard : Shard} {s s' : Session}
    (h : SlotCase sql i shard s s') :
    s'.sent = s.sent ∨
      ∃ c, s'.held (.slot i) = some ⟨c, some shard.index⟩ ∧ s'.sent = (c, sql) :: s.sent := by
  cases h with
  | failed fromPool => exact Or.inl rfl
  | awaited c =>
      refine Or.inr ⟨c, ?_, rfl⟩
      simp [Session.held, Session.setSlot, ScatterConn.hold]

/-- The targets of a scatter are sent the text on connections of their own. -/
theorem startSlots_sentOn (sql : Text) (input : ClientInput)
    (targets : List (Fin maxScatterShards × Shard)) (hnodup : (targets.map Prod.fst).Nodup)
    (x : Conf) :
    ∃ conns : List ConnId, (targets.foldl (startSlot sql input) x).1.sent =
        (conns.map fun c => (c, sql)) ++ x.1.sent ∧
      ∀ c ∈ conns, ∃ t ∈ targets, (targets.foldl (startSlot sql input) x).1.held (.slot t.1) =
        some ⟨c, some t.2.index⟩ := by
  -- the slots that are started later leave the ones before alone
  have hkept : ∀ (targets : List (Fin maxScatterShards × Shard)) (y : Conf) (i),
      i ∉ targets.map Prod.fst →
      (targets.foldl (startSlot sql input) y).1.held (.slot i) = y.1.held (.slot i) := by
    intro targets
    induction targets with
    | nil => exact fun y i _ => rfl
    | cons t targets ih =>
        intro y i hi
        rw [List.map_cons, List.mem_cons, not_or] at hi
        rw [List.foldl_cons, ih _ i hi.2, startSlot_held_of_ne hi.1]
  induction targets generalizing x with
  | nil => exact ⟨[], rfl, by simp⟩
  | cons t targets ih =>
      rw [List.map_cons, List.nodup_cons] at hnodup
      rcases ih hnodup.2 (startSlot sql input x t) with ⟨conns, hsent, hconns⟩
      have hlater : ∀ c ∈ conns, ∃ t' ∈ t :: targets,
          ((t :: targets).foldl (startSlot sql input) x).1.held (.slot t'.1) =
            some ⟨c, some t'.2.index⟩ := by
        intro c hc
        rcases hconns c hc with ⟨t', ht', hheld⟩
        exact ⟨t', List.mem_cons_of_mem t ht', hheld⟩
      rw [List.foldl_cons]
      rcases (startSlot_case sql input x t).sentOn with hnone | ⟨c, hheld, hone⟩
      · exact ⟨conns, by rw [hsent, hnone], hlater⟩
      · refine ⟨conns ++ [c], by rw [hsent, hone, List.map_append, List.append_assoc]; rfl, ?_⟩
        refine List.forall_mem_append.mpr ⟨hlater, List.forall_mem_singleton.mpr ?_⟩
        refine ⟨t, List.mem_cons_self, ?_⟩
        rw [hkept targets _ t.1 hnodup.1]
        exact hheld

/-- A scattered query is sent on connections of its targets. -/
theorem executeScatter_sentOn (sql : Text) (targets : List Shard) (input : ClientInput)
    (x : Conf) :
    SentOn x.1 (executeScatter sql targets input x).1.1 sql
      (fun pool => ∃ s ∈ targets, pool = some s.index) := by
  have hstart : SentOn x.1 (startScatter sql targets input x).1 sql
      (fun pool => ∃ s ∈ targets, pool = some s.index) := by
    rcases startSlots_sentOn sql input _ (scatterTargets_nodup targets)
      (x.1.resetScatter targets.length, x.2) with ⟨conns, hsent, hconns⟩
    refine ⟨conns, hsent, fun c hc => ?_⟩
    rcases hconns c hc with ⟨t, ht, hheld⟩
    exact ⟨.slot t.1, _, hheld, rfl, t.2, (List.of_mem_zip ht).2, rfl⟩
  unfold executeScatter
  by_cases hmany : maxScatterShards < targets.length
  · rw [if_pos hmany]
    exact SentOn.of_eq rfl
  · rw [if_neg hmany]
    dsimp only
    split <;> exact hstart

/-- A query without a shard map is sent on a connection of no pool. -/
theorem handleUnsharded_sentOn (sql : Text) (input : ClientInput) (hx : x.1.Unpooled) :
    SentOn x.1 (handleUnsharded sql input x).1 sql (· = none) := by
  have hquiet := connectToDefault_quiet (input.connects 0) x
  have hstays := connectToDefault_stays (input.connects 0) hx
  unfold handleUnsharded
  rcases hres : connectToDefault (input.connects 0) x with ⟨y, _ | _⟩ <;>
    rw [hres] at hquiet hstays
  · exact SentOn.of_eq hquiet.sent
  · have hon : SentOn x.1 (sendSingle sql (input.accepts 0) y).1.1 sql (· = none) :=
      sendSingle_sentOn sql _ hquiet.sent (by rw [hstays.unpooled.shard]; rfl)
    dsimp only
    rcases hsend : sendSingle sql (input.accepts 0) y with ⟨z, _ | _⟩ <;> rw [hsend] at hon
    · exact hon
    · exact hon

/-- A route for one shard has that shard as its target. -/
theorem routerDecide_single {map : ShardMap} {parsed : ParseResult} {decision : RouteDecision}
    (h : routerDecide map parsed = some decision) (htype : decision.type = .single) :
    ∃ s, decision.targetShards = [s] := by
  unfold routerDecide at h
  split at h
  · cases h
    cases htype
  · split at h
    · cases h
      cases htype
    · split at h
      · cases h
        cases htype
      · split at h
        · cases h
          cases htype
        · split at h
          · cases h
            cases htype
          · rcases decideByRule_targets h with rfl | ⟨s, -, rfl, -⟩
            · cases htype
            · exact ⟨s, rfl⟩

/-- What was sent is meant for more. -/
theorem SentOn.mono {s t : Session} {meant meant' : Option Nat → Prop} (h : SentOn s t sql meant)
    (hmeant : ∀ pool, meant pool → meant' pool) :
    SentOn s t sql meant' := by
  rcases h with ⟨conns, hsent, hconns⟩
  refine ⟨conns, hsent, fun c hc => ?_⟩
  rcases hconns c hc with ⟨q, hold, hheld, heq, hpool⟩
  exact ⟨q, hold, hheld, heq, hmeant _ hpool⟩

/-- A Query message is sent where its route allows. -/
theorem handleQuery_sent {cfg : Config} {input : ClientInput} {r : Conf × Bool}
    (hx : cfg.shardMap.shards = [] → x.1.Unpooled) (h : handleQuery cfg sql input x = some r) :
    SentOn x.1 r.1.1 sql (Permitted cfg sql) := by
  rcases handleQuery_cases h with
    ⟨hcfg, rfl⟩ | ⟨-, rfl⟩ | ⟨hcfg, rc, parsed, decision, hparse, hrc, hdecide, rfl⟩
  · have hunpooled : (x.1.countQuery).Unpooled :=
      ⟨(hx hcfg).shard, (hx hcfg).scatter, (hx hcfg).count, (hx hcfg).state⟩
    refine (handleUnsharded_sentOn sql input (x := (x.1.countQuery, x.2)) hunpooled).mono ?_
    rintro pool rfl
    exact ⟨{ type := .default }, if_pos hcfg, rfl⟩
  · exact SentOn.of_eq rfl
  · have hrc0 : rc = 0 := (parseQuery_rc hparse).resolve_right (by omega)
    subst hrc0
    have hroute : routeTaken cfg sql = some decision := by
      rw [routeTaken, if_neg hcfg, routeQuery_of_parse hparse]
      exact hdecide
    -- an error that is answered instead does not change what was sent
    have hsingle : ∀ shard message, (∀ pool, pool = shard.map Shard.index →
        Permitted cfg sql pool) →
        SentOn x.1 (executeOrRefuse sql shard message input (x.1.countQuery, x.2)).1 sql
          (Permitted cfg sql) := by
      intro shard message hmeant
      have hsent := (executeSingle_sentOn sql shard input (x.1.countQuery, x.2)).mono hmeant
      unfold executeOrRefuse
      rcases hres : executeSingle sql shard input (x.1.countQuery, x.2) with ⟨y, _ | _⟩ <;>
        rw [hres] at hsent
      · exact hsent
      · exact hsent
    unfold executeRoute
    cases htype : decision.type with
    | single =>
        rcases routerDecide_single hdecide htype with ⟨s, hs⟩
        apply hsingle
        rintro pool rfl
        refine ⟨decision, hroute, ?_⟩
        rw [hs]
        exact ⟨Or.inl htype, s, List.mem_singleton_self s, rfl⟩
    | scatter =>
        refine (executeScatter_sentOn sql decision.targetShards input
          (x.1.countQuery, x.2)).mono ?_
        rintro pool ⟨s, hs, rfl⟩
        exact ⟨decision, hroute, Or.inr htype, s, hs, rfl⟩
    | «local» => exact SentOn.of_eq rfl
    | default =>
        apply hsingle
        rintro pool rfl
        exact ⟨decision, hroute, htype⟩

/-! ## Callbacks -/

/-- Nothing is sent to end a session. -/
theorem sessionDestroy_sent (x : Conf) : (sessionDestroy x).1.sent = x.1.sent := by
  have hscatter := (sessionReleaseScatter_released (releaseBackend x)).1.sent
  exact hscatter.trans (releaseBackend_quiet x).sent

theorem flushOrDestroy_sent (flush : SendOutcome) (x : Conf) :
    (flushOrDestroy flush x).1.sent = x.1.sent := by
  have hsend := (sessionSend_quiet flush x.1).sent
  unfold flushOrDestroy
  rcases hres : sessionSend flush x.1 with ⟨s, _ | _⟩ <;> rw [hres] at hsend
  · exact (sessionDestroy_sent (s, x.2)).trans hsend
  · exact hsend

theorem afterInput_sent (flush : SendOutcome) (r : Conf × Bool) :
    (afterInput flush r).1.sent = r.1.1.sent := by
  rcases r with ⟨x, ok⟩
  cases ok with
  | false => exact sessionDestroy_sent x
  | true =>
      unfold afterInput
      dsimp only
      split
      · exact flushOrDestroy_sent flush x
      · rfl

/-- No event of the single backend sends a query. -/
theorem BackendCase.sent {input : BackendInput} {flush : SendOutcome}
    (h : BackendCase input flush x y) : y.1.sent = x.1.sent := by
  cases h with
  | lost message b hb =>
      refine (sessionDestroy_sent _).trans ?_
      exact (sessionSend_quiet flush _).sent.trans (Quiet.feSendError x.1 _ _ _).sent
  | skip => rfl
  | quiet c hconn hhangup hcommand =>
      rcases finishSingle_case c x with ⟨status, u, hquiet, heq⟩
      refine (flushOrDestroy_sent flush _).trans ?_
      rw [heq]
      exact hquiet.sent
  | drain c command hconn hhangup hcommand =>
      refine (flushOrDestroy_sent flush _).trans ?_
      have hcase := drainSingle_case c command input x
      generalize drainSingle c command input x = z at hcase ⊢
      cases hcase with
      | finished t u b status hquiet hreport => exact hreport.sent.trans hquiet.sent
      | copyIn t hquiet hconn => exact hquiet.sent
      | copyOut t u hquiet hconn hcopy hkept => exact hcopy.sent.trans hquiet.sent
      | copyEnded t u v b status hquiet hcopy hreport hstop hend =>
          exact hreport.sent.trans (hcopy.sent.trans hquiet.sent)

/-- Nor does one of a scatter slot. -/
theorem ScatterCase.sent {i : Fin maxScatterShards} {input : BackendInput} {flush : SendOutcome}
    (h : ScatterCase i input flush x y) : y.1.sent = x.1.sent := by
  have hslots : ∃ z, Ops True slotPlaces (view x) (view z) ∧ _ := h.slotOps
  rcases hslots with ⟨z, -, hsent, rfl | rfl⟩
  · exact hsent
  · exact (flushOrDestroy_sent flush z).trans hsent

/-! ## Runs -/

/-- What a session has sent: each text on a connection of a pool that its route allows, which
was lent to the session, or on one of no pool. -/
def SentRight (cfg : Config) (b : Backends) (origin : ConnId → Option Nat) (sid : Nat)
    (sent : List (ConnId × Text)) : Prop :=
  ∀ e ∈ sent, e.1 < b.opened ∧ Permitted cfg e.2 (origin e.1) ∧
    ∀ i, origin e.1 = some i → .lend e.1 ⟨sid, i⟩ ∈ b.log

/-- What was sent stays right. -/
theorem SentRight.extend {cfg : Config} {b b' : Backends} {origin origin' : ConnId → Option Nat}
    {sid : Nat} {sent : List (ConnId × Text)} (h : SentRight cfg b origin sid sent)
    (hext : Extends b b' origin origin') : SentRight cfg b' origin' sid sent := by
  intro e he
  rcases h e he with ⟨hopened, hpermitted, hlog⟩
  rw [hext.agree e.1 hopened]
  exact ⟨lt_of_lt_of_le hopened hext.opened, hpermitted, fun i hi => hext.log _ (hlog i hi)⟩

/-- Every connection has its pool, and every session has sent what it may. -/
def Proxy.Placed (cfg : Config) (p : Proxy) : Prop :=
  ∃ origin, Origins p.accounts p.backends origin ∧
    ∀ t, SentRight cfg p.backends origin t (p.sessions t).sent

section Runs

variable {cfg : Config} {p p' : Proxy}

/-- A callback that is a series of operations, and sends only what it may on connections that
are held at some moment of it. -/
theorem Proxy.Placed.put (h : p.Placed cfg) {sid : Nat} {y z : Conf}
    (hops : Ops True Set.univ (view (p.conf sid)) (view z))
    (hsent : SentOn (p.sessions sid) z.1 sql (Permitted cfg sql))
    (hrest : Ops True Set.univ (view z) (view y)) (hsame : y.1.sent = z.1.sent) :
    (p.put sid y).Placed cfg := by
  rcases h with ⟨origin, hinv, hright⟩
  have hacct : p.accounts sid = (view (p.conf sid)).1 := rfl
  rcases hops.origins hacct hinv with ⟨origin₁, hinv₁, hext₁⟩
  rcases hrest.origins (Function.update_self ..) hinv₁ with ⟨origin₂, hinv₂, hext₂⟩
  rw [Function.update_idem] at hinv₂
  refine ⟨origin₂, ?_, fun t => ?_⟩
  · rw [Proxy.put_accounts]
    exact hinv₂
  · by_cases ht : t = sid
    · subst ht
      rw [Proxy.put_session, hsame]
      suffices hnow : SentRight cfg z.2 origin₁ t z.1.sent from hnow.extend hext₂
      rcases hsent with ⟨conns, hsent, hconns⟩
      rw [hsent]
      refine List.forall_mem_append.mpr ⟨List.forall_mem_map.mpr fun c hc => ?_, ?_⟩
      · -- a fresh entry is one of a connection that is held now
        rcases hconns c hc with ⟨q, hold, hheld, rfl, hpermitted⟩
        have hheld' : (Function.update p.accounts t (view z).1 t).held q = some hold := by
          rw [Function.update_self]
          exact hheld
        rcases hinv₁.held t q hold hheld' with ⟨horigin, hopened⟩
        dsimp only
        rw [horigin]
        exact ⟨hopened, hpermitted, fun i hi => hinv₁.leased t q hold i hheld' hi⟩
      · exact fun e hbefore => (hright t).extend hext₁ e hbefore
    · rw [Proxy.put_other ht]
      exact (hright t).extend (hext₁.trans hext₂)

/-- A callback that sends nothing. -/
theorem Proxy.Placed.putUnsent (h : p.Placed cfg) {sid : Nat}
    (hops : Ops True Set.univ (view (p.conf sid)) (view y))
    (hsent : y.1.sent = (p.sessions sid).sent) : (p.put sid y).Placed cfg := by
  have hnone : SentOn (p.sessions sid) y.1 [] (Permitted cfg []) := SentOn.of_eq hsent
  exact h.put hops hnone Ops.refl rfl

/-- The backends change without a session. -/
theorem Proxy.Placed.setBackends (h : p.Placed cfg) {b : Backends}
    (hidle : ∀ i, (b.pools i).idleConns ⊆ (p.backends.pools i).idleConns)
    (hopened : b.opened = p.backends.opened) (hlog : b.log = p.backends.log) :
    (p.setBackends b).Placed cfg := by
  rcases h with ⟨origin, hinv, hright⟩
  have hext : Extends p.backends b origin origin :=
    Extends.of_log hopened fun op hop => by rwa [hlog]
  refine ⟨origin, ?_, fun t => (hright t).extend hext⟩
  -- the first session stands for all, as none of them changes what it holds
  have hchange := hinv.change hext (hinv.ids 0) (fun q h hq => Or.inl hq)
    (fun i c hc => Or.inl (hidle i hc)) fun c lessee hc => Or.inl (hlog ▸ hc)
  rwa [Function.update_eq_self] at hchange

/-- The health check opens nothing and only takes idle connections away. -/
theorem healthCheckAll_kept (shards : List Nat) (b : Backends) :
    (∀ i, ((b.healthCheckAll shards).pools i).idleConns ⊆ (b.pools i).idleConns) ∧
      (b.healthCheckAll shards).opened = b.opened := by
  induction shards generalizing b with
  | nil => exact ⟨fun i => List.Subset.refl _, rfl⟩
  | cons j shards ih =>
      rcases healthLoop_spec (b.pools j).idleConns b with ⟨hsub, hpools, hopened, -⟩
      rcases ih (b.connPoolHealthCheck j) with ⟨hidle, hopened'⟩
      refine ⟨fun i c hc => ?_, hopened'.trans hopened⟩
      rcases mem_setIdle_cases (hidle i hc) with ⟨rfl, hmem⟩ | hmem
      · exact hsub.subset hmem
      · rwa [hpools] at hmem

/-- An event of the client's socket. -/
theorem ClientCase.placed {sid : Nat} {input : ClientInput}
    (hcase : ClientCase cfg input (p.conf sid) y)
    (hunpooled : cfg.shardMap.shards = [] → (p.sessions sid).Unpooled) (h : p.Placed cfg) :
    (p.put sid y).Placed cfg := by
  cases hcase with
  | skip => exact h.putUnsent Ops.refl rfl
  | destroy => exact h.putUnsent (sessionDestroy_ops _) (sessionDestroy_sent _)
  | flush => exact h.putUnsent (flushOrDestroy_ops _ _) (flushOrDestroy_sent _ _)
  | input bytes r hcallback hhangup hrecv hinput =>
      have hops : Ops True Set.univ (view (p.conf sid)) (view r.1) :=
        hinput.ops (Or.inl trivial)
      cases hinput with
      | ret s ok hloop =>
          have hsent : s.sent = (p.sessions sid).sent := congrArg Account.sent hloop.account
          exact h.putUnsent (hops.trans (afterInput_ops _ _)) ((afterInput_sent _ _).trans hsent)
      | query t n sql r hloop hstate hexit hquery =>
          have hsent : t.sent = (p.sessions sid).sent := congrArg Account.sent hloop.account
          have hon := handleQuery_sent (fun hcfg => by
            have hreceived : ((p.sessions sid).receive bytes).Unpooled := by
              rcases hunpooled hcfg with ⟨hshard, hscatter, hcount, hstate⟩
              exact ⟨hshard, hscatter, hcount, hstate⟩
            rcases Intakes.unpooled hloop hreceived with ⟨hshard, hscatter, hcount, hstate⟩
            exact ⟨hshard, hscatter, hcount, hstate⟩) hquery
          have hsentOn : SentOn (p.sessions sid) r.1.1 sql (Permitted cfg sql) := by
            unfold SentOn
            rw [← hsent]
            exact hon
          exact h.put hops hsentOn (afterInput_ops _ _) (afterInput_sent _ _)

/-- A step sends only what it may. -/
theorem step_placed {e : Event} (hstep : step cfg p e = some p')
    (hunpooled : cfg.shardMap.shards = [] → p.Private) (h : p.Placed cfg) : p'.Placed cfg := by
  cases step_case hstep with
  | accept pid secretKey =>
      rcases h with ⟨origin, hinv, hright⟩
      refine ⟨origin, ?_, fun t => ?_⟩
      · rw [Proxy.accept_accounts]
        refine hinv.change (Extends.refl _ _) rfl ?_ (fun _ _ hc => Or.inl hc)
          (fun _ _ hc => Or.inl hc)
        intro q hold hheld
        cases q <;> cases hheld
      · by_cases ht : t = p.created
        · subst ht
          rw [Proxy.accept_new]
          intro e he
          cases he
        · rw [Proxy.accept_other ht]
          exact hright t
  | client sid input y halive hcase =>
      exact hcase.placed (fun hcfg => (hunpooled hcfg).sessions sid) h
  | backend sid input flush y halive hcase =>
      exact h.putUnsent hcase.ops hcase.sent
  | scatter sid i input flush y halive hcase =>
      exact h.putUnsent hcase.ops hcase.sent
  | healthCheck =>
      rcases healthCheckAll_kept (cfg.shardMap.shards.map Shard.index) p.backends with
        ⟨hidle, hopened⟩
      exact h.setBackends hidle hopened (healthCheckAll_log _ _)
  | connLost c => exact h.setBackends (fun i => List.Subset.refl _) rfl rfl

theorem placed_of_reaches (h : ProxyReaches cfg anyEvent p) : p.Placed cfg := by
  have hstart : (Proxy.start cfg).Placed cfg := by
    refine ⟨fun _ => none, ⟨fun _ => rfl, ?_, ?_, ?_, ?_⟩, ?_⟩
    · intro t q hold hheld
      cases q <;> cases hheld
    · intro i c hc
      cases hc
    · intro c lessee hc
      cases hc
    · intro t q hold i hheld
      cases q <;> cases hheld
    · intro t e he
      cases he
  have hboth : p.Placed cfg ∧ (cfg.shardMap.shards = [] → p.Private) := by
    induction h with
    | refl => exact ⟨hstart, fun _ => start_private cfg⟩
    | tail _ hlast ih =>
        rcases hlast with ⟨e, -, hstep⟩
        rcases ih with ⟨hplaced, hprivate⟩
        exact ⟨step_placed hstep hprivate hplaced,
          fun hcfg => (step_private hcfg hstep (hprivate hcfg)).1⟩
  exact hboth.1

/-- In every run, each text that a session has sent was routed: to the default backend, and then
it was sent on a connection that never was of a pool, or to shards, and then on a connection that
was lent to the session by the pool of one of them and never was of another pool. -/
theorem statements_stay_on_route (h : ProxyReaches cfg anyEvent p) {sid : Nat} {c : ConnId}
    (hsent : (c, sql) ∈ (p.sessions sid).sent) :
    ∃ decision, routeTaken cfg sql = some decision ∧
      ((decision.type = .default ∧ ∀ lessee, .lend c lessee ∉ p.backends.log) ∨
        ((decision.type = .single ∨ decision.type = .scatter) ∧
          ∃ s ∈ decision.targetShards, .lend c ⟨sid, s.index⟩ ∈ p.backends.log ∧
            ∀ lessee, .lend c lessee ∈ p.backends.log → lessee.pool = s.index)) := by
  rcases placed_of_reaches h with ⟨origin, hinv, hright⟩
  rcases hright sid (c, sql) hsent with ⟨-, ⟨decision, hroute, hmeant⟩, hlog⟩
  dsimp only at hmeant hlog
  refine ⟨decision, hroute, ?_⟩
  cases horigin : origin c with
  | none =>
      rw [horigin] at hmeant
      refine Or.inl ⟨hmeant, fun lessee hlent => ?_⟩
      have hpool := (hinv.lent c lessee hlent).1
      rw [horigin] at hpool
      cases hpool
  | some i =>
      rw [horigin] at hmeant
      rcases hmeant with ⟨htype, s, hs, rfl⟩
      refine Or.inr ⟨htype, s, hs, hlog _ horigin, fun lessee hlent => ?_⟩
      have hpool := (hinv.lent c lessee hlent).1
      rw [horigin, Option.some.injEq] at hpool
      exact hpool.symm

/-- A BEGIN is sent to the default backend, on a connection of no pool, and a DELETE with a key
on one of the pool of its shard. -/
theorem begin_and_delete_placed :
    ∃ p, ProxyReaches demoConfig anyEvent p ∧
      (p.sessions 0).sent =
        [(1, ascii "DELETE FROM t WHERE id = 1"), (0, ascii "BEGIN")] ∧
      (∀ lessee, .lend 0 lessee ∉ p.backends.log) ∧ .lend 1 ⟨0, 0⟩ ∈ p.backends.log ∧
      ∀ lessee, .lend 1 lessee ∈ p.backends.log → lessee.pool = 0 := by
  have hrun : runsTo (step demoConfig) anyEvent
      (demoLogin 0 ++
        [demoQuery 0 (ascii "BEGIN"),
          .backend 0 { results := [{ status := .commandOk }] } .all,
          demoQuery 0 (ascii "DELETE FROM t WHERE id = 1")])
      (Proxy.start demoConfig)
      (fun p => (p.sessions 0).sent =
        [(1, ascii "DELETE FROM t WHERE id = 1"), (0, ascii "BEGIN")]) = true := by
    decide +kernel
  have hroutes : (routeTaken demoConfig (ascii "BEGIN")).map RouteDecision.type = some .default ∧
      (routeTaken demoConfig (ascii "DELETE FROM t WHERE id = 1")).map
        (fun d => (d.type, d.targetShards.map Shard.index)) = some (.single, [0]) := by
    decide +kernel
  rcases exists_reached hrun with ⟨p, hp, hsent⟩
  have hbegin : (0, ascii "BEGIN") ∈ (p.sessions 0).sent := by
    rw [hsent]
    exact List.mem_cons_of_mem _ List.mem_cons_self
  have hdelete : (1, ascii "DELETE FROM t WHERE id = 1") ∈ (p.sessions 0).sent := by
    rw [hsent]
    exact List.mem_cons_self
  rcases statements_stay_on_route hp hbegin with ⟨d, hd, hcase⟩
  rcases statements_stay_on_route hp hdelete with ⟨d', hd', hcase'⟩
  rw [hd, hd', Option.map_some, Option.map_some, Option.some.injEq, Option.some.injEq,
    Prod.mk.injEq] at hroutes
  rcases hroutes with ⟨htype, htype', htargets⟩
  rw [htype] at hcase
  rw [htype'] at hcase'
  refine ⟨p, hp, hsent, ?_, ?_⟩
  · rcases hcase with ⟨-, hlog⟩ | ⟨hother | hother, -⟩
    · exact hlog
    · cases hother
    · cases hother
  · rcases hcase' with ⟨hother, -⟩ | ⟨-, s, hs, hlent, hpool⟩
    · cases hother
    · have hindex := List.mem_map_of_mem (f := Shard.index) hs
      rw [htargets, List.mem_singleton] at hindex
      rw [hindex] at hlent hpool
      exact ⟨hlent, hpool⟩

end Runs

end Sharegres
