import Sharegres.Session.Refinement
import Sharegres.System.Ledger
import Sharegres.System.Proxy

/-!
# System - No result crosses sessions

Every step of the proxy keeps an assignment of owners to connections.  So no connection
is held twice, and what a session forwards was produced by a query it has sent itself.

Main results:

- Theorem {lit}`step_ledger`: a step keeps an assignment of owners.
- Theorem {lit}`results_stay_in_session`: ownership and attribution in every run.
-/

namespace Sharegres

open Foundation

variable {cfg : Config} {p p' : Proxy} {own : ConnId → Owner}

/-- The abstract views of all sessions. -/
def Proxy.accounts (p : Proxy) : Nat → Account :=
  fun t => (p.sessions t).account

/-- A new session is added to the accounts. -/
theorem Proxy.accept_accounts (p : Proxy) (pid secretKey : Int) :
    (p.accept pid secretKey).accounts = Function.update p.accounts p.created
      ({ id := p.created, pid := pid, secretKey := secretKey } : Session).account := by
  funext t
  by_cases ht : t = p.created
  · subst ht
    rw [Function.update_self, accounts, accept_new]
  · rw [Function.update_of_ne ht, accounts, accept_other ht, accounts]

theorem Proxy.put_accounts (p : Proxy) (sid : Nat) (x : Conf) :
    (p.put sid x).accounts = Function.update p.accounts sid x.1.account := by
  funext t
  by_cases ht : t = sid
  · subst ht
    rw [Function.update_self, accounts, put_session]
  · rw [Function.update_of_ne ht, accounts, put_other ht, accounts]

/-- There is an assignment of owners. -/
def Proxy.Owned (p : Proxy) : Prop :=
  ∃ own, Ledger p.accounts p.backends own

/-! ## Steps that are not of a session -/

namespace Ledger

variable {accts : Nat → Account} {b b' : Backends}

/-- A new session holds nothing. -/
theorem blank (hinv : Ledger accts b own) {sid : Nat} {a : Account} (hid : a.id = sid)
    (hheld : ∀ q, a.held q = none) (hrows : a.rows = []) :
    Ledger (Function.update accts sid a) b own := by
  have hbefore : ∀ t q h, (Function.update accts sid a t).held q = some h →
      t ≠ sid ∧ (accts t).held q = some h := by
    intro t q h hheld'
    by_cases ht : t = sid
    · subst ht
      rw [Function.update_self, hheld] at hheld'
      cases hheld'
    · rw [Function.update_of_ne ht] at hheld'
      exact ⟨ht, hheld'⟩
  constructor
  case ids =>
    intro t
    by_cases ht : t = sid
    · subst ht
      rw [Function.update_self, hid]
    · rw [Function.update_of_ne ht]
      exact hinv.ids t
  case held =>
    intro t q h hheld'
    exact hinv.held t q h (hbefore t q h hheld').2
  case idle => exact hinv.idle
  case nodup => exact hinv.nodup
  case unopened => exact hinv.unopened
  case quiet => exact hinv.quiet
  case sent =>
    intro t q h command hheld' hcmd
    rcases hbefore t q h hheld' with ⟨ht, hheld''⟩
    rw [Function.update_of_ne ht]
    exact hinv.sent t q h command hheld'' hcmd
  case rows =>
    intro t q hq
    by_cases ht : t = sid
    · subst ht
      rw [Function.update_self, hrows] at hq
      cases hq
    · rw [Function.update_of_ne ht] at hq ⊢
      exact hinv.rows t q hq

/-- Idle lists shrink, and connections change otherwise than by their commands. -/
theorem prune (hinv : Ledger accts b own)
    (hidle : ∀ i, ((b'.pools i).idleConns).Sublist (b.pools i).idleConns)
    (hopened : b'.opened = b.opened)
    (hcommand : ∀ c, (b'.conns c).command = (b.conns c).command) : Ledger accts b' own := by
  constructor
  case ids => exact hinv.ids
  case held => exact hinv.held
  case idle =>
    intro i c hmem
    exact hinv.idle i c ((hidle i).subset hmem)
  case nodup =>
    intro i
    exact (hinv.nodup i).sublist (hidle i)
  case unopened =>
    rw [hopened]
    exact hinv.unopened
  case quiet =>
    intro i c hmem
    rw [hcommand]
    exact hinv.quiet i c ((hidle i).subset hmem)
  case sent =>
    intro t q h command hheld hcmd
    rw [hcommand] at hcmd
    exact hinv.sent t q h command hheld hcmd
  case rows => exact hinv.rows

end Ledger

/-- What the loop of a health check keeps and closes. -/
theorem healthLoop_spec (idle : List ConnId) (b : Backends) :
    (Backends.healthLoop idle b).1.Sublist idle ∧
      (Backends.healthLoop idle b).2.pools = b.pools ∧
      (Backends.healthLoop idle b).2.opened = b.opened ∧
      ∀ c, ((Backends.healthLoop idle b).2.conns c).command = (b.conns c).command := by
  induction idle generalizing b with
  | nil => exact ⟨List.Sublist.refl _, rfl, rfl, fun _ => rfl⟩
  | cons c rest ih =>
      unfold Backends.healthLoop
      by_cases hok : (b.conns c).status = .ok
      · rw [if_pos hok]
        rcases ih b with ⟨hsub, hpools, hopened, hcommand⟩
        exact ⟨hsub.cons_cons c, hpools, hopened, hcommand⟩
      · rw [if_neg hok]
        rcases ih (b.pqFinish c) with ⟨hsub, hpools, hopened, hcommand⟩
        refine ⟨hsub.cons c, hpools, hopened, fun c' => ?_⟩
        rw [hcommand, Backends.command_pqFinish]

theorem healthCheck_ledger {accts : Nat → Account} {b : Backends} (hinv : Ledger accts b own)
    (i : Nat) : Ledger accts (b.connPoolHealthCheck i) own := by
  rcases healthLoop_spec (b.pools i).idleConns b with ⟨hsub, hpools, hopened, hcommand⟩
  apply hinv.prune
  · intro j
    unfold Backends.connPoolHealthCheck
    by_cases hj : j = i
    · subst hj
      rw [Backends.setIdle_self]
      exact hsub
    · rw [Backends.setIdle_of_ne _ _ _ hj, hpools]
  · exact hopened
  · exact hcommand

theorem healthCheckAll_ledger {accts : Nat → Account} (shards : List Nat) {b : Backends}
    (hinv : Ledger accts b own) : Ledger accts (b.healthCheckAll shards) own := by
  induction shards generalizing b with
  | nil => exact hinv
  | cons i shards ih => exact ih (healthCheck_ledger hinv i)

/-- No command is ended by a health check. -/
theorem healthCheckAll_command (shards : List Nat) (b : Backends) (c : ConnId) :
    ((b.healthCheckAll shards).conns c).command = (b.conns c).command := by
  induction shards generalizing b with
  | nil => rfl
  | cons i shards ih =>
      rcases healthLoop_spec (b.pools i).idleConns b with ⟨-, -, -, hcommand⟩
      exact (ih (b.connPoolHealthCheck i)).trans (hcommand c)

/-! ## Runs -/

/-- Operations of a session keep an assignment of owners in the proxy. -/
theorem Proxy.put_owned {leaky : Prop} {places : Set Place} {sid : Nat} {y : Conf}
    (hops : Ops leaky places (view (p.conf sid)) (view y)) (h : p.Owned) :
    (p.put sid y).Owned := by
  rcases h with ⟨own, hinv⟩
  have hacct : p.accounts sid = (view (p.conf sid)).1 := rfl
  rcases hops.ledger hacct hinv with ⟨own', hinv'⟩
  refine ⟨own', ?_⟩
  rw [put_accounts]
  exact hinv'

/-- A step keeps an assignment of owners. -/
theorem step_ledger {e : Event} (h : step cfg p e = some p') (hinv : p.Owned) : p'.Owned := by
  cases step_case h with
  | accept pid secretKey =>
      rcases hinv with ⟨own, hinv⟩
      refine ⟨own, ?_⟩
      rw [Proxy.accept_accounts]
      refine hinv.blank rfl (fun q => ?_) rfl
      cases q with
      | backend => rfl
      | slot i => rfl
  | client sid input y halive hcase =>
      have hops : Ops True Set.univ _ _ := hcase.ops (Or.inl trivial)
      exact Proxy.put_owned hops hinv
  | backend sid input flush y halive hcase =>
      have hops : Ops True Set.univ _ _ := hcase.ops
      exact Proxy.put_owned hops hinv
  | scatter sid i input flush y halive hcase =>
      have hops : Ops True Set.univ _ _ := hcase.ops
      exact Proxy.put_owned hops hinv
  | healthCheck =>
      rcases hinv with ⟨own, hinv⟩
      exact ⟨own, healthCheckAll_ledger _ hinv⟩
  | connLost c =>
      rcases hinv with ⟨own, hinv⟩
      refine ⟨own, hinv.prune (fun i => List.Sublist.refl _) rfl fun c' => ?_⟩
      exact Backends.command_setStatus c c' .bad

/-- At the start nobody owns anything. -/
theorem start_owned (cfg : Config) : (Proxy.start cfg).Owned := by
  refine ⟨fun _ => .nobody, ?_⟩
  have hheld : ∀ t q, ((Proxy.start cfg).accounts t).held q = none := by
    intro t q
    cases q with
    | backend => rfl
    | slot i => rfl
  constructor
  case ids => exact fun t => rfl
  case held =>
    intro t q h hheld'
    rw [hheld] at hheld'
    cases hheld'
  case idle =>
    intro i c hmem
    cases hmem
  case nodup => exact fun i => List.nodup_nil
  case unopened => exact fun c _ => rfl
  case quiet =>
    intro i c hmem
    cases hmem
  case sent =>
    intro t q h command hheld'
    rw [hheld] at hheld'
    cases hheld'
  case rows =>
    intro t q hq
    cases hq

/-- In every state reached there is an assignment of owners. -/
theorem owned_of_reaches {guard : Proxy → Event → Prop} (h : ProxyReaches cfg guard p) :
    p.Owned := by
  apply h.invariant (start_owned cfg)
  intro t e t' _ hinv _ hstep
  exact step_ledger hstep hinv

/-- No connection is held by two sessions or by a session and an idle list, and every row
queued to a client stems from a query that the same session sent on that connection. -/
structure Proxy.Isolated (p : Proxy) : Prop where
  oneHolder : ∀ t u q r hold hold', (p.sessions t).held q = some hold →
    (p.sessions u).held r = some hold' → hold.conn = hold'.conn → t = u ∧ q = r
  notIdle : ∀ t q hold i, (p.sessions t).held q = some hold →
    hold.conn ∉ (p.backends.pools i).idleConns
  ownRows : ∀ t, ∀ queued ∈ (p.sessions t).out, queued.msg.isRow = true →
    ∃ c command, queued.origin = .result c command ∧ command.sender = t ∧
      (c, command.sql) ∈ (p.sessions t).sent

/-- No result crosses sessions, however they acquire, use, release and lose connections
and whenever they end. -/
theorem results_stay_in_session (h : ProxyReaches cfg anyEvent p) : p.Isolated := by
  rcases owned_of_reaches h with ⟨own, hinv⟩
  constructor
  case oneHolder =>
    intro t u q r hold hold' hheld hheld' hconn
    have hown := hinv.held t q hold hheld
    rw [hconn, hinv.held u r hold' hheld', Owner.held.injEq] at hown
    exact ⟨hown.1.symm, hown.2.symm⟩
  case notIdle =>
    intro t q hold i hheld
    exact hinv.not_pooled hheld i
  case ownRows =>
    intro t queued hqueued hrow
    exact hinv.rows t queued (List.mem_filter.mpr ⟨hqueued, hrow⟩)

/-- Two sessions have sent a query to the same shard, and one of them has its answer. -/
theorem two_sessions_isolated :
    ∃ p, ProxyReaches demoConfig anyEvent p ∧ (p.sessions 1).backendConn.isSome = true ∧
      (∃ queued ∈ (p.sessions 0).out, queued.msg.isRow = true) ∧ p.Isolated := by
  have hrun : runsTo (step demoConfig) anyEvent
      (demoLogin 0 ++ demoLogin 1 ++
        [demoQuery 0 (ascii "DELETE FROM t WHERE id = 1"),
          demoQuery 1 (ascii "DELETE FROM t WHERE id = 1"),
          .backend 0 { results := [{ status := .tuplesOk, rows := [[some (ascii "1")]] }] } .all])
      (Proxy.start demoConfig)
      (fun p => (p.sessions 1).backendConn.isSome = true ∧
        ∃ queued ∈ (p.sessions 0).out, queued.msg.isRow = true) = true := by decide +kernel
  rcases exists_reached hrun with ⟨p, hp, hboth⟩
  exact ⟨p, hp, hboth.1, hboth.2, results_stay_in_session hp⟩

end Sharegres
