import Sharegres.Foundation.Transition
import Sharegres.Protocol.QueryFraming
import Sharegres.Router.WhereRouting
import Sharegres.Session.Callbacks

/-!
# System - The proxy

All sessions of one proxy process and the pools they share, driven by one event at a
time as {lit}`src/event/event_loop.c` does it.  Events are those of the listening
socket, of the handlers of a session, of the health check timer and of the backends
themselves.  Handlers of a destroyed session are not called.

Main results:

- Definition {lit}`step`: the effect of an event.
- Theorem {lit}`step_case`: the outcomes of an event.
-/

namespace Sharegres

open Foundation

/-- The proxy process. -/
structure Proxy where
  sessions : Nat → Session
  created : Nat := 0
  backends : Backends

/-- An event of the loop. -/
inductive Event where
  | accept (pid secretKey : Int)
  | client (sid : Nat) (input : ClientInput)
  | backend (sid : Nat) (input : BackendInput) (flush : SendOutcome)
  | scatter (sid : Nat) (i : Fin maxScatterShards) (input : BackendInput) (flush : SendOutcome)
  | healthCheck
  | connLost (c : ConnId)

/-- The session that the handler of an event belongs to. -/
def Event.session : Event → Option Nat
  | .client sid _ => some sid
  | .backend sid _ _ => some sid
  | .scatter sid _ _ _ => some sid
  | .accept _ _ => none
  | .healthCheck => none
  | .connLost _ => none

namespace Proxy

/-- The process after start: no session, and empty pools. -/
def start (cfg : Config) : Proxy where
  sessions sid := { id := sid, closed := true }
  backends := { pools := fun _ => { maxSize := cfg.shardMap.poolSize } }

/-- Store the result of a callback. -/
def put (p : Proxy) (sid : Nat) (x : Conf) : Proxy :=
  { p with sessions := Function.update p.sessions sid x.1, backends := x.2 }

/-- The session with the backends. -/
def conf (p : Proxy) (sid : Nat) : Conf :=
  (p.sessions sid, p.backends)

/-- The session was accepted and not destroyed yet. -/
def alive (p : Proxy) (sid : Nat) : Prop :=
  sid < p.created ∧ (p.sessions sid).closed = false

instance (p : Proxy) (sid : Nat) : Decidable (p.alive sid) :=
  inferInstanceAs (Decidable (_ ∧ _))

/-- Call a handler of a session. -/
def call (p : Proxy) (sid : Nat) (callback : Conf → Option Conf) : Option Proxy :=
  if p.alive sid then (callback (p.conf sid)).map (p.put sid) else none

end Proxy

/-- The effect of an event.  The handler of a scatter slot is registered once the slot
has been used. -/
def step (cfg : Config) (p : Proxy) : Event → Option Proxy
  | .accept pid secretKey =>
      some { p with
        sessions := Function.update p.sessions p.created
          { id := p.created, pid := pid, secretKey := secretKey }
        created := p.created + 1 }
  | .client sid input => p.call sid (onClient cfg input)
  | .backend sid input flush => p.call sid (some ∘ sessionOnBackendReadable input flush)
  | .scatter sid i input flush =>
      if ((p.sessions sid).scatter i).shard.isSome then
        p.call sid (sessionOnScatterReadable i input flush)
      else none
  | .healthCheck =>
      some { p with
        backends := p.backends.healthCheckAll (cfg.shardMap.shards.map Shard.index) }
  | .connLost c => some { p with backends := p.backends.setStatus c .bad }

/-- The states of the proxy in runs whose events meet a guard. -/
abbrev ProxyReaches (cfg : Config) (guard : Proxy → Event → Prop) (p : Proxy) : Prop :=
  Reaches (step cfg) guard (Proxy.start cfg) p

namespace Proxy

@[simp]
theorem put_session (p : Proxy) (sid : Nat) (x : Conf) : (p.put sid x).sessions sid = x.1 :=
  Function.update_self ..

theorem put_conf (p : Proxy) (sid : Nat) (x : Conf) : (p.put sid x).conf sid = x :=
  Prod.ext (put_session p sid x) rfl

theorem put_other {p : Proxy} {sid t : Nat} {x : Conf} (h : t ≠ sid) :
    (p.put sid x).sessions t = p.sessions t :=
  Function.update_of_ne h ..

/-- A call that returns is a call of a live session. -/
theorem call_eq_some {p p' : Proxy} {sid : Nat} {callback : Conf → Option Conf}
    (h : p.call sid callback = some p') :
    p.alive sid ∧ ∃ x, callback (p.conf sid) = some x ∧ p' = p.put sid x := by
  unfold call at h
  by_cases halive : p.alive sid
  · rw [if_pos halive] at h
    rcases Option.map_eq_some_iff.mp h with ⟨x, hx, hp⟩
    exact ⟨halive, x, hx, hp.symm⟩
  · rw [if_neg halive] at h
    cases h

/-- A new session. -/
def accept (p : Proxy) (pid secretKey : Int) : Proxy :=
  { p with
    sessions := Function.update p.sessions p.created
      { id := p.created, pid := pid, secretKey := secretKey }
    created := p.created + 1 }

/-- New backends. -/
def setBackends (p : Proxy) (b : Backends) : Proxy :=
  { p with backends := b }

end Proxy

namespace Proxy

variable {cfg : Config} {p : Proxy}

theorem accept_new (p : Proxy) (pid secretKey : Int) :
    (p.accept pid secretKey).sessions p.created =
      { id := p.created, pid := pid, secretKey := secretKey } :=
  Function.update_self ..

theorem accept_other {t : Nat} (h : t ≠ p.created) (pid secretKey : Int) :
    (p.accept pid secretKey).sessions t = p.sessions t :=
  Function.update_of_ne h ..

/-- Every session that is alive has a property. -/
def Each (Inv : Session → Prop) (p : Proxy) : Prop :=
  ∀ sid, p.alive sid → Inv (p.sessions sid)

/-- A callback that keeps the property or ends its session. -/
theorem Each.put {Inv : Session → Prop} {sid : Nat} {y : Conf} (h : p.Each Inv)
    (hy : y.1.closed = true ∨ Inv y.1) : (p.put sid y).Each Inv := by
  intro t halive
  by_cases ht : t = sid
  · subst ht
    rw [put_session]
    rcases hy with hclosed | hinv
    · have hopen := halive.2
      rw [put_session, hclosed] at hopen
      cases hopen
    · exact hinv
  · rw [put_other ht]
    refine h t ⟨halive.1, ?_⟩
    have hopen := halive.2
    rw [put_other ht] at hopen
    exact hopen

/-- What holds for a new session and is kept by every callback that does not end its session
holds for every session of a run. -/
theorem session_invariant {guard : Proxy → Event → Prop} {Inv : Session → Prop}
    (hreach : ProxyReaches cfg guard p)
    (hnew : ∀ id pid secretKey, Inv { id := id, pid := pid, secretKey := secretKey })
    (hclient : ∀ q sid input y, guard q (.client sid input) → Inv (q.sessions sid) →
      onClient cfg input (q.conf sid) = some y → y.1.closed = true ∨ Inv y.1)
    (hbackend : ∀ q sid input flush, guard q (.backend sid input flush) → Inv (q.sessions sid) →
      (sessionOnBackendReadable input flush (q.conf sid)).1.closed = true ∨
        Inv (sessionOnBackendReadable input flush (q.conf sid)).1)
    (hscatter : ∀ q sid i input flush y, guard q (.scatter sid i input flush) →
      Inv (q.sessions sid) → ((q.sessions sid).scatter i).shard.isSome →
      sessionOnScatterReadable i input flush (q.conf sid) = some y →
      y.1.closed = true ∨ Inv y.1) :
    p.Each Inv := by
  have hstart : (Proxy.start cfg).Each Inv :=
    fun sid halive => absurd halive.1 (Nat.not_lt_zero sid)
  refine hreach.invariant hstart ?_
  intro q e q' _ hinv hguard hstep
  cases e with
  | accept pid secretKey =>
      cases hstep
      intro sid halive
      by_cases hsid : sid = q.created
      · subst hsid
        exact (accept_new q pid secretKey).symm ▸ hnew _ pid secretKey
      · have hother := accept_other hsid pid secretKey
        have hlt : sid < q.created := Nat.lt_of_le_of_ne (Nat.lt_succ_iff.mp halive.1) hsid
        have hopen := halive.2
        rw [show ({ q with
          sessions := _, created := q.created + 1 } : Proxy).sessions sid = q.sessions sid from
            hother] at hopen
        exact hother.symm ▸ hinv sid ⟨hlt, hopen⟩
  | client sid input =>
      rcases call_eq_some hstep with ⟨halive, y, hy, rfl⟩
      exact hinv.put (hclient q sid input y hguard (hinv sid halive) hy)
  | backend sid input flush =>
      rcases call_eq_some hstep with ⟨halive, y, hy, rfl⟩
      cases hy
      exact hinv.put (hbackend q sid input flush hguard (hinv sid halive))
  | scatter sid i input flush =>
      simp only [step] at hstep
      split at hstep
      · rename_i hshard
        rcases call_eq_some hstep with ⟨halive, y, hy, rfl⟩
        exact hinv.put
          (hscatter q sid i input flush y hguard (hinv sid halive) hshard hy)
      · cases hstep
  | healthCheck =>
      cases hstep
      exact hinv
  | connLost c =>
      cases hstep
      exact hinv

end Proxy

/-- The outcomes of an event. -/
inductive StepCase (cfg : Config) (p : Proxy) : Event → Proxy → Prop where
  | accept (pid secretKey : Int) : StepCase cfg p (.accept pid secretKey) (p.accept pid secretKey)
  | client (sid : Nat) (input : ClientInput) (y : Conf) (halive : p.alive sid)
      (hcase : ClientCase cfg input (p.conf sid) y) :
      StepCase cfg p (.client sid input) (p.put sid y)
  | backend (sid : Nat) (input : BackendInput) (flush : SendOutcome) (y : Conf)
      (halive : p.alive sid) (hcase : BackendCase input flush (p.conf sid) y) :
      StepCase cfg p (.backend sid input flush) (p.put sid y)
  | scatter (sid : Nat) (i : Fin maxScatterShards) (input : BackendInput) (flush : SendOutcome)
      (y : Conf) (halive : p.alive sid) (hcase : ScatterCase i input flush (p.conf sid) y) :
      StepCase cfg p (.scatter sid i input flush) (p.put sid y)
  | healthCheck :
      StepCase cfg p .healthCheck
        (p.setBackends (p.backends.healthCheckAll (cfg.shardMap.shards.map Shard.index)))
  | connLost (c : ConnId) :
      StepCase cfg p (.connLost c) (p.setBackends (p.backends.setStatus c .bad))

/-- A step is the outcome of its event. -/
theorem step_case {cfg : Config} {p p' : Proxy} {e : Event} (h : step cfg p e = some p') :
    StepCase cfg p e p' := by
  cases e with
  | accept pid secretKey =>
      cases h
      exact StepCase.accept pid secretKey
  | client sid input =>
      rcases Proxy.call_eq_some h with ⟨halive, y, hy, rfl⟩
      exact StepCase.client sid input y halive (onClient_case hy)
  | backend sid input flush =>
      rcases Proxy.call_eq_some h with ⟨halive, y, hy, rfl⟩
      cases hy
      exact StepCase.backend sid input flush _ halive (sessionOnBackendReadable_case _ _ _)
  | scatter sid i input flush =>
      simp only [step] at h
      split at h
      · rcases Proxy.call_eq_some h with ⟨halive, y, hy, rfl⟩
        exact StepCase.scatter sid i input flush y halive (sessionOnScatterReadable_case hy)
      · cases h
  | healthCheck =>
      cases h
      exact StepCase.healthCheck
  | connLost c =>
      cases h
      exact StepCase.connLost c

/-! ## A small proxy -/

/-- The trees of three statements: a BEGIN, a DELETE with a key and one without. -/
def demoParse (sql : Text) : Option Text :=
  let deletes (column : Text) (n : Int) : Json :=
    (plainDelete (ascii "t")).toJson (Where.leaf column .eq n ⟨23, 20, 25⟩).toExpr
  if sql = ascii "BEGIN" then
    some (Json.render (document 170000
      [(node (KeyTok.compact ⟨ascii "TransactionStmt", by decide +kernel⟩)
        [(tok .kind, strVal (ascii "TRANS_STMT_BEGIN"))], [])]))
  else if sql = ascii "DELETE FROM t WHERE id = 1" then
    some (Json.render (document 170000 [(deletes (ascii "id") 1, [])]))
  else if sql = ascii "DELETE FROM t WHERE x = 5" then
    some (Json.render (document 170000 [(deletes (ascii "x") 5, [])]))
  else none

/-- Two shards and one table. -/
def demoConfig : Config :=
  ⟨⟨demoShards, [demoRule], 4⟩, demoParse⟩

/-- A proxy without a shard map. -/
def plainConfig : Config :=
  ⟨⟨[], [], 4⟩, fun _ => none⟩

/-- A client connects and sends a startup packet. -/
def demoLogin (sid : Nat) : List Event :=
  [.accept 1 2, .client sid { recv := .data [0, 0, 0, 9, 0, 3, 0, 0, 0] }]

/-- A client sends a query. -/
def demoQuery (sid : Nat) (sql : Text) : Event :=
  .client sid { recv := .data (queryFrame (sql ++ [0])) }

end Sharegres
