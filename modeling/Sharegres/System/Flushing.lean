import Sharegres.Session.Actions
import Sharegres.Session.SendQueue
import Sharegres.System.Proxy

/-!
# System - Requests that are not flushed

A query or the end of a copy is handed to the library and flushed once by {lit}`PQflush`.
On a connection that does not block the call may leave bytes behind: it then answers 1, and
has to be called again when the socket takes more.  The proxy ignores the answer, and its
handlers of backends are armed for EPOLLIN only.

The run of the proxy is extended here by the calls of {lit}`PQflush` with their answers, and
by the events each handler of a backend is armed for.

Main results:

- Definition {lit}`FlushedOrWatching`: each connection a session waits on was flushed, or is
  watched for EPOLLOUT.
- Theorem {lit}`flushed_or_watching_iff`: this holds if and only if the last answer on each
  of them was 0.
- Theorem {lit}`pending_query_unwatched`: a query of which a part stays behind.
-/

namespace Sharegres

open Foundation

/-! ## Calls of the library and of the event loop -/

/-- The answers 0, 1 and -1 of {lit}`PQflush`. -/
inductive FlushAnswer where
  | sent
  | pending
  | failed
deriving DecidableEq, Repr

/-- The call is a {lit}`PQputCopyEnd` that did not answer -1, so that {lit}`PQflush`
follows.  No {lit}`PQflush` follows a {lit}`PQputCopyData`. -/
def CopyPut.flushes (p : CopyPut × PutOutcome) : Bool :=
  match p.1 with
  | .data _ => false
  | .done | .fail _ => p.2 ≠ .failed

/-- The connections on which a callback calls {lit}`PQflush`: one for each end of a copy, and
one for each query that was sent.  A callback can only end the copy that was going on when
it was called, so that this end comes before its queries. -/
def flushCalls (s s' : Session) : List ConnId :=
  (((s'.copyPuts.drop s.copyPuts.length).filter CopyPut.flushes).flatMap fun _ =>
    s.backendConn.toList) ++
    ((s'.sent.take (s'.sent.length - s.sent.length)).map Prod.fst).reverse

/-- The events for which the handler of a place is armed after a callback.  It is added to
the loop with EPOLLIN when a connection is acquired, removed when it is given back, and never
modified. -/
def rearm (s s' : Session) (armed : Place → Option Interest) (p : Place) : Option Interest :=
  match s'.held p with
  | none => none
  | some h => if s.held p = some h then armed p else some .epollin

/-- The proxy with the answers of {lit}`PQflush` so far and the events of the handlers. -/
structure Watched where
  proxy : Proxy
  flushes : List (ConnId × FlushAnswer) := []
  armed : Nat → Place → Option Interest := fun _ _ => none

namespace Watched

/-- The process after start. -/
def start (cfg : Config) : Watched where
  proxy := Proxy.start cfg

/-- The calls of {lit}`PQflush` in a step. -/
def calls (w : Watched) (e : Event) (p : Proxy) : List ConnId :=
  e.session.toList.flatMap fun sid => flushCalls (w.proxy.sessions sid) (p.sessions sid)

/-- The effect of an event, with the answers of {lit}`PQflush` in it. -/
def step (cfg : Config) (w : Watched) (e : Event × (Nat → FlushAnswer)) : Option Watched :=
  (Sharegres.step cfg w.proxy e.1).map fun p =>
    { proxy := p
      flushes := w.flushes ++ (w.calls e.1 p).zipIdx.map fun call => (call.1, e.2 call.2)
      armed := fun sid =>
        rearm (w.proxy.sessions sid) (p.sessions sid) (w.armed sid) }

end Watched

/-- The states of the proxy in all runs. -/
abbrev WatchedReaches (cfg : Config) (w : Watched) : Prop :=
  Reaches (Watched.step cfg) anyEvent (Watched.start cfg) w

/-- The answer of the last {lit}`PQflush` on a connection. -/
def lastFlush (flushes : List (ConnId × FlushAnswer)) (c : ConnId) : Option FlushAnswer :=
  ((flushes.filter fun call => call.1 = c).map Prod.snd).getLast?

/-- The session waits for a backend, or for data of the client to hand on to it. -/
def SessionState.waits (state : SessionState) : Prop :=
  state = .query ∨ state = .scatter ∨ state = .copyIn

instance (state : SessionState) : Decidable state.waits :=
  inferInstanceAs (Decidable (_ ∨ _ ∨ _))

/-- The session waits on the connection of a place. -/
def Session.WaitsOn (s : Session) (p : Place) (c : ConnId) : Prop :=
  s.state.waits ∧ p ∈ s.awaited ∧ (s.held p).map Hold.conn = some c

instance (s : Session) (p : Place) (c : ConnId) : Decidable (s.WaitsOn p c) :=
  inferInstanceAs (Decidable (_ ∧ _ ∧ _))

/-- Each connection a session waits on was flushed, or is watched for EPOLLOUT. -/
def FlushedOrWatching (w : Watched) (sid : Nat) : Prop :=
  ∀ p c, (w.proxy.sessions sid).WaitsOn p c →
    lastFlush w.flushes c = some .sent ∨ w.armed sid p = some .epollout

/-! ## Runs with and without the calls -/

/-- The extended runs are the runs of the proxy. -/
theorem proxyReaches_iff {cfg : Config} {p : Proxy} :
    ProxyReaches cfg anyEvent p ↔ ∃ w, WatchedReaches cfg w ∧ w.proxy = p := by
  constructor
  · intro hreach
    induction hreach with
    | refl => exact ⟨Watched.start cfg, Reaches.refl _, rfl⟩
    | tail _ hlast ih =>
        rcases ih with ⟨w, hw, rfl⟩
        rcases hlast with ⟨e, -, hstep⟩
        cases hwatched : Watched.step cfg w (e, fun _ => .sent) with
        | none => rw [Watched.step, hstep] at hwatched; cases hwatched
        | some w' =>
            refine ⟨w', Relation.ReflTransGen.tail hw ⟨_, trivial, hwatched⟩, ?_⟩
            rw [Watched.step, hstep] at hwatched
            exact congrArg Watched.proxy (Option.some.inj hwatched).symm
  · rintro ⟨w, hw, rfl⟩
    induction hw with
    | refl => exact Reaches.refl _
    | tail _ hlast ih =>
        rcases hlast with ⟨e, -, hstep⟩
        rcases Option.map_eq_some_iff.mp hstep with ⟨p, hp, rfl⟩
        exact Relation.ReflTransGen.tail ih ⟨e.1, trivial, hp⟩

/-! ## Every query is flushed -/

/-- A query that was sent in a callback is flushed in it. -/
theorem mem_flushCalls {s s' : Session} (hsent : s.sent <:+ s'.sent) {c : ConnId} {sql : Text}
    (hmem : (c, sql) ∈ s'.sent) : (c, sql) ∈ s.sent ∨ c ∈ flushCalls s s' := by
  rcases hsent with ⟨new, hnew⟩
  have hlength : s'.sent.length - s.sent.length = new.length := by
    rw [← hnew, List.length_append, Nat.add_sub_cancel]
  rw [← hnew] at hmem
  rcases List.mem_append.mp hmem with hmem | hmem
  · right
    refine List.mem_append_right _ (List.mem_reverse.mpr ?_)
    rw [hlength, ← hnew, List.take_left]
    exact List.mem_map_of_mem hmem
  · exact Or.inl hmem

theorem lastFlush_ne_none {flushes : List (ConnId × FlushAnswer)} {c : ConnId}
    (h : c ∈ flushes.map Prod.fst) : lastFlush flushes c ≠ none := by
  rcases List.mem_map.mp h with ⟨call, hcall, rfl⟩
  rw [lastFlush, ne_eq, List.getLast?_eq_none_iff, List.map_eq_nil_iff, List.filter_eq_nil_iff]
  exact fun hnone => hnone call hcall (by simp)

/-- What is kept by every event. -/
structure Watched.Inv (w : Watched) : Prop where
  asked : ∀ sid, (w.proxy.sessions sid).Asked
  flushed : ∀ sid c sql, (c, sql) ∈ (w.proxy.sessions sid).sent → c ∈ w.flushes.map Prod.fst
  armed : ∀ sid p, w.armed sid p ≠ some .epollout

/-- A step asks backends for at most one session, which is the one called. -/
theorem step_asks {cfg : Config} {p p' : Proxy} {e : Event} (h : step cfg p e = some p')
    (sid : Nat) :
    e.session = some sid ∧ Asks (p.sessions sid) (p'.sessions sid) ∨
      p'.sessions sid = p.sessions sid ∨ (p'.sessions sid).Asked ∧ (p'.sessions sid).sent = [] := by
  have hput : ∀ {t : Nat} {y : Conf}, e.session = some t → Asks (p.sessions t) y.1 →
      e.session = some sid ∧ Asks (p.sessions sid) ((p.put t y).sessions sid) ∨
        (p.put t y).sessions sid = p.sessions sid ∨
          ((p.put t y).sessions sid).Asked ∧ ((p.put t y).sessions sid).sent = [] := by
    intro t y hsession hasks
    by_cases hsid : sid = t
    · subst hsid
      rw [Proxy.put_session]
      exact Or.inl ⟨hsession, hasks⟩
    · exact Or.inr (Or.inl (Proxy.put_other hsid))
  cases step_case h with
  | accept pid secretKey =>
      by_cases hsid : sid = p.created
      · subst hsid
        rw [Proxy.accept_new]
        exact Or.inr (Or.inr ⟨fun q hq => absurd hq (Finset.notMem_empty q), rfl⟩)
      · exact Or.inr (Or.inl (Proxy.accept_other hsid pid secretKey))
  | client t input y _ hcase => exact hput rfl hcase.asks
  | backend t input flush y _ hcase => exact hput rfl hcase.unread.toAsks
  | scatter t i input flush y _ hcase => exact hput rfl hcase.unread.toAsks
  | healthCheck => exact Or.inr (Or.inl rfl)
  | connLost c => exact Or.inr (Or.inl rfl)

/-- The invariant holds in every run. -/
theorem WatchedReaches.inv {cfg : Config} {w : Watched} (hreach : WatchedReaches cfg w) :
    w.Inv := by
  refine hreach.invariant ⟨?_, ?_, ?_⟩ ?_
  · exact fun _ q hq => absurd hq (Finset.notMem_empty q)
  · exact fun _ _ _ hmem => absurd hmem List.not_mem_nil
  · exact fun _ _ h => by cases h
  · rintro w ⟨e, answers⟩ w' - hinv - hstep
    rcases Option.map_eq_some_iff.mp hstep with ⟨p, hp, rfl⟩
    have hkept : ∀ c ∈ w.flushes.map Prod.fst, c ∈ (w.flushes ++
        (w.calls e p).zipIdx.map fun call => (call.1, answers call.2)).map Prod.fst := by
      intro c hc
      rw [List.map_append]
      exact List.mem_append_left _ hc
    refine ⟨fun sid => ?_, fun sid c sql hmem => ?_, fun sid q => ?_⟩
    · rcases step_asks hp sid with ⟨-, hasks⟩ | hsame | ⟨hasked, -⟩
      · exact hasks.asked (hinv.asked sid)
      · exact hsame.symm ▸ hinv.asked sid
      · exact hasked
    · rcases step_asks hp sid with ⟨hsession, hasks⟩ | hsame | ⟨-, hnone⟩
      · rcases mem_flushCalls hasks.sent hmem with hold | hnew
        · exact hkept c (hinv.flushed sid c sql hold)
        · have hcall : c ∈ w.calls e p := by
            rw [Watched.calls, hsession]
            simpa using hnew
          rw [List.map_append, List.map_map]
          refine List.mem_append_right _ ?_
          change c ∈ (w.calls e p).zipIdx.map Prod.fst
          rw [List.zipIdx_map_fst]
          exact hcall
      · have hmem' : (c, sql) ∈ (p.sessions sid).sent := hmem
        rw [hsame] at hmem'
        exact hkept c (hinv.flushed sid c sql hmem')
      · have hmem' : (c, sql) ∈ (p.sessions sid).sent := hmem
        rw [hnone] at hmem'
        cases hmem'
    · change rearm (w.proxy.sessions sid) (p.sessions sid) (w.armed sid) q ≠ _
      unfold rearm
      split
      · simp
      · split
        · exact hinv.armed sid q
        · simp

/-- In every run, each connection a session waits on was flushed or is watched if and only if
the last answer of {lit}`PQflush` on each of them was 0. -/
theorem flushed_or_watching_iff {cfg : Config} {w : Watched} (hreach : WatchedReaches cfg w)
    (sid : Nat) :
    FlushedOrWatching w sid ↔
      ∀ p c answer, (w.proxy.sessions sid).WaitsOn p c →
        lastFlush w.flushes c = some answer → answer = .sent := by
  have hinv := hreach.inv
  constructor
  · intro hall p c answer hwaits hanswer
    rcases hall p c hwaits with hsent | hwatched
    · rw [hanswer] at hsent
      exact Option.some.inj hsent
    · exact absurd hwatched (hinv.armed sid p)
  · intro hanswers p c hwaits
    rcases hinv.asked sid p hwaits.2.1 with ⟨h, sql, hheld, hsent⟩
    have hconn : h.conn = c := by
      have hmap := hwaits.2.2
      rw [hheld] at hmap
      exact Option.some.inj hmap
    have hflushed := lastFlush_ne_none (hinv.flushed sid h.conn sql hsent)
    rw [hconn] at hflushed
    rcases Option.ne_none_iff_exists'.mp hflushed with ⟨answer, hanswer⟩
    left
    rw [hanswer, hanswers p c answer hwaits hanswer]

/-- A query is sent, and {lit}`PQflush` gives the same answer to each call. -/
def flushedQuery (answer : FlushAnswer) : List (Event × (Nat → FlushAnswer)) :=
  (demoLogin 0 ++ [demoQuery 0 (ascii "SELECT 1")]).map fun e => (e, fun _ => answer)

theorem flushed_query_sent :
    ∃ w c, WatchedReaches plainConfig w ∧ (w.proxy.sessions 0).state = .query ∧
      (w.proxy.sessions 0).WaitsOn .backend c ∧ FlushedOrWatching w 0 := by
  have hrun : runsTo (Watched.step plainConfig) anyEvent
      (flushedQuery .sent) (Watched.start plainConfig)
      (fun w => (w.proxy.sessions 0).state = .query ∧
        (w.proxy.sessions 0).WaitsOn .backend 0 ∧ w.flushes = [(0, .sent)]) = true := by
    decide +kernel
  rcases exists_reached hrun with ⟨w, hw, hstate, hwaits, hflushes⟩
  refine ⟨w, 0, hw, hstate, hwaits, (flushed_or_watching_iff hw 0).mpr ?_⟩
  intro p c answer _ hanswer
  rw [hflushes, lastFlush] at hanswer
  by_cases hc : 0 = c
  · subst hc
    exact (Option.some.inj hanswer).symm
  · simp [hc] at hanswer

/-- A part of the query stays behind.  The session waits for the answer, and its handler is
only called when the backend sends something. -/
theorem pending_query_unwatched :
    ∃ w c, WatchedReaches plainConfig w ∧ w.proxy.alive 0 ∧
      (w.proxy.sessions 0).state = .query ∧ (w.proxy.sessions 0).WaitsOn .backend c ∧
      lastFlush w.flushes c = some .pending ∧ w.armed 0 .backend = some .epollin ∧
      ¬ FlushedOrWatching w 0 := by
  have hrun : runsTo (Watched.step plainConfig) anyEvent
      (flushedQuery .pending) (Watched.start plainConfig)
      (fun w => w.proxy.alive 0 ∧ (w.proxy.sessions 0).state = .query ∧
        (w.proxy.sessions 0).WaitsOn .backend 0 ∧ lastFlush w.flushes 0 = some .pending ∧
        w.armed 0 .backend = some .epollin) = true := by
    decide +kernel
  rcases exists_reached hrun with ⟨w, hw, halive, hstate, hwaits, hpending, harmed⟩
  refine ⟨w, 0, hw, halive, hstate, hwaits, hpending, harmed, fun hall => ?_⟩
  rcases hall .backend 0 hwaits with hsent | hwatched
  · rw [hpending] at hsent
    cases hsent
  · rw [harmed] at hwatched
    cases hwatched

end Sharegres
