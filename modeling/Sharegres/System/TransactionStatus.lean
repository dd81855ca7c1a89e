import Sharegres.System.Backlog
import Sharegres.System.Dispatch
import Sharegres.System.StatusReports

/-!
# System - The transaction status in ReadyForQuery

Clients decide from the status byte of ReadyForQuery whether they are inside a transaction.
The proxy reports the status of the single backend after its results only.  Everything it
answers by itself, the end of a scattered query and the end of a copy carry {lit}`I`, which
is false while the session's backend is in a block.

Main results:

- Definition {lit}`Event.parts`: the parts of a callback that queue ReadyForQuery.
- Definition {lit}`Event.misreports`: the events that are answered inside a block without
  asking the backend for its status.
- Theorem {lit}`status_reported_iff`: in every state of every run, an event is answered with
  the true status if and only if it is not one of these.
- Theorem {lit}`idle_reported_inside_block`: a syntax error after BEGIN.
-/

namespace Sharegres

open Foundation

variable {cfg : Config} {p p' : Proxy} {x y z : Conf} {sid : Nat}

/-! ## The parts of a callback -/

/-- The session a round of the loop leaves behind, and the query it hands over. -/
def Round.exit : Round → Session × Option Text
  | .next s => (s, none)
  | .ret s _ => (s, none)
  | .query s sql => (s, some sql)

/-- Where the loop over the client's messages ends, if bytes are received. -/
def ClientInput.exit (input : ClientInput) (s : Session) : Option (Session × Option Text) :=
  if input.hangup then none
  else
    match s.callback, input.recv with
    | .readable, .data bytes =>
        (feProtocolProcess input.puts input.rounds 0 (s.receive bytes)).map Round.exit
    | _, _ => none

/-- The loop over the client's messages, and the query at its end. -/
def clientParts (cfg : Config) (input : ClientInput) (x : Conf) : List (Conf × Conf) :=
  match input.exit x.1 with
  | none => []
  | some (s, none) => [(x, (s, x.2))]
  | some (s, some sql) =>
      (x, (s, x.2)) ::
        ((handleQuery cfg sql input (s, x.2)).map fun r => ((s, x.2), r.1)).toList

/-- The results of the single backend. -/
def backendParts (input : BackendInput) (x : Conf) : List (Conf × Conf) :=
  if input.hangup then []
  else
    match x.1.backendConn with
    | none => []
    | some c =>
        match input.consumeFails with
        | some _ => []
        | none =>
            match (x.2.conns c).command with
            | none => [(x, finishSingle c x)]
            | some command =>
                if input.busy then [] else [(x, drainSingle c command input x)]

/-- The end of a scattered query. -/
def scatterParts (i : Fin maxScatterShards) (input : BackendInput) (x : Conf) :
    List (Conf × Conf) :=
  match slotOver i input x with
  | none => []
  | some z =>
      if z.1.scatterCount ≤ z.1.scatterDone then [(z, gathered (gatherTag z) z)] else []

/-- The parts of the callback of an event that can queue ReadyForQuery, each with the state
before and after it. -/
def Event.parts (cfg : Config) (p : Proxy) : Event → List (Conf × Conf)
  | .client sid input => clientParts cfg input (p.conf sid)
  | .backend sid input _ => backendParts input (p.conf sid)
  | .scatter sid i input _ => scatterParts i input (p.conf sid)
  | _ => []

/-! ## Events answered without the backend's status -/

/-- The client sends a message of the extended protocol, or a query the proxy answers by
itself. -/
def ClientInput.answered (cfg : Config) (input : ClientInput) (x : Conf) : Bool :=
  match input.exit x.1 with
  | none => false
  | some (s, none) => s.extended ≠ x.1.extended
  | some (s, some sql) =>
      s.extended ≠ x.1.extended ∨ answersItself cfg sql input (s, x.2)

/-- A copy to the client ends while its command is still in progress. -/
def BackendInput.endsCopyEarly (input : BackendInput) (x : Conf) : Bool :=
  match x.1.backendConn with
  | none => false
  | some c =>
      !input.hangup && input.consumeFails.isNone && (x.2.conns c).command.isSome &&
        !input.busy && input.copyEndsEarly

/-- The last slot of a scattered query ends. -/
def BackendInput.completesScatter (input : BackendInput) (i : Fin maxScatterShards)
    (x : Conf) : Bool :=
  x.1.scatterCount ≤ x.1.scatterDone + 1 ∧ input.endsSlot i x

/-- While the backend of the session is in a block, the event is answered with a fixed
status, or with the one of a command in progress. -/
def Event.misreports (cfg : Config) (p : Proxy) : Event → Bool
  | .client sid input => Conf.inBlock (p.conf sid) && input.answered cfg (p.conf sid)
  | .backend sid input _ => Conf.inBlock (p.conf sid) && input.endsCopyEarly (p.conf sid)
  | .scatter sid i input _ =>
      Conf.inBlock (p.conf sid) && input.completesScatter i (p.conf sid)
  | _ => false

/-! ## Events of the client's socket -/

theorem readies_of_out {s s' : Session} (h : s'.out = s.out) : s'.readies = s.readies :=
  congrArg (List.filter _) h

theorem afterInput_readies (flush : SendOutcome) (r : Conf × Bool) :
    (afterInput flush r).1.readies = r.1.1.readies :=
  readies_of_out (afterInput_out flush r)

/-- The loop takes messages in and hands over no query but the last one. -/
theorem ClientInput.exit_intakes {input : ClientInput} {s s' : Session} {query : Option Text}
    (h : input.exit s = some (s', query)) : ∃ bytes, Intakes (s.receive bytes) s' := by
  unfold ClientInput.exit at h
  split at h
  · cases h
  · split at h
    · rename_i bytes hcallback hrecv
      refine ⟨bytes, ?_⟩
      rcases Option.map_eq_some_iff.mp h with ⟨round, hloop, hexit⟩
      have hfrom := feProtocolProcess_intake hloop
      cases round with
      | next t =>
          cases hexit
          exact hfrom
      | ret t ok =>
          cases hexit
          exact hfrom
      | query t sql =>
          cases hexit
          rcases hfrom with ⟨t', n, hloop', -, rfl⟩
          exact hloop'.tail (Intake.consume n)
    · cases h

/-- The outcomes of an event of the client's socket, by where the loop ends. -/
theorem onClient_exit {input : ClientInput} (h : onClient cfg input x = some y) :
    input.exit x.1 = none ∧ y.1.readies = x.1.readies ∨
      (∃ s ok, input.exit x.1 = some (s, none) ∧ y = afterInput input.flush ((s, x.2), ok)) ∨
      ∃ s sql r, input.exit x.1 = some (s, some sql) ∧
        handleQuery cfg sql input (s, x.2) = some r ∧ y = afterInput input.flush r := by
  have hdestroyed : (sessionDestroy x).1.readies = x.1.readies :=
    readies_of_out (sessionDestroy_out x)
  unfold ClientInput.exit
  cases onClient_call h with
  | hangup hhangup => exact Or.inl ⟨by simp [hhangup], hdestroyed⟩
  | flush hhangup hcallback =>
      exact Or.inl ⟨by simp [hcallback], readies_of_out (flushOrDestroy_out input.flush x)⟩
  | lost hhangup hcallback hrecv =>
      refine Or.inl ⟨?_, hdestroyed⟩
      rcases hrecv with hrecv | hrecv <;> simp [hrecv]
  | again hhangup hcallback hrecv => exact Or.inl ⟨by simp [hrecv], rfl⟩
  | received bytes r hhangup hcallback hrecv hprocess =>
      right
      rw [hhangup, if_neg (by simp), hcallback, hrecv]
      dsimp only
      unfold processInput at hprocess
      cases hloop : feProtocolProcess input.puts input.rounds 0 (x.1.receive bytes) with
      | none =>
          rw [hloop] at hprocess
          cases hprocess
      | some round =>
          rw [hloop] at hprocess
          cases round with
          | next s =>
              cases hprocess
              exact Or.inl ⟨s, true, rfl, rfl⟩
          | ret s ok =>
              cases hprocess
              exact Or.inl ⟨s, ok, rfl, rfl⟩
          | query s sql => exact Or.inr ⟨s, sql, r, rfl, hprocess, rfl⟩

/-- A query takes no ReadyForQuery back. -/
theorem handleQuery_readies_extend {sql : Text} {input : ClientInput} {r : Conf × Bool}
    (h : handleQuery cfg sql input x = some r) : x.1.readies <+: r.1.1.readies := by
  have hcount : x.1.countQuery.readies = x.1.readies := rfl
  rw [← hcount]
  cases handleQuery_case h with
  | refused t b severity code message hquiet =>
      rw [← hquiet.readies, ← (Quiet.feSendError t severity code message).readies]
      exact ⟨_, (Session.readies_queueReady _ .idle).symm⟩
  | answered b tag =>
      have htag : (x.1.countQuery.queue .proxy (.commandComplete tag)).readies =
          x.1.countQuery.readies := (Quiet.queue _ rfl (by simp)).readies
      rw [← htag]
      exact ⟨_, (Session.readies_queueReady _ .idle).symm⟩
  | sent t b c sql hquiet hconn hcommand =>
      rw [← hquiet.readies]
      exact List.prefix_rfl
  | scattered sql targets input b =>
      rcases executeScatter_reports sql targets input (x.1.countQuery, b) with
        ⟨-, hnone⟩ | ⟨-, hready⟩
      · rw [hnone]
      · exact hready.readies_extend

/-- A ReadyForQuery of the client's callback is queued in one of its parts. -/
theorem mem_clientParts {input : ClientInput} {q : Queued} (h : onClient cfg input x = some y)
    (hq : q ∈ newReadies x y) : ∃ part ∈ clientParts cfg input x, q ∈ newReadies part.1 part.2 := by
  unfold clientParts
  rcases onClient_exit h with ⟨-, hsame⟩ | ⟨s, ok, hexit, rfl⟩ | ⟨s, sql, r, hexit, hquery, rfl⟩
  · rw [newReadies_of_same hsame] at hq
    cases hq
  · rw [hexit]
    refine ⟨_, List.mem_cons_self, ?_⟩
    unfold newReadies at hq
    rw [afterInput_readies] at hq
    exact hq
  · rw [hexit]
    dsimp only
    rw [hquery]
    have hlast : q ∈ newReadies x r.1 := by
      unfold newReadies at hq
      rw [afterInput_readies] at hq
      exact hq
    rcases mem_newReadies hlast (handleQuery_readies_extend hquery) with hloop | hanswer
    · exact ⟨_, List.mem_cons_self, hloop⟩
    · exact ⟨_, List.mem_cons_of_mem _ List.mem_cons_self, hanswer⟩

/-- The parts of the client's callback. -/
theorem clientParts_truthful_iff {input : ClientInput} (h : onClient cfg input x = some y)
    (hpools : x.2.PooledIdle) (hfresh : x.1.state = .init → x.1.backendConn = none)
    (hframe : ∀ y, Ops True slotPlaces (view x) (view y) → Conf.inBlock y = Conf.inBlock x) :
    (∀ part ∈ clientParts cfg input x, Truthful part.1 part.2) ↔
      (Conf.inBlock x = true → input.answered cfg x = false) := by
  -- the loop, up to the session it leaves behind
  have hloop : ∀ s query, input.exit x.1 = some (s, query) →
      (Truthful x (s, x.2) ↔ (Conf.inBlock x = true → s.extended = x.1.extended)) ∧
        s.account = x.1.account ∧ s.backendConn = x.1.backendConn := by
    intro s query hexit
    rcases ClientInput.exit_intakes hexit with ⟨bytes, hintakes⟩
    exact ⟨loop_truthful_iff (s := x.1.receive bytes) hintakes hfresh, hintakes.account,
      hintakes.backend.2.1⟩
  unfold clientParts ClientInput.answered
  rcases onClient_exit h with ⟨hexit, -⟩ | ⟨s, ok, hexit, -⟩ | ⟨s, sql, r, hexit, hquery, -⟩
  · rw [hexit]
    simp
  · rw [hexit]
    rcases hloop s none hexit with ⟨htrue, -, -⟩
    simp [htrue]
  · rw [hexit]
    dsimp only
    rw [hquery]
    rcases hloop s (some sql) hexit with ⟨htrue, haccount, hconn⟩
    have hview : view (s, x.2) = view x := by
      unfold view
      rw [haccount]
    have hblock : Conf.inBlock (s, x.2) = Conf.inBlock x := by
      unfold Conf.inBlock
      rw [hconn]
    have hanswer := handleQuery_truthful_iff hquery hpools fun y hops =>
      (hframe y (hview ▸ hops)).trans hblock.symm
    rw [hblock] at hanswer
    simp [htrue, hanswer, imp_and]

/-! ## Events of the single backend -/

/-- A report of the single backend is in one of its parts. -/
theorem mem_backendParts {input : BackendInput} {flush : SendOutcome} {q : Queued}
    (hq : q ∈ newReadies x (sessionOnBackendReadable input flush x)) :
    ∃ part ∈ backendParts input x, q ∈ newReadies part.1 part.2 := by
  have hsame : ∀ z : Conf, z.1.readies = x.1.readies → ¬ q ∈ newReadies x z := by
    intro z hz hmem
    rw [newReadies_of_same hz] at hmem
    cases hmem
  have hflush : ∀ z : Conf, q ∈ newReadies x (flushOrDestroy flush z) → q ∈ newReadies x z := by
    intro z hmem
    unfold newReadies at hmem ⊢
    rwa [readies_of_out (flushOrDestroy_out flush z)] at hmem
  have hcall := sessionOnBackendReadable_call input flush x
  generalize sessionOnBackendReadable input flush x = y at hcall hq
  unfold backendParts
  cases hcall with
  | hangup => exact absurd hq (hsame _ (backendLost_ended _ flush x).readies)
  | unbound => exact absurd hq (hsame x rfl)
  | failed c status =>
      exact absurd hq (hsame _ (backendLost_ended _ flush (x.1, _)).readies)
  | quiet c hhangup hconn hfails hcommand =>
      refine ⟨(x, finishSingle c x), ?_, hflush _ hq⟩
      simp [hhangup, hconn, hfails, hcommand]
  | waiting => exact absurd hq (hsame x rfl)
  | drain c command hhangup hconn hfails hcommand hbusy =>
      refine ⟨(x, drainSingle c command input x), ?_, hflush _ hq⟩
      simp [hhangup, hconn, hfails, hcommand, hbusy]

/-- The parts of the single backend's callback. -/
theorem backendParts_truthful_iff (input : BackendInput) (x : Conf) :
    (∀ part ∈ backendParts input x, Truthful part.1 part.2) ↔
      (Conf.inBlock x = true → input.endsCopyEarly x = false) := by
  unfold backendParts BackendInput.endsCopyEarly
  cases input.hangup with
  | true => cases x.1.backendConn <;> simp
  | false =>
      rw [if_neg (by simp)]
      cases hconn : x.1.backendConn with
      | none => simp
      | some c =>
          dsimp only
          cases input.consumeFails with
          | some status => simp
          | none =>
              dsimp only
              cases hcommand : (x.2.conns c).command with
              | none =>
                  have htrue := finishSingle_truthful (u := x) rfl hconn hcommand
                  simp [htrue]
              | some command =>
                  dsimp only
                  cases input.busy with
                  | true => simp
                  | false =>
                      rw [if_neg (by simp)]
                      simp [drainSingle_truthful_iff hconn hcommand]

/-! ## Events of a scatter -/

variable {i : Fin maxScatterShards} {input : BackendInput} {flush : SendOutcome}

/-- A report of a scatter is in one of its parts. -/
theorem mem_scatterParts {q : Queued} (h : sessionOnScatterReadable i input flush x = some y)
    (hq : q ∈ newReadies x y) : ∃ part ∈ scatterParts i input x, q ∈ newReadies part.1 part.2 := by
  unfold scatterParts
  rcases sessionOnScatterReadable_over h with ⟨-, -, rfl⟩ | ⟨-, z, hover, rfl⟩
  · rw [newReadies_of_same rfl] at hq
    cases hq
  · have hcounted := slotOver_counted hover
    have hfrom : q ∈ newReadies z (checkComplete flush z) := by
      unfold newReadies at hq ⊢
      rwa [hcounted.readies]
    rw [hover]
    dsimp only
    unfold checkComplete at hfrom
    split at hfrom
    · rename_i hdone
      rw [if_pos hdone]
      refine ⟨_, List.mem_cons_self, ?_⟩
      unfold newReadies at hfrom ⊢
      rwa [readies_of_out (flushOrDestroy_out flush _)] at hfrom
    · rw [newReadies_of_same rfl] at hfrom
      cases hfrom

/-- The end of a scattered query. -/
theorem scatterParts_truthful_iff (h : sessionOnScatterReadable i input flush x = some y)
    (hframe : ∀ y, Ops True slotPlaces (view x) (view y) → Conf.inBlock y = Conf.inBlock x) :
    (∀ part ∈ scatterParts i input x, Truthful part.1 part.2) ↔
      (Conf.inBlock x = true → input.completesScatter i x = false) := by
  unfold scatterParts BackendInput.completesScatter
  rcases sessionOnScatterReadable_over h with ⟨hends, hover, -⟩ | ⟨hends, z, hover, -⟩
  · rw [hover, hends]
    simp
  · have hcounted := slotOver_counted hover
    have hblock := hframe _ (hcounted.ops.trans (gathered_ops (gatherTag z) z))
    rw [hover, hends, ← hcounted.count, ← hcounted.done]
    dsimp only
    split
    · rename_i hdone
      simp [gathered_truthful_iff, hblock, hdone]
    · rename_i hdone
      simp [hdone]

/-! ## Runs -/

/-- Operations at other places leave a place as it is. -/
theorem Ops.held_other {leaky : Prop} {places : Set Place} {u v : Account × Backends} {q : Place}
    (hops : Ops leaky places u v) (hq : q ∉ places) : v.1.held q = u.1.held q := by
  induction hops with
  | refl => rfl
  | tail _ hlast ih =>
      rcases hlast with ⟨place, hplace, hop⟩
      have hne : q ≠ place := fun heq => hq (heq ▸ hplace)
      refine Eq.trans ?_ ih
      cases hop <;> first | rfl | exact Account.hold_held_of_ne _ _ _ hne

/-- What happens in the slots of a session does not touch its single backend. -/
theorem Proxy.inBlock_slots (howned : p.Owned)
    (hops : Ops True slotPlaces (view (p.conf sid)) (view y)) :
    Conf.inBlock y = Conf.inBlock (p.conf sid) := by
  have hheld : y.1.held .backend = (p.sessions sid).held .backend :=
    hops.held_other backend_not_mem_slotPlaces
  have hconn : y.1.backendConn = (p.sessions sid).backendConn := by
    have hmap := congrArg (Option.map Hold.conn) hheld
    simpa [Session.held, Function.comp_def] using hmap
  cases hsome : (p.sessions sid).backendConn with
  | none =>
      rw [inBlock_of_none (hconn.trans hsome), inBlock_of_none (x := p.conf sid) hsome]
  | some c =>
      rcases howned with ⟨own, hledger⟩
      have hacct : p.accounts sid = (view (p.conf sid)).1 := rfl
      have hframe := hops.frame hacct hledger (fun hplace => backend_not_mem_slotPlaces hplace.2)
        (held_backend (x := p.conf sid) hsome)
      have hconns : y.2.conns c = (p.conf sid).2.conns c := hframe.2
      rw [inBlock_of_some (hconn.trans hsome), inBlock_of_some (x := p.conf sid) hsome, hconns]

/-- Before the startup packet a session has no backend. -/
def Fresh (s : Session) : Prop :=
  s.state = .init → s.backendConn = none ∧ ∀ i, (s.scatter i).shard = none

theorem Fresh.of_not_init {s : Session} (h : s.state ≠ .init) : Fresh s :=
  fun hinit => absurd hinit h

theorem Fresh.kept (h : Fresh x.1) (hkept : Kept x y) : Fresh y.1 := by
  intro hinit
  rw [hkept.backend, hkept.quiet.scatter]
  exact h (hkept.quiet.state.symm.trans hinit)

theorem ClientCase.fresh {input : ClientInput} (h : ClientCase cfg input x y)
    (hfresh : Fresh x.1) : y.1.closed = true ∨ Fresh y.1 := by
  cases h with
  | skip => exact Or.inr hfresh
  | destroy => exact Or.inl (sessionDestroy_ended x).closed
  | flush =>
      rcases flushOrDestroy_case input.flush x with hkept | hended
      · exact Or.inr (hfresh.kept hkept)
      · exact Or.inl hended.closed
  | input bytes r hcallback hhangup hrecv hcase =>
      have hr : Fresh r.1.1 := by
        cases hcase with
        | ret s ok hloop =>
            intro hinit
            rcases hloop.fresh hinit with ⟨hstart, hconn, hscatter⟩
            rw [hconn, hscatter]
            exact hfresh hstart
        | query t n sql r hloop hstate hexit hquery =>
            exact .of_not_init fun hinit => hstate.1 ((handleQuery_unread hquery).init hinit)
      rcases afterInput_case input.flush r with ⟨-, hkept⟩ | hended
      · exact Or.inr (hr.kept hkept)
      · exact Or.inl hended.closed

/-- Sessions at their start have no connections. -/
theorem sessions_fresh {guard : Proxy → Event → Prop} (h : ProxyReaches cfg guard p) :
    p.Each Fresh := by
  refine Proxy.session_invariant h ?_ ?_ ?_ ?_
  · exact fun id pid secretKey _ => ⟨rfl, fun _ => rfl⟩
  · intro q sid input y _ hfresh hy
    exact (onClient_case hy).fresh hfresh
  · intro q sid input flush _ hfresh
    have hcase := sessionOnBackendReadable_case input flush (q.conf sid)
    generalize sessionOnBackendReadable input flush (q.conf sid) = y at hcase ⊢
    by_cases hinit : (q.sessions sid).state = .init
    · rcases hcase.of_none (hfresh hinit).1 with hclosed | rfl
      · exact Or.inl hclosed
      · exact Or.inr hfresh
    · exact Or.inr (.of_not_init fun h => hinit (hcase.unread.init h))
  · intro q sid i input flush y _ hfresh hshard hy
    refine Or.inr (.of_not_init fun hinit => ?_)
    have hstart := (sessionOnScatterReadable_case hy).unread.init hinit
    rw [(hfresh hstart).2 i] at hshard
    cases hshard

/-- In every state of every run, and for every event that is handled there: each
ReadyForQuery it makes the proxy queue is queued in one of the parts of its callback, and
all of them carry the status the session's backend then has if and only if the event is not
answered inside a block without asking the backend for its status. -/
theorem status_reported_iff {e : Event} (h : ProxyReaches cfg anyEvent p)
    (hstep : step cfg p e = some p') :
    (∀ sid, ∀ q ∈ newReadies (p.conf sid) (p'.conf sid),
      e.session = some sid ∧ ∃ part ∈ e.parts cfg p, q ∈ newReadies part.1 part.2) ∧
    ((∀ part ∈ e.parts cfg p, Truthful part.1 part.2) ↔ e.misreports cfg p = false) := by
  have howned := owned_of_reaches h
  have hpools := pooledIdle_of_reaches h
  have hframe : ∀ sid y, Ops True slotPlaces (view (p.conf sid)) (view y) →
      Conf.inBlock y = Conf.inBlock (p.conf sid) :=
    fun sid y hops => Proxy.inBlock_slots howned hops
  -- a session whose callback is not called queues nothing
  have hnone : ∀ sid, p'.sessions sid = p.sessions sid →
      ∀ q, q ∉ newReadies (p.conf sid) (p'.conf sid) := by
    intro sid hsame q hq
    rw [newReadies_of_same (congrArg Session.readies hsame)] at hq
    cases hq
  have hput : ∀ sid y, p' = p.put sid y → ∀ t, ∀ q ∈ newReadies (p.conf t) (p'.conf t),
      t = sid ∧ q ∈ newReadies (p.conf sid) y := by
    rintro sid y rfl t q hq
    by_cases ht : t = sid
    · subst ht
      rw [Proxy.put_conf] at hq
      exact ⟨rfl, hq⟩
    · exact absurd hq (hnone t (Proxy.put_other ht) q)
  cases e with
  | accept pid secretKey =>
      cases hstep
      refine ⟨fun sid q hq => ?_, by simp [Event.parts, Event.misreports]⟩
      by_cases hsid : sid = p.created
      · subst hsid
        have hempty : ((p.accept pid secretKey).sessions p.created).readies = [] := by
          rw [Proxy.accept_new]
          rfl
        change q ∈ ((p.accept pid secretKey).sessions p.created).readies.drop _ at hq
        rw [hempty, List.drop_nil] at hq
        cases hq
      · exact absurd hq (hnone sid (Proxy.accept_other hsid pid secretKey) q)
  | client sid input =>
      rcases Proxy.call_eq_some hstep with ⟨halive, y, hy, hp'⟩
      refine ⟨fun t q hq => ?_, ?_⟩
      · rcases hput sid y hp' t q hq with ⟨rfl, hnew⟩
        exact ⟨rfl, mem_clientParts hy hnew⟩
      · have hfresh : (p.sessions sid).state = .init → (p.sessions sid).backendConn = none :=
          fun hinit => (sessions_fresh h sid halive hinit).1
        refine (clientParts_truthful_iff hy hpools hfresh (hframe sid)).trans ?_
        simp [Event.misreports]
  | backend sid input flush =>
      rcases Proxy.call_eq_some hstep with ⟨halive, y, hy, hp'⟩
      cases hy
      refine ⟨fun t q hq => ?_, ?_⟩
      · rcases hput sid _ hp' t q hq with ⟨rfl, hnew⟩
        exact ⟨rfl, mem_backendParts hnew⟩
      · refine (backendParts_truthful_iff input (p.conf sid)).trans ?_
        simp [Event.misreports]
  | scatter sid i input flush =>
      simp only [step] at hstep
      split at hstep
      · rcases Proxy.call_eq_some hstep with ⟨halive, y, hy, hp'⟩
        refine ⟨fun t q hq => ?_, ?_⟩
        · rcases hput sid y hp' t q hq with ⟨rfl, hnew⟩
          exact ⟨rfl, mem_scatterParts hy hnew⟩
        · refine (scatterParts_truthful_iff hy (hframe sid)).trans ?_
          simp [Event.misreports]
      · cases hstep
  | healthCheck =>
      cases hstep
      exact ⟨fun sid q hq => absurd hq (hnone sid rfl q), by simp [Event.parts, Event.misreports]⟩
  | connLost c =>
      cases hstep
      exact ⟨fun sid q hq => absurd hq (hnone sid rfl q), by simp [Event.parts, Event.misreports]⟩

/-- Inside the block of a BEGIN, the answer to a second one is reported with {lit}`T`. -/
theorem second_begin_reported :
    ∃ p p', ProxyReaches demoConfig anyEvent p ∧ Conf.inBlock (p.conf 0) = true ∧
      step demoConfig p (.backend 0 { results := [{ status := .commandOk }], xact := .inTrans }
        .all) = some p' ∧
      (newReadies (p.conf 0) (p'.conf 0)).map Queued.msg = [.readyForQuery .inTransaction] ∧
      ∀ part ∈ (Event.backend 0 { results := [{ status := .commandOk }], xact := .inTrans }
        .all).parts demoConfig p, Truthful part.1 part.2 := by
  have hrun : runsTo (step demoConfig) anyEvent
      (demoLogin 0 ++
        [demoQuery 0 (ascii "BEGIN"),
          .backend 0 { results := [{ status := .commandOk }], xact := .inTrans } .all,
          demoQuery 0 (ascii "BEGIN")])
      (Proxy.start demoConfig)
      (fun p => Conf.inBlock (p.conf 0) = true ∧
        (Event.backend 0 { results := [{ status := .commandOk }], xact := .inTrans }
          .all).misreports demoConfig p = false ∧
        (step demoConfig p (.backend 0 { results := [{ status := .commandOk }], xact := .inTrans }
          .all)).any (fun p' => decide ((newReadies (p.conf 0) (p'.conf 0)).map Queued.msg =
            [.readyForQuery .inTransaction])) = true) = true := by decide +kernel
  rcases exists_reached hrun with ⟨p, hp, hblock, hreports, hafter⟩
  rcases (Option.any_eq_true _ _).mp hafter with ⟨p', hstep, hstatus⟩
  exact ⟨p, p', hp, hblock, hstep, of_decide_eq_true hstatus,
    (status_reported_iff hp hstep).2.mpr hreports⟩

/-- After BEGIN was answered, a query with a syntax error is answered with {lit}`I`, while
the backend of the session is still in the block. -/
theorem idle_reported_inside_block :
    ∃ p p', ProxyReaches demoConfig anyEvent p ∧
      step demoConfig p (demoQuery 0 (ascii "SELEC")) = some p' ∧
      trueStatus (p'.conf 0) = .inTransaction ∧
      (newReadies (p.conf 0) (p'.conf 0)).map Queued.msg = [.readyForQuery .idle] ∧
      ¬ ∀ part ∈ (demoQuery 0 (ascii "SELEC")).parts demoConfig p, Truthful part.1 part.2 := by
  have hrun : runsTo (step demoConfig) anyEvent
      (demoLogin 0 ++
        [demoQuery 0 (ascii "BEGIN"),
          .backend 0 { results := [{ status := .commandOk }], xact := .inTrans } .all])
      (Proxy.start demoConfig)
      (fun p => (¬ ∀ part ∈ (demoQuery 0 (ascii "SELEC")).parts demoConfig p,
          Truthful part.1 part.2) ∧
        (step demoConfig p (demoQuery 0 (ascii "SELEC"))).any (fun p' => decide
          (trueStatus (p'.conf 0) = .inTransaction ∧
            (newReadies (p.conf 0) (p'.conf 0)).map Queued.msg = [.readyForQuery .idle])) =
          true) = true := by decide +kernel
  rcases exists_reached hrun with ⟨p, hp, hfalse, hafter⟩
  rcases (Option.any_eq_true _ _).mp hafter with ⟨p', hstep, hstatus⟩
  rcases of_decide_eq_true hstatus with ⟨htrue, hready⟩
  exact ⟨p, p', hp, hstep, htrue, hready, hfalse⟩

end Sharegres
