import Sharegres.Session.ReadAhead
import Sharegres.System.Proxy

/-!
# System - Batches of events

The loop of {lit}`src/event/event_loop.c` fetches a batch of events and calls the handler of
each.  The handlers are parts of the sessions, and a session that is destroyed by a callback
is freed with them; the events that were fetched for it are dispatched all the same.

Main results:

- Definition {lit}`invocations`: the calls made for a batch, and whether the session of each
  is still there.
- Definition {lit}`Event.ends`: the events that make a callback destroy its session, by what is
  in the buffers and the queue before the call and what the sockets answer.
- Theorem {lit}`no_dead_dispatch_iff`: no callback is called for a destroyed session if and
  only if an event that ends its session is the last one of that session.
- Theorem {lit}`backend_called_after_hangup`: a client that hangs up while its backend
  answers.
-/

namespace Sharegres

open Foundation

variable {input : ClientInput} {e : Event} {es : List Event} {sid : Nat} {cfg : Config}
  {p p' : Proxy} {x y : Conf}

/-! ## The loop over a batch -/

/-- The handler of an event is not part of a destroyed session. -/
def Event.live (p : Proxy) (e : Event) : Prop :=
  ∀ sid ∈ e.session, p.alive sid

instance (p : Proxy) (e : Event) : Decidable (e.live p) :=
  inferInstanceAs (Decidable (∀ sid ∈ e.session, p.alive sid))

/-- The loop of {lit}`event_loop_run` over a batch: the calls it makes, and whether the
handler was there.  A call that does not return is the last one, and nothing is known after
a call through a handler that was freed. -/
def invocations (cfg : Config) : List Event → Proxy → List (Event × Bool)
  | [], _ => []
  | e :: es, p =>
      if e.live p then
        (e, true) ::
          match step cfg p e with
          | none => []
          | some p' => invocations cfg es p'
      else [(e, false)]

/-! ## Events that end a session -/

/-- The client's socket is closed or fails; or the first message that the loop does not pass is
refused, or is a query for too many shards; or something cannot be sent that was queued before,
that answers a message passed, or that answers this query. -/
def ClientInput.ends (cfg : Config) (input : ClientInput) (x : Conf) : Bool :=
  input.hangup ||
    match x.1.callback with
    | .writable => x.1.unsent && input.flush = .failed
    | .readable =>
        match input.recv with
        | .closed | .error => true
        | .again => false
        | .data bytes =>
            let e := (x.1.receive bytes).readFrom input.puts 0
            decide (e.Refuses input.puts x.1.backendConn.isSome) ||
              decide e.Asks && tooWide cfg e.sql ||
              (e.unsent || decide e.Asks && answersQuery cfg input e.sql x) &&
                input.flush = .failed

/-- The backend hangs up or its input fails, or the answer cannot be sent. -/
def BackendInput.endsSingle (input : BackendInput) (flush : SendOutcome) (x : Conf) : Bool :=
  input.hangup ||
    match x.1.backendConn with
    | none => false
    | some c =>
        input.consumeFails.isSome ||
          ((x.2.conns c).command.isNone || !input.busy) && flush = .failed

/-- The event completes a scattered query, and the answer cannot be sent. -/
def BackendInput.endsScatter (input : BackendInput) (i : Fin maxScatterShards)
    (flush : SendOutcome) (x : Conf) : Bool :=
  flush = .failed && x.1.scatterCount ≤ x.1.scatterDone + 1 &&
    (input.hangup ||
      match (x.1.scatter i).conn with
      | none => false
      | some c => input.consumeFails.isSome || (x.2.conns c).command.isNone || !input.busy)

/-- The event makes a callback destroy its session. -/
def Event.ends (cfg : Config) (p : Proxy) : Event → Bool
  | .client sid input => input.ends cfg (p.conf sid)
  | .backend sid input flush => input.endsSingle flush (p.conf sid)
  | .scatter sid i input flush => input.endsScatter i flush (p.conf sid)
  | _ => false

/-- The events of a batch up to one whose call does not return, with the state in which each
of them is dispatched. -/
def dispatched (cfg : Config) : List Event → Proxy → List (Proxy × Event)
  | [], _ => []
  | e :: es, p =>
      (p, e) ::
        match step cfg p e with
        | none => []
        | some p' => dispatched cfg es p'

/-- An event that ends its session is the last one of this session. -/
def EndsLast (cfg : Config) (batch : List Event) (p : Proxy) : Prop :=
  (dispatched cfg batch p).Pairwise fun a b =>
    a.2.ends cfg a.1 = true → b.2.session ≠ a.2.session

/-! ## When a callback destroys its session -/

/-- Sending ends the session if it fails. -/
theorem flushOrDestroy_closed (flush : SendOutcome) (x : Conf) :
    (flushOrDestroy flush x).1.closed =
      (x.1.closed || x.1.unsent && flush = .failed) := by
  unfold flushOrDestroy sessionSend
  cases hunsent : x.1.unsent with
  | false => simp
  | true => cases flush <;> simp [sessionDestroy]

/-- A message queued is unsent. -/
theorem queue_unsent (s : Session) (origin : Origin) (msg : BackendMsg) :
    (s.queue origin msg).unsent = true := by
  simp [Session.queue, Session.queueAll]

theorem queueAll_unsent {s : Session} (h : s.unsent = true) (origin : Origin)
    (msgs : List BackendMsg) : (s.queueAll origin msgs).unsent = true := by
  simp [Session.queueAll, h]

/-- A report waits to be sent. -/
theorem reportReady_unsent (c : ConnId) (x : Conf) : (reportReady c x).1.unsent = true := by
  unfold reportReady
  dsimp only
  split
  · exact (congrArg Port.unsent (releaseBackend_acts _).port_eq).trans (queue_unsent _ .proxy _)
  · exact queue_unsent ..

theorem finishSingle_unsent (c : ConnId) (x : Conf) : (finishSingle c x).1.unsent = true :=
  reportReady_unsent c x

/-- More is queued behind what waits. -/
theorem copyOutRead_unsent (c : ConnId) (command : Command) (input : BackendInput)
    (h : x.1.unsent = true) : (copyOutRead c command input x).1.unsent = true := by
  unfold copyOutRead
  dsimp only
  split
  · exact queueAll_unsent h ..
  · exact queueAll_unsent h ..
  · exact reportReady_unsent c _

/-- The results of the single backend always give a message. -/
theorem drainSingle_unsent (c : ConnId) (command : Command) (input : BackendInput) (x : Conf) :
    (drainSingle c command input x).1.unsent = true := by
  unfold drainSingle
  dsimp only
  split
  · exact finishSingle_unsent c _
  · exact queue_unsent _ (.result c command) _
  · exact copyOutRead_unsent c command input (queue_unsent _ (.result c command) _)

/-- The end of a scatter waits to be sent. -/
theorem gathered_unsent (tag : Text) (x : Conf) : (gathered tag x).1.unsent = true := by
  have hslots := congrArg Port.unsent (sessionReleaseScatter_acts
    ((x.1.queue (.gather x.1.awaitedSlots) (.commandComplete tag)).queueReady .idle, x.2)).port_eq
  exact hslots.trans (queue_unsent _ .proxy _)

/-- The end of an answer does not end the session. -/
theorem finishSingle_closed (c : ConnId) (x : Conf) : (finishSingle c x).1.closed = x.1.closed := by
  rcases finishSingle_case c x with ⟨status, u, hquiet, heq⟩
  rw [heq]
  exact hquiet.closed

theorem drainSingle_closed (c : ConnId) (command : Command) (input : BackendInput) (x : Conf) :
    (drainSingle c command input x).1.closed = x.1.closed := by
  have hcase := drainSingle_case c command input x
  generalize drainSingle c command input x = y at hcase ⊢
  cases hcase with
  | finished t u b status hquiet hreport => exact hreport.closed.trans hquiet.closed
  | copyIn t hquiet hconn => exact hquiet.closed
  | copyOut t u hquiet hconn hcopy hkept => exact hcopy.closed.trans hquiet.closed
  | copyEnded t u v b status hquiet hcopy hreport hstop hend =>
      exact hreport.closed.trans (hcopy.closed.trans hquiet.closed)

/-- A query does not end the session by itself. -/
theorem handleQuery_closed {sql : Text} {r : Conf × Bool}
    (h : handleQuery cfg sql input x = some r) : r.1.1.closed = x.1.closed := by
  have hcase := handleQuery_case h
  cases hcase with
  | refused t b severity code message hquiet => exact hquiet.closed
  | answered b tag => rfl
  | sent t b c sql hquiet hconn hcommand => exact hquiet.closed
  | scattered sql targets input b => exact executeScatter_closed sql targets input _

theorem processInput_closed {r : Conf × Bool} (h : processInput cfg input x = some r) :
    r.1.1.closed = x.1.closed := by
  cases processInput_case h with
  | ret s ok hloop => exact (Intakes.sameScatter hloop).closed
  | query t n sql r hloop hstate hexit hquery =>
      exact (handleQuery_closed hquery).trans (Intakes.sameScatter hloop).closed

/-- The end of an event of the client's socket. -/
theorem afterInput_closed {flush : SendOutcome} {ok : Bool} (h : x.1.closed = false) :
    (afterInput flush (x, ok)).1.closed = (!ok || x.1.unsent && flush = .failed) := by
  cases ok with
  | false => exact (sessionDestroy_ended x).closed
  | true =>
      unfold afterInput
      dsimp only
      cases hunsent : x.1.unsent with
      | false => simpa using h
      | true => rw [if_pos rfl, flushOrDestroy_closed, h, hunsent, Bool.false_or, Bool.not_true,
          Bool.false_or]

/-- An event of the client's socket. -/
theorem onClient_closed (h : onClient cfg input x = some y) (hopen : x.1.closed = false) :
    y.1.closed = input.ends cfg x := by
  unfold ClientInput.ends
  cases onClient_call h with
  | hangup hhangup => rw [hhangup, Bool.true_or, (sessionDestroy_ended x).closed]
  | flush hhangup hcallback => simp [hhangup, hcallback, flushOrDestroy_closed, hopen]
  | lost hhangup hcallback hrecv =>
      rw [(sessionDestroy_ended x).closed]
      rcases hrecv with hrecv | hrecv <;> simp [hcallback, hrecv]
  | again hhangup hcallback hrecv => simp [hhangup, hcallback, hrecv, hopen]
  | received bytes r hhangup hcallback hrecv hprocess =>
      rcases r with ⟨z, ok⟩
      have hz : z.1.closed = false := (processInput_closed hprocess).trans hopen
      rcases processInput_fate hprocess with ⟨hrefused, hunsent⟩
      rw [hhangup, hcallback, hrecv]
      dsimp only
      rw [afterInput_closed hz, Bool.false_or]
      have hsame : answersQuery cfg input _ (x.1.receive bytes, x.2) =
          answersQuery cfg input ((x.1.receive bytes).readFrom input.puts 0).sql x :=
        answersQuery_congr _ cfg input ⟨rfl, rfl, rfl, rfl⟩
      rw [hsame] at hunsent
      have hconn : (x.1.receive bytes).backendConn = x.1.backendConn := rfl
      rw [hconn] at hrefused
      cases ok with
      | false =>
          rcases hrefused.mp rfl with hbad | ⟨hasks, hwide⟩
          · simp [hbad]
          · simp [hasks, hwide]
      | true =>
          rcases not_or.mp (mt hrefused.mpr (by simp)) with ⟨hgood, hfits⟩
          have hquery : (decide ((x.1.receive bytes).readFrom input.puts 0).Asks &&
              tooWide cfg ((x.1.receive bytes).readFrom input.puts 0).sql) = false := by
            simpa using hfits
          rw [hunsent rfl, decide_eq_false hgood, hquery]
          rfl

/-- An event of the single backend. -/
theorem sessionOnBackendReadable_closed (input : BackendInput) (flush : SendOutcome)
    (hopen : x.1.closed = false) :
    (sessionOnBackendReadable input flush x).1.closed = input.endsSingle flush x := by
  have hcall := sessionOnBackendReadable_call input flush x
  generalize sessionOnBackendReadable input flush x = y at hcall ⊢
  unfold BackendInput.endsSingle
  cases hcall with
  | hangup hhangup => rw [hhangup, Bool.true_or, (backendLost_ended _ flush x).closed]
  | unbound hhangup hconn => simp [hhangup, hconn, hopen]
  | failed c status hhangup hconn hfails =>
      rw [(backendLost_ended _ flush (x.1, _)).closed]
      simp [hconn, hfails]
  | quiet c hhangup hconn hfails hcommand =>
      rw [flushOrDestroy_closed, finishSingle_unsent, finishSingle_closed, hopen]
      simp [hhangup, hconn, hfails, hcommand]
  | waiting c command hhangup hconn hfails hcommand hbusy =>
      simp [hhangup, hconn, hfails, hcommand, hbusy, hopen]
  | drain c command hhangup hconn hfails hcommand hbusy =>
      rw [flushOrDestroy_closed, drainSingle_unsent, drainSingle_closed, hopen]
      simp [hhangup, hconn, hfails, hbusy]

/-- The completion of a scattered query. -/
theorem checkComplete_closed (flush : SendOutcome) (hopen : x.1.closed = false) :
    (checkComplete flush x).1.closed =
      (flush = .failed && x.1.scatterCount ≤ x.1.scatterDone) := by
  rcases checkComplete_case flush x with ⟨hless, hsame⟩ | ⟨hdone, tag, heq⟩
  · rw [hsame, hopen]
    simp
    omega
  · rw [heq, flushOrDestroy_closed, gathered_unsent, (gathered_gathered tag x).closed, hopen]
    simp [hdone]

/-- An event of a scatter slot. -/
theorem sessionOnScatterReadable_closed {i : Fin maxScatterShards} {input : BackendInput}
    {flush : SendOutcome} (h : sessionOnScatterReadable i input flush x = some y)
    (hopen : x.1.closed = false) : y.1.closed = input.endsScatter i flush x := by
  have hcheck : ∀ (s : Session) b, s.closed = x.1.closed → s.scatterCount = x.1.scatterCount →
      s.scatterDone = x.1.scatterDone → (checkComplete flush (markDone i s, b)).1.closed =
        (flush = .failed && x.1.scatterCount ≤ x.1.scatterDone + 1) := by
    intro s b hclosed hcount hdone
    have hmark : (markDone i s).closed = false := hclosed.trans hopen
    rw [checkComplete_closed flush hmark, ← hcount, ← hdone]
    rfl
  unfold BackendInput.endsScatter
  cases sessionOnScatterReadable_call h with
  | hangup hhangup =>
      rw [hcheck x.1 _ rfl rfl rfl]
      simp [hhangup]
  | gone hhangup hconn => simp [hhangup, hconn, hopen]
  | failed c status hhangup hconn hfails =>
      rw [hcheck x.1 _ rfl rfl rfl]
      simp [hconn, hfails]
  | again c hhangup hconn hfails hcommand =>
      rw [hcheck x.1 _ rfl rfl rfl]
      simp [hconn, hcommand]
  | waiting c command hhangup hconn hfails hcommand hbusy =>
      simp [hhangup, hconn, hfails, hcommand, hbusy, hopen]
  | drained c command z hhangup hconn hfails hcommand hbusy hdrain =>
      rcases Option.map_eq_some_iff.mp hdrain with ⟨r, -, rfl⟩
      rw [hcheck { x.1.queueAll (.result c command) r.1 with scatterHeaderSent := r.2 }
        (x.2.endCommand c input.xact) rfl rfl rfl]
      simp [hconn, hbusy]

/-- A step ends the session of its event exactly if the event ends it. -/
theorem step_closed (h : step cfg p e = some p') (hsession : e.session = some sid) :
    (p'.sessions sid).closed = e.ends cfg p := by
  cases e with
  | client t input =>
      cases hsession
      rcases Proxy.call_eq_some h with ⟨halive, y, hy, rfl⟩
      rw [Proxy.put_session]
      exact onClient_closed hy halive.2
  | backend t input flush =>
      cases hsession
      rcases Proxy.call_eq_some h with ⟨halive, y, hy, rfl⟩
      cases hy
      rw [Proxy.put_session]
      exact sessionOnBackendReadable_closed input flush halive.2
  | scatter t i input flush =>
      cases hsession
      simp only [step] at h
      split at h
      · rcases Proxy.call_eq_some h with ⟨halive, y, hy, rfl⟩
        rw [Proxy.put_session]
        exact sessionOnScatterReadable_closed hy halive.2
      · cases h
  | accept pid secretKey => cases hsession
  | healthCheck => cases hsession
  | connLost c => cases hsession

/-- A step changes no session but the one its event is for, which is there. -/
theorem step_keeps {t : Nat} (h : step cfg p e = some p') (ht : t < p.created) :
    (e.session = some t ∧ p.alive t) ∨ p'.sessions t = p.sessions t := by
  have hput : ∀ sid y, e.session = some sid → p.alive sid →
      (e.session = some t ∧ p.alive t) ∨ (p.put sid y).sessions t = p.sessions t := by
    intro sid y hsession halive
    by_cases hsame : t = sid
    · subst hsame
      exact Or.inl ⟨hsession, halive⟩
    · exact Or.inr (Proxy.put_other hsame)
  cases e with
  | client sid input =>
      rcases Proxy.call_eq_some h with ⟨halive, y, -, rfl⟩
      exact hput sid y rfl halive
  | backend sid input flush =>
      rcases Proxy.call_eq_some h with ⟨halive, y, -, rfl⟩
      exact hput sid y rfl halive
  | scatter sid i input flush =>
      simp only [step] at h
      split at h
      · rcases Proxy.call_eq_some h with ⟨halive, y, -, rfl⟩
        exact hput sid y rfl halive
      · cases h
  | accept pid secretKey =>
      cases h
      exact Or.inr (Proxy.accept_other (Nat.ne_of_lt ht) pid secretKey)
  | healthCheck =>
      cases h
      exact Or.inr rfl
  | connLost c =>
      cases h
      exact Or.inr rfl

/-- No step takes a session number back. -/
theorem step_created_le (h : step cfg p e = some p') : p.created ≤ p'.created := by
  cases e with
  | client t input =>
      rcases Proxy.call_eq_some h with ⟨-, y, -, rfl⟩
      exact Nat.le_refl _
  | backend t input flush =>
      rcases Proxy.call_eq_some h with ⟨-, y, -, rfl⟩
      exact Nat.le_refl _
  | scatter t i input flush =>
      simp only [step] at h
      split at h
      · rcases Proxy.call_eq_some h with ⟨-, y, -, rfl⟩
        exact Nat.le_refl _
      · cases h
  | accept pid secretKey =>
      cases h
      exact Nat.le_succ _
  | healthCheck =>
      cases h
      exact Nat.le_refl _
  | connLost c =>
      cases h
      exact Nat.le_refl _

/-- A step leaves the other sessions alone. -/
theorem step_other {t : Nat} (h : step cfg p e = some p') (hother : e.session ≠ some t)
    (halive : p.alive t) : p'.alive t := by
  refine ⟨Nat.lt_of_lt_of_le halive.1 (step_created_le h), ?_⟩
  rcases step_keeps h halive.1 with ⟨hsession, -⟩ | hsame
  · exact absurd hsession hother
  · rw [hsame]
    exact halive.2

/-! ## Whole batches -/

/-- Every callback called for a batch belongs to a session that is there. -/
def AllLive (cfg : Config) (es : List Event) (p : Proxy) : Prop :=
  ∀ d ∈ invocations cfg es p, d.2 = true

theorem allLive_cons :
    AllLive cfg (e :: es) p ↔ e.live p ∧ ∀ p', step cfg p e = some p' → AllLive cfg es p' := by
  unfold AllLive
  rw [invocations]
  by_cases hlive : e.live p
  · rw [if_pos hlive]
    cases hstep : step cfg p e with
    | none => simp [hlive]
    | some p' => simp [hlive]
  · rw [if_neg hlive]
    simp [hlive]

/-- A destroyed session. -/
def Proxy.dead (p : Proxy) (sid : Nat) : Prop :=
  sid < p.created ∧ (p.sessions sid).closed = true

theorem Proxy.dead.not_alive (h : p.dead sid) : ¬ p.alive sid := by
  intro halive
  have hopen := halive.2
  rw [h.2] at hopen
  cases hopen

/-- A destroyed session stays so. -/
theorem step_dead (h : step cfg p e = some p') (hdead : p.dead sid) :
    p'.dead sid := by
  refine ⟨Nat.lt_of_lt_of_le hdead.1 (step_created_le h), ?_⟩
  rcases step_keeps h hdead.1 with ⟨-, halive⟩ | hsame
  · exact absurd halive hdead.not_alive
  · rw [hsame]
    exact hdead.2

/-- If every call is for a session that is there, none is for a destroyed session. -/
theorem session_ne_of_dead (hlive : AllLive cfg es p) (hdead : p.dead sid) :
    ∀ d ∈ dispatched cfg es p, d.2.session ≠ some sid := by
  induction es generalizing p with
  | nil => simp [dispatched]
  | cons e es ih =>
      rcases allLive_cons.mp hlive with ⟨he, hrest⟩
      rw [dispatched]
      refine List.forall_mem_cons.mpr ⟨fun hsession => hdead.not_alive (he sid hsession), ?_⟩
      cases hstep : step cfg p e with
      | none => simp
      | some p' => exact ih (hrest p' hstep) (step_dead hstep hdead)

/-- An event of no session ends none. -/
theorem Event.session_of_ends (h : e.ends cfg p = true) :
    ∃ sid, e.session = some sid := by
  cases e with
  | client sid input => exact ⟨sid, rfl⟩
  | backend sid input flush => exact ⟨sid, rfl⟩
  | scatter sid i input flush => exact ⟨sid, rfl⟩
  | accept pid secretKey => cases h
  | healthCheck => cases h
  | connLost c => cases h

/-- If all events are live, what ends a session is its last event. -/
theorem endsLast_of_allLive (hlive : AllLive cfg es p) :
    EndsLast cfg es p := by
  induction es generalizing p with
  | nil => exact List.Pairwise.nil
  | cons e es ih =>
      rcases allLive_cons.mp hlive with ⟨he, hrest⟩
      unfold EndsLast
      rw [dispatched]
      cases hstep : step cfg p e with
      | none => simp
      | some p' =>
          refine List.Pairwise.cons (fun d hd hends => ?_) (ih (hrest p' hstep))
          rcases Event.session_of_ends hends with ⟨sid, hsession⟩
          have hdead : p'.dead sid :=
            ⟨Nat.lt_of_lt_of_le (he sid hsession).1 (step_created_le hstep),
              (step_closed hstep hsession).trans hends⟩
          rw [hsession]
          exact session_ne_of_dead (hrest p' hstep) hdead d hd

/-- The converse.  A session that the events are for is there, or none of those that are still
dispatched is for it: that is what the batch keeps from one call to the next. -/
theorem allLive_of_endsLast (hlast : EndsLast cfg es p)
    (hlive : ∀ e ∈ es, ∀ sid ∈ e.session,
      p.alive sid ∨ ∀ d ∈ dispatched cfg es p, d.2.session ≠ some sid) :
    AllLive cfg es p := by
  induction es generalizing p with
  | nil =>
      intro d hd
      cases hd
  | cons e es ih =>
      refine allLive_cons.mpr ⟨fun sid hsession => ?_, fun p' hstep => ?_⟩
      · rcases hlive e List.mem_cons_self sid hsession with halive | hnot
        · exact halive
        · exact absurd hsession (hnot (p, e) List.mem_cons_self)
      · have hcons : dispatched cfg (e :: es) p = (p, e) :: dispatched cfg es p' := by
          rw [dispatched, hstep]
        rw [EndsLast, hcons] at hlast
        rw [hcons] at hlive
        rcases List.pairwise_cons.mp hlast with ⟨hends, hlast⟩
        refine ih hlast fun e' he' sid hsession => ?_
        rcases hlive e' (List.mem_cons_of_mem e he') sid hsession with halive | hnot
        · by_cases hsame : e.session = some sid
          · cases hend : e.ends cfg p with
            | true => exact Or.inr fun d hd => hsame ▸ hends d hd hend
            | false =>
                exact Or.inl ⟨Nat.lt_of_lt_of_le halive.1 (step_created_le hstep),
                  (step_closed hstep hsame).trans hend⟩
          · exact Or.inl (step_other hstep hsame halive)
        · exact Or.inr (List.forall_mem_cons.mp hnot).2

/-- For a batch fetched for sessions that are there, the loop calls no handler of a destroyed
session if and only if an event that ends its session is the last one of that session. -/
theorem no_dead_dispatch_iff (cfg : Config) (batch : List Event) (p : Proxy)
    (hfetched : ∀ e ∈ batch, e.live p) :
    (∀ d ∈ invocations cfg batch p, d.2 = true) ↔ EndsLast cfg batch p := by
  constructor
  · exact endsLast_of_allLive
  · intro hlast
    exact allLive_of_endsLast hlast fun e he sid hsession => Or.inl (hfetched e he sid hsession)

/-- Two clients, the first of which hangs up behind the answer of its backend. -/
def hangupBehindAnswer : List Event :=
  [.backend 0 { results := [{ status := .commandOk }] } .all, .client 0 { hangup := true },
    demoQuery 1 (ascii "DELETE FROM t WHERE id = 1")]

theorem hangup_behind_answer :
    ∃ p, ProxyReaches demoConfig anyEvent p ∧ (∀ e ∈ hangupBehindAnswer, e.live p) ∧
      hangupBehindAnswer.any (fun e => e.ends demoConfig p) = true ∧
      EndsLast demoConfig hangupBehindAnswer p := by
  have hrun : runsTo (step demoConfig) anyEvent
      (demoLogin 0 ++ demoLogin 1 ++ [demoQuery 0 (ascii "DELETE FROM t WHERE id = 1")])
      (Proxy.start demoConfig)
      (fun p => (∀ e ∈ hangupBehindAnswer, e.live p) ∧
        hangupBehindAnswer.any (fun e => e.ends demoConfig p) = true ∧
        ∀ d ∈ invocations demoConfig hangupBehindAnswer p, d.2 = true) = true := by
    decide +kernel
  rcases exists_reached hrun with ⟨p, hp, hfetched, hends, hall⟩
  exact ⟨p, hp, hfetched, hends, (no_dead_dispatch_iff demoConfig _ p hfetched).mp hall⟩

/-- A client hangs up while its backend answers, and the two events are fetched together: the
backend's handler is called after the session was destroyed. -/
theorem backend_called_after_hangup :
    ∃ p, ProxyReaches demoConfig anyEvent p ∧ ∃ batch : List Event,
      (∀ e ∈ batch, e.live p) ∧ ∃ d ∈ invocations demoConfig batch p, d.2 = false := by
  have hrun : runsTo (step demoConfig) anyEvent
      (demoLogin 0 ++ [demoQuery 0 (ascii "DELETE FROM t WHERE id = 1")])
      (Proxy.start demoConfig)
      (fun p => (∀ e ∈ [Event.client 0 { hangup := true },
          .backend 0 { results := [{ status := .commandOk }] } .all], e.live p) ∧
        ∃ d ∈ invocations demoConfig [Event.client 0 { hangup := true },
          .backend 0 { results := [{ status := .commandOk }] } .all] p, d.2 = false) = true := by
    decide +kernel
  rcases exists_reached hrun with ⟨p, hp, htest⟩
  exact ⟨p, hp, _, htest⟩

end Sharegres
