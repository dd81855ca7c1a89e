import Sharegres.Protocol.MultiStatement
import Sharegres.System.PoolAccounting
import Sharegres.System.ScatterStart

/-!
# System - A scattered query from its message to its answer

A client sends a query whose route is a scatter, every target gets it, and the targets answer in
any order.  Between the answers other clients come and go, send queries and use the same pools,
the health check runs and connections break.  Whatever the order is, the client gets the messages
for the results of all targets in the order of their arrival, then one tag and one
ReadyForQuery.

Main results:

- Theorem {lit}`step_others`: the events of other sessions leave a session and the commands on its
  connections alone.
- Definition {lit}`Answering`: the runs in which the targets of a query answer.
- Theorem {lit}`Answering.progress`: what the client has got in the course of such a run.
- Theorem {lit}`scattered_query_answered`: a scattered query is answered, from the message on.
-/

namespace Sharegres

open Foundation

variable {input : BackendInput} {x y : Conf} {e : Event} {i : Fin maxScatterShards}
  {conns : List ConnId} {decision : RouteDecision} {flush : SendOutcome} {cfg : Config}
  {p p' : Proxy} {sid : Nat}

/-! ## Other sessions -/

/-- Operations take nothing back from the log of leases. -/
theorem Ops.log_suffix {leaky : Prop} {places : Set Place} {x y : Account × Backends}
    (h : Ops leaky places x y) : x.2.log <:+ y.2.log := by
  induction h with
  | refl => exact List.suffix_rfl
  | tail _ hlast ih =>
      rcases hlast with ⟨q, -, hop⟩
      refine ih.trans ?_
      cases hop <;> first | exact List.suffix_rfl | exact List.suffix_cons _ _

/-- A handler of a session that is alive is called. -/
theorem Proxy.call_alive (halive : p.alive sid) {callback : Conf → Option Conf}
    (h : callback (p.conf sid) = some y) : p.call sid callback = some (p.put sid y) := by
  rw [call, if_pos halive, h, Option.map_some]

/-- Operations of another session. -/
theorem put_others {t : Nat} (hinv : p.Owned) (ht : sid ≠ t)
    (hops : Ops True Set.univ (view (p.conf t)) (view y)) :
    (p.put t y).sessions sid = p.sessions sid ∧ p.backends.log <:+ (p.put t y).backends.log ∧
      ∀ q h, (p.sessions sid).held q = some h →
        ((p.put t y).backends.conns h.conn).command = (p.backends.conns h.conn).command := by
  rcases hinv with ⟨own, hinv⟩
  refine ⟨Proxy.put_other ht, hops.log_suffix, fun q h hheld => ?_⟩
  have hacct : p.accounts t = (view (p.conf t)).1 := rfl
  rcases hops.frame hacct hinv (fun hsame => ht hsame.1) hheld with ⟨-, hconns⟩
  exact congrArg PGconn.command hconns

/-- The events that are not of a session leave it alone, and the commands on its connections. -/
theorem step_others (hinv : p.Owned) (hsid : sid < p.created) (he : e.session ≠ some sid)
    (hstep : step cfg p e = some p') :
    sid < p'.created ∧ p'.sessions sid = p.sessions sid ∧ p.backends.log <:+ p'.backends.log ∧
      ∀ q h, (p.sessions sid).held q = some h →
        (p'.backends.conns h.conn).command = (p.backends.conns h.conn).command := by
  cases step_case hstep with
  | accept pid secretKey =>
      exact ⟨Nat.lt_succ_of_lt hsid, Proxy.accept_other (Nat.ne_of_lt hsid) pid secretKey,
        List.suffix_rfl, fun _ _ _ => rfl⟩
  | client t input y halive hcase =>
      have ht : sid ≠ t := fun heq => he (by rw [heq]; rfl)
      exact ⟨hsid, put_others hinv ht (hcase.ops (Or.inl trivial))⟩
  | backend t input flush y halive hcase =>
      have ht : sid ≠ t := fun heq => he (by rw [heq]; rfl)
      exact ⟨hsid, put_others hinv ht hcase.ops⟩
  | scatter t i input flush y halive hcase =>
      have ht : sid ≠ t := fun heq => he (by rw [heq]; rfl)
      exact ⟨hsid, put_others hinv ht hcase.ops⟩
  | healthCheck =>
      exact ⟨hsid, rfl, (healthCheckAll_log _ p.backends).symm ▸ List.suffix_rfl,
        fun _ _ _ => healthCheckAll_command _ _ _⟩
  | connLost c =>
      exact ⟨hsid, rfl, List.suffix_rfl, fun _ _ _ => Backends.command_setStatus c _ .bad⟩

/-! ## Giving back the connections of the targets -/

theorem connPoolRelease_log (b : Backends) (i session : Nat) (c : ConnId) :
    (b.connPoolRelease i session c).log = .giveBack c ⟨session, i⟩ :: b.log := by
  rcases b.connPoolRelease_cases i session c with hclosed | ⟨-, hkept⟩
  · rw [hclosed]
    rfl
  · rw [hkept]
    rfl

/-- Every slot gives back the connection that it holds. -/
theorem releaseSlots_log {targets : List (Fin maxScatterShards × Shard)}
    (hslots : (targets.map Prod.fst).Nodup)
    (h : List.Forall₂ (fun t c => x.1.held (.slot t.1) = some ⟨c, some t.2.index⟩) targets conns) :
    ((targets.map Prod.fst).foldl releaseSlot x).2.log =
      (leaseOps .giveBack x.1.id (targets.map Prod.snd) conns).reverse ++ x.2.log := by
  induction targets generalizing x conns with
  | nil =>
      cases h
      rfl
  | cons t targets ih =>
      rcases List.forall₂_cons_left_iff.mp h with ⟨c, conns, hheld, hrest, rfl⟩
      rw [List.map_cons, List.nodup_cons] at hslots
      have hrelease : releaseSlot x t.1 =
          ((x.1.noteOver (.slot t.1)).setSlot t.1 { x.1.scatter t.1 with conn := none },
            x.2.connPoolRelease t.2.index x.1.id c) := by
        unfold releaseSlot
        rw [hheld]
        rfl
      -- the other slots hold what they held
      have hothers : List.Forall₂ (fun t' c => (releaseSlot x t.1).1.held (.slot t'.1) =
          some ⟨c, some t'.2.index⟩) targets conns := by
        have hne : ∀ t' ∈ targets, t'.1 ≠ t.1 := by
          intro t' ht' heq
          exact hslots.1 (heq ▸ List.mem_map_of_mem ht')
        refine ((List.forall₂_and_left _ _).mpr ⟨hne, hrest⟩).imp fun t' c' h' => ?_
        rw [hrelease]
        exact (congrArg ScatterConn.hold (Function.update_of_ne h'.1 ..)).trans h'.2
      rw [List.map_cons, List.foldl_cons, ih hslots.2 hothers, hrelease, connPoolRelease_log,
        List.map_cons, leaseOps, leaseOps, List.zipWith_cons_cons, List.reverse_cons,
        List.append_assoc]
      rfl

/-- So do the slots of a query that is over. -/
theorem gathered_log (tag : Text) {targets : List Shard}
    (hcount : x.1.scatterCount = targets.length) (hsize : targets.length ≤ maxScatterShards)
    (h : List.Forall₂ (fun t c => x.1.held (.slot t.1) = some ⟨c, some t.2.index⟩)
      ((List.finRange maxScatterShards).zip targets) conns) :
    (gathered tag x).2.log = (leaseOps .giveBack x.1.id targets conns).reverse ++ x.2.log := by
  have hlog := releaseSlots_log (x := ((x.1.queue (.gather x.1.awaitedSlots)
    (.commandComplete tag)).queueReady .idle, x.2)) (scatterTargets_nodup targets) h
  rw [map_fst_zip_eq_take, ← hcount,
    List.map_snd_zip (by rw [List.length_finRange]; exact hsize)] at hlog
  exact hlog

/-! ## Runs in which the targets answer -/

/-- The messages queued to a client. -/
def Session.messages (s : Session) : List BackendMsg :=
  s.out.map Queued.msg

/-- The answers of targets, each with its slot, in the order of their arrival. -/
abbrev Answers := List (Fin maxScatterShards × List PGresult)

/-- All results of the answers. -/
def Answers.results (answers : Answers) : List PGresult :=
  answers.flatMap Prod.snd

/-- Runs from a state in which targets of a session's query answer, each at most once.  A target
may be readable before its answer is complete, and all events of other sessions, of the timer
and of the backends may happen in between. -/
inductive Answering (cfg : Config) (sid : Nat) (start : Proxy) : Answers → Proxy → Prop where
  | refl : Answering cfg sid start [] start
  | other {answers : Answers} {p p' : Proxy} (h : Answering cfg sid start answers p) {e : Event}
      (he : e.session ≠ some sid) (hstep : step cfg p e = some p') :
      Answering cfg sid start answers p'
  | waits {answers : Answers} {p p' : Proxy} (h : Answering cfg sid start answers p)
      {i : Fin maxScatterShards} {input : BackendInput} {flush : SendOutcome}
      (hslot : i.val < (p.sessions sid).scatterCount) (hfirst : i ∉ answers.map Prod.fst)
      (hhangup : input.hangup = false) (hfails : input.consumeFails = none)
      (hbusy : input.busy = true) (hstep : step cfg p (.scatter sid i input flush) = some p') :
      Answering cfg sid start answers p'
  | answer {answers : Answers} {p p' : Proxy} (h : Answering cfg sid start answers p)
      {i : Fin maxScatterShards} {input : BackendInput} {flush : SendOutcome}
      (hslot : i.val < (p.sessions sid).scatterCount) (hfirst : i ∉ answers.map Prod.fst)
      (hhangup : input.hangup = false) (hfails : input.consumeFails = none)
      (hbusy : input.busy = false) (hflush : flush ≠ .failed)
      (hstep : step cfg p (.scatter sid i input flush) = some p') :
      Answering cfg sid start (answers ++ [(i, input.results)]) p'

/-- A query that was sent to its targets, with the connections it was sent on and the log of
leases after that. -/
structure Scattered where
  sql : Text
  targets : List Shard
  conns : List ConnId
  log : List (LeaseOp ConnId Lessee)

/-- The targets with their slots. -/
def Scattered.slots (q : Scattered) : List (Fin maxScatterShards × Shard) :=
  (List.finRange maxScatterShards).zip q.targets

/-- A session gathers the answers to its query. -/
structure GathersAnswers (q : Scattered) (answers : Answers) (msgs : List BackendMsg)
    (header : Bool) (s : Session) : Prop where
  isOpen : s.closed = false
  state : s.state = .scatter
  count : s.scatterCount = q.targets.length
  done : s.scatterDone = answers.length
  header : s.scatterHeaderSent = header
  messages : s.messages = msgs

/-- A slot holds the connection its target was asked on, and the query is in progress there unless
the target has answered. -/
structure Occupied (x : Conf) (sql : Text) (answers : Answers)
    (target : Fin maxScatterShards × Shard) (c : ConnId) : Prop where
  held : x.1.held (.slot target.1) = some ⟨c, some target.2.index⟩
  awaits : target.1 ∉ answers.map Prod.fst → Awaits x sql target c

/-- A query is under way: some targets have answered, and the others hold it. -/
structure UnderWay (sid : Nat) (q : Scattered) (answers : Answers) (msgs : List BackendMsg)
    (header : Bool) (p : Proxy) : Prop where
  created : sid < p.created
  session : GathersAnswers q answers msgs header (p.sessions sid)
  size : q.targets.length ≤ maxScatterShards
  fewer : answers.length < q.targets.length
  slots : List.Forall₂ (Occupied (p.conf sid) q.sql answers) q.slots q.conns
  log : q.log <:+ p.backends.log

/-- The tag of a scattered query. -/
def scatterTag (header : Bool) : Text :=
  if header then ascii "SELECT" else ascii "SELECT 0"

/-- A query is over: the tag and ReadyForQuery were queued, the slots are empty, and since the
query was sent each of its connections has been given back to the pool of its target. -/
structure Over (sid : Nat) (q : Scattered) (msgs : List BackendMsg) (header : Bool) (p : Proxy) :
    Prop where
  isOpen : (p.sessions sid).closed = false
  state : (p.sessions sid).state = .ready
  count : (p.sessions sid).scatterCount = 0
  messages : (p.sessions sid).messages =
    msgs ++ [.commandComplete (scatterTag header), .readyForQuery .idle]
  slots : ∀ i : Fin maxScatterShards, i.val < q.targets.length →
    ((p.sessions sid).scatter i).conn = none
  returned : ∃ log, q.log <:+ log ∧
    (leaseOps .giveBack sid q.targets q.conns).reverse ++ log <:+ p.backends.log

/-! ## Results -/

/-- The messages for two series of results. -/
theorem scatterMessages_append {headerSent : Bool} {results more : List PGresult}
    {r r' : List BackendMsg × Bool} (h : scatterMessages headerSent results = some r)
    (h' : scatterMessages r.2 more = some r') :
    scatterMessages headerSent (results ++ more) = some (r.1 ++ r'.1, r'.2) := by
  induction results generalizing headerSent r with
  | nil =>
      cases h
      exact h'
  | cons res results ih =>
      cases hcopy : res.startsCopy with
      | true =>
          rw [scatterMessages_copy hcopy] at h
          cases h
      | false =>
          rw [scatterMessages_cons hcopy] at h
          rw [List.cons_append, scatterMessages_cons hcopy]
          rcases Option.map_eq_some_iff.mp h with ⟨rest, hrest, rfl⟩
          rw [ih hrest h', Option.map_some, List.append_assoc]

theorem Answers.results_snoc (answers : Answers) (i : Fin maxScatterShards)
    (results : List PGresult) :
    Answers.results (answers ++ [(i, results)]) = answers.results ++ results := by
  simp [Answers.results]

/-! ## The events of a run -/

section Events

variable {q : Scattered} {sql : Text} {answers : Answers} {msgs : List BackendMsg} {header : Bool}

/-- A slot of the query that has not answered holds the query. -/
theorem UnderWay.slot (h : UnderWay sid q answers msgs header p) (hslot : i.val < q.targets.length)
    (hfirst : i ∉ answers.map Prod.fst) : ∃ shard c, Awaits (p.conf sid) q.sql (i, shard) c := by
  have hlength : i.val < q.slots.length := by
    rw [Scattered.slots, List.length_zip, List.length_finRange]
    exact lt_min i.isLt hslot
  have hoccupied := h.slots.get hlength (h.slots.length_eq ▸ hlength)
  have htarget : q.slots.get ⟨i.val, hlength⟩ = (i, q.targets[i.val]) := by
    simp [Scattered.slots]
  rw [htarget] at hoccupied
  exact ⟨_, _, hoccupied.awaits hfirst⟩

/-- An event of other sessions. -/
theorem UnderWay.other (h : UnderWay sid q answers msgs header p) (hinv : p.Owned)
    (he : e.session ≠ some sid) (hstep : step cfg p e = some p') :
    UnderWay sid q answers msgs header p' := by
  rcases step_others hinv h.created he hstep with ⟨hcreated, hsession, hlog, hcommands⟩
  have hsame : (p'.conf sid).1 = (p.conf sid).1 := hsession
  refine ⟨hcreated, by rw [hsession]; exact h.session, h.size, h.fewer, ?_, h.log.trans hlog⟩
  refine h.slots.imp fun t c hoccupied => ⟨by rw [hsame]; exact hoccupied.held, fun hfirst => ?_⟩
  have hawaits := hoccupied.awaits hfirst
  refine ⟨by rw [hsame]; exact hawaits.slot, ?_⟩
  rw [hsame]
  exact (hcommands _ _ hoccupied.held).trans hawaits.command

/-- A target that is awaited is not done yet, or its answer is read. -/
theorem Awaits.readable {target : Fin maxScatterShards × Shard} {c : ConnId}
    (h : Awaits x sql target c) (flush : SendOutcome) (hhangup : input.hangup = false)
    (hfails : input.consumeFails = none) :
    sessionOnScatterReadable target.1 input flush x = if input.busy then some x
      else (scatterMessages x.1.scatterHeaderSent input.results).map fun r =>
        checkComplete flush (afterLoop target.1 c ⟨x.1.id, sql⟩ input x r) := by
  unfold sessionOnScatterReadable
  rw [hhangup, if_neg (by simp), h.slot]
  dsimp only
  rw [hfails]
  dsimp only
  rw [h.command]
  dsimp only
  rw [drainSlot, Option.map_map]
  rfl

/-- An event of a slot is a call of its callback. -/
theorem step_slot (hstep : step cfg p (.scatter sid i input flush) = some p') :
    ∃ y, sessionOnScatterReadable i input flush (p.conf sid) = some y ∧ p' = p.put sid y := by
  simp only [step] at hstep
  split at hstep
  · rcases Proxy.call_eq_some hstep with ⟨-, y, hy, rfl⟩
    exact ⟨y, hy, rfl⟩
  · cases hstep

/-- A query that is over stays so. -/
theorem Over.other (h : Over sid q msgs header p) (hinv : p.Owned) (hcreated : sid < p.created)
    (he : e.session ≠ some sid) (hstep : step cfg p e = some p') :
    Over sid q msgs header p' := by
  rcases step_others hinv hcreated he hstep with ⟨-, hsession, hlog, -⟩
  rcases h with ⟨hopen, hstate, hcount, hmessages, hslots, log, hbefore, hreturned⟩
  rw [← hsession] at hopen hstate hcount hmessages hslots
  exact ⟨hopen, hstate, hcount, hmessages, hslots, log, hbefore, hreturned.trans hlog⟩

/-- A target that is not done yet changes nothing. -/
theorem UnderWay.waits (h : UnderWay sid q answers msgs header p) (hslot : i.val < q.targets.length)
    (hfirst : i ∉ answers.map Prod.fst) (hhangup : input.hangup = false)
    (hfails : input.consumeFails = none) (hbusy : input.busy = true)
    (hstep : step cfg p (.scatter sid i input flush) = some p') :
    p' = p := by
  rcases step_slot hstep with ⟨y, hy, rfl⟩
  rcases h.slot hslot hfirst with ⟨shard, c, hawaits⟩
  rw [hawaits.readable flush hhangup hfails, hbusy, if_pos rfl] at hy
  cases hy
  rw [Proxy.put, Proxy.conf, Function.update_eq_self]

/-- An answer leaves the connections in their slots, and the query in progress on those of the
other targets. -/
theorem Occupied.afterLoop (hinv : p.Owned) {c : ConnId} {pool : Option Nat}
    (hheld : (p.sessions sid).held (.slot i) = some ⟨c, pool⟩) (command : Command)
    (input : BackendInput) (r : List BackendMsg × Bool) {target : Fin maxScatterShards × Shard}
    {d : ConnId} (h : Occupied (p.conf sid) sql answers target d) :
    Occupied (afterLoop i c command input (p.conf sid) r) sql (answers ++ [(i, input.results)])
      target d := by
  constructor
  · -- the answer is noted in the slot, which keeps its connection
    have hslot := h.held
    rw [Session.held] at hslot ⊢
    by_cases htarget : target.1 = i
    · have hdone : (Sharegres.afterLoop i c command input (p.conf sid) r).1.scatter i =
          { (p.sessions sid).scatter i with done := true } := Function.update_self ..
      rw [htarget] at hslot ⊢
      rw [hdone]
      exact hslot
    · exact (congrArg ScatterConn.hold (Function.update_of_ne htarget ..)).trans hslot
  · intro hnext
    rw [List.map_append, List.mem_append, not_or] at hnext
    have hawaits := h.awaits hnext.1
    have htarget : target.1 ≠ i := by simpa using hnext.2
    -- two slots do not hold the same connection
    have hne : d ≠ c := by
      rintro rfl
      rcases hinv with ⟨own, hinv⟩
      have hown := hinv.held sid (.slot i) _ hheld
      rw [hinv.held sid (.slot target.1) _ h.held, Owner.held.injEq, Place.slot.injEq] at hown
      exact htarget hown.2
    refine ⟨(Function.update_of_ne htarget ..).trans hawaits.slot, ?_⟩
    rw [Sharegres.afterLoop, Backends.endCommand, Backends.modifyConn_of_ne _ _ _ hne]
    exact hawaits.command

theorem afterLoop_messages (i : Fin maxScatterShards) (c : ConnId) (command : Command)
    (input : BackendInput) (x : Conf) (r : List BackendMsg × Bool) :
    (afterLoop i c command input x r).1.messages = x.1.messages ++ r.1 := by
  have hout : (afterLoop i c command input x r).1.out =
      x.1.out ++ r.1.map fun msg => ⟨msg, .result c command⟩ := rfl
  rw [Session.messages, hout, List.map_append, List.map_map]
  simp [Session.messages, Function.comp_def]

/-- An answer: the query stays under way, or it is over. -/
theorem UnderWay.answer (h : UnderWay sid q answers msgs header p) (hinv : p.Owned)
    (hslot : i.val < q.targets.length) (hfirst : i ∉ answers.map Prod.fst)
    (hhangup : input.hangup = false) (hfails : input.consumeFails = none)
    (hbusy : input.busy = false) (hflush : flush ≠ .failed)
    (hstep : step cfg p (.scatter sid i input flush) = some p') :
    ∃ r, scatterMessages header input.results = some r ∧
      (UnderWay sid q (answers ++ [(i, input.results)]) (msgs ++ r.1) r.2 p' ∨
        answers.length + 1 = q.targets.length ∧ Over sid q (msgs ++ r.1) r.2 p') := by
  rcases step_slot hstep with ⟨y, hy, rfl⟩
  rcases h.slot hslot hfirst with ⟨shard, c, hawaits⟩
  rw [hawaits.readable flush hhangup hfails, hbusy, if_neg (by simp)] at hy
  rcases Option.map_eq_some_iff.mp hy with ⟨r, hr, rfl⟩
  rw [show (p.conf sid).1.scatterHeaderSent = header from h.session.header] at hr
  refine ⟨r, hr, ?_⟩
  dsimp only
  generalize Command.mk (p.conf sid).1.id q.sql = command
  have hslots : List.Forall₂ (Occupied (afterLoop i c command input (p.conf sid) r) q.sql
      (answers ++ [(i, input.results)])) q.slots q.conns :=
    h.slots.imp fun t d hoccupied => hoccupied.afterLoop hinv hawaits.held command input r
  have hcount : (afterLoop i c command input (p.conf sid) r).1.scatterCount = q.targets.length :=
    h.session.count
  have hdone : (afterLoop i c command input (p.conf sid) r).1.scatterDone = answers.length + 1 :=
    congrArg Nat.succ h.session.done
  have hmessages : (afterLoop i c command input (p.conf sid) r).1.messages = msgs ++ r.1 := by
    rw [afterLoop_messages, show (p.conf sid).1.messages = msgs from h.session.messages]
  by_cases hall : q.targets.length ≤ answers.length + 1
  · -- the last answer
    right
    have hcomplete : checkComplete flush (afterLoop i c command input (p.conf sid) r) =
        flushOrDestroy flush
          (gathered (scatterTag r.2) (afterLoop i c command input (p.conf sid) r)) := by
      unfold checkComplete
      rw [if_pos (by rw [hcount, hdone]; exact hall)]
      rfl
    rw [hcomplete]
    have hkept := flushOrDestroy_kept hflush
      (gathered (scatterTag r.2) (afterLoop i c command input (p.conf sid) r))
    have hgathered := gathered_gathered (scatterTag r.2)
      (afterLoop i c command input (p.conf sid) r)
    have hfewer := h.fewer
    have hid : (afterLoop i c command input (p.conf sid) r).1.id = sid := by
      rcases hinv with ⟨own, hinv⟩
      exact hinv.ids sid
    refine ⟨by omega, ?_, ?_, ?_, ?_, fun j hj => ?_, p.backends.log, h.log, ?_⟩
    · rw [Proxy.put_session, hkept.quiet.closed, hgathered.closed]
      exact h.session.isOpen
    · rw [Proxy.put_session, hkept.quiet.state, hgathered.state]
    · rw [Proxy.put_session, hkept.quiet.count, hgathered.count]
    · rw [Proxy.put_session, Session.messages, gathered_out, List.map_append, ← Session.messages,
        hmessages]
      rfl
    · rw [Proxy.put_session, hkept.quiet.scatter]
      by_contra hconn
      refine (hgathered.slot j hconn).1 ?_
      rw [Session.slots, hcount, List.mem_take_iff_getElem]
      exact ⟨j.val, by rw [List.length_finRange]; exact lt_min hj j.isLt,
        List.getElem_finRange ..⟩
    · have hlog := gathered_log (scatterTag r.2) hcount h.size
        (hslots.imp fun t d hoccupied => hoccupied.held)
      rw [hid] at hlog
      change _ <:+ (flushOrDestroy flush _).2.log
      rw [hkept.backends, hlog]
      exact List.suffix_rfl
  · left
    have hgoes : checkComplete flush (afterLoop i c command input (p.conf sid) r) =
        afterLoop i c command input (p.conf sid) r := by
      unfold checkComplete
      rw [if_neg (by rw [hcount, hdone]; exact hall)]
    rw [hgoes]
    have hlength : (answers ++ [(i, input.results)]).length = answers.length + 1 := by simp
    rw [← hlength] at hdone hall
    refine ⟨h.created, ?_, h.size, Nat.lt_of_not_le hall, ?_, h.log⟩
    · rw [Proxy.put_session]
      exact ⟨h.session.isOpen, h.session.state, hcount, hdone, rfl, hmessages⟩
    · rw [Proxy.put_conf]
      exact hslots

end Events

/-! ## Whole runs -/

section Runs

variable {q : Scattered} {sql : Text} {targets : List Shard} {before : List BackendMsg}
  {start : Proxy}

/-- Different slots of a query have answered. -/
def Answers.FromSlots (answers : Answers) (targets : List Shard) : Prop :=
  (answers.map Prod.fst).Nodup ∧ ∀ i ∈ answers.map Prod.fst, i.val < targets.length

theorem Answers.FromSlots.snoc {answers : Answers} (h : answers.FromSlots targets)
    (hslot : i.val < targets.length) (hfirst : i ∉ answers.map Prod.fst) (results : List PGresult) :
    Answers.FromSlots (answers ++ [(i, results)]) targets := by
  unfold Answers.FromSlots
  rw [List.map_append]
  refine ⟨List.Nodup.append h.1 (List.nodup_singleton i) ?_, ?_⟩
  · exact List.disjoint_singleton.mpr hfirst
  · exact List.forall_mem_append.mpr ⟨h.2, List.forall_mem_singleton.mpr hslot⟩

/-- What the client has got in the course of a run: the messages for the results so far, and at
the end a tag and ReadyForQuery. -/
theorem Answering.progress {answers : Answers} (h : Answering cfg sid start answers p)
    (hstart : start.Owned) (hbegin : UnderWay sid q [] before false start) :
    p.Owned ∧ sid < p.created ∧ answers.FromSlots q.targets ∧
      ∃ r, scatterMessages false answers.results = some r ∧
        (UnderWay sid q answers (before ++ r.1) r.2 p ∨
          answers.length = q.targets.length ∧ Over sid q (before ++ r.1) r.2 p) := by
  induction h with
  | refl =>
      refine ⟨hstart, hbegin.created, ⟨List.nodup_nil, by simp⟩, ([], false), rfl, Or.inl ?_⟩
      rw [List.append_nil]
      exact hbegin
  | other h he hstep ih =>
      rcases ih with ⟨hinv, hcreated, hslots, r, hr, hcase⟩
      refine ⟨step_ledger hstep hinv, (step_others hinv hcreated he hstep).1, hslots, r, hr, ?_⟩
      rcases hcase with hunder | ⟨hall, hover⟩
      · exact Or.inl (hunder.other hinv he hstep)
      · exact Or.inr ⟨hall, hover.other hinv hcreated he hstep⟩
  | waits h hslot hfirst hhangup hfails hbusy hstep ih =>
      rcases ih with ⟨hinv, hcreated, hslots, r, hr, hunder | ⟨-, hover⟩⟩
      · rw [hunder.session.count] at hslot
        rw [hunder.waits hslot hfirst hhangup hfails hbusy hstep]
        exact ⟨hinv, hcreated, hslots, r, hr, Or.inl hunder⟩
      · rw [hover.count] at hslot
        exact absurd hslot (Nat.not_lt_zero _)
  | @answer answers q q' h i input flush hslot hfirst hhangup hfails hbusy hflush hstep ih =>
      rcases ih with ⟨hinv, hcreated, hslots, r, hr, hunder | ⟨-, hover⟩⟩
      · rw [hunder.session.count] at hslot
        rcases hunder.answer hinv hslot hfirst hhangup hfails hbusy hflush hstep with
          ⟨r', hr', hnext⟩
        have hmessages := scatterMessages_append hr hr'
        rw [← Answers.results_snoc] at hmessages
        have hcreated' : sid < q'.created := by
          rcases step_slot hstep with ⟨y, -, rfl⟩
          exact hcreated
        refine ⟨step_ledger hstep hinv, hcreated', hslots.snoc hslot hfirst _, _, hmessages, ?_⟩
        rw [← List.append_assoc, List.length_append]
        exact hnext
      · rw [hover.count] at hslot
        exact absurd hslot (Nat.not_lt_zero _)

/-! ## The message of the query -/

/-- An event of a client's socket that brings one query, while nothing goes wrong on the way to
the backends. -/
structure BringsQuery (sql : Text) (input : ClientInput) : Prop where
  hangup : input.hangup = false
  recv : input.recv = .data (queryFrame (sql ++ [0]))
  rounds : 0 < input.rounds
  connects : ∀ i, input.connects i = true
  accepts : ∀ i, input.accepts i = true
  flush : input.flush ≠ .failed
  clean : 0 ∉ sql
  fits : sql.length + 6 ≤ 16 * 1024 * 1024

/-- A session waits for a query. -/
structure WaitsForQuery (p : Proxy) (sid : Nat) : Prop where
  alive : p.alive sid
  state : (p.sessions sid).state = .ready
  callback : (p.sessions sid).callback = .readable
  empty : (p.sessions sid).recvBuf.len = 0

/-- There are targets, not too many, and their pools have room. -/
structure CanScatter (b : Backends) (targets : List Shard) : Prop where
  ne_nil : targets ≠ []
  size : targets.length ≤ maxScatterShards
  pools : (targets.map Shard.index).Nodup
  room : ∀ s ∈ targets, (b.pools s.index).activeCount < (b.pools s.index).maxSize

/-- A session whose buffer was empty, when the query it has received is handled. -/
def Session.handling (s : Session) (sql : Text) : Session :=
  { s.receive (queryFrame (sql ++ [0])) with
    recvBuf := (s.receive (queryFrame (sql ++ [0]))).recvBuf.consume (sql.length + 6) }

/-- The query that arrives in an empty buffer. -/
theorem BringsQuery.first {input : ClientInput} (h : BringsQuery sql input) {rb : RecvBuf}
    (hempty : rb.len = 0) : QueryFirst (rb.receive (queryFrame (sql ++ [0]))) sql [] [] where
  content := by
    unfold RecvBuf.receive
    dsimp only
    rw [hempty]
    simp
  clean := h.clean
  fits := by
    have hfits := h.fits
    simp only [List.length_append, List.length_cons, List.length_nil]
    omega

/-- It is handed over with its text. -/
theorem BringsQuery.process {input : ClientInput} (h : BringsQuery sql input) {s : Session}
    (hstate : s.state = .ready) (hempty : s.recvBuf.len = 0) :
    feProtocolProcess input.puts input.rounds 0 (s.receive (queryFrame (sql ++ [0]))) =
      some (.query (s.handling sql) sql) := by
  have hfirst : QueryFirst (s.receive (queryFrame (sql ++ [0]))).recvBuf sql [] [] :=
    h.first hempty
  have hfits := h.fits
  have hlength : (sql ++ 0 :: []).length + 5 = sql.length + 6 := by simp
  rcases Nat.exists_eq_succ_of_ne_zero (Nat.ne_of_gt h.rounds) with ⟨rounds, hrounds⟩
  have htext : ((s.receive (queryFrame (sql ++ [0]))).recvBuf.consume
      ((sql ++ 0 :: []).length + 5)).cstring 5 = sql :=
    (cstring_consume hfirst).mpr (by simp)
  rw [hrounds, feProtocolProcess, if_neg (by rw [hfirst.len_eq]; omega),
    feProtocolRound_query _ (by exact hstate) hfirst, Nat.mod_eq_of_lt (by omega),
    if_neg (by omega), htext, hlength]
  rfl

/-- With a shard map a query is executed by its route. -/
theorem handleQuery_route (hshards : cfg.shardMap.shards ≠ [])
    (hroute : routeTaken cfg sql = some decision) (input : ClientInput) (x : Conf) :
    handleQuery cfg sql input x =
      some (executeRoute sql decision input (x.1.countQuery, x.2)) := by
  rw [routeTaken, if_neg hshards, routeQuery] at hroute
  unfold handleQuery
  dsimp only
  rw [if_neg hshards, handleSharded]
  split at hroute
  · rename_i rc parsed hparse
    split at hroute
    · rename_i hrc
      rw [hparse]
      dsimp only
      rw [if_neg (by omega), hroute]
    · cases hroute
  · cases hroute

/-- A query with this route is scattered. -/
theorem handleQuery_scatter (hroute : routeTaken cfg sql = some decision)
    (htype : decision.type = .scatter) (input : ClientInput) (x : Conf) :
    handleQuery cfg sql input x =
      some (executeScatter sql decision.targetShards input (x.1.countQuery, x.2)) := by
  have hshards : cfg.shardMap.shards ≠ [] := by
    intro hnone
    rw [routeTaken, if_pos hnone] at hroute
    cases hroute
    cases htype
  rw [handleQuery_route hshards hroute, executeRoute, htype]

/-- Sending what is queued changes the session only in what is left to send. -/
theorem afterInput_eq (hflush : flush ≠ .failed) (x : Conf) :
    ∃ unsent callback, afterInput flush (x, true) =
      ({ x.1 with unsent := unsent, callback := callback }, x.2) := by
  unfold afterInput
  dsimp only
  split
  · rename_i hunsent
    unfold flushOrDestroy sessionSend
    rw [if_pos hunsent]
    cases flush with
    | all => exact ⟨_, _, rfl⟩
    | again => exact ⟨x.1.unsent, _, rfl⟩
    | failed => exact absurd rfl hflush
  · exact ⟨x.1.unsent, x.1.callback, rfl⟩

/-- The event that brings the query, if {lit}`handle_query` returns without an error. -/
theorem BringsQuery.handled {input : ClientInput} (h : BringsQuery sql input)
    (hwaits : WaitsForQuery p sid)
    (hquery : handleQuery cfg sql input ((p.sessions sid).handling sql, p.backends) =
      some (y, true)) :
    ∃ unsent callback, step cfg p (.client sid input) =
      some (p.put sid ({ y.1 with unsent := unsent, callback := callback }, y.2)) := by
  rcases afterInput_eq h.flush y with ⟨unsent, callback, hafter⟩
  have hreceived : processInput cfg input
      ((p.conf sid).1.receive (queryFrame (sql ++ [0])), (p.conf sid).2) = some (y, true) := by
    unfold processInput
    rw [show (p.conf sid).1 = p.sessions sid from rfl, h.process hwaits.state hwaits.empty]
    exact hquery
  have hcall : onClient cfg input (p.conf sid) =
      some ({ y.1 with unsent := unsent, callback := callback }, y.2) := by
    rw [← hafter]
    exact ClientCall.eq_some
      (.received _ (y, true) h.hangup hwaits.callback h.recv hreceived)
  exact ⟨unsent, callback, Proxy.call_alive hwaits.alive hcall⟩

/-- A query was sent once to each target, on a connection of its own that the pool of the target
has lent to the session. -/
structure SentToEach (sid : Nat) (sql : Text) (targets : List Shard) (conns : List ConnId)
    (p p₁ : Proxy) : Prop where
  distinct : conns.Nodup
  length : conns.length = targets.length
  sent : (p₁.sessions sid).sent = (conns.map fun c => (c, sql)).reverse ++ (p.sessions sid).sent
  lent : p₁.backends.log = (leaseOps .lend sid targets conns).reverse ++ p.backends.log

/-- Targets that are awaited are awaited on different connections. -/
theorem awaited_distinct (hinv : p.Owned) {slots : List (Fin maxScatterShards × Shard)}
    (hslots : slots.Nodup) (h : List.Forall₂ (Awaits (p.conf sid) sql) slots conns) :
    conns.Nodup := by
  rcases hinv with ⟨own, hinv⟩
  have hunique : Relator.BiUnique (Awaits (p.conf sid) sql) := by
    constructor
    · intro t t' c ht ht'
      have hown := hinv.held sid (.slot t.1) _ ht.held
      rw [hinv.held sid (.slot t'.1) _ ht'.held, Owner.held.injEq, Place.slot.injEq] at hown
      have hslot := ht.slot
      rw [← hown.2, ht'.slot, ScatterConn.mk.injEq] at hslot
      exact Prod.ext hown.2.symm (Option.some.inj hslot.1).symm
    · intro t c c' hc hc'
      have hslot := hc.slot
      rw [hc'.slot, ScatterConn.mk.injEq] at hslot
      exact (Option.some.inj hslot.2.1).symm
  exact (List.rel_nodup hunique h).mp hslots

/-- The query is under way when its message has been handled, and every target has got it
once. -/
theorem client_scatters {input : ClientInput} (hinv : p.Owned)
    (hroute : routeTaken cfg sql = some decision) (htype : decision.type = .scatter)
    (hwaits : WaitsForQuery p sid) (hcan : CanScatter p.backends decision.targetShards)
    (hinput : BringsQuery sql input) :
    ∃ p₁ conns, step cfg p (.client sid input) = some p₁ ∧
      UnderWay sid ⟨sql, decision.targetShards, conns, p₁.backends.log⟩ []
        (p.sessions sid).messages false p₁ ∧
      SentToEach sid sql decision.targetShards conns p p₁ := by
  have howned := hinv
  rcases hinv with ⟨own, hinv⟩
  have hid : (p.sessions sid).id = sid := hinv.ids sid
  have hacct : p.accounts (p.sessions sid).id = (p.sessions sid).account :=
    congrArg p.accounts hid
  rcases @executeScatter_awaits p.accounts own
    (((p.sessions sid).handling sql).countQuery, p.backends) sql input _ hcan.ne_nil hcan.size
    hcan.pools hacct hinv hcan.room hinput.connects hinput.accepts with
    ⟨y, conns, hexecute, hstarted⟩
  have hquery := handleQuery_scatter hroute htype input
    ((p.sessions sid).handling sql, p.backends)
  rw [hexecute] at hquery
  rcases hinput.handled hwaits hquery with ⟨unsent, callback, hstep⟩
  have hawaits : List.Forall₂ (Awaits ((p.put sid ({ y.1 with unsent, callback }, y.2)).conf sid)
      sql) ((List.finRange maxScatterShards).zip decision.targetShards) conns := by
    rw [Proxy.put_conf]
    exact hstarted.awaits.imp fun t c h => ⟨h.slot, h.command⟩
  have hlength : conns.length = decision.targetShards.length := by
    rw [← hawaits.length_eq, List.length_zip, List.length_finRange]
    exact min_eq_right hcan.size
  refine ⟨_, conns, hstep, ⟨hwaits.alive.1, ?_, hcan.size,
    List.length_pos_of_ne_nil hcan.ne_nil, ?_, List.suffix_rfl⟩,
    awaited_distinct (step_ledger hstep howned) (scatterTargets_nodup _).of_map hawaits, hlength,
    ?_, ?_⟩
  · rw [Proxy.put_session]
    exact ⟨hstarted.closed.trans hwaits.alive.2, hstarted.state, hstarted.count, hstarted.done,
      hstarted.header, congrArg (List.map Queued.msg) hstarted.out⟩
  · exact hawaits.imp fun t c h => ⟨h.held, fun _ => h⟩
  · rw [Proxy.put_session]
    exact hstarted.sent
  · have hlog := hstarted.log
    change _ = (leaseOps .lend (p.sessions sid).id decision.targetShards conns).reverse ++ _ at hlog
    rwa [hid] at hlog

/-- A target that has not answered can answer. -/
theorem UnderWay.accepts {answers : Answers} {msgs : List BackendMsg} {header : Bool}
    (h : UnderWay sid q answers msgs header p) (flush : SendOutcome)
    (hslot : i.val < q.targets.length) (hfirst : i ∉ answers.map Prod.fst)
    (hhangup : input.hangup = false) (hfails : input.consumeFails = none)
    (hbusy : input.busy = false) (hcopy : ∀ res ∈ input.results, res.startsCopy = false) :
    ∃ p', step cfg p (.scatter sid i input flush) = some p' := by
  rcases h.slot hslot hfirst with ⟨shard, c, hawaits⟩
  have hcall := hawaits.readable flush hhangup hfails
  rcases Option.isSome_iff_exists.mp (scatterMessages_isSome_iff.mpr hcopy) with ⟨r, hr⟩
  rw [hbusy, if_neg (by simp), hr, Option.map_some] at hcall
  have hshard : ((p.sessions sid).scatter i).shard.isSome := by
    rw [show (p.sessions sid).scatter i = _ from hawaits.slot]
    rfl
  exact ⟨_, (if_pos hshard).trans (Proxy.call_alive ⟨h.created, h.session.isOpen⟩ hcall)⟩

/-- Some targets of a query have not answered: the session waits, and each of them can answer. -/
structure AwaitsTargets (cfg : Config) (sid : Nat) (targets : List Shard) (answers : Answers)
    (p : Proxy) : Prop where
  fewer : answers.length < targets.length
  state : (p.sessions sid).state = .scatter
  count : (p.sessions sid).scatterCount = targets.length
  accepts : ∀ (i : Fin maxScatterShards) (answer : BackendInput) (flush : SendOutcome),
    i.val < targets.length → i ∉ answers.map Prod.fst → answer.hangup = false →
    answer.consumeFails = none → answer.busy = false →
    (∀ res ∈ answer.results, res.startsCopy = false) →
    ∃ p', step cfg p (.scatter sid i answer flush) = some p'

theorem UnderWay.awaitsTargets {answers : Answers} {msgs : List BackendMsg} {header : Bool}
    (h : UnderWay sid q answers msgs header p) : AwaitsTargets cfg sid q.targets answers p where
  fewer := h.fewer
  state := h.session.state
  count := h.session.count
  accepts _ _ flush hslot hfirst hhangup hfails hbusy hcopy :=
    h.accepts flush hslot hfirst hhangup hfails hbusy hcopy

/-- A client sends a query whose route is a scatter.  Every target gets it once, on a connection
of its own from its pool.  In whatever order the targets answer and whatever else happens in
between, the client gets the messages for the results so far in the order of their arrival, each
target that has not answered can do so, and behind the last answer the client gets one tag and one
ReadyForQuery, the session is ready, and the connections have gone back to their pools. -/
theorem scattered_query_answered {input : ClientInput} (h : ProxyReaches cfg anyEvent p)
    (hroute : routeTaken cfg sql = some decision) (htype : decision.type = .scatter)
    (hwaits : WaitsForQuery p sid) (hcan : CanScatter p.backends decision.targetShards)
    (hinput : BringsQuery sql input) :
    ∃ p₁ conns, step cfg p (.client sid input) = some p₁ ∧
      SentToEach sid sql decision.targetShards conns p p₁ ∧
      ∀ answers p₂, Answering cfg sid p₁ answers p₂ →
        ∃ r, scatterMessages false answers.results = some r ∧
          (AwaitsTargets cfg sid decision.targetShards answers p₂ ∧
              (p₂.sessions sid).messages = (p.sessions sid).messages ++ r.1 ∨
            answers.length = decision.targetShards.length ∧
              Over sid ⟨sql, decision.targetShards, conns, p₁.backends.log⟩
                ((p.sessions sid).messages ++ r.1) r.2 p₂) := by
  have hinv := owned_of_reaches h
  rcases client_scatters hinv hroute htype hwaits hcan hinput with
    ⟨p₁, conns, hstep, hbegin, hsent⟩
  refine ⟨p₁, conns, hstep, hsent, fun answers p₂ hrun => ?_⟩
  rcases hrun.progress (step_ledger hstep hinv) hbegin with ⟨-, -, -, r, hr, hunder | hover⟩
  · exact ⟨r, hr, Or.inl ⟨hunder.awaitsTargets, hunder.session.messages⟩⟩
  · exact ⟨r, hr, Or.inr hover⟩

/-- The first session waits for a query, without a connection, and the pools of both shards have
room. -/
def FirstWaits (p : Proxy) : Prop :=
  p.alive 0 ∧ (p.sessions 0).state = .ready ∧ (p.sessions 0).callback = .readable ∧
    (p.sessions 0).recvBuf.len = 0 ∧ (p.sessions 0).backendConn = none ∧
    ∀ s ∈ demoShards, (p.backends.pools s.index).activeCount < (p.backends.pools s.index).maxSize

instance (p : Proxy) : Decidable (FirstWaits p) :=
  inferInstanceAs (Decidable (_ ∧ _))

/-- A run that leads to such a state. -/
theorem exists_firstWaits {guard : Proxy → Event → Prop} [∀ p e, Decidable (guard p e)]
    {es : List Event} (h : runsTo (step cfg) guard es (Proxy.start cfg) FirstWaits = true) :
    ∃ p, ProxyReaches cfg guard p ∧ WaitsForQuery p 0 ∧ (p.sessions 0).backendConn = none ∧
      ∀ s ∈ demoShards,
        (p.backends.pools s.index).activeCount < (p.backends.pools s.index).maxSize := by
  rcases exists_reached h with ⟨p, hp, halive, hstate, hcallback, hempty, hconn, hroom⟩
  exact ⟨p, hp, ⟨halive, hstate, hcallback, hempty⟩, hconn, hroom⟩

/-- A query that comes alone. -/
theorem bringsQuery_plain (hclean : 0 ∉ sql) (hfits : sql.length + 6 ≤ 16 * 1024 * 1024) :
    BringsQuery sql { recv := .data (queryFrame (sql ++ [0])) } :=
  ⟨rfl, rfl, Nat.zero_lt_succ _, fun _ => rfl, fun _ => rfl, by simp, hclean, hfits⟩

/-- A DELETE without a key on two shards: the second shard answers first. -/
theorem scattered_delete_answered :
    ∃ (p p₁ p₃ : Proxy) (conns : List ConnId), ProxyReaches demoConfig anyEvent p ∧
      SentToEach 0 (ascii "DELETE FROM t WHERE x = 5") demoShards conns p p₁ ∧
      (p₃.sessions 0).messages = (p.sessions 0).messages ++
        [.commandComplete (ascii "SELECT 0"), .readyForQuery .idle] ∧
      (p₃.sessions 0).state = .ready := by
  have hrun : runsTo (step demoConfig) anyEvent (demoLogin 0) (Proxy.start demoConfig)
      FirstWaits = true := by
    decide +kernel
  have hroutes : (routeTaken demoConfig (ascii "DELETE FROM t WHERE x = 5")).any
      (fun d => decide (d.type = .scatter ∧ d.targetShards = demoShards)) = true := by
    decide +kernel
  rcases exists_firstWaits hrun with ⟨p, hp, hwaits, -, hroom⟩
  rcases (Option.any_eq_true _ _).mp hroutes with ⟨decision, hroute, hdecision⟩
  rcases of_decide_eq_true hdecision with ⟨htype, htargets⟩
  have hcan : CanScatter p.backends decision.targetShards := by
    rw [htargets]
    exact ⟨by decide, by decide, by decide, hroom⟩
  have hlength : decision.targetShards.length = 2 := by rw [htargets]; rfl
  rcases scattered_query_answered hp hroute htype hwaits hcan
    (bringsQuery_plain (by decide +kernel) (by decide +kernel)) with
    ⟨p₁, conns, -, hsent, hanswered⟩
  rw [htargets] at hsent
  have hcopy : ∀ res ∈ [({ status := .commandOk } : PGresult)], res.startsCopy = false := by
    decide
  have hfirst : ∀ i, i ∉ ([] : Answers).map Prod.fst := fun i => List.not_mem_nil
  -- the second shard
  rcases hanswered [] p₁ .refl with ⟨-, -, ⟨hawaits, -⟩ | ⟨hall, -⟩⟩
  · rcases hawaits.accepts 1 { results := [{ status := .commandOk }] } .all
      (by rw [hlength]; decide) (hfirst 1) rfl rfl rfl hcopy with ⟨p₂, hstep₂⟩
    have hrun₂ := Answering.answer .refl (by rw [hawaits.count, hlength]; decide) (hfirst 1) rfl
      rfl rfl (by simp) hstep₂
    -- the first shard
    have hsecond : (0 : Fin maxScatterShards) ∉ (([] : Answers) ++
        [(1, [({ status := .commandOk } : PGresult)])]).map Prod.fst := by
      decide
    rcases hanswered _ p₂ hrun₂ with ⟨-, -, ⟨hawaits₂, -⟩ | ⟨hall, -⟩⟩
    · rcases hawaits₂.accepts 0 { results := [{ status := .commandOk }] } .all
        (by rw [hlength]; decide) hsecond rfl rfl rfl hcopy with ⟨p₃, hstep₃⟩
      have hrun₃ := Answering.answer hrun₂ (by rw [hawaits₂.count, hlength]; decide) hsecond rfl
        rfl rfl (by simp) hstep₃
      rcases hanswered _ p₃ hrun₃ with ⟨r, hr, ⟨hawaits₃, -⟩ | ⟨-, hover⟩⟩
      · have hfewer := hawaits₃.fewer
        rw [hlength] at hfewer
        exact absurd hfewer (by decide)
      · cases hr
        refine ⟨p, p₁, p₃, conns, hp, hsent, ?_, hover.state⟩
        rw [hover.messages, List.append_nil]
        rfl
    · rw [hlength] at hall
      cases hall
  · rw [hlength] at hall
    cases hall

end Runs

end Sharegres
