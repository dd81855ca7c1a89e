import Sharegres.Router.WhereRouting
import Sharegres.Session.Outcomes

/-!
# Session - Failures of scattered queries

A scattered query from its start to its completion, and the messages queued to the client
for it.  A target that fails is only counted: the client hears of failures if all targets
fail when the query is started, and otherwise gets the tag of a success.

Main results:

- Definition {lit}`scatterQuery`: a scattered query with the events of its targets.
- Theorem {lit}`runScatter_tagged`: whatever events the targets have, a query that is
  awaited ends with a tag.
- Theorem {lit}`scatter_failure_reported_iff`: a failure is reported if and only if every
  target fails at the start.
- Theorem {lit}`hangup_reported_as_success`: one target hangs up and the other one answers.
-/

namespace Sharegres

open Foundation

variable {input : ClientInput} {x y : Conf} {es : List ScatterEvent} {targets : List Shard}
  {sql : Text}

/-- An event of a target, after what other sessions did to the backends meanwhile. -/
structure ScatterEvent where
  slot : Fin maxScatterShards
  input : BackendInput
  flush : SendOutcome := .all
  meanwhile : Backends → Backends := id

/-- The event is a failure of the target: it hangs up, its input cannot be read, or its
results hold an error. -/
def ScatterEvent.fails (e : ScatterEvent) (x : Conf) : Bool :=
  e.input.hangup ||
    match (x.1.scatter e.slot).conn with
    | none => false
    | some c =>
        e.input.consumeFails.isSome ||
          ((x.2.conns c).command.isSome && !e.input.busy &&
            e.input.results.any fun res => res.status = .fatalError)

/-- The events of the targets up to the completion of the query, whether one of them was a
failure, and the outcome. -/
def runScatter : List ScatterEvent → Conf → Option (Bool × Conf)
  | [], x => if x.1.state = .scatter then none else some (false, x)
  | e :: es, x =>
      let x := (x.1, e.meanwhile x.2)
      if x.1.state = .scatter ∧ (x.1.scatter e.slot).conn.isSome then
        (sessionOnScatterReadable e.slot e.input e.flush x).bind fun y =>
          (runScatter es y).map fun r => (e.fails x || r.1, r.2)
      else none

/-- A scattered query from its start to its completion: whether a target failed, at the
start or later, and the outcome. -/
def scatterQuery (sql : Text) (targets : List Shard) (input : ClientInput)
    (es : List ScatterEvent) (x : Conf) : Option (Bool × Conf) :=
  match executeScatter sql targets input x with
  | (_, false) => none
  | (y, true) => (runScatter es y).map fun r => (decide (0 < y.1.scatterDone) || r.1, r.2)

/-- The client is told of an error and of no success. -/
def Reported (x y : Conf) : Prop :=
  (∃ q ∈ newMessages x y, q.msg.isError = true) ∧
    ∀ q ∈ newMessages x y, q.msg.isComplete = false

instance (x y : Conf) : Decidable (Reported x y) := by
  unfold Reported
  infer_instance

/-- Each target in turn gets no connection from its pool, or the query cannot be sent on
it. -/
def allFailAtStart (sql : Text) (input : ClientInput) (session : Nat) :
    List (Fin maxScatterShards × Shard) → Backends → Bool
  | [], _ => true
  | target :: targets, b =>
      match b.connPoolAcquire target.2.index session (input.connects target.1) with
      | (b, none) => allFailAtStart sql input session targets b
      | (b, some c) =>
          match b.pqSendQuery c session sql (input.accepts target.1) with
          | none =>
              allFailAtStart sql input session targets
                (b.connPoolRelease target.2.index session c)
          | some _ => false

/-! ## The start -/

/-- Starting targets counts those that fail. -/
theorem startSlots_done (sql : Text) (input : ClientInput)
    (targets : List (Fin maxScatterShards × Shard)) (x : Conf) :
    (targets.foldl (startSlot sql input) x).1.scatterDone ≤ x.1.scatterDone + targets.length ∧
      ((targets.foldl (startSlot sql input) x).1.scatterDone = x.1.scatterDone + targets.length ↔
        allFailAtStart sql input x.1.id targets x.2 = true) := by
  induction targets generalizing x with
  | nil => simp [allFailAtStart]
  | cons target targets ih =>
      -- a target that fails counts one, another one does not
      have hfails : ∀ y : Conf, y.1.scatterDone = x.1.scatterDone + 1 →
          (targets.foldl (startSlot sql input) y).1.scatterDone ≤
              x.1.scatterDone + (targets.length + 1) ∧
            ((targets.foldl (startSlot sql input) y).1.scatterDone =
                x.1.scatterDone + (targets.length + 1) ↔
              allFailAtStart sql input y.1.id targets y.2 = true) := by
        intro y hy
        rcases ih y with ⟨hle, hiff⟩
        rw [hy] at hle hiff
        rw [← hiff]
        omega
      rw [List.foldl_cons, List.length_cons]
      unfold allFailAtStart
      rcases hacquire : x.2.connPoolAcquire target.2.index x.1.id (input.connects target.1) with
        ⟨b, _ | c⟩
      · have hslot : startSlot sql input x target =
            (((x.1.noteOver (.slot target.1)).setSlot target.1
              { shard := some target.2, done := true }).countDone, b) := by
          unfold startSlot
          dsimp only
          rw [show (x.1.noteOver (.slot target.1)).id = x.1.id from rfl, hacquire]
        rw [hslot]
        exact hfails _ rfl
      · dsimp only
        cases hsend : b.pqSendQuery c x.1.id sql (input.accepts target.1) with
        | none =>
            have hslot : startSlot sql input x target =
                (((x.1.noteOver (.slot target.1)).setSlot target.1
                  { shard := some target.2, done := true, fromPool := true }).countDone,
                  b.connPoolRelease target.2.index x.1.id c) := by
              unfold startSlot
              dsimp only
              rw [show (x.1.noteOver (.slot target.1)).id = x.1.id from rfl, hacquire]
              dsimp only
              rw [hsend]
            rw [hslot]
            exact hfails _ rfl
        | some b' =>
            have hdone : (startSlot sql input x target).1.scatterDone = x.1.scatterDone := by
              unfold startSlot
              dsimp only
              rw [show (x.1.noteOver (.slot target.1)).id = x.1.id from rfl, hacquire]
              dsimp only
              rw [hsend]
              rfl
            rcases ih (startSlot sql input x target) with ⟨hle, -⟩
            rw [hdone] at hle
            refine ⟨by omega, iff_of_false (by omega) (by simp)⟩

/-- All targets are counted at the start if and only if all of them fail there. -/
theorem startScatter_done (sql : Text) (targets : List Shard) (input : ClientInput) (x : Conf)
    (hsize : targets.length ≤ maxScatterShards) :
    targets.length ≤ (startScatter sql targets input x).1.scatterDone ↔
      allFailAtStart sql input x.1.id ((List.finRange maxScatterShards).zip targets) x.2 =
        true := by
  have hlength : ((List.finRange maxScatterShards).zip targets).length = targets.length := by
    rw [List.length_zip, List.length_finRange, Nat.min_eq_right hsize]
  rcases startSlots_done sql input ((List.finRange maxScatterShards).zip targets)
    (x.1.resetScatter targets.length, x.2) with ⟨hle, hiff⟩
  rw [hlength] at hle hiff
  have hzero : (x.1.resetScatter targets.length).scatterDone = 0 := rfl
  rw [hzero] at hle hiff
  exact Iff.trans (by unfold startScatter; omega) hiff

/-- If all targets fail, no query is sent. -/
theorem startScatter_sent
    (hsize : targets.length ≤ maxScatterShards)
    (hfail : allFailAtStart sql input x.1.id ((List.finRange maxScatterShards).zip targets) x.2 =
      true) : (startScatter sql targets input x).1.sent = x.1.sent := by
  have hstarted := startScatter_started sql targets input x
  have hcount := (startScatter_done sql targets input x hsize).mpr hfail
  refine hstarted.sent (List.countP_eq_length.mp (Nat.le_antisymm List.countP_le_length ?_))
  rw [hstarted.done, show (x.1.resetScatter targets.length).scatterDone = 0 from rfl,
    Nat.zero_add] at hcount
  exact (List.length_take_le _ _).trans hcount

/-- {lit}`execute_scatter` reports an error if all targets fail at the start, and otherwise
queues nothing and awaits the targets. -/
theorem executeScatter_out (h : executeScatter sql targets input x = (y, true)) :
    allFailAtStart sql input x.1.id ((List.finRange maxScatterShards).zip targets) x.2 = true ∧
        y.1.state ≠ .scatter ∧ Reported x y ∨
      allFailAtStart sql input x.1.id ((List.finRange maxScatterShards).zip targets) x.2 ≠ true ∧
        y.1.state = .scatter ∧ y.1.out = x.1.out := by
  unfold executeScatter at h
  split at h
  · cases h
  · rename_i hsize
    have hdone := startScatter_done sql targets input x (by omega)
    have hout : (startScatter sql targets input x).1.out = x.1.out :=
      (startScatter_started sql targets input x).out
    dsimp only at h
    split at h
    · rename_i hall
      cases h
      refine Or.inl ⟨hdone.mp hall, by simp [Session.setState], ?_⟩
      simp [Reported, newMessages, refuse, Session.setState, Session.queueReady,
        Session.feSendError, Session.queue, Session.queueAll, hout, msgWriteError,
        BackendMsg.isError, BackendMsg.isComplete]
    · rename_i hsome
      cases h
      exact Or.inr ⟨fun hall => hsome (hdone.mpr hall), rfl, hout⟩

/-! ## The events -/

/-- What was queued stays queued, and a query that is over has got its tag. -/
def Tagged (x y : Conf) : Prop :=
  x.1.out <+: y.1.out ∧
    (y.1.state = .scatter ∨ ∃ q ∈ newMessages x y, q.msg.isComplete = true)

theorem Tagged.trans {x y z : Conf} (h : x.1.out <+: y.1.out) (h' : Tagged y z) :
    Tagged x z := by
  refine ⟨h.trans h'.1, h'.2.imp_right ?_⟩
  rintro ⟨q, hq, hcomplete⟩
  exact ⟨q, (List.drop_sublist_drop_left _ h.length_le).subset hq, hcomplete⟩

/-- The end of a scattered query queues its tag and a ReadyForQuery. -/
theorem gathered_out (flush : SendOutcome) (tag : Text) (x : Conf) :
    (flushOrDestroy flush (gathered tag x)).1.out =
      x.1.out ++ [⟨.commandComplete tag, .gather x.1.awaitedSlots⟩,
        ⟨.readyForQuery .idle, .ready x.1.awaited.card⟩] := by
  rw [flushOrDestroy_out]
  refine (sessionReleaseScatter_released _).1.out.trans ?_
  simp [Session.queueReady, Session.queue, Session.queueAll]

theorem checkComplete_tagged (flush : SendOutcome) (hstate : x.1.state = .scatter) :
    Tagged x (checkComplete flush x) := by
  rcases checkComplete_case flush x with ⟨-, heq⟩ | ⟨-, tag, heq⟩
  · rw [heq]
    exact ⟨List.prefix_rfl, Or.inl hstate⟩
  · have hout : (checkComplete flush x).1.out =
        x.1.out ++ [⟨.commandComplete tag, .gather x.1.awaitedSlots⟩,
          ⟨.readyForQuery .idle, .ready x.1.awaited.card⟩] := by
      rw [heq, gathered_out]
    refine ⟨⟨_, hout.symm⟩, Or.inr ⟨⟨.commandComplete tag, .gather x.1.awaitedSlots⟩, ?_, rfl⟩⟩
    rw [newMessages, hout, List.drop_left]
    exact List.mem_cons_self

/-- An event of a target, whether a failure or not, leaves the query going on or ends it
with a tag. -/
theorem ScatterCase.tagged {i : Fin maxScatterShards} {input : BackendInput} {flush : SendOutcome}
    (h : ScatterCase i input flush x y) (hstate : x.1.state = .scatter) : Tagged x y := by
  cases h with
  | skip => exact ⟨List.prefix_rfl, Or.inl hstate⟩
  | failed b hb hcause =>
      have hmark : x.1.out <+: (markDone i x.1, b).1.out := List.prefix_rfl
      exact Tagged.trans hmark (checkComplete_tagged flush hstate)
  | again c hconn hcommand =>
      have hmark : x.1.out <+: (markDone i x.1, x.2).1.out := List.prefix_rfl
      exact Tagged.trans hmark (checkComplete_tagged flush hstate)
  | drained c command y hconn hcommand hdrain =>
      rcases Option.map_eq_some_iff.mp hdrain with ⟨⟨msgs, header⟩, hmsgs, rfl⟩
      exact Tagged.trans (List.prefix_append _ _) (checkComplete_tagged flush hstate)

/-- Nothing happens after the completion. -/
theorem runScatter_over {r : Bool × Conf} (h : runScatter es x = some r)
    (hstate : x.1.state ≠ .scatter) : r = (false, x) := by
  cases es with
  | nil =>
      unfold runScatter at h
      rw [if_neg hstate] at h
      exact (Option.some.inj h).symm
  | cons e es => simp [runScatter, hstate] at h

/-- A query that was awaited ends with a tag, whatever events its targets have. -/
theorem runScatter_tagged {r : Bool × Conf} (h : runScatter es x = some r)
    (hstate : x.1.state = .scatter) :
    Tagged x r.2 ∧ r.2.1.state ≠ .scatter := by
  induction es generalizing x r with
  | nil => simp [runScatter, hstate] at h
  | cons e es ih =>
      unfold runScatter at h
      dsimp only at h
      split at h
      · rcases Option.bind_eq_some_iff.mp h with ⟨y, hy, hrest⟩
        rcases Option.map_eq_some_iff.mp hrest with ⟨r', hr', rfl⟩
        have htagged : Tagged x y := (sessionOnScatterReadable_case hy).tagged hstate
        by_cases hagain : y.1.state = .scatter
        · rcases ih hr' hagain with ⟨hlater, hover⟩
          exact ⟨Tagged.trans htagged.1 hlater, hover⟩
        · rw [runScatter_over hr' hagain]
          exact ⟨htagged, hagain⟩
      · cases h

/-- A scattered query of which a target failed is reported as an error if and only if every
target failed at the start. -/
theorem scatter_failure_reported_iff (h : scatterQuery sql targets input es x = some (true, y)) :
    Reported x y ↔
      allFailAtStart sql input x.1.id ((List.finRange maxScatterShards).zip targets) x.2 =
        true := by
  unfold scatterQuery at h
  split at h
  · cases h
  · rename_i z hstart
    rcases Option.map_eq_some_iff.mp h with ⟨r, hr, heq⟩
    have hy : r.2 = y := congrArg Prod.snd heq
    subst hy
    rcases executeScatter_out hstart with ⟨hall, hstate, hreported⟩ | ⟨hsome, hstate, hout⟩
    · rw [runScatter_over hr hstate]
      exact iff_of_true hreported hall
    · refine iff_of_false ?_ hsome
      intro hreported
      rcases runScatter_tagged hr hstate with ⟨⟨-, htag⟩, hover⟩
      rcases htag.resolve_left hover with ⟨q, hq, hcomplete⟩
      have hq' : q ∈ newMessages x r.2 := by
        rw [newMessages, ← hout]
        exact hq
      rw [hreported.2 q hq'] at hcomplete
      cases hcomplete

/-- A session that is ready, and empty pools. -/
def readyConf : Conf :=
  ({ id := 0, state := .ready }, { pools := fun _ => { maxSize := 4 } })

/-- No target can be connected to. -/
theorem no_connection_reported :
    ∃ y, scatterQuery (ascii "DELETE FROM t") demoShards { connects := fun _ => false } []
        readyConf = some (true, y) ∧ Reported readyConf y := by
  have hrun : (scatterQuery (ascii "DELETE FROM t") demoShards { connects := fun _ => false } []
      readyConf).any (fun r => r.1) = true := by decide +kernel
  rcases (Option.any_eq_true ..).mp hrun with ⟨⟨failed, y⟩, hquery, rfl⟩
  exact ⟨y, hquery, (scatter_failure_reported_iff hquery).mpr (by decide +kernel)⟩

/-- The first target hangs up and the second one answers. -/
def hangupThenAnswer : List ScatterEvent :=
  [{ slot := 0, input := { hangup := true } },
    { slot := 1, input := { results := [{ status := .commandOk }] } }]

/-- The failure of one target of two: the client gets the tag of a success and no error. -/
theorem hangup_reported_as_success :
    ∃ y, scatterQuery (ascii "DELETE FROM t") demoShards {} hangupThenAnswer readyConf =
        some (true, y) ∧
      (newMessages readyConf y).map Queued.msg =
        [.commandComplete (ascii "SELECT 0"), .readyForQuery .idle] ∧
      ¬Reported readyConf y := by
  have hrun : (scatterQuery (ascii "DELETE FROM t") demoShards {} hangupThenAnswer
      readyConf).any (fun r => r.1 && decide ((newMessages readyConf r.2).map Queued.msg =
        [.commandComplete (ascii "SELECT 0"), .readyForQuery .idle] ∧
          ¬Reported readyConf r.2)) = true := by decide +kernel
  rcases (Option.any_eq_true ..).mp hrun with ⟨⟨failed, y⟩, hquery, htest⟩
  rcases (Bool.and_eq_true ..).mp htest with ⟨rfl, hmessages⟩
  exact ⟨y, hquery, of_decide_eq_true hmessages⟩

end Sharegres
