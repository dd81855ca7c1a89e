import Sharegres.Session.ResponseStream

/-!
# Session - Copies to the client

A COPY TO STDOUT on the single backend, from the event that finds its data to the one that
ends it.  The callback asks for a result first each time, so every event announces the
copy again; the end of the data is followed by one call of {lit}`PQgetResult`, so the
command is still in progress when the session is ready; and an error of
{lit}`PQgetCopyData` is left to the next event.

Main results:

- Definition {lit}`CopyRun.Answered`: what a copy should give.
- Theorem {lit}`CopyRun.copied_iff`: the copies that are answered so.
- Theorem {lit}`CopyRun.announced_twice`: a copy whose data come in two events.
-/

namespace Sharegres

open Foundation

/-- The end of a copy: -1 with the result that follows it, or -2 with the error that a later
event finds, if there is one. -/
inductive CopyEnding where
  | done (final : PGresult)
  | failed (error : Option PGresult)
deriving DecidableEq

/-- A copy as the client library answers it: the result that announces it, the data of the
events that end in 0 and of the event that ends the copy, and the end.  A client's socket
may block but does not fail. -/
structure CopyRun where
  announced : PGresult
  early : List (List Text)
  last : List Text
  ending : CopyEnding
  xact : Xact
  blocks : Nat → Bool
  isCopy : announced.status = .copyOut
  isError : ∀ error, ending = .failed (some error) → error.status = .fatalError

/-- The callback for one readable event after the other. -/
def runReadable (blocks : Nat → Bool) : List BackendInput → Conf → Conf
  | [], x => x
  | input :: rest, x =>
      runReadable (fun n => blocks (n + 1)) rest
        (sessionOnBackendReadable input (if blocks 0 then .again else .all) x)

theorem blocks_ne_failed (blocks : Bool) :
    (if blocks then SendOutcome.again else .all) ≠ .failed := by
  cases blocks <;> decide

theorem command_reportReady (c : ConnId) (x : Conf) (c' : ConnId) :
    ((reportReady c x).2.conns c').command = (x.2.conns c').command := by
  unfold reportReady
  dsimp only
  split
  · exact command_releaseBackend _ c'
  · rfl

namespace CopyRun

/-- The answers of the client library at an event during the copy. -/
def input (run : CopyRun) (chunks : List Text) (copyEnd : CopyEnd) : BackendInput where
  results := [run.announced]
  copyChunks := chunks
  copyEnd := copyEnd
  xact := run.xact

/-- The events from the one that ends the copy on. -/
def lastInputs (run : CopyRun) : List BackendInput :=
  match run.ending with
  | .done final => [run.input run.last (.done (some final))]
  | .failed none => [run.input run.last .failed]
  | .failed (some error) =>
      [run.input run.last .failed, { results := [error], xact := run.xact }]

/-- The readable events of the copy. -/
def inputs (run : CopyRun) : List BackendInput :=
  run.early.map (run.input · .pending) ++ run.lastInputs

/-- The data of the copy. -/
def chunks (run : CopyRun) : List Text :=
  run.early.flatten ++ run.last

/-- The messages between the data and ReadyForQuery. -/
def Verdict (run : CopyRun) (msgs : List BackendMsg) : Prop :=
  match run.ending with
  | .done final =>
      if final.status = .commandOk then msgs = [.copyDone, .commandComplete final.cmdStatus]
      else ∃ fields, msgs = [.errorResponse fields]
  | .failed _ => ∃ fields, msgs = [.errorResponse fields]

/-- What a copy should give: the session is ready, the command is over, and the client was
sent one CopyOutResponse, the data in order, the verdict and one ReadyForQuery. -/
structure Answered (run : CopyRun) (c : ConnId) (x y : Conf) : Prop where
  ready : y.1.state = .ready
  ended : (y.2.conns c).command = none
  messages : ∃ verdict status, run.Verdict verdict ∧
    (newMessages x y).map Queued.msg =
      .copyOutResponse run.announced.fields.length ::
        (run.chunks.map .copyData ++ verdict ++ [.readyForQuery status])

/-! ## One event -/

section Event

variable (run : CopyRun) {flush : SendOutcome} {x : Conf} {c : ConnId} {command : Command}

/-- The session after an event that leaves the copy as it is. -/
structure Copying (chunks : List Text) (x y : Conf) : Prop where
  state : y.1.state = .copyOut
  backend : y.1.backendConn = x.1.backendConn
  backends : y.2 = x.2
  out : y.1.out.map Queued.msg = x.1.out.map Queued.msg ++
    .copyOutResponse run.announced.fields.length :: chunks.map .copyData

/-- The result that announces the copy ends the loop over the results. -/
theorem singleMessages_announced :
    singleMessages false [run.announced] = ([], .copyOut run.announced.fields.length) := by
  rw [singleMessages, run.isCopy]

theorem readable_eq (hconn : x.1.backendConn = some c)
    (hcommand : (x.2.conns c).command = some command) (chunks : List Text) (copyEnd : CopyEnd) :
    sessionOnBackendReadable (run.input chunks copyEnd) flush x =
      flushOrDestroy flush (copyOutRead c command (run.input chunks copyEnd)
        (((x.1.queueAll (.result c command) []).queue (.result c command)
          (.copyOutResponse run.announced.fields.length)).setState .copyOut, x.2)) := by
  unfold sessionOnBackendReadable
  simp only [input, hconn, hcommand, Bool.false_eq_true, if_false]
  unfold drainSingle
  dsimp only
  rw [singleMessages_announced]

/-- An event in which the data do not end, or {lit}`PQgetCopyData` fails. -/
theorem readable_copying (hflush : flush ≠ .failed) (hconn : x.1.backendConn = some c)
    (hcommand : (x.2.conns c).command = some command) (chunks : List Text) {copyEnd : CopyEnd}
    (hend : copyEnd = .pending ∨ copyEnd = .failed) :
    run.Copying chunks x (sessionOnBackendReadable (run.input chunks copyEnd) flush x) := by
  have hread : ∀ y, copyOutRead c command (run.input chunks copyEnd) y =
      (y.1.queueAll (.result c command) (chunks.map .copyData), y.2) := by
    intro y
    rcases hend with rfl | rfl <;> rfl
  rw [run.readable_eq hconn hcommand, hread]
  have hkept := flushOrDestroy_kept hflush
    ((((x.1.queueAll (.result c command) []).queue (.result c command)
      (.copyOutResponse run.announced.fields.length)).setState .copyOut).queueAll
        (.result c command) (chunks.map .copyData), x.2)
  refine ⟨hkept.quiet.state, hkept.backend, hkept.backends, ?_⟩
  rw [flushOrDestroy_out]
  simp [Session.queueAll, Session.queue, Session.setState, Function.comp_def]

/-- The event in which the data end leaves the command in progress. -/
theorem readable_done (hflush : flush ≠ .failed) (hconn : x.1.backendConn = some c)
    (hcommand : (x.2.conns c).command = some command) (chunks : List Text) (final : PGresult) :
    (sessionOnBackendReadable (run.input chunks (.done (some final))) flush x).2 = x.2 := by
  have hactive : pqTransactionStatus (x.2.conns c) ≠ .idle := by
    intro hidle
    rw [(pqTransactionStatus_idle hidle).2.1] at hcommand
    cases hcommand
  have hreport : ∀ s : Session, (reportReady c (s, x.2)).2 = x.2 := by
    intro s
    unfold reportReady
    dsimp only
    rw [if_neg fun h => hactive h.1]
  rw [run.readable_eq hconn hcommand, (flushOrDestroy_kept hflush _).backends]
  unfold copyOutRead finishCopyOut
  dsimp only [input]
  split <;> exact hreport _

/-- The event that finds the error of a copy ends the command. -/
theorem readable_error (hflush : flush ≠ .failed) (hconn : x.1.backendConn = some c)
    (hcommand : (x.2.conns c).command = some command) {error : PGresult}
    (herror : error.status = .fatalError) (xact : Xact) :
    let y := sessionOnBackendReadable { results := [error], xact := xact } flush x
    y.1.state = .ready ∧ (y.2.conns c).command = none ∧
      ∃ status, y.1.out.map Queued.msg = x.1.out.map Queued.msg ++
        [.errorResponse (errorFields error), .readyForQuery status] := by
  have hmsgs : singleMessages false [error] = ([.errorResponse (errorFields error)], .null) := by
    rw [singleMessages, herror]
    rfl
  have hdrain : sessionOnBackendReadable { results := [error], xact := xact } flush x =
      flushOrDestroy flush (finishSingle c
        ((x.1.queueAll (.result c command) [.errorResponse (errorFields error)]).noteOver
          .backend, x.2.endCommand c xact)) := by
    unfold sessionOnBackendReadable
    simp only [hconn, hcommand, Bool.false_eq_true, if_false]
    unfold drainSingle
    dsimp only
    rw [hmsgs]
  intro y
  have hkept := flushOrDestroy_kept hflush (finishSingle c
    ((x.1.queueAll (.result c command) [.errorResponse (errorFields error)]).noteOver
      .backend, x.2.endCommand c xact))
  rw [← hdrain] at hkept
  refine ⟨hkept.quiet.state, ?_, ?_⟩
  · rw [hkept.backends]
    unfold finishSingle
    dsimp only
    rw [command_reportReady]
    exact Backends.command_endCommand c xact
  · refine ⟨txnStatusOf (pqTransactionStatus ((x.2.endCommand c xact).conns c)), ?_⟩
    change (sessionOnBackendReadable _ flush x).1.out.map Queued.msg = _
    rw [hdrain, flushOrDestroy_out, finishSingle_out]
    simp [Session.queueAll, Session.noteOver]

end Event

/-! ## The copy -/

/-- The events that end in 0. -/
theorem runReadable_early (run : CopyRun) {c : ConnId} {command : Command}
    (early : List (List Text)) (rest : List BackendInput) (blocks : Nat → Bool) {x : Conf}
    (hconn : x.1.backendConn = some c) (hcommand : (x.2.conns c).command = some command) :
    ∃ y : Conf, y.1.backendConn = some c ∧ y.2 = x.2 ∧
      y.1.out.map Queued.msg = x.1.out.map Queued.msg ++ early.flatMap (fun chunks =>
        .copyOutResponse run.announced.fields.length :: chunks.map .copyData) ∧
      runReadable blocks (early.map (run.input · .pending) ++ rest) x =
        runReadable (fun n => blocks (n + early.length)) rest y := by
  induction early generalizing blocks x with
  | nil => exact ⟨x, hconn, rfl, by simp, rfl⟩
  | cons chunks early ih =>
      have hcopy := run.readable_copying (blocks_ne_failed (blocks 0)) hconn hcommand chunks
        (Or.inl rfl)
      have hconn' := hcopy.backend.trans hconn
      have hcommand' := hcommand
      rw [← hcopy.backends] at hcommand'
      rcases ih (fun n => blocks (n + 1)) hconn' hcommand' with ⟨y, hyconn, hy, hout, hrun⟩
      refine ⟨y, hyconn, hy.trans hcopy.backends, ?_, ?_⟩
      · rw [hout, hcopy.out, List.flatMap_cons, List.append_assoc]
      · rw [List.map_cons, List.cons_append, runReadable, hrun]
        simp only [List.length_cons, Nat.add_assoc]

/-- The copy ends in -2 and its error is found later: what the client was sent. -/
theorem failed_messages (run : CopyRun) {c : ConnId} {command : Command} {x : Conf}
    (hconn : x.1.backendConn = some c) (hcommand : (x.2.conns c).command = some command)
    {error : PGresult} (hending : run.ending = .failed (some error)) :
    let y := runReadable run.blocks run.inputs x
    y.1.state = .ready ∧ (y.2.conns c).command = none ∧
      ∃ status, (newMessages x y).map Queued.msg =
        (run.early ++ [run.last]).flatMap (fun chunks =>
            .copyOutResponse run.announced.fields.length :: chunks.map .copyData) ++
          [.errorResponse (errorFields error), .readyForQuery status] := by
  rcases run.runReadable_early run.early run.lastInputs run.blocks hconn hcommand with
    ⟨y, hyconn, hy, hyout, hrun⟩
  have hycommand := hcommand
  rw [← hy] at hycommand
  have hcopy := run.readable_copying (blocks_ne_failed (run.blocks (0 + run.early.length)))
    hyconn hycommand run.last (Or.inr rfl)
  have hzcommand := hycommand
  rw [← hcopy.backends] at hzcommand
  have herror := readable_error (blocks_ne_failed (run.blocks (0 + 1 + run.early.length)))
    (hcopy.backend.trans hyconn) hzcommand (run.isError error hending) run.xact
  rcases herror with ⟨hstate, hover, status, hout⟩
  intro z
  have hz : z = runReadable (fun n => run.blocks (n + run.early.length)) run.lastInputs y := hrun
  have hlast : run.lastInputs =
      [run.input run.last .failed, { results := [error], xact := run.xact }] := by
    rw [lastInputs, hending]
  rw [hlast, runReadable, runReadable, runReadable] at hz
  rw [hz]
  refine ⟨hstate, hover, status, ?_⟩
  rw [newMessages, List.map_drop, hout, hcopy.out, hyout]
  simp

/-- The copy ends in -1: its command stays in progress. -/
theorem done_command (run : CopyRun) {c : ConnId} {command : Command} {x : Conf}
    (hconn : x.1.backendConn = some c) (hcommand : (x.2.conns c).command = some command)
    {final : PGresult} (hending : run.ending = .done final) :
    ((runReadable run.blocks run.inputs x).2.conns c).command = some command := by
  rcases run.runReadable_early run.early run.lastInputs run.blocks hconn hcommand with
    ⟨y, hyconn, hy, -, hrun⟩
  have hycommand := hcommand
  rw [← hy] at hycommand
  have hdone := run.readable_done (blocks_ne_failed (run.blocks (0 + run.early.length)))
    hyconn hycommand run.last final
  rw [inputs, hrun, lastInputs, hending]
  dsimp only
  rw [runReadable, runReadable, hdone]
  exact hycommand

/-- The copy ends in -2 and no event follows: the session goes on copying. -/
theorem failed_state (run : CopyRun) {c : ConnId} {command : Command} {x : Conf}
    (hconn : x.1.backendConn = some c) (hcommand : (x.2.conns c).command = some command)
    (hending : run.ending = .failed none) :
    (runReadable run.blocks run.inputs x).1.state = .copyOut := by
  rcases run.runReadable_early run.early run.lastInputs run.blocks hconn hcommand with
    ⟨y, hyconn, hy, -, hrun⟩
  have hycommand := hcommand
  rw [← hy] at hycommand
  have hcopy := run.readable_copying (blocks_ne_failed (run.blocks (0 + run.early.length)))
    hyconn hycommand run.last (Or.inr rfl)
  rw [inputs, hrun, lastInputs, hending]
  exact hcopy.state

/-- A copy is answered as it should be if and only if its data come in one event, which ends
in -2, and the error in a later one. -/
theorem copied_iff (run : CopyRun) {c : ConnId} {command : Command} {x : Conf}
    (hconn : x.1.backendConn = some c) (hcommand : (x.2.conns c).command = some command) :
    run.Answered c x (runReadable run.blocks run.inputs x) ↔
      run.early = [] ∧ ∃ error, run.ending = .failed (some error) := by
  constructor
  · rintro ⟨hready, hover, verdict, status, hverdict, hmsgs⟩
    cases hending : run.ending with
    | done final =>
        rw [run.done_command hconn hcommand hending] at hover
        cases hover
    | failed error =>
        cases error with
        | none =>
            rw [run.failed_state hconn hcommand hending] at hready
            cases hready
        | some error =>
            refine ⟨?_, error, rfl⟩
            rcases run.failed_messages hconn hcommand hending with ⟨-, -, status', hsent⟩
            rw [Verdict, hending] at hverdict
            rcases hverdict with ⟨fields, rfl⟩
            rw [hsent] at hmsgs
            -- a second announcement would stand where only data and the verdict are
            cases hearly : run.early with
            | nil => rfl
            | cons chunks early =>
                rw [hearly] at hmsgs
                simp only [List.cons_append, List.flatMap_cons, List.cons.injEq, true_and] at hmsgs
                have hmem : BackendMsg.copyOutResponse run.announced.fields.length ∈
                    run.chunks.map .copyData ++ [.errorResponse fields] ++
                      [.readyForQuery status] := by
                  rw [← hmsgs]
                  simp
                simp at hmem
  · rintro ⟨hearly, error, hending⟩
    rcases run.failed_messages hconn hcommand hending with ⟨hready, hover, status, hsent⟩
    refine ⟨hready, hover, [.errorResponse (errorFields error)], status, ?_, ?_⟩
    · rw [Verdict, hending]
      exact ⟨_, rfl⟩
    · rw [hsent, chunks, hearly]
      simp

/-- A copy of a table of one column whose last event has one row. -/
def demoCopy (ending : CopyEnding)
    (isError : ∀ error, ending = .failed (some error) → error.status = .fatalError)
    (early : List (List Text)) : CopyRun where
  announced := { status := .copyOut, fields := [⟨ascii "id", 23, 4, -1⟩] }
  early := early
  last := [ascii "2\n"]
  ending := ending
  xact := .idle
  blocks _ := false
  isCopy := rfl
  isError := isError

/-- An error that the server reports. -/
def demoError : PGresult where
  status := .fatalError
  sqlstate := some (ascii "57014")

/-- A copy that fails within one event. -/
theorem failed_copy_answered :
    let run := demoCopy (.failed (some demoError)) (by rintro _ ⟨⟩; rfl) []
    run.Answered 0 waitingSession (runReadable run.blocks run.inputs waitingSession) := by
  intro run
  have hcommand : (waitingSession.2.conns 0).command = some ⟨0, ascii "query"⟩ := rfl
  exact (run.copied_iff rfl hcommand).mpr ⟨rfl, demoError, rfl⟩

/-- A copy whose data come in two events: it is announced twice, and its command is in
progress when the session is ready. -/
theorem announced_twice :
    let run := demoCopy (.done { status := .commandOk, cmdStatus := ascii "COPY 2" })
      (by rintro _ ⟨⟩) [[ascii "1\n"]]
    let y := runReadable run.blocks run.inputs waitingSession
    ¬ run.Answered 0 waitingSession y ∧
      (newMessages waitingSession y).map Queued.msg =
        [.copyOutResponse 1, .copyData (ascii "1\n"), .copyOutResponse 1,
          .copyData (ascii "2\n"), .copyDone, .commandComplete (ascii "COPY 2"),
          .readyForQuery .idle] ∧
      y.1.state = .ready ∧ (y.2.conns 0).command.isSome := by
  intro run y
  have hcommand : (y.2.conns 0).command.isSome := by decide
  refine ⟨?_, by decide, by decide, hcommand⟩
  intro h
  rw [h.ended] at hcommand
  cases hcommand

end CopyRun

end Sharegres
