import Sharegres.Router.WhereRouting
import Sharegres.Session.Callbacks

/-!
# Session - The loop over the results of a target

{lit}`session_on_scatter_readable` takes results from the library until there is none left.
The library answers a copy by the same result again until the client side ends it, which the
loop never does.

Main results:

- Definition {lit}`scatterLoop`: the loop, with a bound on the number of its rounds.
- Theorem {lit}`scatterLoop_eq_some_iff`: the loop computes {lit}`scatterMessages`.
- Theorem {lit}`sessionOnScatterReadable_within`: the callback with a bounded loop.
- Theorem {lit}`scatter_readable_ends_iff`: when a call of it ends.
- Theorem {lit}`scattered_copy_endless`: a copy in a scattered text.
-/

namespace Sharegres

open Foundation

variable {input : BackendInput} {headerSent : Bool} {i : Fin maxScatterShards}
  {results : List PGresult} {fuel : Nat} {res : PGresult}

/-! ## The loop -/

/-- The result puts the connection into a copy. -/
def PGresult.startsCopy (res : PGresult) : Bool :=
  res.status = .copyIn || res.status = .copyOut

/-- {lit}`PQgetResult` on a connection that has these results to give: in a copy it gives the
same one again. -/
def pqGetResult : List PGresult → Option PGresult × List PGresult
  | [] => (none, [])
  | res :: rest => (some res, if res.startsCopy then res :: rest else rest)

/-- What the loop does with one result: the messages it queues, and the value of
{lit}`scatter_header_sent` behind it. -/
def scatterResult (headerSent : Bool) (res : PGresult) : List BackendMsg × Bool :=
  match res.status with
  | .tuplesOk | .singleTuple => (rowMessages res (!headerSent), true)
  | _ => ([], headerSent)

/-- The loop over the results, for at most a number of rounds. -/
def scatterLoop : Nat → Bool → List PGresult → Option (List BackendMsg × Bool)
  | 0, _, _ => none
  | fuel + 1, headerSent, pending =>
      match pqGetResult pending with
      | (none, _) => some ([], headerSent)
      | (some res, pending) =>
          let queued := scatterResult headerSent res
          (scatterLoop fuel queued.2 pending).map fun r => (queued.1 ++ r.1, r.2)

/-- A result that starts a copy keeps the loop going. -/
theorem scatterLoop_copy (hcopy : res.startsCopy = true) (fuel : Nat) (headerSent : Bool)
    (rest : List PGresult) :
    scatterLoop fuel headerSent (res :: rest) = none := by
  induction fuel generalizing headerSent with
  | zero => rfl
  | succ fuel ih =>
      rw [scatterLoop, pqGetResult, if_pos hcopy]
      dsimp only
      rw [ih]
      rfl

/-- Any other result is taken. -/
theorem scatterLoop_cons (hcopy : res.startsCopy = false) (fuel : Nat) (headerSent : Bool)
    (rest : List PGresult) :
    scatterLoop (fuel + 1) headerSent (res :: rest) =
      (scatterLoop fuel (scatterResult headerSent res).2 rest).map fun r =>
        ((scatterResult headerSent res).1 ++ r.1, r.2) := by
  rw [scatterLoop, pqGetResult, if_neg (by simp [hcopy])]

theorem scatterMessages_copy (hcopy : res.startsCopy = true) (headerSent : Bool)
    (rest : List PGresult) :
    scatterMessages headerSent (res :: rest) = none := by
  unfold PGresult.startsCopy at hcopy
  unfold scatterMessages
  cases hstatus : res.status <;> simp_all

theorem scatterMessages_cons (hcopy : res.startsCopy = false) (headerSent : Bool)
    (rest : List PGresult) :
    scatterMessages headerSent (res :: rest) =
      (scatterMessages (scatterResult headerSent res).2 rest).map fun r =>
        ((scatterResult headerSent res).1 ++ r.1, r.2) := by
  unfold PGresult.startsCopy at hcopy
  rw [scatterMessages]
  unfold scatterResult
  cases hstatus : res.status <;> simp_all

/-- One round more than there are results is enough. -/
theorem scatterLoop_enough (hfuel : results.length < fuel) :
    scatterLoop fuel headerSent results = scatterMessages headerSent results := by
  induction results generalizing fuel headerSent with
  | nil =>
      cases fuel with
      | zero => omega
      | succ fuel => rfl
  | cons res rest ih =>
      cases fuel with
      | zero => omega
      | succ fuel =>
          cases hcopy : res.startsCopy with
          | true => rw [scatterLoop_copy hcopy, scatterMessages_copy hcopy]
          | false =>
              rw [scatterLoop_cons hcopy, scatterMessages_cons hcopy,
                ih (Nat.lt_of_succ_lt_succ hfuel)]

/-- A loop that ends has done what {lit}`scatterMessages` says. -/
theorem scatterLoop_sound {r : List BackendMsg × Bool}
    (h : scatterLoop fuel headerSent results = some r) :
    scatterMessages headerSent results = some r := by
  induction results generalizing fuel headerSent r with
  | nil =>
      cases fuel with
      | zero => cases h
      | succ fuel => exact h
  | cons res rest ih =>
      cases hcopy : res.startsCopy with
      | true =>
          rw [scatterLoop_copy hcopy] at h
          cases h
      | false =>
          cases fuel with
          | zero => cases h
          | succ fuel =>
              rw [scatterLoop_cons hcopy] at h
              rcases Option.map_eq_some_iff.mp h with ⟨r', hr', rfl⟩
              rw [scatterMessages_cons hcopy, ih hr', Option.map_some]

/-- The loop ends with what {lit}`scatterMessages` says, or not at all. -/
theorem scatterLoop_eq_some_iff {r : List BackendMsg × Bool} :
    (∃ fuel, scatterLoop fuel headerSent results = some r) ↔
      scatterMessages headerSent results = some r :=
  ⟨fun ⟨_, h⟩ => scatterLoop_sound h,
    fun h => ⟨results.length + 1, (scatterLoop_enough (Nat.lt_succ_self _)).trans h⟩⟩

theorem scatterMessages_isSome_iff :
    (scatterMessages headerSent results).isSome = true ↔
      ∀ res ∈ results, res.startsCopy = false := by
  induction results generalizing headerSent with
  | nil => simp [scatterMessages]
  | cons res rest ih =>
      cases hcopy : res.startsCopy with
      | true => simp [scatterMessages_copy hcopy, hcopy]
      | false => simp [scatterMessages_cons hcopy, hcopy, ih]

/-! ## The callback -/

/-- The slot behind the loop. -/
def afterLoop (i : Fin maxScatterShards) (c : ConnId) (command : Command) (input : BackendInput)
    (x : Conf) (r : List BackendMsg × Bool) : Conf :=
  (markDone i { x.1.queueAll (.result c command) r.1 with scatterHeaderSent := r.2 },
    x.2.endCommand c input.xact)

/-- {lit}`session_on_scatter_readable` with its loop, for at most a number of rounds. -/
def sessionOnScatterReadableWithin (fuel : Nat) (i : Fin maxScatterShards) (input : BackendInput)
    (flush : SendOutcome) (x : Conf) : Option Conf :=
  if input.hangup then some (checkComplete flush (markDone i x.1, x.2))
  else
    match (x.1.scatter i).conn with
    | none => some x
    | some c =>
        match input.consumeFails with
        | some status => some (checkComplete flush (markDone i x.1, x.2.setStatus c status))
        | none =>
            match (x.2.conns c).command with
            | none => some (checkComplete flush (markDone i x.1, x.2))
            | some command =>
                if input.busy then some x
                else
                  (scatterLoop fuel x.1.scatterHeaderSent input.results).map fun r =>
                    checkComplete flush (afterLoop i c command input x r)

/-- The call comes to the loop. -/
structure ReachesLoop (i : Fin maxScatterShards) (input : BackendInput) (x : Conf)
    (c : ConnId) : Prop where
  hangup : input.hangup = false
  conn : (x.1.scatter i).conn = some c
  consumes : input.consumeFails = none
  command : (x.2.conns c).command.isSome = true
  busy : input.busy = false

instance (i : Fin maxScatterShards) (input : BackendInput) (x : Conf) (c : ConnId) :
    Decidable (ReachesLoop i input x c) :=
  decidable_of_iff (input.hangup = false ∧ (x.1.scatter i).conn = some c ∧
      input.consumeFails = none ∧ (x.2.conns c).command.isSome = true ∧ input.busy = false)
    ⟨fun h => ⟨h.1, h.2.1, h.2.2.1, h.2.2.2.1, h.2.2.2.2⟩,
      fun h => ⟨h.hangup, h.conn, h.consumes, h.command, h.busy⟩⟩

/-- Enough rounds make the callback the one of the model. -/
theorem sessionOnScatterReadable_within (i : Fin maxScatterShards) (input : BackendInput)
    (flush : SendOutcome) (x : Conf) (hfuel : input.results.length < fuel) :
    sessionOnScatterReadableWithin fuel i input flush x =
      sessionOnScatterReadable i input flush x := by
  unfold sessionOnScatterReadableWithin sessionOnScatterReadable drainSlot
  rw [scatterLoop_enough hfuel]
  simp only [Option.map_map]
  rfl

/-- A call that comes to the loop does nothing but the loop and what follows it. -/
theorem ReachesLoop.within {x : Conf} {c : ConnId} (h : ReachesLoop i input x c)
    (flush : SendOutcome) :
    ∃ command, ∀ fuel, sessionOnScatterReadableWithin fuel i input flush x =
      (scatterLoop fuel x.1.scatterHeaderSent input.results).map fun r =>
        checkComplete flush (afterLoop i c command input x r) := by
  rcases Option.isSome_iff_exists.mp h.command with ⟨command, hcommand⟩
  refine ⟨command, fun fuel => ?_⟩
  unfold sessionOnScatterReadableWithin
  rw [h.hangup, if_neg (by simp), h.conn]
  dsimp only
  rw [h.consumes]
  dsimp only
  rw [hcommand]
  dsimp only
  rw [h.busy, if_neg (by simp)]

/-- What a call that comes to the loop has done when it ends. -/
theorem ReachesLoop.call {x z : Conf} {c : ConnId} (h : ReachesLoop i input x c)
    {flush : SendOutcome} (hcall : sessionOnScatterReadable i input flush x = some z) :
    ∃ command r, scatterMessages x.1.scatterHeaderSent input.results = some r ∧
      z = checkComplete flush (afterLoop i c command input x r) := by
  rcases h.within flush with ⟨command, hwithin⟩
  rw [← sessionOnScatterReadable_within i input flush x (Nat.lt_succ_self _), hwithin,
    scatterLoop_enough (Nat.lt_succ_self _)] at hcall
  rcases Option.map_eq_some_iff.mp hcall with ⟨r, hr, rfl⟩
  exact ⟨command, r, hr, rfl⟩

/-- A call that does not come to the loop ends. -/
theorem within_of_not_reachesLoop {x : Conf} (h : ∀ c, ¬ ReachesLoop i input x c)
    (flush : SendOutcome) (fuel : Nat) :
    ∃ y, sessionOnScatterReadableWithin fuel i input flush x = some y := by
  unfold sessionOnScatterReadableWithin
  cases hhangup : input.hangup with
  | true => exact ⟨_, if_pos rfl⟩
  | false =>
      rw [if_neg (by simp)]
      cases hconn : (x.1.scatter i).conn with
      | none => exact ⟨x, rfl⟩
      | some c =>
          dsimp only
          cases hfails : input.consumeFails with
          | some status => exact ⟨_, rfl⟩
          | none =>
              dsimp only
              cases hcommand : (x.2.conns c).command with
              | none => exact ⟨_, rfl⟩
              | some command =>
                  dsimp only
                  cases hbusy : input.busy with
                  | true => exact ⟨x, if_pos rfl⟩
                  | false =>
                      exact absurd ⟨hhangup, hconn, hfails, by rw [hcommand]; rfl, hbusy⟩ (h c)

/-- A call ends exactly if it does not come to the loop, or none of the results there starts a
copy. -/
theorem scatter_readable_ends_iff (i : Fin maxScatterShards) (input : BackendInput)
    (flush : SendOutcome) (x : Conf) :
    (∃ fuel y, sessionOnScatterReadableWithin fuel i input flush x = some y) ↔
      ∀ c, ReachesLoop i input x c → ∀ res ∈ input.results, res.startsCopy = false := by
  constructor
  · rintro ⟨fuel, y, hy⟩ c hreach
    rcases hreach.within flush with ⟨command, hwithin⟩
    rw [hwithin] at hy
    rcases Option.map_eq_some_iff.mp hy with ⟨r, hr, -⟩
    have hends : (scatterMessages x.1.scatterHeaderSent input.results).isSome = true := by
      rw [scatterLoop_sound hr]
      rfl
    exact scatterMessages_isSome_iff.mp hends
  · intro h
    by_cases hreach : ∃ c, ReachesLoop i input x c
    · rcases hreach with ⟨c, hreach⟩
      rcases hreach.within flush with ⟨command, hwithin⟩
      rcases Option.isSome_iff_exists.mp (scatterMessages_isSome_iff.mpr (h c hreach)) with ⟨r, hr⟩
      refine ⟨input.results.length + 1, checkComplete flush (afterLoop i c command input x r), ?_⟩
      rw [hwithin, scatterLoop_enough (Nat.lt_succ_self _), hr, Option.map_some]
    · push Not at hreach
      rcases within_of_not_reachesLoop hreach flush 0 with ⟨y, hy⟩
      exact ⟨0, y, hy⟩

/-- Both targets of a text have been sent their query. -/
def sentToBoth : Conf :=
  (executeScatter (ascii "SELECT FROM t; COPY t TO STDOUT") demoShards {}
    ({ id := 0, state := .ready }, { pools := fun _ => { maxSize := 4 } })).1

/-- The first target answers the SELECT of the text and starts the COPY behind it. -/
def copyBehindRows : BackendInput :=
  { results := [{ status := .tuplesOk }, { status := .copyOut }] }

/-- The call for a scattered text with a COPY in it does not end. -/
theorem scattered_copy_endless :
    sentToBoth.1.state = .scatter ∧ ReachesLoop 0 copyBehindRows sentToBoth 0 ∧
      ∀ fuel, sessionOnScatterReadableWithin fuel 0 copyBehindRows .all sentToBoth = none := by
  have hreach : ReachesLoop 0 copyBehindRows sentToBoth 0 := by
    constructor <;> decide +kernel
  refine ⟨by decide +kernel, hreach, fun fuel => ?_⟩
  rcases hreach.within .all with ⟨command, hwithin⟩
  have hmessages :
      scatterMessages sentToBoth.1.scatterHeaderSent copyBehindRows.results = none := by
    decide +kernel
  rw [hwithin, Option.map_eq_none_iff]
  cases hloop : scatterLoop fuel sentToBoth.1.scatterHeaderSent copyBehindRows.results with
  | none => rfl
  | some r =>
      rw [scatterLoop_sound hloop] at hmessages
      cases hmessages

end Sharegres
