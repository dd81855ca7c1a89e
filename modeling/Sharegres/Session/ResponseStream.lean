import Sharegres.Session.Outcomes

/-!
# Session - Responses to queries on a single backend

What the client should get for the results of a query, and what
{lit}`session_on_backend_readable` queues.  The flag {lit}`header_sent` is carried from one
result to the next, so only the first result with rows is described; and an empty query is
not answered at all.

Main results:

- Definition {lit}`PGresult.response`: the response to one result.
- Theorem {lit}`response_wellFormed_iff`: which results are answered as they should be.
- Theorem {lit}`second_rows_not_described`: a query of two statements that return rows.
-/

namespace Sharegres

open Foundation

/-! ## The response to a list of results -/

/-- Parts of a response, without the texts of tags and errors. -/
inductive ResponsePart where
  | rowDescription (fields : List FieldDesc)
  | dataRow (cells : List (Option Text))
  | commandComplete
  | emptyQueryResponse
  | errorResponse
  | readyForQuery
  | other
deriving DecidableEq

/-- The part of a response that a message is. -/
def BackendMsg.part : BackendMsg → ResponsePart
  | .rowDescription fields => .rowDescription fields
  | .dataRow cells => .dataRow cells
  | .commandComplete _ => .commandComplete
  | .errorResponse _ => .errorResponse
  | .readyForQuery _ => .readyForQuery
  | _ => .other

/-- The response to one result. -/
def PGresult.response (res : PGresult) : List ResponsePart :=
  match res.status with
  | .tuplesOk => .rowDescription res.fields :: (res.rows.map .dataRow ++ [.commandComplete])
  | .commandOk => [.commandComplete]
  | .emptyQuery => [.emptyQueryResponse]
  | .fatalError => [.errorResponse]
  | _ => []

/-- The results of queries other than copies. -/
def PGresult.plain (res : PGresult) : Prop :=
  res.status = .tuplesOk ∨ res.status = .commandOk ∨ res.status = .emptyQuery ∨
    res.status = .fatalError

/-- The messages are the responses to the results in order, and a ReadyForQuery. -/
def WellFormedResponse (results : List PGresult) (msgs : List BackendMsg) : Prop :=
  msgs.map BackendMsg.part = results.flatMap PGresult.response ++ [.readyForQuery]

/-! ## The messages of the loop -/

/-- Results that the loop answers as it should: no empty query, and one result with rows
and columns at most, none if a header was sent before. -/
structure Answerable (headerSent : Bool) (results : List PGresult) : Prop where
  notEmpty : ∀ res ∈ results, res.status ≠ .emptyQuery
  columns : ∀ res ∈ results, res.status = .tuplesOk → res.fields ≠ []
  once : results.countP (fun res => res.status = .tuplesOk) + headerSent.toNat ≤ 1

instance (headerSent : Bool) (results : List PGresult) :
    Decidable (Answerable headerSent results) :=
  decidable_of_iff ((∀ res ∈ results, res.status ≠ .emptyQuery) ∧
      (∀ res ∈ results, res.status = .tuplesOk → res.fields ≠ []) ∧
      results.countP (fun res => res.status = .tuplesOk) + headerSent.toNat ≤ 1)
    ⟨fun h => ⟨h.1, h.2.1, h.2.2⟩, fun h => ⟨h.notEmpty, h.columns, h.once⟩⟩

/-- A first result without rows. -/
theorem answerable_cons {headerSent : Bool} {res : PGresult} {rest : List PGresult}
    (hrows : res.status ≠ .tuplesOk) (hempty : res.status ≠ .emptyQuery) :
    Answerable headerSent (res :: rest) ↔ Answerable headerSent rest := by
  constructor
  · intro h
    refine ⟨fun r hr => h.notEmpty r (List.mem_cons_of_mem _ hr),
      fun r hr => h.columns r (List.mem_cons_of_mem _ hr), ?_⟩
    have honce := h.once
    rw [List.countP_cons_of_neg (by simpa using hrows)] at honce
    exact honce
  · intro h
    refine ⟨List.forall_mem_cons.mpr ⟨hempty, h.notEmpty⟩,
      List.forall_mem_cons.mpr ⟨fun hc => absurd hc hrows, h.columns⟩, ?_⟩
    rw [List.countP_cons_of_neg (by simpa using hrows)]
    exact h.once

/-- A first result with rows. -/
theorem answerable_cons_tuples {headerSent : Bool} {res : PGresult} {rest : List PGresult}
    (hrows : res.status = .tuplesOk) :
    Answerable headerSent (res :: rest) ↔
      headerSent = false ∧ res.fields ≠ [] ∧ Answerable true rest := by
  constructor
  · intro h
    have honce := h.once
    rw [List.countP_cons_of_pos (by simpa using hrows)] at honce
    cases headerSent with
    | true => simp at honce
    | false =>
        refine ⟨rfl, h.columns res List.mem_cons_self hrows,
          fun r hr => h.notEmpty r (List.mem_cons_of_mem _ hr),
          fun r hr => h.columns r (List.mem_cons_of_mem _ hr), ?_⟩
        simpa using honce
  · rintro ⟨rfl, hfields, h⟩
    refine ⟨List.forall_mem_cons.mpr ⟨by simp [hrows], h.notEmpty⟩,
      List.forall_mem_cons.mpr ⟨fun _ => hfields, h.columns⟩, ?_⟩
    rw [List.countP_cons_of_pos (by simpa using hrows)]
    exact h.once

/-- No message is an EmptyQueryResponse. -/
theorem part_ne_emptyQueryResponse (msg : BackendMsg) : msg.part ≠ .emptyQueryResponse := by
  cases msg <;> simp [BackendMsg.part]

/-- The messages for rows, with or without their header. -/
theorem rowMessages_part (res : PGresult) (sendHeader : Bool) :
    (rowMessages res sendHeader).map BackendMsg.part =
      (if sendHeader ∧ res.fields ≠ [] then [.rowDescription res.fields] else []) ++
        res.rows.map .dataRow := by
  unfold rowMessages
  rw [List.map_append, List.map_map]
  split <;> rfl

/-- Rows whose header is missing are not the response to their result. -/
theorem headless_ne (res : PGresult) (tail tail' : List ResponsePart) :
    res.rows.map ResponsePart.dataRow ++ .commandComplete :: tail ≠
      .rowDescription res.fields :: tail' := by
  cases res.rows with
  | nil => simp
  | cons row rows => simp

/-- The messages of the loop are the responses to the results exactly if they can be
answered. -/
theorem singleMessages_wellFormed_iff {results : List PGresult}
    (hplain : ∀ res ∈ results, res.plain) (headerSent : Bool) :
    (singleMessages headerSent results).1.map BackendMsg.part =
        results.flatMap PGresult.response ↔ Answerable headerSent results := by
  induction results generalizing headerSent with
  | nil => exact iff_of_true rfl ⟨by simp, by simp, by cases headerSent <;> simp⟩
  | cons res rest ih =>
      have hrest : ∀ res ∈ rest, res.plain := fun r hr => hplain r (List.mem_cons_of_mem _ hr)
      rw [List.flatMap_cons]
      rcases hplain res List.mem_cons_self with hstatus | hstatus | hstatus | hstatus
      · have hmsgs : (singleMessages headerSent (res :: rest)).1 =
            rowMessages res (!headerSent) ++
              .commandComplete (selectTag res) :: (singleMessages true rest).1 := by
          rw [singleMessages, hstatus]
        have hresp : res.response =
            .rowDescription res.fields :: (res.rows.map .dataRow ++ [.commandComplete]) := by
          rw [PGresult.response, hstatus]
        rw [hmsgs, hresp, List.map_append, rowMessages_part, answerable_cons_tuples hstatus,
          List.map_cons, ← ih hrest true]
        by_cases hheader : headerSent = false ∧ res.fields ≠ []
        · rw [if_pos (by simpa using hheader)]
          simp [hheader, BackendMsg.part]
        · rw [if_neg (by simpa using hheader), List.nil_append]
          exact iff_of_false (headless_ne res _ _) fun h => hheader ⟨h.1, h.2.1⟩
      · have hmsgs : (singleMessages headerSent (res :: rest)).1 =
            .commandComplete res.cmdStatus :: (singleMessages headerSent rest).1 := by
          rw [singleMessages, hstatus]
        have hresp : res.response = [.commandComplete] := by rw [PGresult.response, hstatus]
        rw [hmsgs, hresp, answerable_cons (by simp [hstatus]) (by simp [hstatus]),
          ← ih hrest headerSent]
        simp [BackendMsg.part]
      · -- the response to an empty query is never queued
        have hresp : res.response = [.emptyQueryResponse] := by rw [PGresult.response, hstatus]
        rw [hresp]
        apply iff_of_false
        · intro heq
          have hmem : ResponsePart.emptyQueryResponse ∈
              (singleMessages headerSent (res :: rest)).1.map BackendMsg.part := by
            rw [heq]
            simp
          rcases List.mem_map.mp hmem with ⟨msg, -, hpart⟩
          exact part_ne_emptyQueryResponse msg hpart
        · intro h
          exact h.notEmpty res List.mem_cons_self hstatus
      · have hmsgs : (singleMessages headerSent (res :: rest)).1 =
            .errorResponse (errorFields res) :: (singleMessages headerSent rest).1 := by
          rw [singleMessages, hstatus]
        have hresp : res.response = [.errorResponse] := by rw [PGresult.response, hstatus]
        rw [hmsgs, hresp, answerable_cons (by simp [hstatus]) (by simp [hstatus]),
          ← ih hrest headerSent]
        simp [BackendMsg.part]

/-- The loop over the results of other queries runs to its end. -/
theorem singleMessages_null {results : List PGresult} (hplain : ∀ res ∈ results, res.plain)
    (headerSent : Bool) : (singleMessages headerSent results).2 = .null := by
  induction results generalizing headerSent with
  | nil => rfl
  | cons res rest ih =>
      have hrest : ∀ res ∈ rest, res.plain := fun r hr => hplain r (List.mem_cons_of_mem _ hr)
      unfold singleMessages
      rcases hplain res List.mem_cons_self with hstatus | hstatus | hstatus | hstatus <;>
        rw [hstatus] <;> exact ih hrest _

/-! ## The handler -/

/-- The report at the end of a query is one ReadyForQuery. -/
theorem finishSingle_out (c : ConnId) (x : Conf) :
    (finishSingle c x).1.out =
      x.1.out ++ [⟨.readyForQuery (txnStatusOf (pqTransactionStatus (x.2.conns c))),
        .ready x.1.awaited.card⟩] := by
  unfold finishSingle reportReady
  dsimp only
  split
  · exact releaseBackend_out _
  · rfl

/-- The messages of the handler for results that are not copies. -/
theorem sessionOnBackendReadable_parts {input : BackendInput} {flush : SendOutcome} {x : Conf}
    {c : ConnId} {command : Command} (hconn : x.1.backendConn = some c)
    (hcommand : (x.2.conns c).command = some command) (hhangup : input.hangup = false)
    (hconsume : input.consumeFails = none) (hbusy : input.busy = false)
    (hplain : ∀ res ∈ input.results, res.plain) :
    ((newMessages x (sessionOnBackendReadable input flush x)).map Queued.msg).map
        BackendMsg.part =
      (singleMessages false input.results).1.map BackendMsg.part ++ [.readyForQuery] := by
  have hdrain : sessionOnBackendReadable input flush x =
      flushOrDestroy flush (drainSingle c command input x) := by
    unfold sessionOnBackendReadable
    simp [hhangup, hconn, hconsume, hcommand, hbusy]
  rw [newMessages, hdrain, flushOrDestroy_out]
  unfold drainSingle
  dsimp only
  rw [singleMessages_null hplain false]
  dsimp only
  rw [finishSingle_out]
  simp [Session.queueAll, Session.noteOver, BackendMsg.part, Function.comp_def]

/-- A query other than a copy is answered as it should be if and only if no statement of it
is empty, at most one of them returns rows, and those have a column. -/
theorem response_wellFormed_iff {input : BackendInput} {flush : SendOutcome} {x : Conf}
    {c : ConnId} {command : Command} (hconn : x.1.backendConn = some c)
    (hcommand : (x.2.conns c).command = some command) (hhangup : input.hangup = false)
    (hconsume : input.consumeFails = none) (hbusy : input.busy = false)
    (hplain : ∀ res ∈ input.results, res.plain) :
    WellFormedResponse input.results
        ((newMessages x (sessionOnBackendReadable input flush x)).map Queued.msg) ↔
      Answerable false input.results := by
  rw [← singleMessages_wellFormed_iff hplain]
  unfold WellFormedResponse
  rw [sessionOnBackendReadable_parts hconn hcommand hhangup hconsume hbusy hplain]
  exact List.append_left_inj _

/-- A session that waits for the answer of a backend. -/
def waitingSession : Conf :=
  ({ id := 0, state := .query, backendConn := some 0, backendBusy := true,
     awaited := {.backend} },
    { conns := fun _ => { command := some ⟨0, ascii "query"⟩ }
      pools := fun _ => { maxSize := 1 } })

/-- One row with one column. -/
def oneRow (name value : Text) : PGresult where
  status := .tuplesOk
  fields := [⟨name, 23, 4, -1⟩]
  rows := [[some value]]
  cmdStatus := ascii "SELECT 1"

/-- A command without rows. -/
def oneCommand (tag : Text) : PGresult where
  status := .commandOk
  cmdStatus := tag

/-- A query of two statements of which the second returns a row. -/
theorem insert_select_wellFormed :
    WellFormedResponse [oneCommand (ascii "INSERT 0 1"), oneRow (ascii "a") (ascii "1")]
      ((newMessages waitingSession (sessionOnBackendReadable
        { results := [oneCommand (ascii "INSERT 0 1"), oneRow (ascii "a") (ascii "1")] } .all
        waitingSession)).map Queued.msg) := by
  have hcommand : (waitingSession.2.conns 0).command = some ⟨0, ascii "query"⟩ := rfl
  exact (response_wellFormed_iff rfl hcommand rfl rfl rfl
    (by simp [PGresult.plain, oneRow, oneCommand])).mpr (by decide)

/-- Two statements that return rows: the rows of the second follow no RowDescription. -/
theorem second_rows_not_described :
    ¬ WellFormedResponse [oneRow (ascii "a") (ascii "1"), oneRow (ascii "b") (ascii "2")]
      ((newMessages waitingSession (sessionOnBackendReadable
        { results := [oneRow (ascii "a") (ascii "1"), oneRow (ascii "b") (ascii "2")] } .all
        waitingSession)).map Queued.msg) := by
  unfold WellFormedResponse
  decide

end Sharegres
