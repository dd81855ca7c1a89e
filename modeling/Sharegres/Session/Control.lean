import Sharegres.Session.Callbacks

/-!
# Session - Control flow of a session

What the callbacks do to the state of a session, to the bookkeeping of a scatter, to the
backends awaited and to the messages that end a query.  Most pieces of code leave all of
this alone and may only give up the single backend; a Query message ends in one of four
ways.

Main results:

- Definition {lit}`Quiet`: nothing changed but the single backend was possibly given up.
- Theorem {lit}`handleQuery_case`: the ways a Query message can end.
- Theorem {lit}`startScatter_started`: the bookkeeping after a scatter was started.
- Theorem {lit}`sessionReleaseScatter_released`: the bookkeeping after it was given up.
-/

namespace Sharegres

open Foundation

namespace Session

/-- The ReadyForQuery messages queued. -/
def readies (s : Session) : List Queued :=
  s.out.filter fun q => q.msg.isReady

/-- The tags of gathered queries queued. -/
def gathers (s : Session) : List Queued :=
  s.out.filter fun q =>
    match q.origin with
    | .gather _ => true
    | _ => false

/-- Queued messages that a filter drops. -/
theorem filter_queueAll (s : Session) {origin : Origin} {msgs : List BackendMsg}
    {keep : Queued → Bool} (h : ∀ msg ∈ msgs, keep ⟨msg, origin⟩ = false) :
    (s.queueAll origin msgs).out.filter keep = s.out.filter keep := by
  have hnone : (msgs.map fun msg => (⟨msg, origin⟩ : Queued)).filter keep = [] := by
    apply List.filter_eq_nil_iff.mpr
    intro q hq
    rcases List.mem_map.mp hq with ⟨msg, hmsg, rfl⟩
    simp [h msg hmsg]
  rw [queueAll, List.filter_append, hnone, List.append_nil]

end Session

/-- Between the sessions nothing differs but messages that end no query, connections, and
that fewer backends are awaited. -/
structure Quiet (s s' : Session) : Prop where
  state : s'.state = s.state
  scatter : s'.scatter = s.scatter
  count : s'.scatterCount = s.scatterCount
  done : s'.scatterDone = s.scatterDone
  closed : s'.closed = s.closed
  queries : s'.queries = s.queries
  extended : s'.extended = s.extended
  sent : s'.sent = s.sent
  readies : s'.readies = s.readies
  gathers : s'.gathers = s.gathers
  awaited : s'.awaited ⊆ s.awaited

namespace Quiet

variable {s s' s'' : Session}

theorem refl (s : Session) : Quiet s s :=
  ⟨rfl, rfl, rfl, rfl, rfl, rfl, rfl, rfl, rfl, rfl, Finset.Subset.refl _⟩

theorem trans (h : Quiet s s') (h' : Quiet s' s'') : Quiet s s'' where
  state := h'.state.trans h.state
  scatter := h'.scatter.trans h.scatter
  count := h'.count.trans h.count
  done := h'.done.trans h.done
  closed := h'.closed.trans h.closed
  queries := h'.queries.trans h.queries
  extended := h'.extended.trans h.extended
  sent := h'.sent.trans h.sent
  readies := h'.readies.trans h.readies
  gathers := h'.gathers.trans h.gathers
  awaited := Finset.Subset.trans h'.awaited h.awaited

/-- The slots in use are the same. -/
theorem slots (h : Quiet s s') : s'.slots = s.slots := by
  rw [Session.slots, Session.slots, h.count]

/-- An answer is not awaited any more. -/
theorem noteOver (s : Session) (p : Place) : Quiet s (s.noteOver p) where
  state := rfl
  scatter := rfl
  count := rfl
  done := rfl
  closed := rfl
  queries := rfl
  extended := rfl
  sent := rfl
  readies := rfl
  gathers := rfl
  awaited := Finset.erase_subset _ _

/-- An answer that is over was so before or after anything quiet. -/
theorem noteOver_noteOver (h : Quiet s s') (p : Place) : Quiet (s.noteOver p) (s'.noteOver p) where
  state := h.state
  scatter := h.scatter
  count := h.count
  done := h.done
  closed := h.closed
  queries := h.queries
  extended := h.extended
  sent := h.sent
  readies := h.readies
  gathers := h.gathers
  awaited := Finset.erase_subset_erase p h.awaited

/-- The single backend is connected or released. -/
theorem setBackend (s : Session) (conn : Option ConnId) (shard : Option Shard) :
    Quiet s (s.setBackend conn shard) :=
  ⟨rfl, rfl, rfl, rfl, rfl, rfl, rfl, rfl, rfl, rfl, Finset.Subset.refl _⟩

theorem setBusy (s : Session) (busy : Bool) : Quiet s (s.setBusy busy) :=
  ⟨rfl, rfl, rfl, rfl, rfl, rfl, rfl, rfl, rfl, rfl, Finset.Subset.refl _⟩

/-- Queueing messages that end no query. -/
theorem queueAll (s : Session) {origin : Origin} {msgs : List BackendMsg}
    (hready : ∀ msg ∈ msgs, msg.isReady = false) (horigin : ∀ n, origin ≠ .gather n) :
    Quiet s (s.queueAll origin msgs) where
  state := rfl
  scatter := rfl
  count := rfl
  done := rfl
  closed := rfl
  queries := rfl
  extended := rfl
  sent := rfl
  readies := s.filter_queueAll hready
  gathers := by
    apply s.filter_queueAll
    intro msg hmsg
    cases origin with
    | gather n => exact absurd rfl (horigin n)
    | proxy => rfl
    | result c command => rfl
    | ready n => rfl
  awaited := Finset.Subset.refl _

/-- A message that ends no answer is queued. -/
theorem queue (s : Session) {origin : Origin} {msg : BackendMsg} (hready : msg.isReady = false)
    (horigin : ∀ n, origin ≠ .gather n) : Quiet s (s.queue origin msg) :=
  queueAll s (by simpa using hready) horigin

theorem feSendError (s : Session) (severity code message : Text) :
    Quiet s (s.feSendError severity code message) :=
  queue s rfl (by simp)

end Quiet

/-! ## The single backend -/

/-- The single backend is released. -/
theorem releaseBackend_quiet (x : Conf) : Quiet x.1 (releaseBackend x).1 := by
  unfold releaseBackend
  cases x.1.held .backend with
  | none => exact Quiet.refl _
  | some h => exact (Quiet.noteOver _ _).trans (Quiet.setBackend _ _ _)

/-- A connection to a shard. -/
theorem connectToShard_quiet (shard : Shard) (connects : Bool) (x : Conf) :
    Quiet x.1 (connectToShard shard connects x).1.1 := by
  unfold connectToShard
  split
  · exact Quiet.refl _
  · exact Quiet.setBackend _ _ _

/-- A connection to the default backend. -/
theorem connectToDefault_quiet (connects : Bool) (x : Conf) :
    Quiet x.1 (connectToDefault connects x).1.1 := by
  unfold connectToDefault
  split
  · exact Quiet.refl _
  · apply Quiet.trans (releaseBackend_quiet x)
    dsimp only
    split
    · exact Quiet.refl _
    · exact Quiet.setBackend _ _ _

/-- A backend for another shard is released. -/
theorem swapBackend_quiet (shard : Option Shard) (x : Conf) :
    Quiet x.1 (swapBackend shard x).1 := by
  unfold swapBackend
  split
  · exact releaseBackend_quiet x
  · exact Quiet.refl _

/-- The single backend is connected. -/
theorem connectSingle_quiet (shard : Option Shard) (connects : Bool) (x : Conf) :
    Quiet x.1 (connectSingle shard connects x).1.1 := by
  unfold connectSingle
  split
  · exact Quiet.refl _
  · split
    · exact connectToShard_quiet _ connects x
    · exact connectToDefault_quiet connects x

/-- The session after its query was sent on the single backend. -/
def Session.waitSingle (s : Session) (c : ConnId) (sql : Text) : Session :=
  ((s.noteSent .backend c sql).setState .query).setBusy true

/-- A query is sent on the single backend, or nothing happens. -/
theorem sendSingle_case (sql : Text) (accepts : Bool) (x : Conf) :
    sendSingle sql accepts x = (x, false) ∨
      ∃ c b, sendSingle sql accepts x = ((x.1.waitSingle c sql, b), true) ∧
        x.1.backendConn = some c ∧ (b.conns c).command ≠ none := by
  unfold sendSingle
  cases hconn : x.1.backendConn with
  | none => exact Or.inl rfl
  | some c =>
      dsimp only
      cases hsend : x.2.pqSendQuery c x.1.id sql accepts with
      | none => exact Or.inl rfl
      | some b =>
          rcases Backends.pqSendQuery_eq_some hsend with ⟨-, -, rfl⟩
          refine Or.inr ⟨c, _, rfl, rfl, ?_⟩
          rw [Backends.modifyConn_self]
          simp

/-- A query for one backend is sent, or it fails. -/
theorem executeSingle_case (sql : Text) (shard : Option Shard) (input : ClientInput) (x : Conf) :
    ∃ t b, Quiet x.1 t ∧
      (executeSingle sql shard input x = ((t, b), false) ∨
        ∃ c, executeSingle sql shard input x = ((t.waitSingle c sql, b), true) ∧
          t.backendConn = some c ∧ (b.conns c).command ≠ none) := by
  have hquiet := (swapBackend_quiet shard x).trans
    (connectSingle_quiet shard (input.connects 0) (swapBackend shard x))
  unfold executeSingle
  rcases hres : connectSingle shard (input.connects 0) (swapBackend shard x) with ⟨y, _ | _⟩ <;>
    rw [hres] at hquiet
  · exact ⟨y.1, y.2, hquiet, Or.inl rfl⟩
  · dsimp only
    rcases sendSingle_case sql (input.accepts 0) y with hfailed | ⟨c, b, hsent, hconn, hcommand⟩
    · exact ⟨y.1, y.2, hquiet, Or.inl hfailed⟩
    · exact ⟨y.1, b, hquiet, Or.inr ⟨c, hsent, hconn, hcommand⟩⟩

/-! ## Query messages -/

/-- The ways a Query message can end: it is answered with an error or a tag, it is sent on
the single backend, or it is scattered. -/
inductive QueryCase (s : Session) : Conf × Bool → Prop where
  | refused (t : Session) (b : Backends) (severity code message : Text) (hquiet : Quiet s t) :
      QueryCase s ((refuse t severity code message, b), true)
  | answered (b : Backends) (tag : Text) :
      QueryCase s (((s.queue .proxy (.commandComplete tag)).queueReady .idle, b), true)
  | sent (t : Session) (b : Backends) (c : ConnId) (sql : Text) (hquiet : Quiet s t)
      (hconn : t.backendConn = some c) (hcommand : (b.conns c).command ≠ none) :
      QueryCase s ((t.waitSingle c sql, b), true)
  | scattered (sql : Text) (targets : List Shard) (input : ClientInput) (b : Backends) :
      QueryCase s (executeScatter sql targets input (s, b))

/-- A query for one backend. -/
theorem executeOrRefuse_case (sql : Text) (shard : Option Shard) (message : Text)
    (input : ClientInput) (x : Conf) :
    QueryCase x.1 (executeOrRefuse sql shard message input x, true) := by
  unfold executeOrRefuse
  rcases executeSingle_case sql shard input x with
    ⟨t, b, hquiet, hfailed | ⟨c, hsent, hconn, hcommand⟩⟩
  · rw [hfailed]
    exact QueryCase.refused t b _ _ _ hquiet
  · rw [hsent]
    exact QueryCase.sent t b c sql hquiet hconn hcommand

/-- A query without a shard map. -/
theorem handleUnsharded_case (sql : Text) (input : ClientInput) (x : Conf) :
    QueryCase x.1 (handleUnsharded sql input x, true) := by
  have hquiet := connectToDefault_quiet (input.connects 0) x
  unfold handleUnsharded
  rcases hres : connectToDefault (input.connects 0) x with ⟨y, _ | _⟩ <;> rw [hres] at hquiet
  · exact QueryCase.refused _ _ _ _ _ hquiet
  · dsimp only
    rcases sendSingle_case sql (input.accepts 0) y with hfailed | ⟨c, b, hsent, hconn, hcommand⟩
    · rw [hfailed]
      exact QueryCase.refused _ _ _ _ _ hquiet
    · rw [hsent]
      exact QueryCase.sent _ b c sql hquiet hconn hcommand

/-- A Query message. -/
theorem handleQuery_case {cfg : Config} {sql : Text} {input : ClientInput} {x : Conf}
    {r : Conf × Bool} (h : handleQuery cfg sql input x = some r) :
    QueryCase x.1.countQuery r := by
  rcases handleQuery_cases h with ⟨-, rfl⟩ | ⟨-, rfl⟩ | ⟨-, rc, parsed, decision, -, -, -, rfl⟩
  · exact handleUnsharded_case sql input (x.1.countQuery, x.2)
  · exact QueryCase.refused _ _ _ _ _ (Quiet.refl _)
  · unfold executeRoute
    cases decision.type with
    | single => exact executeOrRefuse_case _ _ _ _ (x.1.countQuery, x.2)
    | scatter => exact QueryCase.scattered sql decision.targetShards input x.2
    | «local» => exact QueryCase.answered _ _
    | default => exact executeOrRefuse_case _ _ _ _ (x.1.countQuery, x.2)

/-! ## Starting a scatter -/

/-- The outcomes of starting a target: it fails and is counted, or its answer is awaited. -/
inductive SlotCase (sql : Text) (i : Fin maxScatterShards) (shard : Shard) (s : Session) :
    Session → Prop where
  | failed (fromPool : Bool) :
      SlotCase sql i shard s (((s.noteOver (.slot i)).setSlot i
        { shard := some shard, done := true, fromPool := fromPool }).countDone)
  | awaited (c : ConnId) :
      SlotCase sql i shard s (((s.noteOver (.slot i)).noteSent (.slot i) c sql).setSlot i
        { shard := some shard, conn := some c, fromPool := true })

/-- A target is awaited or counted as done. -/
theorem startSlot_case (sql : Text) (input : ClientInput) (x : Conf)
    (target : Fin maxScatterShards × Shard) :
    SlotCase sql target.1 target.2 x.1 (startSlot sql input x target).1 := by
  unfold startSlot
  dsimp only
  split
  · exact SlotCase.failed false
  · split
    · exact SlotCase.failed true
    · exact SlotCase.awaited _

/-- The slots of a list were started, and nothing else happened. -/
structure Started (is : List (Fin maxScatterShards)) (s s' : Session) : Prop where
  state : s'.state = s.state
  count : s'.scatterCount = s.scatterCount
  closed : s'.closed = s.closed
  queries : s'.queries = s.queries
  extended : s'.extended = s.extended
  out : s'.out = s.out
  done : s'.scatterDone = s.scatterDone + is.countP fun i => (s'.scatter i).done
  other : ∀ j ∉ is, s'.scatter j = s.scatter j
  awaited : ∀ q, (∀ i ∈ is, q ≠ .slot i) → (q ∈ s'.awaited ↔ q ∈ s.awaited)
  slot : ∀ i ∈ is, (s'.scatter i).done = true ∧ (s'.scatter i).conn = none ∧
      .slot i ∉ s'.awaited ∨
    (s'.scatter i).done = false ∧ (s'.scatter i).fromPool = true ∧ .slot i ∈ s'.awaited
  sent : (∀ i ∈ is, (s'.scatter i).done = true) → s'.sent = s.sent

/-- What that means for its slot. -/
theorem SlotCase.started {sql : Text} {i : Fin maxScatterShards} {shard : Shard}
    {s s' : Session} (h : SlotCase sql i shard s s') : Started [i] s s' := by
  have hother : ∀ slot, ∀ j ∉ [i], Function.update s.scatter i slot j = s.scatter j := by
    intro slot j hj
    exact Function.update_of_ne (by simpa using hj) ..
  cases h with
  | failed fromPool =>
      refine ⟨rfl, rfl, rfl, rfl, rfl, rfl, ?_, hother _, ?_, ?_, fun _ => rfl⟩
      · simp [Session.countDone, Session.setSlot, Session.noteOver]
      · intro q hq
        exact Finset.mem_erase.trans (and_iff_right (by simpa using hq))
      · intro j hj
        rw [List.mem_singleton] at hj
        subst hj
        left
        simp [Session.countDone, Session.setSlot, Session.noteOver]
  | awaited c =>
      refine ⟨rfl, rfl, rfl, rfl, rfl, rfl, ?_, hother _, ?_, ?_, fun hdone => ?_⟩
      · simp [Session.setSlot, Session.noteSent, Session.noteOver]
      · intro q hq
        have hne : q ≠ .slot i := by simpa using hq
        exact (Finset.mem_insert.trans (or_iff_right hne)).trans
          (Finset.mem_erase.trans (and_iff_right hne))
      · intro j hj
        rw [List.mem_singleton] at hj
        subst hj
        right
        simp [Session.setSlot, Session.noteSent, Session.noteOver]
      · simpa [Session.setSlot, Session.noteSent, Session.noteOver] using hdone i

/-- One target and then the others. -/
theorem Started.cons {i : Fin maxScatterShards} {is : List (Fin maxScatterShards)}
    {s t s' : Session} (hi : i ∉ is) (h : Started [i] s t) (h' : Started is t s') :
    Started (i :: is) s s' where
  state := h'.state.trans h.state
  count := h'.count.trans h.count
  closed := h'.closed.trans h.closed
  queries := h'.queries.trans h.queries
  extended := h'.extended.trans h.extended
  out := h'.out.trans h.out
  done := by
    have hdone := h.done
    rw [List.countP_singleton, ← h'.other i hi] at hdone
    rw [h'.done, hdone, List.countP_cons]
    omega
  other := by
    intro j hj
    rw [List.mem_cons, not_or] at hj
    rw [h'.other j hj.2, h.other j (by simpa using hj.1)]
  awaited := by
    intro q hq
    rw [h'.awaited q fun j hj => hq j (List.mem_cons_of_mem _ hj)]
    apply h.awaited q
    intro j hj
    rw [List.mem_singleton] at hj
    rw [hj]
    exact hq i List.mem_cons_self
  slot := by
    intro j hj
    rcases List.mem_cons.mp hj with rfl | hj
    · have hkept : Place.slot j ∈ s'.awaited ↔ Place.slot j ∈ t.awaited := by
        apply h'.awaited
        intro k hk heq
        cases heq
        exact hi hk
      rw [h'.other j hi, hkept]
      exact h.slot j List.mem_cons_self
    · exact h'.slot j hj
  sent := by
    intro hdone
    rw [h'.sent fun j hj => hdone j (List.mem_cons_of_mem _ hj), h.sent]
    intro j hj
    rw [List.mem_singleton] at hj
    rw [hj, ← h'.other i hi]
    exact hdone i List.mem_cons_self

/-- The targets, each with its own slot. -/
theorem startSlots_started (sql : Text) (input : ClientInput)
    (targets : List (Fin maxScatterShards × Shard)) (hnodup : (targets.map Prod.fst).Nodup)
    (x : Conf) :
    Started (targets.map Prod.fst) x.1 (targets.foldl (startSlot sql input) x).1 := by
  induction targets generalizing x with
  | nil =>
      exact ⟨rfl, rfl, rfl, rfl, rfl, rfl, rfl, fun _ _ => rfl, fun _ _ => Iff.rfl,
        fun i hi => absurd hi List.not_mem_nil, fun _ => rfl⟩
  | cons target targets ih =>
      rw [List.map_cons, List.nodup_cons] at hnodup
      exact Started.cons hnodup.1 (startSlot_case sql input x target).started (ih hnodup.2 _)

/-- Pairing with a shorter list keeps a front. -/
theorem map_fst_zip_eq_take {α β : Type*} (l : List α) (l' : List β) :
    (l.zip l').map Prod.fst = l.take l'.length := by
  induction l generalizing l' with
  | nil => simp
  | cons a l ih =>
      cases l' with
      | nil => simp
      | cons b l' => simp [ih]

/-- The targets of a scatter have different slots. -/
theorem scatterTargets_nodup (targets : List Shard) :
    (((List.finRange maxScatterShards).zip targets).map Prod.fst).Nodup := by
  rw [map_fst_zip_eq_take]
  exact (List.nodup_finRange _).sublist (List.take_sublist _ _)

/-- The loop of {lit}`execute_scatter`. -/
theorem startScatter_started (sql : Text) (targets : List Shard) (input : ClientInput)
    (x : Conf) :
    Started ((List.finRange maxScatterShards).take targets.length)
      (x.1.resetScatter targets.length) (startScatter sql targets input x).1 := by
  have hstarted := startSlots_started sql input _ (scatterTargets_nodup targets)
    (x.1.resetScatter targets.length, x.2)
  rw [map_fst_zip_eq_take] at hstarted
  exact hstarted

/-- The slots in use are the first ones, one for a target. -/
theorem startScatter_slots (sql : Text) (targets : List Shard) (input : ClientInput)
    (x : Conf) : (startScatter sql targets input x).1.slots =
      (List.finRange maxScatterShards).take targets.length := by
  rw [Session.slots, (startScatter_started sql targets input x).count]
  rfl

/-! ## Giving up a scatter -/

/-- Slots of a list were emptied, and nothing else happened. -/
structure Emptied (is : List (Fin maxScatterShards)) (s s' : Session) : Prop where
  state : s'.state = s.state
  closed : s'.closed = s.closed
  queries : s'.queries = s.queries
  extended : s'.extended = s.extended
  out : s'.out = s.out
  sent : s'.sent = s.sent
  backend : s'.backendConn = s.backendConn
  awaited : s'.awaited ⊆ s.awaited
  slot : ∀ j, (s'.scatter j).conn ≠ none → j ∉ is ∧ s'.scatter j = s.scatter j

theorem releaseSlot_emptied (x : Conf) (i : Fin maxScatterShards) :
    Emptied [i] x.1 (releaseSlot x i).1 := by
  unfold releaseSlot
  cases hheld : x.1.held (.slot i) with
  | none =>
      refine ⟨rfl, rfl, rfl, rfl, rfl, rfl, rfl, Finset.Subset.refl _, ?_⟩
      intro j hj
      refine ⟨?_, rfl⟩
      rw [List.mem_singleton]
      rintro rfl
      exact hj (by simpa [Session.held, ScatterConn.hold] using hheld)
  | some h =>
      refine ⟨rfl, rfl, rfl, rfl, rfl, rfl, rfl, Finset.erase_subset _ _, ?_⟩
      intro j hj
      by_cases hji : j = i
      · subst hji
        simp [Session.setSlot] at hj
      · exact ⟨by simpa using hji, Function.update_of_ne hji ..⟩

theorem releaseSlots_emptied (is : List (Fin maxScatterShards)) (x : Conf) :
    Emptied is x.1 (is.foldl releaseSlot x).1 := by
  induction is generalizing x with
  | nil =>
      exact ⟨rfl, rfl, rfl, rfl, rfl, rfl, rfl, Finset.Subset.refl _,
        fun j _ => ⟨List.not_mem_nil, rfl⟩⟩
  | cons i is ih =>
      have hfirst := releaseSlot_emptied x i
      have hrest := ih (releaseSlot x i)
      refine ⟨hrest.state.trans hfirst.state, hrest.closed.trans hfirst.closed,
        hrest.queries.trans hfirst.queries, hrest.extended.trans hfirst.extended,
        hrest.out.trans hfirst.out, hrest.sent.trans hfirst.sent,
        hrest.backend.trans hfirst.backend,
        Finset.Subset.trans hrest.awaited hfirst.awaited, ?_⟩
      intro j hj
      rcases hrest.slot j hj with ⟨hnot, hsame⟩
      have hj' : ((releaseSlot x i).1.scatter j).conn ≠ none := by
        rw [← hsame]
        exact hj
      rcases hfirst.slot j hj' with ⟨hne, hsame'⟩
      refine ⟨?_, hsame.trans hsame'⟩
      rw [List.mem_cons, not_or]
      exact ⟨by simpa using hne, hnot⟩

/-- After a scatter was given up no slot is in use. -/
theorem sessionReleaseScatter_released (x : Conf) :
    Emptied x.1.slots x.1 (sessionReleaseScatter x).1 ∧
      (sessionReleaseScatter x).1.scatterCount = 0 ∧
      (sessionReleaseScatter x).1.scatterDone = 0 := by
  have hempty := releaseSlots_emptied x.1.slots x
  refine ⟨?_, rfl, rfl⟩
  exact ⟨hempty.state, hempty.closed, hempty.queries, hempty.extended, hempty.out,
    hempty.sent, hempty.backend, hempty.awaited, hempty.slot⟩

end Sharegres
