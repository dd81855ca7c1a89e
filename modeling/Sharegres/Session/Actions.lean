import Sharegres.Session.Outcomes
import Sharegres.Session.ScatterDrain

/-!
# Session - Actions outside the receive loop

What is done for a query, for the results of a backend and to give connections back.  All of it
is said at once for a sequence of small changes.  They leave the receive buffer alone and put no
copy data; they await only backends that were asked; and what they queue is in a set of messages
that has everything the proxy answers by itself and everything it makes from the results of the
backends.

Main results:

- Definitions {lit}`Asks`, {lit}`Unread` and {lit}`Acts`: what the actions keep, with and without
  the messages.
- Theorem {lit}`handleQuery_acts`: a Query message.
- Theorems {lit}`drainSingle_acts` and {lit}`gathered_acts`: the results of backends.
- Theorems {lit}`ClientCase.asks`, {lit}`BackendCase.unread` and {lit}`ScatterCase.unread`: the
  callbacks.
-/

namespace Sharegres

open Foundation

/-! ## Backends that were asked -/

/-- The session holds the connections whose answer it awaits, and has sent a query on each. -/
def Session.Asked (s : Session) : Prop :=
  ∀ p ∈ s.awaited, ∃ h sql, s.held p = some h ∧ (h.conn, sql) ∈ s.sent

/-- No query that was sent is forgotten, and what is awaited was asked. -/
structure Asks (s s' : Session) : Prop where
  sent : s.sent <:+ s'.sent
  asked : s.Asked → s'.Asked

namespace Asks

variable {s s' s'' : Session}

/-- One after the other. -/
theorem trans (h : Asks s s') (h' : Asks s' s'') : Asks s s'' :=
  ⟨h.sent.trans h'.sent, fun hasked => h'.asked (h.asked hasked)⟩

/-- Nothing is sent, and no connection moves. -/
theorem same (hsent : s'.sent = s.sent) (hheld : s'.held = s.held)
    (hawaited : s'.awaited ⊆ s.awaited) : Asks s s' := by
  refine ⟨hsent ▸ List.suffix_rfl, fun hasked p hp => ?_⟩
  rw [hheld, hsent]
  exact hasked p (hawaited hp)

/-- A place that is not awaited any more changes what it holds. -/
theorem atPlace (p : Place) (hsent : s'.sent = s.sent)
    (hawaited : s'.awaited ⊆ s.awaited.erase p) (hheld : ∀ q, q ≠ p → s'.held q = s.held q) :
    Asks s s' := by
  refine ⟨hsent ▸ List.suffix_rfl, fun hasked q hq => ?_⟩
  have hmem := Finset.mem_erase.mp (hawaited hq)
  rw [hheld q hmem.1, hsent]
  exact hasked q hmem.2

/-- A query is sent on the connection of a place. -/
theorem noteSent {p : Place} {h : Hold} (hheld : s.held p = some h) (sql : Text) :
    Asks s (s.noteSent p h.conn sql) := by
  refine ⟨List.suffix_cons .., fun hasked q hq => ?_⟩
  rcases Finset.mem_insert.mp hq with rfl | hq
  · exact ⟨h, sql, hheld, List.mem_cons_self ..⟩
  · rcases hasked q hq with ⟨h', sql', hheld', hsent⟩
    exact ⟨h', sql', hheld', List.mem_cons_of_mem _ hsent⟩

/-- The single backend is connected. -/
theorem setBackend (hnone : s.backendConn = none) (conn : Option ConnId) (shard : Option Shard) :
    Asks s (s.setBackend conn shard) := by
  refine ⟨List.suffix_rfl, fun hasked q hq => ?_⟩
  rcases hasked q hq with ⟨h, sql, hheld, hsent⟩
  cases q with
  | backend =>
      rw [Session.held, hnone] at hheld
      cases hheld
  | slot i => exact ⟨h, sql, hheld, hsent⟩

end Asks

/-! ## What is left in the buffer -/

/-- Nothing was taken from the receive buffer or put on a backend from it, and the session is not
back at its start. -/
structure Unread (s s' : Session) : Prop extends Asks s s' where
  recvBuf : s'.recvBuf = s.recvBuf
  copyPuts : s'.copyPuts = s.copyPuts
  init : s'.state = .init → s.state = .init

namespace Unread

variable {s s' s'' : Session}

/-- One after the other. -/
theorem trans (h : Unread s s') (h' : Unread s' s'') : Unread s s'' where
  toAsks := h.toAsks.trans h'.toAsks
  recvBuf := h'.recvBuf.trans h.recvBuf
  copyPuts := h'.copyPuts.trans h.copyPuts
  init := fun hinit => h.init (h'.init hinit)

/-- Nothing happens. -/
theorem refl (s : Session) : Unread s s :=
  ⟨Asks.same rfl rfl subset_rfl, rfl, rfl, id⟩

end Unread

/-! ## The way to the client -/

/-- The fields of a session for the way to its client: the messages queued so far, whether bytes
of them wait, the callback, and the key data of the startup. -/
@[ext]
structure Port where
  out : List Queued
  unsent : Bool
  callback : ClientCallback
  pid : Int
  secretKey : Int

/-- The fields of a session. -/
def Session.port (s : Session) : Port :=
  ⟨s.out, s.unsent, s.callback, s.pid, s.secretKey⟩

namespace Port

/-- Messages are queued. -/
def queue (p : Port) (new : List Queued) : Port :=
  { p with out := p.out ++ new, unsent := p.unsent || !new.isEmpty }

@[simp]
theorem queue_nil (p : Port) : p.queue [] = p := by
  ext1 <;> simp [queue]

theorem queue_queue (p : Port) (front back : List Queued) :
    (p.queue front).queue back = p.queue (front ++ back) := by
  have hempty : (front ++ back).isEmpty = (front.isEmpty && back.isEmpty) := by
    cases front <;> rfl
  ext1 <;> simp [queue, hempty, Bool.or_assoc]

end Port

/-- Messages of a set were queued, and nothing was sent. -/
def Emits (Good : BackendMsg → Prop) (s s' : Session) : Prop :=
  ∃ new : List Queued, (∀ q ∈ new, Good q.msg) ∧ s'.port = s.port.queue new

namespace Emits

variable {Good : BackendMsg → Prop} {s s' s'' : Session}

/-- Nothing is queued. -/
theorem of_port (h : s'.port = s.port) : Emits Good s s' :=
  ⟨[], by simp, by rw [Port.queue_nil, h]⟩

/-- One after the other. -/
theorem trans (h : Emits Good s s') (h' : Emits Good s' s'') : Emits Good s s'' := by
  rcases h with ⟨new, hgood, hport⟩
  rcases h' with ⟨new', hgood', hport'⟩
  refine ⟨new ++ new', List.forall_mem_append.mpr ⟨hgood, hgood'⟩, ?_⟩
  rw [hport', hport, Port.queue_queue]

/-- Messages of the set are queued. -/
theorem queueAll (s : Session) (origin : Origin) {msgs : List BackendMsg}
    (h : ∀ msg ∈ msgs, Good msg) : Emits Good s (s.queueAll origin msgs) := by
  refine ⟨msgs.map fun msg => ⟨msg, origin⟩, List.forall_mem_map.mpr h, ?_⟩
  simp [Session.port, Port.queue, Session.queueAll]

end Emits

/-! ## Actions -/

/-- Actions outside the receive loop queue messages of a set. -/
structure Acts (Good : BackendMsg → Prop) (s s' : Session) : Prop extends Unread s s' where
  emits : Emits Good s s'

/-- A slot that is replaced leaves the other places alone. -/
theorem held_setSlot_of_ne {s : Session} {i : Fin maxScatterShards} {slot : ScatterConn} {q : Place}
    (hne : q ≠ .slot i) : (s.setSlot i slot).held q = s.held q := by
  cases q with
  | backend => rfl
  | slot j =>
      have hj : j ≠ i := fun h => hne (h ▸ rfl)
      change (Function.update s.scatter i slot j).hold = _
      rw [Function.update_of_ne hj]
      rfl

namespace Acts

variable {Good : BackendMsg → Prop} {s s' s'' : Session}

/-- One after the other. -/
theorem trans (h : Acts Good s s') (h' : Acts Good s' s'') : Acts Good s s'' :=
  ⟨h.toUnread.trans h'.toUnread, h.emits.trans h'.emits⟩

/-- Nothing is queued. -/
theorem of_port (h : Unread s s') (hport : s'.port = s.port) : Acts Good s s' :=
  ⟨h, Emits.of_port hport⟩

/-- If the set is empty, nothing is queued. -/
theorem port_eq (h : Acts (fun _ => False) s s') : s'.port = s.port := by
  rcases h.emits with ⟨new, hnone, hport⟩
  rw [hport, List.eq_nil_iff_forall_not_mem.mpr hnone, Port.queue_nil]

/-- Nothing happens. -/
theorem refl (s : Session) : Acts Good s s :=
  of_port (Unread.refl s) rfl

/-- Messages of the set are queued. -/
theorem queueAll (s : Session) (origin : Origin) {msgs : List BackendMsg}
    (h : ∀ msg ∈ msgs, Good msg) : Acts Good s (s.queueAll origin msgs) :=
  ⟨⟨Asks.same rfl rfl subset_rfl, rfl, rfl, id⟩, Emits.queueAll s origin h⟩

/-- One message of the set is queued. -/
theorem queue (s : Session) (origin : Origin) {msg : BackendMsg} (h : Good msg) :
    Acts Good s (s.queue origin msg) :=
  queueAll s origin fun _ hmem => List.mem_singleton.mp hmem ▸ h

/-- The session goes to another state. -/
theorem setState (s : Session) {state : SessionState} (h : state ≠ .init) :
    Acts Good s (s.setState state) :=
  of_port ⟨Asks.same rfl rfl subset_rfl, rfl, rfl, fun hinit => absurd hinit h⟩ rfl

/-- An answer is not awaited any more. -/
theorem noteOver (s : Session) (p : Place) : Acts Good s (s.noteOver p) :=
  of_port ⟨Asks.same rfl rfl (Finset.erase_subset ..), rfl, rfl, id⟩ rfl

/-- A slot that is not awaited any more is replaced. -/
theorem setSlot (s : Session) (i : Fin maxScatterShards) (slot : ScatterConn) :
    Acts Good s ((s.noteOver (.slot i)).setSlot i slot) :=
  of_port ⟨Asks.atPlace (.slot i) rfl subset_rfl fun _ hq => held_setSlot_of_ne hq, rfl, rfl, id⟩
    rfl

/-- A slot is counted. -/
theorem countDone (s : Session) : Acts Good s s.countDone :=
  of_port ⟨Asks.same rfl rfl subset_rfl, rfl, rfl, id⟩ rfl

/-- The counters of a scatter are set. -/
theorem resetScatter (s : Session) (count : Nat) : Acts Good s (s.resetScatter count) :=
  of_port ⟨Asks.same rfl rfl subset_rfl, rfl, rfl, id⟩ rfl

/-- The single backend is connected. -/
theorem setBackend (hnone : s.backendConn = none) (conn : Option ConnId) (shard : Option Shard) :
    Acts Good s (s.setBackend conn shard) :=
  of_port ⟨Asks.setBackend hnone conn shard, rfl, rfl, id⟩ rfl

/-- A query is sent on the connection of a place. -/
theorem noteSent {p : Place} {h : Hold} (hheld : s.held p = some h) (sql : Text) :
    Acts Good s (s.noteSent p h.conn sql) :=
  of_port ⟨Asks.noteSent hheld sql, rfl, rfl, id⟩ rfl

end Acts

/-! ## Messages of a set -/

/-- The errors that the proxy answers by itself: severity, code and message. -/
def proxyErrors : List (Text × Text × Text) :=
  [(ascii "ERROR", ascii "08001", ascii "all scatter connections failed"),
   (ascii "FATAL", ascii "08001", ascii "cannot connect to backend"),
   (ascii "ERROR", ascii "08001", ascii "cannot connect to shard"),
   (ascii "ERROR", ascii "08001", ascii "cannot connect to default backend"),
   (ascii "ERROR", ascii "42601", ascii "syntax error in query"),
   (ascii "ERROR", ascii "0A000", ascii "extended query protocol not yet supported"),
   (ascii "FATAL", ascii "08006", ascii "backend connection lost"),
   (ascii "FATAL", ascii "08006", ascii "backend connection error")]

/-- The tags that the proxy answers by itself. -/
def proxyTags : List Text :=
  [ascii "SET", ascii "SELECT", ascii "SELECT 0"]

/-- The set has everything the proxy answers by itself. -/
structure Admits (Good : BackendMsg → Prop) : Prop where
  ready : ∀ status, Good (.readyForQuery status)
  copyDone : Good .copyDone
  error : ∀ e ∈ proxyErrors, Good (msgWriteError e.1 e.2.1 e.2.2)
  tag : ∀ tag ∈ proxyTags, Good (.commandComplete tag)

/-- The set has the error with the message of the client library. -/
def ClientInput.Yields (Good : BackendMsg → Prop) (input : ClientInput) : Prop :=
  Good (msgWriteError (ascii "ERROR") (ascii "XX000") input.errorMessage)

/-- The set has the messages made from a result. -/
structure PGresult.Yields (Good : BackendMsg → Prop) (res : PGresult) : Prop where
  rows : ∀ header, ∀ msg ∈ rowMessages res header, Good msg
  selected : Good (.commandComplete (selectTag res))
  completed : Good (.commandComplete res.cmdStatus)
  failed : Good (.errorResponse (errorFields res))
  copiesIn : Good (.copyInResponse res.fields.length)
  copiesOut : Good (.copyOutResponse res.fields.length)

/-- The set has the messages made from what a backend answers. -/
structure BackendInput.Yields (Good : BackendMsg → Prop) (input : BackendInput) : Prop where
  results : ∀ res ∈ input.results, res.Yields Good
  chunks : ∀ chunk ∈ input.copyChunks, Good (.copyData chunk)
  final : ∀ res, input.copyEnd = .done (some res) → res.Yields Good

/-- The set of all messages. -/
def anyMsg : BackendMsg → Prop :=
  fun _ => True

theorem admits_anyMsg : Admits anyMsg :=
  ⟨fun _ => trivial, trivial, fun _ _ => trivial, fun _ _ => trivial⟩

theorem BackendInput.yields_anyMsg (input : BackendInput) : input.Yields anyMsg := by
  have hres : ∀ res : PGresult, res.Yields anyMsg := fun _ =>
    ⟨fun _ _ _ => trivial, trivial, trivial, trivial, trivial, trivial⟩
  exact ⟨fun res _ => hres res, fun _ _ => trivial, fun res _ => hres res⟩

section Actions

variable {Good : BackendMsg → Prop} {input : BackendInput}

/-- The loop over the results of the single backend. -/
theorem singleMessages_good {results : List PGresult}
    (hresults : ∀ res ∈ results, res.Yields Good) (headerSent : Bool) :
    (∀ msg ∈ (singleMessages headerSent results).1, Good msg) ∧
      (∀ n, (singleMessages headerSent results).2 = .copyIn n → Good (.copyInResponse n)) ∧
      ∀ n, (singleMessages headerSent results).2 = .copyOut n → Good (.copyOutResponse n) := by
  induction results generalizing headerSent with
  | nil => simp [singleMessages]
  | cons res rest ih =>
      have hres := hresults res List.mem_cons_self
      have hrest := fun header => ih (fun r hr => hresults r (List.mem_cons_of_mem _ hr)) header
      unfold singleMessages
      cases hstatus : res.status with
      | tuplesOk =>
          have hlater := List.forall_mem_cons.mpr ⟨hres.selected, (hrest true).1⟩
          exact ⟨List.forall_mem_append.mpr ⟨hres.rows _, hlater⟩, (hrest true).2⟩
      | singleTuple =>
          exact ⟨List.forall_mem_append.mpr ⟨hres.rows _, (hrest true).1⟩, (hrest true).2⟩
      | commandOk =>
          have hhere := List.forall_mem_cons.mpr ⟨hres.completed, (hrest headerSent).1⟩
          exact ⟨hhere, (hrest headerSent).2⟩
      | fatalError =>
          have hhere := List.forall_mem_cons.mpr ⟨hres.failed, (hrest headerSent).1⟩
          exact ⟨hhere, (hrest headerSent).2⟩
      | copyIn => simp [hres.copiesIn]
      | copyOut => simp [hres.copiesOut]
      | emptyQuery => exact hrest headerSent
      | other => exact hrest headerSent

/-- The loop over the results of a scattered query. -/
theorem scatterMessages_good {results : List PGresult}
    (hresults : ∀ res ∈ results, res.Yields Good) {headerSent after : Bool}
    {msgs : List BackendMsg} (h : scatterMessages headerSent results = some (msgs, after)) :
    ∀ msg ∈ msgs, Good msg := by
  induction results generalizing headerSent msgs after with
  | nil =>
      cases h
      simp
  | cons res rest ih =>
      cases hcopy : res.startsCopy with
      | true =>
          rw [scatterMessages_copy hcopy] at h
          cases h
      | false =>
          rw [scatterMessages_cons hcopy] at h
          rcases Option.map_eq_some_iff.mp h with ⟨r, hr, hpair⟩
          cases hpair
          refine List.forall_mem_append.mpr ⟨?_, ih (fun r hr =>
            hresults r (List.mem_cons_of_mem _ hr)) hr⟩
          unfold scatterResult
          split
          · exact (hresults res List.mem_cons_self).rows _
          · exact (hresults res List.mem_cons_self).rows _
          · exact fun msg hmsg => absurd hmsg List.not_mem_nil

/-! ## Giving connections back -/

/-- The single backend is given back. -/
theorem releaseBackend_acts (x : Conf) : Acts Good x.1 (releaseBackend x).1 := by
  unfold releaseBackend
  cases x.1.held .backend with
  | none => exact Acts.refl _
  | some hold =>
      refine Acts.of_port ⟨Asks.atPlace .backend rfl subset_rfl fun q hq => ?_, rfl, rfl, id⟩ rfl
      cases q with
      | backend => exact absurd rfl hq
      | slot i => rfl

theorem releaseSlot_acts (x : Conf) (i : Fin maxScatterShards) :
    Acts Good x.1 (releaseSlot x i).1 := by
  unfold releaseSlot
  cases x.1.held (.slot i) with
  | none => exact Acts.refl _
  | some hold => exact Acts.setSlot x.1 i _

/-- The slots of a scatter are given back. -/
theorem sessionReleaseScatter_acts (x : Conf) : Acts Good x.1 (sessionReleaseScatter x).1 := by
  have hslots : ∀ (is : List (Fin maxScatterShards)) (y : Conf),
      Acts Good y.1 (is.foldl releaseSlot y).1 := by
    intro is
    induction is with
    | nil => exact fun y => Acts.refl _
    | cons i is ih => exact fun y => (releaseSlot_acts y i).trans (ih _)
  exact (hslots x.1.slots x).trans (Acts.resetScatter _ 0)

/-- The end of a session. -/
theorem sessionDestroy_acts (x : Conf) : Acts Good x.1 (sessionDestroy x).1 :=
  ((releaseBackend_acts x).trans (sessionReleaseScatter_acts (releaseBackend x))).trans
    (Acts.of_port ⟨Asks.same rfl rfl subset_rfl, rfl, rfl, id⟩ rfl)

/-- Sending what is queued. -/
theorem sessionSend_unread (outcome : SendOutcome) (s : Session) :
    Unread s (sessionSend outcome s).1 := by
  rcases sessionSend_eq outcome s with ⟨unsent, callback, heq⟩
  rw [heq]
  exact ⟨Asks.same rfl rfl subset_rfl, rfl, rfl, id⟩

theorem sessionDestroy_unread (x : Conf) : Unread x.1 (sessionDestroy x).1 :=
  (sessionDestroy_acts x : Acts anyMsg ..).toUnread

/-- Sending what is queued, with the end of the session if that fails. -/
theorem flushOrDestroy_unread (flush : SendOutcome) (x : Conf) :
    Unread x.1 (flushOrDestroy flush x).1 := by
  have hsend := sessionSend_unread flush x.1
  unfold flushOrDestroy
  rcases hres : sessionSend flush x.1 with ⟨s, _ | _⟩ <;> rw [hres] at hsend
  · exact hsend.trans (sessionDestroy_unread (s, x.2))
  · exact hsend

/-- The end of an event of the client's socket. -/
theorem afterInput_unread (flush : SendOutcome) (r : Conf × Bool) :
    Unread r.1.1 (afterInput flush r).1 := by
  rcases r with ⟨x, _ | _⟩
  · exact sessionDestroy_unread x
  · unfold afterInput
    dsimp only
    split
    · exact flushOrDestroy_unread flush x
    · exact Unread.refl _

/-! ## Queries -/

/-- {lit}`connect_to_default`. -/
theorem connectToDefault_acts (connects : Bool) (x : Conf) :
    Acts Good x.1 (connectToDefault connects x).1.1 := by
  have hrelease : Acts Good x.1 _ := releaseBackend_acts x
  unfold connectToDefault
  split
  · exact Acts.refl _
  · dsimp only
    split
    · exact hrelease
    · exact hrelease.trans (Acts.setBackend (releaseBackend_backendConn x) _ _)

theorem connectSingle_acts (shard : Option Shard) (connects : Bool) (x : Conf) :
    Acts Good x.1 (connectSingle shard connects x).1.1 := by
  unfold connectSingle
  split
  · exact Acts.refl _
  · rename_i hnone
    cases shard with
    | none => exact connectToDefault_acts connects x
    | some shard =>
        dsimp only
        unfold connectToShard
        split
        · exact Acts.refl _
        · exact Acts.setBackend (by simpa using hnone) _ _

/-- A query is sent on the single backend. -/
theorem sendSingle_acts (sql : Text) (accepts : Bool) (x : Conf) :
    Acts Good x.1 (sendSingle sql accepts x).1.1 := by
  rcases sendSingle_case sql accepts x with hfailed | ⟨c, b, hsent, hconn, -⟩
  · rw [hfailed]
    exact Acts.refl _
  · rw [hsent]
    have hheld : x.1.held .backend = some ⟨c, x.1.backendShard.map Shard.index⟩ := by
      rw [Session.held, hconn]
      rfl
    refine (Acts.noteSent hheld sql).trans (Acts.of_port ?_ rfl)
    exact ⟨Asks.same rfl rfl subset_rfl, rfl, rfl, fun hinit => by cases hinit⟩

/-- {lit}`execute_single`. -/
theorem executeSingle_acts (sql : Text) (shard : Option Shard) (input : ClientInput) (x : Conf) :
    Acts Good x.1 (executeSingle sql shard input x).1.1 := by
  have hswap : Acts Good x.1 (swapBackend shard x).1 := by
    unfold swapBackend
    split
    · exact releaseBackend_acts x
    · exact Acts.refl _
  have hconnect := hswap.trans (connectSingle_acts shard (input.connects 0) _)
  unfold executeSingle
  rcases hres : connectSingle shard (input.connects 0) (swapBackend shard x) with ⟨y, _ | _⟩ <;>
    rw [hres] at hconnect
  · exact hconnect
  · exact hconnect.trans (sendSingle_acts sql (input.accepts 0) y)

/-- A target of a scatter is started. -/
theorem startSlot_acts (sql : Text) (input : ClientInput) (x : Conf)
    (target : Fin maxScatterShards × Shard) : Acts Good x.1 (startSlot sql input x target).1 := by
  have hcase := startSlot_case sql input x target
  generalize (startSlot sql input x target).1 = s at hcase ⊢
  cases hcase with
  | failed fromPool => exact (Acts.setSlot x.1 target.1 _).trans (Acts.countDone _)
  | awaited c =>
      -- the slot is filled when the query has been sent
      let slot : ScatterConn := { shard := some target.2, conn := some c, fromPool := true }
      have hheld : ((x.1.noteOver (.slot target.1)).setSlot target.1 slot).held (.slot target.1) =
          some ⟨c, some target.2.index⟩ := by
        change (Function.update x.1.scatter target.1 slot target.1).hold = _
        rw [Function.update_self]
        rfl
      exact (Acts.setSlot x.1 target.1 slot).trans (Acts.noteSent hheld sql)

/-- The loop of {lit}`execute_scatter`. -/
theorem startScatter_acts (sql : Text) (targets : List Shard) (input : ClientInput) (x : Conf) :
    Acts Good x.1 (startScatter sql targets input x).1 := by
  have hslots : ∀ (slots : List (Fin maxScatterShards × Shard)) (y : Conf),
      Acts Good y.1 (slots.foldl (startSlot sql input) y).1 := by
    intro slots
    induction slots with
    | nil => exact fun y => Acts.refl _
    | cons target slots ih => exact fun y => (startSlot_acts sql input y target).trans (ih _)
  exact (Acts.resetScatter x.1 targets.length).trans (hslots _ (_, x.2))

/-- An error is answered. -/
theorem Admits.refuse (h : Admits Good) (s : Session) {severity code message : Text}
    (herror : Good (msgWriteError severity code message)) :
    Acts Good s (refuse s severity code message) :=
  (Acts.queue s .proxy herror).trans (Acts.queue _ _ (h.ready .idle))

/-- An error of the proxy's own. -/
theorem Admits.refuse_own (h : Admits Good) (s : Session) {severity code message : Text}
    (hmem : (severity, code, message) ∈ proxyErrors) :
    Acts Good s (Sharegres.refuse s severity code message) :=
  h.refuse s (h.error _ hmem)

/-- A query for one backend. -/
theorem executeOrRefuse_acts (h : Admits Good) (sql : Text) (shard : Option Shard)
    {message : Text} (hmem : (ascii "ERROR", ascii "08001", message) ∈ proxyErrors)
    (input : ClientInput) (x : Conf) :
    Acts Good x.1 (executeOrRefuse sql shard message input x).1 := by
  have hexecute : Acts Good x.1 _ := executeSingle_acts sql shard input x
  unfold executeOrRefuse
  rcases hres : executeSingle sql shard input x with ⟨y, _ | _⟩ <;> rw [hres] at hexecute
  · exact hexecute.trans (h.refuse_own y.1 hmem)
  · exact hexecute

/-- A query without a shard map. -/
theorem handleUnsharded_acts (h : Admits Good) (sql : Text) {input : ClientInput}
    (hinput : input.Yields Good) (x : Conf) : Acts Good x.1 (handleUnsharded sql input x).1 := by
  have hconnect : Acts Good x.1 _ := connectToDefault_acts (input.connects 0) x
  unfold handleUnsharded
  rcases hres : connectToDefault (input.connects 0) x with ⟨y, _ | _⟩ <;> rw [hres] at hconnect
  · exact hconnect.trans (h.refuse_own y.1 (by simp [proxyErrors]))
  · dsimp only
    have hsend := hconnect.trans (sendSingle_acts sql (input.accepts 0) y)
    rcases hres' : sendSingle sql (input.accepts 0) y with ⟨z, _ | _⟩ <;> rw [hres'] at hsend
    · exact hsend.trans (h.refuse z.1 hinput)
    · exact hsend

/-- {lit}`execute_scatter`. -/
theorem executeScatter_acts (h : Admits Good) (sql : Text) (targets : List Shard)
    (input : ClientInput) (x : Conf) :
    Acts Good x.1 (executeScatter sql targets input x).1.1 := by
  have hstart : Acts Good x.1 _ := startScatter_acts sql targets input x
  unfold executeScatter
  split
  · exact Acts.refl _
  · dsimp only
    split
    · refine (hstart.trans (h.refuse_own _ ?_)).trans (Acts.setState _ (by simp))
      simp [proxyErrors]
    · exact hstart.trans (Acts.setState _ (by simp))

/-- A Query message. -/
theorem handleQuery_acts (h : Admits Good) {cfg : Config} {sql : Text} {input : ClientInput}
    (hinput : input.Yields Good) {x : Conf} {r : Conf × Bool}
    (hquery : handleQuery cfg sql input x = some r) : Acts Good x.1 r.1.1 := by
  have hcount : Acts Good x.1 x.1.countQuery :=
    Acts.of_port ⟨Asks.same rfl rfl subset_rfl, rfl, rfl, id⟩ rfl
  refine hcount.trans ?_
  rcases handleQuery_cases hquery with
    ⟨-, rfl⟩ | ⟨-, rfl⟩ | ⟨-, rc, parsed, decision, -, -, -, rfl⟩
  · exact handleUnsharded_acts h sql hinput (x.1.countQuery, x.2)
  · exact h.refuse_own x.1.countQuery (by simp [proxyErrors])
  · unfold executeRoute
    cases decision.type with
    | single => exact executeOrRefuse_acts h _ _ (by simp [proxyErrors]) _ (x.1.countQuery, x.2)
    | scatter => exact executeScatter_acts h _ _ _ (x.1.countQuery, x.2)
    | «local» =>
        exact (Acts.queue x.1.countQuery _ (h.tag _ (by simp [proxyTags]))).trans
          (Acts.queue _ _ (h.ready .idle))
    | default => exact executeOrRefuse_acts h _ _ (by simp [proxyErrors]) _ (x.1.countQuery, x.2)

theorem handleQuery_unread {cfg : Config} {sql : Text} {input : ClientInput} {x : Conf}
    {r : Conf × Bool} (h : handleQuery cfg sql input x = some r) : Unread x.1 r.1.1 :=
  (handleQuery_acts admits_anyMsg trivial h).toUnread

/-! ## Results of backends -/

/-- The answer to a query ends. -/
theorem reportReady_acts (h : Admits Good) (c : ConnId) (x : Conf) :
    Acts Good x.1 (reportReady c x).1 := by
  have hready := Acts.queue x.1 (.ready x.1.awaited.card)
    (h.ready (txnStatusOf (pqTransactionStatus (x.2.conns c))))
  unfold reportReady
  dsimp only
  split
  · exact hready.trans (releaseBackend_acts (_, x.2))
  · exact hready

theorem finishSingle_acts (h : Admits Good) (c : ConnId) (x : Conf) :
    Acts Good x.1 (finishSingle c x).1 := by
  refine (reportReady_acts h c x).trans (Acts.of_port ?_ rfl)
  exact ⟨Asks.same rfl rfl subset_rfl, rfl, rfl, fun hinit => by cases hinit⟩

/-- The end of a copy to the client. -/
theorem finishCopyOut_acts (h : Admits Good) (c : ConnId) (command : Command) (xact : Xact)
    {final : Option PGresult} (hfinal : ∀ res, final = some res → res.Yields Good) (x : Conf) :
    Acts Good x.1 (finishCopyOut c command xact final x).1 := by
  have hdone : Acts Good x.1 _ := Acts.queue x.1 (.result c command) h.copyDone
  unfold finishCopyOut
  dsimp only
  refine (Acts.trans ?_ (reportReady_acts h c _)).trans (Acts.setState _ (by simp))
  cases final with
  | none => exact hdone.trans (Acts.noteOver _ .backend)
  | some res =>
      dsimp only
      split
      · exact hdone.trans (Acts.queue _ _ (hfinal res rfl).completed)
      · exact hdone

/-- The data of a copy to the client. -/
theorem copyOutRead_acts (h : Admits Good) (c : ConnId) (command : Command)
    (hinput : input.Yields Good) (x : Conf) :
    Acts Good x.1 (copyOutRead c command input x).1 := by
  have hchunks : Acts Good x.1
      (x.1.queueAll (.result c command) (input.copyChunks.map .copyData)) :=
    Acts.queueAll _ _ (List.forall_mem_map.mpr hinput.chunks)
  unfold copyOutRead
  dsimp only
  cases hend : input.copyEnd with
  | pending => exact hchunks
  | failed => exact hchunks
  | done final =>
      refine hchunks.trans (finishCopyOut_acts h c command input.xact ?_ (_, x.2))
      rintro res rfl
      exact hinput.final res hend

/-- The results of the single backend. -/
theorem drainSingle_acts (h : Admits Good) (c : ConnId) (command : Command)
    (hinput : input.Yields Good) (x : Conf) :
    Acts Good x.1 (drainSingle c command input x).1 := by
  rcases singleMessages_good hinput.results false with ⟨hmsgs, hin, hout⟩
  have hdrained : Acts Good x.1 _ := Acts.queueAll x.1 (.result c command) hmsgs
  unfold drainSingle
  dsimp only
  split
  · exact (hdrained.trans (Acts.noteOver _ .backend)).trans (finishSingle_acts h c (_, _))
  · rename_i nfields hstop
    exact (hdrained.trans (Acts.queue _ _ (hin nfields hstop))).trans (Acts.setState _ (by simp))
  · rename_i nfields hstop
    have hstart := hdrained.trans (Acts.queue _ (.result c command) (hout nfields hstop))
    exact (hstart.trans (Acts.setState _ (by simp))).trans
      (copyOutRead_acts h c command hinput (_, x.2))

/-- A slot of a scatter is over. -/
theorem markDone_acts (i : Fin maxScatterShards) (s : Session) : Acts Good s (markDone i s) :=
  (Acts.setSlot s i _).trans (Acts.countDone _)

/-- The results on a slot. -/
theorem drainSlot_acts {i : Fin maxScatterShards} {c : ConnId} {command : Command}
    (hinput : input.Yields Good) {x y : Conf} (h : drainSlot i c command input x = some y) :
    Acts Good x.1 y.1 := by
  rcases Option.map_eq_some_iff.mp h with ⟨r, hmsgs, rfl⟩
  have hqueue : Acts Good x.1 _ := Acts.queueAll x.1 (.result c command)
    (scatterMessages_good hinput.results hmsgs)
  have hheader : Acts Good (x.1.queueAll (.result c command) r.1)
      { x.1.queueAll (.result c command) r.1 with scatterHeaderSent := r.2 } :=
    Acts.of_port ⟨Asks.same rfl rfl subset_rfl, rfl, rfl, id⟩ rfl
  exact (hqueue.trans hheader).trans (markDone_acts i _)

/-- The end of a scatter. -/
theorem gathered_acts (h : Admits Good) {tag : Text} (htag : Good (.commandComplete tag))
    (x : Conf) : Acts Good x.1 (gathered tag x).1 := by
  have hanswer := (Acts.queue x.1 (.gather x.1.awaitedSlots) htag).trans
    (Acts.queue _ (.ready x.1.awaited.card) (h.ready .idle))
  exact (hanswer.trans (sessionReleaseScatter_acts (_, x.2))).trans (Acts.setState _ (by simp))

end Actions

/-! ## The callbacks -/

section Callbacks

variable {input : BackendInput} {flush : SendOutcome} {x y : Conf}

theorem checkComplete_unread (flush : SendOutcome) (x : Conf) :
    Unread x.1 (checkComplete flush x).1 := by
  rcases checkComplete_case flush x with ⟨-, hsame⟩ | ⟨-, tag, hover⟩
  · rw [hsame]
    exact Unread.refl _
  · rw [hover]
    exact (gathered_acts admits_anyMsg trivial x).toUnread.trans (flushOrDestroy_unread flush _)

/-- An event of a scatter slot. -/
theorem ScatterCase.unread {i : Fin maxScatterShards} (h : ScatterCase i input flush x y) :
    Unread x.1 y.1 := by
  have hmark : Unread x.1 (markDone i x.1) := (markDone_acts i x.1 : Acts anyMsg ..).toUnread
  cases h with
  | skip => exact Unread.refl _
  | failed b => exact hmark.trans (checkComplete_unread flush (_, b))
  | again c => exact hmark.trans (checkComplete_unread flush (_, x.2))
  | drained c command z hconn hcommand hdrain =>
      exact (drainSlot_acts input.yields_anyMsg hdrain).toUnread.trans
        (checkComplete_unread flush z)

/-- An event of the single backend. -/
theorem BackendCase.unread (h : BackendCase input flush x y) : Unread x.1 y.1 := by
  cases h with
  | lost message b =>
      have herror : Acts anyMsg x.1 (x.1.feSendError (ascii "FATAL") (ascii "08006") message) :=
        Acts.queue x.1 .proxy trivial
      exact (herror.toUnread.trans (sessionSend_unread flush _)).trans
        (sessionDestroy_unread (_, b))
  | skip => exact Unread.refl _
  | quiet c =>
      exact (finishSingle_acts admits_anyMsg c x).toUnread.trans (flushOrDestroy_unread flush _)
  | drain c command =>
      exact (drainSingle_acts admits_anyMsg c command input.yields_anyMsg x).toUnread.trans
        (flushOrDestroy_unread flush _)

/-- A round of the receive loop sends no query. -/
theorem Intake.asks {s s' : Session} (h : Intake s s') : Asks s s' := by
  cases h <;> exact Asks.same rfl rfl subset_rfl

theorem Intakes.asks {s s' : Session} (h : Intakes s s') : Asks s s' := by
  induction h with
  | refl => exact Asks.same rfl rfl subset_rfl
  | tail _ hlast ih => exact ih.trans hlast.asks

/-- An event of the client's socket. -/
theorem ClientCase.asks {cfg : Config} {input : ClientInput} (h : ClientCase cfg input x y) :
    Asks x.1 y.1 := by
  cases h with
  | skip => exact (Unread.refl _).toAsks
  | destroy => exact (sessionDestroy_unread x).toAsks
  | flush => exact (flushOrDestroy_unread input.flush x).toAsks
  | input bytes r hcallback hhangup hrecv hcase =>
      have hreceive : Asks x.1 (x.1.receive bytes) := Asks.same rfl rfl subset_rfl
      refine (hreceive.trans ?_).trans (afterInput_unread input.flush r).toAsks
      cases hcase with
      | ret s ok hloop => exact hloop.asks
      | query t n sql r hloop hstate hexit hquery =>
          have hconsume : Asks t { t with recvBuf := t.recvBuf.consume n } :=
            Asks.same rfl rfl subset_rfl
          exact (hloop.asks.trans hconsume).trans (handleQuery_unread hquery).toAsks

end Callbacks

end Sharegres
