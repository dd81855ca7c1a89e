import Sharegres.Session.Operations
import Sharegres.Session.Outcomes

/-!
# Session - Callbacks as operations on connections

Every callback of a session is a sequence of the operations on its abstract view.  A
connection is dropped without being given back only by a scatter that starts while a
slot still holds one.

Main results:

- Theorem {lit}`executeSingle_ops`: a query for one backend touches that backend only.
- Theorem {lit}`executeScatter_ops`: a scattered query touches the slots only.
- Theorems {lit}`ClientCase.ops`, {lit}`BackendCase.ops` and {lit}`ScatterCase.ops`: the
  callbacks.
-/

namespace Sharegres

open Foundation

variable {input : ClientInput} {cfg : Config} {i : Fin maxScatterShards} {flush : SendOutcome}
  {leaky : Prop}

/-! ## The loop over the receive buffer -/

/-- A round of the receive loop does not show. -/
theorem Intake.account {s s' : Session} (h : Intake s s') : s'.account = s.account := by
  cases h with
  | same => rfl
  | consume n => rfl
  | sslRefused n hstate => exact s.account_queue rfl
  | startup n user database hstate =>
      have hmsgs : ∀ msg ∈ startupMessages s.pid s.secretKey, msg.isRow = false := by
        simp [startupMessages, BackendMsg.isRow]
      calc
        _ = (Session.queueAll { s with user := user, database := database, recvBuf := _ } .proxy
              (startupMessages s.pid s.secretKey)).account := Session.account_queueReady _ _
        _ = s.account := Session.account_queueAll_of_not_row _ hmsgs
  | copyPut n put after hstate hafter => rfl
  | extended n hstate =>
      calc
        _ = (Session.feSendError { s with extended := _ } _ _ _).account :=
          Session.account_queueReady _ _
        _ = s.account := Session.account_feSendError _ _ _ _

theorem Intakes.account {s s' : Session} (h : Intakes s s') : s'.account = s.account := by
  induction h with
  | refl => rfl
  | tail _ hlast ih => rw [hlast.account, ih]

/-- Nor does an error that is answered. -/
@[simp]
theorem refuse_account (s : Session) (severity code message : Text) :
    (refuse s severity code message).account = s.account := by
  simp [refuse]

/-! ## A query for one backend -/

/-- Connecting to a shard when there is no backend. -/
theorem connectToShard_ops (shard : Shard) (connects : Bool) {x : Conf}
    (hfree : x.1.held .backend = none) :
    Ops leaky {.backend} (view x) (view (connectToShard shard connects x).1) := by
  have hacquire : Ops leaky {.backend} (view x) _ :=
    acquire_ops shard.index connects hfree
  unfold connectToShard
  rw [Session.account_id] at hacquire
  rcases hr : x.2.connPoolAcquire shard.index x.1.id connects with ⟨b, _ | c⟩ <;>
    rw [hr] at hacquire
  · exact hacquire
  · unfold view
    rw [Session.account_setBackend]
    exact hacquire

/-- Connecting to the default backend. -/
theorem connectToDefault_ops (connects : Bool) (x : Conf) :
    Ops leaky {.backend} (view x) (view (connectToDefault connects x).1) := by
  unfold connectToDefault
  split
  · exact Ops.refl
  · apply Ops.trans (releaseBackend_ops x)
    cases connects with
    | false => exact Ops.refl
    | true =>
        have hfree : (releaseBackend x).1.account.held .backend = none := by
          rw [releaseBackend_account, Account.hold_held_self]
        change Ops leaky _ _ (Session.account (Session.setBackend _ (some _) none), _)
        rw [Session.account_setBackend]
        exact Ops.here (Op.openDefault hfree)

/-- Sending a query on the single backend. -/
theorem sendSingle_ops (sql : Text) (accepts : Bool) (x : Conf) :
    Ops leaky {.backend} (view x) (view (sendSingle sql accepts x).1) := by
  unfold sendSingle
  cases hconn : x.1.backendConn with
  | none => exact Ops.refl
  | some c =>
      dsimp only
      cases hsend : x.2.pqSendQuery c x.1.id sql accepts with
      | none => exact Ops.refl
      | some b =>
          rcases Backends.pqSendQuery_eq_some hsend with ⟨-, hquiet, rfl⟩
          have hheld : x.1.account.held .backend =
              some ⟨c, x.1.backendShard.map Shard.index⟩ := by
            simp [Session.held, hconn]
          exact Ops.here (Op.send sql hheld hquiet)

/-- A backend for another shard is released. -/
theorem swapBackend_ops (shard : Option Shard) (x : Conf) :
    Ops leaky {.backend} (view x) (view (swapBackend shard x)) := by
  unfold swapBackend
  split
  · exact releaseBackend_ops x
  · exact Ops.refl

/-- The single backend is connected. -/
theorem connectSingle_ops (shard : Option Shard) (connects : Bool) (x : Conf) :
    Ops leaky {.backend} (view x) (view (connectSingle shard connects x).1) := by
  unfold connectSingle
  by_cases hconn : x.1.backendConn.isSome = true
  · rw [if_pos hconn]
    exact Ops.refl
  · rw [if_neg hconn]
    cases shard with
    | none => exact connectToDefault_ops connects x
    | some shard =>
        apply connectToShard_ops
        rw [Bool.not_eq_true, Option.isSome_eq_false_iff, Option.isNone_iff_eq_none] at hconn
        simp [Session.held, hconn]

/-- A query for one backend. -/
theorem executeSingle_ops (sql : Text) (shard : Option Shard) (input : ClientInput) (x : Conf) :
    Ops leaky {.backend} (view x) (view (executeSingle sql shard input x).1) := by
  have hconnect : Ops leaky _ _ _ :=
    connectSingle_ops shard (input.connects 0) (swapBackend shard x)
  have hboth := Ops.trans (swapBackend_ops shard x) hconnect
  unfold executeSingle
  rcases hres : connectSingle shard (input.connects 0) (swapBackend shard x) with ⟨y, _ | _⟩
  · rw [hres] at hboth
    exact hboth
  · rw [hres] at hboth
    exact Ops.trans hboth (sendSingle_ops sql (input.accepts 0) y)

/-! ## A scattered query -/

/-- No slot holds a connection. -/
def Session.SlotsEmpty (s : Session) : Prop :=
  ∀ i, s.held (.slot i) = none

theorem singleton_slot_subset (i : Fin maxScatterShards) : {Place.slot i} ⊆ slotPlaces := by
  intro p hp
  rw [Set.mem_singleton_iff] at hp
  exact ⟨i, hp⟩

/-- Starting one target.  What the slot held before is forgotten. -/
theorem startSlot_ops (sql : Text) (input : ClientInput) (x : Conf)
    (target : Fin maxScatterShards × Shard)
    (hclean : leaky ∨ x.1.held (.slot target.1) = none) :
    Ops leaky slotPlaces (view x) (view (startSlot sql input x target)) := by
  rcases target with ⟨i, shard⟩
  -- the slot is emptied first, then acquires a connection
  have hclear : Ops leaky {.slot i} (view x) (x.1.account.hold (.slot i) none, x.2) := by
    rcases hclean with hleaky | hempty
    · exact Ops.here (Op.drop hleaky)
    · rw [Account.hold_held _ _ _ hempty]
      exact Ops.refl
  have hacquire : Ops leaky {.slot i} _ _ :=
    acquire_ops (a := x.1.account.hold (.slot i) none) (b := x.2) shard.index
      (input.connects i) (Account.hold_held_self _ _ _)
  have hstart := Ops.trans hclear hacquire
  refine Ops.mono ?_ (singleton_slot_subset i)
  rw [show (x.1.account.hold (.slot i) none).id = x.1.id from rfl] at hstart
  unfold startSlot
  dsimp only
  rw [show (x.1.noteOver (.slot i)).id = x.1.id from rfl]
  rcases hr : x.2.connPoolAcquire shard.index x.1.id (input.connects i) with ⟨b, _ | c⟩ <;>
    rw [hr] at hstart
  · unfold view
    rw [Session.account_countDone, Session.account_setSlot]
    exact hstart
  · have hheld : ((x.1.account.hold (.slot i) none).acquired (.slot i) shard.index
        (some c)).held (.slot i) = some ⟨c, some shard.index⟩ := Account.hold_held_self _ _ _
    dsimp only
    cases hsend : b.pqSendQuery c x.1.id sql (input.accepts i) with
    | none =>
        have hrelease : Ops leaky {.slot i} _ _ := giveUp_ops (s := x.1) (b := b) rfl hheld
        have hboth := Ops.trans hstart hrelease
        rw [Account.acquired, Account.hold_hold, Account.hold_hold] at hboth
        unfold view
        rw [Session.account_countDone, Session.account_setSlot]
        exact hboth
    | some b' =>
        rcases Backends.pqSendQuery_eq_some hsend with ⟨-, hquiet, rfl⟩
        have hsent : Ops leaky {.slot i} _ _ := Ops.here (Op.send sql hheld hquiet)
        have hboth := Ops.trans hstart hsent
        rw [Account.acquired, Account.hold_hold] at hboth
        unfold view
        rw [Session.account_setSlot]
        exact hboth

/-- A target leaves the other slots alone. -/
theorem startSlot_held_of_ne {sql : Text} {x : Conf} {target : Fin maxScatterShards × Shard}
    {j : Fin maxScatterShards} (hne : j ≠ target.1) :
    (startSlot sql input x target).1.held (.slot j) = x.1.held (.slot j) := by
  have hupdate : ∀ slot, Function.update x.1.scatter target.1 slot j = x.1.scatter j := by
    intro slot
    exact Function.update_of_ne hne ..
  unfold startSlot
  dsimp only
  split
  · exact congrArg ScatterConn.hold (hupdate _)
  · split
    · exact congrArg ScatterConn.hold (hupdate _)
    · exact congrArg ScatterConn.hold (hupdate _)

/-- The targets, each with its own slot. -/
theorem startSlots_ops (sql : Text) (input : ClientInput)
    (targets : List (Fin maxScatterShards × Shard)) (hnodup : (targets.map Prod.fst).Nodup)
    (x : Conf) (hclean : leaky ∨ ∀ t ∈ targets, x.1.held (.slot t.1) = none) :
    Ops leaky slotPlaces (view x) (view (targets.foldl (startSlot sql input) x)) := by
  induction targets generalizing x with
  | nil => exact Ops.refl
  | cons target targets ih =>
      rw [List.map_cons, List.nodup_cons] at hnodup
      have hfirst : Ops leaky slotPlaces (view x) (view (startSlot sql input x target)) := by
        apply startSlot_ops
        rcases hclean with hleaky | hempty
        · exact Or.inl hleaky
        · exact Or.inr (hempty target List.mem_cons_self)
      apply Ops.trans hfirst
      apply ih hnodup.2
      rcases hclean with hleaky | hempty
      · exact Or.inl hleaky
      · right
        intro t ht
        have hne : t.1 ≠ target.1 := by
          intro heq
          exact hnodup.1 (List.mem_map.mpr ⟨t, ht, heq⟩)
        rw [startSlot_held_of_ne hne]
        exact hempty t (List.mem_cons_of_mem _ ht)

/-- A scattered query.  If slots still hold connections these are lost. -/
theorem executeScatter_ops (sql : Text) (targets : List Shard) (input : ClientInput) (x : Conf)
    (hclean : leaky ∨ x.1.SlotsEmpty) :
    Ops leaky slotPlaces (view x) (view (executeScatter sql targets input x).1) := by
  have hstart : Ops leaky slotPlaces (view x) (view (startScatter sql targets input x)) := by
    apply startSlots_ops sql input _ (scatterTargets_nodup targets)
      (x.1.resetScatter targets.length, x.2)
    rcases hclean with hleaky | hempty
    · exact Or.inl hleaky
    · exact Or.inr fun t _ => hempty t.1
  unfold executeScatter
  by_cases hmany : maxScatterShards < targets.length
  · rw [if_pos hmany]
    exact Ops.refl
  · rw [if_neg hmany]
    dsimp only
    split
    · unfold view
      rw [Session.account_setState, refuse_account]
      exact hstart
    · exact hstart

/-! ## Query messages -/

/-- A query without a shard map. -/
theorem handleUnsharded_ops (sql : Text) (input : ClientInput) (x : Conf) :
    Ops leaky {.backend} (view x) (view (handleUnsharded sql input x)) := by
  have hconnect : Ops leaky _ _ _ := connectToDefault_ops (input.connects 0) x
  unfold handleUnsharded
  rcases hres : connectToDefault (input.connects 0) x with ⟨y, _ | _⟩ <;> rw [hres] at hconnect
  · unfold view
    rw [refuse_account]
    exact hconnect
  · have hsend := Ops.trans hconnect (sendSingle_ops sql (input.accepts 0) y)
    dsimp only
    rcases hsent : sendSingle sql (input.accepts 0) y with ⟨z, _ | _⟩ <;> rw [hsent] at hsend
    · unfold view
      rw [refuse_account]
      exact hsend
    · exact hsend

/-- A query for one backend. -/
theorem executeOrRefuse_ops (sql : Text) (shard : Option Shard) (message : Text)
    (input : ClientInput) (x : Conf) :
    Ops leaky {.backend} (view x) (view (executeOrRefuse sql shard message input x)) := by
  have hexec : Ops leaky _ _ _ := executeSingle_ops sql shard input x
  unfold executeOrRefuse
  rcases hres : executeSingle sql shard input x with ⟨y, _ | _⟩ <;> rw [hres] at hexec
  · unfold view
    rw [refuse_account]
    exact hexec
  · exact hexec

/-- A query on its route. -/
theorem executeRoute_ops (sql : Text) (decision : RouteDecision) (input : ClientInput) (x : Conf)
    (hclean : leaky ∨ x.1.SlotsEmpty) :
    Ops leaky Set.univ (view x) (view (executeRoute sql decision input x).1) := by
  unfold executeRoute
  cases decision.type with
  | single => exact (executeOrRefuse_ops _ _ _ _ _).mono (Set.subset_univ _)
  | scatter => exact (executeScatter_ops _ _ _ _ hclean).mono (Set.subset_univ _)
  | «local» =>
      unfold view
      rw [Session.account_queueReady, Session.account_queue _ rfl]
      exact Ops.refl
  | default => exact (executeOrRefuse_ops _ _ _ _ _).mono (Set.subset_univ _)

/-- A Query message. -/
theorem handleQuery_ops {sql : Text} {x y : Conf} {ok : Bool}
    (h : handleQuery cfg sql input x = some (y, ok)) (hclean : leaky ∨ x.1.SlotsEmpty) :
    Ops leaky Set.univ (view x) (view y) := by
  rcases handleQuery_cases h with ⟨-, hr⟩ | ⟨-, hr⟩ | ⟨-, rc, parsed, decision, -, -, -, hr⟩
  · cases hr
    have hops : Ops leaky _ _ _ := handleUnsharded_ops sql input (x.1.countQuery, x.2)
    exact hops.mono (Set.subset_univ _)
  · cases hr
    unfold view
    rw [refuse_account]
    exact Ops.refl
  · have hops : Ops leaky _ _ _ :=
      executeRoute_ops sql decision input (x.1.countQuery, x.2) hclean
    rw [← hr] at hops
    exact hops

/-! ## Callbacks -/

/-- Sending what is queued, or the end of the session. -/
theorem flushOrDestroy_ops (flush : SendOutcome) (x : Conf) :
    Ops leaky Set.univ (view x) (view (flushOrDestroy flush x)) := by
  have hsent := sessionSend_account flush x.1
  unfold flushOrDestroy
  rcases hres : sessionSend flush x.1 with ⟨s, _ | _⟩ <;> rw [hres] at hsent
  · have hdestroy : Ops leaky _ _ _ := sessionDestroy_ops (s, x.2)
    rw [view, hsent] at hdestroy
    exact hdestroy
  · unfold view
    rw [hsent]
    exact Ops.refl

/-- The end of an event of the client's socket. -/
theorem afterInput_ops (flush : SendOutcome) (r : Conf × Bool) :
    Ops leaky Set.univ (view r.1) (view (afterInput flush r)) := by
  rcases r with ⟨x, ok⟩
  cases ok with
  | false => exact sessionDestroy_ops x
  | true =>
      change Ops leaky _ _ (view (if x.1.unsent then flushOrDestroy flush x else x))
      split
      · exact flushOrDestroy_ops flush x
      · exact Ops.refl

/-- {lit}`fe_protocol_process` with the query it may end in. -/
theorem InputCase.ops {x : Conf} {r : Conf × Bool} (h : InputCase cfg input x r)
    (hclean : leaky ∨ (x.1.state ≠ .scatter → x.1.SlotsEmpty)) :
    Ops leaky Set.univ (view x) (view r.1) := by
  cases h with
  | ret s ok hloop =>
      unfold view
      rw [hloop.account]
      exact Ops.refl
  | query t n sql r hloop hstate hexit hquery =>
      have hheld : t.held = x.1.held := congrArg Account.held hloop.account
      -- a query is handled only if no scatter is running
      have hempty : leaky ∨ Session.SlotsEmpty { t with recvBuf := t.recvBuf.consume n } := by
        rcases hclean with hleaky | hempty
        · exact Or.inl hleaky
        · right
          intro i
          have hslot := hempty (fun hs => hstate.2.2.1 (hloop.scatter_iff.mpr hs)) i
          rw [← hheld] at hslot
          exact hslot
      have hops := handleQuery_ops hquery hempty
      rw [view] at hops ⊢
      rw [← hloop.account]
      exact hops

/-- The events of the client's socket. -/
theorem ClientCase.ops {x y : Conf} (h : ClientCase cfg input x y)
    (hclean : leaky ∨ (x.1.state ≠ .scatter → x.1.SlotsEmpty)) :
    Ops leaky Set.univ (view x) (view y) := by
  cases h with
  | skip => exact Ops.refl
  | destroy => exact sessionDestroy_ops x
  | flush => exact flushOrDestroy_ops input.flush x
  | input bytes r hcallback hhangup hrecv hcase =>
      have hinput : Ops leaky _ _ _ := hcase.ops hclean
      exact Ops.trans hinput (afterInput_ops input.flush r)

/-! ## The single backend -/

section Backend

variable {c : ConnId} {command : Command} {x : Conf}

/-- The backend of a session that has the connection. -/
theorem held_backend (hconn : x.1.backendConn = some c) :
    x.1.account.held .backend = some ⟨c, x.1.backendShard.map Shard.index⟩ := by
  simp [Session.held, hconn]

/-- Messages made from results of the command in progress. -/
theorem queueAll_ops {p : Place} {h : Hold} (msgs : List BackendMsg)
    (hheld : x.1.account.held p = some h)
    (hcommand : (x.2.conns h.conn).command = some command) :
    Ops leaky {p} (view x) (view (x.1.queueAll (.result h.conn command) msgs, x.2)) := by
  unfold view
  rw [Session.account_queueAll]
  apply Ops.here
  apply Op.forward hheld hcommand
  intro q hq
  rcases List.mem_map.mp hq with ⟨msg, -, rfl⟩
  rfl

/-- The report at the end of an answer. -/
theorem reportReady_ops (c : ConnId) (x : Conf) :
    Ops leaky {.backend} (view x) (view (reportReady c x)) := by
  have hready : view (x.1.queueReady (txnStatusOf (pqTransactionStatus (x.2.conns c))), x.2) =
      view x := by
    unfold view
    rw [Session.account_queueReady]
  unfold reportReady
  dsimp only
  split
  · rw [← hready]
    exact releaseBackend_ops _
  · rw [hready]
    exact Ops.refl

theorem finishSingle_ops (c : ConnId) (x : Conf) :
    Ops leaky {.backend} (view x) (view (finishSingle c x)) :=
  reportReady_ops c x

/-- The end of a copy to the client. -/
theorem finishCopyOut_ops (xact : Xact) (final : Option PGresult)
    (hconn : x.1.backendConn = some c) :
    Ops leaky {.backend} (view x) (view (finishCopyOut c command xact final x)) := by
  have hdone : (x.1.queue (.result c command) .copyDone).account = x.1.account :=
    x.1.account_queue rfl
  unfold finishCopyOut
  dsimp only
  refine Ops.trans ?_ (reportReady_ops c _)
  cases final with
  | none =>
      unfold view
      rw [Session.account_noteOver, hdone]
      exact Ops.here (Op.complete xact (held_backend hconn))
  | some res =>
      dsimp only
      split
      · unfold view
        rw [Session.account_queue _ rfl, hdone]
        exact Ops.refl
      · unfold view
        rw [hdone]
        exact Ops.refl

/-- The data of a copy to the client. -/
theorem copyOutRead_ops (input : BackendInput) (hconn : x.1.backendConn = some c)
    (hcommand : (x.2.conns c).command = some command) :
    Ops leaky {.backend} (view x) (view (copyOutRead c command input x)) := by
  have hchunks : Ops leaky _ _ _ :=
    queueAll_ops (input.copyChunks.map .copyData) (held_backend hconn) hcommand
  unfold copyOutRead
  dsimp only
  cases input.copyEnd with
  | pending => exact hchunks
  | failed => exact hchunks
  | done final => exact Ops.trans hchunks (finishCopyOut_ops input.xact final hconn)

/-- The results of the command in progress on the single backend. -/
theorem drainSingle_ops (input : BackendInput) (hconn : x.1.backendConn = some c)
    (hcommand : (x.2.conns c).command = some command) :
    Ops leaky {.backend} (view x) (view (drainSingle c command input x)) := by
  have hresults : Ops leaky _ _ _ :=
    queueAll_ops (singleMessages false input.results).1 (held_backend hconn) hcommand
  unfold drainSingle
  dsimp only
  cases (singleMessages false input.results).2 with
  | null =>
      apply Ops.trans hresults
      refine Ops.trans ?_ (finishSingle_ops c _)
      have hheld := held_backend (x := (x.1.queueAll (.result c command)
        (singleMessages false input.results).1, x.2)) hconn
      exact Ops.here (Op.complete input.xact hheld)
  | copyIn nfields =>
      unfold view at hresults ⊢
      rw [Session.account_setState, Session.account_queue _ rfl]
      exact hresults
  | copyOut nfields =>
      apply Ops.trans hresults
      refine Ops.trans ?_ (copyOutRead_ops input hconn hcommand)
      unfold view
      rw [Session.account_setState, Session.account_queue _ rfl]
      exact Ops.refl

theorem backendLost_ops (message : Text) (flush : SendOutcome) (x : Conf) :
    Ops leaky Set.univ (view x) (view (backendLost message flush x)) := by
  have hsent : view ((sessionSend flush (x.1.feSendError (ascii "FATAL") (ascii "08006")
      message)).1, x.2) = view x := by
    unfold view
    rw [sessionSend_account, Session.account_feSendError]
  unfold backendLost
  dsimp only
  rw [← hsent]
  exact sessionDestroy_ops _

/-- A changed status of the connection in a place. -/
theorem FaultOf.ops {p : Place} {conn : Option ConnId} {b' : Backends}
    (h : FaultOf conn x.2 b')
    (hheld : ∀ c, conn = some c → ∃ pool, x.1.account.held p = some ⟨c, pool⟩) :
    Ops leaky {p} (view x) (view (x.1, b')) := by
  rcases h with rfl | ⟨c, status, hconn, rfl⟩
  · exact Ops.refl
  · rcases hheld c hconn with ⟨pool, hplace⟩
    exact Ops.here (Op.fault status hplace)

/-- The events of the single backend. -/
theorem BackendCase.ops {input : BackendInput} {y : Conf} (h : BackendCase input flush x y) :
    Ops leaky Set.univ (view x) (view y) := by
  cases h with
  | lost message b hb =>
      have hfault : Ops leaky {.backend} (view x) (view (x.1, b)) :=
        hb.ops fun c hconn => ⟨_, held_backend hconn⟩
      exact Ops.trans (hfault.mono (Set.subset_univ _)) (backendLost_ops message flush (x.1, b))
  | skip => exact Ops.refl
  | quiet c hconn hhangup hcommand =>
      have hfinish : Ops leaky _ _ _ := finishSingle_ops c x
      exact Ops.trans (hfinish.mono (Set.subset_univ _)) (flushOrDestroy_ops flush _)
  | drain c command hconn hhangup hcommand =>
      have hdrain : Ops leaky _ _ _ := drainSingle_ops input hconn hcommand
      exact Ops.trans (hdrain.mono (Set.subset_univ _)) (flushOrDestroy_ops flush _)

end Backend

/-! ## Scattered queries -/

theorem markDone_account (i : Fin maxScatterShards) (s : Session) :
    (markDone i s).account = s.account := by
  unfold markDone
  rw [Session.account_countDone, Session.account_setSlot, Session.account_noteOver]
  exact Account.hold_held _ _ _ rfl

theorem gathered_ops (tag : Text) (x : Conf) :
    Ops leaky slotPlaces (view x) (view (gathered tag x)) := by
  have hqueued : ((x.1.queue (.gather x.1.awaitedSlots) (.commandComplete tag)).queueReady
      .idle).account = x.1.account := by
    rw [Session.account_queueReady, Session.account_queue _ rfl]
  have hrelease : Ops leaky _ _ _ := sessionReleaseScatter_ops
    ((x.1.queue (.gather x.1.awaitedSlots) (.commandComplete tag)).queueReady .idle, x.2)
  rw [view, hqueued] at hrelease
  exact hrelease

/-- A slot that has the connection. -/
theorem held_slot {c : ConnId} {x : Conf} (hconn : (x.1.scatter i).conn = some c) :
    ∃ pool, x.1.account.held (.slot i) = some ⟨c, pool⟩ := by
  refine ⟨if (x.1.scatter i).fromPool then (x.1.scatter i).shard.map Shard.index else none, ?_⟩
  simp [Session.held, ScatterConn.hold, hconn]

/-- The results on a slot. -/
theorem drainSlot_ops {c : ConnId} {command : Command} {input : BackendInput} {x y : Conf}
    (h : drainSlot i c command input x = some y) (hconn : (x.1.scatter i).conn = some c)
    (hcommand : (x.2.conns c).command = some command) :
    Ops leaky slotPlaces (view x) (view y) := by
  rcases held_slot hconn with ⟨pool, hheld⟩
  rcases Option.map_eq_some_iff.mp h with ⟨⟨msgs, header⟩, -, rfl⟩
  have hresults : Ops leaky _ _ _ := queueAll_ops msgs hheld hcommand
  have hkept : (x.1.queueAll (.result c command) msgs).account.held (.slot i) =
      some ⟨c, pool⟩ := by
    rw [Session.account_queueAll]
    exact hheld
  refine Ops.mono (Ops.trans hresults ?_) (singleton_slot_subset i)
  unfold view
  rw [markDone_account]
  exact Ops.here (Op.complete input.xact hkept)

/-- The events of a scatter slot touch the slots only, up to sending what is queued, and
send no query. -/
theorem ScatterCase.slotOps {input : BackendInput} {x y : Conf}
    (h : ScatterCase i input flush x y) :
    ∃ z, Ops leaky slotPlaces (view x) (view z) ∧ z.1.sent = x.1.sent ∧
      (y = z ∨ y = flushOrDestroy flush z) := by
  -- what follows once the slot was counted
  have hcheck : ∀ z : Conf, Ops leaky slotPlaces (view x) (view z) → z.1.sent = x.1.sent →
      ∃ z', Ops leaky slotPlaces (view x) (view z') ∧ z'.1.sent = x.1.sent ∧
        (checkComplete flush z = z' ∨ checkComplete flush z = flushOrDestroy flush z') := by
    intro z hops hsent
    rcases checkComplete_case flush z with ⟨-, heq⟩ | ⟨-, tag, heq⟩
    · exact ⟨z, hops, hsent, Or.inl heq⟩
    · exact ⟨gathered tag z, Ops.trans hops (gathered_ops tag z),
        (gathered_gathered tag z).sent.trans hsent, Or.inr heq⟩
  have hmark : ∀ b, Ops leaky slotPlaces (view x) (view (x.1, b)) →
      Ops leaky slotPlaces (view x) (view (markDone i x.1, b)) := by
    intro b hops
    unfold view at hops ⊢
    rw [markDone_account]
    exact hops
  cases h with
  | skip => exact ⟨x, Ops.refl, rfl, Or.inl rfl⟩
  | failed b hb hcause =>
      have hfault : Ops leaky {.slot i} (view x) (view (x.1, b)) :=
        hb.ops fun c hconn => held_slot hconn
      exact hcheck (markDone i x.1, b)
        (hmark b (hfault.mono (singleton_slot_subset i))) rfl
  | again c hconn hcommand => exact hcheck (markDone i x.1, x.2) (hmark x.2 Ops.refl) rfl
  | drained c command y hconn hcommand hdrain =>
      apply hcheck y (drainSlot_ops hdrain hconn hcommand)
      rcases Option.map_eq_some_iff.mp hdrain with ⟨r, -, rfl⟩
      rfl

/-- An event of a scatter slot. -/
theorem ScatterCase.ops {input : BackendInput} {x y : Conf} (h : ScatterCase i input flush x y) :
    Ops leaky Set.univ (view x) (view y) := by
  have hslots : ∃ z, Ops leaky slotPlaces (view x) (view z) ∧ _ := h.slotOps
  rcases hslots with ⟨z, hops, -, rfl | rfl⟩
  · exact hops.mono (Set.subset_univ _)
  · exact Ops.trans (hops.mono (Set.subset_univ _)) (flushOrDestroy_ops flush z)

end Sharegres
