import Sharegres.Session.ScatterTags
import Sharegres.System.Isolation

/-!
# System - Starting a scattered query

The loop of {lit}`execute_scatter` when nothing goes wrong: the pools of the targets have room,
connecting works and the connections accept the query.  Then every target gets the query once, on
a connection of its own, and no target is counted as done before it has answered.

Main results:

- Theorem {lit}`connPoolAcquire_available`: a pool with room lends a connection that takes a query.
- Theorem {lit}`startSlots_awaits`: the loop sends the query to every target.
- Theorem {lit}`executeScatter_awaits`: so does the whole function.
-/

namespace Sharegres

open Foundation

/-! ## Acquiring a connection -/

/-- A connection was lent by a pool to a session: it takes queries, it was idle or is new, and
nothing changed for the other pools and for the commands on the connections that were open. -/
structure Lent (i session : Nat) (b b' : Backends) (c : ConnId) : Prop where
  log : b'.log = .lend c ⟨session, i⟩ :: b.log
  source : c ∈ (b.pools i).idleConns ∨ c = b.opened
  status : (b'.conns c).status = .ok
  quiet : (b'.conns c).command = none
  pools : ∀ j, j ≠ i → b'.pools j = b.pools j
  commands : ∀ d, d < b.opened → (b'.conns d).command = (b.conns d).command

/-- What the loop over the idle connections leaves alone, and what it returns. -/
structure Reused (i session : Nat) (idle : List ConnId) (b : Backends)
    (r : Backends × Option ConnId) : Prop where
  pools : ∀ j, j ≠ i → r.1.pools j = b.pools j
  opened : r.1.opened = b.opened
  commands : ∀ d, (r.1.conns d).command = (b.conns d).command
  found : ∀ c, r.2 = some c → c ∈ idle ∧ (r.1.conns c).status = .ok ∧
    r.1.log = .lend c ⟨session, i⟩ :: b.log
  none_left : r.2 = none → (r.1.pools i).activeCount = (b.pools i).activeCount ∧
    (r.1.pools i).maxSize = (b.pools i).maxSize ∧ r.1.log = b.log

theorem setIdle_maxSize (b : Backends) (i : Nat) (idle : List ConnId) :
    ((b.setIdle i idle).pools i).maxSize = (b.pools i).maxSize := by
  simp [Backends.setIdle]

theorem reuseIdle_reused (i session : Nat) (idle : List ConnId) (b : Backends) :
    Reused i session idle b (Backends.reuseIdle i session idle b) := by
  induction idle generalizing b with
  | nil =>
      exact ⟨fun _ _ => rfl, rfl, fun _ => rfl, fun c hc => (by cases hc),
        fun _ => ⟨rfl, rfl, rfl⟩⟩
  | cons c rest ih =>
      unfold Backends.reuseIdle
      by_cases hok : (b.conns c).status = .ok
      · rw [if_pos hok]
        refine ⟨fun j hj => ?_, rfl, fun _ => rfl, fun d hd => ?_, fun hnone => (by cases hnone)⟩
        · exact (Function.update_of_ne hj ..).trans (Backends.setIdle_of_ne b i rest hj)
        · cases hd
          exact ⟨List.mem_cons_self, hok, rfl⟩
      · rw [if_neg hok]
        -- a broken connection is closed, and the loop goes on
        rcases ih ((b.setIdle i rest).pqFinish c) with ⟨hpools, hopened, hcommands, hfound, hnone⟩
        refine ⟨fun j hj => ?_, hopened, fun d => ?_, fun d hd => ?_, fun h => ?_⟩
        · exact (hpools j hj).trans (Backends.setIdle_of_ne b i rest hj)
        · rw [hcommands, Backends.command_pqFinish, Backends.setIdle_conns]
        · exact ⟨List.mem_cons_of_mem c (hfound d hd).1, (hfound d hd).2⟩
        · rcases hnone h with ⟨hactive, hmax, hlog⟩
          exact ⟨hactive.trans (Backends.setIdle_activeCount b i rest i),
            hmax.trans (setIdle_maxSize b i rest), hlog⟩

/-- A pool with room lends a connection that takes a query. -/
theorem connPoolAcquire_available {b : Backends} {i : Nat} (session : Nat)
    (hquiet : ∀ c ∈ (b.pools i).idleConns, (b.conns c).command = none)
    (hroom : (b.pools i).activeCount < (b.pools i).maxSize) :
    ∃ b' c, b.connPoolAcquire i session true = (b', some c) ∧ Lent i session b b' c := by
  have hreused := reuseIdle_reused i session (b.pools i).idleConns b
  unfold Backends.connPoolAcquire
  generalize Backends.reuseIdle i session (b.pools i).idleConns b = r at hreused
  rcases r with ⟨b₁, _ | c⟩
  · -- no idle connection is in order: a new one is opened
    rcases hreused.none_left rfl with ⟨hactive, hmax, hlog⟩
    dsimp only at hactive hmax hlog ⊢
    rw [if_neg (by rw [hactive, hmax]; omega)]
    refine ⟨_, _, rfl, congrArg (List.cons _) hlog, Or.inr hreused.opened, ?_, ?_,
      fun j hj => ?_, fun d hd => ?_⟩
    · simp
    · simp
    · exact (Function.update_of_ne hj ..).trans (hreused.pools j hj)
    · have hne : d ≠ b₁.opened := by
        rw [hreused.opened]
        exact Nat.ne_of_lt hd
      rw [Backends.lend_conns, b₁.open_of_ne hne]
      exact hreused.commands d
  · rcases hreused.found c rfl with ⟨hmem, hok, hlog⟩
    refine ⟨_, _, rfl, hlog, Or.inl hmem, hok, ?_, hreused.pools, fun d _ => hreused.commands d⟩
    exact (hreused.commands c).trans (hquiet c hmem)

/-! ## Starting one target -/

/-- The answer of a target is awaited: its slot holds a connection from its pool, and the command
in progress on it is the query. -/
structure Awaits (x : Conf) (sql : Text) (target : Fin maxScatterShards × Shard) (c : ConnId) :
    Prop where
  slot : x.1.scatter target.1 = { shard := some target.2, conn := some c, fromPool := true }
  command : (x.2.conns c).command = some ⟨x.1.id, sql⟩

/-- The connection of the slot, as the session holds it. -/
theorem Awaits.held {x : Conf} {sql : Text} {target : Fin maxScatterShards × Shard} {c : ConnId}
    (h : Awaits x sql target c) : x.1.held (.slot target.1) = some ⟨c, some target.2.index⟩ := by
  rw [Session.held, h.slot]
  rfl

/-- The query was sent to a target on a connection that its pool has lent, and nothing changed for
the others. -/
structure SlotStarted (sql : Text) (target : Fin maxScatterShards × Shard) (x y : Conf)
    (c : ConnId) : Prop where
  id : y.1.id = x.1.id
  awaits : Awaits y sql target c
  kept : ∀ other d, other.1 ≠ target.1 → Awaits x sql other d → Awaits y sql other d
  pools : ∀ j, j ≠ target.2.index → y.2.pools j = x.2.pools j
  done : y.1.scatterDone = x.1.scatterDone
  sent : y.1.sent = (c, sql) :: x.1.sent
  log : y.2.log = .lend c ⟨x.1.id, target.2.index⟩ :: x.2.log

section Start

variable {accts : Nat → Account} {own : ConnId → Owner} {x : Conf} {sql : Text}
  {input : ClientInput}

theorem Ledger.held_lt (hinv : Ledger accts x.2 own) {t : Nat} {q : Place} {h : Hold}
    (hheld : (accts t).held q = some h) : h.conn < x.2.opened := by
  by_contra hge
  have hown := hinv.held t q h hheld
  rw [hinv.unopened h.conn (Nat.le_of_not_lt hge)] at hown
  cases hown

/-- One round of the loop, when the pool has room and the connection takes the query. -/
theorem startSlot_started (hacct : accts x.1.id = x.1.account) (hinv : Ledger accts x.2 own)
    {target : Fin maxScatterShards × Shard}
    (hroom : (x.2.pools target.2.index).activeCount < (x.2.pools target.2.index).maxSize)
    (hconnects : input.connects target.1 = true) (haccepts : input.accepts target.1 = true) :
    ∃ c, SlotStarted sql target x (startSlot sql input x target) c := by
  rcases target with ⟨i, shard⟩
  dsimp only at hroom hconnects haccepts
  rcases connPoolAcquire_available x.1.id (fun c hc => hinv.quiet shard.index c hc) hroom with
    ⟨b, c, hacquire, hlent⟩
  have hsend : b.pqSendQuery c x.1.id sql (input.accepts i) =
      some (b.modifyConn c fun conn => { conn with command := some ⟨x.1.id, sql⟩ }) := by
    unfold Backends.pqSendQuery
    rw [if_pos ⟨haccepts, hlent.status, hlent.quiet⟩]
  have hstart : startSlot sql input x (i, shard) =
      (((x.1.noteOver (.slot i)).noteSent (.slot i) c sql).setSlot i
        { shard := some shard, conn := some c, fromPool := true },
        b.modifyConn c fun conn => { conn with command := some ⟨x.1.id, sql⟩ }) := by
    unfold startSlot
    dsimp only
    rw [show (x.1.noteOver (.slot i)).id = x.1.id from rfl, hconnects, hacquire]
    dsimp only
    rw [hsend]
  rw [hstart]
  refine ⟨c, rfl, ⟨Function.update_self .., ?_⟩, fun other d hother hawaits => ?_, hlent.pools,
    rfl, rfl, hlent.log⟩
  · rw [Backends.modifyConn_self]
    rfl
  · -- a connection that is held was neither idle nor is it new
    have hheld := hawaits.held
    rw [← Session.account_held, ← hacct] at hheld
    have hlt : d < x.2.opened := hinv.held_lt hheld
    have hne : d ≠ c := by
      rintro rfl
      rcases hlent.source with hidle | hnew
      · exact hinv.not_pooled hheld shard.index hidle
      · exact Nat.ne_of_lt hlt hnew
    refine ⟨(Function.update_of_ne hother ..).trans hawaits.slot, ?_⟩
    rw [Backends.modifyConn_of_ne b c _ hne, hlent.commands d hlt]
    exact hawaits.command

/-- Operations on the leases of connections, one for each target. -/
def leaseOps (op : ConnId → Lessee → LeaseOp ConnId Lessee) (session : Nat) (targets : List Shard)
    (conns : List ConnId) : List (LeaseOp ConnId Lessee) :=
  List.zipWith (fun s c => op c ⟨session, s.index⟩) targets conns

/-- The loop sends the query to every target: each of them is awaited, and none is counted. -/
theorem startSlots_awaits {targets : List (Fin maxScatterShards × Shard)}
    (hslots : (targets.map Prod.fst).Nodup) (hpools : (targets.map fun t => t.2.index).Nodup)
    (hacct : accts x.1.id = x.1.account) (hinv : Ledger accts x.2 own)
    (hroom : ∀ t ∈ targets,
      (x.2.pools t.2.index).activeCount < (x.2.pools t.2.index).maxSize)
    (hconnects : ∀ i, input.connects i = true) (haccepts : ∀ i, input.accepts i = true) :
    (∀ t c, t.1 ∉ targets.map Prod.fst → Awaits x sql t c →
        Awaits (targets.foldl (startSlot sql input) x) sql t c) ∧
      (targets.foldl (startSlot sql input) x).1.scatterDone = x.1.scatterDone ∧
      ∃ conns : List ConnId,
        List.Forall₂ (Awaits (targets.foldl (startSlot sql input) x) sql) targets conns ∧
        (targets.foldl (startSlot sql input) x).1.sent =
          (conns.map fun c => (c, sql)).reverse ++ x.1.sent ∧
        (targets.foldl (startSlot sql input) x).2.log =
          (leaseOps .lend x.1.id (targets.map Prod.snd) conns).reverse ++ x.2.log := by
  induction targets generalizing x accts own with
  | nil => exact ⟨fun _ _ _ h => h, rfl, [], .nil, rfl, rfl⟩
  | cons target targets ih =>
      rw [List.map_cons, List.nodup_cons] at hslots hpools
      rcases @startSlot_started accts own x sql input hacct hinv target
        (hroom target List.mem_cons_self) (hconnects _) (haccepts _) with ⟨c, hfirst⟩
      -- the assignment of owners after the first target
      have hops : Ops True slotPlaces (view x) (view (startSlot sql input x target)) :=
        startSlot_ops sql input x target (Or.inl trivial)
      rcases hops.ledger hacct hinv with ⟨own', hinv'⟩
      have hroom' : ∀ t ∈ targets,
          ((startSlot sql input x target).2.pools t.2.index).activeCount <
            ((startSlot sql input x target).2.pools t.2.index).maxSize := by
        intro t ht
        have hne : t.2.index ≠ target.2.index := by
          intro heq
          exact hpools.1 (List.mem_map.mpr ⟨t, ht, heq⟩)
        rw [hfirst.pools _ hne]
        exact hroom t (List.mem_cons_of_mem _ ht)
      have hacct' : Function.update accts x.1.id (view (startSlot sql input x target)).1
          (startSlot sql input x target).1.id = (startSlot sql input x target).1.account := by
        rw [hfirst.id, Function.update_self]
        rfl
      rcases ih hslots.2 hpools.2 hacct' hinv' hroom' with
        ⟨hkept, hdone, conns, hawaits, hsent, hlog⟩
      rw [List.foldl_cons]
      refine ⟨fun t d ht h => ?_, hdone.trans hfirst.done, c :: conns,
        .cons (hkept _ _ hslots.1 hfirst.awaits) hawaits, ?_, ?_⟩
      · rw [List.map_cons, List.mem_cons, not_or] at ht
        exact hkept t d ht.2 (hfirst.kept t d ht.1 h)
      · rw [hsent, hfirst.sent, List.map_cons, List.reverse_cons, List.append_assoc]
        rfl
      · rw [hlog, hfirst.log, hfirst.id, List.map_cons, leaseOps, leaseOps, List.zipWith_cons_cons,
          List.reverse_cons, List.append_assoc]
        rfl

/-- A query was scattered: every target has got it once, on a connection of its own that its pool
has lent to the session. -/
structure ScatterStarted (sql : Text) (targets : List Shard) (x y : Conf) (conns : List ConnId) :
    Prop where
  state : y.1.state = .scatter
  closed : y.1.closed = x.1.closed
  out : y.1.out = x.1.out
  count : y.1.scatterCount = targets.length
  done : y.1.scatterDone = 0
  header : y.1.scatterHeaderSent = false
  awaits : List.Forall₂ (Awaits y sql) ((List.finRange maxScatterShards).zip targets) conns
  sent : y.1.sent = (conns.map fun c => (c, sql)).reverse ++ x.1.sent
  log : y.2.log = (leaseOps .lend x.1.id targets conns).reverse ++ x.2.log

/-- {lit}`execute_scatter` sends the query to every target. -/
theorem executeScatter_awaits {targets : List Shard} (hne : targets ≠ [])
    (hsize : targets.length ≤ maxScatterShards) (hpools : (targets.map Shard.index).Nodup)
    (hacct : accts x.1.id = x.1.account) (hinv : Ledger accts x.2 own)
    (hroom : ∀ s ∈ targets, (x.2.pools s.index).activeCount < (x.2.pools s.index).maxSize)
    (hconnects : ∀ i, input.connects i = true) (haccepts : ∀ i, input.accepts i = true) :
    ∃ y conns, executeScatter sql targets input x = (y, true) ∧
      ScatterStarted sql targets x y conns := by
  have hsnd : ((List.finRange maxScatterShards).zip targets).map Prod.snd = targets :=
    List.map_snd_zip (by rw [List.length_finRange]; exact hsize)
  have hindices : (((List.finRange maxScatterShards).zip targets).map
      fun t => t.2.index).Nodup := by
    rw [← hsnd, List.map_map] at hpools
    exact hpools
  have hroom' : ∀ t ∈ (List.finRange maxScatterShards).zip targets,
      (x.2.pools t.2.index).activeCount < (x.2.pools t.2.index).maxSize := by
    intro t ht
    exact hroom t.2 (List.of_mem_zip ht).2
  rcases @startSlots_awaits accts own (x.1.resetScatter targets.length, x.2) sql input _
    (scatterTargets_nodup targets) hindices hacct hinv hroom' hconnects haccepts with
    ⟨-, hdone, conns, hawaits, hsent, hlog⟩
  have hstarted := startScatter_started sql targets input x
  have hzero : (startScatter sql targets input x).1.scatterDone = 0 := hdone
  have hheader := startScatter_header sql targets input x
  refine ⟨((startScatter sql targets input x).1.setState .scatter,
    (startScatter sql targets input x).2), conns, ?_, ?_⟩
  · unfold executeScatter
    rw [if_neg (by omega)]
    dsimp only
    rw [if_neg]
    rw [hzero]
    have := List.length_pos_of_ne_nil hne
    omega
  · rw [hsnd] at hlog
    refine ⟨rfl, hstarted.closed, hstarted.out, hstarted.count, hzero, hheader, ?_, hsent, hlog⟩
    exact hawaits.imp fun t c h => ⟨h.slot, h.command⟩

end Start

end Sharegres
