import Mathlib.Logic.Relation
import Sharegres.Session.State

/-!
# Session - Operations on connections

The abstract view of a session: the connections it holds and where, what it has sent on
them, and the rows it has forwarded.  Everything a session does to connections is a
sequence of a few operations on this view, each at one place of the session.

Main results:

- Definition {lit}`Account`: the abstract view, and {lit}`Op`, an operation on it.
- Theorem {lit}`acquire_ops`: acquiring a pooled connection is a sequence of operations.
- Theorems {lit}`releaseBackend_ops`, {lit}`sessionReleaseScatter_ops` and
  {lit}`sessionDestroy_ops`: so is giving connections back.
-/

namespace Sharegres

open Foundation

/-- What matters of a session for the connections of the proxy. -/
@[ext]
structure Account where
  id : Nat
  held : Place → Option Hold
  sent : List (ConnId × Text)
  rows : List Queued

/-- Change what is held in one place. -/
def Account.hold (a : Account) (p : Place) (h : Option Hold) : Account :=
  { a with held := Function.update a.held p h }

/-- The outcome of an attempt to acquire a pooled connection for a place. -/
def Account.acquired (a : Account) (p : Place) (i : Nat) : Option ConnId → Account
  | none => a
  | some c => a.hold p (some ⟨c, some i⟩)

/-- The abstract view of a session. -/
def Session.account (s : Session) : Account where
  id := s.id
  held := s.held
  sent := s.sent
  rows := s.out.filter fun q => q.msg.isRow

/-- The abstract view of a session with its backends. -/
def view (x : Conf) : Account × Backends :=
  (x.1.account, x.2)

/-- An operation of a session at a place.  A connection can be dropped without being
given back only where leaks are admitted. -/
inductive Op (leaky : Prop) (p : Place) : Account × Backends → Account × Backends → Prop where
  | retire {a : Account} {b : Backends} {i : Nat} {c : ConnId} {rest : List ConnId}
      (htop : (b.pools i).idleConns = c :: rest) :
      Op leaky p (a, b) (a, (b.setIdle i rest).pqFinish c)
  | take {a : Account} {b : Backends} {i : Nat} {c : ConnId} {rest : List ConnId}
      (hfree : a.held p = none) (htop : (b.pools i).idleConns = c :: rest) :
      Op leaky p (a, b) (a.hold p (some ⟨c, some i⟩), (b.setIdle i rest).lend i a.id c)
  | openPooled {a : Account} {b : Backends} {i : Nat} (hfree : a.held p = none) :
      Op leaky p (a, b)
        (a.hold p (some ⟨b.opened, some i⟩), b.openConn.lend i a.id b.opened)
  | openDefault {a : Account} {b : Backends} (hfree : a.held p = none) :
      Op leaky p (a, b) (a.hold p (some ⟨b.opened, none⟩), b.openConn)
  | discard {a : Account} {b : Backends} {i : Nat} {c : ConnId}
      (hheld : a.held p = some ⟨c, some i⟩) :
      Op leaky p (a, b) (a.hold p none, (b.giveBack i a.id c).pqFinish c)
  | shelve {a : Account} {b : Backends} {i : Nat} {c : ConnId}
      (hheld : a.held p = some ⟨c, some i⟩) (hidle : pqTransactionStatus (b.conns c) = .idle) :
      Op leaky p (a, b)
        (a.hold p none, (b.giveBack i a.id c).setIdle i (c :: (b.pools i).idleConns))
  | finish {a : Account} {b : Backends} {c : ConnId} (hheld : a.held p = some ⟨c, none⟩) :
      Op leaky p (a, b) (a.hold p none, b.pqFinish c)
  | drop {a : Account} {b : Backends} (hleaky : leaky) :
      Op leaky p (a, b) (a.hold p none, b)
  | send {a : Account} {b : Backends} {h : Hold} (sql : Text) (hheld : a.held p = some h)
      (hquiet : (b.conns h.conn).command = none) :
      Op leaky p (a, b)
        ({ a with sent := (h.conn, sql) :: a.sent },
          b.modifyConn h.conn fun conn => { conn with command := some ⟨a.id, sql⟩ })
  | forward {a : Account} {b : Backends} {h : Hold} {command : Command} {rows : List Queued}
      (hheld : a.held p = some h) (hcommand : (b.conns h.conn).command = some command)
      (hrows : ∀ q ∈ rows, q.origin = .result h.conn command) :
      Op leaky p (a, b) ({ a with rows := a.rows ++ rows }, b)
  | complete {a : Account} {b : Backends} {h : Hold} (xact : Xact) (hheld : a.held p = some h) :
      Op leaky p (a, b) (a, b.endCommand h.conn xact)
  | fault {a : Account} {b : Backends} {h : Hold} (status : ConnStatus)
      (hheld : a.held p = some h) :
      Op leaky p (a, b) (a, b.setStatus h.conn status)

/-- A sequence of operations at places of a set. -/
def Ops (leaky : Prop) (places : Set Place) : Account × Backends → Account × Backends → Prop :=
  Relation.ReflTransGen fun x y => ∃ p ∈ places, Op leaky p x y

namespace Ops

variable {leaky : Prop} {places places' : Set Place} {x y z : Account × Backends} {p : Place}

theorem refl : Ops leaky places x x :=
  Relation.ReflTransGen.refl

theorem trans (h : Ops leaky places x y) (h' : Ops leaky places y z) : Ops leaky places x z :=
  Relation.ReflTransGen.trans h h'

theorem one (hp : p ∈ places) (h : Op leaky p x y) : Ops leaky places x y :=
  Relation.ReflTransGen.single ⟨p, hp, h⟩

/-- A single operation at its own place. -/
theorem here (h : Op leaky p x y) : Ops leaky {p} x y :=
  one (Set.mem_singleton p) h

theorem mono (h : Ops leaky places x y) (hsub : places ⊆ places') : Ops leaky places' x y := by
  refine Relation.ReflTransGen.mono ?_ _ _ h
  rintro x y ⟨p, hp, hop⟩
  exact ⟨p, hsub hp, hop⟩

end Ops

/-! ## Views of changed sessions -/

namespace Account

variable (a : Account) (p : Place) (h h' : Option Hold)

@[simp]
theorem hold_held_self : (a.hold p h).held p = h :=
  Function.update_self ..

theorem hold_held_of_ne {q : Place} (hne : q ≠ p) : (a.hold p h).held q = a.held q :=
  Function.update_of_ne hne ..

@[simp]
theorem hold_hold : (a.hold p h).hold p h' = a.hold p h' := by
  ext1 <;> simp [hold]

theorem hold_held (hheld : a.held p = h) : a.hold p h = a := by
  subst hheld
  ext1 <;> simp [hold]

end Account

namespace Session

variable (s : Session)

/-- A slot is a place. -/
theorem account_setSlot (i : Fin maxScatterShards) (slot : ScatterConn) :
    (s.setSlot i slot).account = s.account.hold (.slot i) slot.hold := by
  ext1
  · rfl
  · funext p
    by_cases hp : p = .slot i
    · subst hp
      simp [account, held, setSlot]
    · rw [Account.hold_held_of_ne _ _ _ hp]
      cases p with
      | backend => rfl
      | slot j =>
          have hj : j ≠ i := fun h => hp (by rw [h])
          simp [account, held, setSlot, Function.update_of_ne hj]
  · rfl
  · rfl

/-- The single backend is a place. -/
theorem account_setBackend (conn : Option ConnId) (shard : Option Shard) :
    (s.setBackend conn shard).account =
      s.account.hold .backend (conn.map fun c => ⟨c, shard.map Shard.index⟩) := by
  ext1
  · rfl
  · funext p
    cases p with
    | backend => simp [account, held, setBackend]
    | slot j => rw [Account.hold_held_of_ne _ _ _ (by simp)]; rfl
  · rfl
  · rfl

/-- Rows show in the view. -/
theorem account_queueAll (origin : Origin) (msgs : List BackendMsg) :
    (s.queueAll origin msgs).account =
      { s.account with
        rows := s.account.rows ++
          (msgs.filter BackendMsg.isRow).map fun msg => ⟨msg, origin⟩ } := by
  ext1
  · rfl
  · rfl
  · rfl
  · simp only [account, queueAll, List.filter_append, List.filter_map]
    rfl

/-- Messages without rows do not show in the view. -/
theorem account_queueAll_of_not_row {origin : Origin} {msgs : List BackendMsg}
    (h : ∀ msg ∈ msgs, msg.isRow = false) : (s.queueAll origin msgs).account = s.account := by
  rw [account_queueAll, List.filter_eq_nil_iff.mpr fun msg hmsg => by simp [h msg hmsg],
    List.map_nil, List.append_nil]

@[simp]
theorem account_queue {origin : Origin} {msg : BackendMsg} (h : msg.isRow = false) :
    (s.queue origin msg).account = s.account :=
  s.account_queueAll_of_not_row (by simpa using h)

@[simp]
theorem account_feSendError (severity code message : Text) :
    (s.feSendError severity code message).account = s.account :=
  s.account_queue rfl

@[simp]
theorem account_queueReady (status : TxnStatus) : (s.queueReady status).account = s.account :=
  s.account_queue rfl

@[simp]
theorem account_noteOver (p : Place) : (s.noteOver p).account = s.account :=
  rfl

@[simp]
theorem account_setState (state : SessionState) : (s.setState state).account = s.account :=
  rfl

@[simp]
theorem account_countDone : s.countDone.account = s.account :=
  rfl

@[simp]
theorem account_id : s.account.id = s.id :=
  rfl

@[simp]
theorem account_held : s.account.held = s.held :=
  rfl

end Session

/-- Sending queued bytes does not show in the view. -/
@[simp]
theorem sessionSend_account (outcome : SendOutcome) (s : Session) :
    (sessionSend outcome s).1.account = s.account := by
  rcases sessionSend_eq outcome s with ⟨unsent, callback, heq⟩
  rw [heq]
  rfl

/-! ## Acquiring and giving back -/

section Refinement

variable {leaky : Prop} {p : Place} {a : Account} {b : Backends}

/-- The loop over the idle connections of a pool. -/
theorem reuseIdle_ops {i : Nat} {idle : List ConnId} (hfree : a.held p = none)
    (hidle : (b.pools i).idleConns = idle) :
    Ops leaky {p} (a, b)
      (a.acquired p i (Backends.reuseIdle i a.id idle b).2,
        (Backends.reuseIdle i a.id idle b).1) := by
  induction idle generalizing b with
  | nil => exact Ops.refl
  | cons c rest ih =>
      unfold Backends.reuseIdle
      by_cases hok : (b.conns c).status = .ok
      · rw [if_pos hok]
        exact Ops.here (Op.take hfree hidle)
      · rw [if_neg hok]
        apply Ops.trans (Ops.here (Op.retire hidle))
        apply ih
        simp [Backends.pqFinish]

/-- Acquiring a connection for an empty place. -/
theorem acquire_ops (i : Nat) (connects : Bool) (hfree : a.held p = none) :
    Ops leaky {p} (a, b)
      (a.acquired p i (b.connPoolAcquire i a.id connects).2,
        (b.connPoolAcquire i a.id connects).1) := by
  have hreuse : Ops leaky {p} (a, b) _ := reuseIdle_ops (i := i) hfree rfl
  unfold Backends.connPoolAcquire
  rcases hr : Backends.reuseIdle i a.id (b.pools i).idleConns b with ⟨b', _ | c⟩
  · rw [hr] at hreuse
    dsimp only
    by_cases hfull : (b'.pools i).maxSize ≤ (b'.pools i).activeCount
    · rw [if_pos hfull]
      exact hreuse
    · rw [if_neg hfull]
      cases connects with
      | false => exact hreuse
      | true =>
          apply Ops.trans hreuse
          exact Ops.here (Op.openPooled hfree)
  · rw [hr] at hreuse
    exact hreuse

/-- Giving back what a place holds. -/
theorem giveUp_ops {s : Session} {h : Hold} (hid : s.id = a.id) (hheld : a.held p = some h) :
    Ops leaky {p} (a, b) (a.hold p none, giveUp s b h) := by
  rcases h with ⟨c, _ | i⟩
  · exact Ops.here (Op.finish hheld)
  · unfold giveUp
    dsimp only
    rw [hid]
    rcases b.connPoolRelease_cases i a.id c with hclosed | ⟨hidle, hkept⟩
    · rw [hclosed]
      exact Ops.here (Op.discard hheld)
    · rw [hkept]
      exact Ops.here (Op.shelve hheld hidle)

end Refinement

/-- Without a backend nothing is released. -/
theorem releaseBackend_view_none {x : Conf} (h : x.1.held .backend = none) :
    releaseBackend x = x := by
  unfold releaseBackend
  rw [h]

/-- The place of the single backend is empty then. -/
theorem releaseBackend_account (x : Conf) :
    (releaseBackend x).1.account = x.1.account.hold .backend none := by
  cases hheld : x.1.held .backend with
  | none =>
      rw [releaseBackend_view_none hheld]
      exact (Account.hold_held _ _ _ hheld).symm
  | some h =>
      unfold releaseBackend
      rw [hheld]
      exact x.1.account_setBackend none none

/-- Giving back the single backend. -/
theorem releaseBackend_ops {leaky : Prop} (x : Conf) :
    Ops leaky {.backend} (view x) (view (releaseBackend x)) := by
  cases hheld : x.1.held .backend with
  | none =>
      rw [releaseBackend_view_none hheld]
      exact Ops.refl
  | some h =>
      unfold view
      rw [releaseBackend_account]
      unfold releaseBackend
      rw [hheld]
      exact giveUp_ops rfl hheld

/-- The places of the scatter slots. -/
def slotPlaces : Set Place :=
  {p | ∃ i, p = .slot i}

theorem backend_not_mem_slotPlaces : Place.backend ∉ slotPlaces := by
  rintro ⟨i, h⟩
  cases h

/-- The place of a slot is empty when it is released. -/
theorem releaseSlot_account (x : Conf) (i : Fin maxScatterShards) :
    (releaseSlot x i).1.account = x.1.account.hold (.slot i) none := by
  unfold releaseSlot
  cases hheld : x.1.held (.slot i) with
  | none => exact (Account.hold_held _ _ _ hheld).symm
  | some h =>
      exact (x.1.noteOver (.slot i)).account_setSlot i _

theorem releaseSlot_ops {leaky : Prop} (x : Conf) (i : Fin maxScatterShards) :
    Ops leaky slotPlaces (view x) (view (releaseSlot x i)) := by
  unfold view
  rw [releaseSlot_account]
  unfold releaseSlot
  cases hheld : x.1.held (.slot i) with
  | none =>
      rw [Account.hold_held _ _ _ hheld]
      exact Ops.refl
  | some h =>
      apply Ops.mono (giveUp_ops rfl hheld)
      intro p hp
      rw [Set.mem_singleton_iff] at hp
      exact ⟨i, hp⟩

theorem releaseSlots_ops {leaky : Prop} (slots : List (Fin maxScatterShards)) (x : Conf) :
    Ops leaky slotPlaces (view x) (view (slots.foldl releaseSlot x)) := by
  induction slots generalizing x with
  | nil => exact Ops.refl
  | cons i slots ih => exact Ops.trans (releaseSlot_ops x i) (ih _)

/-- Giving back the connections of a scatter. -/
theorem sessionReleaseScatter_ops {leaky : Prop} (x : Conf) :
    Ops leaky slotPlaces (view x) (view (sessionReleaseScatter x)) :=
  releaseSlots_ops x.1.slots x

/-- Destroying a session. -/
theorem sessionDestroy_ops {leaky : Prop} (x : Conf) :
    Ops leaky Set.univ (view x) (view (sessionDestroy x)) := by
  have hbackend : Ops leaky _ (view x) _ := releaseBackend_ops x
  have hscatter : Ops leaky _ _ _ := sessionReleaseScatter_ops (releaseBackend x)
  exact Ops.trans (hbackend.mono (Set.subset_univ _)) (hscatter.mono (Set.subset_univ _))

end Sharegres
