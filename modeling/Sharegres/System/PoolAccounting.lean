import Mathlib.Algebra.BigOperators.Fin
import Mathlib.Data.Fintype.BigOperators
import Mathlib.Data.Fintype.Option
import Sharegres.Foundation.LeaseLog
import Sharegres.Session.Outcomes
import Sharegres.System.Isolation

/-!
# System - Pooled connections are neither leaked nor released twice

The counter of each pool is the number of places of live sessions that hold one of its
connections, and the log of acquisitions and releases pairs up.  Both follow from what
single operations of a session do, as long as a scatter never starts over slots that
still hold connections.

Main results:

- Theorem {lit}`Ops.balance`: the operations of a session keep the books balanced.
- Theorem {lit}`step_tidy`: only a running scatter holds connections in slots.
- Theorem {lit}`pool_books_balance`: the books of all pools in every run.
-/

namespace Sharegres

open Foundation

variable {accts' : Nat → Account} {hold : Option Hold} {cfg : Config} {p p' : Proxy}
  {accts : Nat → Account} {b b' : Backends} {own : ConnId → Owner} {n sid : Nat}

/-- A place is the single backend or a slot. -/
def placeEquiv : Place ≃ Option (Fin maxScatterShards) where
  toFun
    | .backend => none
    | .slot i => some i
  invFun
    | none => .backend
    | some i => .slot i
  left_inv := by rintro (_ | i) <;> rfl
  right_inv := by rintro (_ | i) <;> rfl

instance : Fintype Place :=
  Fintype.ofEquiv _ placeEquiv.symm

/-- 1 if the place holds a connection of the pool, else 0. -/
def poolUse (i : Nat) (hold : Option Hold) : Nat :=
  if hold.bind Hold.pool = some i then 1 else 0

/-- The number of places of the first sessions that hold a connection of the pool. -/
def usesOf (n : Nat) (accts : Nat → Account) (i : Nat) : Nat :=
  ∑ x ∈ Finset.range n ×ˢ (Finset.univ : Finset Place), poolUse i ((accts x.1).held x.2)

/-- The leases outstanding are the pooled connections that sessions hold. -/
def Leased (accts : Nat → Account) (lent : ConnId → Option Lessee) : Prop :=
  ∀ c lessee, lent c = some lessee ↔
    ∃ q, (accts lessee.session).held q = some ⟨c, some lessee.pool⟩

/-- The counters of the pools and the log of leases agree with what sessions hold. -/
structure Balance (n : Nat) (accts : Nat → Account) (b : Backends) : Prop where
  active : ∀ i, (b.pools i).activeCount = usesOf n accts i
  leases : ∃ lent, replay b.log = some lent ∧ Leased accts lent

/-! ## Counters -/

/-- Changing one place of a session changes one term of the sum. -/
theorem usesOf_hold (hsid : sid < n) (q : Place) (hold : Option Hold) (i : Nat) :
    usesOf n (Function.update accts sid ((accts sid).hold q hold)) i +
        poolUse i ((accts sid).held q) =
      usesOf n accts i + poolUse i hold := by
  have hchange := sum_change (s := Finset.range n ×ˢ (Finset.univ : Finset Place))
    (f := fun x => poolUse i ((accts x.1).held x.2))
    (g := fun x => poolUse i
      ((Function.update accts sid ((accts sid).hold q hold) x.1).held x.2))
    (a := (sid, q)) (by simp [hsid]) (by
      intro x _ hx
      rw [update_hold_held, if_neg]
      rintro ⟨hsession, hplace⟩
      exact hx (Prod.ext hsession hplace))
  rw [update_hold_held, if_pos ⟨rfl, rfl⟩] at hchange
  exact hchange

/-- Places that hold the same count the same. -/
theorem usesOf_congr (h : ∀ t q, (accts' t).held q = (accts t).held q) (i : Nat) :
    usesOf n accts' i = usesOf n accts i := by
  apply Finset.sum_congr rfl
  intro x _
  rw [h]

/-! ## Leases -/

section Leases

variable {lent : ConnId → Option Lessee} {q : Place} {c : ConnId} {i : Nat}

/-- What is lent depends on what is held. -/
theorem Leased.congr (h : Leased accts lent) (hheld : ∀ t q, (accts' t).held q = (accts t).held q) :
    Leased accts' lent := by
  intro c lessee
  rw [h c lessee]
  simp only [hheld]

/-- A place changes between holding nothing and holding a connection of no pool. -/
theorem Leased.unpooled (h : Leased accts lent)
    (hbefore : ((accts sid).held q).bind Hold.pool = none) (hafter : hold.bind Hold.pool = none) :
    Leased (Function.update accts sid ((accts sid).hold q hold)) lent := by
  intro c lessee
  rw [h c lessee]
  apply exists_congr
  intro r
  rw [update_hold_held]
  split
  · rename_i hplace
    apply iff_of_false
    · intro hheld
      rw [hplace.1, hplace.2] at hheld
      simp [hheld] at hbefore
    · intro hheld
      simp [hheld] at hafter
  · rfl

/-- A free connection is lent to a session for an empty place. -/
theorem Leased.lend (h : Leased accts lent) (hfree : lent c = none)
    (hempty : (accts sid).held q = none) :
    Leased (Function.update accts sid ((accts sid).hold q (some ⟨c, some i⟩)))
      (Function.update lent c (some ⟨sid, i⟩)) := by
  intro c' lessee
  by_cases hc : c' = c
  · subst hc
    rw [Function.update_self]
    constructor
    · intro heq
      cases heq
      exact ⟨q, by rw [update_hold_held, if_pos ⟨rfl, rfl⟩]⟩
    · rintro ⟨r, hheld⟩
      rw [update_hold_held] at hheld
      split at hheld
      · rename_i hplace
        cases hheld
        rw [← hplace.1]
      · have hlent := (h c' lessee).mpr ⟨r, hheld⟩
        rw [hfree] at hlent
        cases hlent
  · rw [Function.update_of_ne hc, h c' lessee]
    apply exists_congr
    intro r
    rw [update_hold_held]
    split
    · rename_i hplace
      rw [hplace.1, hplace.2, hempty]
      apply iff_of_false
      · simp
      · intro heq
        cases heq
        exact hc rfl
    · rfl

/-- The holder of a connection gives it back. -/
theorem Leased.giveBack (h : Leased accts lent) (hheld : (accts sid).held q = some ⟨c, some i⟩)
    (honly : ∀ t r hold, (accts t).held r = some hold → hold.conn = c → t = sid ∧ r = q) :
    Leased (Function.update accts sid ((accts sid).hold q none))
      (Function.update lent c none) := by
  intro c' lessee
  by_cases hc : c' = c
  · subst hc
    rw [Function.update_self]
    apply iff_of_false
    · simp
    · rintro ⟨r, hheld'⟩
      rw [update_hold_held] at hheld'
      split at hheld'
      · cases hheld'
      · rename_i hplace
        exact hplace (honly _ r _ hheld' rfl)
  · rw [Function.update_of_ne hc, h c' lessee]
    apply exists_congr
    intro r
    rw [update_hold_held]
    split
    · rename_i hplace
      rw [hplace.1, hplace.2, hheld]
      apply iff_of_false
      · intro heq
        cases heq
        exact hc rfl
      · simp
    · rfl

end Leases

/-! ## Operations -/

/-- Changes that keep what is held, the counters and the log. -/
theorem Balance.congr (h : Balance n accts b) (hheld : ∀ t q, (accts' t).held q = (accts t).held q)
    (hactive : ∀ i, (b'.pools i).activeCount = (b.pools i).activeCount) (hlog : b'.log = b.log) :
    Balance n accts' b' := by
  constructor
  · intro i
    rw [hactive, usesOf_congr hheld]
    exact h.active i
  · rcases h.leases with ⟨lent, hreplay, hleased⟩
    rw [hlog]
    exact ⟨lent, hreplay, hleased.congr hheld⟩

/-- A place changes what it holds, and the counters follow. -/
theorem Balance.active_hold (h : Balance n accts b) (hsid : sid < n) {q : Place}
    {i : Nat}
    (hactive : (b'.pools i).activeCount + (poolUse i ((accts sid).held q) : Int) =
      (b.pools i).activeCount + poolUse i hold) :
    (b'.pools i).activeCount =
      usesOf n (Function.update accts sid ((accts sid).hold q hold)) i := by
  have hsum : usesOf n (Function.update accts sid ((accts sid).hold q hold)) i +
      poolUse i ((accts sid).held q) = usesOf n accts i + poolUse i hold :=
    usesOf_hold hsid q hold i
  have hbefore := h.active i
  omega

/-- A pooled connection counts for its pool. -/
theorem poolUse_pooled (i j : Nat) (c : ConnId) :
    poolUse i (some ⟨c, some j⟩) = if i = j then 1 else 0 := by
  simp [poolUse, eq_comm]

/-- An account with the same connections. -/
theorem update_held_of_eq {a : Account} (h : a.held = (accts sid).held) (t : Nat) (q : Place) :
    (Function.update accts sid a t).held q = (accts t).held q := by
  by_cases ht : t = sid
  · subst ht
    rw [Function.update_self, h]
  · rw [Function.update_of_ne ht]

/-- A pooled connection goes to an empty place. -/
theorem Balance.lend (h : Balance n accts b) (hsid : sid < n) {q : Place} {c : ConnId} {i : Nat}
    (hempty : (accts sid).held q = none) (hnot : ∀ t r, own c ≠ .held t r)
    (hledger : Ledger accts b own)
    (hactive : ∀ j, (b'.pools j).activeCount = (b.pools j).activeCount + if j = i then 1 else 0)
    (hlog : b'.log = .lend c ⟨sid, i⟩ :: b.log) :
    Balance n (Function.update accts sid ((accts sid).hold q (some ⟨c, some i⟩))) b' := by
  constructor
  · intro j
    apply h.active_hold hsid
    rw [hempty, hactive, poolUse_pooled]
    split <;> simp [poolUse]
  · rcases h.leases with ⟨lent, hreplay, hleased⟩
    have hfree : lent c = none := by
      cases hlent : lent c with
      | none => rfl
      | some lessee =>
          rcases (hleased c lessee).mp hlent with ⟨r, hheld⟩
          exact absurd (hledger.held _ r _ hheld) (hnot _ r)
    refine ⟨_, ?_, hleased.lend hfree hempty⟩
    rw [hlog]
    exact replay_lend hreplay hfree

/-- A pooled connection is given back. -/
theorem Balance.giveBack (h : Balance n accts b) (hsid : sid < n) {q : Place} {c : ConnId}
    {i : Nat} (hheld : (accts sid).held q = some ⟨c, some i⟩) (hledger : Ledger accts b own)
    (hactive : ∀ j, (b'.pools j).activeCount = (b.pools j).activeCount - if j = i then 1 else 0)
    (hlog : b'.log = .giveBack c ⟨sid, i⟩ :: b.log) :
    Balance n (Function.update accts sid ((accts sid).hold q none)) b' := by
  constructor
  · intro j
    apply h.active_hold hsid
    rw [hheld, hactive, poolUse_pooled]
    split <;> simp [poolUse]
  · rcases h.leases with ⟨lent, hreplay, hleased⟩
    have hlent : lent c = some ⟨sid, i⟩ := (hleased c ⟨sid, i⟩).mpr ⟨q, hheld⟩
    refine ⟨_, ?_, hleased.giveBack hheld ?_⟩
    · rw [hlog]
      exact replay_return hreplay hlent
    · -- the assignment of owners knows one holder only
      intro t r hold hheld' hconn
      have hown := hledger.held t r hold hheld'
      rw [hconn, hledger.held sid q _ hheld, Owner.held.injEq] at hown
      exact ⟨hown.1.symm, hown.2.symm⟩

/-- A place changes between holding nothing and holding a connection of no pool. -/
theorem Balance.unpooled (h : Balance n accts b) (hsid : sid < n) {q : Place}
    (hbefore : ((accts sid).held q).bind Hold.pool = none) (hafter : hold.bind Hold.pool = none)
    (hpools : b'.pools = b.pools) (hlog : b'.log = b.log) :
    Balance n (Function.update accts sid ((accts sid).hold q hold)) b' := by
  constructor
  · intro j
    apply h.active_hold hsid
    rw [hpools, poolUse, poolUse, hbefore, hafter]
  · rcases h.leases with ⟨lent, hreplay, hleased⟩
    rw [hlog]
    exact ⟨lent, hreplay, hleased.unpooled hbefore hafter⟩

/-- An operation of a session that leaks nothing keeps the books balanced. -/
theorem Op.balance {q : Place} {x y : Account × Backends} (hop : Op False q x y)
    (hacct : accts sid = x.1) (hsid : sid < n) (hledger : Ledger accts x.2 own)
    (h : Balance n accts x.2) : Balance n (Function.update accts sid y.1) y.2 := by
  have hid := hledger.ids sid
  cases hop with
  | retire htop =>
      subst hacct
      exact h.congr (update_held_of_eq rfl) (Backends.setIdle_activeCount _ _ _) rfl
  | take hfree htop =>
      rename_i a b i c rest
      subst hacct
      apply h.lend hsid hfree _ hledger
      · intro j
        rw [Backends.lend_activeCount, Backends.setIdle_activeCount]
      · rw [hid]
        rfl
      · intro t r
        rw [hledger.top_idle htop]
        simp
  | openPooled hfree =>
      subst hacct
      apply h.lend hsid hfree _ hledger
      · intro j
        rw [Backends.lend_activeCount]
        rfl
      · rw [hid]
        rfl
      · intro t r
        rw [hledger.unopened _ (le_refl _)]
        simp
  | openDefault hfree =>
      subst hacct
      exact h.unpooled hsid (by rw [hfree]; rfl) rfl rfl rfl
  | discard hheld =>
      rename_i a b i c
      subst hacct
      apply h.giveBack hsid hheld hledger
      · intro j
        change ((b.giveBack i (accts sid).id c).pools j).activeCount = _
        rw [Backends.giveBack_activeCount]
      · rw [hid]
        rfl
  | shelve hheld hidle =>
      subst hacct
      apply h.giveBack hsid hheld hledger
      · intro j
        rw [Backends.setIdle_activeCount, Backends.giveBack_activeCount]
      · rw [hid]
        rfl
  | finish hheld =>
      subst hacct
      exact h.unpooled hsid (by rw [hheld]; rfl) rfl rfl rfl
  | drop hleaky => exact hleaky.elim
  | send sql hheld hquiet =>
      subst hacct
      exact h.congr (update_held_of_eq rfl) (fun _ => rfl) rfl
  | forward hheld hcommand hrows =>
      subst hacct
      exact h.congr (update_held_of_eq rfl) (fun _ => rfl) rfl
  | complete xact hheld =>
      subst hacct
      exact h.congr (update_held_of_eq rfl) (fun _ => rfl) rfl
  | fault status hheld =>
      subst hacct
      exact h.congr (update_held_of_eq rfl) (fun _ => rfl) rfl

/-- The operations of a session keep the books balanced. -/
theorem Ops.balance {places : Set Place} {x y : Account × Backends} (hops : Ops False places x y)
    (hacct : accts sid = x.1) (hsid : sid < n) (hledger : Ledger accts x.2 own)
    (h : Balance n accts x.2) : Balance n (Function.update accts sid y.1) y.2 := by
  induction hops with
  | refl =>
      rw [← hacct, Function.update_eq_self]
      exact h
  | tail hfirst hlast ih =>
      rcases hlast with ⟨q, -, hop⟩
      rcases Ops.ledger hfirst hacct hledger with ⟨own', hledger'⟩
      have hlast := hop.balance (Function.update_self ..) hsid hledger' ih
      rw [Function.update_idem] at hlast
      exact hlast

/-! ## Slots in use -/

/-- Only the slots of a running scatter hold connections, all of them pooled. -/
def Session.Neat (s : Session) : Prop :=
  ∀ i, (s.scatter i).conn ≠ none →
    s.state = .scatter ∧ i ∈ s.slots ∧ (s.scatter i).fromPool = true

/-- A session that ended holds nothing. -/
structure Session.Tidy (s : Session) : Prop where
  neat : s.Neat
  closed : s.closed = true → ∀ q, s.held q = none

namespace Session

variable {s s' t : Session}

/-- Without a scatter no slot holds a connection. -/
theorem Neat.slot_none (h : s.Neat) (hstate : s.state ≠ .scatter) (i : Fin maxScatterShards) :
    (s.scatter i).conn = none := by
  by_contra hconn
  exact hstate (h i hconn).1

theorem Neat.of_none (h : ∀ i, (s.scatter i).conn = none) : s.Neat :=
  fun i hconn => absurd (h i) hconn

/-- Outside a scatter the slots are empty. -/
theorem Neat.slotsEmpty (h : s.Neat) (hstate : s.state ≠ .scatter) : s.SlotsEmpty := by
  intro i
  rw [held, ScatterConn.hold, h.slot_none hstate i]
  rfl

/-- The scatter is left alone, and is running as before or not at all. -/
theorem Neat.same (h : s.Neat) (hsame : SameScatter s s')
    (hstate : s'.state = .scatter ↔ s.state = .scatter) : s'.Neat := by
  intro i hconn
  rw [hsame.scatter] at hconn
  rcases h i hconn with ⟨hrunning, hi, hpool⟩
  refine ⟨hstate.mpr hrunning, ?_, ?_⟩
  · rw [hsame.slots]
    exact hi
  · rw [hsame.scatter]
    exact hpool

/-- A live session after its last callback. -/
theorem Neat.tidy (h : s.Neat) (hlive : s.closed = false) (hend : LiveOrEnded s s') :
    s'.Tidy := by
  rcases hend with hquiet | hended
  · refine ⟨h.same (.of_quiet hquiet) (by rw [hquiet.state]), ?_⟩
    intro hclosed
    rw [hquiet.closed, hlive] at hclosed
    cases hclosed
  · have hnone : ∀ i, (s'.scatter i).conn = none := by
      intro i
      by_contra hconn
      rcases hended.slot i hconn with ⟨hnot, hsame⟩
      rw [hsame] at hconn
      exact hnot (h i hconn).2.1
    refine ⟨.of_none hnone, ?_⟩
    intro _ q
    cases q with
    | backend => simp [held, hended.backend]
    | slot i => simp [held, ScatterConn.hold, hnone i]

/-- A scatter that was started. -/
theorem Neat.started {sql : Text} {targets : List Shard} {input : ClientInput} {b : Backends}
    (hempty : ∀ i, (s.scatter i).conn = none) :
    (executeScatter sql targets input (s, b)).1.1.Neat := by
  have hstarted := startScatter_started sql targets input (s, b)
  have hslots := startScatter_slots sql targets input (s, b)
  -- a slot in use is one of a target that was not counted as failed
  have hused : ∀ i, ((startScatter sql targets input (s, b)).1.scatter i).conn ≠ none →
      i ∈ (List.finRange maxScatterShards).take targets.length ∧
        ((startScatter sql targets input (s, b)).1.scatter i).done = false ∧
        ((startScatter sql targets input (s, b)).1.scatter i).fromPool = true := by
    intro i hconn
    by_cases hi : i ∈ (List.finRange maxScatterShards).take targets.length
    · rcases hstarted.slot i hi with ⟨-, hnone, -⟩ | ⟨hopen, hpool, -⟩
      · exact absurd hnone hconn
      · exact ⟨hi, hopen, hpool⟩
    · rw [hstarted.other i hi] at hconn
      exact absurd (hempty i) hconn
  unfold executeScatter
  split
  · exact .of_none hempty
  · dsimp only
    split
    · rename_i hall
      apply Neat.of_none
      intro i
      by_contra hconn
      rcases hused i hconn with ⟨hi, hopen, -⟩
      rw [hstarted.done] at hall
      have hdone := List.countP_eq_length.mp (le_antisymm List.countP_le_length
        (le_trans (List.length_take_le _ _) (by simpa [resetScatter] using hall))) i hi
      rw [hopen] at hdone
      cases hdone
    · intro i hconn
      rcases hused i hconn with ⟨hi, -, hpool⟩
      refine ⟨rfl, ?_, hpool⟩
      change i ∈ (startScatter sql targets input (s, b)).1.slots
      rw [hslots]
      exact hi

theorem Neat.markDone (h : s.Neat) (i : Fin maxScatterShards) : (markDone i s).Neat := by
  intro j hconn
  have hsame : ((Sharegres.markDone i s).scatter j).conn = (s.scatter j).conn ∧
      ((Sharegres.markDone i s).scatter j).fromPool = (s.scatter j).fromPool := by
    by_cases hj : j = i
    · subst hj
      simp [Sharegres.markDone, setSlot, countDone]
    · have hother : (Sharegres.markDone i s).scatter j = s.scatter j :=
        Function.update_of_ne hj ..
      rw [hother]
      exact ⟨rfl, rfl⟩
  rw [hsame.1] at hconn
  rw [hsame.2]
  exact h j hconn

theorem Neat.gathered (h : s.Neat) (hgathered : Gathered s s') : s'.Neat := by
  apply Neat.of_none
  intro i
  by_contra hconn
  rcases hgathered.slot i hconn with ⟨hnot, hsame⟩
  rw [hsame] at hconn
  exact hnot (h i hconn).2.1

end Session

/-- What an event does to a scatter. -/
theorem ScatterEffect.tidy {s s' : Session} (heffect : ScatterEffect s s') (h : s.Neat)
    (hlive : s.closed = false) : s'.Tidy := by
  cases heffect with
  | kept t _ hsame hstate hend =>
      exact (h.same hsame hstate).tidy (hsame.closed.trans hlive) hend
  | started t b sql targets input _ hsame hfree hend =>
      apply (Session.Neat.started _).tidy _ hend
      · intro i
        rw [hsame.scatter]
        exact h.slot_none hfree i
      · rw [executeScatter_closed]
        exact hsame.closed.trans hlive

/-- An event of the single backend. -/
theorem BackendCase.tidy {input : BackendInput} {flush : SendOutcome} {x y : Conf}
    (hcase : BackendCase input flush x y) (h : x.1.Neat) (hlive : x.1.closed = false)
    (hguard : input.hangup = true ∨ x.1.state ≠ .scatter) : y.1.Tidy := by
  rcases hcase.scatter with ⟨t, hsame, hstate, hend⟩
  apply (h.same hsame _).tidy (hsame.closed.trans hlive) hend
  rcases hstate with hstate | ⟨hhangup, hstate⟩
  · rw [hstate]
  · rcases hguard with hguard | hguard
    · rw [hhangup] at hguard
      cases hguard
    · exact iff_of_false hstate hguard

theorem ScatterCase.tidy {i : Fin maxScatterShards} {input : BackendInput}
    {flush : SendOutcome} {x y : Conf} (hcase : ScatterCase i input flush x y) (h : x.1.Tidy)
    (hlive : x.1.closed = false) : y.1.Tidy := by
  rcases hcase.counts with rfl | ⟨-, t, b, hquiet, -, rfl⟩
  · exact h
  · have hmarked : (markDone i t).Neat :=
      (h.neat.same (.of_quiet hquiet) (by rw [hquiet.state])).markDone i
    have hopen : (markDone i t).closed = false := hquiet.closed.trans hlive
    rcases checkComplete_case flush (markDone i t, b) with ⟨-, heq⟩ | ⟨-, tag, heq⟩
    · rw [heq]
      exact hmarked.tidy hopen (Or.inl (Quiet.refl _))
    · rw [heq]
      have hgathered := gathered_gathered tag (markDone i t, b)
      exact (hmarked.gathered hgathered).tidy (hgathered.closed.trans hopen)
        (flushOrDestroy_end flush _)

/-! ## Runs -/

/-- The single backend is reported readable only while its answer is awaited. -/
def ReadableWhenBusy (p : Proxy) : Event → Prop
  | .backend sid input _ =>
      input.hangup = true ∨ (p.sessions sid).state = .query ∨
        (p.sessions sid).state = .copyIn ∨ (p.sessions sid).state = .copyOut
  | _ => True

instance (p : Proxy) (e : Event) : Decidable (ReadableWhenBusy p e) :=
  match e with
  | .backend sid input _ => inferInstanceAs (Decidable (
      input.hangup = true ∨ (p.sessions sid).state = .query ∨
        (p.sessions sid).state = .copyIn ∨ (p.sessions sid).state = .copyOut))
  | .accept _ _ | .client _ _ | .scatter _ _ _ _ | .healthCheck | .connLost _ => isTrue trivial

/-- The books are balanced, and sessions are tidy. -/
structure Proxy.Accounted (p : Proxy) : Prop where
  balance : Balance p.created p.accounts p.backends
  tidy : ∀ t, (p.sessions t).Tidy
  fresh : ∀ t, p.created ≤ t → (p.sessions t).closed = true

/-- A callback of a session that leaks nothing and leaves it tidy. -/
theorem Proxy.put_accounted {y : Conf} (halive : p.alive sid)
    (hops : Ops False Set.univ (view (p.conf sid)) (view y)) (htidy : y.1.Tidy) (howned : p.Owned)
    (h : p.Accounted) : (p.put sid y).Accounted := by
  constructor
  case balance =>
    rcases howned with ⟨own, hledger⟩
    rw [put_accounts]
    have hacct : p.accounts sid = (view (p.conf sid)).1 := rfl
    exact hops.balance hacct halive.1 hledger h.balance
  case tidy =>
    intro t
    by_cases ht : t = sid
    · subst ht
      rw [put_session]
      exact htidy
    · rw [put_other ht]
      exact h.tidy t
  case fresh =>
    intro t ht
    have hne : t ≠ sid := fun heq => absurd halive.1 (Nat.not_lt.mpr (heq ▸ ht))
    rw [put_other hne]
    exact h.fresh t ht

/-- The health check lends nothing. -/
theorem healthLoop_log (idle : List ConnId) (b : Backends) :
    (Backends.healthLoop idle b).2.log = b.log := by
  induction idle generalizing b with
  | nil => rfl
  | cons c rest ih =>
      unfold Backends.healthLoop
      split
      · exact ih b
      · exact ih (b.pqFinish c)

theorem healthCheckAll_log (shards : List Nat) (b : Backends) :
    (b.healthCheckAll shards).log = b.log := by
  induction shards generalizing b with
  | nil => rfl
  | cons i shards ih => exact (ih (b.connPoolHealthCheck i)).trans (healthLoop_log _ b)

/-- A health check closes idle connections only. -/
theorem Balance.healthCheckAll (shards : List Nat) (h : Balance n accts b) :
    Balance n accts (b.healthCheckAll shards) := by
  induction shards generalizing b with
  | nil => exact h
  | cons i shards ih =>
      apply ih
      rcases healthLoop_spec (b.pools i).idleConns b with ⟨-, hpools, -, -⟩
      apply h.congr (fun _ _ => rfl)
      · intro j
        rw [Backends.connPoolHealthCheck, Backends.setIdle_activeCount, hpools]
      · exact healthLoop_log _ _

/-- A session that holds nothing does not count. -/
theorem usesOf_succ (h : ∀ q, (accts n).held q = none) (i : Nat) :
    usesOf (n + 1) accts i = usesOf n accts i := by
  unfold usesOf
  rw [Finset.sum_product, Finset.sum_range_succ, Finset.sum_product, Nat.add_eq_left]
  apply Finset.sum_eq_zero
  intro q _
  rw [h q]
  rfl

/-- A new session holds nothing. -/
theorem Proxy.accept_accounted (pid secretKey : Int) (h : p.Accounted) :
    (p.accept pid secretKey).Accounted := by
  have hnone : ∀ q, ((p.accept pid secretKey).accounts p.created).held q = none := by
    intro q
    rw [accounts, accept_new]
    cases q with
    | backend => rfl
    | slot i => rfl
  -- neither the new session nor its unused predecessor holds anything
  have hheld : ∀ t q, ((p.accept pid secretKey).accounts t).held q = (p.accounts t).held q := by
    intro t q
    by_cases ht : t = p.created
    · subst ht
      rw [hnone]
      exact ((h.tidy _).closed (h.fresh _ (le_refl _)) q).symm
    · rw [accounts, accept_other ht, accounts]
  constructor
  case balance =>
    have hbalance : Balance p.created (p.accept pid secretKey).accounts p.backends :=
      h.balance.congr hheld (fun _ => rfl) rfl
    refine ⟨?_, hbalance.leases⟩
    intro i
    rw [show (p.accept pid secretKey).created = p.created + 1 from rfl, usesOf_succ hnone]
    exact hbalance.active i
  case tidy =>
    intro t
    by_cases ht : t = p.created
    · subst ht
      rw [accept_new]
      exact ⟨.of_none fun _ => rfl, fun hclosed => by cases hclosed⟩
    · rw [accept_other ht]
      exact h.tidy t
  case fresh =>
    intro t ht
    have hlt : p.created < t := ht
    rw [accept_other (Nat.ne_of_gt hlt)]
    exact h.fresh t (le_of_lt hlt)

/-- A step keeps the books balanced. -/
theorem step_accounted {e : Event} (hguard : ReadableWhenBusy p e) (hstep : step cfg p e = some p')
    (howned : p.Owned) (h : p.Accounted) : p'.Accounted := by
  cases step_case hstep with
  | accept pid secretKey => exact Proxy.accept_accounted pid secretKey h
  | client sid input y halive hcase =>
      have hneat := (h.tidy sid).neat
      apply Proxy.put_accounted halive _ (hcase.scatter.tidy hneat halive.2) howned h
      exact hcase.ops (Or.inr fun hstate => hneat.slotsEmpty hstate)
  | backend sid input flush y halive hcase =>
      apply Proxy.put_accounted halive hcase.ops _ howned h
      apply hcase.tidy (h.tidy sid).neat halive.2
      rcases hguard with hguard | hguard | hguard | hguard
      · exact Or.inl hguard
      · exact Or.inr (by rw [Proxy.conf, hguard]; simp)
      · exact Or.inr (by rw [Proxy.conf, hguard]; simp)
      · exact Or.inr (by rw [Proxy.conf, hguard]; simp)
  | scatter sid i input flush y halive hcase =>
      exact Proxy.put_accounted halive hcase.ops (hcase.tidy (h.tidy sid) halive.2) howned h
  | healthCheck => exact ⟨h.balance.healthCheckAll _, h.tidy, h.fresh⟩
  | connLost c => exact ⟨h.balance.congr (fun _ _ => rfl) (fun _ => rfl) rfl, h.tidy, h.fresh⟩

theorem start_accounted (cfg : Config) : (Proxy.start cfg).Accounted := by
  have hheld : ∀ t q, ((Proxy.start cfg).sessions t).held q = none := by
    intro t q
    cases q with
    | backend => rfl
    | slot i => rfl
  constructor
  case balance =>
    refine ⟨fun i => rfl, fun _ => none, rfl, ?_⟩
    intro c lessee
    apply iff_of_false
    · simp
    · rintro ⟨q, hq⟩
      rw [Proxy.accounts, Session.account_held, hheld] at hq
      cases hq
  case tidy => exact fun t => ⟨.of_none fun _ => rfl, fun _ => hheld t⟩
  case fresh => exact fun t _ => rfl

/-- The number of live sessions whose single backend belongs to the shard. -/
def Proxy.backendsOn (p : Proxy) (i : Nat) : Nat :=
  ((Finset.range p.created).filter fun t => p.alive t ∧
    (p.sessions t).backendConn.isSome ∧
    (p.sessions t).backendShard.map Shard.index = some i).card

/-- The number of slots of live sessions that hold a connection of the shard. -/
def Proxy.slotsOn (p : Proxy) (i : Nat) : Nat :=
  ∑ t ∈ (Finset.range p.created).filter fun t => p.alive t,
    (Finset.univ.filter fun j => ((p.sessions t).scatter j).conn.isSome ∧
      ((p.sessions t).scatter j).shard.map Shard.index = some i).card

/-- What the single backend counts for a pool. -/
theorem poolUse_backend (s : Session) (i : Nat) :
    poolUse i (s.held .backend) =
      if s.backendConn.isSome ∧ s.backendShard.map Shard.index = some i then 1 else 0 := by
  unfold poolUse Session.held
  cases s.backendConn with
  | none => simp
  | some c => simp

/-- What a slot counts for a pool. -/
theorem poolUse_slot {s : Session} (h : s.Neat) (i : Nat) (j : Fin maxScatterShards) :
    poolUse i (s.held (.slot j)) =
      if (s.scatter j).conn.isSome ∧ (s.scatter j).shard.map Shard.index = some i then 1
      else 0 := by
  unfold poolUse Session.held ScatterConn.hold
  cases hconn : (s.scatter j).conn with
  | none => simp [hconn]
  | some c =>
      have hpool := (h j (by rw [hconn]; simp)).2.2
      simp [hconn, hpool]

/-- What the pools count, told apart by the kind of the place. -/
theorem Proxy.usesOf_eq (h : p.Accounted) (i : Nat) :
    usesOf p.created p.accounts i = p.backendsOn i + p.slotsOn i := by
  unfold usesOf backendsOn slotsOn
  rw [Finset.sum_product, Finset.card_filter, Finset.sum_filter, ← Finset.sum_add_distrib]
  apply Finset.sum_congr rfl
  intro t ht
  rw [Finset.mem_range] at ht
  have hplaces : ∑ q, poolUse i ((p.accounts t).held q) =
      poolUse i ((p.sessions t).held .backend) +
        ∑ j, poolUse i ((p.sessions t).held (.slot j)) := by
    rw [← Equiv.sum_comp placeEquiv.symm, Fintype.sum_option]
    rfl
  rw [hplaces]
  by_cases hopen : (p.sessions t).closed = false
  · have halive : p.alive t := ⟨ht, hopen⟩
    simp only [halive, true_and, if_true, poolUse_backend, poolUse_slot (h.tidy t).neat,
      Finset.card_filter]
  · have hdead : ¬ p.alive t := fun halive => hopen halive.2
    have hnone := (h.tidy t).closed (by simpa using hopen)
    simp [hdead, hnone, poolUse]

/-- For every shard the counter of its pool is the number of sessions with a backend there
and of slots in use there; and each acquired connection is released to its pool at most
once, and exactly once when its session has ended. -/
structure Proxy.BooksBalance (p : Proxy) : Prop where
  active : ∀ i, (p.backends.pools i).activeCount = (p.backendsOn i + p.slotsOn i : Nat)
  paired : (replay p.backends.log).isSome = true
  atMostOnce : ∀ c lessee, p.backends.log.count (.giveBack c lessee) ≤
    p.backends.log.count (.lend c lessee)
  exactlyOnce : ∀ c lessee, ¬ p.alive lessee.session →
    p.backends.log.count (.giveBack c lessee) = p.backends.log.count (.lend c lessee)

/-- Pooled connections are neither leaked nor released twice. -/
theorem pool_books_balance (h : ProxyReaches cfg ReadableWhenBusy p) : p.BooksBalance := by
  have haccounted : p.Accounted := by
    apply h.invariant (start_accounted cfg)
    intro t e t' hreach hinv hguard hstep
    exact step_accounted hguard hstep (owned_of_reaches hreach) hinv
  rcases haccounted.balance.leases with ⟨lent, hreplay, hleased⟩
  have hcount := count_of_replay hreplay
  constructor
  case active =>
    intro i
    rw [haccounted.balance.active i, Proxy.usesOf_eq haccounted]
  case paired =>
    rw [hreplay]
    rfl
  case atMostOnce =>
    intro c lessee
    rw [hcount c lessee]
    exact Nat.le_add_right _ _
  case exactlyOnce =>
    intro c lessee hdead
    have hclosed : (p.sessions lessee.session).closed = true := by
      by_cases hcreated : lessee.session < p.created
      · by_contra hopen
        exact hdead ⟨hcreated, by simpa using hopen⟩
      · exact haccounted.fresh _ (by omega)
    have hreturned : lent c ≠ some lessee := by
      intro hlent
      rcases (hleased c lessee).mp hlent with ⟨q, hheld⟩
      have hnone := (haccounted.tidy lessee.session).closed hclosed q
      rw [Proxy.accounts, Session.account_held, hnone] at hheld
      cases hheld
    rw [hcount c lessee, if_neg hreturned, Nat.add_zero]

/-- Two sessions use the first shard, one of them for a scattered query.  The other one is
destroyed while it holds its connection. -/
theorem released_and_scattered_balance :
    ∃ p p', ProxyReaches demoConfig ReadableWhenBusy p ∧
      (p.sessions 0).held .backend = some ⟨0, some 0⟩ ∧ p.backendsOn 0 + p.slotsOn 0 = 2 ∧
      ReadableWhenBusy p (.client 0 { hangup := true }) ∧
      step demoConfig p (.client 0 { hangup := true }) = some p' ∧ ¬ p'.alive 0 ∧
      p'.backendsOn 0 + p'.slotsOn 0 = 1 ∧ p.BooksBalance ∧ p'.BooksBalance := by
  have hrun : runsTo (step demoConfig) ReadableWhenBusy
      (demoLogin 0 ++ demoLogin 1 ++
        [demoQuery 0 (ascii "DELETE FROM t WHERE id = 1"),
          demoQuery 1 (ascii "DELETE FROM t WHERE x = 5")])
      (Proxy.start demoConfig)
      (fun p => (p.sessions 0).held .backend = some ⟨0, some 0⟩ ∧
        p.backendsOn 0 + p.slotsOn 0 = 2 ∧ ReadableWhenBusy p (.client 0 { hangup := true }) ∧
        (step demoConfig p (.client 0 { hangup := true })).any (fun p' => decide
          (¬ p'.alive 0 ∧ p'.backendsOn 0 + p'.slotsOn 0 = 1)) = true) = true := by
    decide +kernel
  rcases exists_reached hrun with ⟨p, hp, hheld, huses, hguard, hafter⟩
  rcases (Option.any_eq_true _ _).mp hafter with ⟨p', hstep, htest'⟩
  rcases of_decide_eq_true htest' with ⟨hended, huses'⟩
  exact ⟨p, p', hp, hheld, huses, hguard, hstep, hended, huses', pool_books_balance hp,
    pool_books_balance (hp.tail ⟨_, hguard, hstep⟩)⟩

end Sharegres
