import Sharegres.Foundation.SlotArray
import Sharegres.Foundation.Transition
import Sharegres.Pool.ConnPool

/-!
# Pool - The array of idle connections

One pool of {lit}`src/pool/conn_pool.c` in memory: the array {lit}`idle_conns` with its
counters, and the connections.  The connections that are checked out and the calls of
{lit}`PQfinish` are recorded beside it.  Between the calls the connections change as they
like.

Main results:

- Theorem {lit}`pool_invariant`: the capacity bound, the fate of every connection and the
  effect of a health check, in every state reached.
- Theorem {lit}`PoolMemory.pool_runs_agree`: the pools of {lit}`Backends`, which hold lists,
  do what the array does in every run.
-/

namespace Sharegres

open Foundation

/-- A pool in memory, its connections, those checked out, and the connections passed to
{lit}`PQfinish` so far. -/
structure PoolMemory where
  maxSize : Nat
  idle : SlotArray ConnId
  activeCount : Int := 0
  conns : ConnId → PGconn := fun _ => { finished := true }
  opened : Nat := 0
  checkedOut : List ConnId := []
  finishes : List ConnId := []

namespace PoolMemory

/-- {lit}`conn_pool_init`. -/
def connPoolInit (maxSize : Nat) : PoolMemory where
  maxSize := maxSize
  idle := SlotArray.zeroed maxSize

/-- {lit}`PQstatus`; a NULL pointer counts as bad. -/
def pqStatus (m : PoolMemory) : Option ConnId → ConnStatus
  | none => .bad
  | some c => (m.conns c).status

/-- {lit}`PQfinish`; a NULL pointer is ignored. -/
def pqFinish (m : PoolMemory) : Option ConnId → PoolMemory
  | none => m
  | some c =>
      { m with
        conns := Function.update m.conns c { m.conns c with finished := true }
        finishes := c :: m.finishes }

/-- Replace the idle array. -/
def setIdle (m : PoolMemory) (idle : SlotArray ConnId) : PoolMemory :=
  { m with idle := idle }

/-- Count a connection that is handed out. -/
def checkOut (m : PoolMemory) (c : ConnId) : PoolMemory :=
  { m with activeCount := m.activeCount + 1, checkedOut := c :: m.checkedOut }

/-- Count a connection that comes back. -/
def checkIn (m : PoolMemory) (c : ConnId) : PoolMemory :=
  { m with activeCount := m.activeCount - 1, checkedOut := m.checkedOut.erase c }

/-- The new connection of a {lit}`PQconnectdb` that succeeds. -/
def openConn (m : PoolMemory) : PoolMemory :=
  { m with conns := Function.update m.conns m.opened {}, opened := m.opened + 1 }

/-- The loop of {lit}`conn_pool_acquire` over the idle connections, with a bound on its
rounds. -/
def reuseIdle : Nat → PoolMemory → PoolMemory × Option ConnId
  | 0, m => (m, none)
  | n + 1, m =>
      if 0 < m.idle.count then
        match m.idle.pop with
        | (some c, idle) =>
            if m.pqStatus (some c) = .ok then ((m.setIdle idle).checkOut c, some c)
            else reuseIdle n ((m.setIdle idle).pqFinish (some c))
        | (none, idle) => reuseIdle n (m.setIdle idle)
      else (m, none)

/-- {lit}`conn_pool_acquire`.  A connection that could not be established is finished at
once and leaves no trace. -/
def connPoolAcquire (m : PoolMemory) (connects : Bool) : PoolMemory × Option ConnId :=
  match reuseIdle m.idle.count.toNat m with
  | (m, some c) => (m, some c)
  | (m, none) =>
      if m.maxSize ≤ m.activeCount then (m, none)
      else if connects then (m.openConn.checkOut m.opened, some m.opened)
      else (m, none)

/-- {lit}`conn_pool_release` of a connection that is not NULL. -/
def connPoolRelease (m : PoolMemory) (c : ConnId) : PoolMemory :=
  let m := m.checkIn c
  if m.pqStatus (some c) ≠ .ok then m.pqFinish (some c)
  else if pqTransactionStatus (m.conns c) ≠ .idle then m.pqFinish (some c)
  else if m.idle.count < m.maxSize then m.setIdle (m.idle.push c)
  else m.pqFinish (some c)

/-- The loop of {lit}`conn_pool_health_check` over the cells below {lit}`n`, from the last
one down. -/
def healthLoop : Nat → PoolMemory → PoolMemory
  | 0, m => m
  | i + 1, m =>
      let conn := m.idle.cells.getD i none
      if m.pqStatus conn ≠ .ok then
        healthLoop i ((m.pqFinish conn).setIdle (m.idle.delete i))
      else healthLoop i m

/-- {lit}`conn_pool_health_check`. -/
def connPoolHealthCheck (m : PoolMemory) : PoolMemory :=
  healthLoop m.idle.count.toNat m

/-- Whatever happens to a connection that is not finished: its status, its transaction and
the command in progress change. -/
def change (m : PoolMemory) (c : ConnId) (conn : PGconn) : PoolMemory :=
  { m with conns := Function.update m.conns c { conn with finished := (m.conns c).finished } }

end PoolMemory

/-- A call of the pool, or a change of a connection between the calls. -/
inductive PoolEvent where
  | acquire (connects : Bool)
  | release (c : ConnId)
  | healthCheck
  | change (c : ConnId) (conn : PGconn)

/-- The effect of an event.  Only a connection that is checked out is released. -/
def PoolMemory.step (m : PoolMemory) : PoolEvent → Option PoolMemory
  | .acquire connects => some (m.connPoolAcquire connects).1
  | .release c => if c ∈ m.checkedOut then some (m.connPoolRelease c) else none
  | .healthCheck => some m.connPoolHealthCheck
  | .change c conn => some (m.change c conn)

/-- The states of a pool in the runs from its initialisation on. -/
abbrev PoolReaches (maxSize : Nat) (m : PoolMemory) : Prop :=
  Reaches PoolMemory.step anyEvent (PoolMemory.connPoolInit maxSize) m

/-! ## The invariant -/

namespace PoolMemory

variable {m : PoolMemory} {l l₁ l₂ : List ConnId} {c : ConnId}

/-- The idle array holds the given connections, the counters are right, and every connection
opened so far has exactly one fate. -/
structure Sound (m : PoolMemory) (l : List ConnId) : Prop where
  holds : m.idle.Holds l
  cells : m.idle.cells.length = m.maxSize
  active : m.activeCount = m.checkedOut.length
  capacity : l.length + m.checkedOut.length ≤ m.maxSize
  once : ∀ c, l.count c + m.checkedOut.count c + m.finishes.count c =
    if c < m.opened then 1 else 0
  finished : ∀ c < m.opened, ((m.conns c).finished = true ↔ c ∈ m.finishes)

/-- Every connection in a list is one that was opened. -/
theorem Sound.opened_of_count (h : m.Sound l)
    (hc : 0 < l.count c + m.checkedOut.count c + m.finishes.count c) : c < m.opened := by
  by_contra hnot
  rw [h.once c, if_neg hnot] at hc
  omega

theorem sound_connPoolInit (maxSize : Nat) : (connPoolInit maxSize).Sound [] where
  holds := SlotArray.holds_zeroed maxSize
  cells := List.length_replicate
  active := rfl
  capacity := Nat.zero_le _
  once _ := rfl
  finished c hc := absurd hc (Nat.not_lt_zero c)

/-- Finishing a connection marks that one only. -/
theorem finished_pqFinish (h : m.Sound l) (c : ConnId) :
    ∀ c' < m.opened, (((m.pqFinish (some c)).conns c').finished = true ↔
      c' ∈ c :: m.finishes) := by
  intro c' hc'
  change (Function.update m.conns c { m.conns c with finished := true } c').finished = true ↔ _
  rw [List.mem_cons]
  by_cases heq : c' = c
  · subst heq
    simp
  · rw [Function.update_of_ne heq, h.finished c' hc']
    simp [heq]

/-- The counter follows the connections handed out and given back. -/
theorem Sound.active_checkOut (h : m.Sound l) (c : ConnId) :
    (m.checkOut c).activeCount = (m.checkOut c).checkedOut.length := by
  change m.activeCount + 1 = ((m.checkedOut.length + 1 : Nat) : Int)
  rw [h.active]
  rfl

/-- The count of active connections stays right. -/
theorem Sound.active_checkIn (h : m.Sound l) (hc : c ∈ m.checkedOut) :
    (m.checkIn c).activeCount = (m.checkIn c).checkedOut.length := by
  have hpos := List.length_pos_of_mem hc
  change m.activeCount - 1 = ((m.checkedOut.erase c).length : Int)
  rw [h.active, List.length_erase_of_mem hc]
  omega

/-- The top of the array is handed out. -/
theorem Sound.reuse (h : m.Sound (l ++ [c])) : ((m.setIdle m.idle.pop.2).checkOut c).Sound l where
  holds := h.holds.pop.2
  cells := (SlotArray.pop_length _).trans h.cells
  active := h.active_checkOut _
  capacity := by
    have hcapacity := h.capacity
    rw [List.length_append, List.length_singleton] at hcapacity
    change l.length + (m.checkedOut.length + 1) ≤ m.maxSize
    omega
  once x := by
    have honce := h.once x
    rw [List.count_append, List.count_singleton] at honce
    change l.count x + (c :: m.checkedOut).count x + m.finishes.count x = _
    rw [List.count_cons]
    change _ = if x < m.opened then 1 else 0
    omega
  finished := h.finished

/-- An idle connection is taken out of the array and finished. -/
theorem Sound.retire {idle : SlotArray ConnId} (h : m.Sound (l₁ ++ c :: l₂))
    (hidle : idle.Holds (l₁ ++ l₂)) (hcells : idle.cells.length = m.idle.cells.length) :
    ((m.pqFinish (some c)).setIdle idle).Sound (l₁ ++ l₂) where
  holds := hidle
  cells := hcells.trans h.cells
  active := h.active
  capacity := by
    have hcapacity := h.capacity
    rw [List.length_append, List.length_cons] at hcapacity
    change (l₁ ++ l₂).length + m.checkedOut.length ≤ m.maxSize
    rw [List.length_append]
    omega
  once x := by
    have honce := h.once x
    rw [List.count_append, List.count_cons] at honce
    change (l₁ ++ l₂).count x + m.checkedOut.count x + (c :: m.finishes).count x = _
    rw [List.count_append, List.count_cons]
    change _ = if x < m.opened then 1 else 0
    omega
  finished := finished_pqFinish h c

/-- A new connection is opened and handed out. -/
theorem Sound.openConn (h : m.Sound l) (hroom : l.length + m.checkedOut.length < m.maxSize) :
    (m.openConn.checkOut m.opened).Sound l where
  holds := h.holds
  cells := h.cells
  active := h.active_checkOut _
  capacity := by
    change l.length + (m.checkedOut.length + 1) ≤ m.maxSize
    omega
  once x := by
    have honce := h.once x
    change l.count x + (m.opened :: m.checkedOut).count x + m.finishes.count x =
      if x < m.opened + 1 then 1 else 0
    rw [List.count_cons]
    by_cases hx : x = m.opened
    · subst hx
      simp at honce ⊢
      omega
    · have hne : ¬m.opened = x := fun heq => hx heq.symm
      have hlt : x < m.opened + 1 ↔ x < m.opened :=
        Nat.lt_succ_iff_lt_or_eq.trans (or_iff_left hx)
      simp [hne, hlt, honce]
  finished x hx := by
    have hx' : x < m.opened + 1 := hx
    change (Function.update m.conns m.opened {} x).finished = true ↔ x ∈ m.finishes
    by_cases heq : x = m.opened
    · subst heq
      have honce := h.once m.opened
      rw [if_neg (lt_irrefl _)] at honce
      have hnot : m.opened ∉ m.finishes := List.count_eq_zero.mp (by omega)
      simp [hnot]
    · rw [Function.update_of_ne heq]
      exact h.finished x (by omega)

/-- Counting the copies of an element that is taken out of a list. -/
theorem count_erase_add {l : List ConnId} (h : c ∈ l) (x : ConnId) :
    (l.erase c).count x + (if c = x then 1 else 0) = l.count x := by
  rw [(List.perm_cons_erase h).count_eq x, List.count_cons]
  simp

/-- A connection that comes back is finished. -/
theorem Sound.discard (h : m.Sound l) (hc : c ∈ m.checkedOut) :
    ((m.checkIn c).pqFinish (some c)).Sound l where
  holds := h.holds
  cells := h.cells
  active := h.active_checkIn hc
  capacity := by
    have hcapacity := h.capacity
    change l.length + (m.checkedOut.erase c).length ≤ m.maxSize
    rw [List.length_erase_of_mem hc]
    omega
  once x := by
    have honce := h.once x
    have hcount := count_erase_add hc x
    change l.count x + (m.checkedOut.erase c).count x + (c :: m.finishes).count x = _
    rw [List.count_cons]
    simp only [beq_iff_eq]
    change _ = if x < m.opened then 1 else 0
    omega
  finished := finished_pqFinish h c

/-- A connection that comes back becomes idle. -/
theorem Sound.giveBack (h : m.Sound l) (hc : c ∈ m.checkedOut) :
    ((m.checkIn c).setIdle (m.idle.push c)).Sound (l ++ [c]) where
  holds := by
    have hpos := List.length_pos_of_mem hc
    have hcapacity := h.capacity
    apply h.holds.push
    rw [h.cells]
    omega
  cells := (SlotArray.push_length _ _).trans h.cells
  active := h.active_checkIn hc
  capacity := by
    have hpos := List.length_pos_of_mem hc
    have hcapacity := h.capacity
    change (l ++ [c]).length + (m.checkedOut.erase c).length ≤ m.maxSize
    rw [List.length_append, List.length_singleton, List.length_erase_of_mem hc]
    omega
  once x := by
    have honce := h.once x
    have hcount := count_erase_add hc x
    change (l ++ [c]).count x + (m.checkedOut.erase c).count x + m.finishes.count x = _
    rw [List.count_append, List.count_singleton]
    simp only [beq_iff_eq]
    change _ = if x < m.opened then 1 else 0
    omega
  finished := h.finished

/-! ## The operations keep it -/

/-- The loop of an acquisition, and what it leaves if no idle connection was usable. -/
theorem reuseIdle_sound {n : Nat} (h : m.Sound l) (hn : l.length ≤ n) :
    ∃ l', (reuseIdle n m).1.Sound l' ∧ ((reuseIdle n m).2 = none → l' = []) := by
  induction n generalizing m l with
  | zero => exact ⟨l, h, fun _ => List.length_eq_zero_iff.mp (Nat.le_zero.mp hn)⟩
  | succ n ih =>
      unfold reuseIdle
      rcases List.eq_nil_or_concat l with rfl | ⟨rest, c, rfl⟩
      · rw [if_neg (by rw [h.holds.count]; exact lt_irrefl 0)]
        exact ⟨[], h, fun _ => rfl⟩
      · rw [List.concat_eq_append] at h hn
        have hpos : 0 < m.idle.count := by
          rw [h.holds.count, List.length_append, List.length_singleton]
          omega
        have hpop : m.idle.pop = (some c, m.idle.pop.2) := Prod.ext h.holds.pop.1 rfl
        rw [if_pos hpos, hpop]
        dsimp only
        by_cases hok : m.pqStatus (some c) = .ok
        · rw [if_pos hok]
          exact ⟨rest, h.reuse, fun hnone => by cases hnone⟩
        · rw [if_neg hok]
          have hretired : ((m.pqFinish (some c)).setIdle m.idle.pop.2).Sound (rest ++ []) := by
            apply h.retire
            · rw [List.append_nil]
              exact h.holds.pop.2
            · exact SlotArray.pop_length _
          rw [List.append_nil] at hretired
          apply ih hretired
          rw [List.length_append, List.length_singleton] at hn
          omega

/-- A connection is acquired, or there is none. -/
theorem connPoolAcquire_sound (h : m.Sound l) (connects : Bool) :
    ∃ l', (m.connPoolAcquire connects).1.Sound l' := by
  have hcount : l.length ≤ m.idle.count.toNat := by
    rw [h.holds.count, Int.toNat_natCast]
  rcases reuseIdle_sound h hcount with ⟨l', hsound, hempty⟩
  unfold connPoolAcquire
  rcases hres : reuseIdle m.idle.count.toNat m with ⟨m', _ | c⟩ <;> rw [hres] at hsound hempty
  · rw [hempty rfl] at hsound
    dsimp only
    split
    · exact ⟨[], hsound⟩
    · rename_i hroom
      split
      · refine ⟨[], hsound.openConn ?_⟩
        have hactive : m'.activeCount = m'.checkedOut.length := hsound.active
        change 0 + m'.checkedOut.length < m'.maxSize
        omega
      · exact ⟨[], hsound⟩
  · exact ⟨l', hsound⟩

/-- A connection is released. -/
theorem connPoolRelease_sound (h : m.Sound l) (hc : c ∈ m.checkedOut) :
    ∃ l', (m.connPoolRelease c).Sound l' := by
  unfold connPoolRelease
  dsimp only
  split
  · exact ⟨l, h.discard hc⟩
  · split
    · exact ⟨l, h.discard hc⟩
    · split
      · exact ⟨l ++ [c], h.giveBack hc⟩
      · exact ⟨l, h.discard hc⟩

/-- Finishing a connection does not change what {lit}`PQstatus` answers. -/
theorem pqFinish_status (m : PoolMemory) (conn : Option ConnId) (c : ConnId) :
    ((m.pqFinish conn).conns c).status = (m.conns c).status := by
  cases conn with
  | none => rfl
  | some c' =>
      change (Function.update m.conns c' { m.conns c' with finished := true } c).status = _
      by_cases hc : c = c'
      · subst hc
        rw [Function.update_self]
      · rw [Function.update_of_ne hc]

/-- The loop of a health check, once it has dealt with the cells of the second list. -/
theorem healthLoop_sound {ok : ConnId → Bool} (h : m.Sound (l₁ ++ l₂))
    (hok : ∀ c, ok c = true ↔ (m.conns c).status = .ok) :
    (healthLoop l₁.length m).Sound (l₁.filter ok ++ l₂) := by
  induction l₁ using List.reverseRecOn generalizing m l₂ with
  | nil => exact h
  | append_singleton rest c ih =>
      rw [List.length_append, List.length_singleton, healthLoop]
      rw [List.append_assoc, List.singleton_append] at h
      rw [h.holds.getD, List.filter_append]
      by_cases hstatus : m.pqStatus (some c) = .ok
      · rw [if_neg (not_not.mpr hstatus), List.filter_singleton, (hok c).mpr hstatus,
          cond_true, List.append_assoc]
        exact ih h hok
      · have hbad : ok c = false := by
          rw [Bool.eq_false_iff]
          exact fun hc => hstatus ((hok c).mp hc)
        rw [if_pos hstatus, List.filter_singleton, hbad, cond_false, List.append_nil]
        apply ih
        · exact h.retire h.holds.delete (SlotArray.delete_length _ _)
        · intro x
          change ok x = true ↔ ((m.pqFinish (some c)).conns x).status = .ok
          rw [hok x, pqFinish_status]

/-- A health check leaves the idle connections in order, as they stood. -/
theorem connPoolHealthCheck_sound (ok : ConnId → Bool) (h : m.Sound l)
    (hok : ∀ c, ok c = true ↔ (m.conns c).status = .ok) :
    m.connPoolHealthCheck.Sound (l.filter ok) := by
  unfold connPoolHealthCheck
  rw [h.holds.count, Int.toNat_natCast]
  rw [← List.append_nil l] at h
  have hloop := healthLoop_sound h hok
  rwa [List.append_nil] at hloop

/-- The state of a connection changes. -/
theorem change_sound (h : m.Sound l) (c : ConnId) (conn : PGconn) : (m.change c conn).Sound l where
  holds := h.holds
  cells := h.cells
  active := h.active
  capacity := h.capacity
  once := h.once
  finished x hx := by
    refine Iff.trans ?_ (h.finished x hx)
    change (Function.update m.conns c { conn with finished := (m.conns c).finished } x).finished =
      true ↔ _
    by_cases heq : x = c
    · subst heq
      rw [Function.update_self]
    · rw [Function.update_of_ne heq]

/-- Every step keeps the invariant. -/
theorem step_sound {m' : PoolMemory} {e : PoolEvent} (h : m.Sound l) (hstep : m.step e = some m') :
    ∃ l', m'.Sound l' := by
  cases e with
  | acquire connects =>
      cases hstep
      exact connPoolAcquire_sound h connects
  | release c =>
      rw [step] at hstep
      split at hstep
      · rename_i hc
        cases hstep
        exact connPoolRelease_sound h hc
      · cases hstep
  | healthCheck =>
      cases hstep
      exact ⟨_, connPoolHealthCheck_sound (fun c => decide ((m.conns c).status = .ok)) h
        fun c => decide_eq_true_iff⟩
  | change c conn =>
      cases hstep
      exact ⟨l, change_sound h c conn⟩

theorem sound_of_reaches {maxSize : Nat} (h : PoolReaches maxSize m) : ∃ l, m.Sound l := by
  apply h.invariant ⟨[], sound_connPoolInit maxSize⟩
  intro t e t' _ hsound _ hstep
  rcases hsound with ⟨l, hsound⟩
  exact step_sound hsound hstep

/-- The counters stay within the capacity; the cells in use hold different open connections
that are not checked out; and every connection opened so far is exactly one of idle, checked
out and finished, and was finished at most once. -/
structure WellFormed (m : PoolMemory) : Prop where
  capacity : m.idle.count + m.activeCount ≤ m.maxSize
  idle_nonneg : 0 ≤ m.idle.count
  active_nonneg : 0 ≤ m.activeCount
  entries : ∃ l : List ConnId, m.idle.cells.take m.idle.count.toNat = l.map some ∧ l.Nodup ∧
    (∀ c ∈ l, (m.conns c).finished = false ∧ c ∉ m.checkedOut) ∧
    ∀ c < m.opened, l.count c + m.checkedOut.count c + m.finishes.count c = 1
  finished : ∀ c < m.opened, ((m.conns c).finished = true ↔ c ∈ m.finishes)
  finished_once : ∀ c, m.finishes.count c ≤ 1

theorem Sound.wellFormed (h : m.Sound l) : m.WellFormed where
  capacity := by
    have hcapacity := h.capacity
    rw [h.holds.count, h.active]
    omega
  idle_nonneg := by
    rw [h.holds.count]
    omega
  active_nonneg := by
    rw [h.active]
    omega
  entries := by
    have hle : ∀ c, l.count c + m.checkedOut.count c + m.finishes.count c ≤ 1 := by
      intro c
      rw [h.once c]
      split <;> omega
    refine ⟨l, h.holds.take, ?_, ?_, ?_⟩
    · rw [List.nodup_iff_count_le_one]
      intro c
      have hc := hle c
      omega
    · intro c hc
      have hone := List.count_pos_iff.mpr hc
      have hsum := hle c
      constructor
      · rw [← Bool.not_eq_true, h.finished c (h.opened_of_count (by omega)),
          ← List.count_eq_zero]
        omega
      · rw [← List.count_eq_zero]
        omega
    · intro c hc
      rw [h.once c, if_pos hc]
  finished := h.finished
  finished_once c := by
    have honce := h.once c
    split at honce <;> omega

/-- A health check leaves exactly the idle connections that are in order, as they stood. -/
def HealthCheckFilters (m : PoolMemory) : Prop :=
  m.connPoolHealthCheck.idle.cells.take m.connPoolHealthCheck.idle.count.toNat =
    (m.idle.cells.take m.idle.count.toNat).filter fun conn => m.pqStatus conn = .ok

theorem Sound.healthCheckFilters (h : m.Sound l) : m.HealthCheckFilters := by
  have hcheck := connPoolHealthCheck_sound (fun c => decide ((m.conns c).status = .ok)) h
    fun c => decide_eq_true_iff
  unfold HealthCheckFilters
  rw [hcheck.holds.take, h.holds.take, List.filter_map]
  rfl

/-- The pool is well formed in every state, and a health check there keeps what is in
order. -/
theorem pool_invariant {maxSize : Nat} (h : PoolReaches maxSize m) :
    m.WellFormed ∧ m.HealthCheckFilters := by
  rcases sound_of_reaches h with ⟨l, hsound⟩
  exact ⟨hsound.wellFormed, hsound.healthCheckFilters⟩

/-- Two connections are opened and given back, the second one breaks, and a health check
removes it. -/
theorem broken_connection_removed :
    ∃ m, PoolReaches 2 m ∧ m.idle.count = 1 ∧ m.finishes = [1] ∧ m.WellFormed ∧
      m.HealthCheckFilters := by
  have hrun : runsTo step anyEvent
      [.acquire true, .acquire true, .release 0, .release 1, .change 1 { status := .bad },
        .healthCheck] (connPoolInit 2)
      (fun m => m.idle.count = 1 ∧ m.finishes = [1]) = true := by decide +kernel
  rcases exists_reached hrun with ⟨m, hm, hboth⟩
  exact ⟨m, hm, hboth.1, hboth.2, pool_invariant hm⟩

/-! ## The pools of the proxy -/

/-- The pool {lit}`i` among the backends holds, as a list from the top of the stack down, what
the array holds. -/
structure Refines (m : PoolMemory) (b : Backends) (i : Nat) : Prop where
  maxSize : (b.pools i).maxSize = m.maxSize
  active : (b.pools i).activeCount = m.activeCount
  idle : m.idle.Holds (b.pools i).idleConns.reverse
  cells : m.idle.cells.length = m.maxSize
  conns : b.conns = m.conns
  opened : b.opened = m.opened

variable {b : Backends} {i : Nat}

/-- A connection is closed. -/
theorem Refines.pqFinish (h : m.Refines b i) (c : ConnId) :
    (m.pqFinish (some c)).Refines (b.pqFinish c) i where
  maxSize := h.maxSize
  active := h.active
  idle := h.idle
  cells := h.cells
  conns := by
    change Function.update b.conns c { b.conns c with finished := true } = _
    rw [h.conns]
    rfl
  opened := h.opened

theorem Refines.setIdle {idle : SlotArray ConnId} (h : m.Refines b i)
    (hidle : idle.Holds l.reverse) (hcells : idle.cells.length = m.idle.cells.length) :
    (m.setIdle idle).Refines (b.setIdle i l) i where
  maxSize := by simpa [Backends.setIdle, PoolMemory.setIdle] using h.maxSize
  active := (b.setIdle_activeCount i l i).trans h.active
  idle := by
    rw [Backends.setIdle_self]
    exact hidle
  cells := hcells.trans h.cells
  conns := h.conns
  opened := h.opened

theorem Refines.checkOut (h : m.Refines b i) (session : Nat) (c : ConnId) :
    (m.checkOut c).Refines (b.lend i session c) i where
  maxSize := by simpa [Backends.lend, PoolMemory.checkOut] using h.maxSize
  active := by
    rw [Backends.lend_activeCount, if_pos rfl, h.active]
    rfl
  idle := by
    rw [Backends.lend_idleConns]
    exact h.idle
  cells := h.cells
  conns := h.conns
  opened := h.opened

/-- A connection is given back. -/
theorem Refines.checkIn (h : m.Refines b i) (session : Nat) (c : ConnId) :
    (m.checkIn c).Refines (b.giveBack i session c) i where
  maxSize := by simpa [Backends.giveBack, PoolMemory.checkIn] using h.maxSize
  active := by
    rw [Backends.giveBack_activeCount, if_pos rfl, h.active]
    rfl
  idle := by
    rw [Backends.giveBack_idleConns]
    exact h.idle
  cells := h.cells
  conns := h.conns
  opened := h.opened

theorem Refines.openConn (h : m.Refines b i) : m.openConn.Refines b.openConn i where
  maxSize := h.maxSize
  active := h.active
  idle := h.idle
  cells := h.cells
  conns := by
    change Function.update b.conns b.opened {} = _
    rw [h.conns, h.opened]
    rfl
  opened := congrArg (· + 1) h.opened

/-- The loops of an acquisition answer alike. -/
theorem Refines.reuseIdle {n : Nat} (h : m.Refines b i) (hl : (b.pools i).idleConns = l)
    (hn : l.length ≤ n) (session : Nat) :
    (PoolMemory.reuseIdle n m).2 = (Backends.reuseIdle i session l b).2 ∧
      (PoolMemory.reuseIdle n m).1.Refines (Backends.reuseIdle i session l b).1 i := by
  induction l generalizing m b n with
  | nil =>
      have hempty : ¬0 < m.idle.count := by
        rw [h.idle.count, hl]
        exact lt_irrefl 0
      cases n with
      | zero => exact ⟨rfl, h⟩
      | succ n =>
          rw [PoolMemory.reuseIdle, if_neg hempty]
          exact ⟨rfl, h⟩
  | cons c rest ih =>
      cases n with
      | zero => exact absurd hn (by simp)
      | succ n =>
          have hidle := h.idle
          rw [hl, List.reverse_cons] at hidle
          have hpos : 0 < m.idle.count := by
            rw [hidle.count, List.length_append, List.length_singleton]
            omega
          have hpop : m.idle.pop = (some c, m.idle.pop.2) := Prod.ext hidle.pop.1 rfl
          have hset := h.setIdle hidle.pop.2 (SlotArray.pop_length _)
          rw [PoolMemory.reuseIdle, if_pos hpos, hpop, Backends.reuseIdle]
          dsimp only
          rw [show (b.conns c).status = m.pqStatus (some c) by rw [h.conns]; rfl]
          by_cases hok : m.pqStatus (some c) = .ok
          · rw [if_pos hok, if_pos hok]
            exact ⟨rfl, hset.checkOut session c⟩
          · rw [if_neg hok, if_neg hok]
            apply ih (hset.pqFinish c)
            · exact Backends.setIdle_self ..
            · rw [List.length_cons] at hn
              omega

/-- {lit}`conn_pool_acquire`. -/
theorem Refines.acquire (h : m.Refines b i) (session : Nat) (connects : Bool) :
    (m.connPoolAcquire connects).2 = (b.connPoolAcquire i session connects).2 ∧
      (m.connPoolAcquire connects).1.Refines (b.connPoolAcquire i session connects).1 i := by
  have hn : (b.pools i).idleConns.length ≤ m.idle.count.toNat := by
    rw [h.idle.count, List.length_reverse, Int.toNat_natCast]
  rcases h.reuseIdle rfl hn session with ⟨hanswer, hloop⟩
  unfold connPoolAcquire Backends.connPoolAcquire
  rcases hres : PoolMemory.reuseIdle m.idle.count.toNat m with ⟨m', answer⟩
  rcases hres' : Backends.reuseIdle i session (b.pools i).idleConns b with ⟨b', answer'⟩
  rw [hres, hres'] at hanswer hloop
  have hsame : answer = answer' := hanswer
  subst hsame
  have hafter : m'.Refines b' i := hloop
  cases answer with
  | some c => exact ⟨rfl, hafter⟩
  | none =>
      dsimp only
      rw [hafter.maxSize, hafter.active]
      split
      · exact ⟨rfl, hafter⟩
      · unfold Backends.pqConnectdb
        cases connects with
        | false => exact ⟨rfl, hafter⟩
        | true =>
            refine ⟨congrArg some hafter.opened.symm, ?_⟩
            have hopen := hafter.openConn.checkOut session m'.opened
            rw [← hafter.opened] at hopen ⊢
            exact hopen

/-- {lit}`conn_pool_release`. -/
theorem Refines.release (h : m.Refines b i) (session : Nat) (c : ConnId) :
    (m.connPoolRelease c).Refines (b.connPoolRelease i session c) i := by
  have hin := h.checkIn session c
  have hconn : ((b.giveBack i session c).conns c) = ((m.checkIn c).conns c) := by
    rw [hin.conns]
  have hcount : ((b.giveBack i session c).pools i).idleConns.length <
      ((b.giveBack i session c).pools i).maxSize ↔
        (m.checkIn c).idle.count < (m.checkIn c).maxSize := by
    rw [hin.idle.count, List.length_reverse, hin.maxSize]
    omega
  unfold connPoolRelease Backends.connPoolRelease
  dsimp only
  rw [hconn]
  by_cases hstatus : ((m.checkIn c).conns c).status ≠ .ok
  · rw [if_pos hstatus, if_pos (show (m.checkIn c).pqStatus (some c) ≠ .ok from hstatus)]
    exact hin.pqFinish c
  · rw [if_neg hstatus, if_neg (show ¬(m.checkIn c).pqStatus (some c) ≠ .ok from hstatus)]
    by_cases htxn : pqTransactionStatus ((m.checkIn c).conns c) ≠ .idle
    · rw [if_pos htxn, if_pos htxn]
      exact hin.pqFinish c
    · rw [if_neg htxn, if_neg htxn]
      by_cases hroom : (m.checkIn c).idle.count < (m.checkIn c).maxSize
      · rw [if_pos hroom, if_pos (hcount.mpr hroom)]
        refine hin.setIdle ?_ (SlotArray.push_length _ _)
        rw [List.reverse_cons]
        apply hin.idle.push
        rw [hin.cells]
        rw [hin.idle.count] at hroom
        omega
      · rw [if_neg hroom, if_neg (fun h => hroom (hcount.mp h))]
        exact hin.pqFinish c

/-- Finishing a connection and replacing a list of idle connections twice. -/
theorem setIdle_pqFinish_setIdle (b : Backends) (i : Nat) (c : ConnId) (l l' : List ConnId) :
    ((b.setIdle i l).pqFinish c).setIdle i l' = (b.pqFinish c).setIdle i l' := by
  simp [Backends.setIdle, Backends.pqFinish, Backends.modifyConn]

/-- The loops of a health check: the connections of the first list have been kept, those
of the second one are still to come. -/
theorem Refines.healthLoop {kept : List ConnId} (h : m.Refines (b.setIdle i (kept ++ l)) i) :
    (PoolMemory.healthLoop l.length m).Refines
      ((Backends.healthLoop l b).2.setIdle i (kept ++ (Backends.healthLoop l b).1)) i := by
  induction l generalizing m b kept with
  | nil => exact h
  | cons c rest ih =>
      have hidle := h.idle
      rw [Backends.setIdle_self, List.reverse_append, List.reverse_cons, List.append_assoc,
        List.singleton_append] at hidle
      have hcell : m.idle.cells.getD rest.length none = some c := by
        rw [← List.length_reverse]
        exact hidle.getD
      have hstatus : (b.conns c).status = m.pqStatus (some c) :=
        congrArg (fun conns => (conns c).status) h.conns
      rw [List.length_cons, PoolMemory.healthLoop, hcell, Backends.healthLoop, hstatus]
      by_cases hok : m.pqStatus (some c) = .ok
      · rw [if_pos hok, if_neg (not_not.mpr hok)]
        rw [← List.singleton_append, ← List.append_assoc] at h
        have hrest := ih h
        rw [List.append_assoc] at hrest
        exact hrest
      · rw [if_neg hok, if_pos hok]
        have hdelete := hidle.delete
        rw [List.length_reverse, ← List.reverse_append] at hdelete
        apply ih
        rw [← setIdle_pqFinish_setIdle b i c (kept ++ c :: rest)]
        exact (h.pqFinish c).setIdle hdelete (SlotArray.delete_length _ _)

/-- {lit}`conn_pool_health_check`. -/
theorem Refines.healthCheck (h : m.Refines b i) :
    m.connPoolHealthCheck.Refines (b.connPoolHealthCheck i) i := by
  have hcount : m.idle.count.toNat = (b.pools i).idleConns.length := by
    rw [h.idle.count, List.length_reverse, Int.toNat_natCast]
  unfold connPoolHealthCheck
  rw [hcount]
  have hstart : m.Refines (b.setIdle i ([] ++ (b.pools i).idleConns)) i := h.setIdle h.idle rfl
  exact hstart.healthLoop

/-- What happens to a connection between the calls. -/
theorem Refines.change (h : m.Refines b i) (c : ConnId) (conn : PGconn) :
    (m.change c conn).Refines
      (b.modifyConn c fun old => { conn with finished := old.finished }) i where
  maxSize := h.maxSize
  active := h.active
  idle := h.idle
  cells := h.cells
  conns := by
    change Function.update b.conns c { conn with finished := (b.conns c).finished } = _
    rw [h.conns]
    rfl
  opened := h.opened

end PoolMemory

/-! ## Whole runs -/

/-- An event on the pool {lit}`i` among the backends, and the session that makes the call. -/
def Backends.poolStep (i : Nat) (b : Backends) : Nat × PoolEvent → Backends
  | (session, .acquire connects) => (b.connPoolAcquire i session connects).1
  | (session, .release c) => b.connPoolRelease i session c
  | (_, .healthCheck) => b.connPoolHealthCheck i
  | (_, .change c conn) => b.modifyConn c fun old => { conn with finished := old.finished }

namespace PoolMemory

variable {m m' : PoolMemory} {b : Backends} {i : Nat}

theorem Refines.step {e : PoolEvent} (h : m.Refines b i) (hstep : m.step e = some m')
    (session : Nat) : m'.Refines (b.poolStep i (session, e)) i := by
  cases e with
  | acquire connects =>
      cases hstep
      exact (h.acquire session connects).2
  | release c =>
      rw [PoolMemory.step] at hstep
      split at hstep
      · cases hstep
        exact h.release session c
      · cases hstep
  | healthCheck =>
      cases hstep
      exact h.healthCheck
  | change c conn =>
      cases hstep
      exact h.change c conn

/-- The same calls on the array and on the list lead to states that correspond. -/
theorem Refines.run {calls : List (Nat × PoolEvent)} (h : m.Refines b i)
    (hrun : runEvents PoolMemory.step (fun _ _ => true) (calls.map Prod.snd) m = some m') :
    m'.Refines (calls.foldl (Backends.poolStep i) b) i := by
  induction calls generalizing m b with
  | nil =>
      cases hrun
      exact h
  | cons call calls ih =>
      rw [List.map_cons, runEvents, if_pos rfl] at hrun
      rcases Option.bind_eq_some_iff.mp hrun with ⟨m₁, hstep, hrest⟩
      exact ih (h.step hstep call.1) hrest

theorem refines_connPoolInit (maxSize i : Nat) :
    (connPoolInit maxSize).Refines { pools := fun _ => { maxSize := maxSize } } i where
  maxSize := rfl
  active := rfl
  idle := SlotArray.holds_zeroed maxSize
  cells := List.length_replicate
  conns := rfl
  opened := rfl

/-- From the initialisation on, the pool in memory and the pool {lit}`i` of the proxy hold the
same connections after the same calls, and answer the next acquisition alike. -/
theorem pool_runs_agree {maxSize : Nat} {calls : List (Nat × PoolEvent)}
    (hrun : runEvents PoolMemory.step (fun _ _ => true) (calls.map Prod.snd)
      (connPoolInit maxSize) = some m) (i session : Nat) (connects : Bool) :
    let b := calls.foldl (Backends.poolStep i) { pools := fun _ => { maxSize := maxSize } }
    m.Refines b i ∧ (m.connPoolAcquire connects).2 = (b.connPoolAcquire i session connects).2 := by
  have hrefines := (refines_connPoolInit maxSize i).run hrun
  exact ⟨hrefines, (hrefines.acquire session connects).1⟩

end PoolMemory

end Sharegres
