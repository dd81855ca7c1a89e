import Mathlib.Data.List.Basic

/-!
# Event - Timers

Model of {lit}`src/event/timer.c` and of the rounds of {lit}`event_loop_run` that drive it.  A
clock reading is an argument wherever the source calls {lit}`clock_gettime`.  Callbacks do not
touch the queue, and firing a timer is recorded by its position.

Seconds and nanoseconds are unbounded here.  The range of the kernel's clock, a signed 64-bit
number of nanoseconds, leaves no room for an overflow of the C types
({lit}`timespec_arithmetic_fits`).

Main results:

- Definitions {lit}`timespecAddMs` and {lit}`timespecDiffMs`: the arithmetic.
- Definitions {lit}`timerNextTimeoutMs` and {lit}`timerProcessExpired`: the two loops over the
  queue.
- Theorem {lit}`timespecAddMs_ns`: adding milliseconds is exact.
- Theorem {lit}`timespecDiffMs_near`: a difference is off by less than a millisecond, in either
  direction.
-/

namespace Sharegres

/-! ## Points in time -/

/-- {lit}`struct timespec`. -/
structure Timespec where
  tvSec : Int
  tvNsec : Int
deriving DecidableEq, Repr

/-- The nanoseconds are those of the second. -/
def Timespec.Normalised (ts : Timespec) : Prop :=
  0 ≤ ts.tvNsec ∧ ts.tvNsec < 1000000000

/-- The time in nanoseconds. -/
def Timespec.ns (ts : Timespec) : Int :=
  ts.tvSec * 1000000000 + ts.tvNsec

/-- A reading of the monotonic clock. -/
structure Reading extends Timespec where
  normalised : toTimespec.Normalised

/-- The loop of {lit}`timespec_add_ms`. -/
def carrySeconds (ts : Timespec) : Timespec :=
  if 1000000000 ≤ ts.tvNsec then carrySeconds ⟨ts.tvSec + 1, ts.tvNsec - 1000000000⟩ else ts
termination_by ts.tvNsec.toNat
decreasing_by omega

/-- {lit}`timespec_add_ms`. -/
def timespecAddMs (ts : Timespec) (ms : Int) : Timespec :=
  carrySeconds { ts with tvNsec := ts.tvNsec + ms * 1000000 }

/-- {lit}`timespec_diff_ms`: the quotient is rounded toward zero. -/
def timespecDiffMs (a b : Timespec) : Int :=
  (a.tvSec - b.tvSec) * 1000 + (a.tvNsec - b.tvNsec).tdiv 1000000

theorem carrySeconds_ns (ts : Timespec) : (carrySeconds ts).ns = ts.ns := by
  induction ts using carrySeconds.induct with
  | case1 ts h ih =>
      rw [carrySeconds, if_pos h, ih]
      simp only [Timespec.ns]
      omega
  | case2 ts h => rw [carrySeconds, if_neg h]

theorem carrySeconds_normalised {ts : Timespec} (h : 0 ≤ ts.tvNsec) :
    (carrySeconds ts).Normalised := by
  induction ts using carrySeconds.induct with
  | case1 ts hge ih =>
      rw [carrySeconds, if_pos hge]
      exact ih (Int.sub_nonneg.mpr hge)
  | case2 ts hlt =>
      rw [carrySeconds, if_neg hlt]
      exact ⟨h, Int.not_le.mp hlt⟩

/-- Adding milliseconds is exact. -/
theorem timespecAddMs_ns (ts : Timespec) (ms : Int) :
    (timespecAddMs ts ms).ns = ts.ns + ms * 1000000 := by
  rw [timespecAddMs, carrySeconds_ns]
  simp only [Timespec.ns]
  omega

theorem timespecAddMs_normalised {ts : Timespec} (h : ts.Normalised) {ms : Int} (hms : 0 ≤ ms) :
    (timespecAddMs ts ms).Normalised := by
  have hnsec := h.1
  apply carrySeconds_normalised
  dsimp only
  omega

/-- A quotient rounded toward zero is off by less than one. -/
theorem tdiv_near (n : Int) :
    n - 1000000 < n.tdiv 1000000 * 1000000 ∧ n.tdiv 1000000 * 1000000 < n + 1000000 := by
  have hmod := Int.tdiv_mul_add_tmod n 1000000
  have hlo := Int.lt_tmod_of_pos n (show (0 : Int) < 1000000 by decide)
  have hhi := Int.tmod_lt_of_pos n (show (0 : Int) < 1000000 by decide)
  omega

/-- A difference in milliseconds is off by less than one millisecond.  The nanoseconds of the
two times need not be in order, so it may be rounded up or down. -/
theorem timespecDiffMs_near (a b : Timespec) :
    a.ns - b.ns - 1000000 < timespecDiffMs a b * 1000000 ∧
      timespecDiffMs a b * 1000000 < a.ns - b.ns + 1000000 := by
  have hnear := tdiv_near (a.tvNsec - b.tvNsec)
  unfold timespecDiffMs Timespec.ns
  omega

/-- The values of a 64-bit C integer. -/
def FitsInt64 (n : Int) : Prop :=
  -9223372036854775808 ≤ n ∧ n ≤ 9223372036854775807

/-- For readings in the range of the kernel's clock, whose seconds are less than ten thousand
million, and an interval that is a positive C {lit}`int`, no intermediate result leaves the
64-bit integers. -/
theorem timespec_arithmetic_fits {a b : Timespec} {ms : Int} (ha : a.Normalised)
    (hb : b.Normalised) (hsec : 0 ≤ a.tvSec ∧ a.tvSec < 10000000000)
    (hsec' : 0 ≤ b.tvSec ∧ b.tvSec < 10000000000) (hms : 0 ≤ ms ∧ ms ≤ 2147483647) :
    FitsInt64 (a.tvNsec + ms * 1000000) ∧ FitsInt64 (timespecAddMs a ms).tvSec ∧
      FitsInt64 ((a.tvSec - b.tvSec) * 1000) ∧ FitsInt64 (timespecDiffMs a b) := by
  have hdiff := timespecDiffMs_near a b
  have hsum := timespecAddMs_ns a ms
  have hadd := timespecAddMs_normalised ha hms.1
  unfold Timespec.ns at hdiff hsum
  unfold Timespec.Normalised at ha hb hadd
  unfold FitsInt64
  omega

/-! ## The queue -/

/-- {lit}`Timer`, without its callback. -/
structure Timer where
  intervalMs : Int
  nextFire : Timespec
  active : Bool

/-- {lit}`MAX_TIMERS`. -/
def maxTimers : Nat := 32

/-- {lit}`TimerQueue`: the first {lit}`count` timers of the array. -/
structure TimerQueue where
  timers : List Timer
  bounded : timers.length ≤ maxTimers

/-- {lit}`timer_queue_init`. -/
def timerQueueInit : TimerQueue :=
  ⟨[], Nat.zero_le _⟩

/-- A timer that is scheduled from a reading on. -/
def Timer.reschedule (t : Timer) (now : Timespec) : Timer :=
  { t with nextFire := timespecAddMs now t.intervalMs }

/-- {lit}`timer_add`: the position of the timer, or -1 if the queue is full. -/
def timerAdd (tq : TimerQueue) (intervalMs : Int) (now : Timespec) : TimerQueue × Int :=
  if h : tq.timers.length < maxTimers then
    (⟨tq.timers ++ [⟨intervalMs, timespecAddMs now intervalMs, true⟩],
      by rw [List.length_append]; exact h⟩, tq.timers.length)
  else (tq, -1)

/-- {lit}`timer_remove`. -/
def timerRemove (tq : TimerQueue) (id : Int) : TimerQueue :=
  if 0 ≤ id ∧ id < tq.timers.length then
    ⟨tq.timers.modify id.toNat fun t => { t with active := false },
      by simpa using tq.bounded⟩
  else tq

/-- The loop of {lit}`timer_next_timeout_ms`. -/
def nextTimeoutLoop (now : Timespec) : List Timer → Int → Int
  | [], minMs => minMs
  | t :: ts, minMs =>
      if t.active then
        let diff := timespecDiffMs t.nextFire now
        if diff ≤ 0 then 0
        else if diff < minMs then nextTimeoutLoop now ts diff
        else nextTimeoutLoop now ts minMs
      else nextTimeoutLoop now ts minMs

/-- {lit}`timer_next_timeout_ms`. -/
def timerNextTimeoutMs (tq : TimerQueue) (now : Timespec) : Int :=
  if tq.timers.length = 0 then 1000 else nextTimeoutLoop now tq.timers 1000

/-- The test of {lit}`timer_process_expired`. -/
def Timer.due (t : Timer) (now : Timespec) : Bool :=
  t.active && decide (timespecDiffMs t.nextFire now ≤ 0)

/-- The loop of {lit}`timer_process_expired` from a position on: the timers afterwards and the
positions of those that were fired.  The clock is read again after each callback. -/
def expireLoop (now : Timespec) (clock : Nat → Reading) : Nat → List Timer → List Timer × List Nat
  | _, [] => ([], [])
  | i, t :: ts =>
      let rest := expireLoop now clock (i + 1) ts
      if t.due now then (t.reschedule (clock i).toTimespec :: rest.1, i :: rest.2)
      else (t :: rest.1, rest.2)

theorem expireLoop_length (now : Timespec) (clock : Nat → Reading) (i : Nat) (ts : List Timer) :
    (expireLoop now clock i ts).1.length = ts.length := by
  induction ts generalizing i with
  | nil => rfl
  | cons t ts ih =>
      rw [expireLoop]
      split <;> simp [ih]

/-- {lit}`timer_process_expired`: the queue afterwards and the timers fired. -/
def timerProcessExpired (tq : TimerQueue) (now : Timespec) (clock : Nat → Reading) :
    TimerQueue × List Nat :=
  (⟨(expireLoop now clock 0 tq.timers).1, by rw [expireLoop_length]; exact tq.bounded⟩,
    (expireLoop now clock 0 tq.timers).2)

/-! ## What the loops do -/

/-- The timer in each position after the loop. -/
theorem expireLoop_getElem? (now : Timespec) (clock : Nat → Reading) (i : Nat) (ts : List Timer)
    (j : Nat) :
    (expireLoop now clock i ts).1[j]? =
      ts[j]?.map fun t =>
        if t.due now then t.reschedule (clock (i + j)).toTimespec else t := by
  induction ts generalizing i j with
  | nil => simp [expireLoop]
  | cons t ts ih =>
      rw [expireLoop]
      cases j with
      | zero => by_cases hdue : t.due now = true <;> simp [hdue]
      | succ j =>
          have hj : i + 1 + j = i + (j + 1) := by omega
          by_cases hdue : t.due now = true <;> simp [hdue, ih, hj]

/-- The positions fired are those of the timers that are due. -/
theorem mem_expireLoop (now : Timespec) (clock : Nat → Reading) (i : Nat) (ts : List Timer)
    (j : Nat) :
    j ∈ (expireLoop now clock i ts).2 ↔
      ∃ n t, j = i + n ∧ ts[n]? = some t ∧ t.due now = true := by
  induction ts generalizing i with
  | nil => simp [expireLoop]
  | cons t ts ih =>
      have hhead : (∃ n u, j = i + n ∧ (t :: ts)[n]? = some u ∧ u.due now = true) ↔
          (j = i ∧ t.due now = true) ∨
            ∃ n u, j = i + 1 + n ∧ ts[n]? = some u ∧ u.due now = true := by
        constructor
        · rintro ⟨n, u, hj, hu, hdue⟩
          cases n with
          | zero =>
              cases hu
              exact .inl ⟨hj, hdue⟩
          | succ n => exact .inr ⟨n, u, by omega, hu, hdue⟩
        · rintro (⟨hj, hdue⟩ | ⟨n, u, hj, hu, hdue⟩)
          · exact ⟨0, t, hj, rfl, hdue⟩
          · exact ⟨n + 1, u, by omega, hu, hdue⟩
      rw [hhead, ← ih, expireLoop]
      by_cases hdue : t.due now = true <;> simp [hdue]

/-- The timeout is at most the bound it starts from, and zero or at most the time that is left
for each active timer. -/
theorem nextTimeoutLoop_bounds (now : Timespec) (ts : List Timer) {minMs : Int}
    (hmin : 0 ≤ minMs) :
    0 ≤ nextTimeoutLoop now ts minMs ∧ nextTimeoutLoop now ts minMs ≤ minMs ∧
      ∀ t ∈ ts, t.active = true → nextTimeoutLoop now ts minMs = 0 ∨
        nextTimeoutLoop now ts minMs ≤ timespecDiffMs t.nextFire now := by
  induction ts generalizing minMs with
  | nil => simp [nextTimeoutLoop, hmin]
  | cons t ts ih =>
      rw [nextTimeoutLoop]
      by_cases hactive : t.active = true
      · rw [if_pos hactive]
        dsimp only
        by_cases hdue : timespecDiffMs t.nextFire now ≤ 0
        · rw [if_pos hdue]
          exact ⟨Int.le_refl 0, hmin, fun _ _ _ => .inl rfl⟩
        · rw [if_neg hdue]
          by_cases hlt : timespecDiffMs t.nextFire now < minMs
          · rw [if_pos hlt]
            obtain ⟨hnonneg, hle, hall⟩ :=
              ih (show 0 ≤ timespecDiffMs t.nextFire now by omega)
            refine ⟨hnonneg, by omega, List.forall_mem_cons.mpr ⟨fun _ => .inr hle, hall⟩⟩
          · rw [if_neg hlt]
            obtain ⟨hnonneg, hle, hall⟩ := ih hmin
            refine ⟨hnonneg, hle, List.forall_mem_cons.mpr ⟨fun _ => .inr (by omega), hall⟩⟩
      · rw [if_neg hactive]
        obtain ⟨hnonneg, hle, hall⟩ := ih hmin
        exact ⟨hnonneg, hle, List.forall_mem_cons.mpr ⟨fun h => absurd h hactive, hall⟩⟩

end Sharegres
