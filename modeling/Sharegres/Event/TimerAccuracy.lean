import Sharegres.Event.Timer

/-!
# Event - Accuracy of the timers

The event loop asks the queue how long it may wait, waits, and fires what has expired.  In
every state that rounds of the loop, with timers added and removed between them, can lead to,
the deadline of a timer is the reading from which it was last scheduled plus its interval.
Differences are rounded either way by less than a millisecond, which bounds how early a timer
is fired, how late, and how long the loop waits.

Main results:

- Definition {lit}`runLoop`: the queue after any events, with the reading each timer was
  scheduled from.
- Theorem {lit}`runLoop_scheduled`: deadlines are exact in every state.
- Theorem {lit}`timers_accurate`: what a round of the loop does in any such state.
-/

namespace Sharegres

variable {t : Timer} {s : TimerLog} {now : Timespec}

/-! ## Rounds of the event loop -/

/-- A round of {lit}`event_loop_run`: whether a signal interrupts the wait, the reading by which
timers expire, and the readings after the callbacks.  The timeout that the round begins with
changes nothing. -/
structure LoopRound where
  interrupted : Bool
  now : Reading
  clock : Nat → Reading

/-- The timers of a round: an interrupted wait is begun again at once. -/
def eventLoopRound (tq : TimerQueue) (round : LoopRound) : TimerQueue × List Nat :=
  if round.interrupted then (tq, [])
  else timerProcessExpired tq round.now.toTimespec round.clock

/-- What happens to the timers.  Intervals are positive. -/
inductive TimerEvent where
  | add (intervalMs : Int) (positive : 0 < intervalMs) (now : Reading)
  | remove (id : Int)
  | round (round : LoopRound)

/-- The queue, and for each position the reading from which its timer was last scheduled. -/
structure TimerLog where
  queue : TimerQueue
  scheduled : Nat → Timespec

/-- The state after an event.  A timer is scheduled when it is added and when it is fired. -/
def TimerLog.step (s : TimerLog) : TimerEvent → TimerLog
  | .add intervalMs _ now =>
      { queue := (timerAdd s.queue intervalMs now.toTimespec).1
        scheduled := fun i =>
          if i = s.queue.timers.length then now.toTimespec else s.scheduled i }
  | .remove id => { s with queue := timerRemove s.queue id }
  | .round round =>
      { queue := (eventLoopRound s.queue round).1
        scheduled := fun i =>
          if i ∈ (eventLoopRound s.queue round).2 then (round.clock i).toTimespec
          else s.scheduled i }

/-- The state after a list of events, from an empty queue. -/
def runLoop (events : List TimerEvent) : TimerLog :=
  events.foldl TimerLog.step ⟨timerQueueInit, fun _ => ⟨0, 0⟩⟩

/-! ## Deadlines -/

/-- The interval is positive, and the deadline is normalised and lies the interval behind the
time of scheduling. -/
structure Timer.ScheduledAt (t : Timer) (time : Timespec) : Prop where
  positive : 0 < t.intervalMs
  normalised : t.nextFire.Normalised
  exact : t.nextFire.ns = time.ns + t.intervalMs * 1000000

/-- Every timer of the queue is scheduled from the reading that is kept for it. -/
def TimerLog.Scheduled (s : TimerLog) : Prop :=
  ∀ (i : Nat) (t : Timer), s.queue.timers[i]? = some t → t.ScheduledAt (s.scheduled i)

theorem scheduledAt_of_reading {intervalMs : Int} (hpos : 0 < intervalMs) (now : Reading)
    (active : Bool) :
    (Timer.mk intervalMs (timespecAddMs now.toTimespec intervalMs) active).ScheduledAt
      now.toTimespec where
  positive := hpos
  normalised := timespecAddMs_normalised now.normalised (Int.le_of_lt hpos)
  exact := timespecAddMs_ns _ _

theorem Timer.ScheduledAt.reschedule {time : Timespec} (h : t.ScheduledAt time) (now : Reading) :
    (t.reschedule now.toTimespec).ScheduledAt now.toTimespec :=
  scheduledAt_of_reading h.positive now t.active

/-- A timer that is added is scheduled from the reading, and the others stay as they are. -/
theorem TimerLog.Scheduled.add (hs : s.Scheduled) {intervalMs : Int} (hpos : 0 < intervalMs)
    (now : Reading) : (s.step (.add intervalMs hpos now)).Scheduled := by
  intro i t ht
  have hold : ∀ u, s.queue.timers[i]? = some u → i ≠ s.queue.timers.length := by
    intro u hu heq
    rw [heq, List.getElem?_eq_none (Nat.le_refl _)] at hu
    cases hu
  simp only [step, timerAdd] at ht ⊢
  split at ht
  · rw [List.getElem?_append] at ht
    split at ht
    · rw [if_neg (hold t ht)]
      exact hs i t ht
    · rename_i hge
      rw [List.getElem?_singleton] at ht
      split at ht
      · cases ht
        rw [if_pos (by omega)]
        exact scheduledAt_of_reading hpos now true
      · cases ht
  · rw [if_neg (hold t ht)]
    exact hs i t ht

/-- Removing a timer leaves its deadline alone. -/
theorem TimerLog.Scheduled.remove (hs : s.Scheduled) (id : Int) :
    (s.step (.remove id)).Scheduled := by
  intro i t ht
  simp only [step, timerRemove] at ht ⊢
  split at ht
  · rw [List.getElem?_modify] at ht
    rcases Option.map_eq_some_iff.mp ht with ⟨u, hu, rfl⟩
    have hu := hs i u hu
    split <;> exact ⟨hu.positive, hu.normalised, hu.exact⟩
  · exact hs i t ht

/-- The timer in a position fires or not, and a fired one starts anew from the reading taken
after its callback. -/
theorem eventLoopRound_timer {tq : TimerQueue} {round : LoopRound} {i : Nat}
    (ht : (eventLoopRound tq round).1.timers[i]? = some t) :
    ∃ u, tq.timers[i]? = some u ∧
      ((i ∈ (eventLoopRound tq round).2 ∧ t = u.reschedule (round.clock i).toTimespec) ∨
        (i ∉ (eventLoopRound tq round).2 ∧ t = u)) := by
  unfold eventLoopRound at ht ⊢
  by_cases hint : round.interrupted = true
  · rw [if_pos hint] at ht ⊢
    exact ⟨t, ht, .inr ⟨List.not_mem_nil, rfl⟩⟩
  · rw [if_neg hint] at ht ⊢
    simp only [timerProcessExpired, expireLoop_getElem?, Nat.zero_add] at ht ⊢
    rcases Option.map_eq_some_iff.mp ht with ⟨u, hu, rfl⟩
    refine ⟨u, hu, ?_⟩
    have hmem : i ∈ (expireLoop round.now.toTimespec round.clock 0 tq.timers).2 ↔
        u.due round.now.toTimespec = true := by
      rw [mem_expireLoop]
      constructor
      · rintro ⟨n, v, hn, hv, hdue⟩
        rw [show n = i by omega, hu] at hv
        cases hv
        exact hdue
      · intro hdue
        exact ⟨i, u, (Nat.zero_add i).symm, hu, hdue⟩
    rw [hmem]
    by_cases hdue : u.due round.now.toTimespec = true
    · exact .inl ⟨hdue, if_pos hdue⟩
    · exact .inr ⟨hdue, if_neg hdue⟩

/-- The timers a round fires are scheduled anew, and the others stay as they are. -/
theorem TimerLog.Scheduled.round (hs : s.Scheduled) (round : LoopRound) :
    (s.step (.round round)).Scheduled := by
  intro i t ht
  simp only [step] at ht ⊢
  rcases eventLoopRound_timer ht with ⟨u, hu, ⟨hfired, rfl⟩ | ⟨hkept, rfl⟩⟩
  · rw [if_pos hfired]
    exact (hs i u hu).reschedule (round.clock i)
  · rw [if_neg hkept]
    exact hs i t hu

/-- Deadlines are exact in every state. -/
theorem runLoop_scheduled (events : List TimerEvent) : (runLoop events).Scheduled := by
  refine List.foldlRecOn events TimerLog.step ?_ ?_
  · intro i t ht
    simp [timerQueueInit] at ht
  · intro s hs event _
    cases event with
    | add intervalMs hpos now => exact hs.add hpos now
    | remove id => exact hs.remove id
    | round round => exact hs.round round

/-! ## Firing and waiting -/

/-- A timer that is due has less than a millisecond left. -/
theorem Timer.remaining_of_due (h : t.due now = true) :
    t.active = true ∧ t.nextFire.ns - now.ns < 1000000 := by
  rw [due, Bool.and_eq_true, decide_eq_true_eq] at h
  have hnear := timespecDiffMs_near t.nextFire now
  exact ⟨h.1, by omega⟩

/-- An active timer is due when its deadline is a millisecond past. -/
theorem Timer.due_of_past (hactive : t.active = true) (hpast : t.nextFire.ns + 1000000 ≤ now.ns) :
    t.due now = true := by
  rw [due, hactive, Bool.true_and, decide_eq_true_eq]
  have hnear := timespecDiffMs_near t.nextFire now
  omega

theorem timerNextTimeoutMs_range (tq : TimerQueue) (now : Timespec) :
    0 ≤ timerNextTimeoutMs tq now ∧ timerNextTimeoutMs tq now ≤ 1000 := by
  rw [timerNextTimeoutMs]
  split
  · decide
  · have hbounds := nextTimeoutLoop_bounds now tq.timers (show (0 : Int) ≤ 1000 by decide)
    exact ⟨hbounds.1, hbounds.2.1⟩

/-- The wait ends less than a millisecond behind the deadline of each active timer, or at
once. -/
theorem timerNextTimeoutMs_early {tq : TimerQueue} (ht : t ∈ tq.timers)
    (hactive : t.active = true) :
    now.ns + timerNextTimeoutMs tq now * 1000000 < max now.ns t.nextFire.ns + 1000000 := by
  have hne : ¬tq.timers.length = 0 := fun h => by
    rw [List.eq_nil_of_length_eq_zero h] at ht
    cases ht
  have hbounds := nextTimeoutLoop_bounds now tq.timers (show (0 : Int) ≤ 1000 by decide)
  have hnear := timespecDiffMs_near t.nextFire now
  have ht' := hbounds.2.2 t ht hactive
  rw [timerNextTimeoutMs, if_neg hne]
  omega

/-- In every state, deadlines are normalised and exact.  What
{lit}`timer_process_expired` fires there is active with less than a millisecond left, and
everything active whose deadline is a millisecond past is fired.  The timeout lies between 0 and
1000 and is over less than a millisecond behind the earliest active deadline, or at once if that
is past. -/
theorem timers_accurate (events : List TimerEvent) :
    (∀ i t, (runLoop events).queue.timers[i]? = some t →
      t.nextFire.Normalised ∧
        t.nextFire.ns = ((runLoop events).scheduled i).ns + t.intervalMs * 1000000) ∧
    (∀ (now : Reading) (clock : Nat → Reading),
      (∀ i ∈ (timerProcessExpired (runLoop events).queue now.toTimespec clock).2,
        ∃ t, (runLoop events).queue.timers[i]? = some t ∧ t.active = true ∧
          t.nextFire.ns - now.ns < 1000000) ∧
      ∀ i t, (runLoop events).queue.timers[i]? = some t → t.active = true →
        t.nextFire.ns + 1000000 ≤ now.ns →
        i ∈ (timerProcessExpired (runLoop events).queue now.toTimespec clock).2) ∧
    ∀ now : Reading,
      (0 ≤ timerNextTimeoutMs (runLoop events).queue now.toTimespec ∧
        timerNextTimeoutMs (runLoop events).queue now.toTimespec ≤ 1000) ∧
      ∀ t ∈ (runLoop events).queue.timers, t.active = true →
        now.ns + timerNextTimeoutMs (runLoop events).queue now.toTimespec * 1000000 <
          max now.ns t.nextFire.ns + 1000000 := by
  refine ⟨?_, ?_, ?_⟩
  · intro i t ht
    have hs := runLoop_scheduled events i t ht
    exact ⟨hs.normalised, hs.exact⟩
  · intro now clock
    constructor
    · intro i hi
      rcases (mem_expireLoop _ _ _ _ _).mp hi with ⟨n, t, hn, ht, hdue⟩
      rw [show n = i by omega] at ht
      exact ⟨t, ht, Timer.remaining_of_due hdue⟩
    · intro i t ht hactive hpast
      exact (mem_expireLoop _ _ _ _ _).mpr
        ⟨i, t, (Nat.zero_add i).symm, ht, Timer.due_of_past hactive hpast⟩
  · intro now
    exact ⟨timerNextTimeoutMs_range _ _, fun t ht hactive => timerNextTimeoutMs_early ht hactive⟩

/-- A reading just before a full second. -/
def earlyReading : Reading := ⟨⟨0, 998000000⟩, by decide, by decide⟩

/-- A reading 6 ms later. -/
def lateReading : Reading := ⟨⟨1, 4000000⟩, by decide, by decide⟩

/-- A timer of 5 ms that is added at the first reading fires at the second one, and is then due
5 ms behind it. -/
theorem added_timer_fires :
    0 ∈ (timerProcessExpired (runLoop [.add 5 (by decide) earlyReading]).queue
      lateReading.toTimespec fun _ => lateReading).2 ∧
    ∃ t, (runLoop [.add 5 (by decide) earlyReading,
        .round ⟨false, lateReading, fun _ => lateReading⟩]).queue.timers[0]? = some t ∧
      t.nextFire.Normalised ∧ t.nextFire.ns = lateReading.ns + 5000000 := by
  rcases timers_accurate [.add 5 (by decide) earlyReading] with ⟨hadded, hfires, -⟩
  have hdeadline := (hadded 0 ⟨5, timespecAddMs earlyReading.toTimespec 5, true⟩ rfl).2
  have hfired := (hfires lateReading fun _ => lateReading).2 0 _ rfl rfl
    (by rw [hdeadline]; decide)
  have hscheduled : (runLoop [.add 5 (by decide) earlyReading,
      .round ⟨false, lateReading, fun _ => lateReading⟩]).scheduled 0 = lateReading.toTimespec :=
    if_pos hfired
  rcases (⟨_, expireLoop_getElem? _ _ 0 _ 0⟩ : ∃ t, (runLoop [.add 5 (by decide) earlyReading,
    .round ⟨false, lateReading, fun _ => lateReading⟩]).queue.timers[0]? = some t) with ⟨t, ht⟩
  rcases eventLoopRound_timer ht with ⟨u, hu, ⟨-, rfl⟩ | ⟨hkept, -⟩⟩
  · cases hu
    rcases (timers_accurate [.add 5 (by decide) earlyReading,
      .round ⟨false, lateReading, fun _ => lateReading⟩]).1 0 _ ht with ⟨hnormalised, hexact⟩
    rw [hscheduled] at hexact
    exact ⟨hfired, _, ht, hnormalised, hexact⟩
  · exact absurd hfired hkept

end Sharegres
