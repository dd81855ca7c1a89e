import Sharegres.Session.Outcomes
import Sharegres.System.Proxy

/-!
# System - Counting the targets of a scatter

A scattered query is over when {lit}`scatter_done` has reached {lit}`scatter_count`.
The counter is right as long as no handler runs for a slot that was counted before;
the source has no such check, and a level-triggered event loop does call handlers again.

Main results:

- Theorem {lit}`scatter_counts_targets`: in runs that count every slot once, the counter is
  the number of slots done, and no query is completed while a target is awaited.
- Theorem {lit}`hangup_counted_twice`: a hang-up that is reported twice is counted twice.
-/

namespace Sharegres

open Foundation

variable {cfg : Config} {p p' : Proxy}

/-- The number of slots of the current scatter that are done. -/
def Session.doneSlots (s : Session) : Nat :=
  s.slots.countP fun i => (s.scatter i).done

/-- The counter is right, and no answer of a counted slot is awaited. -/
structure Session.Counted (s : Session) : Prop where
  done : s.scatterDone = s.doneSlots
  settled : ∀ i ∈ s.slots, (s.scatter i).done = true → .slot i ∉ s.awaited
  gathers : ∀ q ∈ s.gathers, q.origin = .gather 0

/-! ## What keeps the counter right -/

/-- Marking one more element of a list without duplicates. -/
theorem countP_mark {α : Type*} {l : List α} (hnodup : l.Nodup) {i : α} (hi : i ∈ l)
    {f g : α → Bool} (hbefore : f i = false) (hafter : g i = true)
    (hsame : ∀ j, j ≠ i → g j = f j) : l.countP g = l.countP f + 1 := by
  induction l with
  | nil => cases hi
  | cons a l ih =>
      rw [List.nodup_cons] at hnodup
      rw [List.countP_cons, List.countP_cons]
      rcases List.mem_cons.mp hi with rfl | hi
      · have hrest : l.countP g = l.countP f := by
          apply List.countP_congr
          intro j hj
          rw [hsame j fun heq => hnodup.1 (heq ▸ hj)]
        rw [hrest, hbefore, hafter]
        simp
      · rw [ih hnodup.2 hi, hsame a fun heq => hnodup.1 (heq ▸ hi)]
        omega

namespace Session

variable {s s' : Session}

/-- No slot is in use twice. -/
theorem slots_nodup (s : Session) : s.slots.Nodup :=
  (List.nodup_finRange _).sublist (List.take_sublist _ _)

theorem slots_length_le (s : Session) : s.slots.length ≤ s.scatterCount :=
  List.length_take_le _ _

/-- Without targets there is none. -/
theorem slots_eq_nil (h : s.scatterCount = 0) : s.slots = [] := by
  rw [slots, h, List.take_zero]

/-- If the counter has reached the number of targets, all of them are done. -/
theorem all_done (h : s.scatterCount ≤ s.doneSlots) :
    ∀ i ∈ s.slots, (s.scatter i).done = true := by
  apply List.countP_eq_length.mp
  apply le_antisymm List.countP_le_length
  exact le_trans s.slots_length_le h

namespace Counted

/-- The scatter is not touched. -/
theorem same (h : s.Counted) (hsame : SameScatter s s') : s'.Counted := by
  constructor
  · rw [hsame.done, doneSlots, hsame.slots, hsame.scatter]
    exact h.done
  · intro i hi hdone hawaited
    rw [hsame.slots] at hi
    rw [hsame.scatter] at hdone
    exact h.settled i hi hdone (hsame.awaited i hawaited)
  · rw [hsame.gathers]
    exact h.gathers

/-- A session without a scatter. -/
theorem of_none (hcount : s.scatterCount = 0) (hdone : s.scatterDone = 0)
    (hgathers : ∀ q ∈ s.gathers, q.origin = .gather 0) : s.Counted := by
  refine ⟨?_, ?_, hgathers⟩
  · rw [hdone, doneSlots, slots_eq_nil hcount]
    rfl
  · rw [slots_eq_nil hcount]
    intro i hi
    cases hi

theorem liveOrEnded (h : s.Counted) (hend : LiveOrEnded s s') : s'.Counted := by
  rcases hend with hquiet | hended
  · exact h.same (.of_quiet hquiet)
  · apply of_none hended.count hended.done
    rw [hended.gathers]
    exact h.gathers

/-- The loop that starts a scatter counts the targets that failed. -/
theorem startScatter (sql : Text) (targets : List Shard) (input : ClientInput) (b : Backends)
    (h : s.Counted) : (startScatter sql targets input (s, b)).1.Counted := by
  have hstarted := startScatter_started sql targets input (s, b)
  have hslots := startScatter_slots sql targets input (s, b)
  constructor
  · rw [hstarted.done, doneSlots, hslots]
    exact Nat.zero_add _
  · rw [hslots]
    intro i hi hdone
    rcases hstarted.slot i hi with ⟨-, -, hover⟩ | ⟨hopen, -⟩
    · exact hover
    · rw [hdone] at hopen
      cases hopen
  · rw [Session.gathers, hstarted.out]
    exact h.gathers

/-- A scatter starts. -/
theorem executeScatter (sql : Text) (targets : List Shard) (input : ClientInput) (b : Backends)
    (h : s.Counted) : (executeScatter sql targets input (s, b)).1.1.Counted := by
  have hcounted := h.startScatter sql targets input b
  unfold Sharegres.executeScatter
  split
  · exact h
  · dsimp only
    split
    · exact (hcounted.same (.refuse _ _ _ _)).same (.setState _ _)
    · exact hcounted.same (.setState _ _)

/-- Counting a slot that was not counted before. -/
theorem markDone {i : Fin maxScatterShards} (h : s.Counted) (hi : i ∈ s.slots)
    (hopen : (s.scatter i).done = false) : (markDone i s).Counted := by
  have hslot : ((Sharegres.markDone i s).scatter i).done = true := by
    simp [Sharegres.markDone, setSlot, countDone]
  have hother : ∀ j, j ≠ i → (Sharegres.markDone i s).scatter j = s.scatter j := by
    intro j hj
    exact Function.update_of_ne hj ..
  constructor
  · have hcount := countP_mark s.slots_nodup hi (f := fun i => (s.scatter i).done)
      (g := fun j => ((Sharegres.markDone i s).scatter j).done) hopen hslot
      (fun j hj => by rw [hother j hj])
    have hdone := h.done
    change s.scatterDone + 1 = s.slots.countP _
    rw [hcount, hdone, doneSlots]
  · intro j hj hdone hawaited
    rcases Finset.mem_erase.mp hawaited with ⟨hne, hawaited⟩
    have hji : j ≠ i := fun heq => hne (by rw [heq])
    rw [hother j hji] at hdone
    exact h.settled j hj hdone hawaited
  · exact h.gathers

/-- Completing a query whose targets are all counted. -/
theorem gathered (h : s.Counted) (hall : s.scatterCount ≤ s.scatterDone)
    (hgathered : Gathered s s') : s'.Counted := by
  have hnone : s.awaitedSlots = 0 := by
    rw [awaitedSlots, List.length_eq_zero_iff, List.filter_eq_nil_iff]
    intro i hi
    rw [h.done] at hall
    simpa using h.settled i hi (all_done hall i hi)
  apply of_none hgathered.count hgathered.done
  rcases hgathered.gathers with ⟨tag, hgathers⟩
  rw [hgathers]
  intro q hq
  rcases List.mem_append.mp hq with hq | hq
  · exact h.gathers q hq
  · rw [List.mem_singleton] at hq
    rw [hq, hnone]

end Counted

end Session

/-- What an event does to a scatter. -/
theorem ScatterEffect.counted {s s' : Session} (heffect : ScatterEffect s s') (h : s.Counted) :
    s'.Counted := by
  cases heffect with
  | kept t _ hsame hstate hend => exact (h.same hsame).liveOrEnded hend
  | started t b sql targets input _ hsame hfree hend =>
      exact ((h.same hsame).executeScatter sql targets input b).liveOrEnded hend

/-! ## Runs -/

/-- The event is not one that counts a slot a second time: the slot belongs to the current
scatter and is not done, or the handler returns at once since the connection is gone. -/
def CountsOnce (p : Proxy) : Event → Prop
  | .scatter sid i input _ =>
      i ∈ (p.sessions sid).slots ∧ ((p.sessions sid).scatter i).done = false ∨
        input.hangup = false ∧ ((p.sessions sid).scatter i).conn = none
  | _ => True

instance (p : Proxy) (e : Event) : Decidable (CountsOnce p e) :=
  match e with
  | .scatter sid i input _ => inferInstanceAs (Decidable (
      i ∈ (p.sessions sid).slots ∧ ((p.sessions sid).scatter i).done = false ∨
        input.hangup = false ∧ ((p.sessions sid).scatter i).conn = none))
  | .accept _ _ | .client _ _ | .backend _ _ _ | .healthCheck | .connLost _ => isTrue trivial

/-- The counters of all sessions are right. -/
def Proxy.Counted (p : Proxy) : Prop :=
  ∀ sid, (p.sessions sid).Counted

/-- One session changes. -/
theorem Proxy.put_counted {sid : Nat} {y : Conf} (h : p.Counted) (hy : y.1.Counted) :
    (p.put sid y).Counted := by
  intro t
  by_cases ht : t = sid
  · subst ht
    rw [put_session]
    exact hy
  · rw [put_other ht]
    exact h t

/-- Every event. -/
theorem step_counted {e : Event} (hguard : CountsOnce p e) (h : step cfg p e = some p')
    (hinv : p.Counted) : p'.Counted := by
  cases step_case h with
  | accept pid secretKey =>
      intro t
      by_cases ht : t = p.created
      · subst ht
        rw [Proxy.accept_new]
        exact Session.Counted.of_none rfl rfl (by simp [Session.gathers])
      · rw [Proxy.accept_other ht]
        exact hinv t
  | client sid input y halive hcase =>
      exact Proxy.put_counted hinv (hcase.scatter.counted (hinv sid))
  | backend sid input flush y halive hcase =>
      rcases hcase.scatter with ⟨t, hsame, -, hend⟩
      exact Proxy.put_counted hinv (((hinv sid).same hsame).liveOrEnded hend)
  | scatter sid i input flush y halive hcase =>
      apply Proxy.put_counted hinv
      rcases hcase.counts with rfl | ⟨hcause, t, b, hquiet, -, rfl⟩
      · exact hinv sid
      · -- the slot is one that was not counted before
        rcases hguard with ⟨hi, hopen⟩ | ⟨hhangup, hgone⟩
        · have ht : t.Counted := (hinv sid).same (.of_quiet hquiet)
          have hmarked : (markDone i t).Counted := by
            apply ht.markDone
            · rw [hquiet.slots]
              exact hi
            · rw [hquiet.scatter]
              exact hopen
          rcases checkComplete_case flush (markDone i t, b) with ⟨-, heq⟩ | ⟨hall, tag, heq⟩
          · rw [heq]
            exact hmarked
          · rw [heq]
            exact (hmarked.gathered hall (gathered_gathered tag (markDone i t, b))).liveOrEnded
              (flushOrDestroy_end flush _)
        · rcases hcause with hcause | hcause
          · rw [hhangup] at hcause
            cases hcause
          · exact absurd hgone hcause
  | healthCheck => exact hinv
  | connLost c => exact hinv

theorem start_counted (cfg : Config) : (Proxy.start cfg).Counted := by
  intro t
  exact Session.Counted.of_none rfl rfl (by simp [Proxy.start, Session.gathers])

/-- In every run that counts no slot twice, {lit}`scatter_done` is the number of slots
done, and no query was completed while the answer of one of its targets was awaited. -/
theorem scatter_counts_targets (h : ProxyReaches cfg CountsOnce p) (sid : Nat) :
    (p.sessions sid).scatterDone = (p.sessions sid).doneSlots ∧
      ∀ q ∈ (p.sessions sid).out, ∀ n, q.origin = .gather n → n = 0 := by
  have hcounted : p.Counted := by
    apply h.invariant (start_counted cfg)
    intro t e t' _ hinv hguard hstep
    exact step_counted hguard hstep hinv
  refine ⟨(hcounted sid).done, ?_⟩
  intro q hq n horigin
  have hmem : q ∈ (p.sessions sid).gathers := by
    apply List.mem_filter.mpr
    refine ⟨hq, ?_⟩
    rw [horigin]
  have hzero := (hcounted sid).gathers q hmem
  rw [horigin] at hzero
  cases hzero
  rfl

/-- Three shards and one table. -/
def wideConfig : Config :=
  let shards := demoShards ++ [⟨2, ascii "shard_2", ascii "host=c", 20, 30⟩]
  ⟨⟨shards, [⟨ascii "t", some (ascii "id"), .range, false, shards⟩], 4⟩, demoParse⟩

/-- A scatter over three shards and hang-ups of slots. -/
def hangupRun (slots : List (Fin maxScatterShards)) : List Event :=
  demoLogin 0 ++ demoQuery 0 (ascii "DELETE FROM t WHERE x = 5") ::
    slots.map fun i => .scatter 0 i { hangup := true } .all

/-- A query whose three targets hang up one after the other is completed. -/
theorem three_hangups_counted :
    ∃ p, ProxyReaches wideConfig CountsOnce p ∧ (p.sessions 0).gathers.length = 1 ∧
      (p.sessions 0).scatterDone = (p.sessions 0).doneSlots ∧
      ∀ q ∈ (p.sessions 0).out, ∀ n, q.origin = .gather n → n = 0 := by
  have hrun : runsTo (step wideConfig) CountsOnce
      (hangupRun [0, 1, 2]) (Proxy.start wideConfig)
      (fun p => (p.sessions 0).gathers.length = 1) = true := by decide +kernel
  rcases exists_reached hrun with ⟨p, hp, htest⟩
  exact ⟨p, hp, htest, scatter_counts_targets hp 0⟩

/-- The event loop is level-triggered and a connection that hung up stays registered, so
its handler runs again.  Two such calls count one slot twice, and a third one completes
the query while two of its targets are awaited. -/
theorem hangup_counted_twice :
    (∃ p, ProxyReaches wideConfig anyEvent p ∧
      (p.sessions 0).scatterDone = 2 ∧ (p.sessions 0).doneSlots = 1) ∧
    (∃ p, ProxyReaches wideConfig anyEvent p ∧
      ∃ q ∈ (p.sessions 0).out, q.origin = .gather 2) := by
  constructor
  · have hrun : runsTo (step wideConfig) anyEvent
        (hangupRun [0, 0]) (Proxy.start wideConfig)
        (fun p => (p.sessions 0).scatterDone = 2 ∧ (p.sessions 0).doneSlots = 1) =
        true := by decide +kernel
    rcases exists_reached hrun with ⟨p, hp, htest⟩
    exact ⟨p, hp, htest⟩
  · have hrun : runsTo (step wideConfig) anyEvent
        (hangupRun [0, 0, 0]) (Proxy.start wideConfig)
        (fun p => ∃ q ∈ (p.sessions 0).out, q.origin = .gather 2) = true := by
      decide +kernel
    rcases exists_reached hrun with ⟨p, hp, htest⟩
    exact ⟨p, hp, htest⟩

end Sharegres
