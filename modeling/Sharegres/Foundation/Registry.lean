import Mathlib.Data.List.Induction
import Mathlib.Data.List.Nodup
import Mathlib.Tactic.Common

/-!
# Foundation - Tables filled by name

A table of named entries is filled by a series of assignments.  The entry of a name is
created by the first assignment to it, behind the entries that exist, and all assignments
to a name go to its entry.  A table with a limit takes no assignment once it is full.

Main results:

- Definitions {lit}`Registry.put` and {lit}`Registry.putWithin`: one assignment.
- Theorem {lit}`Registry.fill_eq`: the table after a series of assignments.
- Theorem {lit}`Registry.fillWithin_eq`: with a limit, the table of the assignments that were
  taken.
- Theorem {lit}`Registry.entry_field`: a field has the value that was assigned last.
-/

namespace Foundation

variable {i limit : Nat}

/-- Entries with a name, which start out blank and are changed by assignments. -/
structure Registry (κ β α : Type*) where
  name : α → κ
  blank : Nat → κ → α
  assign : α → β → α
  name_blank : ∀ i k, name (blank i k) = k
  name_assign : ∀ a b, name (assign a b) = name a

namespace Registry

variable {κ β α γ : Type*} [DecidableEq κ]

/-! ## Names -/

/-- Add a name to those that were seen. -/
def note (seen : List κ) (k : κ) : List κ :=
  if k ∈ seen then seen else seen ++ [k]

/-- The names after a series of assignments, in the order of their first one. -/
def namesFrom (seen : List κ) (us : List (κ × β)) : List κ :=
  us.foldl (fun seen u => note seen u.1) seen

/-- The names of a series of assignments. -/
def names (us : List (κ × β)) : List κ :=
  namesFrom [] us

/-- A name that was seen is not noted again. -/
theorem note_of_mem {seen : List κ} {k : κ} (h : k ∈ seen) : note seen k = seen :=
  if_pos h

/-- A new name is the last. -/
theorem note_of_not_mem {seen : List κ} {k : κ} (h : k ∉ seen) : note seen k = seen ++ [k] :=
  if_neg h

theorem note_cons_of_ne {seen : List κ} {k k' : κ} (h : k' ≠ k) :
    note (k' :: seen) k = k' :: note seen k := by
  by_cases hmem : k ∈ seen
  · rw [note_of_mem hmem, note_of_mem (List.mem_cons_of_mem _ hmem)]
  · rw [note_of_not_mem hmem, note_of_not_mem (by simp [hmem, h.symm]), List.cons_append]

/-- The names after one more. -/
theorem mem_note {seen : List κ} {k k' : κ} : k' ∈ note seen k ↔ k' ∈ seen ∨ k' = k := by
  by_cases hmem : k ∈ seen
  · rw [note_of_mem hmem]
    constructor
    · exact Or.inl
    · rintro (h | rfl)
      · exact h
      · exact hmem
  · rw [note_of_not_mem hmem, List.mem_append, List.mem_singleton]

/-- No name is there twice. -/
theorem nodup_note {seen : List κ} (h : seen.Nodup) (k : κ) : (note seen k).Nodup := by
  by_cases hmem : k ∈ seen
  · rwa [note_of_mem hmem]
  · rw [note_of_not_mem hmem]
    exact List.nodup_append.mpr ⟨h, List.nodup_singleton k, by
      intro a ha b hb
      rw [List.mem_singleton.mp hb]
      rintro rfl
      exact hmem ha⟩

/-- One list of updates and then another. -/
theorem namesFrom_append (seen : List κ) (us vs : List (κ × β)) :
    namesFrom seen (us ++ vs) = namesFrom (namesFrom seen us) vs :=
  List.foldl_append

/-- One more update. -/
theorem names_snoc (us : List (κ × β)) (u : κ × β) :
    names (us ++ [u]) = note (names us) u.1 :=
  namesFrom_append [] us [u]

theorem mem_namesFrom {seen : List κ} {us : List (κ × β)} {k : κ} :
    k ∈ namesFrom seen us ↔ k ∈ seen ∨ ∃ u ∈ us, u.1 = k := by
  induction us generalizing seen with
  | nil => simp [namesFrom]
  | cons u us ih =>
      have hcons : namesFrom seen (u :: us) = namesFrom (note seen u.1) us := rfl
      rw [hcons, ih, mem_note, or_assoc, eq_comm (a := k)]
      simp

theorem mem_names {us : List (κ × β)} {k : κ} : k ∈ names us ↔ ∃ u ∈ us, u.1 = k := by
  rw [names, mem_namesFrom]
  simp

theorem nodup_namesFrom {seen : List κ} (h : seen.Nodup) (us : List (κ × β)) :
    (namesFrom seen us).Nodup := by
  induction us generalizing seen with
  | nil => exact h
  | cons u us ih => exact ih (nodup_note h u.1)

theorem nodup_names (us : List (κ × β)) : (names us).Nodup :=
  nodup_namesFrom List.nodup_nil us

/-- Names are added at the end. -/
theorem isPrefix_namesFrom (seen : List κ) (us : List (κ × β)) : seen <+: namesFrom seen us := by
  induction us generalizing seen with
  | nil => exact List.prefix_refl seen
  | cons u us ih =>
      refine List.IsPrefix.trans ?_ (ih (note seen u.1))
      unfold note
      split
      · exact List.prefix_refl seen
      · exact List.prefix_append seen _

/-! ## Tables -/

variable (R : Registry κ β α)

/-- Find the entry of a name from a position on, or create it at the end, and assign to it. -/
def putFrom (i : Nat) : List α → κ × β → List α
  | [], u => [R.assign (R.blank i u.1) u.2]
  | a :: as, u => if R.name a = u.1 then R.assign a u.2 :: as else a :: putFrom (i + 1) as u

/-- Find or create the entry of a name, and assign to it. -/
def put (table : List α) (u : κ × β) : List α :=
  R.putFrom 0 table u

/-- The same for a table with a limit: nothing is assigned once the table is full. -/
def putWithin (limit : Nat) (table : List α) (u : κ × β) : List α :=
  if limit ≤ table.length then table else R.put table u

/-- The entry of a name after a series of assignments. -/
def entry (i : Nat) (k : κ) (us : List (κ × β)) : α :=
  (us.filter fun u => u.1 = k).foldl (fun a u => R.assign a u.2) (R.blank i k)

/-- The entries of some names, from a position on. -/
def entries (i : Nat) (ks : List κ) (us : List (κ × β)) : List α :=
  (ks.zipIdx i).map fun p => R.entry p.2 p.1 us

/-- Updates of other names do not count. -/
theorem entry_of_ne {k : κ} (us : List (κ × β)) {u : κ × β} (h : u.1 ≠ k) :
    R.entry i k (us ++ [u]) = R.entry i k us := by
  rw [entry, entry, List.filter_append, List.filter_singleton, decide_eq_false h, cond_false,
    List.append_nil]

/-- The last update is assigned last. -/
theorem entry_snoc (i : Nat) (us : List (κ × β)) (u : κ × β) :
    R.entry i u.1 (us ++ [u]) = R.assign (R.entry i u.1 us) u.2 := by
  rw [entry, entry, List.filter_append, List.filter_singleton, decide_eq_true rfl, cond_true,
    List.foldl_append]
  rfl

/-- A name without an update has a blank entry. -/
theorem entry_of_not_mem {k : κ} {us : List (κ × β)} (h : ∀ u ∈ us, u.1 ≠ k) :
    R.entry i k us = R.blank i k := by
  rw [entry, List.filter_eq_nil_iff.mpr (by simpa using h)]
  rfl

/-- An entry keeps its name. -/
theorem name_entry (i : Nat) (k : κ) (us : List (κ × β)) : R.name (R.entry i k us) = k := by
  have hfold : ∀ (vs : List (κ × β)) (a : α),
      R.name (vs.foldl (fun a u => R.assign a u.2) a) = R.name a := by
    intro vs
    induction vs with
    | nil => exact fun _ => rfl
    | cons v vs ih => exact fun a => (ih _).trans (R.name_assign a v.2)
  rw [entry, hfold, R.name_blank]

/-- One assignment to a table of entries. -/
theorem putFrom_entries {ks : List κ} {us : List (κ × β)} {u : κ × β} (hnodup : ks.Nodup)
    (hnew : u.1 ∈ ks ∨ ∀ v ∈ us, v.1 ≠ u.1) :
    R.putFrom i (R.entries i ks us) u = R.entries i (note ks u.1) (us ++ [u]) := by
  induction ks generalizing i with
  | nil =>
      have hnone : ∀ v ∈ us, v.1 ≠ u.1 := hnew.resolve_left List.not_mem_nil
      change [R.assign (R.blank i u.1) u.2] = [R.entry i u.1 (us ++ [u])]
      rw [entry_snoc, R.entry_of_not_mem hnone]
  | cons k ks ih =>
      rcases List.nodup_cons.mp hnodup with ⟨hk, hks⟩
      have hcons : ∀ (ks' : List κ) (us' : List (κ × β)),
          R.entries i (k :: ks') us' = R.entry i k us' :: R.entries (i + 1) ks' us' :=
        fun _ _ => rfl
      rw [hcons, putFrom, name_entry]
      by_cases hname : k = u.1
      · -- the entry is found; the others do not change
        have hothers : R.entries (i + 1) ks (us ++ [u]) = R.entries (i + 1) ks us := by
          unfold entries
          refine List.map_congr_left fun p hp => R.entry_of_ne us ?_
          intro hu
          exact hk (by rw [hname, hu]; exact List.fst_mem_of_mem_zipIdx hp)
        rw [if_pos hname, note_of_mem (by simp [hname]), hcons, hothers, hname, entry_snoc]
      · have hrest : u.1 ∈ ks ∨ ∀ v ∈ us, v.1 ≠ u.1 := by
          refine hnew.imp_left fun hmem => ?_
          exact (List.mem_cons.mp hmem).resolve_left fun h => hname h.symm
        rw [if_neg hname, note_cons_of_ne hname, hcons, R.entry_of_ne us (Ne.symm hname),
          ih hks hrest]

/-- The table after a series of assignments has the entries of their names. -/
theorem fill_eq (us : List (κ × β)) : us.foldl R.put [] = R.entries 0 (names us) us := by
  induction us using List.reverseRecOn with
  | nil => rfl
  | append_singleton us u ih =>
      have hnew : u.1 ∈ names us ∨ ∀ v ∈ us, v.1 ≠ u.1 := by
        by_cases hmem : u.1 ∈ names us
        · exact Or.inl hmem
        · exact Or.inr fun v hv hname => hmem (mem_names.mpr ⟨v, hv, hname⟩)
      rw [List.foldl_append, List.foldl_cons, List.foldl_nil, ih, names_snoc]
      exact R.putFrom_entries (nodup_names us) hnew

theorem map_name_entries (i : Nat) (ks : List κ) (us : List (κ × β)) :
    (R.entries i ks us).map R.name = ks := by
  have hname : R.name ∘ (fun p : κ × Nat => R.entry p.2 p.1 us) = Prod.fst :=
    funext fun p => R.name_entry p.2 p.1 us
  rw [entries, List.map_map, hname]
  exact List.zipIdx_map_fst i ks

/-- The entries stand in the order of the names. -/
theorem getElem?_entries (i : Nat) (ks : List κ) (us : List (κ × β)) (j : Nat) :
    (R.entries i ks us)[j]? = ks[j]?.map fun k => R.entry (i + j) k us := by
  rw [entries, List.getElem?_map, List.getElem?_zipIdx, Option.map_map]
  rfl

/-! ## Tables with a limit -/

/-- The assignments that a table with a limit takes. -/
def takenFrom (limit : Nat) : List κ → List (κ × β) → List (κ × β)
  | _, [] => []
  | seen, u :: us =>
      if limit ≤ seen.length then [] else u :: takenFrom limit (note seen u.1) us

/-- The assignments that an empty table with a limit takes. -/
def taken (limit : Nat) (us : List (κ × β)) : List (κ × β) :=
  takenFrom limit [] us

/-- One update notes one name. -/
theorem map_name_putFrom (i : Nat) (table : List α) (u : κ × β) :
    (R.putFrom i table u).map R.name = note (table.map R.name) u.1 := by
  induction table generalizing i with
  | nil => simp [putFrom, note, R.name_assign, R.name_blank]
  | cons a table ih =>
      rw [putFrom, List.map_cons]
      by_cases hname : R.name a = u.1
      · rw [if_pos hname, note_of_mem (by simp [hname]), List.map_cons, R.name_assign]
      · rw [if_neg hname, note_cons_of_ne hname, List.map_cons, ih]

/-- A full table stays as it is. -/
theorem foldl_putWithin_full {table : List α} (h : limit ≤ table.length) (us : List (κ × β)) :
    us.foldl (R.putWithin limit) table = table := by
  induction us with
  | nil => rfl
  | cons u us ih => rwa [List.foldl_cons, putWithin, if_pos h]

/-- With a limit, the table is that of the assignments that are taken. -/
theorem foldl_putWithin (us : List (κ × β)) (table : List α) :
    us.foldl (R.putWithin limit) table =
      (takenFrom limit (table.map R.name) us).foldl R.put table := by
  induction us generalizing table with
  | nil => rfl
  | cons u us ih =>
      rw [takenFrom, List.length_map]
      by_cases hfull : limit ≤ table.length
      · rw [if_pos hfull, R.foldl_putWithin_full hfull]
        rfl
      · rw [if_neg hfull, List.foldl_cons, List.foldl_cons, putWithin, if_neg hfull, ih, put,
          map_name_putFrom]

/-- A table with a limit has the updates it takes. -/
theorem fillWithin_eq (limit : Nat) (us : List (κ × β)) :
    us.foldl (R.putWithin limit) [] = R.entries 0 (names (taken limit us)) (taken limit us) := by
  rw [R.foldl_putWithin us []]
  exact R.fill_eq (taken limit us)

/-- The updates that are taken are the first ones. -/
theorem takenFrom_isPrefix (limit : Nat) (seen : List κ) (us : List (κ × β)) :
    takenFrom limit seen us <+: us := by
  induction us generalizing seen with
  | nil => exact List.prefix_refl []
  | cons u us ih =>
      rw [takenFrom]
      split
      · exact List.nil_prefix
      · exact (List.prefix_cons_inj u).mpr (ih _)

/-- No name is left out within the limit. -/
theorem namesFrom_takenFrom {seen : List κ} {us : List (κ × β)}
    (h : (namesFrom seen us).length ≤ limit) :
    namesFrom seen (takenFrom limit seen us) = namesFrom seen us := by
  induction us generalizing seen with
  | nil => rfl
  | cons u us ih =>
      rw [takenFrom]
      by_cases hfull : limit ≤ seen.length
      · rw [if_pos hfull]
        exact (isPrefix_namesFrom seen (u :: us)).eq_of_length_le (by omega)
      · rw [if_neg hfull]
        exact ih h

/-- With room for all names, all are taken. -/
theorem names_taken {us : List (κ × β)} (h : (names us).length ≤ limit) :
    names (taken limit us) = names us :=
  namesFrom_takenFrom h

/-- Below the limit every assignment is taken. -/
theorem takenFrom_eq_self {seen : List κ} {us : List (κ × β)}
    (h : (namesFrom seen us).length < limit) : takenFrom limit seen us = us := by
  induction us generalizing seen with
  | nil => rfl
  | cons u us ih =>
      have hseen := (isPrefix_namesFrom seen (u :: us)).length_le
      rw [takenFrom, if_neg (by omega), ih h]

/-- Below the limit every update is taken. -/
theorem taken_eq_self {us : List (κ × β)} (h : (names us).length < limit) :
    taken limit us = us :=
  takenFrom_eq_self h

/-- A limited table has no more names than its limit. -/
theorem length_names_taken (limit : Nat) (us : List (κ × β)) :
    (names (taken limit us)).length ≤ limit := by
  have hfrom : ∀ seen : List κ, seen.length ≤ limit →
      (namesFrom seen (takenFrom limit seen us)).length ≤ limit := by
    induction us with
    | nil => exact fun _ h => h
    | cons u us ih =>
        intro seen hseen
        rw [takenFrom]
        by_cases hfull : limit ≤ seen.length
        · rw [if_pos hfull]
          exact hseen
        · rw [if_neg hfull]
          refine ih (note seen u.1) ?_
          unfold note
          split
          · exact hseen
          · rw [List.length_append, List.length_singleton]
            omega
  exact hfrom [] (Nat.zero_le _)

/-! ## Values assigned last -/

/-- The value that was assigned last to the entry of a name, of those that a part of the
assignments give. -/
def last (val : β → Option γ) (us : List (κ × β)) (k : κ) : Option γ :=
  ((us.filter fun u => u.1 = k).filterMap fun u => val u.2).getLast?

theorem last_map {δ : Type*} (f : γ → δ) (val : β → Option γ) (us : List (κ × β)) (k : κ) :
    last (fun b => (val b).map f) us k = (last val us k).map f := by
  rw [last, last, ← List.getLast?_map, List.map_filterMap]

/-- A field that such assignments set, and the others leave alone. -/
theorem entry_field (get : α → γ) {val : β → Option γ}
    (hassign : ∀ a b, get (R.assign a b) = (val b).getD (get a)) (i : Nat) (k : κ)
    (us : List (κ × β)) :
    get (R.entry i k us) = (last val us k).getD (get (R.blank i k)) := by
  have hfold : ∀ (vs : List (κ × β)) (a : α),
      get (vs.foldl (fun a u => R.assign a u.2) a) =
        ((vs.filterMap fun u => val u.2).getLast?).getD (get a) := by
    intro vs
    induction vs with
    | nil => exact fun _ => rfl
    | cons v vs ih =>
        intro a
        rw [List.foldl_cons, ih, hassign]
        cases hval : val v.2 with
        | none => simp only [List.filterMap_cons, hval, Option.getD_none]
        | some x => simp only [List.filterMap_cons, hval, List.getLast?_cons, Option.getD_some]
  exact hfold _ _

end Registry

end Foundation
