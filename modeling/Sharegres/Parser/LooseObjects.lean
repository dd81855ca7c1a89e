import Sharegres.Foundation.JsonPath
import Sharegres.Parser.SearchWalk

/-!
# Parser - The navigator and empty objects with white space

The recursive search is right on every document without white space between the braces of an
empty object.  Behind such an object its member loop runs on.  What becomes of the search then
depends on where the loop comes to: it may stop at a closing brace, it may leave the value, or
it may find a member in a part of the document that comes later than the first one.

Main results:

- Definition {lit}`openEnd`: the values that the loop leaves when it finds nothing in them.
- Definition {lit}`strays`: the values whose search is led astray.
- Theorem {lit}`strays_of_tight`: without such objects no search is led astray.
- Theorem {lit}`walk_right_iff`: the walk over a value comes to the first member exactly if it
  is not led astray.
- Theorem {lit}`navigator_refines_iff`: the navigator computes lookup and search on the value.
- Theorem {lit}`search_outside`: a position behind the value.
-/

namespace Sharegres

open Foundation Foundation.Json

variable {b : Bool} {l : Located} {key r t : Text}

/-! ## Where the loop runs on -/

mutual

/-- The search of the value runs on behind it if it finds nothing. -/
def openEnd : Json → Bool
  | .lit _ => false
  | .str _ => false
  | .arr _ elems => openElems elems
  | .obj inner members => openMembers inner members

/-- The members that are left: the loop runs on at the end of the object if there is white
space before the brace that was not skipped behind a value. -/
def openMembers (w : Ws) : List (KeyTok × Json) → Bool
  | [] => !w.text.isEmpty
  | (k, v) :: members => (openEnd v && openMembers k.trail members) || openMembers Ws.none members

/-- Some element runs on, and the loop gets through all behind it. -/
def openElems : List (Pad × Json) → Bool
  | [] => false
  | (_, v) :: elems => (openEnd v && passElems elems) || openElems elems

/-- A loop that has run on gets through the elements. -/
def passElems : List (Pad × Json) → Bool
  | [] => true
  | (_, v) :: elems => passes v && passElems elems

/-- A loop that has run on gets through an element. -/
def passes : Json → Bool
  | .lit _ => true
  | .str _ => true
  | .arr _ elems => passElems elems
  | .obj inner members => openMembers inner members

end

/-- The member loop finds something in these members or, running on, behind them, where it
does so if {lit}`b` holds. -/
def hitsMembers (key : Text) (w : Ws) (ms : List (KeyTok × Json)) (b : Bool) : Bool :=
  valuesOccur key ms || (openMembers w ms && b)

mutual

/-- A loop that has run on into these elements finds something in them or behind them. -/
def hitsElems (key : Text) : List (Pad × Json) → Bool → Bool
  | [], b => b
  | (_, v) :: elems, b => hits key v (hitsElems key elems b)

/-- {lit}`hitsElems` for one element. -/
def hits (key : Text) : Json → Bool → Bool
  | .lit _, b => b
  | .str _, b => b
  | .arr _ elems, b => hitsElems key elems b
  | .obj inner members, b => hitsMembers key inner members b

end

mutual

/-- The search of the value does not come to its first member with the key, where running on
behind the value finds something if {lit}`b` holds. -/
def strays (key : Text) : Json → Bool → Bool
  | .lit _, _ => false
  | .str _, _ => false
  | .arr _ elems, b => straysElems key elems b
  | .obj inner members, b => !hasKey key members && straysMembers key inner members b

/-- {lit}`strays` for the values of an object: running on behind a value is what the loop does
next anyway, unless the key occurs in the value. -/
def straysMembers (key : Text) (w : Ws) : List (KeyTok × Json) → Bool → Bool
  | [], b => !w.text.isEmpty && b
  | (k, v) :: members, b =>
      if occurs key v then strays key v (hitsMembers key k.trail members b)
      else if openEnd v then straysMembers key k.trail members b
      else straysMembers key Ws.none members b

/-- {lit}`strays` for the elements of an array: a loop that runs on from an element takes the
place of the search of those behind it if it finds something. -/
def straysElems (key : Text) : List (Pad × Json) → Bool → Bool
  | [], _ => false
  | (_, v) :: elems, b =>
      if occurs key v then strays key v (hitsElems key elems b)
      else if openEnd v && hitsElems key elems b then missesElems key elems b
      else straysElems key elems b

/-- A loop that has run on into the elements, and finds something, does not come to the first
member with the key. -/
def missesElems (key : Text) : List (Pad × Json) → Bool → Bool
  | [], _ => true
  | (_, v) :: elems, b =>
      if occurs key v then misses key v (hitsElems key elems b) else missesElems key elems b

/-- {lit}`missesElems` for an element in which the key occurs: the loop passes over the members
of an object and looks into their values only. -/
def misses (key : Text) : Json → Bool → Bool
  | .lit _, _ => false
  | .str _, _ => false
  | .arr _ elems, b => missesElems key elems b
  | .obj inner members, b => hasKey key members || straysMembers key inner members b

end

/-! ## Walks without a match -/

mutual

/-- If the key does not occur, the walk only leads through the value or ends in it. -/
theorem walk_of_not_occurs :
    ∀ (v : Json) (r : Text), occurs key v = false → walk key v r = ⟨openEnd v, none⟩
  | .lit _, _, _ => rfl
  | .str _, _, _ => rfl
  | .arr _ elems, r, h => by
      rw [occurs] at h
      rw [walk, openEnd]
      exact walkElems_of_not_occurs elems r h
  | .obj inner members, r, h => by
      rw [occurs, occursMembers_eq, Bool.or_eq_false_iff, ← lookup_isSome key members r,
        Option.isSome_eq_false_iff, Option.isNone_iff_eq_none] at h
      rw [walk, openEnd, h.1]
      exact walkMembers_of_not_occurs inner members r h.2

/-- The values below the members. -/
theorem walkMembers_of_not_occurs (w : Ws) :
    ∀ (ms : List (KeyTok × Json)) (r : Text), valuesOccur key ms = false →
      walkMembers key w ms r = ⟨openMembers w ms, none⟩
  | [], _, _ => rfl
  | (k, v) :: ms, r, h => by
      rw [valuesOccur, List.any_cons, Bool.or_eq_false_iff] at h
      rw [walkMembers, openMembers, walk_of_not_occurs v _ h.1,
        walkMembers_of_not_occurs k.trail ms r h.2, walkMembers_of_not_occurs Ws.none ms r h.2]
      cases openEnd v <;> simp [Walk.through, Walk.orElse]

/-- The elements of an array. -/
theorem walkElems_of_not_occurs :
    ∀ (es : List (Pad × Json)) (r : Text), occursElems key es = false →
      walkElems key es r = ⟨openElems es, none⟩
  | [], _, _ => rfl
  | (p, v) :: es, r, h => by
      rw [occursElems, Bool.or_eq_false_iff] at h
      rw [walkElems, openElems, walk_of_not_occurs v _ h.1, strayElems_of_not_occurs es r h.2,
        walkElems_of_not_occurs es r h.2]
      cases openEnd v <;> simp [Walk.through, Walk.orElse]

theorem strayElems_of_not_occurs :
    ∀ (es : List (Pad × Json)) (r : Text), occursElems key es = false →
      strayElems key es r = ⟨passElems es, none⟩
  | [], _, _ => rfl
  | (p, v) :: es, r, h => by
      rw [occursElems, Bool.or_eq_false_iff] at h
      rw [strayElems, passElems, stray_of_not_occurs v _ h.1, strayElems_of_not_occurs es r h.2]
      cases passes v <;> simp [Walk.through]

theorem stray_of_not_occurs :
    ∀ (v : Json) (r : Text), occurs key v = false → stray key v r = ⟨passes v, none⟩
  | .lit _, _, _ => rfl
  | .str _, _, _ => rfl
  | .arr _ elems, r, h => by
      rw [occurs] at h
      rw [stray, passes]
      exact strayElems_of_not_occurs elems r h
  | .obj inner members, r, h => by
      rw [occurs, occursMembers_eq, Bool.or_eq_false_iff] at h
      rw [stray, passes]
      exact walkMembers_of_not_occurs inner members r h.2

end

/-! ## Walks with a match -/

mutual

/-- If the key occurs, the walk has found it when it gets through. -/
theorem walk_found :
    ∀ (v : Json) (r : Text), occurs key v = true → (walk key v r).found.isSome = true
  | .lit _, _, h => by cases h
  | .str _, _, h => by cases h
  | .arr _ elems, r, h => by
      rw [occurs] at h
      rw [walk]
      exact walkElems_found elems r h
  | .obj inner members, r, h => by
      rw [occurs, occursMembers_eq, ← lookup_isSome key members r] at h
      rw [walk]
      cases hl : lookup key members r with
      | some l => rfl
      | none =>
          rw [hl] at h
          exact walkMembers_found inner members r h

/-- The walk finds what is below the members. -/
theorem walkMembers_found (w : Ws) :
    ∀ (ms : List (KeyTok × Json)) (r : Text), valuesOccur key ms = true →
      (walkMembers key w ms r).found.isSome = true
  | [], _, h => by cases h
  | (k, v) :: ms, r, h => by
      rw [valuesOccur, List.any_cons, Bool.or_eq_true] at h
      rw [walkMembers, Walk.found_orElse, Option.isSome_or, Bool.or_eq_true]
      rcases h with hv | hms
      · exact .inl (Walk.found_through_isSome _ (walk_found v _ hv))
      · exact .inr (walkMembers_found Ws.none ms r hms)

/-- The walk finds what is below the elements. -/
theorem walkElems_found :
    ∀ (es : List (Pad × Json)) (r : Text), occursElems key es = true →
      (walkElems key es r).found.isSome = true
  | [], _, h => by cases h
  | (p, v) :: es, r, h => by
      rw [occursElems, Bool.or_eq_true] at h
      rw [walkElems, Walk.found_orElse, Option.isSome_or, Bool.or_eq_true]
      rcases h with hv | hes
      · exact .inl (Walk.found_through_isSome _ (walk_found v _ hv))
      · exact .inr (walkElems_found es r hes)

end

/-- What the walk finds lies between two positions, counted from the end of the text. -/
def Walk.Within (w : Walk) (lo hi : Nat) : Prop :=
  ∀ t, w.found = some t → lo < t.length ∧ t.length < hi

namespace Walk

variable {w c v : Walk} {lo hi lo' hi' : Nat}

theorem Within.mono (h : w.Within lo hi) (hlo : lo' ≤ lo) (hhi : hi ≤ hi') :
    w.Within lo' hi' := by
  intro t ht
  have := h t ht
  omega

theorem within_of_none (h : w.found = none) : w.Within lo hi := by
  intro t ht
  rw [h] at ht
  cases ht

/-- What is found is not behind the bounds. -/
theorem Within.ne (h : w.Within lo hi) (ht : hi ≤ t.length) : w.found ≠ some t := by
  intro hfound
  have := h t hfound
  omega

/-- A round of the walk: inside a value, then behind it. -/
theorem Within.round (hw : w.Within lo hi) (hc : c.Within lo hi) (hv : v.Within lo hi) :
    ((w.through c).orElse v).Within lo hi := by
  intro t ht
  rcases found_cases ht with h | h | h
  · exact hw t h
  · exact hc t h
  · exact hv t h

theorem Within.through (hw : w.Within lo hi) (hc : c.Within lo hi) :
    (w.through c).Within lo hi := by
  intro t ht
  refine (hw.round hc (v := stop) (within_of_none rfl)) t ?_
  rw [found_orElse, ht, Option.some_or]

end Walk

mutual

/-- The walk stays in the text of its value. -/
theorem walk_within :
    ∀ (v : Json) (r : Text), (walk key v r).Within r.length (render v ++ r).length
  | .lit _, _ => Walk.within_of_none rfl
  | .str _, _ => Walk.within_of_none rfl
  | .arr inner elems, r => by
      rw [walk]
      cases elems with
      | nil => exact Walk.within_of_none rfl
      | cons e es =>
          refine (walkElems_within (e :: es) r).mono le_rfl ?_
          simp [render, renderElemTail_cons inner]
  | .obj inner members, r => by
      rw [walk]
      cases members with
      | nil => exact Walk.within_of_none rfl
      | cons m ms =>
          have hlen : (renderMemberTail (m :: ms) ++ r).length ≤
              (render (.obj inner (m :: ms)) ++ r).length := by
            simp [render, renderMemberTail_cons inner]
          cases hl : lookup key (m :: ms) r with
          | none => exact (walkMembers_within inner (m :: ms) r).mono le_rfl hlen
          | some l =>
              intro t ht
              cases ht
              have hin := (lookup_inside hl).length
              omega

/-- The walk over members stays in their text. -/
theorem walkMembers_within (w : Ws) :
    ∀ (ms : List (KeyTok × Json)) (r : Text),
      (walkMembers key w ms r).Within r.length (renderMemberTail ms ++ r).length
  | [], _ => Walk.within_of_none rfl
  | (k, v) :: ms, r => by
      have hv := walk_within v (k.trail.text ++ (renderMemberTail ms ++ r))
      rw [walkMembers]
      refine Walk.Within.round (hv.mono ?_ ?_) ((walkMembers_within k.trail ms r).mono le_rfl ?_)
        ((walkMembers_within Ws.none ms r).mono le_rfl ?_)
      all_goals simp only [renderMemberTail, List.length_append, List.length_cons]
      all_goals omega

/-- The walk over elements stays in their text. -/
theorem walkElems_within :
    ∀ (es : List (Pad × Json)) (r : Text),
      (walkElems key es r).Within r.length (renderElemTail es ++ r).length
  | [], _ => Walk.within_of_none rfl
  | (p, v) :: es, r => by
      have hv := walk_within v (p.after.text ++ (renderElemTail es ++ r))
      rw [walkElems]
      refine Walk.Within.round (hv.mono ?_ ?_) ((strayElems_within es r).mono le_rfl ?_)
        ((walkElems_within es r).mono le_rfl ?_)
      all_goals simp only [renderElemTail, List.length_append, List.length_cons]
      all_goals omega

theorem strayElems_within :
    ∀ (es : List (Pad × Json)) (r : Text),
      (strayElems key es r).Within r.length (renderElemTail es ++ r).length
  | [], _ => Walk.within_of_none rfl
  | (p, v) :: es, r => by
      have hv := stray_within v (p.after.text ++ (renderElemTail es ++ r))
      rw [strayElems]
      refine Walk.Within.through (hv.mono ?_ ?_) ((strayElems_within es r).mono le_rfl ?_)
      all_goals simp only [renderElemTail, List.length_append, List.length_cons]
      all_goals omega

/-- A walk that went astray stays there too. -/
theorem stray_within :
    ∀ (v : Json) (r : Text), (stray key v r).Within r.length (render v ++ r).length
  | .lit _, _ => Walk.within_of_none rfl
  | .str _, _ => Walk.within_of_none rfl
  | .arr inner elems, r => by
      rw [stray]
      cases elems with
      | nil => exact Walk.within_of_none rfl
      | cons e es =>
          refine (strayElems_within (e :: es) r).mono le_rfl ?_
          simp [render, renderElemTail_cons inner]
  | .obj inner members, r => by
      rw [stray]
      cases members with
      | nil => exact Walk.within_of_none rfl
      | cons m ms =>
          refine (walkMembers_within inner (m :: ms) r).mono le_rfl ?_
          simp [render, renderMemberTail_cons inner]

end

/-! ## What the walks come to -/

/-- The result of a walk, where running on finds something if {lit}`b` holds, exists. -/
def Walk.hits (w : Walk) (b : Bool) : Bool :=
  (w.runsOn && b) || w.found.isSome

/-- Whether a key is hit, one walk after the other. -/
theorem Walk.hits_through (w c : Walk) (b : Bool) : (w.through c).hits b = w.hits (c.hits b) := by
  rcases w with ⟨_ | _, found⟩
  · rfl
  · simp [Walk.through, Walk.hits, Option.isSome_or, Bool.or_assoc]

theorem walkMembers_hits (key : Text) (w : Ws) (ms : List (KeyTok × Json)) (r : Text) (b : Bool) :
    (walkMembers key w ms r).hits b = hitsMembers key w ms b := by
  rw [hitsMembers]
  cases hocc : valuesOccur key ms with
  | true => simp [Walk.hits, walkMembers_found w ms r hocc]
  | false => simp [Walk.hits, walkMembers_of_not_occurs w ms r hocc]

mutual

theorem strayElems_hits (key : Text) :
    ∀ (es : List (Pad × Json)) (r : Text) (b : Bool),
      (strayElems key es r).hits b = hitsElems key es b
  | [], _, b => by simp [strayElems, hitsElems, Walk.hits, Walk.onward]
  | (p, v) :: es, r, b => by
      rw [strayElems, hitsElems, Walk.hits_through, strayElems_hits key es r b, stray_hits key v]

/-- What a walk that went astray hits. -/
theorem stray_hits (key : Text) :
    ∀ (v : Json) (r : Text) (b : Bool), (stray key v r).hits b = hits key v b
  | .lit _, _, b => by simp [stray, hits, Walk.hits, Walk.onward]
  | .str _, _, b => by simp [stray, hits, Walk.hits, Walk.onward]
  | .arr _ elems, r, b => by
      rw [stray, hits]
      exact strayElems_hits key elems r b
  | .obj inner members, r, b => by
      rw [stray, hits]
      exact walkMembers_hits key inner members r b

end

/-- The member loop, which does not look at the members themselves, never comes to the value of
a member with the key. -/
theorem lookup_not_walked (w : Ws) {ms : List (KeyTok × Json)} (h : lookup key ms r = some l) :
    (walkMembers key w ms r).found ≠ some l.text := by
  induction ms generalizing w with
  | nil => cases h
  | cons m ms ih =>
      rcases m with ⟨k, v⟩
      intro hfound
      rw [walkMembers] at hfound
      have hv := @walk_within key v (k.trail.text ++ (renderMemberTail ms ++ r)) l.text
      have hc := @walkMembers_within key k.trail ms r l.text
      have hm := @walkMembers_within key Ws.none ms r l.text
      have hpos := List.length_pos_iff.mpr (render_ne_nil v)
      simp only [List.length_append] at hv hc hm
      rw [lookup] at h
      split at h
      · -- the value itself starts before everything that is found in it or behind it
        cases h
        simp only [Located.text, List.length_append] at hv hc hm
        rcases Walk.found_cases hfound with h | h | h
        · have := hv h
          omega
        · have := hc h
          omega
        · have := hm h
          omega
      · have hin := (lookup_inside h).length
        simp only [List.length_append] at hin
        rcases Walk.found_cases hfound with hfound | hfound | hfound
        · have := hv hfound
          omega
        · exact ih k.trail h hfound
        · exact ih Ws.none h hfound

/-! ## Right walks -/

/-- What is found is there. -/
theorem occurs_of_search {v : Json} (h : search key v r = some l) : occurs key v = true := by
  rw [← search_isSome key v r, h, Option.isSome_some]

theorem not_occurs_of_search {v : Json} (h : search key v r = none) : occurs key v = false := by
  rw [← search_isSome key v r, h, Option.isSome_none]

/-- What is found in a value lies before the text behind it. -/
theorem search_behind {v : Json} {w : Ws} (h : search key v (w.text ++ r) = some l) :
    r.length ≤ l.text.length := by
  have hin := (search_inside v _ h).length
  rw [List.length_append] at hin
  omega

/-- The walk comes to the given result, wherever running on leads. -/
def Walk.Right (w : Walk) (first : Option Text) (b : Bool) : Prop :=
  (w.runsOn && b) = false ∧ w.found = first

/-- A walk that goes on into a part without the right position is right if it does not find
anything there. -/
theorem Walk.right_through {a c : Walk} (hc : c.found ≠ some t) :
    (a.through c).Right (some t) b ↔ a.Right (some t) (c.hits b) := by
  rcases a with ⟨_ | _, found⟩
  · simp [Walk.through, Walk.Right]
  · rcases c with ⟨runs, _ | u⟩
    · simp [Walk.through, Walk.Right, Walk.hits]
    · have hu : u ≠ t := fun h => hc (by rw [h])
      simp [Walk.through, Walk.Right, Walk.hits, hu]

/-- So is the round of a loop whose first walk finds something. -/
theorem Walk.right_round {a c e : Walk} (ha : a.found.isSome = true) (hc : c.found ≠ some t) :
    ((a.through c).orElse e).Right (some t) b ↔ a.Right (some t) (c.hits b) := by
  rw [Walk.orElse_of_found _ (Walk.found_through_isSome _ ha), Walk.right_through hc]

/-- A walk that finds something is not followed by another one. -/
theorem Walk.right_orElse_of_hits {c e : Walk} {first : Option Text} (h : c.hits b = true) :
    (c.orElse e).Right first b ↔ c.Right first b := by
  rcases c with ⟨runs, _ | t⟩
  · have hruns : runs = true ∧ b = true := by simpa [Walk.hits] using h
    simp [Walk.orElse, Walk.Right, hruns.1, hruns.2]
  · rw [Walk.orElse_of_found _ rfl]

/-- A walk that finds nothing leaves the result to the next one. -/
theorem Walk.right_orElse_of_not_hits {c e : Walk} {first : Option Text} (h : c.hits b = false) :
    (c.orElse e).Right first b ↔ e.Right first b := by
  rcases c with ⟨runs, _ | t⟩
  · have hruns : runs = true → b = false := by simpa [Walk.hits] using h
    cases runs with
    | false => simp [Walk.orElse, Walk.Right]
    | true => simp [Walk.orElse, Walk.Right, hruns rfl]
  · simp [Walk.hits] at h

theorem walkMembers_orElse (key : Text) (w : Ws) (ms : List (KeyTok × Json)) (r : Text) :
    (walkMembers key w ms r).orElse (walkMembers key Ws.none ms r) = walkMembers key w ms r := by
  cases ms with
  | nil => simp [walkMembers, Walk.orElse, pastBrace]
  | cons m ms =>
      rw [show walkMembers key Ws.none (m :: ms) r = walkMembers key w (m :: ms) r from rfl]
      generalize walkMembers key w (m :: ms) r = a
      rcases a with ⟨runs, _ | t⟩ <;> simp [Walk.orElse]

mutual

/-- The walk over a value comes to the first member with the key exactly if it is not led
astray. -/
theorem walk_right_iff (key : Text) :
    ∀ (v : Json) (r : Text) (b : Bool), strays key v b = false ↔
      (walk key v r).Right ((search key v r).map Located.text) b
  | .lit _, _, b => by simp [strays, walk, search, Walk.Right, Walk.stop]
  | .str _, _, b => by simp [strays, walk, search, Walk.Right, Walk.stop]
  | .arr _ elems, r, b => by
      rw [strays, walk, search]
      exact walkElems_right_iff key elems r b
  | .obj inner members, r, b => by
      rw [strays, walk, search, ← lookup_isSome key members r]
      cases lookup key members r with
      | some l => simp [Walk.Right, Walk.hit]
      | none => simpa using walkMembers_right_iff key inner members r b

/-- When the walk over members is right. -/
theorem walkMembers_right_iff (key : Text) (w : Ws) :
    ∀ (ms : List (KeyTok × Json)) (r : Text) (b : Bool), straysMembers key w ms b = false ↔
      (walkMembers key w ms r).Right ((searchMembers key ms r).map Located.text) b
  | [], _, b => by simp [straysMembers, walkMembers, searchMembers, Walk.Right, pastBrace]
  | (k, v) :: ms, r, b => by
      rw [straysMembers, walkMembers, searchMembers]
      cases hs : search key v (k.trail.text ++ (renderMemberTail ms ++ r)) with
      | some l =>
          have hocc := occurs_of_search hs
          have hbehind := (@walkMembers_within key k.trail ms r).ne (search_behind hs)
          rw [if_pos hocc, Option.map_some, Walk.right_round (walk_found v _ hocc) hbehind,
            walkMembers_hits, ← Option.map_some, ← hs]
          exact walk_right_iff key v _ _
      | none =>
          have hocc := not_occurs_of_search hs
          rw [if_neg (by simp [hocc]), walk_of_not_occurs v _ hocc]
          cases openEnd v with
          | true =>
              rw [if_pos rfl, Walk.onward_through, walkMembers_orElse]
              exact walkMembers_right_iff key k.trail ms r b
          | false =>
              rw [if_neg (by simp)]
              simpa [Walk.through, Walk.orElse] using walkMembers_right_iff key Ws.none ms r b

/-- When the walk over elements is right. -/
theorem walkElems_right_iff (key : Text) :
    ∀ (es : List (Pad × Json)) (r : Text) (b : Bool), straysElems key es b = false ↔
      (walkElems key es r).Right ((searchElems key es r).map Located.text) b
  | [], _, b => by simp [straysElems, walkElems, searchElems, Walk.Right, Walk.stop]
  | (p, v) :: es, r, b => by
      rw [straysElems, walkElems, searchElems]
      cases hs : search key v (p.after.text ++ (renderElemTail es ++ r)) with
      | some l =>
          have hocc := occurs_of_search hs
          have hbehind := (@strayElems_within key es r).ne (search_behind hs)
          rw [if_pos hocc, Option.map_some, Walk.right_round (walk_found v _ hocc) hbehind,
            strayElems_hits, ← Option.map_some, ← hs]
          exact walk_right_iff key v _ _
      | none =>
          have hocc := not_occurs_of_search hs
          rw [if_neg (by simp [hocc]), walk_of_not_occurs v _ hocc]
          have helems := walkElems_right_iff key es r b
          cases openEnd v with
          | false => simpa [Walk.through, Walk.orElse] using helems
          | true =>
              rw [Walk.onward_through, Bool.true_and]
              cases hb : hitsElems key es b with
              | true =>
                  rw [if_pos rfl, Walk.right_orElse_of_hits ((strayElems_hits key es r b).trans hb)]
                  exact strayElems_right_iff key es r b hb
              | false =>
                  rw [if_neg (by simp),
                    Walk.right_orElse_of_not_hits ((strayElems_hits key es r b).trans hb)]
                  exact helems

/-- When a walk that went astray is right about elements. -/
theorem strayElems_right_iff (key : Text) :
    ∀ (es : List (Pad × Json)) (r : Text) (b : Bool), hitsElems key es b = true →
      (missesElems key es b = false ↔
        (strayElems key es r).Right ((searchElems key es r).map Located.text) b)
  | [], _, b, hb => by
      rw [hitsElems] at hb
      simp [missesElems, strayElems, Walk.Right, Walk.onward, hb]
  | (p, v) :: es, r, b, hb => by
      rw [hitsElems] at hb
      rw [missesElems, strayElems, searchElems]
      cases hs : search key v (p.after.text ++ (renderElemTail es ++ r)) with
      | some l =>
          have hocc := occurs_of_search hs
          have hbehind := (@strayElems_within key es r).ne (search_behind hs)
          rw [if_pos hocc, Option.map_some, Walk.right_through hbehind, strayElems_hits,
            ← Option.map_some, ← hs]
          exact stray_right_iff key v _ _ hocc hb
      | none =>
          have hocc := not_occurs_of_search hs
          have hthrough : passes v = true ∧ hitsElems key es b = true := by
            rw [← stray_hits key v [], stray_of_not_occurs v [] hocc] at hb
            simpa [Walk.hits] using hb
          rw [if_neg (by simp [hocc]), stray_of_not_occurs v _ hocc, hthrough.1,
            Walk.onward_through]
          exact strayElems_right_iff key es r b hthrough.2

/-- When a walk that went astray is right about a value. -/
theorem stray_right_iff (key : Text) :
    ∀ (v : Json) (r : Text) (b : Bool), occurs key v = true → hits key v b = true →
      (misses key v b = false ↔
        (stray key v r).Right ((search key v r).map Located.text) b)
  | .lit _, _, _, h, _ => by cases h
  | .str _, _, _, h, _ => by cases h
  | .arr _ elems, r, b, _, hb => by
      rw [hits] at hb
      rw [misses, stray, search]
      exact strayElems_right_iff key elems r b hb
  | .obj inner members, r, b, _, hb => by
      rw [misses, stray, search, ← lookup_isSome key members r]
      cases hl : lookup key members r with
      | some l => simp [Walk.Right, lookup_not_walked inner hl]
      | none => simpa using walkMembers_right_iff key inner members r b

end

mutual

/-- Without white space in empty objects no end is open. -/
theorem openEnd_of_tight : ∀ v : Json, tight v = true → openEnd v = false
  | .lit _, _ => rfl
  | .str _, _ => rfl
  | .arr _ elems, h => by
      rw [tight] at h
      rw [openEnd]
      exact openElems_of_tight elems h
  | .obj inner members, h => by
      rw [tight, Bool.and_eq_true] at h
      rw [openEnd]
      refine openMembers_of_tight inner members ?_ h.2
      rintro rfl
      simpa using h.1

theorem openMembers_of_tight (w : Ws) :
    ∀ ms : List (KeyTok × Json), (ms = [] → w.text = []) → tightMembers ms = true →
      openMembers w ms = false
  | [], hw, _ => by simp [openMembers, hw rfl]
  | (k, v) :: ms, _, h => by
      rw [tightMembers, Bool.and_eq_true] at h
      rw [openMembers, openEnd_of_tight v h.1,
        openMembers_of_tight Ws.none ms (fun _ => rfl) h.2]
      rfl

theorem openElems_of_tight : ∀ es : List (Pad × Json), tightElems es = true → openElems es = false
  | [], _ => rfl
  | (p, v) :: es, h => by
      rw [tightElems, Bool.and_eq_true] at h
      rw [openElems, openEnd_of_tight v h.1, openElems_of_tight es h.2]
      rfl

end

mutual

/-- Without white space in empty objects nothing is led astray. -/
theorem strays_of_tight :
    ∀ (v : Json) (b : Bool), tight v = true → strays key v b = false
  | .lit _, _, _ => rfl
  | .str _, _, _ => rfl
  | .arr _ elems, b, h => by
      rw [tight] at h
      rw [strays]
      exact straysElems_of_tight elems b h
  | .obj inner members, b, h => by
      rw [tight, Bool.and_eq_true] at h
      rw [strays, straysMembers_of_tight inner members b ?_ h.2, Bool.and_false]
      rintro rfl
      simpa using h.1

theorem straysMembers_of_tight (w : Ws) :
    ∀ (ms : List (KeyTok × Json)) (b : Bool), (ms = [] → w.text = []) →
      tightMembers ms = true → straysMembers key w ms b = false
  | [], b, hw, _ => by simp [straysMembers, hw rfl]
  | (k, v) :: ms, b, _, h => by
      rw [tightMembers, Bool.and_eq_true] at h
      rw [straysMembers, strays_of_tight v _ h.1, openEnd_of_tight v h.1,
        straysMembers_of_tight Ws.none ms b (fun _ => rfl) h.2]
      simp

theorem straysElems_of_tight :
    ∀ (es : List (Pad × Json)) (b : Bool), tightElems es = true → straysElems key es b = false
  | [], _, _ => rfl
  | (p, v) :: es, b, h => by
      rw [tightElems, Bool.and_eq_true] at h
      rw [straysElems, strays_of_tight v _ h.1, openEnd_of_tight v h.1,
        straysElems_of_tight es b h.2]
      simp

end

/-! ## Rounds of a lookup -/

/-- The member loop of {lit}`json_find_key` with its rounds counted: there is no answer when
they are used up. -/
def findKeyRounds (key : Text) : Nat → Text → Option (Option Text)
  | 0, _ => none
  | n + 1, json =>
      match json with
      | [] => some none
      | b :: _ =>
          if b = rbrace then some none
          else
            match jsonSkipWhitespace json with
            | [] => some none
            | c :: q =>
                if c = dquote then
                  if matchesKey key q then
                    some (some (jsonSkipWhitespace (skipByte colon
                      (jsonSkipWhitespace (q.drop (key.length + 1))))))
                  else findKeyRounds key n (skipItem (skipKey (c :: q)))
                else some none

/-- {lit}`json_find_key` with its rounds counted. -/
def jsonFindKeyRounds (n : Nat) (json key : Text) : Option (Option Text) :=
  match jsonSkipWhitespace json with
  | [] => some none
  | b :: q => if b = lbrace then findKeyRounds key n q else some none

/-- Every round consumes a byte, so the loop ends on every text. -/
theorem findKeyRounds_settles (key p : Text) :
    Settles (fun n => findKeyRounds key n p) (findKeyFrom key p) := by
  induction hlen : p.length using Nat.strong_induction_on generalizing p with
  | _ len ih =>
      rw [findKeyFrom_eq]
      cases p with
      | nil => exact settles_of_succ fun n => by simp only [findKeyRounds]
      | cons b p =>
          by_cases hb : b = rbrace
          · simp only [if_pos hb]
            exact settles_of_succ fun n => by simp only [findKeyRounds, if_pos hb]
          · simp only [if_neg hb]
            cases hws : jsonSkipWhitespace (b :: p) with
            | nil => exact settles_of_succ fun n => by simp only [findKeyRounds, if_neg hb, hws]
            | cons c q =>
                by_cases hc : c = dquote
                · by_cases hmatch : matchesKey key q = true
                  · simp only [if_pos hc, if_pos hmatch]
                    exact settles_of_succ fun n => by
                      simp only [findKeyRounds, if_neg hb, hws, if_pos hc, if_pos hmatch]
                  · simp only [if_pos hc, if_neg hmatch]
                    have hnext := skipItem_length_le (skipKey (c :: q))
                    have hkey := hc ▸ skipKey_dquote_length_le q
                    have hskip := skipSpace_length_le (b :: p)
                    rw [← jsonSkipWhitespace_eq, hws] at hskip
                    simp only [List.length_cons] at hskip hlen
                    refine (settles_succ_iff fun n => ?_).mpr
                      (ih _ (by omega) (skipItem (skipKey (c :: q))) rfl)
                    simp only [findKeyRounds, if_neg hb, hws, if_pos hc, if_neg hmatch]
                · simp only [if_neg hc]
                  exact settles_of_succ fun n => by
                    simp only [findKeyRounds, if_neg hb, hws, if_neg hc]

/-- Enough rounds settle the search. -/
theorem jsonFindKeyRounds_settles (json key : Text) :
    Settles (fun n => jsonFindKeyRounds n json key) (jsonFindKey json key) := by
  unfold jsonFindKeyRounds jsonFindKey
  cases jsonSkipWhitespace json with
  | nil => exact settles_of_succ fun n => rfl
  | cons b q =>
      by_cases hb : b = lbrace
      · simp only [if_pos hb]
        exact findKeyRounds_settles key q
      · simp only [if_neg hb]
        exact settles_of_succ fun n => rfl

/-! ## The navigator -/

/-- What the navigator does at a value, whatever follows.  {lit}`json_find_key` comes to the
member of the value with the key, and {lit}`json_find_key_recursive` to the first one in the
order of {lit}`search`, which is none exactly if the key does not occur.  A position is one
inside the value. -/
structure Navigates (key : Text) (v : Json) : Prop where
  findKey : ∀ r, Follows r →
    jsonFindKey (render v ++ r) key = (member key v r).map Located.text ∧
      Settles (fun n => jsonFindKeyRounds n (render v ++ r) key)
        (jsonFindKey (render v ++ r) key)
  recursive : ∀ r, Follows r →
    Settles (fun n => jsonFindKeyRecursive key n (render v ++ r))
      ((search key v r).map Located.text)
  null_iff : ∀ r, Follows r →
    (Settles (fun n => jsonFindKeyRecursive key n (render v ++ r)) none ↔
      occurs key v = false)
  inside : ∀ r t, Follows r →
    (jsonFindKey (render v ++ r) key = some t ∨
      Settles (fun n => jsonFindKeyRecursive key n (render v ++ r)) (some t)) →
    ∃ l, l.text = t ∧ Inside (render v) r l

/-- What is found is inside the value. -/
theorem member_inside {v : Json} (h : member key v r = some l) : Inside (render v) r l := by
  cases v with
  | lit tok => cases h
  | str body => cases h
  | arr inner es => cases h
  | obj inner ms =>
      have hin := lookup_inside h
      cases ms with
      | nil => cases h
      | cons m ms =>
          rw [renderMemberTail_cons inner] at hin
          exact hin.head lbrace

/-- The four parts follow from the result of the recursive search. -/
theorem navigates_of_recursive (hkey : PlainKey key) {v : Json}
    (h : ∀ r, Settles (fun n => jsonFindKeyRecursive key n (render v ++ r))
      ((search key v r).map Located.text)) : Navigates key v where
  findKey r _ := ⟨jsonFindKey_render hkey v r, jsonFindKeyRounds_settles _ _⟩
  recursive r _ := h r
  null_iff r _ := by
    rw [← search_isSome key v r, Option.isSome_eq_false_iff, Option.isNone_iff_eq_none]
    constructor
    · intro hnull
      exact Option.map_eq_none_iff.mp ((h r).unique hnull)
    · intro hnone
      have hr := h r
      rwa [hnone] at hr
  inside r t _ := by
    rintro (hfind | hrec)
    · rw [jsonFindKey_render hkey] at hfind
      rcases Option.map_eq_some_iff.mp hfind with ⟨l, hl, rfl⟩
      exact ⟨l, rfl, member_inside hl⟩
    · rcases Option.map_eq_some_iff.mp ((h r).unique hrec) with ⟨l, hl, rfl⟩
      exact ⟨l, rfl, search_inside v r hl⟩

theorem wellEscaped_of_plainKey (h : PlainKey key) : wellEscaped key = true := by
  induction key with
  | nil => rfl
  | cons b key ih =>
      have hb := h b List.mem_cons_self
      rw [wellEscaped_plain hb.1 hb.2]
      exact ih fun c hc => h c (List.mem_cons_of_mem _ hc)

/-- There is always a text in which the loop finds the key: {lit}`,"":` and an object with a
member of that name. -/
theorem exists_hit_behind (hkey : PlainKey key) :
    ∃ r t, Follows r ∧ Ends key r (some t) ∧ t.length < r.length := by
  let ms : List (KeyTok × Json) := [(KeyTok.compact ⟨[], rfl⟩,
    .obj Ws.none [(KeyTok.compact ⟨key, wellEscaped_of_plainKey hkey⟩, .arr Ws.none [])])]
  have hocc : valuesOccur key ms = true := by
    simp [ms, valuesOccur, occurs, occursMembers, KeyTok.compact]
  rcases Option.isSome_iff_exists.mp (walkMembers_found Ws.none ms [] hocc) with ⟨t, ht⟩
  have hends := recurseMembers_walk hkey Ws.none ms [] none fun _ =>
    settles_of_succ fun n => by rw [recurseMembers]
  have hlen := (walkMembers_within Ws.none ms [] t ht).2
  refine ⟨renderMemberTail ms ++ [], t, follows_memberTail ms [], ?_, hlen⟩
  rw [renderMemberTail_cons Ws.none, List.cons_append]
  refine (ends_skip Ws.none _ (by decide) (by decide) (by decide)).mpr ?_
  rwa [Walk.result, ht, ite_self, Option.none_or] at hends

/-- The navigator computes lookup and search on a value exactly when the search for the key is
not led astray by an empty object with white space between its braces. -/
theorem navigator_refines_iff (hkey : PlainKey key) (v : Json) :
    Navigates key v ↔ strays key v true = false := by
  constructor
  · intro h
    rcases exists_hit_behind hkey with ⟨r, t, hr, hends, hlen⟩
    have hwalk := jsonFindKeyRecursive_walk hkey v r (some t) fun _ => hends
    have hresult := hwalk.unique (h.recursive r hr)
    rw [walk_right_iff key v r true]
    cases hruns : (walk key v r).runsOn with
    | false =>
        rw [Walk.result, hruns] at hresult
        exact ⟨by rw [hruns]; rfl, hresult⟩
    | true =>
        -- the position found behind the value is none inside of it
        rw [Walk.result, hruns, if_pos rfl, Option.some_or] at hresult
        rcases Option.map_eq_some_iff.mp hresult.symm with ⟨l, hl, rfl⟩
        have hin := (search_inside v r hl).length.1
        omega
  · intro h
    refine navigates_of_recursive hkey fun r => ?_
    rcases (walk_right_iff key v r true).mp h with ⟨hruns, hfound⟩
    rw [Bool.and_true] at hruns
    have hwalk := jsonFindKeyRecursive_walk hkey v r none fun h => absurd (hruns ▸ h) (by simp)
    rwa [Walk.result, hruns, hfound] at hwalk

/-- The white space of the examples. -/
def oneSpace : Ws := ⟨[32], rfl⟩

/-- {lit}`{"k":1}`. -/
def memberK : Json :=
  .obj Ws.none [(KeyTok.compact ⟨[107], rfl⟩, .lit ⟨[49], by simp, rfl⟩)]

/-- In {lit}`[{ },{"k":1}]` the loop runs on into the second object and stops at its
end. -/
theorem stopped_loop_navigates :
    Navigates (ascii "k")
      (.arr Ws.none [(Pad.compact, .obj oneSpace []), (Pad.compact, memberK)]) :=
  (navigator_refines_iff (by simp [ascii, PlainKey]) _).mpr (by
    simp [strays, straysElems, straysMembers, occurs, occursMembers, openEnd, openMembers,
      hitsElems, hits, hitsMembers, valuesOccur, hasKey, memberK, KeyTok.compact, oneSpace, ascii])

/-- From {lit}`{ }` the loop runs on into {lit}`,"x":{"k":1}}` and comes to a member there,
although the object has none. -/
theorem search_outside :
    ¬Navigates (ascii "k") (.obj oneSpace []) ∧ occurs (ascii "k") (.obj oneSpace []) = false ∧
    Settles (fun n => jsonFindKeyRecursive (ascii "k") n
        (render (.obj oneSpace []) ++ ascii ",\"x\":\x7b\"k\":1\x7d\x7d"))
      (some (ascii "1\x7d\x7d")) := by
  have hkey : PlainKey (ascii "k") := by simp [ascii, PlainKey]
  have hmember := recurseMembers_walk hkey Ws.none
    [(KeyTok.compact ⟨ascii "x", by simp [ascii, wellEscaped]⟩, memberK)] [] none fun _ =>
      settles_of_succ fun n => by rw [recurseMembers]
  have hends : Ends (ascii "k") (ascii ",\"x\":\x7b\"k\":1\x7d\x7d")
      (some (ascii "1\x7d\x7d")) := by
    refine (ends_skip Ws.none (ascii "\"x\":\x7b\"k\":1\x7d\x7d") (by decide) (by decide)
      (by decide)).mpr ?_
    simpa [ascii, renderMembers, render, renderMemberTail, keyText, KeyTok.compact, memberK,
      walkMembers, walk, lookup, Walk.through, Walk.orElse, Walk.result, Walk.hit, Located.text,
      pastBrace] using hmember
  have hsearch := jsonFindKeyRecursive_walk hkey (.obj oneSpace []) _ _ fun _ => hends
  refine ⟨fun h => ?_, rfl, hsearch⟩
  have hnull := hsearch.unique (h.recursive _ (by simp [ascii, Follows, isDelim]))
  cases hnull

end Sharegres
