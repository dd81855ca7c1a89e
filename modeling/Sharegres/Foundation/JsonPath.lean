import Sharegres.Foundation.JsonText

/-!
# Foundation - Places in a document

A value has its place in a document at the end of a path of frames: the arrays and objects
around it, each with the white space, elements or members on both sides.  What a reader that
starts at the value has before it is the text of the value and then what the frames keep
behind it.

Main results:

- Definition {lit}`Json.occurs`: a member with a given key at any depth.
- Theorems {lit}`values_eq_nil_iff` and {lit}`search_isSome`: something is collected, and
  something found, exactly when the key occurs.
- Theorem {lit}`search_inside`: what is found stands inside the value.
- Theorem {lit}`render_enclose`: the text of a document from the place of a value on.
-/

namespace Foundation

variable {l : Located} {key r t : Text}

namespace Json

/-! ## Occurrences of a key -/

mutual

/-- Some member at some depth has the given raw key. -/
def occurs (key : Text) : Json → Bool
  | .lit _ => false
  | .str _ => false
  | .arr _ elems => occursElems key elems
  | .obj _ members => occursMembers key members

/-- {lit}`occurs` in the elements of an array. -/
def occursElems (key : Text) : List (Pad × Json) → Bool
  | [] => false
  | (_, v) :: elems => occurs key v || occursElems key elems

/-- {lit}`occurs` in the members of an object. -/
def occursMembers (key : Text) : List (KeyTok × Json) → Bool
  | [] => false
  | (k, v) :: members =>
      decide (k.body.text = key) || occurs key v || occursMembers key members

end

mutual

/-- Nothing is collected exactly when the key does not occur. -/
theorem values_eq_nil_iff (key : Text) :
    ∀ v : Json, values key v = [] ↔ occurs key v = false
  | .lit _ => by simp [values, occurs]
  | .str _ => by simp [values, occurs]
  | .arr _ elems => by
      rw [values, occurs]
      exact valuesElems_eq_nil_iff key elems
  | .obj _ members => by
      rw [values, occurs]
      exact valuesMembers_eq_nil_iff key members

theorem valuesElems_eq_nil_iff (key : Text) :
    ∀ es : List (Pad × Json), valuesElems key es = [] ↔ occursElems key es = false
  | [] => by simp [valuesElems, occursElems]
  | (p, v) :: es => by
      rw [valuesElems, occursElems, List.append_eq_nil_iff, Bool.or_eq_false_iff,
        values_eq_nil_iff key v, valuesElems_eq_nil_iff key es]

theorem valuesMembers_eq_nil_iff (key : Text) :
    ∀ ms : List (KeyTok × Json), valuesMembers key ms = [] ↔ occursMembers key ms = false
  | [] => by simp [valuesMembers, occursMembers]
  | (k, v) :: ms => by
      rw [valuesMembers, occursMembers, List.append_eq_nil_iff, Bool.or_eq_false_iff,
        valuesMembers_eq_nil_iff key ms]
      by_cases hk : k.body.text = key
      · simp [hk]
      · simp [hk, values_eq_nil_iff key v]

end

/-- The object has a member with the key. -/
def hasKey (key : Text) (ms : List (KeyTok × Json)) : Bool :=
  ms.any fun m => decide (m.1.body.text = key)

/-- The key occurs inside the value of a member. -/
def valuesOccur (key : Text) (ms : List (KeyTok × Json)) : Bool :=
  ms.any fun m => occurs key m.2

/-- A member of the object, or one below a value. -/
theorem occursMembers_eq (key : Text) (ms : List (KeyTok × Json)) :
    occursMembers key ms = (hasKey key ms || valuesOccur key ms) := by
  induction ms with
  | nil => rfl
  | cons m ms ih =>
      rcases m with ⟨k, v⟩
      simp only [occursMembers, ih, hasKey, valuesOccur, List.any_cons]
      cases decide (k.body.text = key) <;> cases occurs key v <;> simp

/-- A member is found if the object has it. -/
theorem lookup_isSome (key : Text) (ms : List (KeyTok × Json)) (r : Text) :
    (lookup key ms r).isSome = hasKey key ms := by
  induction ms with
  | nil => rfl
  | cons m ms ih =>
      rcases m with ⟨k, v⟩
      rw [lookup, hasKey, List.any_cons]
      by_cases hk : k.body.text = key
      · simp [hk]
      · simp [hk, ih, hasKey]

mutual

/-- The search finds something exactly when the key occurs. -/
theorem search_isSome (key : Text) :
    ∀ (v : Json) (r : Text), (search key v r).isSome = occurs key v
  | .lit _, _ => rfl
  | .str _, _ => rfl
  | .arr _ elems, r => by
      rw [search, occurs]
      exact searchElems_isSome key elems r
  | .obj _ members, r => by
      rw [search, occurs, occursMembers_eq, ← lookup_isSome key members r]
      cases lookup key members r with
      | some l => rfl
      | none => exact searchMembers_isSome key members r

theorem searchElems_isSome (key : Text) :
    ∀ (es : List (Pad × Json)) (r : Text), (searchElems key es r).isSome = occursElems key es
  | [], _ => rfl
  | (p, v) :: es, r => by
      rw [searchElems, occursElems,
        ← search_isSome key v (p.after.text ++ (renderElemTail es ++ r))]
      cases search key v (p.after.text ++ (renderElemTail es ++ r)) with
      | some l => rfl
      | none => exact searchElems_isSome key es r

theorem searchMembers_isSome (key : Text) :
    ∀ (ms : List (KeyTok × Json)) (r : Text), (searchMembers key ms r).isSome = valuesOccur key ms
  | [], _ => rfl
  | (k, v) :: ms, r => by
      rw [searchMembers, valuesOccur, List.any_cons,
        ← search_isSome key v (k.trail.text ++ (renderMemberTail ms ++ r))]
      cases search key v (k.trail.text ++ (renderMemberTail ms ++ r)) with
      | some l => rfl
      | none => exact searchMembers_isSome key ms r

end

/-! ## Positions inside a text -/

/-- The located value stands inside a text that is followed by {lit}`r`, behind its first
byte. -/
def Inside (t r : Text) (l : Located) : Prop :=
  ∃ before behind, before ≠ [] ∧ t = before ++ (render l.value ++ behind) ∧ l.rest = behind ++ r

/-- A position inside a text is behind its start and before its end. -/
theorem Inside.length (h : Inside t r l) :
    r.length < l.text.length ∧ l.text.length < (t ++ r).length := by
  rcases h with ⟨before, behind, hne, ht, hrest⟩
  have hbefore := List.length_pos_iff.mpr hne
  have hvalue := List.length_pos_iff.mpr (render_ne_nil l.value)
  rw [Located.text, hrest, ht]
  simp only [List.length_append]
  omega

/-- A part of a text stands inside of it, if only behind another byte. -/
theorem Inside.extend {post : Text} (h : Inside t (post ++ r) l) (pre : Text) :
    Inside (pre ++ (t ++ post)) r l := by
  rcases h with ⟨before, behind, hne, rfl, hrest⟩
  exact ⟨pre ++ before, behind ++ post, by simp [hne], by simp, by simp [hrest]⟩

/-- The first byte of the text does not matter. -/
theorem Inside.head {b : UInt8} (h : Inside (b :: t) r l) (c : UInt8) : Inside (c :: t) r l := by
  rcases h with ⟨before, behind, hne, ht, hrest⟩
  rcases List.exists_cons_of_ne_nil hne with ⟨b', before, rfl⟩
  rw [List.cons_append, List.cons.injEq] at ht
  exact ⟨c :: before, behind, by simp, by rw [ht.2, List.cons_append], hrest⟩

/-- A member of an object stands behind the comma in front of it. -/
theorem lookup_inside {ms : List (KeyTok × Json)} (h : lookup key ms r = some l) :
    Inside (renderMemberTail ms) r l := by
  induction ms with
  | nil => cases h
  | cons m ms ih =>
      rcases m with ⟨k, v⟩
      rw [lookup] at h
      split at h
      · cases h
        exact ⟨comma :: keyText k, k.trail.text ++ renderMemberTail ms, by simp,
          by simp [renderMemberTail], by simp⟩
      · have hms : Inside (renderMemberTail ms) ([] ++ r) l := ih h
        have hext := hms.extend (comma :: (keyText k ++ (render v ++ k.trail.text)))
        simpa [renderMemberTail] using hext

mutual

/-- What a search finds stands inside the value. -/
theorem search_inside :
    ∀ (v : Json) (r : Text), search key v r = some l → Inside (render v) r l
  | .lit _, _, h => by cases h
  | .str _, _, h => by cases h
  | .arr inner elems, r, h => by
      rw [search] at h
      have hin := searchElems_inside elems r h
      cases elems with
      | nil => cases h
      | cons e es =>
          rw [renderElemTail_cons inner] at hin
          exact hin.head lbracket
  | .obj inner members, r, h => by
      have hin : Inside (renderMemberTail members) r l := by
        rw [search] at h
        cases hl : lookup key members r with
        | some l' =>
            rw [hl] at h
            cases h
            exact lookup_inside hl
        | none =>
            rw [hl] at h
            exact searchMembers_inside members r h
      cases members with
      | nil => cases h
      | cons m ms =>
          rw [renderMemberTail_cons inner] at hin
          exact hin.head lbrace

theorem searchElems_inside :
    ∀ (es : List (Pad × Json)) (r : Text), searchElems key es r = some l →
      Inside (renderElemTail es) r l
  | [], _, h => by cases h
  | (p, v) :: es, r, h => by
      rw [searchElems] at h
      cases hv : search key v (p.after.text ++ (renderElemTail es ++ r)) with
      | some l' =>
          rw [hv] at h
          cases h
          rw [← List.append_assoc] at hv
          exact (search_inside v _ hv).extend (comma :: p.before.text)
      | none =>
          rw [hv] at h
          have hes : Inside (renderElemTail es) ([] ++ r) l := searchElems_inside es r h
          have hext := hes.extend (comma :: (p.before.text ++ (render v ++ p.after.text)))
          simpa [renderElemTail] using hext

/-- Below an object. -/
theorem searchMembers_inside :
    ∀ (ms : List (KeyTok × Json)) (r : Text), searchMembers key ms r = some l →
      Inside (renderMemberTail ms) r l
  | [], _, h => by cases h
  | (k, v) :: ms, r, h => by
      rw [searchMembers] at h
      cases hv : search key v (k.trail.text ++ (renderMemberTail ms ++ r)) with
      | some l' =>
          rw [hv] at h
          cases h
          rw [← List.append_assoc] at hv
          exact (search_inside v _ hv).extend (comma :: keyText k)
      | none =>
          rw [hv] at h
          have hms : Inside (renderMemberTail ms) ([] ++ r) l := searchMembers_inside ms r h
          have hext := hms.extend (comma :: (keyText k ++ (render v ++ k.trail.text)))
          simpa [renderMemberTail] using hext

end

/-! ## Frames -/

/-- An array or object around a value: what stands before the value there, the white space or
the key that belongs to it, and what stands behind it. -/
inductive Frame where
  | elem (inner : Ws) (before : List (Pad × Json)) (pad : Pad) (behind : List (Pad × Json))
  | member (inner : Ws) (before : List (KeyTok × Json)) (key : KeyTok)
      (behind : List (KeyTok × Json))

/-- The array or object with the value in its place. -/
def Frame.plug : Frame → Json → Json
  | .elem inner before pad behind, v => .arr inner (before ++ (pad, v) :: behind)
  | .member inner before key behind, v => .obj inner (before ++ (key, v) :: behind)

/-- The text from the end of the value to the end of the array or object. -/
def Frame.rest : Frame → Text
  | .elem _ _ pad behind => pad.after.text ++ renderElemTail behind
  | .member _ _ key behind => key.trail.text ++ renderMemberTail behind

/-- A member with the key stands behind the value in this array or object. -/
def Frame.occursBehind (key : Text) : Frame → Bool
  | .elem _ _ _ behind => occursElems key behind
  | .member _ _ _ behind => occursMembers key behind

/-- The document around a value, from the innermost frame on. -/
def enclose : List Frame → Json → Json
  | [], v => v
  | f :: path, v => enclose path (f.plug v)

/-- The text behind a value in its document, which ends in white space. -/
def behind : List Frame → Ws → Text
  | [], final => final.text
  | f :: path, final => f.rest ++ behind path final

/-- The text of the elements around one of them. -/
theorem renderElemTail_split (before : List (Pad × Json)) (p : Pad) (v : Json)
    (es : List (Pad × Json)) :
    ∃ t, renderElemTail (before ++ (p, v) :: es) =
      t ++ (render v ++ (p.after.text ++ renderElemTail es)) := by
  induction before with
  | nil => exact ⟨comma :: p.before.text, rfl⟩
  | cons e before ih =>
      rcases e with ⟨q, u⟩
      rcases ih with ⟨t, ht⟩
      refine ⟨comma :: (q.before.text ++ (render u ++ (q.after.text ++ t))), ?_⟩
      simp [renderElemTail, ht]

/-- The text of the members around one of them. -/
theorem renderMemberTail_split (before : List (KeyTok × Json)) (k : KeyTok) (v : Json)
    (ms : List (KeyTok × Json)) :
    ∃ t, renderMemberTail (before ++ (k, v) :: ms) =
      t ++ (render v ++ (k.trail.text ++ renderMemberTail ms)) := by
  induction before with
  | nil => exact ⟨comma :: keyText k, rfl⟩
  | cons m before ih =>
      rcases m with ⟨l, u⟩
      rcases ih with ⟨t, ht⟩
      refine ⟨comma :: (keyText l ++ (render u ++ (l.trail.text ++ t))), ?_⟩
      simp [renderMemberTail, ht]

/-- A value in a frame is followed by what the frame has behind it. -/
theorem Frame.render_plug (f : Frame) (v : Json) :
    ∃ t, render (f.plug v) = t ++ (render v ++ f.rest) := by
  cases f with
  | elem inner before pad behind =>
      cases before with
      | nil => exact ⟨lbracket :: pad.before.text, by simp [plug, render, renderElems, rest]⟩
      | cons e before =>
          rcases renderElemTail_split before pad v behind with ⟨t, ht⟩
          refine ⟨lbracket :: (e.1.before.text ++ (render e.2 ++ (e.1.after.text ++ t))), ?_⟩
          simp [plug, render, renderElems, rest, ht]
  | member inner before key behind =>
      cases before with
      | nil => exact ⟨lbrace :: keyText key, by simp [plug, render, renderMembers, rest]⟩
      | cons m before =>
          rcases renderMemberTail_split before key v behind with ⟨t, ht⟩
          refine ⟨lbrace :: (keyText m.1 ++ (render m.2 ++ (m.1.trail.text ++ t))), ?_⟩
          simp [plug, render, renderMembers, rest, ht]

/-- The text of a document from the place of a value on. -/
theorem render_enclose (path : List Frame) (v : Json) (final : Ws) :
    ∃ t, render (enclose path v) ++ final.text = t ++ (render v ++ behind path final) := by
  induction path generalizing v with
  | nil => exact ⟨[], rfl⟩
  | cons f path ih =>
      rcases ih (f.plug v) with ⟨t, ht⟩
      rcases f.render_plug v with ⟨t', ht'⟩
      refine ⟨t ++ t', ?_⟩
      rw [enclose, ht, ht', behind]
      simp

end Json

end Foundation
