import Sharegres.Foundation.Fuel
import Sharegres.Parser.JsonNavigation

/-!
# Parser - The recursive search as a walk over the text

The member loop of {lit}`json_find_key_recursive` looks for the closing brace before it skips
white space.  In an empty object written with white space it steps over the brace and goes on
with the text behind the object, as if that belonged to it.  The search of a value is therefore
a walk that may run on behind the value, and its result is then the one of the member loop on
the text that follows.

Main results:

- Definition {lit}`walk`: where the search of a value leads, and what it finds on the way.
- Theorem {lit}`jsonFindKeyRecursive_walk`: the search comes to the result of its walk, provided
  that the loop on the text behind the value ends if the walk runs on into it.
-/

namespace Sharegres

open Foundation Foundation.Json

variable {key : Text}

/-! ## Walks -/

/-- A walk over a part of the text.  If it runs on, the text behind that part is walked as
well; what is found there comes before what was found in the part. -/
@[ext]
structure Walk where
  runsOn : Bool
  found : Option Text

namespace Walk

/-- The walk ends without a result. -/
def stop : Walk := ⟨false, none⟩

/-- The walk leads over the part and finds nothing in it. -/
def onward : Walk := ⟨true, none⟩

/-- The walk ends at a position. -/
def hit (t : Text) : Walk := ⟨false, some t⟩

/-- The result, if the walk behind the part comes to the given one. -/
def result (w : Walk) (behind : Option Text) : Option Text :=
  (if w.runsOn then behind else none).or w.found

/-- A walk that runs on into a second part. -/
def through (w c : Walk) : Walk :=
  if w.runsOn then ⟨c.runsOn, c.found.or w.found⟩ else w

/-- A walk, and a second one if the first has no result. -/
def orElse (w v : Walk) : Walk :=
  if w.found.isSome then w else ⟨w.runsOn || v.runsOn, v.found⟩

variable (w c v : Walk) (behind : Option Text)

@[simp]
theorem result_stop : stop.result behind = none := rfl

theorem result_onward : onward.result behind = behind := by
  simp [result, onward]

/-- One walk and then another. -/
theorem result_through : (w.through c).result behind = w.result (c.result behind) := by
  rcases w with ⟨_ | _, found⟩
  · rfl
  · simp [through, result, Option.or_assoc]

theorem onward_through : through ⟨true, none⟩ c = c := by
  simp [through]

/-- One walk, or another if it finds nothing. -/
theorem result_orElse : (w.orElse v).result behind = (w.result behind).or (v.result behind) := by
  rcases w with ⟨runs, _ | t⟩
  · cases runs with
    | false => simp [orElse, result]
    | true => cases behind <;> simp [orElse, result]
  · cases runs with
    | false => simp [orElse, result]
    | true => cases behind <;> simp [orElse, result]

theorem found_orElse : (w.orElse v).found = w.found.or v.found := by
  rcases w with ⟨runs, _ | t⟩ <;> simp [orElse]

/-- What is found first counts. -/
theorem orElse_of_found {w : Walk} (h : w.found.isSome = true) : w.orElse v = w :=
  if_pos h

theorem found_through_isSome {w : Walk} (h : w.found.isSome = true) :
    (w.through c).found.isSome = true := by
  rcases w with ⟨_ | _, found⟩
  · exact h
  · simp [through, Option.isSome_or, show found.isSome = true from h]

/-- Whatever is found is found in one of the parts. -/
theorem found_cases {w c v : Walk} {t : Text} (h : ((w.through c).orElse v).found = some t) :
    w.found = some t ∨ c.found = some t ∨ v.found = some t := by
  rw [found_orElse, Option.or_eq_some_iff] at h
  rcases h with h | ⟨-, h⟩
  · unfold through at h
    split at h
    · rcases Option.or_eq_some_iff.mp h with hc | ⟨-, hw⟩
      · exact .inr (.inl hc)
      · exact .inl hw
    · exact .inl h
  · exact .inr (.inr h)

theorem runsOn_through : (w.through c).runsOn = (w.runsOn && c.runsOn) := by
  rcases w with ⟨_ | _, found⟩ <;> simp [through]

theorem runsOn_orElse :
    (w.orElse v).runsOn = (w.runsOn || (w.found.isNone && v.runsOn)) := by
  rcases w with ⟨runs, _ | t⟩ <;> simp [orElse]

end Walk

/-- The end of an object behind white space: without any, the brace is seen. -/
def pastBrace (w : Ws) : Walk := ⟨!w.text.isEmpty, none⟩

mutual

/-- The walk of {lit}`json_find_key_recursive` over a value. -/
def walk (key : Text) : Json → Text → Walk
  | .lit _, _ => .stop
  | .str _, _ => .stop
  | .arr _ elems, r => walkElems key elems r
  | .obj inner members, r =>
      match lookup key members r with
      | some l => .hit l.text
      | none => walkMembers key inner members r

/-- The walk of the member loop over the members of an object that are left. -/
def walkMembers (key : Text) (w : Ws) : List (KeyTok × Json) → Text → Walk
  | [], _ => pastBrace w
  | (k, v) :: members, r =>
      ((walk key v (k.trail.text ++ (renderMemberTail members ++ r))).through
        (walkMembers key k.trail members r)).orElse (walkMembers key Ws.none members r)

/-- The walk of the element loop over the elements of an array that are left. -/
def walkElems (key : Text) : List (Pad × Json) → Text → Walk
  | [], _ => .stop
  | (p, v) :: elems, r =>
      ((walk key v (p.after.text ++ (renderElemTail elems ++ r))).through
        (strayElems key elems r)).orElse (walkElems key elems r)

/-- The walk of a member loop that has run on into an array. -/
def strayElems (key : Text) : List (Pad × Json) → Text → Walk
  | [], _ => .onward
  | (p, v) :: elems, r =>
      (stray key v (p.after.text ++ (renderElemTail elems ++ r))).through
        (strayElems key elems r)

/-- The walk of a member loop over an element of an array it has run on into. -/
def stray (key : Text) : Json → Text → Walk
  | .lit _, _ => .onward
  | .str _, _ => .onward
  | .arr _ elems, r => strayElems key elems r
  | .obj inner members, r => walkMembers key inner members r

end

/-! ## Rounds of the member loop -/

/-- The member loop on a text comes to a result. -/
def Ends (key t : Text) (result : Option Text) : Prop :=
  Settles (fun fuel => recurseMembers key fuel t) result

/-- A closing brace ends the members. -/
theorem ends_brace (key r : Text) : Ends key (rbrace :: r) none := by
  refine settles_of_succ fun n => ?_
  rw [recurseMembers, if_pos rfl]

/-- A byte that is neither a quote nor white space is stepped over, a closing brace only
behind white space. -/
private theorem ends_step (w : Ws) {c : UInt8} (q : Text) {result : Option Text}
    (hspace : isSpace c = false) (hquote : c ≠ dquote) (hbrace : c = rbrace → w.text ≠ []) :
    Ends key (w.text ++ c :: q) result ↔ Ends key q result := by
  refine settles_succ_iff fun n => ?_
  rcases w.head q rfl hbrace with ⟨b, p, hp, hb⟩
  rw [hp, recurseMembers, if_neg hb, ← hp, jsonSkipWhitespace_eq, skipSpace_append,
    skipSpace_cons_of_not hspace]
  exact if_neg hquote

/-- The loop steps over a byte, with the white space in front of it. -/
theorem ends_skip (w : Ws) {c : UInt8} (q : Text) {result : Option Text}
    (hspace : isSpace c = false) (hquote : c ≠ dquote) (hbrace : c ≠ rbrace) :
    Ends key (w.text ++ c :: q) result ↔ Ends key q result :=
  ends_step w q hspace hquote fun h => absurd h hbrace

/-- The end of an object. -/
theorem ends_pastBrace (w : Ws) {r : Text} {behind : Option Text}
    (h : (pastBrace w).runsOn = true → Ends key r behind) :
    Ends key (w.text ++ rbrace :: r) ((pastBrace w).result behind) := by
  by_cases hw : w.text = []
  · rw [hw, pastBrace, hw]
    exact ends_brace key r
  · have hruns : (pastBrace w).runsOn = true := by simp [pastBrace, hw]
    rw [show (pastBrace w).result behind = behind by simp [Walk.result, pastBrace, hw],
      ends_step w r (by decide) (by decide) fun _ => hw]
    exact h hruns

/-- So is a byte of a literal. -/
theorem ends_litByte (w : Ws) {b : UInt8} (hb : isLitByte b = true) (q : Text)
    {result : Option Text} : Ends key (w.text ++ b :: q) result ↔ Ends key q result :=
  ends_skip w q (isSpace_of_isLitByte hb) (ne_of_class hb rfl) (ne_of_class hb rfl)

/-- The bytes of a literal are stepped over. -/
theorem ends_lit {t : Text} (ht : t.all isLitByte = true) (r : Text) {result : Option Text} :
    Ends key (t ++ r) result ↔ Ends key r result := by
  induction t with
  | nil => rfl
  | cons b t ih =>
      rw [List.all_cons, Bool.and_eq_true] at ht
      exact (ends_litByte Ws.none ht.1 (t ++ r)).trans (ih ht.2)

/-- What stands behind an array element: a comma or a closing bracket after white space. -/
def BehindElem (r : Text) : Prop :=
  ∃ (w : Ws) (c : UInt8) (q : Text), r = w.text ++ c :: q ∧ (c = comma ∨ c = rbracket)

/-- Behind an element. -/
theorem behindElem_tail (w : Ws) (es : List (Pad × Json)) (r : Text) :
    BehindElem (w.text ++ (renderElemTail es ++ r)) := by
  cases es with
  | nil => exact ⟨w, rbracket, r, rfl, .inr rfl⟩
  | cons e es =>
      rw [renderElemTail_cons Ws.none]
      exact ⟨w, comma, _, rfl, .inl rfl⟩

/-- A string in an array is taken for a key; there is no value behind it to be searched. -/
theorem ends_string (w' : Ws) (body : StrBody) {r : Text} (hr : BehindElem r) {result : Option Text}
    (h : Ends key r result) :
    Ends key (w'.text ++ dquote :: (body.text ++ dquote :: r)) result := by
  rcases hr with ⟨w, c, q, rfl, hc⟩
  have hplain : isSpace c = false ∧ c ≠ dquote ∧ c ≠ rbrace ∧ c ≠ colon ∧ c ≠ lbrace ∧
      c ≠ lbracket ∧ isDelim c = true := by
    rcases hc with rfl | rfl <;> decide
  rcases hplain with ⟨hspace, hquote, hbrace, hcolon, hobj, harr, hdelim⟩
  have hkey : skipKey (dquote :: (body.text ++ dquote :: (w.text ++ c :: q))) = c :: q := by
    unfold skipKey
    simp only [skipString_quoted, jsonSkipWhitespace_eq, skipSpace_append,
      skipSpace_cons_of_not hspace, skipByte, if_neg hcolon]
  have hitem : skipItem (c :: q) = skipByte comma (c :: q) := by
    unfold skipItem jsonSkipValue
    simp only [jsonSkipWhitespace_eq, skipSpace_cons_of_not hspace, if_neg hquote, if_neg hobj,
      if_neg harr, skipAtom, hdelim, if_true]
  have hsearch : Settles (fun fuel => jsonFindKeyRecursive key fuel (c :: q)) none := by
    refine settles_of_succ fun n => ?_
    simp only [jsonFindKeyRecursive, jsonSkipWhitespace_eq, skipSpace_cons_of_not hspace,
      if_neg hobj, if_neg harr]
  have hrest : Ends key (skipItem (c :: q)) result := by
    rw [ends_skip w q hspace hquote hbrace] at h
    rw [hitem]
    rcases hc with rfl | rfl
    · rwa [skipByte_self]
    · exact (ends_skip Ws.none q hspace hquote hbrace).mpr h
  refine Settles.first (fun n => ?_) hsearch fun _ => hrest
  rcases w'.head (body.text ++ dquote :: (w.text ++ c :: q)) rfl
    (fun h => absurd h (show dquote ≠ rbrace by decide)) with ⟨b, p, hp, hb⟩
  rw [hp, recurseMembers, if_neg hb, ← hp, jsonSkipWhitespace_eq, skipSpace_append,
    skipSpace_dquote]
  dsimp only
  rw [if_pos rfl, hkey]
  cases jsonFindKeyRecursive key n (c :: q) with
  | none => rfl
  | some found => cases found <;> rfl

/-! ## The search along its walk -/

/-- A round over the members. -/
theorem recurseMembers_orNext (fuel : Nat) (k : KeyTok) (v : Json) (r : Text) :
    recurseMembers key (fuel + 1) (keyText k ++ (render v ++ r)) =
      orNext (jsonFindKeyRecursive key fuel (render v ++ r))
        (recurseMembers key fuel (skipItem (render v ++ r))) := by
  rw [recurseMembers_cons]
  cases jsonFindKeyRecursive key fuel (render v ++ r) with
  | none => rfl
  | some found => cases found <;> rfl

/-- A round over the elements. -/
theorem recurseElems_orNext (fuel : Nat) (w : Ws) (v : Json) (r : Text) :
    recurseElems key (fuel + 1) (w.text ++ (render v ++ r)) =
      orNext (jsonFindKeyRecursive key fuel (render v ++ r))
        (recurseElems key fuel (skipItem (render v ++ r))) := by
  rw [recurseElems_cons]
  cases jsonFindKeyRecursive key fuel (render v ++ r) with
  | none => rfl
  | some found => cases found <;> rfl

/-- One round of a loop: the search of a value that may run on, and the rest of the loop. -/
theorem settles_round {f g h : Nat → Option (Option Text)} {a c m : Walk}
    {behind : Option Text} {P : Prop}
    (hstep : ∀ n, g (n + 1) = orNext (f n) (h n))
    (hP : ((a.through c).orElse m).runsOn = true → P)
    (hf : (a.runsOn = true → c.runsOn = true → P) → Settles f (a.result (c.result behind)))
    (hh : (m.runsOn = true → P) → Settles h (m.result behind)) :
    Settles g (((a.through c).orElse m).result behind) := by
  rw [Walk.runsOn_orElse, Walk.runsOn_through] at hP
  rw [Walk.result_orElse, Walk.result_through]
  refine Settles.first hstep (hf fun ha hc => hP (by simp [ha, hc])) fun hnone => hh fun hm => ?_
  -- nothing was found, so the walk of the rest counts
  have hfound : (a.through c).found = none := by
    rw [← Walk.result_through, Walk.result, Option.or_eq_none_iff] at hnone
    exact hnone.2
  exact hP (by simp [hfound, hm])

mutual

/-- The search of a value comes to the result of its walk. -/
theorem jsonFindKeyRecursive_walk (hkey : PlainKey key) :
    ∀ (v : Json) (r : Text) (behind : Option Text),
      ((walk key v r).runsOn = true → Ends key r behind) →
      Settles (fun fuel => jsonFindKeyRecursive key fuel (render v ++ r))
        ((walk key v r).result behind)
  | .lit tok, r, behind, _ => by
      refine settles_of_succ fun n => ?_
      rw [jsonFindKeyRecursive, jsonSkipWhitespace_eq, skipSpace_render]
      rcases tok.exists_cons with ⟨b, p, htext, hb, -⟩
      have hobj : b ≠ lbrace := ne_of_class hb rfl
      have harr : b ≠ lbracket := ne_of_class hb rfl
      rw [render, htext, List.cons_append]
      dsimp only
      rw [if_neg hobj, if_neg harr]
      rfl
  | .str body, r, behind, _ => by
      refine settles_of_succ fun n => ?_
      rw [jsonFindKeyRecursive, jsonSkipWhitespace_eq, skipSpace_render, render, List.cons_append]
      simp [walk]
  | .arr inner elems, r, behind, h => by
      rw [walk] at h ⊢
      refine (settles_succ_iff fun n => ?_).mpr (recurseElems_walk hkey inner elems r behind h)
      rw [jsonFindKeyRecursive, jsonSkipWhitespace_eq, skipSpace_render, render, List.cons_append]
      dsimp only
      rw [if_neg (by simp), if_pos rfl]
  | .obj inner members, r, behind, h => by
      have hround : ∀ n, jsonFindKeyRecursive key (n + 1) (render (.obj inner members) ++ r) =
          match (lookup key members r).map Located.text with
          | some val => some (some val)
          | none => recurseMembers key n (renderMembers inner members ++ r) := by
        intro n
        have hfind := jsonFindKey_render hkey (.obj inner members) r
        rw [jsonFindKeyRecursive, jsonSkipWhitespace_eq, skipSpace_render]
        rw [render, List.cons_append] at hfind ⊢
        dsimp only
        rw [if_pos rfl, hfind]
        rfl
      rw [walk] at h ⊢
      cases hlookup : lookup key members r with
      | some l =>
          refine settles_of_succ fun n => ?_
          rw [hround, hlookup]
          rfl
      | none =>
          rw [hlookup] at h
          refine (settles_succ_iff fun n => ?_).mpr
            (recurseMembers_walk hkey inner members r behind h)
          rw [hround, hlookup]
          rfl

/-- The member loop comes to the result of its walk. -/
theorem recurseMembers_walk (hkey : PlainKey key) (w : Ws) :
    ∀ (ms : List (KeyTok × Json)) (r : Text) (behind : Option Text),
      ((walkMembers key w ms r).runsOn = true → Ends key r behind) →
      Ends key (renderMembers w ms ++ r) ((walkMembers key w ms r).result behind)
  | [], r, behind, h => by
      rw [walkMembers] at h ⊢
      rw [renderMembers, List.append_assoc]
      exact ends_pastBrace w h
  | (k, v) :: ms, r, behind, h => by
      rw [walkMembers] at h ⊢
      rw [renderMembers]
      simp only [List.append_assoc]
      refine settles_round (fun n => recurseMembers_orNext n k v _) h (fun hruns => ?_)
        fun hruns => ?_
      · refine jsonFindKeyRecursive_walk hkey v _ _ fun ha => ?_
        -- behind the value the loop meets the end of the object or steps over a comma
        have hrest := recurseMembers_walk hkey k.trail ms r behind (hruns ha)
        cases ms with
        | nil => simpa [renderMembers, renderMemberTail] using hrest
        | cons m ms =>
            rw [renderMemberTail_cons k.trail, List.cons_append]
            exact (ends_skip k.trail _ (by decide) (by decide) (by decide)).mpr hrest
      · rw [skipItem_member]
        exact recurseMembers_walk hkey Ws.none ms r behind hruns

/-- The element loop comes to the result of its walk. -/
theorem recurseElems_walk (hkey : PlainKey key) (inner : Ws) :
    ∀ (es : List (Pad × Json)) (r : Text) (behind : Option Text),
      ((walkElems key es r).runsOn = true → Ends key r behind) →
      Settles (fun fuel => recurseElems key fuel (renderElems inner es ++ r))
        ((walkElems key es r).result behind)
  | [], r, behind, _ => by
      refine settles_of_succ fun n => ?_
      rw [renderElems, List.append_assoc, recurseElems.eq_def]
      dsimp only
      split
      · rfl
      · split
        · rfl
        · rw [jsonSkipWhitespace_eq, skipSpace_append, List.singleton_append,
            skipSpace_cons_of_not (by decide)]
          simp [walkElems]
  | (p, v) :: es, r, behind, h => by
      rw [walkElems] at h ⊢
      rw [renderElems]
      simp only [List.append_assoc]
      refine settles_round (fun n => recurseElems_orNext n p.before v _) h (fun hruns => ?_)
        fun hruns => ?_
      · refine jsonFindKeyRecursive_walk hkey v _ _ fun ha => ?_
        exact strayElems_walk hkey p.after es r behind (hruns ha)
      · rw [skipItem_elem]
        exact recurseElems_walk hkey Ws.none es r behind hruns

/-- A member loop that has run on into an array. -/
theorem strayElems_walk (hkey : PlainKey key) (w : Ws) :
    ∀ (es : List (Pad × Json)) (r : Text) (behind : Option Text),
      ((strayElems key es r).runsOn = true → Ends key r behind) →
      Ends key (w.text ++ (renderElemTail es ++ r)) ((strayElems key es r).result behind)
  | [], r, behind, h => by
      rw [strayElems] at h ⊢
      rw [Walk.result_onward, renderElemTail]
      exact (ends_skip w r (by decide) (by decide) (by decide)).mpr (h rfl)
  | (p, v) :: es, r, behind, h => by
      rw [strayElems] at h ⊢
      rw [Walk.runsOn_through, Bool.and_eq_true] at h
      rw [Walk.result_through, renderElemTail, List.cons_append,
        ends_skip w _ (by decide) (by decide) (by decide)]
      simp only [List.append_assoc]
      refine stray_walk hkey p.before v _ _ (behindElem_tail p.after es r) fun ha => ?_
      exact strayElems_walk hkey p.after es r behind fun hc => h ⟨ha, hc⟩

/-- A member loop that comes to an element of an array. -/
theorem stray_walk (hkey : PlainKey key) (w : Ws) :
    ∀ (v : Json) (r : Text) (behind : Option Text), BehindElem r →
      ((stray key v r).runsOn = true → Ends key r behind) →
      Ends key (w.text ++ (render v ++ r)) ((stray key v r).result behind)
  | .lit tok, r, behind, _, h => by
      rw [stray] at h ⊢
      rw [Walk.result_onward, render]
      rcases tok.exists_cons with ⟨b, p, htext, hb, hp⟩
      rw [htext, List.cons_append, ends_litByte w hb]
      exact (ends_lit hp r).mpr (h rfl)
  | .str body, r, behind, hr, h => by
      rw [stray] at h ⊢
      rw [Walk.result_onward, render, List.cons_append, List.append_assoc]
      exact ends_string w body hr (h rfl)
  | .arr inner elems, r, behind, _, h => by
      rw [stray] at h ⊢
      rw [render, List.cons_append, ends_skip w _ (by decide) (by decide) (by decide)]
      have hrest := strayElems_walk hkey Ws.none elems r behind h
      rw [Ws.none_text, List.nil_append] at hrest
      cases elems with
      | nil =>
          rw [renderElems, List.append_assoc]
          refine (ends_skip inner r (by decide) (by decide) (by decide)).mpr ?_
          exact (ends_skip Ws.none r (by decide) (by decide) (by decide)).mp hrest
      | cons e es =>
          rw [renderElemTail_cons inner] at hrest
          exact (ends_skip Ws.none _ (by decide) (by decide) (by decide)).mp hrest
  | .obj inner members, r, behind, _, h => by
      rw [stray] at h ⊢
      rw [render, List.cons_append, ends_skip w _ (by decide) (by decide) (by decide)]
      exact recurseMembers_walk hkey inner members r behind h

end

end Sharegres
