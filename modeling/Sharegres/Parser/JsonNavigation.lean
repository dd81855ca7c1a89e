import Sharegres.Parser.JsonUtil

/-!
# Parser - The navigator on well-formed documents

On the text of a JSON value the navigator of {lit}`json_util.c` computes the
operations of the value: it finds the members the value has, and a position it
returns is the place of the value found.  What follows the value in the document
is arbitrary as long as it can follow a value.

Main results:

- Theorem {lit}`jsonSkipValue_render`: skipping a value lands behind it.
- Theorem {lit}`jsonFindKey_render`: member lookup.
- Theorem {lit}`jsonFindKeyRecursive_render`: search at any depth, with a bound
  on the fuel, in documents without white space in empty objects.
- Theorem {lit}`jsonFindAllValues_render`: the linear scan collects the members
  of a value and goes on behind it.
-/

namespace Sharegres

open Foundation Foundation.Json

variable {v : Json} {key r t : Text}

/-! ## Strings and white space -/

@[simp]
theorem jsonSkipWhitespace_eq (p : Text) : jsonSkipWhitespace p = skipSpace p := rfl

@[simp]
theorem skipByte_self (b : UInt8) (p : Text) : skipByte b (b :: p) = p := by
  simp [skipByte]

/-- A string ends with its quote. -/
theorem scanString_body {body : Text} (hbody : wellEscaped body = true) (r : Text) :
    scanString (body ++ dquote :: r) = dquote :: r := by
  induction body using wellEscaped.induct with
  | case1 => simp [scanString_cons]
  | case2 p => simp [wellEscaped_cons] at hbody
  | case3 h => simp [wellEscaped_cons] at hbody
  | case4 c q h ih =>
      rw [wellEscaped_cons, if_neg h, if_pos rfl] at hbody
      rw [List.cons_append, scanString_cons, if_neg h, if_pos rfl]
      exact ih hbody
  | case5 b p hq hb ih =>
      rw [wellEscaped_cons, if_neg hq, if_neg hb] at hbody
      rw [List.cons_append, scanString_cons, if_neg hq, if_neg hb]
      exact ih hbody

/-- A string is skipped. -/
@[simp]
theorem skipString_quoted (body : StrBody) (r : Text) :
    skipString (dquote :: (body.text ++ dquote :: r)) = r := by
  rw [skipString, if_pos rfl, scanString_body body.escaped, skipByte_self]

/-- The raw text of a string value is read back. -/
theorem jsonGetString_render (body : StrBody) (r : Text) :
    jsonGetString (render (.str body) ++ r) = some body.text := by
  unfold jsonGetString
  rw [jsonSkipWhitespace_eq, skipSpace_render, render, List.cons_append, List.append_assoc]
  simp only [↓reduceIte, List.singleton_append, scanString_body body.escaped]
  simp

/-- Only strings are read as strings. -/
theorem jsonGetString_not_string (hv : ∀ body, v ≠ .str body) (r : Text) :
    jsonGetString (render v ++ r) = none := by
  unfold jsonGetString
  rw [jsonSkipWhitespace_eq, skipSpace_render]
  cases v with
  | str body => exact absurd rfl (hv body)
  | lit tok =>
      rcases tok.exists_cons with ⟨b, p, htext, hb, -⟩
      simp [render, htext, show ¬b = 34 from ne_of_class hb rfl]
  | arr inner es => simp [render]
  | obj inner ms => simp [render]

/-! ## Skipping nested values -/

/-- Text over which the bracket counter comes out with the depth it had. -/
def Passes (opening closing : UInt8) (t : Text) : Prop :=
  ∀ depth r, skipNested opening closing (depth + 1) (t ++ r) =
    skipNested opening closing (depth + 1) r

/-- The two pairs of brackets that {lit}`json_skip_value` counts. -/
def Brackets (opening closing : UInt8) : Prop :=
  (opening = lbrace ∧ closing = rbrace) ∨ (opening = lbracket ∧ closing = rbracket)

section Passes

variable {opening closing : UInt8}

theorem passes_nil : Passes opening closing [] := by
  intro depth r
  rfl

/-- Two texts, one behind the other. -/
theorem Passes.append {s t : Text} (hs : Passes opening closing s)
    (ht : Passes opening closing t) : Passes opening closing (s ++ t) := by
  intro depth r
  rw [List.append_assoc, hs, ht]

/-- A byte that is no bracket and no quote. -/
theorem passes_cons {b : UInt8} (ho : b ≠ opening) (hc : b ≠ closing) (hq : b ≠ dquote)
    (ht : Passes opening closing t) :
    Passes opening closing (b :: t) := by
  intro depth r
  rw [List.cons_append, skipNested_cons, if_neg ho, if_neg hc, if_neg hq, ht]

/-- A string, whatever it contains. -/
theorem passes_quoted (hB : Brackets opening closing) (body : StrBody)
    (ht : Passes opening closing t) :
    Passes opening closing (dquote :: (body.text ++ dquote :: t)) := by
  have hq : dquote ≠ opening ∧ dquote ≠ closing := by
    rcases hB with ⟨rfl, rfl⟩ | ⟨rfl, rfl⟩ <;> simp
  intro depth r
  rw [List.cons_append, skipNested_cons, if_neg hq.1, if_neg hq.2, if_pos rfl,
    List.append_assoc, List.cons_append, skipString_quoted, ht]

/-- A balanced text inside one more pair of the counted brackets is balanced. -/
theorem passes_wrap (hB : Brackets opening closing) (ht : Passes opening closing t) :
    Passes opening closing (opening :: (t ++ [closing])) := by
  have hne : closing ≠ opening := by
    rcases hB with ⟨rfl, rfl⟩ | ⟨rfl, rfl⟩ <;> simp
  intro depth r
  rw [List.cons_append, skipNested_cons, if_pos rfl, List.append_assoc, ht,
    List.singleton_append, skipNested_cons, if_neg hne, if_pos rfl]

/-- A text without brackets and quotes. -/
theorem passes_of_forall (hB : Brackets opening closing)
    (ht : ∀ b ∈ t, b ≠ lbrace ∧ b ≠ rbrace ∧ b ≠ lbracket ∧ b ≠ rbracket ∧ b ≠ dquote) :
    Passes opening closing t := by
  induction t with
  | nil => exact passes_nil
  | cons b t ih =>
      have hb := ht b List.mem_cons_self
      have hrest := ih (fun c hc => ht c (List.mem_cons_of_mem _ hc))
      rcases hB with ⟨rfl, rfl⟩ | ⟨rfl, rfl⟩
      · exact passes_cons hb.1 hb.2.1 hb.2.2.2.2 hrest
      · exact passes_cons hb.2.2.1 hb.2.2.2.1 hb.2.2.2.2 hrest

theorem passes_ws (hB : Brackets opening closing) (w : Ws) :
    Passes opening closing w.text := by
  apply passes_of_forall hB
  intro b hb
  have hs := List.all_eq_true.mp w.spaces b hb
  exact ⟨ne_of_class hs rfl, ne_of_class hs rfl, ne_of_class hs rfl, ne_of_class hs rfl,
    ne_of_class hs rfl⟩

theorem passes_lit (hB : Brackets opening closing) (tok : Lit) :
    Passes opening closing tok.text := by
  apply passes_of_forall hB
  intro b hb
  have hs := List.all_eq_true.mp tok.plain b hb
  exact ⟨ne_of_class hs rfl, ne_of_class hs rfl, ne_of_class hs rfl, ne_of_class hs rfl,
    ne_of_class hs rfl⟩

/-- A key and its colon. -/
theorem passes_keyText (hB : Brackets opening closing) (k : KeyTok) :
    Passes opening closing (keyText k) := by
  have hcolon : Passes opening closing (colon :: k.gap.text) := by
    rcases hB with ⟨rfl, rfl⟩ | ⟨rfl, rfl⟩
    · exact passes_cons (by simp) (by simp) (by simp) (passes_ws (.inl ⟨rfl, rfl⟩) _)
    · exact passes_cons (by simp) (by simp) (by simp) (passes_ws (.inr ⟨rfl, rfl⟩) _)
  exact (passes_ws hB _).append (passes_quoted hB _ ((passes_ws hB _).append hcolon))

private theorem passes_comma (hB : Brackets opening closing) (ht : Passes opening closing t) :
    Passes opening closing (comma :: t) := by
  rcases hB with ⟨rfl, rfl⟩ | ⟨rfl, rfl⟩
  · exact passes_cons (by simp) (by simp) (by simp) ht
  · exact passes_cons (by simp) (by simp) (by simp) ht

/-- Brackets of either kind around a balanced text leave it balanced. -/
private theorem passes_brackets {o c : UInt8} (hB : Brackets opening closing) (hoc : Brackets o c)
    (ht : Passes opening closing t) :
    Passes opening closing (o :: (t ++ [c])) := by
  rcases hB with ⟨rfl, rfl⟩ | ⟨rfl, rfl⟩ <;> rcases hoc with ⟨rfl, rfl⟩ | ⟨rfl, rfl⟩
  · exact passes_wrap (.inl ⟨rfl, rfl⟩) ht
  · exact passes_cons (by simp) (by simp) (by simp)
      (ht.append (passes_cons (by simp) (by simp) (by simp) passes_nil))
  · exact passes_cons (by simp) (by simp) (by simp)
      (ht.append (passes_cons (by simp) (by simp) (by simp) passes_nil))
  · exact passes_wrap (.inr ⟨rfl, rfl⟩) ht

mutual

/-- The rendering of a value is balanced. -/
theorem passes_render (hB : Brackets opening closing) :
    ∀ v : Json, Passes opening closing (render v)
  | .lit tok => by
      rw [render]
      exact passes_lit hB tok
  | .str body => by
      rw [render]
      exact passes_quoted hB body passes_nil
  | .arr inner elems => by
      rcases passes_elems hB inner elems with ⟨t, ht, hpass⟩
      rw [render, ht]
      exact passes_brackets hB (.inr ⟨rfl, rfl⟩) hpass
  | .obj inner members => by
      rcases passes_members hB inner members with ⟨t, ht, hpass⟩
      rw [render, ht]
      exact passes_brackets hB (.inl ⟨rfl, rfl⟩) hpass

/-- The inside of an array is balanced up to its closing bracket. -/
theorem passes_elems (hB : Brackets opening closing) (inner : Ws) :
    ∀ es : List (Pad × Json),
      ∃ t, renderElems inner es = t ++ [rbracket] ∧ Passes opening closing t
  | [] => ⟨inner.text, by rw [renderElems], passes_ws hB inner⟩
  | (p, v) :: es => by
      rcases passes_elemTail hB es with ⟨t, ht, hpass⟩
      refine ⟨p.before.text ++ (render v ++ (p.after.text ++ t)), ?_, ?_⟩
      · rw [renderElems, ht]
        simp
      · exact (passes_ws hB _).append
          ((passes_render hB v).append ((passes_ws hB _).append hpass))

/-- What follows an element is balanced up to the closing bracket. -/
theorem passes_elemTail (hB : Brackets opening closing) :
    ∀ es : List (Pad × Json),
      ∃ t, renderElemTail es = t ++ [rbracket] ∧ Passes opening closing t
  | [] => ⟨[], by rw [renderElemTail]; rfl, passes_nil⟩
  | (p, v) :: es => by
      rcases passes_elemTail hB es with ⟨t, ht, hpass⟩
      refine ⟨comma :: (p.before.text ++ (render v ++ (p.after.text ++ t))), ?_, ?_⟩
      · rw [renderElemTail, ht]
        simp
      · exact passes_comma hB ((passes_ws hB _).append
          ((passes_render hB v).append ((passes_ws hB _).append hpass)))

/-- The inside of an object is balanced up to its closing brace. -/
theorem passes_members (hB : Brackets opening closing) (inner : Ws) :
    ∀ ms : List (KeyTok × Json),
      ∃ t, renderMembers inner ms = t ++ [rbrace] ∧ Passes opening closing t
  | [] => ⟨inner.text, by rw [renderMembers], passes_ws hB inner⟩
  | (k, v) :: ms => by
      rcases passes_memberTail hB ms with ⟨t, ht, hpass⟩
      refine ⟨keyText k ++ (render v ++ (k.trail.text ++ t)), ?_, ?_⟩
      · rw [renderMembers, ht]
        simp
      · exact (passes_keyText hB k).append
          ((passes_render hB v).append ((passes_ws hB _).append hpass))

/-- What follows a member is balanced up to the closing brace. -/
theorem passes_memberTail (hB : Brackets opening closing) :
    ∀ ms : List (KeyTok × Json),
      ∃ t, renderMemberTail ms = t ++ [rbrace] ∧ Passes opening closing t
  | [] => ⟨[], by rw [renderMemberTail]; rfl, passes_nil⟩
  | (k, v) :: ms => by
      rcases passes_memberTail hB ms with ⟨t, ht, hpass⟩
      refine ⟨comma :: (keyText k ++ (render v ++ (k.trail.text ++ t))), ?_, ?_⟩
      · rw [renderMemberTail, ht]
        simp
      · exact passes_comma hB ((passes_keyText hB k).append
          ((passes_render hB v).append ((passes_ws hB _).append hpass)))

end

/-- From inside a bracketed text the counter stops behind its closing bracket. -/
theorem skipNested_close (hB : Brackets opening closing) (ht : Passes opening closing t)
    (r : Text) :
    skipNested opening closing 1 (t ++ [closing] ++ r) = r := by
  have hne : closing ≠ opening := by
    rcases hB with ⟨rfl, rfl⟩ | ⟨rfl, rfl⟩ <;> simp
  rw [List.append_assoc, ht 0, List.singleton_append, skipNested_cons, if_neg hne, if_pos rfl,
    skipNested_zero]

end Passes

/-! ## Skipping a value -/

/-- A number, {lit}`true`, {lit}`false` or {lit}`null`. -/
theorem skipAtom_lit (tok : Text) (htok : tok.all isLitByte = true) (hr : Follows r) :
    skipAtom (tok ++ r) = r := by
  induction tok with
  | nil =>
      cases r with
      | nil => rfl
      | cons b r =>
          have hb : isDelim b = true := by simpa [Follows] using hr
          rw [List.nil_append, skipAtom, if_pos hb]
  | cons b tok ih =>
      simp only [List.all_cons, Bool.and_eq_true] at htok
      rw [List.cons_append, skipAtom, if_neg (by simp [isDelim_of_isLitByte htok.1])]
      exact ih htok.2

/-- Skipping a value lands exactly behind it. -/
theorem jsonSkipValue_render (v : Json) (hr : Follows r) :
    jsonSkipValue (render v ++ r) = r := by
  unfold jsonSkipValue
  rw [jsonSkipWhitespace_eq, skipSpace_render]
  cases v with
  | lit tok =>
      rcases tok.exists_cons with ⟨b, p, htext, hb, -⟩
      have hquote : b ≠ dquote := ne_of_class hb rfl
      have hobj : b ≠ lbrace := ne_of_class hb rfl
      have harr : b ≠ lbracket := ne_of_class hb rfl
      have hskip := skipAtom_lit tok.text tok.plain hr
      rw [htext, List.cons_append] at hskip
      rw [render, htext, List.cons_append]
      dsimp only
      rw [if_neg hquote, if_neg hobj, if_neg harr]
      exact hskip
  | str body =>
      rw [render, List.cons_append, List.append_assoc]
      exact skipString_quoted body r
  | arr inner elems =>
      rcases passes_elems (.inr ⟨rfl, rfl⟩) inner elems with ⟨t, ht, hpass⟩
      rw [render, ht, List.cons_append]
      dsimp only
      rw [if_neg (by simp), if_neg (by simp), if_pos rfl]
      exact skipNested_close (.inr ⟨rfl, rfl⟩) hpass r
  | obj inner members =>
      rcases passes_members (.inl ⟨rfl, rfl⟩) inner members with ⟨t, ht, hpass⟩
      rw [render, ht, List.cons_append]
      dsimp only
      rw [if_neg (by simp), if_pos rfl]
      exact skipNested_close (.inl ⟨rfl, rfl⟩) hpass r

/-- White space in front of a value, and the value, are skipped up to the text behind it, and so
is a string from its opening quote on. -/
theorem value_skipped_exactly :
    (∀ (w : Ws) (v : Json) (r : Text), Follows r →
      jsonSkipValue (w.text ++ (render v ++ r)) = r) ∧
    ∀ (body : StrBody) (r : Text), skipString (render (.str body) ++ r) = r := by
  constructor
  · intro w v r hr
    have hws : jsonSkipValue (w.text ++ (render v ++ r)) = jsonSkipValue (render v ++ r) := by
      unfold jsonSkipValue
      rw [jsonSkipWhitespace_eq, jsonSkipWhitespace_eq, skipSpace_append]
    rw [hws]
    exact jsonSkipValue_render v hr
  · intro body r
    rw [render, List.cons_append, List.append_assoc]
    exact skipString_quoted body r

/-- The brackets in a string, and a quote behind a backslash, are passed over. -/
theorem brackets_in_string_skipped :
    jsonSkipValue (ascii "  [\"]\\\"[\" , \x7b \x7d]\x7d") = ascii "\x7d" :=
  value_skipped_exactly.1 ⟨ascii "  ", by simp [ascii, isSpace]⟩
    (.arr Ws.none
      [(⟨Ws.none, ⟨ascii " ", by simp [ascii, isSpace]⟩⟩,
          .str ⟨ascii "]\\\"[", by simp [ascii, wellEscaped]⟩),
        (⟨⟨ascii " ", by simp [ascii, isSpace]⟩, Ws.none⟩,
          .obj ⟨ascii " ", by simp [ascii, isSpace]⟩ [])])
    (ascii "\x7d") (by simp [ascii, Follows, isDelim])

/-- From a member value to the next key or the closing brace. -/
theorem skipItem_member (v : Json) (w : Ws) (ms : List (KeyTok × Json)) (r : Text) :
    skipItem (render v ++ (w.text ++ (renderMemberTail ms ++ r))) =
      renderMembers Ws.none ms ++ r := by
  unfold skipItem
  rw [jsonSkipValue_render v (follows_ws_append w (follows_memberTail ms r)),
    jsonSkipWhitespace_eq, skipSpace_append]
  cases ms with
  | nil =>
      rw [renderMemberTail, renderMembers, List.singleton_append, skipSpace_cons_of_not (by decide)]
      simp [skipByte, Ws.none]
  | cons m ms =>
      rw [renderMemberTail_cons Ws.none, List.cons_append, skipSpace_cons_of_not (by decide),
        skipByte_self]

/-- From an element to the next element or the closing bracket. -/
theorem skipItem_elem (v : Json) (w : Ws) (es : List (Pad × Json)) (r : Text) :
    skipItem (render v ++ (w.text ++ (renderElemTail es ++ r))) =
      renderElems Ws.none es ++ r := by
  unfold skipItem
  rw [jsonSkipValue_render v (follows_ws_append w (follows_elemTail es r)),
    jsonSkipWhitespace_eq, skipSpace_append]
  cases es with
  | nil =>
      rw [renderElemTail, renderElems, List.singleton_append, skipSpace_cons_of_not (by decide)]
      simp [skipByte, Ws.none]
  | cons e es =>
      rw [renderElemTail_cons Ws.none, List.cons_append, skipSpace_cons_of_not (by decide),
        skipByte_self]

/-! ## Member lookup -/

/-- A key is matched with its quote. -/
theorem matchesKey_body (hkey : PlainKey key) (body : StrBody) (r : Text) :
    matchesKey key (body.text ++ dquote :: r) = true ↔ body.text = key :=
  eq_of_wellEscaped_append hkey body.escaped

/-- A key of an object from its quote on, with the text behind it. -/
private theorem keyText_append (k : KeyTok) (p : Text) :
    keyText k ++ p = k.before.text ++ dquote :: (k.body.text ++ dquote :: (k.after.text ++
      colon :: (k.gap.text ++ p))) := by
  simp [keyText]

private theorem skipSpace_colon (p : Text) : skipSpace (colon :: p) = colon :: p :=
  skipSpace_cons_of_not (by decide)

theorem skipSpace_dquote (p : Text) : skipSpace (dquote :: p) = dquote :: p :=
  skipSpace_cons_of_not (by decide)

/-- From the quote of a key to its value. -/
theorem skipKey_keyText (k : KeyTok) (v : Json) (r : Text) :
    skipKey (dquote :: (k.body.text ++ dquote :: (k.after.text ++
      colon :: (k.gap.text ++ (render v ++ r))))) = render v ++ r := by
  unfold skipKey
  rw [skipString_quoted]
  simp only [jsonSkipWhitespace_eq, skipSpace_append, skipSpace_colon, skipByte_self,
    skipSpace_render]

private theorem drop_quoted (key r : Text) :
    (key ++ dquote :: r).drop (key.length + 1) = r := by
  rw [← List.drop_drop, List.drop_left, List.drop_one, List.tail_cons]

/-- The first byte of the inside of an object with members is not its end. -/
private theorem keyText_head (k : KeyTok) (p : Text) :
    ∃ b q, keyText k ++ p = b :: q ∧ b ≠ rbrace := by
  rw [keyText_append]
  exact k.before.head _ rfl fun h => absurd h (by decide)

/-- The member loop on the inside of an object. -/
theorem findKeyFrom_render (hkey : PlainKey key) (inner : Ws) (ms : List (KeyTok × Json))
    (r : Text) :
    findKeyFrom key (renderMembers inner ms ++ r) = (lookup key ms r).map Located.text := by
  induction ms generalizing inner with
  | nil =>
      rw [renderMembers, lookup, Option.map_none, findKeyFrom_eq, List.append_assoc]
      split
      · rfl
      · split
        · rfl
        · rw [jsonSkipWhitespace_eq, skipSpace_append, List.singleton_append,
            skipSpace_cons_of_not (by decide)]
          simp
  | cons m ms ih =>
      rcases m with ⟨k, v⟩
      rw [renderMembers, List.append_assoc]
      rcases keyText_head k ((render v ++ (k.trail.text ++ renderMemberTail ms)) ++ r) with
        ⟨b, q, hq, hb⟩
      rw [findKeyFrom_eq, hq]
      dsimp only
      rw [if_neg hb, ← hq, keyText_append, jsonSkipWhitespace_eq, skipSpace_append,
        skipSpace_dquote]
      dsimp only
      rw [if_pos rfl]
      unfold lookup
      by_cases hmatch : k.body.text = key
      · rw [if_pos ((matchesKey_body hkey k.body _).mpr hmatch), if_pos hmatch, ← hmatch,
          drop_quoted]
        simp only [jsonSkipWhitespace_eq, skipSpace_append, skipSpace_colon, skipByte_self,
          List.append_assoc, skipSpace_render, Option.map_some, Located.text]
      · rw [if_neg (fun h => hmatch ((matchesKey_body hkey k.body _).mp h)), if_neg hmatch]
        simp only [List.append_assoc]
        rw [skipKey_keyText, skipItem_member, ih]

/-- Member lookup in a document finds the member of the value that starts there. -/
theorem jsonFindKey_render (hkey : PlainKey key) (v : Json) (r : Text) :
    jsonFindKey (render v ++ r) key = (member key v r).map Located.text := by
  unfold jsonFindKey
  rw [jsonSkipWhitespace_eq, skipSpace_render]
  cases v with
  | lit tok =>
      rcases tok.exists_cons with ⟨b, p, htext, hb, -⟩
      simp [render, member, htext, show ¬b = 123 from ne_of_class hb rfl]
  | str body => simp [render, member]
  | arr inner elems => simp [render, member]
  | obj inner members =>
      rw [render, List.cons_append]
      dsimp only
      rw [if_pos rfl, findKeyFrom_render hkey, member]

/-- The first key of an object decides {lit}`json_starts_with_key`. -/
theorem jsonStartsWithKey_render (hkey : PlainKey key) (inner : Ws) (k : KeyTok) (v : Json)
    (ms : List (KeyTok × Json)) (r : Text) :
    jsonStartsWithKey (render (.obj inner ((k, v) :: ms)) ++ r) key =
      decide (k.body.text = key) := by
  unfold jsonStartsWithKey
  rw [jsonSkipWhitespace_eq, skipSpace_render, render, renderMembers, List.cons_append]
  dsimp only
  rw [if_pos rfl, List.append_assoc, keyText_append, jsonSkipWhitespace_eq, skipSpace_append,
    skipSpace_dquote]
  dsimp only
  rw [if_pos rfl, Bool.eq_iff_iff, decide_eq_true_iff]
  exact matchesKey_body hkey k.body _

/-! ## Search at any depth -/

/-- A member of the recursive search. -/
theorem recurseMembers_cons (fuel : Nat) (k : KeyTok) (v : Json) (r : Text) :
    recurseMembers key (fuel + 1) (keyText k ++ (render v ++ r)) =
      match jsonFindKeyRecursive key fuel (render v ++ r) with
      | none => none
      | some (some found) => some (some found)
      | some none => recurseMembers key fuel (skipItem (render v ++ r)) := by
  rcases keyText_head k (render v ++ r) with ⟨b, q, hq, hb⟩
  rw [hq, recurseMembers]
  rw [if_neg hb, ← hq, keyText_append, jsonSkipWhitespace_eq, skipSpace_append, skipSpace_dquote]
  dsimp only
  rw [skipKey_keyText]
  exact if_pos rfl

/-- The first byte of an element with the white space before it is not the end of
the array. -/
theorem ws_render_head (w : Ws) (v : Json) (r : Text) :
    ∃ b q, w.text ++ (render v ++ r) = b :: q ∧ b ≠ rbracket := by
  rcases render_head v with ⟨c, p, hv, -, hc, -⟩
  rw [hv, List.cons_append]
  exact w.head _ rfl fun h => absurd h hc

/-- An element of the recursive search. -/
theorem recurseElems_cons (fuel : Nat) (w : Ws) (v : Json) (r : Text) :
    recurseElems key (fuel + 1) (w.text ++ (render v ++ r)) =
      match jsonFindKeyRecursive key fuel (render v ++ r) with
      | none => none
      | some (some found) => some (some found)
      | some none => recurseElems key fuel (skipItem (render v ++ r)) := by
  rcases render_head v with ⟨c, p, hv, hs, hc, -⟩
  rcases ws_render_head w v r with ⟨b, q, hq, hb⟩
  rw [hq, recurseElems]
  rw [if_neg hb, ← hq, jsonSkipWhitespace_eq, skipSpace_append, skipSpace_render, hv,
    List.cons_append]
  exact if_neg hc

theorem renderElems_length_le (es : List (Pad × Json)) :
    (renderElems Ws.none es).length ≤ (renderElemTail es).length := by
  cases es with
  | nil => simp [renderElems, renderElemTail, Ws.none]
  | cons e es => simp [renderElemTail_cons Ws.none]

mutual

/-- Search at any depth terminates and finds the first member in depth-first
order.  Behind an empty object with white space between its braces the source
walks on into the text that follows, so such objects are excluded. -/
theorem jsonFindKeyRecursive_render (hkey : PlainKey key) :
    ∀ (v : Json) (r : Text) (fuel : Nat), tight v = true → 2 * (render v).length ≤ fuel →
      jsonFindKeyRecursive key fuel (render v ++ r) = some ((search key v r).map Located.text)
  | .lit tok, r, 0, _, hfuel => by
      rw [Nat.le_zero, Nat.mul_eq_zero] at hfuel
      rcases hfuel with hfuel | hfuel
      · exact absurd hfuel (by simp)
      · exact absurd (List.eq_nil_of_length_eq_zero hfuel) (render_ne_nil _)
  | .lit tok, r, fuel + 1, _, _ => by
      rw [jsonFindKeyRecursive, jsonSkipWhitespace_eq, skipSpace_render, search]
      rcases tok.exists_cons with ⟨b, p, htext, hb, -⟩
      have hobj : b ≠ lbrace := ne_of_class hb rfl
      have harr : b ≠ lbracket := ne_of_class hb rfl
      rw [render, htext, List.cons_append]
      dsimp only
      rw [if_neg hobj, if_neg harr]
      rfl
  | .str body, r, 0, _, hfuel => by simp [render] at hfuel
  | .str body, r, fuel + 1, _, _ => by
      rw [jsonFindKeyRecursive, jsonSkipWhitespace_eq, skipSpace_render, search, render,
        List.cons_append]
      simp
  | .arr inner elems, r, 0, _, hfuel => by simp [render] at hfuel
  | .arr inner elems, r, fuel + 1, htight, hfuel => by
      rw [render, List.length_cons] at hfuel
      rw [jsonFindKeyRecursive, jsonSkipWhitespace_eq, skipSpace_render, search, render,
        List.cons_append]
      dsimp only
      rw [if_neg (by simp), if_pos rfl]
      rw [tight] at htight
      exact recurseElems_render hkey inner elems r fuel htight (by omega)
  | .obj inner members, r, 0, _, hfuel => by simp [render] at hfuel
  | .obj inner members, r, fuel + 1, htight, hfuel => by
      rw [jsonFindKeyRecursive, jsonSkipWhitespace_eq, skipSpace_render, search]
      have hfind := jsonFindKey_render hkey (.obj inner members) r
      rw [render, List.length_cons] at hfuel
      rw [render, List.cons_append] at hfind ⊢
      dsimp only
      rw [if_pos rfl, hfind, member]
      cases lookup key members r with
      | some l => rfl
      | none =>
          rw [tight, Bool.and_eq_true] at htight
          refine recurseMembers_render hkey inner members r fuel ?_ htight.2 (by omega)
          rintro rfl
          simpa using htight.1

/-- The loop over the elements of an array. -/
theorem recurseElems_render (hkey : PlainKey key) (inner : Ws) :
    ∀ (es : List (Pad × Json)) (r : Text) (fuel : Nat), tightElems es = true →
      2 * (renderElems inner es).length ≤ fuel + 1 →
      recurseElems key fuel (renderElems inner es ++ r) =
        some ((searchElems key es r).map Located.text)
  | [], r, 0, _, hfuel => by simp [renderElems] at hfuel; omega
  | [], r, fuel + 1, _, _ => by
      rw [renderElems, searchElems, List.append_assoc, Option.map_none, recurseElems.eq_def]
      dsimp only
      split
      · rfl
      · split
        · rfl
        · rw [jsonSkipWhitespace_eq, skipSpace_append, List.singleton_append,
            skipSpace_cons_of_not (by decide)]
          simp
  | (p, v) :: es, r, 0, _, hfuel => by
      have hv := List.length_pos_iff.mpr (render_ne_nil v)
      have hes := elemTail_length_pos es
      simp only [renderElems, List.length_append] at hfuel
      omega
  | (p, v) :: es, r, fuel + 1, htight, hfuel => by
      have hv := List.length_pos_iff.mpr (render_ne_nil v)
      have hes := elemTail_length_pos es
      have htail := renderElems_length_le es
      simp only [renderElems, List.length_append] at hfuel
      rw [tightElems, Bool.and_eq_true] at htight
      rw [renderElems, searchElems]
      simp only [List.append_assoc]
      rw [recurseElems_cons, jsonFindKeyRecursive_render hkey v _ fuel htight.1 (by omega)]
      cases search key v (p.after.text ++ (renderElemTail es ++ r)) with
      | some l => rfl
      | none =>
          simp only [Option.map_none]
          rw [skipItem_elem]
          exact recurseElems_render hkey Ws.none es r fuel htight.2 (by omega)

/-- The loop over the values of an object. -/
theorem recurseMembers_render (hkey : PlainKey key) (inner : Ws) :
    ∀ (ms : List (KeyTok × Json)) (r : Text) (fuel : Nat),
      (ms = [] → inner.text = []) → tightMembers ms = true →
      2 * (renderMembers inner ms).length ≤ fuel + 1 →
      recurseMembers key fuel (renderMembers inner ms ++ r) =
        some ((searchMembers key ms r).map Located.text)
  | [], r, 0, _, _, hfuel => by simp [renderMembers] at hfuel; omega
  | [], r, fuel + 1, hinner, _, _ => by
      rw [renderMembers, searchMembers, hinner rfl, List.nil_append, List.singleton_append,
        recurseMembers, if_pos rfl, Option.map_none]
  | (k, v) :: ms, r, 0, _, _, hfuel => by
      have hv := List.length_pos_iff.mpr (render_ne_nil v)
      have hms := memberTail_length_pos ms
      simp only [renderMembers, List.length_append] at hfuel
      omega
  | (k, v) :: ms, r, fuel + 1, _, htight, hfuel => by
      have hv := List.length_pos_iff.mpr (render_ne_nil v)
      have hms := memberTail_length_pos ms
      have htail : (renderMembers Ws.none ms).length ≤ (renderMemberTail ms).length := by
        cases ms with
        | nil => simp [renderMembers, renderMemberTail, Ws.none]
        | cons m ms => simp [renderMemberTail_cons Ws.none]
      simp only [renderMembers, List.length_append] at hfuel
      rw [tightMembers, Bool.and_eq_true] at htight
      rw [renderMembers, searchMembers]
      simp only [List.append_assoc]
      rw [recurseMembers_cons, jsonFindKeyRecursive_render hkey v _ fuel htight.1 (by omega)]
      cases search key v (k.trail.text ++ (renderMemberTail ms ++ r)) with
      | some l => rfl
      | none =>
          simp only [Option.map_none]
          rw [skipItem_member]
          exact recurseMembers_render hkey Ws.none ms r fuel (fun _ => rfl) htight.2 (by omega)

end

/-! ## Positions -/

/-- The text at a position is a value followed by something that can follow it. -/
def At (t : Text) (v : Json) : Prop :=
  ∃ r, Follows r ∧ t = render v ++ r

theorem At.ws (h : At t v) : skipSpace t = t := by
  rcases h with ⟨r, -, rfl⟩
  exact skipSpace_render v r

/-- Member lookup at the position of a value yields the position of the member. -/
theorem At.findKey (h : At t v) (hkey : PlainKey key) :
    Option.Rel At (jsonFindKey t key) (v.get? key) := by
  rcases h with ⟨r, -, rfl⟩
  rw [jsonFindKey_render hkey, ← member_value key v r]
  cases hm : member key v r with
  | none => exact Option.Rel.none
  | some l =>
      refine Option.Rel.some ⟨l.rest, ?_, rfl⟩
      cases v with
      | obj inner ms => exact lookup_follows hm
      | lit tok => simp [member] at hm
      | str body => simp [member] at hm
      | arr inner es => simp [member] at hm

/-- Lookups can be chained. -/
theorem findKey_bind {o : Option Text} {v : Option Json} (h : Option.Rel At o v)
    (hkey : PlainKey key) :
    Option.Rel At (o.bind (jsonFindKey · key)) (v.bind (get? key)) := by
  cases h with
  | none => exact Option.Rel.none
  | some hat => exact hat.findKey hkey

/-- The recursive search at the position of a value. -/
theorem At.search (h : At t v) (htight : tight v = true) (hkey : PlainKey key) :
    ∃ o, jsonFindKeyRecursive key (searchFuel t) t = some o ∧ Option.Rel At o (v.find? key) := by
  rcases h with ⟨r, -, rfl⟩
  have hfuel : 2 * (render v).length ≤ searchFuel (render v ++ r) := by
    rw [searchFuel, List.length_append]
    omega
  refine ⟨_, jsonFindKeyRecursive_render hkey v r _ htight hfuel, ?_⟩
  rw [← search_value key v r]
  cases hs : Json.search key v r with
  | none => exact Option.Rel.none
  | some l => exact Option.Rel.some ⟨l.rest, search_follows v r hs, rfl⟩

/-- A string is returned as it stands. -/
theorem At.getString {body : StrBody} (h : At t (.str body)) :
    jsonGetString t = some body.text := by
  rcases h with ⟨r, -, rfl⟩
  exact jsonGetString_render body r

/-- At an array, the elements follow the bracket. -/
theorem At.elems {inner : Ws} {es : List (Pad × Json)} (h : At t (.arr inner es)) :
    ∃ r, Follows r ∧ t = lbracket :: (renderElems inner es ++ r) := by
  rcases h with ⟨r, hr, rfl⟩
  refine ⟨r, hr, ?_⟩
  rw [render, List.cons_append]

/-! ## Collecting members -/

/-- Bytes other than quotes are passed over one by one. -/
theorem jsonFindAllValues_append_of_plain (key : Text) (ht : ∀ b ∈ t, b ≠ dquote) (r : Text) :
    jsonFindAllValues (t ++ r) key = jsonFindAllValues r key := by
  induction t with
  | nil => rfl
  | cons b t ih =>
      rw [List.cons_append, jsonFindAllValues_cons, if_neg (ht b List.mem_cons_self)]
      exact ih (fun c hc => ht c (List.mem_cons_of_mem _ hc))

/-- White space is passed. -/
theorem jsonFindAllValues_ws (key : Text) (w : Ws) (r : Text) :
    jsonFindAllValues (w.text ++ r) key = jsonFindAllValues r key := by
  apply jsonFindAllValues_append_of_plain
  intro b hb
  exact ne_of_class (List.all_eq_true.mp w.spaces b hb) rfl

/-- A byte that is no quote is passed. -/
theorem jsonFindAllValues_byte (key : Text) {b : UInt8} (hb : b ≠ dquote) (r : Text) :
    jsonFindAllValues (b :: r) key = jsonFindAllValues r key := by
  rw [jsonFindAllValues_cons, if_neg hb]

/-- Text behind a value in an array or object: what stands there after white
space is not a colon. -/
def NoColon (r : Text) : Prop :=
  StartsWith (fun b => b != colon) (skipSpace r)

/-- No colon follows an element. -/
theorem noColon_elemTail (w : Ws) (es : List (Pad × Json)) (r : Text) :
    NoColon (w.text ++ (renderElemTail es ++ r)) := by
  unfold NoColon
  rw [skipSpace_append]
  cases es with
  | nil => simp [renderElemTail, skipSpace_cons_of_not, isSpace]
  | cons e es => simp [renderElemTail, skipSpace_cons_of_not, isSpace]

/-- No colon follows a member. -/
theorem noColon_memberTail (w : Ws) (ms : List (KeyTok × Json)) (r : Text) :
    NoColon (w.text ++ (renderMemberTail ms ++ r)) := by
  unfold NoColon
  rw [skipSpace_append]
  cases ms with
  | nil => simp [renderMemberTail, skipSpace_cons_of_not, isSpace]
  | cons m ms => simp [renderMemberTail, skipSpace_cons_of_not, isSpace]

/-- A quoted string that is not a key is skipped. -/
theorem jsonFindAllValues_string (hkey : PlainKey key) (body : StrBody)
    (hr : body.text = key → NoColon r) :
    jsonFindAllValues (dquote :: (body.text ++ dquote :: r)) key = jsonFindAllValues r key := by
  rw [jsonFindAllValues_cons, if_pos rfl, skipString_quoted]
  by_cases hmatch : body.text = key
  · rw [if_pos ((matchesKey_body hkey body _).mpr hmatch), ← hmatch, drop_quoted,
      jsonSkipWhitespace_eq]
    have hcolon : StartsWith (fun b => b != colon) (skipSpace r) := hr hmatch
    cases hskip : skipSpace r with
    | nil => rfl
    | cons c after =>
        rw [hskip] at hcolon
        have hc : ¬c = colon := by simpa using hcolon
        dsimp only
        rw [if_neg hc]
  · rw [if_neg (fun h => hmatch ((matchesKey_body hkey body _).mp h))]

/-- The key of a member: a matching one yields its value, another one is passed. -/
theorem jsonFindAllValues_keyText (hkey : PlainKey key) (k : KeyTok) (v : Json) (hr : Follows r) :
    jsonFindAllValues (keyText k ++ (render v ++ r)) key =
      if k.body.text = key then (render v ++ r) :: jsonFindAllValues r key
      else jsonFindAllValues (render v ++ r) key := by
  rw [keyText_append, jsonFindAllValues_ws]
  by_cases hmatch : k.body.text = key
  · rw [if_pos hmatch, jsonFindAllValues_cons, if_pos rfl,
      if_pos ((matchesKey_body hkey k.body _).mpr hmatch), ← hmatch, drop_quoted,
      jsonSkipWhitespace_eq, skipSpace_append, skipSpace_colon]
    dsimp only
    rw [if_pos rfl, jsonSkipWhitespace_eq, skipSpace_append, skipSpace_render,
      jsonSkipValue_render v hr]
  · rw [if_neg hmatch, jsonFindAllValues_string hkey k.body (fun h => absurd h hmatch),
      jsonFindAllValues_ws, jsonFindAllValues_byte key (by simp), jsonFindAllValues_ws]

/-- The scan over one member, from what it does on the value and behind it. -/
private theorem jsonFindAllValues_member (hkey : PlainKey key) (k : KeyTok)
    {ms : List (KeyTok × Json)}
    (hv : ∀ r', NoColon r' → jsonFindAllValues (render v ++ r') key =
      (collect key v r').map Located.text ++ jsonFindAllValues r' key)
    (hms : jsonFindAllValues (renderMemberTail ms ++ r) key =
      (collectMembers key ms r).map Located.text ++ jsonFindAllValues r key) :
    jsonFindAllValues (keyText k ++ ((render v ++ (k.trail.text ++ renderMemberTail ms)) ++ r))
        key =
      (collectMembers key ((k, v) :: ms) r).map Located.text ++ jsonFindAllValues r key := by
  simp only [List.append_assoc]
  rw [jsonFindAllValues_keyText hkey k v (follows_ws_append _ (follows_memberTail ms r)),
    collectMembers, List.map_append, List.append_assoc, ← hms]
  split
  · rw [jsonFindAllValues_ws]
    rfl
  · rw [hv _ (noColon_memberTail _ ms r), jsonFindAllValues_ws]

mutual

/-- The linear scan finds the members of a value and goes on behind it. -/
theorem jsonFindAllValues_render (hkey : PlainKey key) :
    ∀ (v : Json) (r : Text), NoColon r →
      jsonFindAllValues (render v ++ r) key =
        (collect key v r).map Located.text ++ jsonFindAllValues r key
  | .lit tok, r, _ => by
      rw [render, collect, List.map_nil, List.nil_append]
      apply jsonFindAllValues_append_of_plain
      intro b hb
      exact ne_of_class (List.all_eq_true.mp tok.plain b hb) rfl
  | .str body, r, hr => by
      rw [render, collect, List.map_nil, List.nil_append, List.cons_append, List.append_assoc]
      exact jsonFindAllValues_string hkey body (fun _ => hr)
  | .arr inner elems, r, _ => by
      rw [render, collect, List.cons_append, jsonFindAllValues_byte key (by simp)]
      exact jsonFindAllValues_elems hkey inner elems r
  | .obj inner members, r, _ => by
      rw [render, collect, List.cons_append, jsonFindAllValues_byte key (by simp)]
      exact jsonFindAllValues_members hkey inner members r

/-- The scan from inside an array. -/
theorem jsonFindAllValues_elems (hkey : PlainKey key) (inner : Ws) :
    ∀ (es : List (Pad × Json)) (r : Text),
      jsonFindAllValues (renderElems inner es ++ r) key =
        (collectElems key es r).map Located.text ++ jsonFindAllValues r key
  | [], r => by
      rw [renderElems, collectElems, List.append_assoc, jsonFindAllValues_ws,
        List.singleton_append, jsonFindAllValues_byte key (by simp), List.map_nil, List.nil_append]
  | (p, v) :: es, r => by
      rw [renderElems, collectElems, List.map_append, List.append_assoc]
      simp only [List.append_assoc]
      rw [jsonFindAllValues_ws, jsonFindAllValues_render hkey v _ (noColon_elemTail _ es r),
        jsonFindAllValues_ws, jsonFindAllValues_elemTail hkey es r]

/-- The scan from behind an element. -/
theorem jsonFindAllValues_elemTail (hkey : PlainKey key) :
    ∀ (es : List (Pad × Json)) (r : Text),
      jsonFindAllValues (renderElemTail es ++ r) key =
        (collectElems key es r).map Located.text ++ jsonFindAllValues r key
  | [], r => by
      rw [renderElemTail, collectElems, List.singleton_append,
        jsonFindAllValues_byte key (by simp), List.map_nil, List.nil_append]
  | (p, v) :: es, r => by
      rw [renderElemTail, collectElems, List.map_append, List.append_assoc, List.cons_append,
        jsonFindAllValues_byte key (by simp)]
      simp only [List.append_assoc]
      rw [jsonFindAllValues_ws, jsonFindAllValues_render hkey v _ (noColon_elemTail _ es r),
        jsonFindAllValues_ws, jsonFindAllValues_elemTail hkey es r]

/-- The scan from inside an object. -/
theorem jsonFindAllValues_members (hkey : PlainKey key) (inner : Ws) :
    ∀ (ms : List (KeyTok × Json)) (r : Text),
      jsonFindAllValues (renderMembers inner ms ++ r) key =
        (collectMembers key ms r).map Located.text ++ jsonFindAllValues r key
  | [], r => by
      rw [renderMembers, collectMembers, List.append_assoc, jsonFindAllValues_ws,
        List.singleton_append, jsonFindAllValues_byte key (by simp), List.map_nil, List.nil_append]
  | (k, v) :: ms, r => by
      rw [renderMembers, List.append_assoc]
      exact jsonFindAllValues_member hkey k (jsonFindAllValues_render hkey v)
        (jsonFindAllValues_memberTail hkey ms r)

/-- The scan from behind a member. -/
theorem jsonFindAllValues_memberTail (hkey : PlainKey key) :
    ∀ (ms : List (KeyTok × Json)) (r : Text),
      jsonFindAllValues (renderMemberTail ms ++ r) key =
        (collectMembers key ms r).map Located.text ++ jsonFindAllValues r key
  | [], r => by
      rw [renderMemberTail, collectMembers, List.singleton_append,
        jsonFindAllValues_byte key (by simp), List.map_nil, List.nil_append]
  | (k, v) :: ms, r => by
      rw [renderMemberTail, List.cons_append, jsonFindAllValues_byte key (by simp),
        List.append_assoc]
      exact jsonFindAllValues_member hkey k (jsonFindAllValues_render hkey v)
        (jsonFindAllValues_memberTail hkey ms r)

end

end Sharegres
