import Sharegres.Foundation.ByteText

/-!
# Foundation - JSON values and their text

JSON values as concrete syntax: every string body, literal and run of white
space is kept as it is written, so that rendering is a function and each
well-formed JSON text is the rendering of one value.  Strings stay raw; a body
is well formed when every quote in it is escaped.

A position inside a rendered document is a {lit}`Located` value: the value that
starts there together with all the text behind it.  Member lookup, depth-first
search and collection of all members are defined on values in these terms.

Main results:

- Definition {lit}`Json.render`: the text of a value.
- Definitions {lit}`Json.member`, {lit}`Json.search` and
  {lit}`Json.collect`: first member of an object, first member at any depth, and
  all outermost members with a given key.
- Theorems {lit}`member_value` and {lit}`search_value`: which value is found does
  not depend on the text around it.
- Theorem {lit}`eq_of_wellEscaped_append`: a plain key followed by a quote
  determines the string body it was read from.
-/

namespace Foundation

variable {u : Json} {l : Located} {key : Text} {b : UInt8}

/-! ## Tokens -/

/-- A string body is well formed when no quote in it is unescaped and no escape
is left open at its end. -/
def wellEscaped : Text → Bool
  | [] => true
  | b :: p =>
      if b = dquote then false
      else if b = backslash then
        match p with
        | [] => false
        | _ :: q => wellEscaped q
      else wellEscaped p

theorem wellEscaped_cons (b : UInt8) (p : Text) :
    wellEscaped (b :: p) =
      if b = dquote then false
      else if b = backslash then
        match p with
        | [] => false
        | _ :: q => wellEscaped q
      else wellEscaped p := by
  cases p <;> rfl

/-- A byte that is no quote and no backslash. -/
theorem wellEscaped_plain {p : Text} (hq : b ≠ dquote) (hb : b ≠ backslash) :
    wellEscaped (b :: p) = wellEscaped p := by
  rw [wellEscaped_cons, if_neg hq, if_neg hb]

/-- The raw text between the quotes of a JSON string. -/
structure StrBody where
  text : Text
  escaped : wellEscaped text = true
deriving DecidableEq

/-- Bytes that may stand in a number or in {lit}`true`, {lit}`false`, {lit}`null`. -/
def isLitByte (b : UInt8) : Bool :=
  !(isSpace b || b == dquote || b == comma || b == colon || b == lbracket ||
    b == rbracket || b == lbrace || b == rbrace)

theorem isLitByte_of_isDigit (h : isDigit b = true) : isLitByte b = true := by
  rcases isDigit_not_special h with ⟨hspace, -⟩
  have hne : ∀ c : UInt8, isDigit c = false → (b == c) = false := fun c hc =>
    beq_eq_false_iff_ne.mpr (ne_of_class h hc)
  simp [isLitByte, hspace, hne, isDigit]

theorem isSpace_of_isLitByte (h : isLitByte b = true) : isSpace b = false := by
  cases hspace : isSpace b with
  | false => rfl
  | true => simp [isLitByte, hspace] at h

/-- Printed numbers are made of literal bytes. -/
theorem intNumeral_plain (n : Int) (hb : b ∈ intNumeral n) : isLitByte b = true := by
  cases n with
  | ofNat n => exact isLitByte_of_isDigit (natNumeral_digits hb)
  | negSucc n =>
      rcases List.mem_cons.mp hb with rfl | hb
      · decide
      · exact isLitByte_of_isDigit (natNumeral_digits hb)

/-- A number or one of the literal names. -/
structure Lit where
  text : Text
  nonempty : text ≠ []
  plain : text.all isLitByte = true
deriving DecidableEq

/-- The first byte of a literal, and the rest of it. -/
theorem Lit.exists_cons (tok : Lit) :
    ∃ b p, tok.text = b :: p ∧ isLitByte b = true ∧ p.all isLitByte = true := by
  rcases List.exists_cons_of_ne_nil tok.nonempty with ⟨b, p, htext⟩
  have hplain := tok.plain
  rw [htext, List.all_cons, Bool.and_eq_true] at hplain
  exact ⟨b, p, htext, hplain⟩

/-- A key of an object with the white space around it: before the key, between
key and colon, between colon and value, and behind the value. -/
structure KeyTok where
  before : Ws
  body : StrBody
  after : Ws
  gap : Ws
  trail : Ws

/-- White space around an array element. -/
structure Pad where
  before : Ws
  after : Ws

/-- A key written without white space. -/
def KeyTok.compact (body : StrBody) : KeyTok :=
  ⟨Ws.none, body, Ws.none, Ws.none, Ws.none⟩

/-- An element written without white space. -/
def Pad.compact : Pad := ⟨Ws.none, Ws.none⟩

/-! ## Values and their rendering -/

/-- A JSON value in concrete syntax.  The white space of {lit}`arr` and
{lit}`obj` is the one inside an empty pair of brackets. -/
inductive Json where
  | lit (tok : Lit)
  | str (body : StrBody)
  | arr (inner : Ws) (elems : List (Pad × Json))
  | obj (inner : Ws) (members : List (KeyTok × Json))

namespace Json

/-- Text of a key up to the value it belongs to. -/
def keyText (k : KeyTok) : Text :=
  k.before.text ++ dquote :: (k.body.text ++ dquote :: (k.after.text ++
    colon :: k.gap.text))

mutual

/-- The text of a value. -/
def render : Json → Text
  | .lit tok => tok.text
  | .str body => dquote :: (body.text ++ [dquote])
  | .arr inner elems => lbracket :: renderElems inner elems
  | .obj inner members => lbrace :: renderMembers inner members

/-- The inside of an array with its closing bracket. -/
def renderElems (inner : Ws) : List (Pad × Json) → Text
  | [] => inner.text ++ [rbracket]
  | (p, v) :: elems =>
      p.before.text ++ (render v ++ (p.after.text ++ renderElemTail elems))

/-- What follows an array element. -/
def renderElemTail : List (Pad × Json) → Text
  | [] => [rbracket]
  | (p, v) :: elems =>
      comma :: (p.before.text ++ (render v ++ (p.after.text ++ renderElemTail elems)))

/-- The inside of an object with its closing brace. -/
def renderMembers (inner : Ws) : List (KeyTok × Json) → Text
  | [] => inner.text ++ [rbrace]
  | (k, v) :: members =>
      keyText k ++ (render v ++ (k.trail.text ++ renderMemberTail members))

/-- What follows the value of a member. -/
def renderMemberTail : List (KeyTok × Json) → Text
  | [] => [rbrace]
  | (k, v) :: members =>
      comma :: (keyText k ++ (render v ++ (k.trail.text ++ renderMemberTail members)))

end

/-- Behind an element stand a comma and the others. -/
theorem renderElemTail_cons (inner : Ws) (e : Pad × Json) (es : List (Pad × Json)) :
    renderElemTail (e :: es) = comma :: renderElems inner (e :: es) := by
  cases e
  simp [renderElemTail, renderElems]

/-- Behind a member stand a comma and the others. -/
theorem renderMemberTail_cons (inner : Ws) (m : KeyTok × Json) (ms : List (KeyTok × Json)) :
    renderMemberTail (m :: ms) = comma :: renderMembers inner (m :: ms) := by
  cases m
  simp [renderMemberTail, renderMembers]

/-! ## Located values -/

/-- A value at its place in a document: the text from its start on is the
rendering of the value followed by {lit}`rest`. -/
structure Located where
  value : Json
  rest : Text

/-- The document from a located value on. -/
def Located.text (l : Located) : Text :=
  render l.value ++ l.rest

/-- First member with the given raw key, where {lit}`r` follows the object. -/
def lookup (key : Text) : List (KeyTok × Json) → Text → Option Located
  | [], _ => none
  | (k, v) :: members, r =>
      if k.body.text = key then
        some ⟨v, k.trail.text ++ (renderMemberTail members ++ r)⟩
      else lookup key members r

/-- The member of an object with the given raw key; other values have none. -/
def member (key : Text) : Json → Text → Option Located
  | .obj _ members, r => lookup key members r
  | _, _ => none

mutual

/-- First member with the given key at any depth: the members of an object come
before everything inside their values. -/
def search (key : Text) : Json → Text → Option Located
  | .lit _, _ => none
  | .str _, _ => none
  | .arr _ elems, r => searchElems key elems r
  | .obj _ members, r =>
      match lookup key members r with
      | some l => some l
      | none => searchMembers key members r

/-- Search the elements of an array from left to right. -/
def searchElems (key : Text) : List (Pad × Json) → Text → Option Located
  | [], _ => none
  | (p, v) :: elems, r =>
      match search key v (p.after.text ++ (renderElemTail elems ++ r)) with
      | some l => some l
      | none => searchElems key elems r

/-- Search the values of an object from left to right. -/
def searchMembers (key : Text) : List (KeyTok × Json) → Text → Option Located
  | [], _ => none
  | (k, v) :: members, r =>
      match search key v (k.trail.text ++ (renderMemberTail members ++ r)) with
      | some l => some l
      | none => searchMembers key members r

end

mutual

/-- All members with the given key that do not lie inside the value of another
such member, in document order. -/
def collect (key : Text) : Json → Text → List Located
  | .lit _, _ => []
  | .str _, _ => []
  | .arr _ elems, r => collectElems key elems r
  | .obj _ members, r => collectMembers key members r

/-- {lit}`collect` over the elements of an array. -/
def collectElems (key : Text) : List (Pad × Json) → Text → List Located
  | [], _ => []
  | (p, v) :: elems, r =>
      collect key v (p.after.text ++ (renderElemTail elems ++ r)) ++
        collectElems key elems r

/-- {lit}`collect` over the members of an object. -/
def collectMembers (key : Text) : List (KeyTok × Json) → Text → List Located
  | [], _ => []
  | (k, v) :: members, r =>
      (if k.body.text = key then [⟨v, k.trail.text ++ (renderMemberTail members ++ r)⟩]
        else collect key v (k.trail.text ++ (renderMemberTail members ++ r))) ++
        collectMembers key members r

end

mutual

/-- The values {lit}`collect` finds. -/
def values (key : Text) : Json → List Json
  | .lit _ => []
  | .str _ => []
  | .arr _ elems => valuesElems key elems
  | .obj _ members => valuesMembers key members

/-- {lit}`values` in the elements of an array. -/
def valuesElems (key : Text) : List (Pad × Json) → List Json
  | [] => []
  | (_, v) :: elems => values key v ++ valuesElems key elems

/-- {lit}`values` in the members of an object. -/
def valuesMembers (key : Text) : List (KeyTok × Json) → List Json
  | [] => []
  | (k, v) :: members =>
      (if k.body.text = key then [v] else values key v) ++ valuesMembers key members

end

mutual

/-- The values collected do not depend on the text around them. -/
theorem collect_value (key : Text) :
    ∀ (v : Json) (r : Text), (collect key v r).map Located.value = values key v
  | .lit _, _ => rfl
  | .str _, _ => rfl
  | .arr _ elems, r => by
      rw [collect, values]
      exact collectElems_value key elems r
  | .obj _ members, r => by
      rw [collect, values]
      exact collectMembers_value key members r

/-- The values collected below an array. -/
theorem collectElems_value (key : Text) :
    ∀ (es : List (Pad × Json)) (r : Text),
      (collectElems key es r).map Located.value = valuesElems key es
  | [], _ => rfl
  | (p, v) :: es, r => by
      rw [collectElems, valuesElems, List.map_append, collect_value key v,
        collectElems_value key es]

/-- The values collected below an object. -/
theorem collectMembers_value (key : Text) :
    ∀ (ms : List (KeyTok × Json)) (r : Text),
      (collectMembers key ms r).map Located.value = valuesMembers key ms
  | [], _ => rfl
  | (k, v) :: ms, r => by
      rw [collectMembers, valuesMembers, List.map_append, collectMembers_value key ms]
      by_cases hk : k.body.text = key
      · rw [if_pos hk, if_pos hk, List.map_singleton]
      · rw [if_neg hk, if_neg hk, collect_value key v]

end

/-- Value of the first member with the given raw key. -/
def get? (key : Text) : Json → Option Json
  | .obj _ members => (members.find? fun m => decide (m.1.body.text = key)).map Prod.snd
  | _ => none

@[simp]
theorem get?_nil (key : Text) (inner : Ws) : get? key (.obj inner []) = none := rfl

/-- The first member, or one behind it. -/
theorem get?_cons (key : Text) (inner : Ws) (k : KeyTok) (v : Json)
    (ms : List (KeyTok × Json)) :
    get? key (.obj inner ((k, v) :: ms)) =
      if k.body.text = key then some v else get? key (.obj inner ms) := by
  rw [get?, get?, List.find?_cons]
  by_cases hk : k.body.text = key
  · simp [hk]
  · simp [hk]

/-- The text of a member's value is shorter than that of the object. -/
theorem get?_length {v u : Json} (h : get? key v = some u) :
    (render u).length < (render v).length := by
  cases v with
  | lit tok => simp [get?] at h
  | str body => simp [get?] at h
  | arr inner es => simp [get?] at h
  | obj inner ms =>
      rw [render, List.length_cons]
      induction ms generalizing inner with
      | nil => simp at h
      | cons m ms ih =>
          rcases m with ⟨k, v⟩
          rw [get?_cons] at h
          rw [renderMembers]
          simp only [List.length_append]
          by_cases hk : k.body.text = key
          · rw [if_pos hk, Option.some.injEq] at h
            rw [h]
            omega
          · rw [if_neg hk] at h
            cases ms with
            | nil => simp at h
            | cons m ms =>
                have hlen := ih inner h
                rw [renderMemberTail_cons inner, List.length_cons]
                omega

mutual

/-- Value of the first member at any depth, in the order of {lit}`search`. -/
def find? (key : Text) : Json → Option Json
  | .lit _ => none
  | .str _ => none
  | .arr _ elems => findElems? key elems
  | .obj inner members =>
      match get? key (.obj inner members) with
      | some v => some v
      | none => findMembers? key members

/-- {lit}`find?` in the elements of an array. -/
def findElems? (key : Text) : List (Pad × Json) → Option Json
  | [] => none
  | (_, v) :: elems =>
      match find? key v with
      | some u => some u
      | none => findElems? key elems

/-- {lit}`find?` in the values of an object. -/
def findMembers? (key : Text) : List (KeyTok × Json) → Option Json
  | [] => none
  | (_, v) :: members =>
      match find? key v with
      | some u => some u
      | none => findMembers? key members

end

/-- The value of the member that is found. -/
theorem lookup_value (key : Text) (ms : List (KeyTok × Json)) (r : Text) :
    (lookup key ms r).map Located.value =
      (ms.find? fun m => decide (m.1.body.text = key)).map Prod.snd := by
  induction ms with
  | nil => rfl
  | cons m ms ih =>
      rcases m with ⟨k, v⟩
      rw [lookup, List.find?_cons]
      by_cases hk : k.body.text = key
      · simp [hk]
      · simp only [hk, if_false, decide_false]
        exact ih

/-- The value found by member lookup does not depend on the text around it. -/
theorem member_value (key : Text) (v : Json) (r : Text) :
    (member key v r).map Located.value = get? key v := by
  cases v with
  | obj inner ms => exact lookup_value key ms r
  | lit tok => rfl
  | str body => rfl
  | arr inner es => rfl

mutual

/-- The value found by a search does not depend on the text around it. -/
theorem search_value (key : Text) :
    ∀ (v : Json) (r : Text), (search key v r).map Located.value = find? key v
  | .lit _, _ => rfl
  | .str _, _ => rfl
  | .arr inner elems, r => by
      rw [search, find?]
      exact searchElems_value key elems r
  | .obj inner members, r => by
      have hget := member_value key (.obj inner members) r
      rw [member] at hget
      rw [search, find?, ← hget]
      cases lookup key members r with
      | some l => rfl
      | none => exact searchMembers_value key members r

theorem searchElems_value (key : Text) :
    ∀ (es : List (Pad × Json)) (r : Text),
      (searchElems key es r).map Located.value = findElems? key es
  | [], _ => rfl
  | (p, v) :: es, r => by
      rw [searchElems, findElems?, ← search_value key v]
      cases search key v (p.after.text ++ (renderElemTail es ++ r)) with
      | some l => rfl
      | none => exact searchElems_value key es r

theorem searchMembers_value (key : Text) :
    ∀ (ms : List (KeyTok × Json)) (r : Text),
      (searchMembers key ms r).map Located.value = findMembers? key ms
  | [], _ => rfl
  | (k, v) :: ms, r => by
      rw [searchMembers, findMembers?, ← search_value key v]
      cases search key v (k.trail.text ++ (renderMemberTail ms ++ r)) with
      | some l => rfl
      | none => exact searchMembers_value key ms r

end

mutual

/-- No empty object of the value has white space between its braces. -/
def tight : Json → Bool
  | .lit _ => true
  | .str _ => true
  | .arr _ elems => tightElems elems
  | .obj inner members => (!members.isEmpty || inner.text.isEmpty) && tightMembers members

/-- {lit}`tight` for the elements of an array. -/
def tightElems : List (Pad × Json) → Bool
  | [] => true
  | (_, v) :: elems => tight v && tightElems elems

/-- {lit}`tight` for the values of an object. -/
def tightMembers : List (KeyTok × Json) → Bool
  | [] => true
  | (_, v) :: members => tight v && tightMembers members

end

theorem tight_of_mem_elems {es : List (Pad × Json)} (h : tightElems es = true) {e : Pad × Json}
    (he : e ∈ es) : tight e.2 = true := by
  induction es with
  | nil => cases he
  | cons e' es ih =>
      rcases e' with ⟨p, v⟩
      rw [tightElems, Bool.and_eq_true] at h
      rcases List.mem_cons.mp he with rfl | hmem
      · exact h.1
      · exact ih h.2 hmem

theorem tight_of_mem_members {ms : List (KeyTok × Json)} (h : tightMembers ms = true)
    {m : KeyTok × Json} (hm : m ∈ ms) : tight m.2 = true := by
  induction ms with
  | nil => cases hm
  | cons m' ms ih =>
      rcases m' with ⟨k, v⟩
      rw [tightMembers, Bool.and_eq_true] at h
      rcases List.mem_cons.mp hm with rfl | hmem
      · exact h.1
      · exact ih h.2 hmem

/-- The value of a member is part of the object. -/
theorem tight_get? {v u : Json} (ht : tight v = true) (h : get? key v = some u) :
    tight u = true := by
  cases v with
  | lit tok => cases h
  | str body => cases h
  | arr inner es => cases h
  | obj inner ms =>
      rw [tight, Bool.and_eq_true] at ht
      rcases Option.map_eq_some_iff.mp h with ⟨m, hm, rfl⟩
      exact tight_of_mem_members ht.2 (List.mem_of_find?_eq_some hm)

mutual

/-- What a search finds is part of the value. -/
theorem tight_find? :
    ∀ v : Json, tight v = true → find? key v = some u → tight u = true
  | .lit _, _, h => by cases h
  | .str _, _, h => by cases h
  | .arr _ elems, ht, h => by
      rw [tight] at ht
      rw [find?] at h
      exact tight_findElems? elems ht h
  | .obj inner members, ht, h => by
      rw [find?] at h
      cases hget : get? key (.obj inner members) with
      | some w =>
          rw [hget] at h
          cases h
          exact tight_get? ht hget
      | none =>
          rw [hget] at h
          rw [tight, Bool.and_eq_true] at ht
          exact tight_findMembers? members ht.2 h

/-- What is found below an array. -/
theorem tight_findElems? :
    ∀ es : List (Pad × Json), tightElems es = true → findElems? key es = some u → tight u = true
  | [], _, h => by cases h
  | (_, v) :: es, ht, h => by
      rw [tightElems, Bool.and_eq_true] at ht
      rw [findElems?] at h
      cases hfind : find? key v with
      | some w =>
          rw [hfind] at h
          cases h
          exact tight_find? v ht.1 hfind
      | none =>
          rw [hfind] at h
          exact tight_findElems? es ht.2 h

/-- What is found below an object. -/
theorem tight_findMembers? :
    ∀ ms : List (KeyTok × Json), tightMembers ms = true → findMembers? key ms = some u →
      tight u = true
  | [], _, h => by cases h
  | (_, v) :: ms, ht, h => by
      rw [tightMembers, Bool.and_eq_true] at ht
      rw [findMembers?] at h
      cases hfind : find? key v with
      | some w =>
          rw [hfind] at h
          cases h
          exact tight_find? v ht.1 hfind
      | none =>
          rw [hfind] at h
          exact tight_findMembers? ms ht.2 h

end

/-! ## Text behind a value -/

/-- Bytes that end a literal. -/
def isDelim (b : UInt8) : Bool :=
  b == comma || b == rbrace || b == rbracket || isSpace b

/-- A byte of a number or a word ends nothing. -/
theorem isDelim_of_isLitByte (h : isLitByte b = true) : isDelim b = false := by
  have hne : ∀ c : UInt8, isLitByte c = false → (b == c) = false := fun c hc =>
    beq_eq_false_iff_ne.mpr (ne_of_class h hc)
  rw [isDelim, isSpace_of_isLitByte h, hne comma rfl, hne rbrace rfl, hne rbracket rfl]
  rfl

/-- A text that can follow a value: it is empty or starts with a delimiter. -/
def Follows (r : Text) : Prop :=
  StartsWith isDelim r

/-- White space may stand before the end. -/
theorem follows_ws_append (w : Ws) {r : Text} (hr : Follows r) : Follows (w.text ++ r) := by
  rcases w with ⟨w, hw⟩
  cases w with
  | nil => exact hr
  | cons b w =>
      simp only [List.all_cons, Bool.and_eq_true] at hw
      simp [Follows, isDelim, hw.1]

theorem follows_elemTail (es : List (Pad × Json)) (r : Text) :
    Follows (renderElemTail es ++ r) := by
  cases es with
  | nil => simp [renderElemTail, Follows, isDelim]
  | cons e es => simp [renderElemTail, Follows, isDelim]

theorem follows_memberTail (ms : List (KeyTok × Json)) (r : Text) :
    Follows (renderMemberTail ms ++ r) := by
  cases ms with
  | nil => simp [renderMemberTail, Follows, isDelim]
  | cons m ms => simp [renderMemberTail, Follows, isDelim]

theorem elemTail_length_pos (es : List (Pad × Json)) : 0 < (renderElemTail es).length := by
  cases es with
  | nil => simp [renderElemTail]
  | cons e es => simp [renderElemTail]

theorem memberTail_length_pos (ms : List (KeyTok × Json)) :
    0 < (renderMemberTail ms).length := by
  cases ms with
  | nil => simp [renderMemberTail]
  | cons m ms => simp [renderMemberTail]

/-- A member found by key is followed by a delimiter. -/
theorem lookup_follows {ms : List (KeyTok × Json)} {r : Text} (h : lookup key ms r = some l) :
    Follows l.rest := by
  induction ms with
  | nil => simp [lookup] at h
  | cons m ms ih =>
      obtain ⟨k, v⟩ := m
      simp only [lookup] at h
      split at h
      · cases h
        exact follows_ws_append _ (follows_memberTail ms r)
      · exact ih h

mutual

/-- A member found by a search is followed by a delimiter. -/
theorem search_follows :
    ∀ (v : Json) (r : Text), search key v r = some l → Follows l.rest
  | .lit _, _, h => by simp [search] at h
  | .str _, _, h => by simp [search] at h
  | .arr _ elems, r, h => by
      rw [search] at h
      exact searchElems_follows elems r h
  | .obj _ members, r, h => by
      rw [search] at h
      cases hl : lookup key members r with
      | some l' =>
          rw [hl] at h
          cases h
          exact lookup_follows hl
      | none =>
          rw [hl] at h
          exact searchMembers_follows members r h

/-- What follows a value found below an array. -/
theorem searchElems_follows :
    ∀ (es : List (Pad × Json)) (r : Text), searchElems key es r = some l → Follows l.rest
  | [], _, h => by simp [searchElems] at h
  | (p, v) :: es, r, h => by
      rw [searchElems] at h
      cases hv : search key v (p.after.text ++ (renderElemTail es ++ r)) with
      | some l' =>
          rw [hv] at h
          cases h
          exact search_follows v _ hv
      | none =>
          rw [hv] at h
          exact searchElems_follows es r h

/-- What follows a value found below an object. -/
theorem searchMembers_follows :
    ∀ (ms : List (KeyTok × Json)) (r : Text), searchMembers key ms r = some l → Follows l.rest
  | [], _, h => by simp [searchMembers] at h
  | (k, v) :: ms, r, h => by
      rw [searchMembers] at h
      cases hv : search key v (k.trail.text ++ (renderMemberTail ms ++ r)) with
      | some l' =>
          rw [hv] at h
          cases h
          exact search_follows v _ hv
      | none =>
          rw [hv] at h
          exact searchMembers_follows ms r h

end

/-! ## First bytes of a rendering -/

/-- The first byte of a value is not white space and closes nothing. -/
theorem render_head (v : Json) :
    ∃ b p, render v = b :: p ∧ isSpace b = false ∧ b ≠ rbracket ∧ b ≠ rbrace ∧ b ≠ comma := by
  cases v with
  | lit tok =>
      obtain ⟨b, p, htext, hb, -⟩ := tok.exists_cons
      exact ⟨b, p, htext, isSpace_of_isLitByte hb, ne_of_class hb rfl, ne_of_class hb rfl,
        ne_of_class hb rfl⟩
  | str body => exact ⟨dquote, _, rfl, by decide, by decide, by decide, by decide⟩
  | arr inner elems => exact ⟨lbracket, _, rfl, by decide, by decide, by decide, by decide⟩
  | obj inner members => exact ⟨lbrace, _, rfl, by decide, by decide, by decide, by decide⟩

/-- White space before a value is skipped exactly. -/
@[simp]
theorem skipSpace_render (v : Json) (r : Text) :
    skipSpace (render v ++ r) = render v ++ r := by
  obtain ⟨b, p, h, hs, -⟩ := render_head v
  rw [h, List.cons_append, skipSpace_cons_of_not hs]

/-- Every value has a text. -/
theorem render_ne_nil (v : Json) : render v ≠ [] := by
  obtain ⟨b, p, h, -⟩ := render_head v
  simp [h]

end Json

/-! ## Keys -/

/-- A search key without quotes and backslashes. -/
def PlainKey (key : Text) : Prop :=
  ∀ b ∈ key, b ≠ dquote ∧ b ≠ backslash

instance (key : Text) : Decidable (PlainKey key) :=
  inferInstanceAs (Decidable (∀ b ∈ key, b ≠ dquote ∧ b ≠ backslash))

/-- A plain key followed by a quote can be read at the start of a quoted body
exactly when it is that body. -/
theorem eq_of_wellEscaped_append {key body r : Text} (hkey : PlainKey key)
    (hbody : wellEscaped body = true) :
    (key ++ [dquote]).isPrefixOf (body ++ dquote :: r) = true ↔ body = key := by
  induction key generalizing body with
  | nil =>
      cases body with
      | nil => simp
      | cons b body =>
          have hb : b ≠ dquote := by
            intro hb
            simp [wellEscaped_cons, hb] at hbody
          simp only [List.nil_append, List.cons_append, List.isPrefixOf_cons_cons,
            Bool.and_eq_true, beq_iff_eq, reduceCtorEq, iff_false, not_and]
          intro h
          exact absurd h.symm hb
  | cons k key ih =>
      have hk := hkey k List.mem_cons_self
      have hrest : PlainKey key := fun b hb => hkey b (List.mem_cons_of_mem _ hb)
      cases body with
      | nil =>
          simp only [List.cons_append, List.nil_append, List.isPrefixOf_cons_cons,
            Bool.and_eq_true, beq_iff_eq, reduceCtorEq, iff_false, not_and]
          intro h
          exact absurd h hk.1
      | cons b body =>
          simp only [List.cons_append, List.isPrefixOf_cons_cons, Bool.and_eq_true,
            beq_iff_eq, List.cons.injEq]
          constructor
          · rintro ⟨rfl, hpre⟩
            have hbody' : wellEscaped body = true := by
              rwa [wellEscaped_plain hk.1 hk.2] at hbody
            exact ⟨rfl, (ih hrest hbody').mp hpre⟩
          · rintro ⟨rfl, rfl⟩
            have hbody' : wellEscaped body = true := by
              rwa [wellEscaped_plain hk.1 hk.2] at hbody
            exact ⟨rfl, (ih hrest hbody').mpr rfl⟩

end Foundation
