import Sharegres.Parser.JsonNavigation
import Sharegres.Parser.PgQueryJson

/-!
# Parser - Printed nodes

Lookups in the nodes that the printer writes, and the small readers of the parser on their text:
constants, argument lists, and the values of a row.

Main results:

- Theorem {lit}`readConst_at`: the key value of a constant.
- Theorem {lit}`At.readConst`: what is read from a constant is a function of its tree.
- Theorem {lit}`skipElems_render`: skipping elements of an array.
- Theorem {lit}`extractRowKey_elems`: the key of the value at a position of a row.
-/

namespace Sharegres

open Foundation Foundation.Json

variable {r t : Text}

/-! ## Lookups in built objects -/

theorem rel_none {o : Option Text} (h : Option.Rel At o none) : o = none := by
  cases h
  rfl

/-- A text that stands where a value does. -/
theorem rel_some {o : Option Text} {v : Json} (h : Option.Rel At o (some v)) :
    ∃ t, o = some t ∧ At t v := by
  cases h with
  | some hat => exact ⟨_, rfl, hat⟩

@[simp]
theorem get?_obj_nil (k : PgKey) : get? k.text (obj []) = none := rfl

/-- A member of an object that is printed. -/
@[simp]
theorem get?_obj_cons (k k' : PgKey) (v : Json) (ms : Members) :
    get? k.text (obj ((tok k', v) :: ms)) =
      if k' = k then some v else get? k.text (obj ms) := by
  rw [obj, get?_cons, tok_text]
  simp only [PgKey.text_inj]
  rfl

/-- The member of a node. -/
@[simp]
theorem get?_node (k k' : PgKey) (ms : Members) :
    get? k.text (node (tok k') ms) = if k' = k then some (obj ms) else none := by
  rw [node, get?_obj_cons, get?_obj_nil]

/-- A number under another key. -/
theorem get?_intField {k k' : PgKey} (hk : k' ≠ k) (n : Int) :
    get? k.text (obj (intField (tok k') n)) = none := by
  unfold intField
  split
  · rfl
  · rw [get?_obj_cons, if_neg hk, get?_obj_nil]

/-- A field that may be left out. -/
theorem get?_nodeField_append {k k' : PgKey} (o : Option Json) (ms : Members) :
    get? k.text (obj (nodeField (tok k') o ++ ms)) =
      if k' = k ∧ o.isSome = true then o else get? k.text (obj ms) := by
  cases o with
  | none => simp [nodeField]
  | some v =>
      simp only [nodeField, List.singleton_append, get?_obj_cons, Option.isSome_some, and_true]

/-- Members the parser passes over do not change what it finds. -/
theorem get?_uninspected {pre : Members} (hpre : Uninspected pre) {k : PgKey}
    (hk : k ∈ stmtKeys) (ms : Members) :
    get? k.text (obj (pre ++ ms)) = get? k.text (obj ms) := by
  induction pre with
  | nil => rfl
  | cons m pre ih =>
      rcases m with ⟨kt, v⟩
      have hne := hpre _ List.mem_cons_self k hk
      have hrest : Uninspected pre := fun m hm => hpre m (List.mem_cons_of_mem _ hm)
      rw [List.cons_append, obj, get?_cons, if_neg hne]
      exact ih hrest

/-- The search looks at the members before it goes deeper. -/
theorem find?_obj (key : Text) (ms : Members) :
    find? key (obj ms) = (get? key (obj ms)).or (findMembers? key ms) := by
  rw [obj, find?]
  cases get? key (.obj Ws.none ms) <;> rfl

/-- The search from a node. -/
theorem find?_node (k k' : PgKey) (ms : Members) :
    find? k.text (node (tok k') ms) =
      if k' = k then some (obj ms) else find? k.text (obj ms) := by
  rw [node, find?_obj, get?_obj_cons, get?_obj_nil, findMembers?]
  by_cases hk : k' = k
  · rw [if_pos hk, if_pos hk, Option.some_or]
  · rw [if_neg hk, if_neg hk, Option.none_or]
    cases find? k.text (obj ms) <;> rfl

/-- The search in an array starts with its first element. -/
theorem find?_arr_cons (key : Text) (v : Json) (es : List Json) :
    find? key (arr (v :: es)) = (find? key v).or (find? key (arr es)) := by
  rw [arr, arr, List.map_cons, find?, findElems?, find?]
  cases find? key v <;> rfl

/-- A node has no white space of its own. -/
@[simp]
theorem tight_node (k : PgKey) (ms : Members) :
    tight (node (tok k) ms) = tightMembers ms := by
  simp [node, obj, tight, tightMembers]

theorem tight_arr (es : List Json) : tight (arr es) = es.all tight := by
  rw [arr, tight]
  induction es with
  | nil => rfl
  | cons v es ih => rw [List.map_cons, tightElems, List.all_cons, ih]

@[simp]
theorem tight_strVal (s : Text) : tight (strVal s) = true := rfl

theorem tight_stringNode (s : Text) : tight (stringNode s) = true := by
  simp [stringNode, tightMembers]

/-! ## Constants -/

/-- A string of the tree is read back as it is printed. -/
theorem At.getStrVal {t s : Text} (h : At t (strVal s)) : jsonGetString t = some (outToken s) :=
  At.getString h

/-- No digit follows a value. -/
theorem follows_not_digit (hr : Follows r) : StartsWith (fun b => !isDigit b) r := by
  cases r with
  | nil => trivial
  | cons b r =>
      have hdelim : isDelim b = true := hr
      show (!isDigit b) = true
      cases hdigit : isDigit b with
      | false => rfl
      | true => exact absurd hdelim (by simp [isDelim_of_isLitByte (isLitByte_of_isDigit hdigit)])

/-- A printed number is read back. -/
theorem At.getInt {n : Int} (h : At t (intVal n)) (hlo : -2 ^ 63 ≤ n) (hhi : n < 2 ^ 63) :
    (jsonGetInt t).toInt = n := by
  have hws := h.ws
  rcases h with ⟨r, hr, rfl⟩
  unfold jsonGetInt
  rw [jsonSkipWhitespace_eq, hws]
  exact strtoll_intNumeral n r hlo hhi (follows_not_digit hr)

/-- An integer of the tree is read back. -/
theorem At.getInt32 {n : Int32} (h : At t (intVal n.toInt)) :
    jsonGetInt t = n.toInt64 := by
  have hlo := n.le_toInt
  have hhi := n.toInt_lt
  have hread := h.getInt (by omega) (by omega)
  rw [← Int64.toInt_inj, hread, Int32.toInt_toInt64]

/-- An integer is looked for, and then a string. -/
theorem readConst_eq (t : Text) :
    readConst t =
      match (jsonFindKey t (PgKey.text .ival)).bind (jsonFindKey · (PgKey.text .ival)) with
      | some ival => some (.int (jsonGetInt ival))
      | none =>
          match (jsonFindKey t (PgKey.text .sval)).bind (jsonFindKey · (PgKey.text .sval)) with
          | some sv => some (.str (jsonGetString sv))
          | none => none := rfl

/-- The key read from a printed constant is the key of the constant. -/
theorem readConst_at {c : PgConst} {ms : Members}
    (hms : get? (PgKey.text .ival) (obj ms) = none ∧ get? (PgKey.text .sval) (obj ms) = none)
    (h : At t (obj (c.members ++ ms))) : readConst t = c.key := by
  have hint := findKey_bind (h.findKey (PgKey.text_plain .ival)) (PgKey.text_plain .ival)
  have hstr := findKey_bind (h.findKey (PgKey.text_plain .sval)) (PgKey.text_plain .sval)
  rw [readConst_eq]
  cases c with
  | int n =>
      simp only [PgConst.members, List.cons_append, List.nil_append, get?_obj_cons, reduceCtorEq,
        if_true, if_false, Option.bind_some, hms.2, Option.bind_none] at hint hstr
      rw [rel_none hstr, PgConst.key]
      by_cases hn : n = 0
      · rw [hn, show (0 : Int32).toInt = 0 from rfl, intField, if_pos rfl] at hint
        rw [rel_none hint, if_pos hn]
      · have hn' : n.toInt ≠ 0 := fun h0 => hn (Int32.toInt_inj.mp h0)
        rw [intField, if_neg hn', get?_obj_cons, if_pos rfl] at hint
        rcases rel_some hint with ⟨t', ht', hat⟩
        rw [ht', if_neg hn, ← hat.getInt32]
  | str s =>
      simp only [PgConst.members, List.cons_append, List.nil_append, get?_obj_cons, reduceCtorEq,
        if_true, if_false, Option.bind_some, hms.1, Option.bind_none] at hint hstr
      rcases rel_some hstr with ⟨t', ht', hat⟩
      rw [rel_none hint, ht', PgConst.key, ← hat.getStrVal]
  | _ =>
      simp only [PgConst.members, List.cons_append, List.nil_append, get?_obj_cons, reduceCtorEq,
        if_false, hms.1, hms.2, Option.bind_none] at hint hstr
      rw [rel_none hint, rel_none hstr]
      rfl

/-- A printed constant is read back as its key. -/
theorem readConst_toJson {c : PgConst} {location : Int}
    (h : At t (obj (c.members ++ [(tok .location, intVal location)]))) :
    readConst t = c.key := by
  apply readConst_at _ h
  constructor <;> simp

/-! ## Argument lists -/

/-- The loop over the arguments of a Boolean expression. -/
theorem extractShardKeyFromArgs_cons (fuel : Nat) (w : Ws) (v : Json) (r : Text)
    (result : ParseResult) :
    extractShardKeyFromArgs (fuel + 1) (w.text ++ (render v ++ r)) result =
      match extractShardKeyFromWhere fuel (render v ++ r) result with
      | none => none
      | some result =>
          if result.shardKeyFound then some result
          else extractShardKeyFromArgs fuel (skipItem (render v ++ r)) result := by
  rcases render_head v with ⟨c, p, hv, hs, hc, -⟩
  rcases ws_render_head w v r with ⟨b, q, hq, hb⟩
  rw [hq, extractShardKeyFromArgs, if_neg hb, ← hq, jsonSkipWhitespace_eq, skipSpace_append,
    skipSpace_render, hv, List.cons_append]
  exact if_neg hc

/-- A comparison is read, and otherwise the arguments of a Boolean expression. -/
theorem extractShardKeyFromWhere_eq (fuel : Nat) (t : Text) (result : ParseResult) :
    extractShardKeyFromWhere (fuel + 1) t result =
      match jsonFindKey t (PgKey.text .aExpr) with
      | some aexpr => extractShardKeyFromAExpr aexpr result
      | none =>
          match (jsonFindKey t (PgKey.text .boolExpr)).bind (jsonFindKey · (PgKey.text .args)) with
          | some (b :: p) =>
              if b = lbracket then extractShardKeyFromArgs fuel p result else some result
          | _ => some result := by
  rw [extractShardKeyFromWhere]
  rfl

/-! ## Tables -/

/-- White space of members one behind the other. -/
theorem tightMembers_append (ms ms' : Members) :
    tightMembers (ms ++ ms') = (tightMembers ms && tightMembers ms') := by
  induction ms with
  | nil => rfl
  | cons m ms ih =>
      rcases m with ⟨k, v⟩
      rw [List.cons_append, tightMembers, tightMembers, ih, Bool.and_assoc]

theorem tightMembers_nodeField_strVal (k : KeyTok) (o : Option Text) :
    tightMembers (nodeField k (o.map strVal)) = true := by
  cases o <;> rfl

/-- A relation is printed without white space. -/
theorem RangeVar.tight_members (rv : RangeVar) : tightMembers rv.members = true := by
  rw [RangeVar.members, tightMembers_append, tightMembers_append, tightMembers_nodeField_strVal,
    tightMembers_nodeField_strVal, tightMembers, tight_strVal, rv.tight]
  rfl

/-! ## Values read at a position -/

/-- Digits are read up to the first other byte. -/
theorem readDigits_append (q : Text) (hr : StartsWith (fun b => !isDigit b) r) (acc : Nat) :
    readDigits acc (q ++ r) = readDigits acc q := by
  induction q generalizing acc with
  | nil =>
      cases r with
      | nil => rfl
      | cons b r =>
          rw [startsWith_cons, Bool.not_eq_true'] at hr
          simp [readDigits, hr]
  | cons b q ih =>
      rw [List.cons_append, readDigits, readDigits]
      by_cases hb : isDigit b = true
      · rw [if_pos hb, if_pos hb, ih]
      · rw [if_neg hb, if_neg hb]

/-- What is read as an integer does not depend on the text behind the value. -/
theorem jsonGetInt_append (v : Json) (hr : Follows r) :
    jsonGetInt (render v ++ r) = jsonGetInt (render v) := by
  have hnil := skipSpace_render v []
  rw [List.append_nil] at hnil
  unfold jsonGetInt strtoll
  rw [jsonSkipWhitespace_eq, jsonSkipWhitespace_eq, skipSpace_skipSpace, skipSpace_skipSpace,
    skipSpace_render, hnil]
  rcases render_head v with ⟨b, p, hv, -⟩
  rw [hv, List.cons_append]
  dsimp only
  rw [readDigits_append p (follows_not_digit hr), ← List.cons_append,
    readDigits_append (b :: p) (follows_not_digit hr)]

/-- What is read as a string does not depend on the text behind the value. -/
theorem jsonGetString_append (v : Json) (r : Text) :
    jsonGetString (render v ++ r) = jsonGetString (render v) := by
  cases v with
  | str body =>
      have hnil := jsonGetString_render body []
      rw [List.append_nil] at hnil
      rw [jsonGetString_render, hnil]
  | lit tok =>
      rw [jsonGetString_not_string (by simp), ← List.append_nil (render _),
        jsonGetString_not_string (by simp)]
  | arr inner es =>
      rw [jsonGetString_not_string (by simp), ← List.append_nil (render _),
        jsonGetString_not_string (by simp)]
  | obj inner ms =>
      rw [jsonGetString_not_string (by simp), ← List.append_nil (render _),
        jsonGetString_not_string (by simp)]

/-- A printed value is at its own start. -/
theorem at_render (v : Json) : At (render v) v :=
  ⟨[], trivial, by simp⟩

/-- The key read from a constant is a function of its tree. -/
theorem At.readConst {u : Json} (h : At t u) :
    readConst t = Sharegres.readConst (render u) := by
  have hint := findKey_bind (h.findKey (PgKey.text_plain .ival)) (PgKey.text_plain .ival)
  have hint' := findKey_bind ((at_render u).findKey (PgKey.text_plain .ival))
    (PgKey.text_plain .ival)
  have hstr := findKey_bind (h.findKey (PgKey.text_plain .sval)) (PgKey.text_plain .sval)
  have hstr' := findKey_bind ((at_render u).findKey (PgKey.text_plain .sval))
    (PgKey.text_plain .sval)
  rw [readConst_eq, readConst_eq]
  cases hi : (get? (PgKey.text .ival) u).bind (get? (PgKey.text .ival)) with
  | some j =>
      rw [hi] at hint hint'
      rcases rel_some hint with ⟨t₁, ht₁, r₁, hr₁, rfl⟩
      rcases rel_some hint' with ⟨t₂, ht₂, r₂, hr₂, rfl⟩
      rw [ht₁, ht₂]
      dsimp only
      rw [jsonGetInt_append j hr₁, jsonGetInt_append j hr₂]
  | none =>
      rw [hi] at hint hint'
      rw [rel_none hint, rel_none hint']
      dsimp only
      cases hs : (get? (PgKey.text .sval) u).bind (get? (PgKey.text .sval)) with
      | none =>
          rw [hs] at hstr hstr'
          rw [rel_none hstr, rel_none hstr']
      | some j =>
          rw [hs] at hstr hstr'
          rcases rel_some hstr with ⟨t₁, ht₁, r₁, -, rfl⟩
          rcases rel_some hstr' with ⟨t₂, ht₂, r₂, -, rfl⟩
          rw [ht₁, ht₂]
          dsimp only
          rw [jsonGetString_append j r₁, jsonGetString_append j r₂]

/-- The key of a value: that of the first constant in its tree. -/
def ValueTree.key (v : ValueTree) : Option ConstKey :=
  (v.json.find? (PgKey.text .aConst)).bind fun u => readConst (render u)

/-- A constant as a value. -/
def ValueTree.const (c : PgConst) (location : Int) : ValueTree where
  json := c.toJson location
  tight := by
    rw [PgConst.toJson, tight_node, tightMembers_append]
    cases c with
    | int n =>
        rw [PgConst.members, intField]
        split <;> rfl
    | bool b => cases b <;> rfl
    | _ => rfl

theorem ValueTree.const_key (c : PgConst) (location : Int) :
    (ValueTree.const c location).key = c.key := by
  unfold ValueTree.key
  rw [show (ValueTree.const c location).json = c.toJson location from rfl, PgConst.toJson,
    find?_node, if_pos rfl, Option.bind_some]
  exact readConst_toJson (at_render _)

/-! ## Rows -/

/-- Skipping elements of an array stops at its end. -/
theorem skipElems_render (es : List (Pad × Json)) (n : Nat) (r : Text) :
    skipElems n (renderElems Ws.none es ++ r) = renderElems Ws.none (es.drop n) ++ r := by
  induction n generalizing es with
  | zero => rfl
  | succ n ih =>
      cases es with
      | nil => simp [renderElems, skipElems, Ws.none]
      | cons e es =>
          rcases e with ⟨p, v⟩
          rw [renderElems]
          simp only [List.append_assoc]
          rcases ws_render_head p.before v (p.after.text ++ (renderElemTail es ++ r)) with
            ⟨b, q, hq, hb⟩
          rw [hq, skipElems, if_neg hb, ← hq, jsonSkipWhitespace_eq, skipSpace_append,
            skipSpace_render, skipItem_elem, ih, List.drop_succ_cons]

/-- The parse result after the second pass. -/
def recordInsertKey (result : ParseResult) (shardColumn : Text) : Option ConstKey → ParseResult
  | none => result
  | some key => { result.setKey key with shardKeyColumn := some shardColumn }

/-- Nothing is read from an empty row. -/
private theorem extractRowKey_empty (w : Ws) (r : Text) (shardColumn : Text) (pos : Nat)
    (result : ParseResult) :
    extractRowKey shardColumn pos (w.text ++ ([rbracket] ++ r)) result = some result := by
  have hspace : jsonSkipWhitespace (w.text ++ ([rbracket] ++ r)) = rbracket :: r := by
    rw [jsonSkipWhitespace_eq, skipSpace_append, List.singleton_append,
      skipSpace_cons_of_not (by decide)]
  have hstop : ∀ n, skipElems n (rbracket :: r) = rbracket :: r := by
    intro n
    cases n with
    | zero => rfl
    | succ n => rw [skipElems, if_pos rfl]
  have hitem : skipItem (rbracket :: r) = rbracket :: r := by
    simp [skipItem, jsonSkipValue, jsonSkipWhitespace, skipSpace, skipAtom, skipByte, isSpace,
      isDelim]
  have hskip : jsonSkipWhitespace (skipElems pos (w.text ++ ([rbracket] ++ r))) =
      rbracket :: r := by
    cases pos with
    | zero => exact hspace
    | succ n =>
        rcases hcons : w.text ++ ([rbracket] ++ r) with _ | ⟨b, p⟩
        · simp at hcons
        · rw [hcons] at hspace
          rw [skipElems]
          by_cases hb : b = rbracket
          · rw [if_pos hb, hspace]
          · rw [if_neg hb, hspace, hitem, hstop, jsonSkipWhitespace_eq,
              skipSpace_cons_of_not (by decide)]
  unfold extractRowKey
  rw [hskip]
  exact if_pos rfl

/-- The key of the value at a position of a row. -/
theorem extractRowKey_elems (inner : Ws) {es : List (Pad × Json)} (htight : tightElems es = true)
    (r : Text) (shardColumn : Text) (pos : Nat) (result : ParseResult) :
    extractRowKey shardColumn pos (renderElems inner es ++ r) result =
      some (recordInsertKey result shardColumn
        (((es.map Prod.snd)[pos]?.bind (find? (PgKey.text .aConst))).bind
          fun u => readConst (render u))) := by
  cases es with
  | nil =>
      rw [renderElems, List.append_assoc, extractRowKey_empty]
      rfl
  | cons e es' =>
      have hinner : renderElems inner (e :: es') = renderElems Ws.none (e :: es') := rfl
      unfold extractRowKey
      rw [hinner, skipElems_render, jsonSkipWhitespace_eq, List.getElem?_map]
      cases hdrop : (e :: es').drop pos with
      | nil =>
          have hnone : (e :: es')[pos]? = none := by
            rw [List.getElem?_eq_none_iff]
            exact List.drop_eq_nil_iff.mp hdrop
          rw [hnone, renderElems, List.append_assoc, skipSpace_append, List.singleton_append,
            skipSpace_cons_of_not (by decide)]
          simp [recordInsertKey]
      | cons entry rest =>
          rcases entry with ⟨p, v⟩
          have hsome : (e :: es')[pos]? = some (p, v) := by
            rw [← List.head?_drop, hdrop]
            rfl
          have htightv : v.tight = true :=
            tight_of_mem_elems htight (List.mem_of_getElem? hsome)
          rw [hsome, renderElems]
          simp only [List.append_assoc]
          rw [skipSpace_append, skipSpace_render, Option.map_some, Option.bind_some]
          have hat : At (render v ++ (p.after.text ++ (renderElemTail rest ++ r))) v :=
            ⟨_, follows_ws_append _ (follows_elemTail _ r), rfl⟩
          rcases hat.search htightv (PgKey.text_plain .aConst) with ⟨o, hrec, hrel⟩
          rcases render_head v with ⟨b, q, hv, -, hb, -⟩
          rw [hv, List.cons_append] at hrec ⊢
          dsimp only
          rw [if_neg hb, show jsonFindKeyRecursive (ascii "A_Const") _ _ = some o from hrec]
          cases hfind : find? (PgKey.text .aConst) v with
          | none =>
              rw [hfind] at hrel
              rw [rel_none hrel]
              rfl
          | some u =>
              rw [hfind] at hrel
              rcases rel_some hrel with ⟨t, rfl, hat'⟩
              dsimp only
              rw [hat'.readConst, Option.bind_some]
              cases readConst (render u) <;> rfl

end Sharegres
