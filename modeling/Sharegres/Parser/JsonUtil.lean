import Sharegres.Foundation.JsonText

/-!
# Parser - The JSON navigator

Model of {lit}`src/parser/json_util.c`.  A {lit}`const char *` into the parse tree
is the suffix of the text that starts there, a {lit}`NULL` result is
{lean}`none`, and the terminating NUL is the empty suffix.  A scan that would step
over the terminator of a truncated document stays on it.

Loops run on a fuel argument.  Where every iteration consumes a byte the fuel is
the length of the text and never runs out, which the lemmas on the unfolded loops
below make precise.  The recursive search can loop forever on a malformed array,
so its result is an outer {lean}`none` when the fuel is used up.

Main results:

- Definitions {lit}`jsonSkipValue`, {lit}`jsonFindKey`,
  {lit}`jsonFindKeyRecursive` and {lit}`jsonFindAllValues`: the navigator.
- Theorems {lit}`skipNested_cons`, {lit}`findKeyFrom_eq` and
  {lit}`jsonFindAllValues_cons`: the loops without their fuel.
-/

namespace Sharegres

open Foundation

/-! ## Scanning -/

/-- {lit}`json_skip_whitespace`. -/
def jsonSkipWhitespace (p : Text) : Text :=
  skipSpace p

/-- The loop shared by {lit}`skip_string` and {lit}`json_get_string`: from behind
the opening quote to the closing quote or the end. -/
def scanString : Text → Text
  | [] => []
  | b :: p =>
      if b = dquote then b :: p
      else if b = backslash then
        match p with
        | [] => []
        | _ :: q => scanString q
      else scanString p

/-- Step over one byte if it is the expected one. -/
def skipByte (b : UInt8) : Text → Text
  | [] => []
  | c :: p => if c = b then p else c :: p

/-- {lit}`skip_string`: a text that does not start with a quote is left alone. -/
def skipString : Text → Text
  | [] => []
  | b :: p => if b = dquote then skipByte dquote (scanString p) else b :: p

/-- The bracket-counting loop of {lit}`json_skip_value`. -/
def skipNestedLoop (opening closing : UInt8) : Nat → Nat → Text → Text
  | 0, _, p => p
  | fuel + 1, depth, p =>
      match depth, p with
      | 0, p => p
      | _, [] => []
      | depth + 1, b :: q =>
          if b = opening then skipNestedLoop opening closing fuel (depth + 2) q
          else if b = closing then skipNestedLoop opening closing fuel depth q
          else if b = dquote then
            skipNestedLoop opening closing fuel (depth + 1) (skipString (b :: q))
          else skipNestedLoop opening closing fuel (depth + 1) q

/-- Leave {lit}`depth` levels of brackets. -/
def skipNested (opening closing : UInt8) (depth : Nat) (p : Text) : Text :=
  skipNestedLoop opening closing p.length depth p

/-- The default branch of {lit}`json_skip_value`: numbers and literal names. -/
def skipAtom : Text → Text
  | [] => []
  | b :: p => if Json.isDelim b then b :: p else skipAtom p

/-- {lit}`json_skip_value`. -/
def jsonSkipValue (p : Text) : Text :=
  match jsonSkipWhitespace p with
  | [] => []
  | b :: q =>
      if b = dquote then skipString (b :: q)
      else if b = lbrace then skipNested lbrace rbrace 1 q
      else if b = lbracket then skipNested lbracket rbracket 1 q
      else skipAtom (b :: q)

/-! ## Lookup -/

/-- {lit}`strncmp(p, key, keylen) == 0 && p[keylen] == '"'`. -/
def matchesKey (key p : Text) : Bool :=
  (key ++ [dquote]).isPrefixOf p

/-- From the quote of a key to the start of its value. -/
def skipKey (p : Text) : Text :=
  jsonSkipWhitespace (skipByte colon (jsonSkipWhitespace (skipString p)))

/-- From the start of a value over the value and a following comma. -/
def skipItem (p : Text) : Text :=
  skipByte comma (jsonSkipWhitespace (jsonSkipValue p))

/-- The member loop of {lit}`json_find_key`. -/
def findKeyLoop (key : Text) : Nat → Text → Option Text
  | 0, _ => none
  | fuel + 1, json =>
      match json with
      | [] => none
      | b :: _ =>
          if b = rbrace then none
          else
            match jsonSkipWhitespace json with
            | [] => none
            | c :: q =>
                if c = dquote then
                  if matchesKey key q then
                    some (jsonSkipWhitespace (skipByte colon
                      (jsonSkipWhitespace (q.drop (key.length + 1)))))
                  else findKeyLoop key fuel (skipItem (skipKey (c :: q)))
                else none

/-- The member loop with enough fuel. -/
def findKeyFrom (key p : Text) : Option Text :=
  findKeyLoop key p.length p

/-- {lit}`json_find_key`. -/
def jsonFindKey (json key : Text) : Option Text :=
  match jsonSkipWhitespace json with
  | [] => none
  | b :: q => if b = lbrace then findKeyFrom key q else none

/-- {lit}`json_get_string`: the raw text between the quotes. -/
def jsonGetString (json : Text) : Option Text :=
  match jsonSkipWhitespace json with
  | [] => none
  | b :: start =>
      if b = dquote then some (start.take (start.length - (scanString start).length))
      else none

/-- {lit}`json_get_int`. -/
def jsonGetInt (json : Text) : Int64 :=
  strtoll (jsonSkipWhitespace json)

/-- {lit}`json_starts_with_key`. -/
def jsonStartsWithKey (json key : Text) : Bool :=
  match jsonSkipWhitespace json with
  | [] => false
  | b :: q =>
      if b = lbrace then
        match jsonSkipWhitespace q with
        | [] => false
        | c :: r => if c = dquote then matchesKey key r else false
      else false

/-! ## Search at any depth -/

mutual

/-- {lit}`json_find_key_recursive`. -/
def jsonFindKeyRecursive (key : Text) : Nat → Text → Option (Option Text)
  | 0, _ => none
  | fuel + 1, json =>
      match jsonSkipWhitespace json with
      | [] => some none
      | b :: q =>
          if b = lbrace then
            match jsonFindKey (b :: q) key with
            | some val => some (some val)
            | none => recurseMembers key fuel q
          else if b = lbracket then recurseElems key fuel q
          else some none

/-- The loop of {lit}`json_find_key_recursive` over the values of an object. -/
def recurseMembers (key : Text) : Nat → Text → Option (Option Text)
  | 0, _ => none
  | fuel + 1, p =>
      match p with
      | [] => some none
      | b :: _ =>
          if b = rbrace then some none
          else
            match jsonSkipWhitespace p with
            | [] => some none
            | c :: q =>
                if c = dquote then
                  match jsonFindKeyRecursive key fuel (skipKey (c :: q)) with
                  | none => none
                  | some (some found) => some (some found)
                  | some none => recurseMembers key fuel (skipItem (skipKey (c :: q)))
                else recurseMembers key fuel q

/-- The loop of {lit}`json_find_key_recursive` over the elements of an array. -/
def recurseElems (key : Text) : Nat → Text → Option (Option Text)
  | 0, _ => none
  | fuel + 1, p =>
      match p with
      | [] => some none
      | b :: _ =>
          if b = rbracket then some none
          else
            match jsonSkipWhitespace p with
            | [] => some none
            | c :: q =>
                if c = rbracket then some none
                else
                  match jsonFindKeyRecursive key fuel (c :: q) with
                  | none => none
                  | some (some found) => some (some found)
                  | some none => recurseElems key fuel (skipItem (c :: q))

end

/-- Fuel that suffices for every search of a text that ends. -/
def searchFuel (p : Text) : Nat :=
  2 * p.length + 2

/-- The linear scan of {lit}`json_find_all_values`. -/
def findAllLoop (key : Text) : Nat → Text → List Text
  | 0, _ => []
  | fuel + 1, p =>
      match p with
      | [] => []
      | b :: q =>
          if b = dquote then
            if matchesKey key q then
              match jsonSkipWhitespace (q.drop (key.length + 1)) with
              | [] => findAllLoop key fuel (skipString (b :: q))
              | c :: after =>
                  if c = colon then
                    jsonSkipWhitespace after ::
                      findAllLoop key fuel (jsonSkipValue (jsonSkipWhitespace after))
                  else findAllLoop key fuel (skipString (b :: q))
            else findAllLoop key fuel (skipString (b :: q))
          else findAllLoop key fuel q

/-- {lit}`json_find_all_values`: the positions of the values found. -/
def jsonFindAllValues (json key : Text) : List Text :=
  findAllLoop key json.length json

/-! ## Progress of the scanners -/

theorem skipByte_length_le (b : UInt8) (p : Text) : (skipByte b p).length ≤ p.length := by
  cases p with
  | nil => simp [skipByte]
  | cons c p =>
      rw [skipByte]
      split
      · simp
      · simp

/-- A byte of a string. -/
theorem scanString_cons (b : UInt8) (p : Text) :
    scanString (b :: p) =
      if b = dquote then b :: p
      else if b = backslash then
        match p with
        | [] => []
        | _ :: q => scanString q
      else scanString p := by
  cases p <;> rfl

theorem scanString_length_le (p : Text) : (scanString p).length ≤ p.length := by
  induction p using scanString.induct with
  | case1 => simp [scanString]
  | case2 p => simp [scanString_cons]
  | case3 h => simp [scanString_cons]
  | case4 c q h ih =>
      rw [scanString_cons, if_neg h, if_pos rfl]
      simp only [List.length_cons]
      omega
  | case5 b p hq hb ih =>
      rw [scanString_cons, if_neg hq, if_neg hb]
      simp only [List.length_cons]
      omega

/-- Skipping a quoted string consumes at least its opening quote. -/
theorem skipString_dquote_length_le (p : Text) :
    (skipString (dquote :: p)).length ≤ p.length := by
  rw [skipString, if_pos rfl]
  exact le_trans (skipByte_length_le _ _) (scanString_length_le p)

theorem skipString_length_le (p : Text) : (skipString p).length ≤ p.length := by
  cases p with
  | nil => simp [skipString]
  | cons b p =>
      by_cases hb : b = dquote
      · subst hb
        exact le_trans (skipString_dquote_length_le p) (by simp)
      · simp [skipString, show ¬b = 34 from hb]

private theorem skipNestedLoop_length_le (opening closing : UInt8) (fuel depth : Nat)
    (p : Text) : (skipNestedLoop opening closing fuel depth p).length ≤ p.length := by
  induction fuel generalizing depth p with
  | zero => simp [skipNestedLoop]
  | succ fuel ih =>
      cases depth with
      | zero => cases p <;> simp [skipNestedLoop]
      | succ depth =>
          cases p with
          | nil => simp [skipNestedLoop]
          | cons b q =>
              unfold skipNestedLoop
              dsimp only
              split
              · exact le_trans (ih _ _) (by simp)
              · split
                · exact le_trans (ih _ _) (by simp)
                · split
                  · exact le_trans (ih _ _) (skipString_length_le _)
                  · exact le_trans (ih _ _) (by simp)

theorem skipAtom_length_le (p : Text) : (skipAtom p).length ≤ p.length := by
  induction p with
  | nil => simp [skipAtom]
  | cons b p ih =>
      unfold skipAtom
      split
      · exact le_rfl
      · exact le_trans ih (by simp)

/-- A value that is skipped leaves no more than there was. -/
theorem jsonSkipValue_length_le (p : Text) : (jsonSkipValue p).length ≤ p.length := by
  have hws := skipSpace_length_le p
  unfold jsonSkipValue jsonSkipWhitespace
  cases hp : skipSpace p with
  | nil => simp
  | cons b q =>
      rw [hp, List.length_cons] at hws
      dsimp only
      split
      · exact le_trans (skipString_length_le _) (by simpa using hws)
      · split
        · exact le_trans (skipNestedLoop_length_le _ _ _ _ _) (by omega)
        · split
          · exact le_trans (skipNestedLoop_length_le _ _ _ _ _) (by omega)
          · exact le_trans (skipAtom_length_le _) (by simpa using hws)

theorem skipItem_length_le (p : Text) : (skipItem p).length ≤ p.length := by
  unfold skipItem
  refine le_trans (skipByte_length_le _ _) ?_
  exact le_trans (skipSpace_length_le _) (jsonSkipValue_length_le p)

/-- Skipping a key consumes at least its opening quote. -/
theorem skipKey_dquote_length_le (p : Text) : (skipKey (dquote :: p)).length ≤ p.length := by
  unfold skipKey
  refine le_trans (skipSpace_length_le _) ?_
  refine le_trans (skipByte_length_le _ _) ?_
  exact le_trans (skipSpace_length_le _) (skipString_dquote_length_le p)

/-! ## Loops without fuel -/

/-- More fuel changes nothing. -/
private theorem skipNestedLoop_fuel (opening closing : UInt8) {fuel fuel' : Nat}
    (depth : Nat) (p : Text) (h : p.length ≤ fuel) (h' : p.length ≤ fuel') :
    skipNestedLoop opening closing fuel depth p =
      skipNestedLoop opening closing fuel' depth p := by
  induction fuel generalizing fuel' depth p with
  | zero =>
      have hp : p = [] := by simpa using h
      subst hp
      cases fuel' with
      | zero => rfl
      | succ fuel' => cases depth <;> simp [skipNestedLoop]
  | succ fuel ih =>
      cases p with
      | nil =>
          cases fuel' with
          | zero => cases depth <;> simp [skipNestedLoop]
          | succ fuel' => cases depth <;> simp [skipNestedLoop]
      | cons b q =>
          simp only [List.length_cons] at h h'
          cases fuel' with
          | zero => omega
          | succ fuel' =>
              cases depth with
              | zero => simp [skipNestedLoop]
              | succ depth =>
                  unfold skipNestedLoop
                  dsimp only
                  split
                  · exact ih _ _ (by omega) (by omega)
                  · split
                    · exact ih _ _ (by omega) (by omega)
                    · split
                      · rename_i hb
                        subst hb
                        have hlen := skipString_dquote_length_le q
                        exact ih _ _ (by omega) (by omega)
                      · exact ih _ _ (by omega) (by omega)

@[simp]
theorem skipNested_zero (opening closing : UInt8) (p : Text) :
    skipNested opening closing 0 p = p := by
  unfold skipNested
  cases p <;> simp [skipNestedLoop]

/-- One iteration of the bracket-counting loop. -/
theorem skipNested_cons (opening closing : UInt8) (depth : Nat) (b : UInt8) (q : Text) :
    skipNested opening closing (depth + 1) (b :: q) =
      if b = opening then skipNested opening closing (depth + 2) q
      else if b = closing then skipNested opening closing depth q
      else if b = dquote then skipNested opening closing (depth + 1) (skipString (b :: q))
      else skipNested opening closing (depth + 1) q := by
  unfold skipNested
  rw [List.length_cons, skipNestedLoop]
  split
  · rfl
  · split
    · rfl
    · split
      · rename_i hb
        subst hb
        exact skipNestedLoop_fuel _ _ _ _ (skipString_dquote_length_le q) le_rfl
      · rfl

private theorem findKeyLoop_fuel (key : Text) {fuel fuel' : Nat} (p : Text)
    (h : p.length ≤ fuel) (h' : p.length ≤ fuel') :
    findKeyLoop key fuel p = findKeyLoop key fuel' p := by
  induction fuel generalizing fuel' p with
  | zero =>
      have hp : p = [] := by simpa using h
      subst hp
      cases fuel' <;> simp [findKeyLoop]
  | succ fuel ih =>
      cases p with
      | nil => cases fuel' <;> simp [findKeyLoop]
      | cons b q =>
          cases fuel' with
          | zero => simp at h'
          | succ fuel' =>
              unfold findKeyLoop
              dsimp only
              split
              · rfl
              · cases hp : jsonSkipWhitespace (b :: q) with
                | nil => rfl
                | cons c r =>
                    dsimp only
                    have hlen := skipSpace_length_le (b :: q)
                    unfold jsonSkipWhitespace at hp
                    rw [hp] at hlen
                    simp only [List.length_cons] at h h' hlen
                    split
                    · rename_i hc
                      subst hc
                      split
                      · rfl
                      · have hnext := skipItem_length_le (skipKey (dquote :: r))
                        have hkey := skipKey_dquote_length_le r
                        exact ih _ (by omega) (by omega)
                    · rfl

/-- One iteration of the member loop. -/
theorem findKeyFrom_eq (key p : Text) :
    findKeyFrom key p =
      match p with
      | [] => none
      | b :: _ =>
          if b = rbrace then none
          else
            match jsonSkipWhitespace p with
            | [] => none
            | c :: q =>
                if c = dquote then
                  if matchesKey key q then
                    some (jsonSkipWhitespace (skipByte colon
                      (jsonSkipWhitespace (q.drop (key.length + 1)))))
                  else findKeyFrom key (skipItem (skipKey (c :: q)))
                else none := by
  unfold findKeyFrom
  cases p with
  | nil => simp [findKeyLoop]
  | cons b p =>
      rw [List.length_cons, findKeyLoop]
      dsimp only
      split
      · rfl
      · cases hp : jsonSkipWhitespace (b :: p) with
        | nil => rfl
        | cons c q =>
            dsimp only
            have hlen := skipSpace_length_le (b :: p)
            unfold jsonSkipWhitespace at hp
            rw [hp] at hlen
            simp only [List.length_cons] at hlen
            split
            · rename_i hc
              subst hc
              split
              · rfl
              · have hnext := skipItem_length_le (skipKey (dquote :: q))
                have hkey := skipKey_dquote_length_le q
                exact findKeyLoop_fuel key _ (by omega) le_rfl
            · rfl

private theorem findAllLoop_fuel (key : Text) {fuel fuel' : Nat} (p : Text)
    (h : p.length ≤ fuel) (h' : p.length ≤ fuel') :
    findAllLoop key fuel p = findAllLoop key fuel' p := by
  induction fuel generalizing fuel' p with
  | zero =>
      have hp : p = [] := by simpa using h
      subst hp
      cases fuel' <;> simp [findAllLoop]
  | succ fuel ih =>
      cases p with
      | nil => cases fuel' <;> simp [findAllLoop]
      | cons b q =>
          cases fuel' with
          | zero => simp at h'
          | succ fuel' =>
              simp only [List.length_cons] at h h'
              unfold findAllLoop
              dsimp only
              split
              · rename_i hb
                subst hb
                have hstr := skipString_dquote_length_le q
                have hskip : findAllLoop key fuel (skipString (dquote :: q)) =
                    findAllLoop key fuel' (skipString (dquote :: q)) :=
                  ih _ (by omega) (by omega)
                split
                · cases hp : jsonSkipWhitespace (q.drop (key.length + 1)) with
                  | nil => exact hskip
                  | cons c after =>
                      dsimp only
                      have hlen := skipSpace_length_le (q.drop (key.length + 1))
                      have hws := skipSpace_length_le after
                      unfold jsonSkipWhitespace at hp
                      rw [hp] at hlen
                      simp only [List.length_cons, List.length_drop] at hlen
                      split
                      · have hval := jsonSkipValue_length_le (jsonSkipWhitespace after)
                        unfold jsonSkipWhitespace at hval ⊢
                        refine congrArg _ ?_
                        exact ih _ (by omega) (by omega)
                      · exact hskip
                · exact hskip
              · exact ih _ (by omega) (by omega)

/-- One iteration of the linear scan. -/
theorem jsonFindAllValues_cons (key : Text) (b : UInt8) (q : Text) :
    jsonFindAllValues (b :: q) key =
      if b = dquote then
        if matchesKey key q then
          match jsonSkipWhitespace (q.drop (key.length + 1)) with
          | [] => jsonFindAllValues (skipString (b :: q)) key
          | c :: after =>
              if c = colon then
                jsonSkipWhitespace after ::
                  jsonFindAllValues (jsonSkipValue (jsonSkipWhitespace after)) key
              else jsonFindAllValues (skipString (b :: q)) key
        else jsonFindAllValues (skipString (b :: q)) key
      else jsonFindAllValues q key := by
  unfold jsonFindAllValues
  rw [List.length_cons, findAllLoop]
  split
  · rename_i hb
    subst hb
    have hstr := skipString_dquote_length_le q
    have hskip : findAllLoop key q.length (skipString (dquote :: q)) =
        findAllLoop key (skipString (dquote :: q)).length (skipString (dquote :: q)) :=
      findAllLoop_fuel key _ hstr le_rfl
    split
    · cases hp : jsonSkipWhitespace (q.drop (key.length + 1)) with
      | nil => exact hskip
      | cons c after =>
          dsimp only
          have hlen := skipSpace_length_le (q.drop (key.length + 1))
          have hws := skipSpace_length_le after
          unfold jsonSkipWhitespace at hp
          rw [hp] at hlen
          simp only [List.length_cons, List.length_drop] at hlen
          split
          · have hval := jsonSkipValue_length_le (jsonSkipWhitespace after)
            unfold jsonSkipWhitespace at hval ⊢
            rw [findAllLoop_fuel key _ (by omega) le_rfl]
          · exact hskip
    · exact hskip
  · rfl

end Sharegres
