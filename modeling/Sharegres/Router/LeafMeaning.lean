import Sharegres.Parser.KeyExtraction
import Sharegres.Router.WhereRouting

/-!
# Router - The meaning of one comparison

Several constructs of SQL are printed as an {lit}`A_Expr` node with the operator name
{lit}`=`; they differ in the kind of the node only, which the extractor does not look at.
Nor does it look past the first field of a column reference, where a qualifier stands in
front of the name.  This file gives the kinds a meaning on rows and says for which of them
the key that is extracted is entailed.

Main results:

- Definition {lit}`ColumnType.Holds`: a comparison is true of a column value.
- Definition {lit}`LeafSound`: where the comparison is true, the column has the key.
- Theorem {lit}`leaf_sound_iff`: the comparisons that are sound.
- Theorem {lit}`distinct_and_qualified_unsound`: an {lit}`IS DISTINCT FROM`, and a column with
  a qualifier.
-/

namespace Sharegres

open Foundation Foundation.Json

/-! ## Columns and conditions -/

/-- The column that a reference names: its last field. -/
def refColumn (first : Text) (more : List RefField) : Option Text :=
  match more.getLast? with
  | none => some first
  | some (.name s) => some s
  | some .star => none

/-- A column type of PostgreSQL: its values, the values that constants and array constants
stand for in a comparison with the column, and the values that count as true. -/
structure ColumnType where
  Value : Type
  read : PgConst → Option Value
  readArray : PgConst → Option (List (Option Value))
  truth : Value → Bool

namespace ColumnType

variable (T : ColumnType)

/-- The comparison by {lit}`=` of a value or NULL with a constant is true.  The kinds for
LIKE and its relatives apply the operator as it is; the grammar gives those for BETWEEN a
list on the right, so that a constant there is no comparison. -/
def Holds (kind : AExprKind) (value : PgConst) (v : Option T.Value) : Prop :=
  match kind with
  | .op | .inList | .like | .ilike | .similar => ∃ x, v = some x ∧ T.read value = some x
  | .opAny => ∃ x xs, v = some x ∧ T.readArray value = some xs ∧ some x ∈ xs
  | .opAll => ∃ xs, T.readArray value = some xs ∧ ∀ e ∈ xs, ∃ x, v = some x ∧ e = some x
  | .distinct => if value = .null then v ≠ none else ∃ y, T.read value = some y ∧ v ≠ some y
  | .notDistinct => if value = .null then v = none else ∃ y, T.read value = some y ∧ v = some y
  | .nullif => ∃ x, v = some x ∧ T.truth x = true ∧
      (value = .null ∨ ∃ y, T.read value = some y ∧ x ≠ y)
  | .between | .notBetween | .betweenSym | .notBetweenSym => False

end ColumnType

/-- The constant that a key stands for. -/
def ConstKey.toConst : ConstKey → PgConst
  | .int value => .int value.toInt32
  | .str (some s) => .str s
  | .str none => .null

/-- A value equals a key. -/
def ColumnType.Equals (T : ColumnType) (key : ConstKey) (v : Option T.Value) : Prop :=
  ∃ x, v = some x ∧ T.read key.toConst = some x

/-- The columns of a table. -/
abbrev Columns := Text → ColumnType

/-- A row gives every column a value or NULL. -/
abbrev TypedRow (columns : Columns) := (c : Text) → Option (columns c).Value

/-- The node of a comparison by {lit}`=` between a column reference and a constant. -/
def leafExpr (kind : AExprKind) (first : Text) (more : List RefField) (value : PgConst)
    (locations : LeafLocations) : PgExpr :=
  .aexpr kind (ascii "=") [] (some (.column first more locations.column))
    (some (.const value locations.literal)) locations.expr

/-- Where the comparison is true, the column that the extractor names equals the key that it
records. -/
def LeafSound (columns : Columns) (kind : AExprKind) (first : Text) (more : List RefField)
    (value : PgConst) : Prop :=
  ∀ (locations : LeafLocations) (t : Text) (base result : ParseResult) (c : Text)
    (key : ConstKey), At t (leafExpr kind first more value locations).toJson →
    base.shardKeyFound = false →
    extractShardKeyFromWhere (searchFuel t) t base = some result →
    result.shardKeyColumn = some c → result.key? = some key →
    ∀ (d : Text) (row : TypedRow columns), refColumn first more = some d →
      (columns d).Holds kind value (row d) → (columns c).Equals key (row c)

/-! ## What is extracted -/

theorem leafExpr_key (kind : AExprKind) (first : Text) (more : List RefField) (value : PgConst)
    (locations : LeafLocations) :
    (leafExpr kind first more value locations).key = value.key.map (first, ·) := by
  rw [leafExpr, PgExpr.key, if_pos rfl]
  rfl

/-- The extractor on a comparison records the first field and the key of the constant. -/
theorem extractShardKeyFromWhere_leaf {kind : AExprKind} {first : Text} {more : List RefField}
    {value : PgConst} {locations : LeafLocations} {t : Text}
    (hat : At t (leafExpr kind first more value locations).toJson) (base : ParseResult)
    (hbase : base.shardKeyFound = false) :
    ∃ result, extractShardKeyFromWhere (searchFuel t) t base = some result ∧
      result.key? = value.key ∧
      (value.key.isSome → result.shardKeyColumn = some (outToken first)) := by
  have hfuel : 2 * (render (leafExpr kind first more value locations).toJson).length ≤
      searchFuel t := by
    rcases hat with ⟨r, -, rfl⟩
    rw [searchFuel, List.length_append]
    omega
  rcases extractShardKeyFromWhere_expr _ hat hbase hfuel with ⟨result, hextract, hkey⟩
  have hread : result.key? = _ := hkey.key_eq (if_neg (by rw [hbase]; simp))
  rw [leafExpr_key] at hkey hread
  refine ⟨result, hextract, ?_, ?_⟩
  · rw [hread, Option.map_map]
    cases value.key <;> rfl
  · intro hsome
    rcases Option.isSome_iff_exists.mp hsome with ⟨key, hvalue⟩
    rw [hvalue] at hkey
    exact congrArg StmtInfo.column hkey

/-! ## Sound comparisons -/

/-- The kinds whose comparison entails that the value is the key.  A NULL is distinct from
every constant, and equal to all elements of an empty array. -/
def ColumnType.KindSound (T : ColumnType) (kind : AExprKind) (value : PgConst) (key : ConstKey) :
    Prop :=
  match kind with
  | .op | .inList | .like | .ilike | .similar | .notDistinct =>
      ∀ x, T.read value = some x → T.read key.toConst = some x
  | .opAny => ∀ xs x, T.readArray value = some xs → some x ∈ xs → T.read key.toConst = some x
  | .opAll => ∀ xs, T.readArray value = some xs →
      xs ≠ [] ∧ ∀ x, (∀ e ∈ xs, e = some x) → T.read key.toConst = some x
  | .distinct => False
  | .nullif => ∀ x y, T.truth x = true → T.read value = some y → x ≠ y →
      T.read key.toConst = some x
  | .between | .notBetween | .betweenSym | .notBetweenSym => True

theorem PgConst.ne_null_of_key {value : PgConst} {key : ConstKey} (h : value.key = some key) :
    value ≠ .null := by
  rintro rfl
  cases h

namespace ColumnType

variable (T : ColumnType) {value : PgConst} {key : ConstKey}

theorem not_equals_null : ¬ T.Equals key none := by
  rintro ⟨x, hx, -⟩
  cases hx

/-- A comparison that can be true entails the key exactly if its kind is sound. -/
theorem holds_equals_iff {kind : AExprKind} (hkey : value.key = some key)
    (hsat : ∃ v, T.Holds kind value v) :
    (∀ v, T.Holds kind value v → T.Equals key v) ↔ T.KindSound kind value key := by
  have hnull := PgConst.ne_null_of_key hkey
  have heq : (∀ v, (∃ x, v = some x ∧ T.read value = some x) → T.Equals key v) ↔
      ∀ x, T.read value = some x → T.read key.toConst = some x := by
    constructor
    · intro h x hx
      rcases h (some x) ⟨x, rfl, hx⟩ with ⟨y, hy, hread⟩
      cases hy
      exact hread
    · rintro h v ⟨x, rfl, hx⟩
      exact ⟨x, rfl, h x hx⟩
  cases kind with
  | op => exact heq
  | inList => exact heq
  | like => exact heq
  | ilike => exact heq
  | similar => exact heq
  | notDistinct =>
      simp only [Holds, if_neg hnull, KindSound]
      rw [← heq]
      refine forall_congr' fun v => imp_congr_left ?_
      exact exists_congr fun x => and_comm
  | opAny =>
      simp only [Holds, KindSound]
      constructor
      · intro h xs x hxs hx
        rcases h (some x) ⟨x, xs, rfl, hxs, hx⟩ with ⟨y, hy, hread⟩
        cases hy
        exact hread
      · rintro h v ⟨x, xs, rfl, hxs, hx⟩
        exact ⟨x, rfl, h xs x hxs hx⟩
  | opAll =>
      simp only [Holds, KindSound]
      constructor
      · intro h xs hxs
        refine ⟨?_, fun x hall => ?_⟩
        · rintro rfl
          exact T.not_equals_null (h none ⟨[], hxs, by simp⟩)
        · rcases h (some x) ⟨xs, hxs, fun e he => ⟨x, rfl, hall e he⟩⟩ with ⟨y, hy, hread⟩
          cases hy
          exact hread
      · rintro h v ⟨xs, hxs, hall⟩
        rcases h xs hxs with ⟨hne, hsound⟩
        rcases List.exists_mem_of_ne_nil xs hne with ⟨e, he⟩
        rcases hall e he with ⟨x, rfl, -⟩
        refine ⟨x, rfl, hsound x fun e' he' => ?_⟩
        rcases hall e' he' with ⟨y, hy, rfl⟩
        exact hy.symm
  | distinct =>
      simp only [Holds, if_neg hnull, KindSound, iff_false] at hsat ⊢
      rcases hsat with ⟨v, y, hy, -⟩
      intro h
      exact T.not_equals_null (h none ⟨y, hy, by simp⟩)
  | nullif =>
      simp only [Holds, hnull, false_or, KindSound]
      constructor
      · intro h x y hx hy hne
        rcases h (some x) ⟨x, rfl, hx, y, hy, hne⟩ with ⟨z, hz, hread⟩
        cases hz
        exact hread
      · rintro h v ⟨x, rfl, hx, y, hy, hne⟩
        exact ⟨x, rfl, h x y hx hy hne⟩
  | between => simp [Holds, KindSound]
  | notBetween => simp [Holds, KindSound]
  | betweenSym => simp [Holds, KindSound]
  | notBetweenSym => simp [Holds, KindSound]

end ColumnType

/-- A comparison is sound exactly if it has no key, or can never be true, or the first field
of its column reference is printed as the name of the column and its kind entails the key. -/
theorem leaf_sound_iff (columns : Columns) (kind : AExprKind) {first : Text}
    {more : List RefField} {d : Text} (hd : refColumn first more = some d) (value : PgConst) :
    LeafSound columns kind first more value ↔
      ∀ key, value.key = some key → (∃ v, (columns d).Holds kind value v) →
        outToken first = d ∧ (columns d).KindSound kind value key := by
  constructor
  · intro hsound key hkey hsat
    have hat : At (render (leafExpr kind first more value ⟨0, 0, 0⟩).toJson)
        (leafExpr kind first more value ⟨0, 0, 0⟩).toJson := ⟨[], trivial, by simp⟩
    rcases extractShardKeyFromWhere_leaf hat {} rfl with
      ⟨result, hextract, hread, hcolumn⟩
    rw [hkey] at hread hcolumn
    have hrows : ∀ row : TypedRow columns, (columns d).Holds kind value (row d) →
        (columns (outToken first)).Equals key (row (outToken first)) := fun row =>
      hsound ⟨0, 0, 0⟩ _ {} result (outToken first) key hat rfl hextract (hcolumn rfl) hread d row
        hd
    have hname : outToken first = d := by
      -- a row with NULL in every other column
      by_contra hne
      rcases hsat with ⟨v, hv⟩
      have hrow := hrows (Function.update (fun _ => none) d v) (by rwa [Function.update_self])
      rw [Function.update_of_ne hne] at hrow
      exact (columns (outToken first)).not_equals_null hrow
    refine ⟨hname, ((columns d).holds_equals_iff hkey hsat).mp fun v hv => ?_⟩
    rw [hname] at hrows
    have hrow := hrows (Function.update (fun _ => none) d v) (by rwa [Function.update_self])
    rwa [Function.update_self] at hrow
  · intro hcond locations t base result c key hat hbase hextract hcolumn hkey d' row hd' hholds
    rw [hd, Option.some.injEq] at hd'
    subst hd'
    rcases extractShardKeyFromWhere_leaf hat base hbase with ⟨result', hextract', hread, hcolumn'⟩
    rw [hextract, Option.some.injEq] at hextract'
    subst hextract'
    rw [hkey] at hread
    rcases hcond key hread.symm ⟨row d, hholds⟩ with ⟨hname, hkind⟩
    rw [← hread, hcolumn, hname, Option.some.injEq] at hcolumn'
    rw [hcolumn' rfl]
    exact ((columns d).holds_equals_iff hread.symm ⟨row d, hholds⟩).mpr hkind (row d) hholds

/-- Integer columns. -/
def integerColumn : ColumnType where
  Value := Int
  read
    | .int n => some n.toInt
    | _ => none
  readArray _ := none
  truth x := x != 0

/-- {lit}`id = 5` is sound. -/
theorem plain_equality_sound :
    LeafSound (fun _ => integerColumn) .op (ascii "id") [] (.int 5) := by
  refine (leaf_sound_iff (fun _ => integerColumn) .op (d := ascii "id") rfl (.int 5)).mpr ?_
  rintro key hkey -
  have hkey' : key = .int 5 := by
    rw [show (PgConst.int 5).key = some (.int 5) by decide +kernel, Option.some.injEq] at hkey
    exact hkey.symm
  subst hkey'
  exact ⟨by decide +kernel, fun x hx => hx⟩

/-- From {lit}`id IS DISTINCT FROM 5` the key 5 is taken, though the row with 1 satisfies it;
from {lit}`t.id = 5` the column {lit}`t` is taken, though a row with 5 in {lit}`id` need not
have it there. -/
theorem distinct_and_qualified_unsound :
    ¬ LeafSound (fun _ => integerColumn) .distinct (ascii "id") [] (.int 5) ∧
      ¬ LeafSound (fun _ => integerColumn) .op (ascii "t") [.name (ascii "id")] (.int 5) := by
  constructor
  · intro hsound
    have hextract : extractShardKeyFromWhere
        (searchFuel (render (leafExpr .distinct (ascii "id") [] (.int 5) ⟨0, 0, 0⟩).toJson))
        (render (leafExpr .distinct (ascii "id") [] (.int 5) ⟨0, 0, 0⟩).toJson) {} =
        some { ({} : ParseResult).setKey (.int 5) with
          shardKeyColumn := some (ascii "id") } := by decide +kernel
    have hrow := hsound ⟨0, 0, 0⟩ _ {} _ (ascii "id") (.int 5) ⟨[], trivial, by simp⟩ rfl hextract
      (by decide +kernel) (by decide +kernel) (ascii "id") (fun _ => some (1 : Int)) rfl
      ⟨(5 : Int), rfl, show some (1 : Int) ≠ some 5 by decide⟩
    rcases hrow with ⟨x, hx, hread⟩
    cases hx
    exact absurd (show some (5 : Int) = some 1 from hread) (by decide)
  · intro hsound
    have hextract : extractShardKeyFromWhere
        (searchFuel (render (leafExpr .op (ascii "t") [.name (ascii "id")] (.int 5)
          ⟨0, 0, 0⟩).toJson))
        (render (leafExpr .op (ascii "t") [.name (ascii "id")] (.int 5) ⟨0, 0, 0⟩).toJson) {} =
        some { ({} : ParseResult).setKey (.int 5) with
          shardKeyColumn := some (ascii "t") } := by decide +kernel
    have hrow := hsound ⟨0, 0, 0⟩ _ {} _ (ascii "t") (.int 5) ⟨[], trivial, by simp⟩ rfl hextract
      (by decide +kernel) (by decide +kernel) (ascii "id")
      (fun c => if c = ascii "id" then some (5 : Int) else none) rfl
      ⟨(5 : Int), if_pos rfl, rfl⟩
    rcases hrow with ⟨x, hx, -⟩
    rw [if_neg (by decide +kernel)] at hx
    cases hx

end Sharegres
