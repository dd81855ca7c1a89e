import Mathlib.Data.List.Basic
import Mathlib.Tactic.Ring

/-!
# Foundation - Byte texts and cursors

A NUL-terminated C string is modelled by the list of its bytes before the
terminator, and a pointer into it by the suffix that starts there; the empty
suffix is the position of the terminator.  This file fixes the byte constants,
the {lit}`isspace` test of the C locale, and decimal numerals as {lit}`printf`
writes them and {lit}`strtoll` reads them.

Main results:

- Theorem {lit}`skipSpace_append`: leading white space is skipped whatever
  follows it.
- Theorem {lit}`strtoll_intNumeral`: reading back a printed integer of the
  64-bit range gives that integer, provided the text after it does not start
  with a digit.
-/

namespace Foundation

/-- The bytes of a C string, without the terminating NUL. -/
abbrev Text := List UInt8

/-- The bytes of an ASCII literal. -/
def ascii (s : String) : Text :=
  s.toList.map fun c => c.toNat.toUInt8

/-! ## Byte constants -/

@[simp] def dquote : UInt8 := 34
@[simp] def plusSign : UInt8 := 43
@[simp] def comma : UInt8 := 44
@[simp] def minusSign : UInt8 := 45
@[simp] def colon : UInt8 := 58
@[simp] def lbracket : UInt8 := 91
@[simp] def backslash : UInt8 := 92
@[simp] def rbracket : UInt8 := 93
@[simp] def lbrace : UInt8 := 123
@[simp] def rbrace : UInt8 := 125

/-! ## White space -/

/-- {lit}`isspace` in the C locale: space, and tab through carriage return. -/
def isSpace (b : UInt8) : Bool :=
  b == 32 || (9 ≤ b && b ≤ 13)

/-- Advance a cursor over leading white space. -/
def skipSpace : Text → Text
  | [] => []
  | b :: p => if isSpace b then skipSpace p else b :: p

/-- A run of white space. -/
structure Ws where
  text : Text
  spaces : text.all isSpace = true
deriving DecidableEq

/-- The empty run of white space. -/
def Ws.none : Ws := ⟨[], rfl⟩

@[simp] theorem Ws.none_text : Ws.none.text = [] := rfl

@[simp] theorem skipSpace_nil : skipSpace [] = [] := rfl

/-- Another byte stops it. -/
theorem skipSpace_cons_of_not {b : UInt8} {p : Text} (h : isSpace b = false) :
    skipSpace (b :: p) = b :: p := by
  simp [skipSpace, h]

/-- White space in front is skipped. -/
private theorem skipSpace_append_of_all {w : Text} (p : Text)
    (h : w.all isSpace = true) : skipSpace (w ++ p) = skipSpace p := by
  induction w with
  | nil => rfl
  | cons b w ih =>
      simp only [List.all_cons, Bool.and_eq_true] at h
      simp [skipSpace, h.1, ih h.2]

/-- Skipping over a run of white space continues behind it. -/
@[simp]
theorem skipSpace_append (w : Ws) (p : Text) :
    skipSpace (w.text ++ p) = skipSpace p :=
  skipSpace_append_of_all p w.spaces

/-- Skipping white space twice is skipping it once. -/
@[simp]
theorem skipSpace_skipSpace (p : Text) : skipSpace (skipSpace p) = skipSpace p := by
  induction p with
  | nil => rfl
  | cons b p ih =>
      by_cases h : isSpace b = true
      · simpa [skipSpace, h] using ih
      · simp [skipSpace, h]

/-- What is left is not longer. -/
theorem skipSpace_length_le (p : Text) : (skipSpace p).length ≤ p.length := by
  induction p with
  | nil => simp
  | cons b p ih =>
      by_cases h : isSpace b = true
      · simp only [skipSpace, h, if_true, List.length_cons]
        omega
      · simp [skipSpace, h]

/-- A text starts with a byte of the given class, or it is empty. -/
def StartsWith (P : UInt8 → Bool) : Text → Prop
  | [] => True
  | b :: _ => P b = true

@[simp] theorem startsWith_nil (P : UInt8 → Bool) : StartsWith P [] = True := rfl

@[simp] theorem startsWith_cons (P : UInt8 → Bool) (b : UInt8) (p : Text) :
    StartsWith P (b :: p) = (P b = true) := rfl

/-- A byte of a class is none of the bytes outside it. -/
theorem ne_of_class {p : UInt8 → Bool} {b c : UInt8} (hb : p b = true) (hc : p c = false) :
    b ≠ c := by
  rintro rfl
  rw [hb] at hc
  cases hc

/-- The first byte of white space and a byte behind it is {lit}`d` only if nothing stands before
that byte. -/
theorem Ws.head (w : Ws) {c d : UInt8} (q : Text) (hd : isSpace d = false)
    (hc : c = d → w.text ≠ []) : ∃ b p, w.text ++ c :: q = b :: p ∧ b ≠ d := by
  rcases w with ⟨w, hw⟩
  cases w with
  | nil => exact ⟨c, q, rfl, fun h => hc h rfl⟩
  | cons b w =>
      rw [List.all_cons, Bool.and_eq_true] at hw
      exact ⟨b, _, rfl, ne_of_class hw.1 hd⟩

/-! ## Decimal numerals -/

/-- {lit}`isdigit` in the C locale. -/
def isDigit (b : UInt8) : Bool :=
  48 ≤ b && b ≤ 57

/-- Decimal digits of a natural number, most significant first. -/
def natNumeral (n : Nat) : Text :=
  (Nat.toDigits 10 n).map fun c => c.toNat.toUInt8

/-- The text {lit}`printf("%d")` writes for an integer. -/
def intNumeral : Int → Text
  | .ofNat n => natNumeral n
  | .negSucc n => minusSign :: natNumeral (n + 1)

/-- Accumulate leading decimal digits. -/
def readDigits : Nat → Text → Nat
  | acc, [] => acc
  | acc, b :: p => if isDigit b then readDigits (10 * acc + (b.toNat - 48)) p else acc

/-- {lit}`strtoll(p, NULL, 10)`: skip white space, accept one sign, accumulate
digits, and saturate at the ends of the 64-bit range. -/
def strtoll (p : Text) : Int64 :=
  match skipSpace p with
  | [] => 0
  | b :: q =>
      if b = minusSign then Int64.ofIntClamp (-(readDigits 0 q : Int))
      else if b = plusSign then Int64.ofIntClamp (readDigits 0 q : Int)
      else Int64.ofIntClamp (readDigits 0 (b :: q) : Int)

private theorem isDigit_char_bounds {c : Char} (h : c.isDigit = true) :
    48 ≤ c.toNat ∧ c.toNat ≤ 57 := by
  simp only [Char.isDigit, ge_iff_le, Bool.and_eq_true, decide_eq_true_eq] at h
  exact ⟨by simpa [UInt32.le_iff_toNat_le] using h.1,
    by simpa [UInt32.le_iff_toNat_le] using h.2⟩

private theorem byte_toNat {n : Nat} (h : n < 256) : n.toUInt8.toNat = n := by
  simp [Nat.mod_eq_of_lt h]

private theorem isDigit_byte {c : Char} (h : c.isDigit = true) :
    isDigit c.toNat.toUInt8 = true := by
  obtain ⟨hlo, hhi⟩ := isDigit_char_bounds h
  have hval := byte_toNat (n := c.toNat) (by omega)
  simp only [isDigit, Bool.and_eq_true, decide_eq_true_eq, UInt8.le_iff_toNat_le, hval]
  exact ⟨hlo, hhi⟩

/-- A numeral has digits only. -/
theorem natNumeral_digits {n : Nat} {b : UInt8} (h : b ∈ natNumeral n) :
    isDigit b = true := by
  simp only [natNumeral, List.mem_map] at h
  obtain ⟨c, hc, rfl⟩ := h
  exact isDigit_byte (Nat.isDigit_of_mem_toDigits (by decide) (by decide) hc)

/-- A numeral is not empty. -/
theorem natNumeral_ne_nil (n : Nat) : natNumeral n ≠ [] := by
  simp [natNumeral, Nat.toDigits_ne_nil]

theorem intNumeral_ne_nil (n : Int) : intNumeral n ≠ [] := by
  cases n with
  | ofNat n => exact natNumeral_ne_nil n
  | negSucc n => exact List.cons_ne_nil _ _

/-- The digits of a numeral are read back. -/
private theorem readDigits_map (cs : List Char) (r : Text) (acc : Nat)
    (hcs : ∀ c ∈ cs, c.isDigit = true) (hr : StartsWith (fun b => !isDigit b) r) :
    readDigits acc (cs.map (fun c => c.toNat.toUInt8) ++ r) =
      Nat.ofDigitChars 10 cs acc := by
  induction cs generalizing acc with
  | nil =>
      cases r with
      | nil => simp [readDigits]
      | cons b r =>
          simp only [startsWith_cons, Bool.not_eq_true'] at hr
          simp [readDigits, hr]
  | cons c cs ih =>
      have hdigit := hcs c List.mem_cons_self
      obtain ⟨hlo, hhi⟩ := isDigit_char_bounds hdigit
      have hval := byte_toNat (n := c.toNat) (by omega)
      have hrest := ih (10 * acc + (c.toNat - 48)) fun d hd =>
        hcs d (List.mem_cons_of_mem _ hd)
      simp only [List.map_cons, List.cons_append, readDigits, isDigit_byte hdigit, if_true,
        hval, Nat.ofDigitChars_cons]
      exact hrest

/-- Reading the digits of a printed natural number recovers it. -/
theorem readDigits_natNumeral (n : Nat) (r : Text)
    (hr : StartsWith (fun b => !isDigit b) r) :
    readDigits 0 (natNumeral n ++ r) = n := by
  unfold natNumeral
  rw [readDigits_map _ _ _ _ hr]
  · exact Nat.ofDigitChars_ten_toDigits
  · intro c hc
    exact Nat.isDigit_of_mem_toDigits (by decide) (by decide) hc

theorem isDigit_not_special {b : UInt8} (h : isDigit b = true) :
    isSpace b = false ∧ b ≠ minusSign ∧ b ≠ plusSign := by
  refine ⟨?_, ne_of_class h rfl, ne_of_class h rfl⟩
  have hspace : b ≠ 32 := ne_of_class h rfl
  simp only [isDigit, Bool.and_eq_true, decide_eq_true_eq, UInt8.le_iff_toNat_le] at h
  have hlo : 48 ≤ b.toNat := by simpa using h.1
  simp only [isSpace, Bool.or_eq_false_iff, beq_eq_false_iff_ne, Bool.and_eq_false_iff,
    decide_eq_false_iff_not, UInt8.le_iff_toNat_le]
  refine ⟨hspace, Or.inr fun hb => ?_⟩
  have hhi : b.toNat ≤ 13 := by simpa using hb
  omega

/-- Reading back a printed 64-bit integer gives that integer. -/
theorem strtoll_intNumeral (n : Int) (r : Text)
    (hlo : -2 ^ 63 ≤ n) (hhi : n < 2 ^ 63)
    (hr : StartsWith (fun b => !isDigit b) r) :
    (strtoll (intNumeral n ++ r)).toInt = n := by
  have hmin : Int64.minValue.toInt ≤ n := by
    rw [show Int64.minValue.toInt = -2 ^ 63 by decide]
    exact hlo
  have hmax : n ≤ Int64.maxValue.toInt := by
    rw [show Int64.maxValue.toInt = 2 ^ 63 - 1 by decide]
    omega
  cases n with
  | ofNat n =>
      obtain ⟨b, p, hnum⟩ := List.exists_cons_of_ne_nil (natNumeral_ne_nil n)
      have hdigit : isDigit b = true := natNumeral_digits (n := n) (by simp [hnum])
      obtain ⟨hspace, hminus, hplus⟩ := isDigit_not_special hdigit
      have hread := readDigits_natNumeral n r hr
      simp only [intNumeral, hnum, List.cons_append] at hread ⊢
      simp only [strtoll, skipSpace_cons_of_not hspace, if_neg hminus, if_neg hplus, hread]
      exact Int64.toInt_ofIntClamp hmin hmax
  | negSucc n =>
      have hread := readDigits_natNumeral (n + 1) r hr
      have hspace : isSpace minusSign = false := by decide
      simp only [intNumeral, List.cons_append, strtoll, skipSpace_cons_of_not hspace,
        if_true, hread]
      exact Int64.toInt_ofIntClamp hmin hmax

end Foundation
