import Mathlib.Data.List.DropRight
import Sharegres.Foundation.ByteText

/-!
# Config - Lines of a configuration file

The loop of {lit}`config_load` in {lit}`src/config.c` reads a file by {lit}`fgets` into a
buffer of 1024 bytes and takes each piece for a section header, a setting, or nothing.  A
line that does not fit the buffer is read in several pieces.

Main results:

- Definition {lit}`fgetsAll`: the pieces that the loop reads.
- Definition {lit}`parseConfigLine`: what a piece is taken for.
- Definition {lit}`settingsFrom`: the settings, each with the section that it stands in.
- Theorem {lit}`fgetsAll_eq`: lines that fit the buffer are read one by one.
-/

namespace Sharegres

open Foundation

variable {file : Text}

/-! ## Reading -/

/-- The end of a line. -/
@[simp] def newline : UInt8 := 10

/-- {lit}`fgets` with room for a number of bytes: what it stores, and what is left. -/
def fgets : Nat → Text → Text × Text
  | 0, file => ([], file)
  | _ + 1, [] => ([], [])
  | room + 1, b :: file =>
      if b = newline then ([b], file)
      else
        let piece := fgets room file
        (b :: piece.1, piece.2)

/-- The buffer that the loop reads into, without the room for the terminator. -/
def lineRoom : Nat := 1023

/-- At most a number of rounds of the loop. -/
def fgetsLoop : Nat → Text → List Text
  | 0, _ => []
  | rounds + 1, file =>
      if file = [] then []
      else
        let piece := fgets lineRoom file
        piece.1 :: fgetsLoop rounds piece.2

/-- The pieces that the loop reads; each has a byte at least. -/
def fgetsAll (file : Text) : List Text :=
  fgetsLoop file.length file

/-- The lines of a file, each with its end. -/
def fileLines : Text → List Text
  | [] => []
  | b :: file =>
      if b = newline then [b] :: fileLines file
      else
        match fileLines file with
        | [] => [[b]]
        | line :: lines => (b :: line) :: lines

theorem fileLines_eq_nil (h : fileLines file = []) : file = [] := by
  cases file with
  | nil => rfl
  | cons b file =>
      rw [fileLines] at h
      split at h
      · cases h
      · split at h <;> cases h

/-- A line that fits is read whole. -/
theorem fgets_line {room : Nat} {file line : Text} {lines : List Text}
    (h : fileLines file = line :: lines) (hroom : line.length ≤ room) :
    (fgets room file).1 = line ∧ fileLines (fgets room file).2 = lines := by
  induction file generalizing room line lines with
  | nil => cases h
  | cons b file ih =>
      rw [fileLines] at h
      by_cases hend : b = newline
      · rw [if_pos hend] at h
        cases h
        cases room with
        | zero => simp at hroom
        | succ room =>
            rw [fgets, if_pos hend]
            exact ⟨rfl, rfl⟩
      · rw [if_neg hend] at h
        cases hrest : fileLines file with
        | nil =>
            rw [hrest] at h
            cases h
            cases room with
            | zero => simp at hroom
            | succ room =>
                rw [fgets, if_neg hend, fileLines_eq_nil hrest]
                cases room <;> exact ⟨rfl, rfl⟩
        | cons line' lines' =>
            rw [hrest] at h
            cases h
            cases room with
            | zero => simp at hroom
            | succ room =>
                have hpiece := ih hrest (by simpa using hroom)
                rw [fgets, if_neg hend]
                exact ⟨congrArg (b :: ·) hpiece.1, hpiece.2⟩

/-- A read takes a byte at least. -/
theorem fgets_shorter (room : Nat) (h : file ≠ []) :
    (fgets (room + 1) file).2.length < file.length := by
  have hle : ∀ (room : Nat) (file : Text), (fgets room file).2.length ≤ file.length := by
    intro room
    induction room with
    | zero => exact fun file => Nat.le_refl _
    | succ room ih =>
        intro file
        cases file with
        | nil => exact Nat.le_refl _
        | cons b file =>
            rw [fgets]
            split
            · exact Nat.le_succ _
            · exact Nat.le_succ_of_le (ih file)
  cases file with
  | nil => exact absurd rfl h
  | cons b file =>
      rw [fgets]
      split
      · exact Nat.lt_succ_self _
      · exact Nat.lt_succ_of_le (hle room file)

/-- Lines that fit are read one by one. -/
theorem fgetsLoop_eq {rounds : Nat} (hrounds : file.length ≤ rounds)
    (hfit : ∀ line ∈ fileLines file, line.length ≤ lineRoom) :
    fgetsLoop rounds file = fileLines file := by
  induction rounds generalizing file with
  | zero =>
      have hnil : file = [] := List.eq_nil_of_length_eq_zero (by omega)
      rw [hnil]
      rfl
  | succ rounds ih =>
      rw [fgetsLoop]
      cases hlines : fileLines file with
      | nil => rw [if_pos (fileLines_eq_nil hlines)]
      | cons line lines =>
          have hne : file ≠ [] := by
            rintro rfl
            cases hlines
          rw [hlines] at hfit
          have hpiece := fgets_line hlines (hfit line List.mem_cons_self)
          have hshort : (fgets lineRoom file).2.length < file.length := fgets_shorter 1022 hne
          rw [if_neg hne]
          dsimp only
          rw [hpiece.1, ih (by omega), hpiece.2]
          rw [hpiece.2]
          exact fun l hl => hfit l (List.mem_cons_of_mem _ hl)

/-- Lines that fit the buffer are read one by one. -/
theorem fgetsAll_eq (hfit : ∀ line ∈ fileLines file, line.length ≤ lineRoom) :
    fgetsAll file = fileLines file :=
  fgetsLoop_eq (Nat.le_refl _) hfit

/-- A line is never longer than its buffer. -/
theorem fgets_length_le (room : Nat) (file : Text) : (fgets room file).1.length ≤ room := by
  induction room generalizing file with
  | zero => exact Nat.le_refl _
  | succ room ih =>
      cases file with
      | nil => exact Nat.zero_le _
      | cons b file =>
          rw [fgets]
          split
          · exact Nat.succ_le_succ (Nat.zero_le room)
          · exact Nat.succ_le_succ (ih file)

/-- A piece fits the buffer. -/
theorem fgetsAll_length_le {file piece : Text} (h : piece ∈ fgetsAll file) :
    piece.length ≤ lineRoom := by
  have hloop : ∀ (rounds : Nat) (file : Text), piece ∈ fgetsLoop rounds file →
      piece.length ≤ lineRoom := by
    intro rounds
    induction rounds with
    | zero =>
        intro file h
        cases h
    | succ rounds ih =>
        intro file h
        rw [fgetsLoop] at h
        split at h
        · cases h
        · rcases List.mem_cons.mp h with rfl | h
          · exact fgets_length_le lineRoom file
          · exact ih _ h
  exact hloop _ _ h

/-! ## Lines -/

/-- {lit}`trim`. -/
def trim (s : Text) : Text :=
  (skipSpace s).rdropWhile isSpace

theorem trim_length_le (s : Text) : (trim s).length ≤ s.length := by
  have hfront := List.rdropWhile_prefix isSpace (skipSpace s)
  exact hfront.length_le.trans (skipSpace_length_le s)

/-- What a line is taken for. -/
inductive ConfigLine where
  | blank
  | header (name arg : Text)
  | setting (key val : Text)
deriving DecidableEq

/-- The text before the first of the given bytes, and the text behind it. -/
def splitAtByte (b : UInt8) (s : Text) : Option (Text × Text) :=
  if b ∈ s then some (s.takeWhile (· ≠ b), (s.dropWhile (· ≠ b)).drop 1) else none

/-- A line: a comment, a section header with or without an argument, or a setting. -/
def parseConfigLine (line : Text) : ConfigLine :=
  let p := trim (line.takeWhile (· ≠ 0))
  match p with
  | [] => .blank
  | b :: rest =>
      if b = 35 ∨ b = 59 then .blank
      else if b = lbracket then
        match splitAtByte rbracket rest with
        | none => .blank
        | some (title, _) =>
            match splitAtByte colon title with
            | none => .header title []
            | some (name, arg) => .header name arg
      else
        match splitAtByte 61 p with
        | none => .blank
        | some (key, val) => .setting (trim key) (trim val)

theorem splitAtByte_length {b : UInt8} {s front back : Text}
    (h : splitAtByte b s = some (front, back)) : back.length ≤ s.length := by
  unfold splitAtByte at h
  split at h
  · cases h
    rw [List.length_drop]
    exact (Nat.sub_le _ _).trans (List.dropWhile_sublist _).length_le
  · cases h

/-- A value is no longer than its line. -/
theorem parseConfigLine_length {line key val : Text}
    (h : parseConfigLine line = .setting key val) : val.length ≤ line.length := by
  have hline : (trim (line.takeWhile (· ≠ 0))).length ≤ line.length :=
    (trim_length_le _).trans (List.takeWhile_sublist _).length_le
  unfold parseConfigLine at h
  dsimp only at h
  split at h
  · cases h
  · split at h
    · cases h
    · split at h
      · split at h
        · cases h
        · split at h <;> cases h
      · split at h
        · cases h
        · rename_i hsplit
          cases h
          exact (trim_length_le _).trans ((splitAtByte_length hsplit).trans hline)

/-- The names of a section are stored in fields of 128 bytes. -/
def ConfigLine.stored : ConfigLine → ConfigLine
  | .header name arg => .header (name.take 127) (arg.take 127)
  | line => line

/-- The names of a header fit their fields. -/
def ConfigLine.Fits : ConfigLine → Prop
  | .header name arg => name.length ≤ 127 ∧ arg.length ≤ 127
  | _ => True

instance : DecidablePred ConfigLine.Fits
  | .blank => isTrue trivial
  | .header name arg => inferInstanceAs (Decidable (name.length ≤ 127 ∧ arg.length ≤ 127))
  | .setting _ _ => isTrue trivial

/-- A line that fits is stored as it is. -/
theorem ConfigLine.stored_of_fits {line : ConfigLine} (h : line.Fits) : line.stored = line := by
  cases line with
  | blank => rfl
  | header name arg => rw [stored, List.take_of_length_le h.1, List.take_of_length_le h.2]
  | setting key val => rfl

/-! ## Settings -/

/-- A setting with the section that it stands in. -/
structure Setting where
  kind : Text
  arg : Text
  key : Text
  val : Text
deriving DecidableEq

/-- The settings of a series of lines, from a section on. -/
def settingsFrom (name arg : Text) : List ConfigLine → List Setting
  | [] => []
  | .blank :: lines => settingsFrom name arg lines
  | .header name' arg' :: lines => settingsFrom name' arg' lines
  | .setting key val :: lines => ⟨name, arg, key, val⟩ :: settingsFrom name arg lines

/-- The settings that stand in a file. -/
def writtenSettings (file : Text) : List Setting :=
  settingsFrom [] [] ((fileLines file).map parseConfigLine)

/-- The settings that the loop reads. -/
def readSettings (file : Text) : List Setting :=
  settingsFrom [] [] ((fgetsAll file).map fun piece => (parseConfigLine piece).stored)

/-- The settings of the named sections of one kind, by their names. -/
def assignments (wanted : Text) (settings : List Setting) : List (Text × Text × Text) :=
  settings.filterMap fun s =>
    if s.kind = wanted ∧ s.arg ≠ [] then some (s.arg, s.key, s.val) else none

theorem setting_mem {name arg : Text} {lines : List ConfigLine} {s : Setting}
    (h : s ∈ settingsFrom name arg lines) : .setting s.key s.val ∈ lines := by
  induction lines generalizing name arg with
  | nil => cases h
  | cons line lines ih =>
      cases line with
      | blank => exact List.mem_cons_of_mem _ (ih h)
      | header name' arg' => exact List.mem_cons_of_mem _ (ih h)
      | setting key val =>
          rcases List.mem_cons.mp h with rfl | h
          · exact List.mem_cons_self
          · exact List.mem_cons_of_mem _ (ih h)

/-- A value that is read is shorter than the buffer. -/
theorem assignments_length {file wanted : Text} {u : Text × Text × Text}
    (h : u ∈ assignments wanted (readSettings file)) : u.2.2.length ≤ lineRoom := by
  rcases List.mem_filterMap.mp h with ⟨s, hs, hu⟩
  split at hu
  · cases hu
    rcases List.mem_map.mp (setting_mem hs) with ⟨piece, hpiece, hline⟩
    have hparse : parseConfigLine piece = .setting s.key s.val := by
      cases hraw : parseConfigLine piece with
      | blank => rw [hraw] at hline; cases hline
      | header name arg => rw [hraw] at hline; cases hline
      | setting key val => rw [hraw] at hline; exact hline
    exact (parseConfigLine_length hparse).trans (fgetsAll_length_le hpiece)
  · cases hu

/-- If lines and names fit, the settings are read as they are written. -/
theorem readSettings_eq (hlines : ∀ line ∈ fileLines file, line.length ≤ lineRoom)
    (hnames : ∀ line ∈ fileLines file, (parseConfigLine line).Fits) :
    readSettings file = writtenSettings file := by
  rw [readSettings, writtenSettings, fgetsAll_eq hlines]
  exact congrArg (settingsFrom [] []) (List.map_congr_left fun line hline =>
    ConfigLine.stored_of_fits (hnames line hline))

end Sharegres
