import Sharegres.Foundation.JsonPath
import Sharegres.Parser.KeyExtraction

/-!
# Parser - The linear scan in a document

{lit}`json_find_all_values` starts at a value and scans to the end of the text, so that it also
collects the members that the enclosing arrays and objects have behind the value.  It stays
inside the value exactly when the key does not occur behind it.  The place of a value in its
document is given by the arrays and objects around it ({lit}`render_enclose`).

Main results:

- Theorem {lit}`jsonFindAllValues_behind`: when the scan finds nothing behind a value.
- Theorem {lit}`scan_stays_inside_iff`: when the scan collects the members of its value alone.
- Theorem {lit}`returning_name_collected`: a name behind the target list of an INSERT.
-/

namespace Sharegres

open Foundation Foundation.Json

/-- Behind a value there is no colon. -/
theorem noColon_behind (path : List Frame) (final : Ws) : NoColon (behind path final) := by
  cases path with
  | nil =>
      unfold NoColon
      rw [behind, ← List.append_nil final.text, skipSpace_append]
      simp [skipSpace]
  | cons f path =>
      cases f with
      | elem inner before pad es =>
          rw [behind, Frame.rest, List.append_assoc]
          exact noColon_elemTail _ es _
      | member inner before key ms =>
          rw [behind, Frame.rest, List.append_assoc]
          exact noColon_memberTail _ ms _

/-- Nothing is collected where the key does not occur. -/
theorem collectElems_eq_nil_iff (key : Text) (es : List (Pad × Json)) (r : Text) :
    collectElems key es r = [] ↔ occursElems key es = false := by
  rw [← valuesElems_eq_nil_iff, ← collectElems_value key es r, List.map_eq_nil_iff]

theorem collectMembers_eq_nil_iff (key : Text) (ms : List (KeyTok × Json)) (r : Text) :
    collectMembers key ms r = [] ↔ occursMembers key ms = false := by
  rw [← valuesMembers_eq_nil_iff, ← collectMembers_value key ms r, List.map_eq_nil_iff]

/-- What stands behind a value in its document is scanned as well, frame by frame. -/
theorem jsonFindAllValues_behind {key : Text} (hkey : PlainKey key) (path : List Frame)
    (final : Ws) :
    jsonFindAllValues (behind path final) key = [] ↔
      ∀ f ∈ path, f.occursBehind key = false := by
  induction path with
  | nil =>
      rw [behind, ← List.append_nil final.text, jsonFindAllValues_ws]
      simp [jsonFindAllValues, findAllLoop]
  | cons f path ih =>
      rw [List.forall_mem_cons, ← ih, behind]
      cases f with
      | elem inner before pad es =>
          rw [Frame.rest, List.append_assoc, jsonFindAllValues_ws,
            jsonFindAllValues_elemTail hkey, List.append_eq_nil_iff, List.map_eq_nil_iff,
            collectElems_eq_nil_iff, Frame.occursBehind]
      | member inner before k ms =>
          rw [Frame.rest, List.append_assoc, jsonFindAllValues_ws,
            jsonFindAllValues_memberTail hkey, List.append_eq_nil_iff, List.map_eq_nil_iff,
            collectMembers_eq_nil_iff, Frame.occursBehind]

/-- Called at the start of a value, the scan returns the outermost members of the value in
document order, and nothing else, exactly when none of the arrays and objects around the value
has a member with the key behind it. -/
theorem scan_stays_inside_iff {key : Text} (hkey : PlainKey key) (v : Json) (path : List Frame)
    (final : Ws) :
    jsonFindAllValues (render v ++ behind path final) key =
        (collect key v (behind path final)).map Located.text ↔
      ∀ f ∈ path, f.occursBehind key = false := by
  rw [jsonFindAllValues_render hkey v _ (noColon_behind path final), List.append_right_eq_self,
    jsonFindAllValues_behind hkey]

/-! ## A RETURNING list -/

/-- The target list of {lit}`INSERT INTO t (x) ...`. -/
def targetList : Json :=
  arr [resTarget (ascii "x", 15)]

theorem returningList_wellEscaped : wellEscaped (ascii "returningList") = true := by
  simp [ascii, wellEscaped]

/-- The rest of the statement's node: {lit}`RETURNING a AS id`, without the expression. -/
def returningFrame : Frame :=
  .member Ws.none [] (tok .cols)
    [(KeyTok.compact ⟨ascii "returningList", returningList_wellEscaped⟩,
      arr [resTarget (ascii "id", 39)])]

/-- Without the RETURNING list the names are those of the target list. -/
theorem target_names_alone :
    jsonFindAllValues
        (render targetList ++ behind [.member Ws.none [] (tok .cols) []] Ws.none)
        (PgKey.text .name) =
      (collect (PgKey.text .name) targetList
        (behind [.member Ws.none [] (tok .cols) []] Ws.none)).map Located.text := by
  refine (scan_stays_inside_iff (PgKey.text_plain .name) _ _ _).mpr ?_
  intro f hf
  rw [List.mem_singleton.mp hf]
  rfl

/-- From the target list of {lit}`INSERT INTO t (x) VALUES (7) RETURNING a AS id` the scan
returns two names, of which the list has only the first. -/
theorem returning_name_collected :
    (jsonFindAllValues (render targetList ++ behind [returningFrame] Ws.none)
        (PgKey.text .name)).map jsonGetString = [some (ascii "x"), some (ascii "id")] ∧
    treeNames targetList = [some (ascii "x")] ∧
    jsonFindAllValues (render targetList ++ behind [returningFrame] Ws.none) (PgKey.text .name) ≠
      (collect (PgKey.text .name) targetList (behind [returningFrame] Ws.none)).map
        Located.text := by
  have hnames : ∀ (s : Text) (location : Int),
      treeNames (arr [resTarget (s, location)]) = [some (outToken s)] := by
    intro s location
    rw [treeNames_arr, List.flatMap_cons, resTarget, treeNames_target]
    rfl
  have hprinted : outToken (ascii "x") = ascii "x" ∧ outToken (ascii "id") = ascii "id" := by
    simp [ascii, outToken, outByte]
  have hlist : treeNames targetList = [some (ascii "x")] := by
    rw [targetList, hnames, hprinted.1]
  have hreturning : textNames (behind [returningFrame] Ws.none) = [some (ascii "id")] := by
    rw [behind, returningFrame, Frame.rest, List.append_assoc, textNames_memberTail,
      valuesMembers, valuesMembers, if_neg (by simp [KeyTok.compact, PgKey.text, ascii]),
      List.append_nil]
    exact (congrArg (· ++ _) (hnames _ _)).trans (by rw [hprinted.2]; rfl)
  have hscan : textNames (render targetList ++ behind [returningFrame] Ws.none) =
      [some (ascii "x"), some (ascii "id")] := by
    refine (textNames_arr Ws.none [(Pad.compact, resTarget (ascii "x", 15))] _).trans ?_
    rw [hreturning]
    exact congrArg (· ++ _) hlist
  refine ⟨hscan, hlist, ?_⟩
  intro heq
  rw [textNames, heq, map_getString_located, collect_value] at hscan
  rw [treeNames, hscan] at hlist
  simp at hlist

end Sharegres
