import Mathlib.Data.List.Forall2
import PacketGen.Generated.Fallback
import PacketGen.Proofs.Text.SplitLines
import PacketGen.Proofs.Text.Trim

/-!
# A packet that is kept as comments

What could not be generated is left in the file for whoever ports it by hand, so none of it may get
out of its comments, and none of it may be missing. The block is cut at its line feeds: behind the
heading it has one comment for every line of the diagnostic and of the source, however these texts
end and whatever their lines hold (`toList_fallbackBlock`).

A comment is the line again when its mark is taken off, up to the blanks at the end. A carriage
return before a line feed is one of them, so it makes no difference that it is taken for a part of
the line end (`map_trimEnd_lines`).
-/

namespace PacketGen

namespace Text

/-- The lines of a text. A line feed at its end opens no further line. -/
def textLines (cs : List Char) : List (List Char) :=
  if (splitLines cs).getLast? = some [] then (splitLines cs).dropLast else splitLines cs

theorem feed_not_mem_textLines {cs l : List Char} (h : l ∈ textLines cs) : '\n' ∉ l := by
  rw [textLines] at h
  split at h
  · exact not_mem_of_mem_splitLines (List.dropLast_subset _ h)
  · exact not_mem_of_mem_splitLines h

theorem trimEnd_chompReturn (cs : List Char) : trimEnd (chompReturn cs) = trimEnd cs := by
  rw [chompReturn]
  split
  · next h =>
    obtain ⟨ds, rfl⟩ := List.getLast?_eq_some_iff.mp h
    rw [List.dropLast_concat, trimEnd, trimEnd,
      dropEndWhile_append_of_all ds (List.forall_mem_singleton.mpr rfl)]
  · rfl

/-- What a reader takes for the end of a line is blank. -/
theorem map_trimEnd_lines (cs : List Char) :
    (lines cs).map trimEnd = (textLines cs).map trimEnd := by
  rw [lines, textLines]
  generalize splitLines cs = pieces
  fun_induction endedLines pieces with
  | case1 => rfl
  | case2 => rfl
  | case3 last hlast => simp [hlast]
  | case4 piece pieces hne ih =>
    obtain ⟨p, ps, rfl⟩ := List.exists_cons_of_ne_nil hne
    rw [List.map_cons, trimEnd_chompReturn, ih, List.getLast?_cons_cons, List.dropLast_cons_cons]
    split <;> rfl

end Text

namespace Generated

/-! ## Comments -/

/-- A line without blanks at its end, as a comment. -/
def note (line : List Char) : List Char :=
  if line = [] then "//".toList else "// ".toList ++ line

/-- A comment without its mark and the space behind the mark. -/
def unmarked : List Char → List Char
  | '/' :: '/' :: ' ' :: line => line
  | '/' :: '/' :: line => line
  | line => line

theorem unmarked_note (line : List Char) : unmarked (note line) = line := by
  unfold note
  split
  · next h => rw [h]; rfl
  · rfl

/-- One line that holds nothing but a comment. -/
def IsComment (l : List Char) : Prop := "//".toList <+: l ∧ '\n' ∉ l

theorem isComment_note {line : List Char} (h : '\n' ∉ line) : IsComment (note line) := by
  unfold note
  split
  · exact ⟨List.prefix_refl _, by decide⟩
  · exact ⟨⟨' ' :: line, rfl⟩, by simpa using h⟩

theorem commentLine_eq (line : List Char) :
    commentLine line = note (Text.trimEnd line) ++ ['\n'] := by
  rw [commentLine, note]
  by_cases h : Text.trimEnd line = []
  · rw [if_pos h, if_pos h]
    rfl
  · rw [if_neg h, if_neg h]
    rfl

/-- The comments of a text, a line each. -/
def notes (text : String) : List (List Char) :=
  (Text.textLines text.toList).map fun line => note (Text.trimEnd line)

theorem toList_commented (text : String) :
    (commented text).toList = Text.joinLines (notes text) := by
  have hnotes : notes text = ((Text.lines text.toList).map Text.trimEnd).map note := by
    rw [Text.map_trimEnd_lines, List.map_map]
    rfl
  rw [commented, String.toList_ofList, hnotes, Text.joinLines, List.flatMap_map, List.flatMap_map]
  exact List.flatMap_congr fun line _ => commentLine_eq line

theorem isComment_notes (text : String) : ∀ l ∈ notes text, IsComment l := by
  refine List.forall_mem_map.mpr fun line hline => isComment_note fun h => ?_
  exact Text.feed_not_mem_textLines hline (Text.mem_of_mem_dropEndWhile h)

/-- A comment keeps a line but for the blanks at its end. -/
def KeepsLine (comment line : List Char) : Prop :=
  ∃ blanks, line = unmarked comment ++ blanks ∧ ∀ c ∈ blanks, Text.isBlank c = true

theorem keepsLine_note (line : List Char) : KeepsLine (note (Text.trimEnd line)) line := by
  refine ⟨line.rtakeWhile Text.isBlank, ?_, fun c hc => List.mem_rtakeWhile_imp hc⟩
  rw [unmarked_note]
  exact List.rdropWhile_append_rtakeWhile.symm

/-- Comments keep a text line by line, in order. -/
def Keeps (comments : List (List Char)) (text : String) : Prop :=
  List.Forall₂ KeepsLine comments (Text.textLines text.toList)

theorem keeps_notes (text : String) : Keeps (notes text) text := by
  rw [Keeps, notes, List.forall₂_map_left_iff, List.forall₂_same]
  exact fun line _ => keepsLine_note line

/-! ## The block -/

/-- The lines that say what the block is. -/
def heading (fileName : String) : List (List Char) :=
  [("// " ++ fileName ++ ": automatic port failed.").toList,
    "// Read the original code below and port it manually.".toList, "//".toList]

/-- The comments of a source, behind an empty one. -/
def sourceNotes : Option String → List (List Char)
  | some source => "//".toList :: notes source
  | none => []

theorem toList_fallbackBlock (f : Fallback) :
    (fallbackBlock f).toList =
      Text.joinLines (heading f.fileName ++ notes f.diagnostic ++ sourceNotes f.source) ++
        ['\n'] := by
  have hfirst : ": automatic port failed.\n".toList =
      ": automatic port failed.".toList ++ ['\n'] := by decide
  have hread : "// Read the original code below and port it manually.\n//\n".toList =
      "// Read the original code below and port it manually.".toList ++
        '\n' :: ("//".toList ++ ['\n']) := by decide
  have hmark : "//\n".toList = "//".toList ++ ['\n'] := by decide
  unfold fallbackBlock heading sourceNotes
  cases f.source
  all_goals
    simp only [String.toList_append, toList_commented, hfirst, hread, hmark,
      Text.joinLines_append, Text.joinLines_cons, Text.joinLines_nil, List.append_assoc,
      List.cons_append, List.nil_append]
    rfl

theorem isComment_heading {fileName : String} (h : '\n' ∉ fileName.toList) :
    ∀ l ∈ heading fileName, IsComment l := by
  have hfirst : IsComment ("// " ++ fileName ++ ": automatic port failed.").toList := by
    simp only [IsComment, String.toList_append, List.append_assoc, List.mem_append, not_or]
    exact ⟨⟨_, rfl⟩, by decide, h, by decide⟩
  have hothers : ∀ l ∈ ["// Read the original code below and port it manually.".toList,
      "//".toList], IsComment l := by
    unfold IsComment
    decide
  exact List.forall_mem_cons.mpr ⟨hfirst, hothers⟩

theorem isComment_sourceNotes (source : Option String) : ∀ l ∈ sourceNotes source, IsComment l := by
  cases source with
  | none => exact List.forall_mem_nil _
  | some text =>
    exact List.forall_mem_cons.mpr ⟨⟨List.prefix_refl _, by decide⟩, isComment_notes text⟩

/-- **A packet that could not be generated is kept in comments**, whatever it is: behind a heading
every line of the diagnostic and of the source has its own comment, in order, and only the empty
line behind them is none. -/
theorem fallbackBlock_keeps (f : Fallback) (hfile : '\n' ∉ f.fileName.toList) :
    ∃ diagnostic source : List (List Char),
      Text.splitLines (fallbackBlock f).toList =
        heading f.fileName ++ diagnostic ++ source ++ [[], []] ∧
      (∀ l ∈ heading f.fileName ++ diagnostic ++ source, "//".toList <+: l) ∧
      Keeps diagnostic f.diagnostic ∧
      (f.source = none → source = []) ∧
      ∀ text, f.source = some text → ∃ kept, source = "//".toList :: kept ∧ Keeps kept text := by
  have hcomments : ∀ l ∈ heading f.fileName ++ notes f.diagnostic ++ sourceNotes f.source,
      IsComment l :=
    List.forall_mem_append.mpr ⟨List.forall_mem_append.mpr ⟨isComment_heading hfile,
      isComment_notes f.diagnostic⟩, isComment_sourceNotes f.source⟩
  refine ⟨notes f.diagnostic, sourceNotes f.source, ?_, fun l hl => (hcomments l hl).1,
    keeps_notes f.diagnostic, ?_, ?_⟩
  · rw [toList_fallbackBlock, Text.splitLines_joinLines _ fun l hl => (hcomments l hl).2]
    rfl
  · intro hnone
    rw [hnone]
    rfl
  · intro text htext
    rw [htext]
    exact ⟨notes text, rfl, keeps_notes text⟩

/-- A source with carriage returns, an empty line, a comment that it does not close, and no line
feed at its end. -/
theorem fallbackBlock_keeps_unended :
    let source := "<?php \r\n\r\n\tfunc Pid()\r\x7b /*"
    let f : Fallback := ⟨"Login", "LoginPacket.php", some "E5", "error[E5]: unbalanced\n", some source⟩
    ∃ diagnostic kept : List (List Char),
      Text.splitLines (fallbackBlock f).toList =
        heading "LoginPacket.php" ++ diagnostic ++ ("//".toList :: kept) ++ [[], []] ∧
      Keeps diagnostic f.diagnostic ∧ Keeps kept source ∧
      diagnostic.length = 1 ∧ kept.length = 3 := by
  intro source f
  obtain ⟨diagnostic, notes, hlines, -, hdiagnostic, -, hsource⟩ := fallbackBlock_keeps f (by decide)
  obtain ⟨kept, rfl, hkept⟩ := hsource source rfl
  refine ⟨diagnostic, kept, hlines, hdiagnostic, hkept, ?_, ?_⟩
  · rw [hdiagnostic.length_eq]
    decide
  · rw [hkept.length_eq]
    decide

end Generated

end PacketGen
