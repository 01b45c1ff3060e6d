import PacketGen.Proofs.Source.Layout
import PacketGen.Proofs.Text.Trim

/-!
# The code among cleaned lines

A procedure is read as the cleaned lines of its body that are not empty (`codeLines`). However its
statements are spread over lines, these are the statements, each without its semicolon
(`codeLines_fills`): indentation goes when a line is trimmed, and blank lines are left empty.
-/

namespace PacketGen

namespace Text

variable {cs ws : List Char}

theorem trim_append_of_blank_left (hws : ∀ c ∈ ws, isBlank c = true) :
    trim (ws ++ cs) = trim cs := by
  rw [trim, trimStart_append_of_blank cs hws, trim]

theorem trim_append_of_blank_right (hws : ∀ c ∈ ws, isBlank c = true) :
    trim (cs ++ ws) = trim cs := by
  rw [trim, trim, trimStart, trimStart, List.dropWhile_append]
  split
  · next h =>
    have hempty : cs.dropWhile isBlank = [] := by simpa using h
    have hws' := trimStart_append_of_blank [] hws
    rw [List.append_nil] at hws'
    rw [hempty]
    exact congrArg trimEnd hws'
  · exact dropEndWhile_append_of_all _ hws

theorem trim_of_blank (hws : ∀ c ∈ ws, isBlank c = true) : trim ws = [] := by
  have h : trim (ws ++ []) = trim [] := trim_append_of_blank_left hws
  rw [List.append_nil] at h
  exact h

theorem trim_chompReturn (cs : List Char) : trim (chompReturn cs) = trim cs := by
  rw [chompReturn]
  split
  · next h =>
    obtain ⟨ds, rfl⟩ := List.getLast?_eq_some_iff.mp h
    rw [List.dropLast_concat, trim_append_of_blank_right (List.forall_mem_singleton.mpr rfl)]
  · rfl

end Text

namespace PacketClass

open Layout

def codeLines (text : List Char) : List (List Char) := (cleanLines text).filter (· ≠ [])

theorem cleanStatement_of_trim {k l : List Char} (h : Text.trim k = Text.trim l) :
    cleanStatement k = cleanStatement l := by
  rw [cleanStatement, h, cleanStatement]

theorem cleanStatement_nil : cleanStatement [] = [] := rfl

/-- Where exactly lines end does not matter for what is left of them. -/
theorem codeLines_eq (text : List Char) :
    codeLines text = ((Text.splitLines text).map cleanStatement).filter (· ≠ []) := by
  rw [codeLines, cleanLines, Text.lines]
  generalize Text.splitLines text = pieces
  fun_induction Text.endedLines pieces with
  | case1 => rfl
  | case2 => rfl
  | case3 => rfl
  | case4 piece pieces _ ih =>
    have hpiece : cleanStatement (Text.chompReturn piece) = cleanStatement piece :=
      cleanStatement_of_trim (Text.trim_chompReturn piece)
    rw [List.map_cons, List.map_cons, hpiece, List.filter_cons, List.filter_cons, ih]

theorem isBlank_of_isIndent {c : Char} (h : isIndent c = true) : Text.isBlank c = true := by
  rcases Bool.or_eq_true .. ▸ h with h | h
  · rw [eq_of_beq h]
    rfl
  · rw [eq_of_beq h]
    rfl

theorem blank_of_indent {i : List Char} (hi : Indent i) : ∀ c ∈ i, Text.isBlank c = true :=
  fun c hc => isBlank_of_isIndent (hi c hc)

theorem cleanStatement_indent {i : List Char} (hi : Indent i) : cleanStatement i = [] := by
  rw [cleanStatement, Text.trim_of_blank (blank_of_indent hi)]
  rfl

theorem cleanStatement_append_indent {i : List Char} (hi : Indent i) (c : List Char) :
    cleanStatement (i ++ c) = cleanStatement c :=
  cleanStatement_of_trim (Text.trim_append_of_blank_left (blank_of_indent hi))

/-- Only the semicolon goes from a line that starts and ends in its code. -/
theorem cleanStatement_semicolon {l m : List Char} {c d : Char} (hfirst : l = c :: m)
    (hlast : ∃ n, l = n ++ [d]) (hc : Text.isBlank c = false) (hd : Text.isBlank d = false)
    (hmark : d ≠ ';') : cleanStatement (l ++ [';']) = l := by
  obtain ⟨n, hn⟩ := hlast
  have hsemicolon : ∀ e ∈ [';'], (e == ';' || Text.isBlank e) = true := by simp
  have htrim : Text.trim (l ++ [';']) = l ++ [';'] := by
    rw [Text.trim, Text.trimEnd, hfirst, List.cons_append, Text.trimStart_cons_of_not_blank _ hc,
      ← List.cons_append, Text.dropEndWhile_eq_rdropWhile,
      List.rdropWhile_concat_neg _ _ _ (by decide)]
  rw [cleanStatement, htrim, Text.dropEndWhile_append_of_all _ hsemicolon, hn,
    Text.dropEndWhile_eq_rdropWhile, List.rdropWhile_concat_neg _ _ _ (by simp [hd, hmark])]

theorem filter_cleanStatement_spread {code lines : List (List Char)} (h : Spread code lines) :
    (lines.map cleanStatement).filter (· ≠ []) = (code.map cleanStatement).filter (· ≠ []) := by
  induction h with
  | nil => rfl
  | code c hi _ ih =>
    rw [List.map_cons, List.map_cons, cleanStatement_append_indent hi, List.filter_cons,
      List.filter_cons, ih]
  | blank hi _ ih =>
    rw [List.map_cons, cleanStatement_indent hi, List.filter_cons_of_neg (by simp), ih]

theorem feed_not_mem_of_spread {code lines : List (List Char)} (h : Spread code lines)
    (hcode : ∀ c ∈ code, '\n' ∉ c) : ∀ l ∈ lines, '\n' ∉ l := by
  induction h with
  | nil => simp
  | @code code lines i c hi _ ih =>
    refine List.forall_mem_cons.mpr ⟨fun hfeed => ?_, ih fun d hd =>
      hcode d (List.mem_cons_of_mem _ hd)⟩
    rcases List.mem_append.mp hfeed with hfeed | hfeed
    · exact hi.not_mem rfl hfeed
    · exact hcode c List.mem_cons_self hfeed
  | blank hi _ ih => exact List.forall_mem_cons.mpr ⟨hi.not_mem rfl, ih hcode⟩

/-- Between two pieces of code, what is left of the lines is what is left of the code there. -/
theorem codeLines_fills {code : List (List Char)} {text : List Char} (h : Fills code text)
    (hcode : ∀ c ∈ code, '\n' ∉ c) :
    codeLines text = (code.map cleanStatement).filter (· ≠ []) := by
  obtain ⟨lines, i, hspread, hi, rfl⟩ := h
  have hsplit : Text.splitLines (between lines i) = [] :: (lines ++ [i]) := by
    have hlast : Text.splitLines i = [i] := List.splitOn_eq_singleton (hi.not_mem rfl)
    rw [between, ← List.nil_append ('\n' :: _), Text.splitLines_append_feed _ List.not_mem_nil,
      Text.splitLines_joinLines _ (feed_not_mem_of_spread hspread hcode), hlast]
  rw [codeLines_eq, hsplit, List.map_cons, cleanStatement_nil,
    List.filter_cons_of_neg (by simp), List.map_append, List.filter_append,
    filter_cleanStatement_spread hspread, List.map_singleton, cleanStatement_indent hi]
  exact List.append_nil _

end PacketClass

end PacketGen
