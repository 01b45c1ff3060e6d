import PacketGen.Comment
import PacketGen.Proofs.Text.SplitLines

/-!
# Code written on lines of its own

A source is usually written with every statement on a line of its own, indented as its author
likes, with blank lines and comment lines in between. `Written code ls` says that the lines `ls`
are the pieces `code` written that way; `Spread code ls` is the same without comments. Blanking the
comments leads from the one to the other, line by line (`Written.spread`, `blankComments_ofLines`),
because neither a piece of code nor a line comment goes on behind its line.

A text written that way is taken apart at its pieces of code: `Fills code text` says that `text` is
what can stand between two pieces when `code` is spread over the lines there (`Fills.split`).
-/

namespace PacketGen.Layout

def isIndent (c : Char) : Bool := c == ' ' || c == '\t'

def Indent (i : List Char) : Prop := ∀ c ∈ i, isIndent c = true

instance (i : List Char) : Decidable (Indent i) := List.decidableBAll _ i

/-- Pieces of code, each on a line of its own, among blank lines. -/
inductive Spread : (code lines : List (List Char)) → Prop
  | nil : Spread [] []
  | code {code lines : List (List Char)} {i : List Char} (c : List Char) : Indent i →
      Spread code lines → Spread (c :: code) ((i ++ c) :: lines)
  | blank {code lines : List (List Char)} {i : List Char} : Indent i → Spread code lines →
      Spread code (i :: lines)

/-- Pieces of code, each on a line of its own, among blank lines and comment lines. -/
inductive Written : (code lines : List (List Char)) → Prop
  | nil : Written [] []
  | code {code lines : List (List Char)} {i : List Char} (c : List Char) : Indent i →
      Written code lines → Written (c :: code) ((i ++ c) :: lines)
  | blank {code lines : List (List Char)} {i : List Char} : Indent i → Written code lines →
      Written code (i :: lines)
  | comment {code lines : List (List Char)} {i : List Char} (text : List Char) : Indent i →
      '\n' ∉ text → Written code lines → Written code ((i ++ '/' :: '/' :: text) :: lines)

theorem Indent.append {i j : List Char} (hi : Indent i) (hj : Indent j) : Indent (i ++ j) := by
  intro c hc
  rcases List.mem_append.mp hc with hc | hc
  · exact hi c hc
  · exact hj c hc

theorem Indent.not_mem {i : List Char} (hi : Indent i) {c : Char} (hc : isIndent c = false) :
    c ∉ i := fun h => absurd (hi c h) (by simp [hc])

theorem indent_blanked (c : Char) : Indent (blanked c) := by
  intro d hd
  rw [List.eq_of_mem_replicate hd]
  rfl

/-! ## Blanking -/

/-- Code without a comment opener. -/
def Uncommented (c : List Char) : Prop := '/' ∉ c ∧ '#' ∉ c

instance (c : List Char) : Decidable (Uncommented c) := inferInstanceAs (Decidable (_ ∧ _))

theorem Indent.uncommented {i : List Char} (hi : Indent i) : Uncommented i :=
  ⟨hi.not_mem rfl, hi.not_mem rfl⟩

theorem Uncommented.append {c d : List Char} (hc : Uncommented c) (hd : Uncommented d) :
    Uncommented (c ++ d) :=
  ⟨fun h => (List.mem_append.mp h).elim hc.1 hd.1, fun h => (List.mem_append.mp h).elim hc.2 hd.2⟩

theorem blankComments_append_of_uncommented {c : List Char} (hc : Uncommented c)
    (rest : List Char) : blankComments (c ++ rest) = c ++ blankComments rest := by
  induction c with
  | nil => rfl
  | cons d ds ih =>
    have hslash : d ≠ '/' := fun h => hc.1 (h ▸ List.mem_cons_self)
    have hhash : d ≠ '#' := fun h => hc.2 (h ▸ List.mem_cons_self)
    have hds : Uncommented ds :=
      ⟨fun h => hc.1 (List.mem_cons_of_mem _ h), fun h => hc.2 (List.mem_cons_of_mem _ h)⟩
    have hline : CommentScan.opensLine (d :: (ds ++ rest)) = false := by
      unfold CommentScan.opensLine
      split <;> simp_all
    have hblock : CommentScan.opensBlock (d :: (ds ++ rest)) = false := by
      unfold CommentScan.opensBlock
      split <;> simp_all
    have hstep : blankComments (d :: (ds ++ rest)) = d :: blankComments (ds ++ rest) := by
      rw [blankComments, CommentScan.blank, hline, hblock]
      rfl
    rw [List.cons_append, hstep, ih hds, List.cons_append]

/-- What can stand behind a line: nothing, or a line feed. -/
def AtLineEnd (rest : List Char) : Prop := rest = [] ∨ ∃ after, rest = '\n' :: after

/-- The text of a line comment becomes blanks; the line feed ends it. -/
theorem blank_lineComment {text rest : List Char} (htext : '\n' ∉ text) (hrest : AtLineEnd rest) :
    CommentScan.blank .lineComment (text ++ rest) =
      text.flatMap blanked ++ blankComments rest := by
  induction text with
  | nil =>
    rcases hrest with rfl | ⟨after, rfl⟩
    · rfl
    · rw [List.nil_append, CommentScan.blank, if_pos rfl, List.flatMap_nil, List.nil_append,
        blankComments, CommentScan.blank]
      rfl
  | cons c cs ih =>
    have hc : c ≠ '\n' := fun h => htext (h ▸ List.mem_cons_self)
    rw [List.cons_append, CommentScan.blank, if_neg hc,
      ih fun h => htext (List.mem_cons_of_mem _ h), List.flatMap_cons, List.append_assoc]

theorem blankComments_comment {text rest : List Char} (htext : '\n' ∉ text)
    (hrest : AtLineEnd rest) :
    blankComments ('/' :: '/' :: (text ++ rest)) =
      blanked '/' ++ blanked '/' ++ text.flatMap blanked ++ blankComments rest := by
  have hopens : CommentScan.opensLine ('/' :: '/' :: (text ++ rest)) = true := rfl
  have hslash : '/' ≠ '\n' := by decide
  rw [blankComments, CommentScan.blank, if_pos hopens, CommentScan.blank, if_neg hslash,
    blank_lineComment htext hrest]
  simp

theorem blankComments_of_uncommented {c : List Char} (hc : Uncommented c) :
    blankComments c = c := by
  have hself := blankComments_append_of_uncommented hc []
  rw [List.append_nil] at hself
  exact hself.trans (List.append_nil c)

/-- A line that can be blanked by itself, whatever is on the next one. -/
def IsLine (l : List Char) : Prop :=
  ∀ rest, AtLineEnd rest → blankComments (l ++ rest) = blankComments l ++ blankComments rest

theorem Uncommented.isLine {c : List Char} (hc : Uncommented c) : IsLine c := by
  intro rest _
  rw [blankComments_append_of_uncommented hc, blankComments_of_uncommented hc]

theorem blankComments_commentLine {i text : List Char} (hi : Indent i) (htext : '\n' ∉ text) :
    blankComments (i ++ '/' :: '/' :: text) =
      i ++ (blanked '/' ++ blanked '/' ++ text.flatMap blanked) := by
  have hcomment := blankComments_comment htext (Or.inl rfl)
  rw [List.append_nil] at hcomment
  rw [blankComments_append_of_uncommented hi.uncommented, hcomment]
  exact congrArg (i ++ ·) (List.append_nil _)

theorem isLine_comment {i text : List Char} (hi : Indent i) (htext : '\n' ∉ text) :
    IsLine (i ++ '/' :: '/' :: text) := by
  intro rest hrest
  have hassoc : i ++ '/' :: '/' :: text ++ rest = i ++ ('/' :: '/' :: (text ++ rest)) := by simp
  rw [blankComments_commentLine hi htext, hassoc,
    blankComments_append_of_uncommented hi.uncommented, blankComments_comment htext hrest]
  simp only [List.append_assoc]

theorem indent_flatMap_blanked (text : List Char) : Indent (text.flatMap blanked) := by
  intro d hd
  obtain ⟨c, -, hd⟩ := List.mem_flatMap.mp hd
  exact indent_blanked c d hd

/-- Blanking turns a comment line into a blank one and leaves the others alone. -/
theorem Written.spread {code lines : List (List Char)} (h : Written code lines)
    (hcode : ∀ c ∈ code, Uncommented c) :
    Spread code (lines.map blankComments) ∧ ∀ l ∈ lines, IsLine l := by
  induction h with
  | nil => exact ⟨.nil, by simp⟩
  | @code code lines i c hi _ ih =>
    obtain ⟨hspread, hlines⟩ := ih fun d hd => hcode d (List.mem_cons_of_mem _ hd)
    have hc := hi.uncommented.append (hcode c List.mem_cons_self)
    rw [List.map_cons, blankComments_of_uncommented hc]
    exact ⟨.code c hi hspread, List.forall_mem_cons.mpr ⟨hc.isLine, hlines⟩⟩
  | @blank code lines i hi _ ih =>
    obtain ⟨hspread, hlines⟩ := ih hcode
    rw [List.map_cons, blankComments_of_uncommented hi.uncommented]
    exact ⟨.blank hi hspread, List.forall_mem_cons.mpr ⟨hi.uncommented.isLine, hlines⟩⟩
  | @comment code lines i text hi htext _ ih =>
    obtain ⟨hspread, hlines⟩ := ih hcode
    have hblank : Indent (i ++ (blanked '/' ++ blanked '/' ++ text.flatMap blanked)) :=
      hi.append (((indent_blanked _).append (indent_blanked _)).append
        (indent_flatMap_blanked text))
    rw [List.map_cons, blankComments_commentLine hi htext]
    exact ⟨.blank hblank hspread, List.forall_mem_cons.mpr ⟨isLine_comment hi htext, hlines⟩⟩

/-! ## Lines with line feeds between them -/

def behind (lines : List (List Char)) : List Char := lines.flatMap ('\n' :: ·)

/-- A text of which `lines` are the lines. -/
def ofLines : List (List Char) → List Char
  | [] => []
  | l :: lines => l ++ behind lines

theorem atLineEnd_behind (lines : List (List Char)) : AtLineEnd (behind lines) := by
  cases lines with
  | nil => exact Or.inl rfl
  | cons l lines => exact Or.inr ⟨l ++ behind lines, by simp [behind]⟩

theorem blankComments_feed (rest : List Char) :
    blankComments ('\n' :: rest) = '\n' :: blankComments rest := by
  rw [blankComments, CommentScan.blank]
  rfl

theorem blankComments_behind {lines : List (List Char)} (h : ∀ l ∈ lines, IsLine l) :
    blankComments (behind lines) = behind (lines.map blankComments) := by
  induction lines with
  | nil => rfl
  | cons l lines ih =>
    have hcons (ls : List (List Char)) (k : List Char) :
        behind (k :: ls) = '\n' :: (k ++ behind ls) := by simp [behind]
    rw [hcons, blankComments_feed, h l List.mem_cons_self _ (atLineEnd_behind lines),
      ih fun k hk => h k (List.mem_cons_of_mem _ hk), List.map_cons, hcons]

theorem blankComments_ofLines {lines : List (List Char)} (h : ∀ l ∈ lines, IsLine l) :
    blankComments (ofLines lines) = ofLines (lines.map blankComments) := by
  cases lines with
  | nil => rfl
  | cons l lines =>
    rw [ofLines, h l List.mem_cons_self _ (atLineEnd_behind lines),
      blankComments_behind fun k hk => h k (List.mem_cons_of_mem _ hk)]
    rfl

/-- The text from the end of one piece of code to the start of the next one: the lines in between,
and the indentation of the next one. -/
def between (lines : List (List Char)) (i : List Char) : List Char :=
  '\n' :: (Text.joinLines lines ++ i)

theorem between_append_cons (before : List (List Char)) (i c : List Char)
    (after : List (List Char)) (j : List Char) :
    between (before ++ (i ++ c) :: after) j = between before i ++ (c ++ between after j) := by
  simp [between]

theorem behind_append_cons (before : List (List Char)) (i c : List Char)
    (after : List (List Char)) :
    behind (before ++ (i ++ c) :: after) = between before i ++ (c ++ behind after) := by
  induction before with
  | nil => simp [behind, between]
  | cons l before ih =>
    have hcons : behind (l :: (before ++ (i ++ c) :: after)) =
        '\n' :: (l ++ behind (before ++ (i ++ c) :: after)) := by simp [behind]
    rw [List.cons_append, hcons, ih]
    simp [between]

theorem ofLines_append_cons (before : List (List Char)) (i c : List Char)
    (after : List (List Char)) :
    ofLines (before ++ (i ++ c) :: after) =
      Text.joinLines before ++ i ++ (c ++ behind after) := by
  cases before with
  | nil => simp [ofLines]
  | cons k before =>
    rw [List.cons_append, ofLines, behind_append_cons]
    simp [between]

/-! ## Taking a text apart -/

/-- The place of a piece of code: what comes before it is on the lines before. -/
theorem Spread.split {before after : List (List Char)} {c : List Char}
    {lines : List (List Char)} (h : Spread (before ++ c :: after) lines) :
    ∃ linesBefore i linesAfter, lines = linesBefore ++ (i ++ c) :: linesAfter ∧
      Spread before linesBefore ∧ Indent i ∧ Spread after linesAfter := by
  -- A blank line is on one side with the lines next to it; a line of code is `c` or before it.
  generalize hcode : before ++ c :: after = code at h
  induction h generalizing before with
  | nil => exact absurd hcode (by simp)
  | @code code lines i d hi hspread ih =>
    cases before with
    | nil =>
      obtain ⟨rfl, rfl⟩ := List.cons.inj hcode
      exact ⟨[], i, lines, rfl, .nil, hi, hspread⟩
    | cons b before =>
      obtain ⟨rfl, hrest⟩ := List.cons.inj hcode
      obtain ⟨linesBefore, j, linesAfter, rfl, hbefore, hj, hafter⟩ := ih hrest
      exact ⟨(i ++ b) :: linesBefore, j, linesAfter, rfl, .code b hi hbefore, hj, hafter⟩
  | @blank code lines i hi _ ih =>
    obtain ⟨linesBefore, j, linesAfter, rfl, hbefore, hj, hafter⟩ := ih hcode
    exact ⟨i :: linesBefore, j, linesAfter, rfl, .blank hi hbefore, hj, hafter⟩

/-- The text from the end of one piece of code to the start of the next one that `code` can stand
for, being spread over the lines in between. -/
def Fills (code : List (List Char)) (text : List Char) : Prop :=
  ∃ lines i, Spread code lines ∧ Indent i ∧ text = between lines i

theorem Fills.split {before after : List (List Char)} {c text : List Char}
    (h : Fills (before ++ c :: after) text) :
    ∃ A B, text = A ++ (c ++ B) ∧ Fills before A ∧ Fills after B := by
  obtain ⟨lines, j, hspread, hj, rfl⟩ := h
  obtain ⟨linesBefore, i, linesAfter, rfl, hbefore, hi, hafter⟩ := hspread.split
  exact ⟨between linesBefore i, between linesAfter j, between_append_cons _ _ _ _ _,
    ⟨_, _, hbefore, hi, rfl⟩, ⟨_, _, hafter, hj, rfl⟩⟩

end PacketGen.Layout
