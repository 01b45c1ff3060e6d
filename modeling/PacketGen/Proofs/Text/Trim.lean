import Mathlib.Data.List.DropRight
import PacketGen.PacketClass

/-!
# Trimming

What trimming leaves of a line. It only ever takes characters away, so whatever no character of a
line is, no character of the cleaned line is either; and it takes away exactly the blanks around a
text that starts and ends in something else (`trim_cases`).
-/

namespace PacketGen

namespace Text

variable {p : Char → Bool} {c : Char} {cs ws : List Char}

/-- The definition that runs is the library's, whose lemmas are used throughout. -/
theorem dropEndWhile_eq_rdropWhile (p : Char → Bool) (cs : List Char) :
    dropEndWhile p cs = cs.rdropWhile p := rfl

/-! ## Nothing is added -/

theorem mem_of_mem_dropEndWhile (h : c ∈ dropEndWhile p cs) : c ∈ cs :=
  (List.rdropWhile_prefix p cs).subset h

theorem mem_of_mem_trim (h : c ∈ trim cs) : c ∈ cs :=
  (List.dropWhile_sublist isBlank).mem (mem_of_mem_dropEndWhile h)

theorem mem_of_mem_chompReturn (h : c ∈ chompReturn cs) : c ∈ cs := by
  rw [chompReturn] at h
  split at h
  · exact (List.dropLast_sublist cs).mem h
  · exact h

theorem feed_not_mem_endedLines {pieces : List (List Char)} (h : ∀ l ∈ pieces, '\n' ∉ l) :
    ∀ l ∈ endedLines pieces, '\n' ∉ l := by
  intro l hl
  fun_induction endedLines pieces with
  | case1 => exact absurd hl (by simp)
  | case2 => exact absurd hl (by simp)
  | case3 last => exact h l hl
  | case4 piece pieces _ ih =>
    rcases List.mem_cons.mp hl with rfl | hl
    · exact fun hc => h piece List.mem_cons_self (mem_of_mem_chompReturn hc)
    · exact ih (fun k hk => h k (List.mem_cons_of_mem _ hk)) hl

theorem feed_not_mem_lines {l : List Char} (h : l ∈ lines cs) : '\n' ∉ l :=
  feed_not_mem_endedLines (fun _ hl => not_mem_of_mem_splitLines hl) l h

/-! ## What is taken away -/

theorem dropEndWhile_append_of_all (cs : List Char) (h : ∀ d ∈ ws, p d = true) :
    dropEndWhile p (cs ++ ws) = dropEndWhile p cs := by
  have hall : ∀ d ∈ ws.reverse, p d = true := fun d hd => h d (List.mem_reverse.mp hd)
  rw [dropEndWhile, dropEndWhile, List.reverse_append, List.dropWhile_append_of_pos hall]

theorem trimStart_append_of_blank (cs : List Char) (h : ∀ d ∈ ws, isBlank d = true) :
    trimStart (ws ++ cs) = trimStart cs :=
  List.dropWhile_append_of_pos h

theorem trimStart_cons_of_not_blank (cs : List Char) (h : isBlank c = false) :
    trimStart (c :: cs) = c :: cs :=
  List.dropWhile_cons_of_neg (by simp [h])

/-! ## What is left -/

/-- A text whose first and whose last character is no blank. -/
structure Trimmed (cs : List Char) : Prop where
  first : ∃ c ∈ cs.head?, isBlank c = false
  last : ∃ c ∈ cs.getLast?, isBlank c = false

theorem Trimmed.ne_nil (h : Trimmed cs) : cs ≠ [] := by
  rintro rfl
  obtain ⟨c, hc, -⟩ := h.first
  cases hc

theorem Trimmed.ends (h : Trimmed cs) :
    (∃ c ∈ cs.head?, c ≠ ' ' ∧ c ≠ '\n') ∧ ∃ c ∈ cs.getLast?, c ≠ ' ' ∧ c ≠ '\n' := by
  have hne : ∀ c, isBlank c = false → c ≠ ' ' ∧ c ≠ '\n' := by
    intro c hc
    constructor
    · rintro rfl
      exact absurd hc (by decide)
    · rintro rfl
      exact absurd hc (by decide)
  obtain ⟨c, hc, hcblank⟩ := h.first
  obtain ⟨d, hd, hdblank⟩ := h.last
  exact ⟨⟨c, hc, hne c hcblank⟩, d, hd, hne d hdblank⟩

theorem not_of_head?_dropWhile (h : (cs.dropWhile p).head? = some c) : p c = false := by
  have hnot := List.head?_dropWhile_not p cs
  rw [h] at hnot
  simpa using hnot

/-- Only of blanks nothing is left. -/
theorem isBlank_of_trim_eq_nil (h : trim cs = []) : ∀ c ∈ cs, isBlank c = true := by
  have hall : ∀ c ∈ trimStart cs, isBlank c = true := List.rdropWhile_eq_nil_iff.mp h
  refine List.dropWhile_eq_nil_iff.mp ?_
  cases hstart : cs.dropWhile isBlank with
  | nil => rfl
  | cons c rest =>
    have hfirst : (cs.dropWhile isBlank).head? = some c := by
      rw [hstart]
      rfl
    have hmem : c ∈ trimStart cs := List.mem_of_mem_head? hfirst
    exact absurd (hall c hmem) (by simp [not_of_head?_dropWhile hfirst])

theorem trimmed_trim (h : trim cs ≠ []) : Trimmed (trim cs) := by
  obtain ⟨c, rest, hfirst⟩ := List.exists_cons_of_ne_nil h
  have hlast := List.rdropWhile_last_not isBlank (trimStart cs) h
  refine ⟨⟨c, by rw [hfirst]; rfl, ?_⟩, (trim cs).getLast h, List.getLast?_eq_some_getLast h,
    eq_false_of_ne_true hlast⟩
  -- The trimmed text is the beginning of one that begins with no blank.
  have hsplit : trim cs ++ (trimStart cs).rtakeWhile isBlank = trimStart cs :=
    List.rdropWhile_append_rtakeWhile
  rw [hfirst, List.cons_append] at hsplit
  have hstart : (cs.dropWhile isBlank).head? = some c := by
    rw [← trimStart, ← hsplit]
    rfl
  exact not_of_head?_dropWhile hstart

/-- Trimming leaves nothing of blanks, and of any other text all but the blanks around it. -/
theorem trim_cases (cs : List Char) :
    ((∀ c ∈ cs, isBlank c = true) ∧ trim cs = []) ∨
      (Trimmed (trim cs) ∧ ∃ back, cs = cs.takeWhile isBlank ++ trim cs ++ back ∧
        ∀ c ∈ back, isBlank c = true) := by
  by_cases hnil : trim cs = []
  · exact Or.inl ⟨isBlank_of_trim_eq_nil hnil, hnil⟩
  · refine Or.inr ⟨trimmed_trim hnil, (trimStart cs).rtakeWhile isBlank, ?_, ?_⟩
    · rw [List.append_assoc, trim, trimEnd, dropEndWhile_eq_rdropWhile,
        List.rdropWhile_append_rtakeWhile]
      exact List.takeWhile_append_dropWhile.symm
    · exact fun c hc => List.mem_rtakeWhile_imp hc

end Text

namespace PacketClass

theorem mem_of_mem_cleanStatement {c : Char} {line : List Char} (h : c ∈ cleanStatement line) :
    c ∈ line :=
  Text.mem_of_mem_trim (Text.mem_of_mem_dropEndWhile h)

theorem feed_not_mem_cleanLines {text l : List Char} (h : l ∈ cleanLines text) : '\n' ∉ l := by
  obtain ⟨line, hline, rfl⟩ := List.mem_map.mp h
  exact fun hc => Text.feed_not_mem_lines hline (mem_of_mem_cleanStatement hc)

end PacketClass

end PacketGen
