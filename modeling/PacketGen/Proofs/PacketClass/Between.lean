import PacketGen.Proofs.PacketClass.CodeLines
import PacketGen.Proofs.PacketClass.Search

/-!
# The text between two pieces of code

The searches go over whole texts, not over lines. Here what they meet between two pieces of code is
told of the code that is spread there: layout adds no bracket (`Fills.balanced`), calls nothing and
lets every name begin anew (`Fills.calls`).
-/

namespace PacketGen.Layout

open Text (Cut calls)

variable {code lines : List (List Char)} {text : List Char}

theorem mem_joinLines (h : Spread code lines) {c : Char} (hc : c ∈ Text.joinLines lines) :
    Text.isBlank c = true ∨ ∃ d ∈ code, c ∈ d := by
  induction h with
  | nil => exact absurd hc (by simp)
  | @code code lines i d hi _ ih =>
    rw [Text.joinLines_cons, List.append_assoc] at hc
    rcases List.mem_append.mp hc with hc | hc
    · exact Or.inl (PacketClass.blank_of_indent hi c hc)
    · rcases List.mem_append.mp hc with hc | hc
      · exact Or.inr ⟨d, List.mem_cons_self, hc⟩
      · rcases List.mem_cons.mp hc with rfl | hc
        · exact Or.inl rfl
        · exact (ih hc).imp_right fun ⟨e, he, hce⟩ => ⟨e, List.mem_cons_of_mem _ he, hce⟩
  | @blank code lines i hi _ ih =>
    rw [Text.joinLines_cons] at hc
    rcases List.mem_append.mp hc with hc | hc
    · exact Or.inl (PacketClass.blank_of_indent hi c hc)
    · rcases List.mem_cons.mp hc with rfl | hc
      · exact Or.inl rfl
      · exact ih hc

/-- Layout is blank, so anything else is in the code. -/
theorem Fills.not_mem (h : Fills code text) {c : Char} (hblank : Text.isBlank c = false)
    (hcode : ∀ d ∈ code, c ∉ d) : c ∉ text := by
  obtain ⟨lines, i, hspread, hi, rfl⟩ := h
  intro hc
  rcases List.mem_cons.mp hc with rfl | hc
  · exact absurd hblank (by decide)
  · rcases List.mem_append.mp hc with hc | hc
    · rcases mem_joinLines hspread hc with hc | ⟨d, hd, hc⟩
      · exact absurd hc (by simp [hblank])
      · exact hcode d hd hc
    · exact absurd (PacketClass.blank_of_indent hi c hc) (by simp [hblank])

theorem Fills.balanced (h : Fills code text) (hcode : ∀ d ∈ code, '\x7b' ∉ d ∧ '\x7d' ∉ d) :
    Brackets.braces.Balanced text :=
  Brackets.balanced_of_not_mem (h.not_mem rfl fun d hd => (hcode d hd).1)
    (h.not_mem rfl fun d hd => (hcode d hd).2)

-- A line is indentation, code and a line feed; all three let the next name begin anew.
theorem calls_joinLines (h : Spread code lines) (hcode : ∀ d ∈ code, Cut d) :
    Cut (Text.joinLines lines) ∧ calls (Text.joinLines lines) = code.flatMap calls := by
  have hline (l : List Char) (ls : List (List Char)) :
      Text.joinLines (l :: ls) = (l ++ ['\n']) ++ Text.joinLines ls := by simp
  have hfeed : ∀ c ∈ ['\n'], Text.isBlank c = true := List.forall_mem_singleton.mpr rfl
  induction h with
  | nil => exact ⟨.nil, rfl⟩
  | @code code lines i d hi _ ih =>
    obtain ⟨hcut, hcalls⟩ := ih fun e he => hcode e (List.mem_cons_of_mem _ he)
    have hd := hcode d List.mem_cons_self
    have hindent : Cut i := Text.Cut.nil.append_blank (PacketClass.blank_of_indent hi)
    have hfirst : Cut (i ++ d) := hindent.append hd
    have hend : calls ['\n'] = [] := rfl
    rw [hline]
    refine ⟨(hfirst.append_blank hfeed).append hcut, ?_⟩
    rw [Text.calls_append (hfirst.append_blank hfeed), Text.calls_append hfirst,
      Text.calls_append hindent, Text.calls_of_not_mem (hi.not_mem rfl), hend, hcalls,
      List.nil_append, List.append_nil, List.flatMap_cons]
  | @blank code lines i hi _ ih =>
    obtain ⟨hcut, hcalls⟩ := ih hcode
    have hindent : Cut i := Text.Cut.nil.append_blank (PacketClass.blank_of_indent hi)
    have hopen : '(' ∉ i := hi.not_mem rfl
    have hend : '(' ∉ i ++ ['\n'] := by simp [hopen]
    rw [hline]
    refine ⟨(hindent.append_blank hfeed).append hcut, ?_⟩
    rw [Text.calls_append (hindent.append_blank hfeed), Text.calls_of_not_mem hend, hcalls,
      List.nil_append]

/-- What is called between two pieces of code is what the code there calls, one after the other. -/
theorem Fills.calls (h : Fills code text) (hcode : ∀ d ∈ code, Cut d) :
    Cut text ∧ calls text = code.flatMap calls := by
  obtain ⟨lines, i, hspread, hi, rfl⟩ := h
  obtain ⟨hcut, hcalls⟩ := calls_joinLines hspread hcode
  have hfeed : Cut ['\n'] := Text.Cut.nil.append_blank (List.forall_mem_singleton.mpr rfl)
  have hsplit : between lines i = ['\n'] ++ (Text.joinLines lines ++ i) := rfl
  have hnone : Text.calls ['\n'] = [] := rfl
  refine ⟨hfeed.append (hcut.append_blank (PacketClass.blank_of_indent hi)), ?_⟩
  rw [hsplit, Text.calls_append hfeed, Text.calls_append hcut, hcalls,
    Text.calls_of_not_mem (hi.not_mem rfl), List.append_nil, hnone, List.nil_append]

/-- With its comments blanked, a text is its first and its last piece of code, and what fills the
space around them. -/
theorem Written.around {first last : List Char} {body : List (List Char)}
    (h : Written (first :: (body ++ [last])) lines)
    (hcode : ∀ c ∈ first :: (body ++ [last]), Uncommented c) :
    ∃ W B tail, blankComments (ofLines lines) = W ++ (first ++ (B ++ (last ++ tail))) ∧
      (∀ c ∈ W, Text.isBlank c = true) ∧ Fills body B := by
  obtain ⟨hspread, hlines⟩ := h.spread hcode
  obtain ⟨linesBefore, i, rest, hfirst, hbefore, hi, hrest⟩ :=
    (show Spread ([] ++ first :: (body ++ [last])) _ from hspread).split
  obtain ⟨linesBody, j, linesAfter, rfl, hbody, hj, -⟩ := hrest.split
  refine ⟨Text.joinLines linesBefore ++ i, between linesBody j, behind linesAfter, ?_, ?_,
    linesBody, j, hbody, hj, rfl⟩
  · rw [blankComments_ofLines hlines, hfirst, ofLines_append_cons, behind_append_cons]
  · intro c hc
    rcases List.mem_append.mp hc with hc | hc
    · exact (mem_joinLines hbefore hc).resolve_right (by simp)
    · exact PacketClass.blank_of_indent hi c hc

end PacketGen.Layout
