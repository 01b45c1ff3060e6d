import PacketGen.Proofs.Comment.Blanking
import PacketGen.Proofs.Text.WordSearch

/-!
# Comments in a text that goes on

Two texts in a row are blanked one after the other, the second one in the state in which the first
has left the scan (`CommentScan.after`, `CommentScan.blank_append`). The scan looks one character
ahead, so the first text must not end in one with which a marker could begin (`Settled`).

Two ends of a text leave no choice: behind a bracket that is kept the scan is in code, and behind
a line feed it is in code or in a block comment.
-/

namespace PacketGen

open Text Comment

namespace CommentScan

/-- Where a scan stands behind a text. -/
def after : CommentScan → List Char → CommentScan
  | s, [] => s
  | .code, c :: cs =>
    if opensLine (c :: cs) then after .lineComment cs
    else if opensBlock (c :: cs) then after .blockOpener cs
    else after .code cs
  | .lineComment, c :: cs => if c = '\n' then after .code cs else after .lineComment cs
  | .blockOpener, _ :: cs => after .block cs
  | .block, c :: cs =>
    if closesBlock (c :: cs) then after .blockCloser cs else after .block cs
  | .blockCloser, _ :: cs => after .code cs

end CommentScan

/-- No marker of a comment begins with the last character of the text. -/
def Settled (cs : List Char) : Prop := ∀ c ∈ cs.getLast?, c ≠ '/' ∧ c ≠ '*'

variable {c m : Char} {cs ds : List Char} {s : CommentScan}

theorem Settled.tail (h : Settled (c :: cs)) : Settled cs := by
  intro d hd
  refine h d ?_
  rw [List.getLast?_cons, Option.mem_def.mp hd]
  rfl

/-- What stands at the start of a text is told without what is behind its end. -/
theorem Settled.prefix_iff {a b : Char} (h : Settled (c :: cs)) (ha : a = '/' ∨ a = '*') :
    [a, b] <+: c :: (cs ++ ds) ↔ [a, b] <+: c :: cs := by
  cases cs with
  | nil =>
    obtain ⟨hslash, hstar⟩ := h c rfl
    have hne : a ≠ c := by
      rintro rfl
      exact ha.elim hslash hstar
    simp [List.cons_prefix_cons, hne]
  | cons d cs => simp [List.cons_prefix_cons]

namespace CommentScan

theorem opensLine_append (h : Settled (c :: cs)) (ds : List Char) :
    opensLine (c :: (cs ++ ds)) = opensLine (c :: cs) := by
  rw [Bool.eq_iff_iff, opensLine_iff, opensLine_iff, h.prefix_iff (Or.inl rfl)]
  simp [List.cons_prefix_cons]

theorem opensBlock_append (h : Settled (c :: cs)) (ds : List Char) :
    opensBlock (c :: (cs ++ ds)) = opensBlock (c :: cs) := by
  rw [Bool.eq_iff_iff, opensBlock_iff, opensBlock_iff, h.prefix_iff (Or.inl rfl)]

theorem closesBlock_append (h : Settled (c :: cs)) (ds : List Char) :
    closesBlock (c :: (cs ++ ds)) = closesBlock (c :: cs) := by
  rw [Bool.eq_iff_iff, closesBlock_iff, closesBlock_iff, h.prefix_iff (Or.inr rfl)]

/-- **Two texts in a row are blanked one after the other.** -/
theorem blank_append (h : Settled cs) (s : CommentScan) (ds : List Char) :
    s.blank (cs ++ ds) = s.blank cs ++ (s.after cs).blank ds := by
  fun_induction CommentScan.blank s cs with
  | case1 s => rfl
  | case2 c cs hopens ih =>
    rw [List.cons_append, blank, if_pos (opensLine_append h ds ▸ hopens), ih h.tail, after,
      if_pos hopens, List.append_assoc]
  | case3 c cs hline hopens ih =>
    rw [List.cons_append, blank, opensLine_append h, if_neg hline, opensBlock_append h,
      if_pos hopens, ih h.tail, after, if_neg hline, if_pos hopens, List.append_assoc]
  | case4 c cs hline hblock ih =>
    rw [List.cons_append, blank, opensLine_append h, if_neg hline, opensBlock_append h,
      if_neg hblock, ih h.tail, after, if_neg hline, if_neg hblock, List.cons_append]
  | case5 cs ih => rw [List.cons_append, blank, if_pos rfl, ih h.tail, after, if_pos rfl]; rfl
  | case6 c cs hc ih =>
    rw [List.cons_append, blank, if_neg hc, ih h.tail, after, if_neg hc, List.append_assoc]
  | case7 c cs ih => rw [List.cons_append, blank, ih h.tail, after, List.append_assoc]
  | case8 cs ih =>
    have hopen : ¬ closesBlock ('\n' :: cs) = true := by simp [closesBlock]
    rw [List.cons_append, blank, if_pos rfl, ih h.tail, after, if_neg hopen]
    rfl
  | case9 c cs hc hcloses ih =>
    rw [List.cons_append, blank, if_neg hc, closesBlock_append h, if_pos hcloses, ih h.tail, after,
      if_pos hcloses, List.append_assoc]
  | case10 c cs hc hopen ih =>
    rw [List.cons_append, blank, if_neg hc, closesBlock_append h, if_neg hopen, ih h.tail, after,
      if_neg hopen, List.append_assoc]
  | case11 c cs ih => rw [List.cons_append, blank, ih h.tail, after, List.append_assoc]

end CommentScan

/-! ## The last character -/

theorem getLast?_of_cons (h : (c :: cs).getLast? = some m) :
    cs.getLast? = some m ∨ cs = [] ∧ c = m := by
  rw [List.getLast?_cons, Option.some_inj] at h
  cases hlast : cs.getLast? with
  | none =>
    rw [hlast] at h
    exact Or.inr ⟨List.getLast?_eq_none_iff.mp hlast, h⟩
  | some d =>
    rw [hlast] at h
    exact Or.inl (congrArg some h)

theorem getLast?_of_spaces (h : (blanked c ++ ds).getLast? = some m) (hm : m ≠ ' ') :
    ds.getLast? = some m := by
  rw [List.getLast?_append, Option.or_eq_some_iff] at h
  rcases h with h | ⟨-, h⟩
  · exact h
  · exact absurd (List.eq_of_mem_replicate (List.mem_of_getLast? h)) hm

namespace Scanned

variable {source result : List Char}

theorem eq_nil (h : Scanned source []) : source = [] := by
  generalize hresult : ([] : List Char) = result at h
  cases h with
  | nil => rfl
  | kept => cases hresult
  | spaces c =>
    obtain ⟨spaces, hspaces⟩ := blanked_eq_cons c
    rw [hspaces] at hresult
    cases hresult

/-- A text ends in what is left at its end, unless that is a space. -/
theorem getLast? (h : Scanned source result) (hlast : result.getLast? = some m) (hm : m ≠ ' ') :
    source.getLast? = some m := by
  induction h with
  | nil => exact hlast
  | @kept c cs ds hline hblock h ih =>
    rw [List.getLast?_cons]
    rcases getLast?_of_cons hlast with hlast | ⟨rfl, rfl⟩
    · rw [ih hlast]
      rfl
    · rw [h.eq_nil]
      rfl
  | @spaces c cs ds h ih =>
    rw [List.getLast?_cons, ih (getLast?_of_spaces hlast hm)]
    rfl

end Scanned

namespace CommentScan

/-- A last character that is kept and ends no line is one of code. -/
theorem after_eq_code (h : (s.blank cs).getLast? = some m) (hm : m ≠ ' ') (hfeed : m ≠ '\n') :
    s.after cs = .code := by
  fun_induction CommentScan.blank s cs with
  | case1 s => cases h
  | case2 c cs hopens ih =>
    rw [after, if_pos hopens]
    exact ih (getLast?_of_spaces h hm)
  | case3 c cs hline hopens ih =>
    rw [after, if_neg hline, if_pos hopens]
    exact ih (getLast?_of_spaces h hm)
  | case4 c cs hline hblock ih =>
    rw [after, if_neg hline, if_neg hblock]
    rcases getLast?_of_cons h with h | ⟨hnil, -⟩
    · exact ih h
    · have hscanned := scanned .code cs
      rw [hnil] at hscanned
      rw [hscanned.eq_nil]
      rfl
  | case5 cs ih =>
    rw [after, if_pos rfl]
    rcases getLast?_of_cons h with h | ⟨-, rfl⟩
    · exact ih h
    · exact absurd rfl hfeed
  | case6 c cs hc ih =>
    rw [after, if_neg hc]
    exact ih (getLast?_of_spaces h hm)
  | case7 c cs ih => exact ih (getLast?_of_spaces h hm)
  | case8 cs ih =>
    rw [after, if_neg (by simp [closesBlock])]
    rcases getLast?_of_cons h with h | ⟨-, rfl⟩
    · exact ih h
    · exact absurd rfl hfeed
  | case9 c cs hc hcloses ih =>
    rw [after, if_pos hcloses]
    exact ih (getLast?_of_spaces h hm)
  | case10 c cs hc hopen ih =>
    rw [after, if_neg hopen]
    exact ih (getLast?_of_spaces h hm)
  | case11 c cs ih => exact ih (getLast?_of_spaces h hm)

/-- Behind a line feed no line comment is open, and no marker has begun. -/
theorem after_of_feed (hs : s.Fits cs) (h : cs.getLast? = some '\n') :
    s.after cs = .code ∨ s.after cs = .block := by
  fun_induction CommentScan.after s cs with
  | case1 s => cases h
  | case2 c cs hopens ih =>
    rcases getLast?_of_cons h with h | ⟨-, hc⟩
    · exact ih trivial h
    · exact absurd hc (ne_feed_of_opensLine hopens)
  | case3 c cs hline hopens ih =>
    obtain ⟨rfl, ds, hds⟩ := List.cons_prefix_cons.mp (opensBlock_iff.mp hopens)
    obtain rfl : '*' :: ds = cs := hds
    rcases getLast?_of_cons h with h | ⟨hnil, -⟩
    · exact ih rfl h
    · cases hnil
  | case4 c cs hline hblock ih =>
    rcases getLast?_of_cons h with h | ⟨rfl, -⟩
    · exact ih trivial h
    · exact Or.inl rfl
  | case5 cs ih =>
    rcases getLast?_of_cons h with h | ⟨rfl, -⟩
    · exact ih trivial h
    · exact Or.inl rfl
  | case6 c cs hc ih =>
    rcases getLast?_of_cons h with h | ⟨-, hfeed⟩
    · exact ih trivial h
    · exact absurd hfeed hc
  | case7 c cs ih =>
    rcases getLast?_of_cons h with h | ⟨rfl, -⟩
    · exact ih trivial h
    · exact Or.inr rfl
  | case8 c cs hcloses ih =>
    obtain ⟨rfl, ds, hds⟩ := List.cons_prefix_cons.mp (closesBlock_iff.mp hcloses)
    obtain rfl : '/' :: ds = cs := hds
    rcases getLast?_of_cons h with h | ⟨hnil, -⟩
    · exact ih rfl h
    · cases hnil
  | case9 c cs hopen ih =>
    rcases getLast?_of_cons h with h | ⟨rfl, -⟩
    · exact ih trivial h
    · exact Or.inr rfl
  | case10 c cs ih =>
    rcases getLast?_of_cons h with h | ⟨rfl, -⟩
    · exact ih trivial h
    · exact Or.inl rfl

end CommentScan

/-! ## Two texts -/

/-- What is behind a bracket of code is blanked by itself. -/
theorem blankComments_append_of_bracket {source : List Char}
    (h : (blankComments source).getLast? = some '\x7d') (cs : List Char) :
    blankComments (source ++ cs) = blankComments source ++ blankComments cs := by
  have hlast := (CommentScan.scanned .code source).getLast? h (by decide)
  have hsettled : Settled source := by
    intro c hc
    rw [hlast, Option.mem_some] at hc
    subst hc
    decide
  have hcode : CommentScan.code.after source = .code :=
    CommentScan.after_eq_code h (by decide) (by decide)
  rw [blankComments, CommentScan.blank_append hsettled, hcode]
  rfl

/-- What is behind a line feed is blanked by itself, unless a block comment goes on there; and no
name goes on. -/
theorem blankComments_append_of_feed {source : List Char} (hfeed : source.getLast? = some '\n')
    (hopen : CommentScan.code.after source ≠ .block) (cs : List Char) :
    blankComments (source ++ cs) = blankComments source ++ blankComments cs ∧
      endsName (blankComments source) = false := by
  have hsettled : Settled source := by
    intro c hc
    rw [hfeed, Option.mem_some] at hc
    subst hc
    decide
  have hfits : CommentScan.code.Fits source := trivial
  have hcode := (CommentScan.after_of_feed hfits hfeed).resolve_right hopen
  constructor
  · rw [blankComments, CommentScan.blank_append hsettled, hcode]
    rfl
  · cases hlast : (blankComments source).getLast? with
    | none => rw [endsName, hlast]; rfl
    | some m =>
      rw [endsName, hlast, Option.any_some]
      by_cases hm : m = ' '
      · subst hm
        decide
      · have hsource := (CommentScan.scanned .code source).getLast? hlast hm
        rw [hfeed, Option.some_inj] at hsource
        subst hsource
        decide

end PacketGen
