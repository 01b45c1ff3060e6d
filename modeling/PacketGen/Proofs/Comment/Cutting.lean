import PacketGen.Proofs.Comment.Blanking

/-!
# Cutting a text at what is kept

A scan for comments looks one character ahead, so a part of a text may be blanked otherwise by
itself than inside the text: the part can begin in a comment, or end between the two characters of a
marker. Neither can happen to a part that begins and ends in what is kept. A character that is left
and is no space was read in code and began no marker (`CommentScan.blank_kept`), so the text can be
cut there: what comes before is blanked as it was, and what comes behind is read as code
(`CommentScan.exists_cut`).

So whatever is found in the blanked text can be lifted out of the source, and blanked by itself it
is what was found (`exists_marked`).
-/

namespace PacketGen

open Text Comment

namespace Text

variable {as bs cs ds : List Char}

theorem eq_nil_of_byteLength (h : byteLength cs = 0) : cs = [] := by
  cases cs with
  | nil => rfl
  | cons c cs =>
    have hpos := c.utf8Size_pos
    rw [byteLength_cons] at h
    omega

/-- Two prefixes of one text with equally many bytes are the same. -/
theorem append_inj_of_byteLength (h : as ++ bs = cs ++ ds)
    (hlength : byteLength as = byteLength cs) : as = cs ∧ bs = ds := by
  rcases List.append_eq_append_iff.mp h with ⟨ms, rfl, rfl⟩ | ⟨ms, rfl, rfl⟩
  · have hms : byteLength ms = 0 := by
      rw [byteLength_append] at hlength
      omega
    simp [eq_nil_of_byteLength hms]
  · have hms : byteLength ms = 0 := by
      rw [byteLength_append] at hlength
      omega
    simp [eq_nil_of_byteLength hms]

end Text

variable {s : CommentScan} {c d : Char} {cs ds source front back : List Char}

/-- What is left and is no space is in the source as well, behind as many bytes. -/
theorem Scanned.exists_split (h : Scanned source (front ++ c :: back)) (hspace : c ≠ ' ') :
    ∃ before after, source = before ++ c :: after ∧ byteLength before = byteLength front := by
  generalize hresult : front ++ c :: back = result at h
  induction h generalizing front with
  | nil => simp at hresult
  | @kept d cs ds hline hblock h ih =>
    cases front with
    | nil =>
      obtain ⟨rfl, -⟩ := List.cons.inj hresult
      exact ⟨[], cs, rfl, rfl⟩
    | cons e front =>
      obtain ⟨rfl, hrest⟩ := List.cons.inj hresult
      obtain ⟨before, after, rfl, hlength⟩ := ih hrest
      exact ⟨e :: before, after, rfl, congrArg (_ + ·) hlength⟩
  | @spaces d cs ds h ih =>
    rcases List.append_eq_append_iff.mp hresult with ⟨ms, hspaces, hrest⟩ | ⟨ms, rfl, hrest⟩
    · -- The character would be one of the spaces, or comes right behind them.
      cases ms with
      | nil =>
        rw [List.nil_append, ← List.nil_append (c :: back)] at hrest
        obtain ⟨before, after, rfl, hlength⟩ := ih hrest
        refine ⟨d :: before, after, rfl, ?_⟩
        rw [byteLength_cons, hlength, byteLength_nil, Nat.add_zero, ← byteLength_blanked, hspaces,
          List.append_nil]
      | cons m ms =>
        obtain ⟨rfl, -⟩ := List.cons.inj hrest
        have hmem : c ∈ blanked d := by simp [hspaces]
        exact absurd (List.eq_of_mem_replicate hmem) hspace
    · obtain ⟨before, after, rfl, hlength⟩ := ih hrest.symm
      refine ⟨d :: before, after, rfl, ?_⟩
      rw [byteLength_cons, hlength, byteLength_append, byteLength_blanked]

namespace CommentScan

/-! ## Looking one character ahead -/

theorem opensLine_cons_cons (c d : Char) (cs : List Char) :
    opensLine (c :: d :: cs) = opensLine [c, d] := by
  rw [Bool.eq_iff_iff, opensLine_iff, opensLine_iff]
  simp [List.cons_prefix_cons]

theorem opensBlock_cons_cons (c d : Char) (cs : List Char) :
    opensBlock (c :: d :: cs) = opensBlock [c, d] := by
  rw [Bool.eq_iff_iff, opensBlock_iff, opensBlock_iff]
  simp [List.cons_prefix_cons]

theorem closesBlock_cons_cons (c d : Char) (cs : List Char) :
    closesBlock (c :: d :: cs) = closesBlock [c, d] := by
  rw [Bool.eq_iff_iff, closesBlock_iff, closesBlock_iff]
  simp [List.cons_prefix_cons]

/-- One character is blanked in the same way whatever is behind the next. -/
theorem exists_blank_step (s : CommentScan) (c d : Char) :
    ∃ result t, byteLength result = c.utf8Size ∧
      ∀ cs, s.blank (c :: d :: cs) = result ++ blank t (d :: cs) := by
  cases s with
  | code =>
    by_cases hline : opensLine [c, d] = true
    · refine ⟨blanked c, .lineComment, byteLength_blanked c, fun cs => ?_⟩
      rw [blank, opensLine_cons_cons, if_pos hline]
    · by_cases hblock : opensBlock [c, d] = true
      · refine ⟨blanked c, .blockOpener, byteLength_blanked c, fun cs => ?_⟩
        rw [blank, opensLine_cons_cons, if_neg hline, opensBlock_cons_cons, if_pos hblock]
      · refine ⟨[c], .code, by simp, fun cs => ?_⟩
        rw [blank, opensLine_cons_cons, if_neg hline, opensBlock_cons_cons, if_neg hblock]
        rfl
  | lineComment =>
    by_cases hc : c = '\n'
    · exact ⟨[c], .code, by simp, fun cs => if_pos hc⟩
    · exact ⟨blanked c, .lineComment, byteLength_blanked c, fun cs => if_neg hc⟩
  | blockOpener => exact ⟨blanked c, .block, byteLength_blanked c, fun cs => rfl⟩
  | block =>
    by_cases hc : c = '\n'
    · exact ⟨[c], .block, by simp, fun cs => if_pos hc⟩
    · by_cases hcloses : closesBlock [c, d] = true
      · refine ⟨blanked c, .blockCloser, byteLength_blanked c, fun cs => ?_⟩
        rw [blank, if_neg hc, closesBlock_cons_cons, if_pos hcloses]
      · refine ⟨blanked c, .block, byteLength_blanked c, fun cs => ?_⟩
        rw [blank, if_neg hc, closesBlock_cons_cons, if_neg hcloses]
  | blockCloser => exact ⟨blanked c, .code, byteLength_blanked c, fun cs => rfl⟩

/-- What comes before a character is blanked in the same way whatever is behind it. -/
theorem exists_blank_before (s : CommentScan) (cs : List Char) (d : Char) :
    ∃ result t, byteLength result = byteLength cs ∧
      ∀ ds, s.blank (cs ++ d :: ds) = result ++ blank t (d :: ds) := by
  induction cs generalizing s with
  | nil => exact ⟨[], s, rfl, fun _ => rfl⟩
  | cons c cs ih =>
    -- The next character is the first one of what is left of `cs`, or else `d`.
    obtain ⟨e, hnext⟩ : ∃ e, ∀ ds, ∃ es, cs ++ d :: ds = e :: es := by
      cases cs with
      | nil => exact ⟨d, fun ds => ⟨ds, rfl⟩⟩
      | cons e es => exact ⟨e, fun ds => ⟨es ++ d :: ds, rfl⟩⟩
    obtain ⟨first, t, hfirst, hstep⟩ := exists_blank_step s c e
    obtain ⟨result, u, hresult, hrest⟩ := ih t
    refine ⟨first ++ result, u, by rw [byteLength_append, hfirst, hresult, byteLength_cons], ?_⟩
    intro ds
    obtain ⟨es, hes⟩ := hnext ds
    rw [List.cons_append, hes, hstep, ← hes, hrest, List.append_assoc]

/-- A character that is left, and is neither a space nor a line feed, was read in code and began no
marker. -/
theorem blank_kept (h : s.blank (c :: cs) = c :: ds) (hspace : c ≠ ' ') (hfeed : c ≠ '\n') :
    s = .code ∧ opensLine (c :: cs) = false ∧ opensBlock (c :: cs) = false := by
  have hblanked : ∀ es, blanked c ++ es ≠ c :: ds := by
    intro es heq
    obtain ⟨spaces, hspaces⟩ := blanked_eq_cons c
    rw [hspaces] at heq
    exact hspace (List.cons.inj heq).1.symm
  cases s with
  | code =>
    rw [blank] at h
    split at h
    · exact absurd h (hblanked _)
    · next hline =>
      split at h
      · exact absurd h (hblanked _)
      · next hblock => exact ⟨rfl, by simpa using hline, by simpa using hblock⟩
  | lineComment =>
    rw [blank, if_neg hfeed] at h
    exact absurd h (hblanked _)
  | blockOpener =>
    rw [blank] at h
    exact absurd h (hblanked _)
  | block =>
    rw [blank, if_neg hfeed] at h
    split at h
    · exact absurd h (hblanked _)
    · exact absurd h (hblanked _)
  | blockCloser =>
    rw [blank] at h
    exact absurd h (hblanked _)

/-- A character that begins no marker before others begins none alone. -/
theorem blank_singleton (hline : opensLine (c :: cs) = false) : blank .code [c] = [c] := by
  have hhash : c ≠ '#' := by
    rintro rfl
    cases hline
  have hline : opensLine [c] = false := by
    rw [Bool.eq_false_iff, Ne, opensLine_iff]
    simpa [List.cons_prefix_cons] using hhash.symm
  have hblock : opensBlock [c] = false := by
    rw [Bool.eq_false_iff, Ne, opensBlock_iff]
    simp [List.cons_prefix_cons]
  rw [blank, if_neg (by simp [hline]), if_neg (by simp [hblock]), blank]

/-- **A text can be cut at what is kept**: up to there it is blanked as it was, and from there on it
is read as code. -/
theorem exists_cut (h : s.blank source = front ++ c :: back) (hspace : c ≠ ' ')
    (hfeed : c ≠ '\n') :
    ∃ before after, source = before ++ c :: after ∧ byteLength before = byteLength front ∧
      s.blank (before ++ [c]) = front ++ [c] ∧ blank .code (c :: after) = c :: back := by
  obtain ⟨before, after, rfl, hbefore⟩ := (h ▸ scanned s source).exists_split hspace
  obtain ⟨result, t, hresult, hblank⟩ := exists_blank_before s before c
  obtain ⟨rfl, hrest⟩ := append_inj_of_byteLength ((hblank after).symm.trans h)
    (hresult.trans hbefore)
  obtain ⟨rfl, hline, -⟩ := blank_kept hrest hspace hfeed
  refine ⟨before, after, rfl, hbefore, ?_, hrest⟩
  rw [hblank [], blank_singleton hline]

end CommentScan

/-! ## Parts of the blanked text -/

/-- The range of the text holds these characters. -/
def Span.Marks (s : Span) (source marked : List Char) : Prop :=
  ∃ before after, source = before ++ marked ++ after ∧ byteLength before = s.start ∧
    byteLength (before ++ marked) = s.stop

theorem Span.Marks.isBoundary {s : Span} {marked : List Char} (h : s.Marks source marked) :
    IsBoundary source s.start ∧ IsBoundary source s.stop := by
  obtain ⟨before, after, rfl, hstart, hstop⟩ := h
  refine ⟨⟨before.length, ?_⟩, ⟨(before ++ marked).length, ?_⟩⟩
  · rw [byteOffset, List.append_assoc, List.take_left, hstart]
  · rw [byteOffset, List.take_left, hstop]

/-- **What is kept from its first to its last character is in the source at the same range**, with
comments in it perhaps, and blanked by itself it is the same. -/
theorem exists_marked {text : List Char} {span : Span} (h : span.Marks (blankComments source) text)
    (hfirst : ∃ c ∈ text.head?, c ≠ ' ' ∧ c ≠ '\n')
    (hlast : ∃ c ∈ text.getLast?, c ≠ ' ' ∧ c ≠ '\n') :
    ∃ marked, span.Marks source marked ∧ blankComments marked = text := by
  obtain ⟨front, back, hsplit, hstart, hstop⟩ := h
  obtain ⟨c, hc, hcspace, hcfeed⟩ := hfirst
  obtain ⟨d, hd, hdspace, hdfeed⟩ := hlast
  obtain ⟨rest, rfl⟩ : ∃ rest, text = c :: rest := List.head?_eq_some_iff.mp hc
  obtain ⟨most, hmost⟩ : ∃ most, c :: rest = most ++ [d] := List.getLast?_eq_some_iff.mp hd
  rw [List.append_assoc, List.cons_append] at hsplit
  obtain ⟨before, after, rfl, hbefore, -, hcode⟩ :=
    CommentScan.exists_cut hsplit hcspace hcfeed
  -- From its first character on the text is code, and ends in its last one.
  rw [← List.cons_append, hmost, List.append_assoc, List.singleton_append] at hcode
  obtain ⟨inner, behind, hinner, hlength, hmarked, -⟩ :=
    CommentScan.exists_cut hcode hdspace hdfeed
  refine ⟨inner ++ [d], ⟨before, behind, ?_, hbefore.trans hstart, ?_⟩, hmarked.trans hmost.symm⟩
  · rw [hinner, List.append_assoc, List.append_assoc]
    rfl
  · rw [← hstop, hmost]
    simp only [byteLength_append, hbefore, hlength]

end PacketGen
