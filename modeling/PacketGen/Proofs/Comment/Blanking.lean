import PacketGen.PacketClass
import PacketGen.Proofs.Comment.Bytes

/-!
# Blanking comments keeps every offset

A label is an offset into the source, but what it marks is found in the blanked text. `BlankedFrom`
says what makes the one good for the other: the two texts differ in the bytes of the comments and
nowhere else, line feeds and character boundaries stay where they are, and blanking once more
changes nothing, so that nothing is found in the blanked text that is not found in the source.

Beyond the bytes themselves, all of this follows from what a scan does to one character, whatever
its state: it leaves spaces, or the very character it has read, and then no comment opened there.
`Scanned` is that relation. A word without spaces at the front of what is left is a word at the
front of the source (`Scanned.prefix_source`), so an opener that is left would have been blanked.
-/

namespace PacketGen

open Text Comment

/-- The offsets at which a character begins or the text ends. -/
def Text.IsBoundary (cs : List Char) (offset : Nat) : Prop :=
  ∃ index, byteOffset cs index = offset

theorem Text.IsBoundary.le_byteLength {cs : List Char} {offset : Nat} (h : IsBoundary cs offset) :
    offset ≤ byteLength cs := by
  obtain ⟨i, rfl⟩ := h
  have hsplit := byteLength_append (cs.take i) (cs.drop i)
  rw [List.take_append_drop] at hsplit
  rw [hsplit]
  exact Nat.le_add_right _ _

/-- What a comment may open with. -/
def Comment.openers : List (List Char) := [['/', '/'], ['#'], ['/', '*']]

theorem Comment.opener_chars : ∀ opener ∈ openers, opener ≠ [] ∧ ' ' ∉ opener := by
  decide

theorem Comment.opens_of_prefix {opener cs : List Char} (hopener : opener ∈ openers)
    (h : opener <+: cs) : CommentScan.opensLine cs = true ∨ CommentScan.opensBlock cs = true := by
  simp only [openers, List.mem_cons, List.not_mem_nil, or_false] at hopener
  rw [opensLine_iff, opensBlock_iff]
  rcases hopener with rfl | rfl | rfl
  · exact .inl (.inl h)
  · exact .inl (.inr h)
  · exact .inr h

/-! ## One character at a time -/

/-- What a scan makes of a text, whatever states it goes through. -/
inductive Scanned : (source result : List Char) → Prop
  | nil : Scanned [] []
  | kept {c : Char} {cs ds : List Char} : CommentScan.opensLine (c :: cs) = false →
      CommentScan.opensBlock (c :: cs) = false → Scanned cs ds → Scanned (c :: cs) (c :: ds)
  | spaces (c : Char) {cs ds : List Char} : Scanned cs ds → Scanned (c :: cs) (blanked c ++ ds)

theorem CommentScan.scanned (s : CommentScan) (cs : List Char) : Scanned cs (s.blank cs) := by
  fun_induction CommentScan.blank s cs with
  | case1 s => exact .nil
  | case2 c cs hopens ih => exact .spaces c ih
  | case3 c cs hline hopens ih => exact .spaces c ih
  | case4 c cs hline hblock ih =>
    rw [Bool.not_eq_true] at hline hblock
    exact .kept hline hblock ih
  | case5 cs ih => exact .kept rfl rfl ih
  | case6 c cs hc ih => exact .spaces c ih
  | case7 c cs ih => exact .spaces c ih
  | case8 cs ih => exact .kept rfl rfl ih
  | case9 c cs hc hcloses ih => exact .spaces c ih
  | case10 c cs hc hopen ih => exact .spaces c ih
  | case11 c cs ih => exact .spaces c ih

theorem blanked_eq_cons (c : Char) : ∃ spaces, blanked c = ' ' :: spaces := by
  obtain ⟨n, hn⟩ := Nat.exists_eq_add_one.mpr c.utf8Size_pos
  exact ⟨List.replicate n ' ', by rw [blanked, hn, List.replicate_succ]⟩

theorem byteOffset_blanked (c : Char) (cs : List Char) (index : Nat) :
    byteOffset (blanked c ++ cs) (c.utf8Size + index) = c.utf8Size + byteOffset cs index := by
  have hlength : (blanked c).length = c.utf8Size := List.length_replicate
  rw [byteOffset, List.take_append, hlength, Nat.add_sub_cancel_left,
    List.take_of_length_le (by omega), byteLength_append, byteLength_blanked]
  rfl

/-- A word that begins in spaces is found behind them, or has a space itself. -/
theorem not_infix_of_spaces {word spaces cs : List Char} (hne : word ≠ []) (hspace : ' ' ∉ word)
    (hspaces : ∀ c ∈ spaces, c = ' ') (h : ¬ word <:+: cs) : ¬ word <:+: spaces ++ cs := by
  induction spaces with
  | nil => exact h
  | cons c spaces ih =>
    obtain rfl : c = ' ' := hspaces c List.mem_cons_self
    rw [List.cons_append, List.infix_cons_iff]
    rintro (hstarts | hinside)
    · cases word with
      | nil => exact hne rfl
      | cons w word =>
        obtain ⟨rfl, -⟩ := List.cons_prefix_cons.mp hstarts
        exact hspace List.mem_cons_self
    · exact ih (fun d hd => hspaces d (List.mem_cons_of_mem _ hd)) hinside

namespace Scanned

variable {source result : List Char}

/-- Where a character begins in the source, one begins in what is left of it. -/
theorem exists_byteOffset (h : Scanned source result) (index : Nat) :
    ∃ index', byteOffset result index' = byteOffset source index := by
  induction h generalizing index with
  | nil => exact ⟨index, rfl⟩
  | kept hline hblock h ih =>
    cases index with
    | zero => exact ⟨0, rfl⟩
    | succ index =>
      obtain ⟨index', hindex⟩ := ih index
      exact ⟨index' + 1, congrArg (_ + ·) hindex⟩
  | spaces c h ih =>
    cases index with
    | zero => exact ⟨0, rfl⟩
    | succ index =>
      obtain ⟨index', hindex⟩ := ih index
      refine ⟨c.utf8Size + index', ?_⟩
      rw [byteOffset_blanked, hindex]
      rfl

/-- What is left and is no space stands in the source at the same offset. -/
theorem exists_char (h : Scanned source result) {i : Nat} {c : Char} (hc : result[i]? = some c)
    (hspace : c ≠ ' ') :
    ∃ k, source[k]? = some c ∧ byteOffset source k = byteOffset result i := by
  induction h generalizing i with
  | nil => cases hc
  | kept hline hblock h ih =>
    cases i with
    | zero => exact ⟨0, hc, rfl⟩
    | succ i =>
      obtain ⟨k, hk, hoffset⟩ := ih hc
      exact ⟨k + 1, hk, congrArg (_ + ·) hoffset⟩
  | spaces d h ih =>
    have hlength : (blanked d).length = d.utf8Size := List.length_replicate
    rcases Nat.lt_or_ge i d.utf8Size with hlt | hge
    · rw [List.getElem?_append_left (hlength ▸ hlt)] at hc
      exact absurd (List.eq_of_mem_replicate (List.mem_of_getElem? hc)) hspace
    · obtain ⟨j, rfl⟩ := Nat.exists_eq_add_of_le hge
      rw [List.getElem?_append_right (by omega), hlength, Nat.add_sub_cancel_left] at hc
      obtain ⟨k, hk, hoffset⟩ := ih hc
      refine ⟨k + 1, hk, ?_⟩
      rw [byteOffset_blanked, ← hoffset]
      rfl

/-- What is left begins with a word without spaces only if the source does. -/
theorem prefix_source (h : Scanned source result) {word : List Char} (hspace : ' ' ∉ word)
    (hword : word <+: result) : word <+: source := by
  induction h generalizing word with
  | nil => exact hword
  | kept hline hblock h ih =>
    cases word with
    | nil => exact List.nil_prefix
    | cons w word =>
      obtain ⟨rfl, htail⟩ := List.cons_prefix_cons.mp hword
      exact List.cons_prefix_cons.mpr
        ⟨rfl, ih (fun hmem => hspace (List.mem_cons_of_mem w hmem)) htail⟩
  | spaces c h ih =>
    cases word with
    | nil => exact List.nil_prefix
    | cons w word =>
      obtain ⟨spaces, hspaces⟩ := blanked_eq_cons c
      rw [hspaces] at hword
      obtain ⟨rfl, -⟩ := List.cons_prefix_cons.mp hword
      exact absurd List.mem_cons_self hspace

/-- No opener is left. -/
theorem no_opener_left (h : Scanned source result) {opener : List Char}
    (hopener : opener ∈ openers) : ¬ opener <:+: result := by
  obtain ⟨hne, hspace⟩ := opener_chars opener hopener
  induction h with
  | nil => exact fun hinside => hne (List.infix_nil.mp hinside)
  | kept hline hblock h ih =>
    rw [List.infix_cons_iff]
    rintro (hstarts | hinside)
    · have hsource := (Scanned.kept hline hblock h).prefix_source hspace hstarts
      rcases opens_of_prefix hopener hsource with hopens | hopens
      · exact absurd (hline ▸ hopens) Bool.false_ne_true
      · exact absurd (hblock ▸ hopens) Bool.false_ne_true
    · exact ih hinside
  | spaces c h ih =>
    exact not_infix_of_spaces hne hspace (fun d hd => List.eq_of_mem_replicate hd) ih

end Scanned

/-! ## The blanked text -/

/-- A text without an opener has nothing to blank. -/
theorem blankComments_of_no_opener {source : List Char}
    (h : ∀ opener ∈ openers, ¬ opener <:+: source) : blankComments source = source := by
  induction source with
  | nil => rfl
  | cons c cs ih =>
    have hstep : ¬ (CommentScan.opensLine (c :: cs) = true) ∧
        ¬ (CommentScan.opensBlock (c :: cs) = true) := by
      have hstarts : ∀ opener ∈ openers, ¬ opener <+: c :: cs :=
        fun opener hopener hstarts => h opener hopener hstarts.isInfix
      rw [opensLine_iff, opensBlock_iff, not_or]
      exact ⟨⟨hstarts _ (by simp [openers]), hstarts _ (by simp [openers])⟩,
        hstarts _ (by simp [openers])⟩
    rw [blankComments, CommentScan.blank, if_neg hstep.1, if_neg hstep.2]
    exact congrArg (c :: ·)
      (ih fun opener hopener hinside => h opener hopener (List.infix_cons hinside))

theorem no_opener_in_blankComments (source : List Char) :
    ∀ opener ∈ openers, ¬ opener <:+: blankComments source :=
  fun _ hopener => (CommentScan.scanned .code source).no_opener_left hopener

/-- Blanking once is enough. -/
theorem blankComments_blankComments (source : List Char) :
    blankComments (blankComments source) = blankComments source :=
  blankComments_of_no_opener (no_opener_in_blankComments source)

theorem isBoundary_blankComments {source : List Char} {offset : Nat}
    (h : IsBoundary source offset) : IsBoundary (blankComments source) offset := by
  obtain ⟨index, rfl⟩ := h
  exact (CommentScan.scanned .code source).exists_byteOffset index

/-- Blanking may put boundaries where the source has none, but not beside what it keeps. -/
theorem isBoundary_of_blankComments {source : List Char} {i : Nat} {c : Char}
    (hc : (blankComments source)[i]? = some c) (hspace : c ≠ ' ') :
    IsBoundary source (byteOffset (blankComments source) i) ∧
      IsBoundary source (byteOffset (blankComments source) (i + 1)) := by
  obtain ⟨k, hk, hoffset⟩ := (CommentScan.scanned .code source).exists_char hc hspace
  refine ⟨⟨k, hoffset⟩, k + 1, ?_⟩
  rw [byteOffset_succ hk, byteOffset_succ hc]
  exact congrArg (· + c.utf8Size) hoffset

theorem blankByte_eq_feed {inside : Bool} {b : UInt8} : blankByte inside b = 0x0A ↔ b = 0x0A := by
  rw [blankByte]
  split
  · next h => simp_all
  · exact Iff.rfl

theorem feed_at_blankComments (source : List Char) (offset : Nat) :
    (utf8 (blankComments source))[offset]? = some 0x0A ↔
      (utf8 source)[offset]? = some 0x0A := by
  have hlength : (inComment (utf8 source)).length = (utf8 source).length :=
    length_inCommentFrom 0 _
  rw [utf8_blankComments, List.getElem?_zipWith]
  by_cases hoffset : offset < (utf8 source).length
  · rw [List.getElem?_eq_getElem hoffset, List.getElem?_eq_getElem (hlength ▸ hoffset),
      Option.some_inj, Option.some_inj]
    exact blankByte_eq_feed
  · rw [List.getElem?_eq_none (Nat.le_of_not_lt hoffset)]
    simp

/-- What is no space in the blanked text is the byte that the source has there. -/
theorem getElem?_of_blankComments {source : List Char} {offset : Nat} {b : UInt8}
    (h : (utf8 (blankComments source))[offset]? = some b) (hb : b ≠ 0x20) :
    (utf8 source)[offset]? = some b := by
  rw [utf8_blankComments, List.getElem?_zipWith_eq_some] at h
  obtain ⟨inside, kept, -, hkept, rfl⟩ := h
  have hsame : blankByte inside kept = kept := by
    unfold blankByte at hb ⊢
    split
    · next hspace => exact absurd (if_pos hspace) hb
    · rfl
  rw [hsame, hkept]

/-- What holds between a source and its blanked text. -/
structure BlankedFrom (source result : List Char) : Prop where
  /-- The bytes of comments, but for line feeds, are spaces; all others are kept. -/
  bytes : utf8 result = List.zipWith blankByte (inComment (utf8 source)) (utf8 source)
  length : (utf8 result).length = (utf8 source).length
  feeds (offset : Nat) : (utf8 result)[offset]? = some 0x0A ↔ (utf8 source)[offset]? = some 0x0A
  boundaries (offset : Nat) : IsBoundary source offset → IsBoundary result offset
  /-- The blanked bytes are a text, and reading them as one replaces nothing. -/
  wellFormed : decode (List.zipWith blankByte (inComment (utf8 source)) (utf8 source)) =
    .ok (.ofList result)
  lossless : decodeReplacing (List.zipWith blankByte (inComment (utf8 source)) (utf8 source)) =
    .ofList result
  noOpener (opener : List Char) : opener ∈ openers → ¬ opener <:+: result
  again : blankComments result = result
  /-- What is found in the blanked text is found in the source, and with the same labels. -/
  extract (config : Config) :
    PacketClass.extract config (.ofList result) = PacketClass.extract config (.ofList source)
  lines : SourceLine.ofSource result = SourceLine.ofSource source

/-- **Blanking the comments of a source changes the bytes of its comments and nothing else.** -/
theorem blankedFrom_blankComments (source : List Char) :
    BlankedFrom source (blankComments source) where
  bytes := utf8_blankComments source
  length := by rw [length_utf8, length_utf8, byteLength_blankComments]
  feeds := feed_at_blankComments source
  boundaries _ := isBoundary_blankComments
  wellFormed := by rw [← utf8_blankComments, decode_utf8]
  lossless := by rw [← utf8_blankComments, decodeReplacing_utf8]
  noOpener := no_opener_in_blankComments source
  again := blankComments_blankComments source
  extract config := by
    rw [PacketClass.extract, PacketClass.extract, String.toList_ofList, String.toList_ofList,
      blankComments_blankComments]
  lines := by rw [SourceLine.ofSource, SourceLine.ofSource, blankComments_blankComments]

-- The star of the opener closes nothing, and a letter of two bytes becomes two spaces.
example : blankComments "a/*/é\n*/b#c".toList = "a     \n  b  ".toList := by decide

end PacketGen
