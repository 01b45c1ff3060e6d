import PacketGen.Comment
import PacketGen.Proofs.Text.Encoding

/-!
# Comments, told in bytes

`blankComments` goes through characters and remembers in which part of a comment it is. What labels
rely on is a statement about bytes that knows no states: `commentLength?` measures the comment that
bytes open with, and `inComment` marks the bytes of the comments from left to right. The two views
meet in `CommentScan.covered`, the number of bytes ahead that still belong to the comment a state is
in: a scan in that state blanks just so many (`CommentScan.utf8_blank`).

That a character may have several bytes hardly matters. The bytes of a text begin with those of
a word only if the text begins with the word (`utf8_prefix_iff`), and behind the first byte of
a character there is none below `80`, so none that belongs to an opener, a closer or a line feed.
-/

namespace PacketGen.Text

/-! ## The bytes of one character -/

theorem encodeChar_cases (c : Char) :
    (c.toNat < 0x80 ∧ String.utf8EncodeChar c = [UInt8.ofNat c.toNat]) ∨
      (0x80 ≤ c.toNat ∧ ∀ b ∈ String.utf8EncodeChar c, 0x80 ≤ b.toNat) := by
  have hval : c.val.toNat = c.toNat := rfl
  have hlimit : c.toNat < 0xD800 ∨ 0xDFFF < c.toNat ∧ c.toNat < 0x110000 := c.valid
  rw [String.utf8EncodeChar, hval]
  by_cases h7F : c.toNat ≤ 0x7F
  · exact .inl ⟨by omega, if_pos h7F⟩
  · refine .inr ⟨by omega, ?_⟩
    rw [if_neg h7F]
    split_ifs <;>
      · simp only [List.mem_cons, List.not_mem_nil, or_false, forall_eq_or_imp, forall_eq,
          UInt8.toNat_ofNat']
        omega

/-- A character has a first byte, and behind it only bytes that are no characters of their own. -/
theorem encodeChar_eq_cons (c : Char) :
    ∃ b tail, String.utf8EncodeChar c = b :: tail ∧ ∀ d ∈ tail, 0x80 ≤ d.toNat := by
  rcases encodeChar_cases c with ⟨-, hone⟩ | ⟨-, hmany⟩
  · refine ⟨_, _, hone, ?_⟩
    simp
  · obtain ⟨b, tail, hbytes, -⟩ := utf8Step_encodeChar c []
    refine ⟨b, tail, hbytes, fun d hd => hmany d ?_⟩
    rw [hbytes]
    exact List.mem_cons_of_mem b hd

/-- Two characters with anything behind them have the same bytes only if they are the same. -/
theorem encodeChar_append_inj {c d : Char} {as bs : List UInt8}
    (h : String.utf8EncodeChar c ++ as = String.utf8EncodeChar d ++ bs) : c = d ∧ as = bs := by
  obtain ⟨b, tail, hc, hstepc⟩ := utf8Step_encodeChar c as
  obtain ⟨b', tail', hd, hstepd⟩ := utf8Step_encodeChar d bs
  rw [hc, hd, List.cons_append, List.cons_append] at h
  obtain ⟨hfirst, hrest⟩ := List.cons.inj h
  rw [hfirst, hrest, hstepd] at hstepc
  obtain ⟨rfl, hlength⟩ := Utf8Step.char.inj hstepc
  rw [hc] at hd
  obtain ⟨-, rfl⟩ := List.cons.inj hd
  exact ⟨rfl, List.append_cancel_left hrest⟩

/-- A byte that is a character of its own belongs to no other character. -/
theorem ascii_mem_encodeChar {c d : Char} {b : UInt8} (hd : String.utf8EncodeChar d = [b])
    (hb : b.toNat < 0x80) : b ∈ String.utf8EncodeChar c ↔ c = d := by
  constructor
  · intro h
    rcases encodeChar_cases c with ⟨-, hone⟩ | ⟨-, hmany⟩
    · rw [hone, List.mem_singleton] at h
      rw [← h] at hone
      have hsame : String.utf8EncodeChar c ++ [] = String.utf8EncodeChar d ++ [] := by
        rw [hone, hd]
      exact (encodeChar_append_inj hsame).1
    · exact absurd (hmany _ h) (Nat.not_le.mpr hb)
  · rintro rfl
    rw [hd]
    exact List.mem_singleton_self b

theorem feed_mem_encodeChar {c : Char} : 0x0A ∈ String.utf8EncodeChar c ↔ c = '\n' :=
  ascii_mem_encodeChar rfl (by decide)

/-- Bytes of a text begin with those of a word only if the text begins with it. -/
theorem utf8_prefix_iff {word cs : List Char} : utf8 word <+: utf8 cs ↔ word <+: cs := by
  constructor
  · intro h
    induction word generalizing cs with
    | nil => exact List.nil_prefix
    | cons w word ih =>
      obtain ⟨after, hafter⟩ := h
      cases cs with
      | nil =>
        obtain ⟨b, tail, hbytes, -⟩ := encodeChar_eq_cons w
        rw [utf8_cons, hbytes] at hafter
        cases hafter
      | cons c cs =>
        rw [utf8_cons, utf8_cons, List.append_assoc] at hafter
        obtain ⟨rfl, hrest⟩ := encodeChar_append_inj hafter
        exact List.cons_prefix_cons.mpr ⟨rfl, ih ⟨after, hrest⟩⟩
  · rintro ⟨after, rfl⟩
    exact ⟨utf8 after, (utf8_append word after).symm⟩

end PacketGen.Text

namespace PacketGen.Comment

open Text

/-! ## What the bytes of a comment are -/

/-- The bytes of a line comment: all that come before a line feed. -/
def lineLength (bs : List UInt8) : Nat := (bs.takeWhile (· ≠ 0x0A)).length

/-- The bytes of a block comment behind its opener: through the first closer, which is a star and
a slash, or to the end of the text. -/
def blockLength : List UInt8 → Nat
  | [] => 0
  | b :: bs => if [0x2A, 0x2F] <+: b :: bs then 2 else blockLength bs + 1

/-- The length of the comment that bytes open with: two slashes or a hash, or a slash and a star. -/
def commentLength? (bs : List UInt8) : Option Nat :=
  if [0x2F, 0x2F] <+: bs ∨ [0x23] <+: bs then some (lineLength bs)
  else if [0x2F, 0x2A] <+: bs then some (2 + blockLength (bs.drop 2))
  else none

/-- Which bytes stand in a comment, if the first `covered` ones are the rest of one. -/
def inCommentFrom : (covered : Nat) → List UInt8 → List Bool
  | _, [] => []
  | covered + 1, _ :: bs => true :: inCommentFrom covered bs
  | 0, b :: bs =>
    match commentLength? (b :: bs) with
    | none => false :: inCommentFrom 0 bs
    | some length => true :: inCommentFrom (length - 1) bs

/-- Which bytes of a text stand in a comment. -/
def inComment (bs : List UInt8) : List Bool := inCommentFrom 0 bs

/-- A byte of a comment gives way to a space, unless it is a line feed. -/
def blankByte (inside : Bool) (b : UInt8) : UInt8 := if inside && b ≠ 0x0A then 0x20 else b

def blankFrom (covered : Nat) (bs : List UInt8) : List UInt8 :=
  List.zipWith blankByte (inCommentFrom covered bs) bs

theorem length_inCommentFrom (covered : Nat) (bs : List UInt8) :
    (inCommentFrom covered bs).length = bs.length := by
  induction bs generalizing covered with
  | nil => simp [inCommentFrom]
  | cons b bs ih =>
    cases covered with
    | succ covered => simp [inCommentFrom, ih]
    | zero =>
      rw [inCommentFrom]
      split <;> simp [ih]

/-! ## Blanking bytes -/

@[simp] theorem blankFrom_nil (covered : Nat) : blankFrom covered [] = [] := by
  simp [blankFrom]

theorem blankFrom_succ (covered : Nat) (b : UInt8) (bs : List UInt8) :
    blankFrom (covered + 1) (b :: bs) = blankByte true b :: blankFrom covered bs := rfl

theorem blankFrom_of_none {b : UInt8} {bs : List UInt8} (h : commentLength? (b :: bs) = none) :
    blankFrom 0 (b :: bs) = b :: blankFrom 0 bs := by
  rw [blankFrom, inCommentFrom, h]
  rfl

/-- Where a comment opens, it goes on for its length. -/
theorem blankFrom_of_some {bs : List UInt8} {n : Nat} (h : commentLength? bs = some (n + 1)) :
    blankFrom 0 bs = blankFrom (n + 1) bs := by
  cases bs with
  | nil => rfl
  | cons b bs =>
    rw [blankFrom, inCommentFrom, h]
    rfl

theorem blankFrom_covered {as : List UInt8} (has : 0x0A ∉ as) (covered : Nat) (bs : List UInt8) :
    blankFrom (as.length + covered) (as ++ bs) =
      List.replicate as.length 0x20 ++ blankFrom covered bs := by
  induction as with
  | nil => simp
  | cons a as ih =>
    have ha : a ≠ 0x0A := fun h => has (h ▸ List.mem_cons_self)
    rw [List.length_cons, Nat.add_right_comm, List.cons_append, blankFrom_succ,
      ih fun h => has (List.mem_cons_of_mem a h), List.replicate_succ, List.cons_append]
    simp [blankByte, ha]

theorem commentLength?_of_high {b : UInt8} (hb : 0x80 ≤ b.toNat) (bs : List UInt8) :
    commentLength? (b :: bs) = none := by
  have hslash : ¬ (0x2F : UInt8) = b := by rintro rfl; exact absurd hb (by decide)
  have hhash : ¬ (0x23 : UInt8) = b := by rintro rfl; exact absurd hb (by decide)
  simp [commentLength?, List.cons_prefix_cons, hslash, hhash]

/-- Bytes that are no characters of their own open no comment. -/
theorem blankFrom_of_high {as : List UInt8} (has : ∀ a ∈ as, 0x80 ≤ a.toNat) (bs : List UInt8) :
    blankFrom 0 (as ++ bs) = as ++ blankFrom 0 bs := by
  induction as with
  | nil => rfl
  | cons a as ih =>
    rw [List.cons_append, blankFrom_of_none (commentLength?_of_high (has a List.mem_cons_self) _),
      ih fun d hd => has d (List.mem_cons_of_mem a hd), List.cons_append]

/-! ## Lengths, character by character -/

/-- Bytes that are no characters of their own close no comment. -/
theorem blockLength_of_high {as : List UInt8} (has : ∀ a ∈ as, 0x80 ≤ a.toNat) (bs : List UInt8) :
    blockLength (as ++ bs) = as.length + blockLength bs := by
  induction as with
  | nil => simp
  | cons a as ih =>
    have hstar : ¬ (0x2A : UInt8) = a := by
      rintro rfl
      exact absurd (has _ List.mem_cons_self) (by decide)
    rw [List.cons_append, blockLength, if_neg (by simp [List.cons_prefix_cons, hstar]),
      ih fun d hd => has d (List.mem_cons_of_mem a hd), List.length_cons]
    omega

theorem lineLength_cons {c : Char} (hc : c ≠ '\n') (cs : List Char) :
    lineLength (utf8 (c :: cs)) = c.utf8Size + lineLength (utf8 cs) := by
  have hnone : ∀ b ∈ String.utf8EncodeChar c, decide (b ≠ 0x0A) = true := by
    intro b hb
    rw [decide_eq_true_eq]
    rintro rfl
    exact hc (feed_mem_encodeChar.mp hb)
  rw [lineLength, utf8_cons, List.takeWhile_append_of_pos hnone, List.length_append,
    String.length_utf8EncodeChar]
  rfl

theorem lineLength_feed (cs : List Char) : lineLength (utf8 ('\n' :: cs)) = 0 := by
  show (([0x0A] ++ utf8 cs).takeWhile _).length = 0
  simp

theorem blockLength_cons {c : Char} {cs : List Char} (h : ¬ ['*', '/'] <+: c :: cs) :
    blockLength (utf8 (c :: cs)) = c.utf8Size + blockLength (utf8 cs) := by
  obtain ⟨b, tail, hbytes, htail⟩ := encodeChar_eq_cons c
  have hsize : c.utf8Size = tail.length + 1 := by
    rw [← String.length_utf8EncodeChar, hbytes, List.length_cons]
  have hopen : ¬ [0x2A, 0x2F] <+: b :: (tail ++ utf8 cs) := by
    intro hstarts
    refine h (utf8_prefix_iff.mp ?_)
    rw [utf8_cons c, hbytes]
    exact hstarts
  rw [utf8_cons, hbytes, List.cons_append, blockLength, if_neg hopen, blockLength_of_high htail,
    hsize]
  omega

/-! ## Openers -/

theorem opensLine_iff {cs : List Char} :
    CommentScan.opensLine cs = true ↔ ['/', '/'] <+: cs ∨ ['#'] <+: cs := by
  rw [CommentScan.opensLine.eq_def]
  split
  · simp
  · simp
  · next hhash hslash =>
    refine ⟨fun h => (nomatch h), ?_⟩
    rintro (⟨after, rfl⟩ | ⟨after, rfl⟩)
    · exact absurd rfl (hslash after)
    · exact absurd rfl (hhash after)

theorem opensBlock_iff {cs : List Char} :
    CommentScan.opensBlock cs = true ↔ ['/', '*'] <+: cs := by
  rw [CommentScan.opensBlock.eq_def]
  split
  · simp
  · next hslash =>
    refine ⟨fun h => (nomatch h), ?_⟩
    rintro ⟨after, rfl⟩
    exact absurd rfl (hslash after)

theorem closesBlock_iff {cs : List Char} :
    CommentScan.closesBlock cs = true ↔ ['*', '/'] <+: cs := by
  rw [CommentScan.closesBlock.eq_def]
  split
  · simp
  · next hstar =>
    refine ⟨fun h => (nomatch h), ?_⟩
    rintro ⟨after, rfl⟩
    exact absurd rfl (hstar after)

theorem commentLength?_utf8 (cs : List Char) :
    commentLength? (utf8 cs) =
      if CommentScan.opensLine cs then some (lineLength (utf8 cs))
      else if CommentScan.opensBlock cs then some (2 + blockLength ((utf8 cs).drop 2))
      else none := by
  have hslashes : [0x2F, 0x2F] <+: utf8 cs ↔ ['/', '/'] <+: cs :=
    @utf8_prefix_iff ['/', '/'] cs
  have hhash : [0x23] <+: utf8 cs ↔ ['#'] <+: cs := @utf8_prefix_iff ['#'] cs
  have hstar : [0x2F, 0x2A] <+: utf8 cs ↔ ['/', '*'] <+: cs :=
    @utf8_prefix_iff ['/', '*'] cs
  simp only [commentLength?, opensLine_iff, opensBlock_iff, hslashes, hhash, hstar]

/-- No comment opens with a line feed. -/
theorem ne_feed_of_opensLine {c : Char} {cs : List Char}
    (h : CommentScan.opensLine (c :: cs) = true) : c ≠ '\n' := by
  rintro rfl
  cases h

end PacketGen.Comment

namespace PacketGen

open Text Comment

theorem utf8_blanked (c : Char) : utf8 (blanked c) = List.replicate c.utf8Size 0x20 := by
  have hspace : String.utf8EncodeChar ' ' = [0x20] := rfl
  rw [utf8, blanked, List.flatMap_replicate, hspace]
  exact List.flatten_replicate_singleton

/-- A character that is covered gives way to as many spaces as it has bytes. -/
theorem Comment.blankFrom_char {c : Char} (hc : c ≠ '\n') (covered : Nat) (cs : List Char) :
    blankFrom (c.utf8Size + covered) (utf8 (c :: cs)) =
      utf8 (blanked c) ++ blankFrom covered (utf8 cs) := by
  have hfeed : 0x0A ∉ String.utf8EncodeChar c := fun h => hc (feed_mem_encodeChar.mp h)
  rw [utf8_cons, ← String.length_utf8EncodeChar, blankFrom_covered hfeed,
    String.length_utf8EncodeChar, utf8_blanked]

theorem Comment.blankFrom_kept {c : Char} {cs : List Char}
    (hline : CommentScan.opensLine (c :: cs) = false)
    (hblock : CommentScan.opensBlock (c :: cs) = false) :
    blankFrom 0 (utf8 (c :: cs)) = String.utf8EncodeChar c ++ blankFrom 0 (utf8 cs) := by
  have hnone := commentLength?_utf8 (c :: cs)
  obtain ⟨b, tail, hbytes, htail⟩ := encodeChar_eq_cons c
  rw [hline, hblock, utf8_cons, hbytes, List.cons_append] at hnone
  rw [utf8_cons, hbytes, List.cons_append, blankFrom_of_none hnone, blankFrom_of_high htail,
    List.cons_append]

namespace CommentScan

/-- How many of the bytes ahead belong to the comment that a scan is in. -/
def covered : CommentScan → List UInt8 → Nat
  | .code, _ => 0
  | .lineComment, bs => lineLength bs
  | .blockOpener, bs => 1 + blockLength (bs.drop 1)
  | .block, bs => blockLength bs
  | .blockCloser, _ => 1

/-- What a state says about the text ahead: the two that stand inside an opener or a closer have
its second character before them. -/
def Fits : CommentScan → List Char → Prop
  | .blockOpener, cs => cs.head? = some '*'
  | .blockCloser, cs => cs.head? = some '/'
  | _, _ => True

/-- **A scan blanks the bytes that are covered, and then those of the comments behind them.** -/
theorem utf8_blank {s : CommentScan} {cs : List Char} (h : s.Fits cs) :
    utf8 (s.blank cs) = blankFrom (s.covered (utf8 cs)) (utf8 cs) := by
  fun_induction CommentScan.blank s cs with
  | case1 s => simp
  | case2 c cs hopens ih =>
    have hc := ne_feed_of_opensLine hopens
    have hlength : commentLength? (utf8 (c :: cs)) = some (lineLength (utf8 (c :: cs))) := by
      rw [commentLength?_utf8, if_pos hopens]
    rw [lineLength_cons hc] at hlength
    have hcomment : blankFrom 0 (utf8 (c :: cs)) =
        blankFrom (c.utf8Size + lineLength (utf8 cs)) (utf8 (c :: cs)) := by
      obtain ⟨n, hn⟩ := Nat.exists_eq_add_one.mpr (Nat.add_pos_left c.utf8Size_pos _)
      rw [hn] at hlength ⊢
      exact blankFrom_of_some hlength
    rw [utf8_append, ih trivial]
    exact (hcomment.trans (blankFrom_char hc _ cs)).symm
  | case3 c cs hline hopens ih =>
    obtain ⟨rfl, ds, hds⟩ := List.cons_prefix_cons.mp (opensBlock_iff.mp hopens)
    obtain rfl : '*' :: ds = cs := hds
    have hslash : '/' ≠ '\n' := by decide
    have hlength : commentLength? (utf8 ('/' :: '*' :: ds)) =
        some (1 + blockLength (utf8 ds) + 1) := by
      rw [commentLength?_utf8, if_neg hline, if_pos hopens]
      show some (2 + blockLength (utf8 ds)) = _
      exact congrArg some (by omega)
    have hcomment := blankFrom_of_some hlength
    rw [Nat.add_comm] at hcomment
    rw [utf8_append, ih rfl]
    exact (hcomment.trans (blankFrom_char hslash _ ('*' :: ds))).symm
  | case4 c cs hline hblock ih =>
    rw [Bool.not_eq_true] at hline hblock
    rw [utf8_cons, ih trivial]
    exact (blankFrom_kept hline hblock).symm
  | case5 cs ih =>
    rw [utf8_cons, ih trivial]
    show _ = blankFrom (lineLength (utf8 ('\n' :: cs))) _
    rw [lineLength_feed]
    exact (blankFrom_kept rfl rfl).symm
  | case6 c cs hc ih =>
    rw [utf8_append, ih trivial]
    show _ = blankFrom (lineLength (utf8 (c :: cs))) _
    rw [lineLength_cons hc]
    exact (blankFrom_char hc _ cs).symm
  | case7 c cs ih =>
    obtain rfl : c = '*' := Option.some.inj h
    rw [utf8_append, ih trivial]
    exact (blankFrom_char (by decide) _ cs).symm
  | case8 cs ih =>
    have hopen : ¬ ['*', '/'] <+: '\n' :: cs := by simp
    rw [utf8_cons, ih trivial]
    show _ = blankFrom (blockLength (utf8 ('\n' :: cs))) _
    rw [blockLength_cons hopen, Nat.add_comm]
    rfl
  | case9 c cs hc hcloses ih =>
    obtain ⟨rfl, ds, hds⟩ := List.cons_prefix_cons.mp (closesBlock_iff.mp hcloses)
    obtain rfl : '/' :: ds = cs := hds
    rw [utf8_append, ih rfl]
    exact (blankFrom_char hc 1 ('/' :: ds)).symm
  | case10 c cs hc hopen ih =>
    rw [utf8_append, ih trivial]
    show _ = blankFrom (blockLength (utf8 (c :: cs))) _
    rw [blockLength_cons fun h => hopen (closesBlock_iff.mpr h)]
    exact (blankFrom_char hc _ cs).symm
  | case11 c cs ih =>
    obtain rfl : c = '/' := Option.some.inj h
    rw [utf8_append, ih trivial]
    exact (blankFrom_char (by decide) 0 cs).symm

end CommentScan

/-- The bytes of the blanked text: those of the source, with the ones of its comments blanked. -/
theorem utf8_blankComments (source : List Char) :
    utf8 (blankComments source) =
      List.zipWith blankByte (inComment (utf8 source)) (utf8 source) :=
  CommentScan.utf8_blank trivial

end PacketGen
