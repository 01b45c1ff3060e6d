import PacketGen.Proofs.Comment.Cutting
import PacketGen.Proofs.Text.Trim

/-!
# The lines of a source, at their places

The offset of a line is counted, not looked up: the bytes of all earlier pieces, one for each line
feed between them, and the blanks that were trimmed off. `Lined` is what the count comes to. It goes
down a text from one line to the next, with all that comes before at hand, so that the offset of a
line is the length of what is before it, and says what may stand between two lines: blanks, and a
line feed among them.

The cutting is brought under `Lined` once (`lined_ofPieces`, an induction on the pieces); all that a
reader of the lines relies on, `Partitions`, is then read off `Lined`. The text is the one with its
comments blanked. What is said of the source itself, that the ranges end between its characters and
what stands there, is lifted from the blanked text (`exists_marked`).
-/

namespace PacketGen

open Text Comment

/-! ## From line to line -/

/-- The lines of what is left of a text behind `before`. -/
inductive Lined : (before rest : List Char) → List SourceLine → Prop
  | blank {before rest : List Char} : (∀ c ∈ rest, isBlank c = true) → Lined before rest []
  | line {before lead text rest : List Char} {ls : List SourceLine} :
      (∀ c ∈ lead, isBlank c = true) → (before = [] ∨ '\n' ∈ lead) → Trimmed text → '\n' ∉ text →
      Lined (before ++ lead ++ text) rest ls →
      Lined before (lead ++ text ++ rest) (⟨byteLength (before ++ lead), text⟩ :: ls)

section

variable (before lead : List Char) {piece rest : List Char} {pieces : List (List Char)}

/-- One piece adds its line, if it has one, and leaves its last blanks to the next. -/
theorem lined_piece (hlead : ∀ c ∈ lead, isBlank c = true) (hstart : before = [] ∨ '\n' ∈ lead)
    (hfeed : '\n' ∉ piece)
    (hrest : ∀ before' lead' : List Char, (∀ c ∈ lead', isBlank c = true) →
      Lined before' (lead' ++ rest)
        (SourceLine.ofPieces (byteLength (before' ++ lead') + 1) pieces)) :
    Lined before (lead ++ (piece ++ rest))
      (SourceLine.ofPieces (byteLength (before ++ lead)) (piece :: pieces)) := by
  rw [SourceLine.ofPieces]
  rcases trim_cases piece with ⟨hblank, htrim⟩ | ⟨htrimmed, back, hpiece, hback⟩
  · have hall : ∀ c ∈ lead ++ piece, isBlank c = true :=
      List.forall_mem_append.mpr ⟨hlead, hblank⟩
    have hlined := hrest before (lead ++ piece) hall
    rw [← List.append_assoc before, byteLength_append (before ++ lead), List.append_assoc lead]
      at hlined
    simp only [htrim, if_pos]
    exact hlined
  · have htext : '\n' ∉ trim piece := fun h => hfeed (mem_of_mem_trim h)
    have hall : ∀ c ∈ lead ++ piece.takeWhile isBlank, isBlank c = true :=
      List.forall_mem_append.mpr ⟨hlead, List.all_eq_true.mp List.all_takeWhile⟩
    have hlined : Lined before
        (lead ++ piece.takeWhile isBlank ++ trim piece ++ (back ++ rest)) _ :=
      .line hall (hstart.imp_right (List.mem_append_left _)) htrimmed htext
        (hrest (before ++ (lead ++ piece.takeWhile isBlank) ++ trim piece) back hback)
    have hsplit : lead ++ (piece ++ rest) =
        lead ++ piece.takeWhile isBlank ++ trim piece ++ (back ++ rest) := by
      conv => lhs; rw [hpiece]
      simp only [List.append_assoc]
    have hlength : byteLength (before ++ lead) + byteLength piece =
        byteLength (before ++ (lead ++ piece.takeWhile isBlank) ++ trim piece ++ back) := by
      conv => lhs; rw [hpiece]
      simp only [byteLength_append]
      omega
    simp only [if_neg htrimmed.ne_nil]
    rw [hsplit, hlength, ← byteLength_append, List.append_assoc before]
    exact hlined

/-- Each further piece comes behind a line feed. -/
theorem lined_flatMap (hfeed : ∀ p ∈ pieces, '\n' ∉ p) (hlead : ∀ c ∈ lead, isBlank c = true) :
    Lined before (lead ++ pieces.flatMap ('\n' :: ·))
      (SourceLine.ofPieces (byteLength (before ++ lead) + 1) pieces) := by
  induction pieces generalizing before lead with
  | nil => exact .blank (by simpa using hlead)
  | cons piece pieces ih =>
    obtain ⟨hpiece, hpieces⟩ := List.forall_mem_cons.mp hfeed
    have hall : ∀ c ∈ lead ++ ['\n'], isBlank c = true :=
      List.forall_mem_append.mpr ⟨hlead, List.forall_mem_singleton.mpr rfl⟩
    have hlined := lined_piece before _ hall (Or.inr (by simp)) hpiece
      fun before' lead' hlead' => ih before' lead' hpieces hlead'
    have hlength : byteLength (before ++ (lead ++ ['\n'])) = byteLength (before ++ lead) + 1 := by
      simp only [byteLength_append, byteLength_cons, byteLength_nil]
      rfl
    rw [hlength, List.append_assoc] at hlined
    exact hlined

theorem intercalate_cons_eq_flatMap (piece : List Char) (pieces : List (List Char)) :
    ['\n'].intercalate (piece :: pieces) = piece ++ pieces.flatMap ('\n' :: ·) := by
  induction pieces generalizing piece with
  | nil => simp
  | cons next pieces ih =>
    rw [List.intercalate_cons_cons, ih, List.flatMap_cons]
    simp

/-- **Cutting a text at its line feeds finds its lines.** -/
theorem lined_ofPieces (text : List Char) :
    Lined [] text (SourceLine.ofPieces 0 (splitLines text)) := by
  have hfeed : ∀ p ∈ splitLines text, '\n' ∉ p := fun _ => not_mem_of_mem_splitLines
  have htext : ['\n'].intercalate (splitLines text) = text := List.intercalate_splitOn '\n'
  obtain ⟨piece, pieces, hpieces⟩ : ∃ piece pieces, splitLines text = piece :: pieces :=
    List.exists_cons_of_ne_nil (List.splitOn_ne_nil _ _)
  rw [hpieces] at hfeed htext
  obtain ⟨hpiece, hrest⟩ := List.forall_mem_cons.mp hfeed
  have hlined := lined_piece [] [] (by simp) (Or.inl rfl) hpiece
    fun before' lead' hlead' => lined_flatMap before' lead' hrest hlead'
  rw [← intercalate_cons_eq_flatMap, htext] at hlined
  rw [hpieces]
  exact hlined

end

namespace Lined

variable {before rest : List Char} {ls : List SourceLine} {l : SourceLine}

/-- A line stands in the text where it says, behind a line feed unless it is the first. -/
theorem exists_place (h : Lined before rest ls) (hl : l ∈ ls) :
    Trimmed l.text ∧ '\n' ∉ l.text ∧ ∃ gap back, rest = gap ++ l.text ++ back ∧
      l.start = byteLength (before ++ gap) ∧ (before = [] ∨ '\n' ∈ gap) := by
  induction h with
  | blank => cases hl
  | @line before lead text rest ls hlead hstart htrimmed hfeed h ih =>
    rcases List.mem_cons.mp hl with rfl | hl
    · exact ⟨htrimmed, hfeed, lead, rest, rfl, rfl, hstart⟩
    · obtain ⟨htrimmed', hfeed', gap, back, rfl, hplace, hgap⟩ := ih hl
      have hne : before ++ lead ++ text ≠ [] := fun hnil =>
        htrimmed.ne_nil (List.append_eq_nil_iff.mp hnil).2
      refine ⟨htrimmed', hfeed', lead ++ text ++ gap, back, by simp, ?_, Or.inr ?_⟩
      · rw [hplace, List.append_assoc before, List.append_assoc before]
      · exact List.mem_append_right _ (hgap.resolve_left hne)

end Lined

/-! ## Line numbers -/

/-- How many line feeds a text has before an offset. -/
def lineNumber (cs : List Char) (offset : Nat) : Nat := ((utf8 cs).take offset).count 0x0A

theorem lineNumber_append (front back : List Char) :
    lineNumber (front ++ back) (byteLength front) = (utf8 front).count 0x0A := by
  rw [lineNumber, utf8_append, List.take_left' (length_utf8 front)]

theorem feed_mem_utf8 {cs : List Char} : 0x0A ∈ utf8 cs ↔ '\n' ∈ cs := by
  rw [utf8, List.mem_flatMap]
  constructor
  · rintro ⟨c, hc, hbyte⟩
    rwa [feed_mem_encodeChar.mp hbyte] at hc
  · intro h
    exact ⟨'\n', h, feed_mem_encodeChar.mpr rfl⟩

theorem count_zipWith_blankByte {flags : List Bool} {bs : List UInt8}
    (h : flags.length = bs.length) :
    (List.zipWith blankByte flags bs).count 0x0A = bs.count 0x0A := by
  induction flags generalizing bs with
  | nil =>
    rw [List.eq_nil_of_length_eq_zero h.symm]
    rfl
  | cons inside flags ih =>
    cases bs with
    | nil => cases h
    | cons b bs =>
      have hbyte : (blankByte inside b == 0x0A) = (b == 0x0A) := by
        rw [Bool.eq_iff_iff, beq_iff_eq, beq_iff_eq, blankByte_eq_feed]
      rw [List.zipWith_cons_cons, List.count_cons, List.count_cons, ih (Nat.succ.inj h), hbyte]

/-- Blanking comments moves nothing to another line. -/
theorem lineNumber_blankComments (source : List Char) (offset : Nat) :
    lineNumber (blankComments source) offset = lineNumber source offset := by
  have hlength : (inComment (utf8 source)).length = (utf8 source).length :=
    length_inCommentFrom 0 _
  rw [lineNumber, utf8_blankComments, List.take_zipWith, count_zipWith_blankByte, lineNumber]
  rw [List.length_take, List.length_take, hlength]

namespace Lined

variable {before rest : List Char} {ls : List SourceLine} {l : SourceLine}

/-- Every line comes behind the end of the ones before, and on a later line of the text. -/
theorem pairwise (h : Lined before rest ls) :
    ls.Pairwise fun a b => a.span.stop < b.span.start ∧
      lineNumber (before ++ rest) a.span.start < lineNumber (before ++ rest) b.span.start := by
  induction h with
  | blank => exact List.Pairwise.nil
  | @line before lead text rest ls hlead hstart htrimmed hfeed h ih =>
    have hwhole : before ++ (lead ++ text ++ rest) = before ++ lead ++ text ++ rest := by
      simp only [List.append_assoc]
    rw [hwhole]
    refine List.pairwise_cons.mpr ⟨?_, ih⟩
    intro b hb
    obtain ⟨-, -, gap, back, hrest, hplace, hgap⟩ := h.exists_place hb
    have hne : before ++ lead ++ text ≠ [] := fun hnil =>
      htrimmed.ne_nil (List.append_eq_nil_iff.mp hnil).2
    have hgap : '\n' ∈ gap := hgap.resolve_left hne
    constructor
    · -- The line feed is at least one byte between the two.
      have hpos : byteLength gap ≠ 0 := fun hzero => by
        rw [eq_nil_of_byteLength hzero] at hgap
        cases hgap
      change byteLength (before ++ lead) + byteLength text < b.start
      rw [hplace, byteLength_append (before ++ lead ++ text), byteLength_append (before ++ lead)]
      omega
    · have hfirst : lineNumber (before ++ lead ++ text ++ rest) (byteLength (before ++ lead)) =
          (utf8 (before ++ lead)).count 0x0A := by
        rw [List.append_assoc]
        exact lineNumber_append _ _
      have hlater : lineNumber (before ++ lead ++ text ++ rest) b.start =
          (utf8 (before ++ lead ++ text ++ gap)).count 0x0A := by
        rw [hplace, hrest, List.append_assoc gap, ← List.append_assoc _ gap]
        exact lineNumber_append _ _
      have hcount : 0 < (utf8 gap).count 0x0A :=
        List.count_pos_iff.mpr (feed_mem_utf8.mpr hgap)
      change lineNumber _ (byteLength (before ++ lead)) < lineNumber _ b.start
      rw [hfirst, hlater, utf8_append (before ++ lead ++ text), utf8_append (before ++ lead),
        List.count_append, List.count_append]
      omega

end Lined

/-! ## What is not blank -/

theorem Text.byteOffset_length_add (front cs : List Char) (i : Nat) :
    byteOffset (front ++ cs) (front.length + i) = byteLength front + byteOffset cs i := by
  rw [byteOffset, List.take_length_add_append, byteLength_append, byteOffset]

theorem Text.byteOffset_append_le {cs : List Char} (ds : List Char) {i : Nat}
    (hi : i ≤ cs.length) : byteOffset (cs ++ ds) i ≤ byteLength cs := by
  have hle := byteOffset_le (cs ++ ds) hi
  rwa [byteOffset, byteOffset, List.take_left] at hle

/-- The bytes of the character with this index are in the range. -/
def Span.Holds (s : Span) (text : List Char) (index : Nat) : Prop :=
  s.start ≤ byteOffset text index ∧ byteOffset text (index + 1) ≤ s.stop

/-- A character that is not blank belongs to a line. -/
theorem Lined.exists_holds {before rest : List Char} {ls : List SourceLine}
    (h : Lined before rest ls) {i : Nat} {c : Char} (hc : rest[i]? = some c)
    (hblank : isBlank c = false) :
    ∃ l ∈ ls, l.span.Holds (before ++ rest) (before.length + i) := by
  induction h generalizing i with
  | blank hall =>
    exact absurd (hall c (List.mem_of_getElem? hc)) (by simp [hblank])
  | @line before lead text rest ls hlead hstart htrimmed hfeed h ih =>
    have hwhole : before ++ (lead ++ text ++ rest) = before ++ lead ++ text ++ rest := by
      simp only [List.append_assoc]
    rw [List.append_assoc] at hc
    rcases Nat.lt_or_ge i lead.length with hlt | hge
    · rw [List.getElem?_append_left hlt] at hc
      exact absurd (hlead c (List.mem_of_getElem? hc)) (by simp [hblank])
    obtain ⟨j, rfl⟩ := Nat.exists_eq_add_of_le hge
    rw [List.getElem?_append_right hge, Nat.add_sub_cancel_left] at hc
    rcases Nat.lt_or_ge j text.length with hlt | hge
    · refine ⟨_, List.mem_cons_self, ?_⟩
      have hindex : before.length + (lead.length + j) = (before ++ lead).length + j := by
        rw [List.length_append, Nat.add_assoc]
      have hstop := byteOffset_append_le rest (Nat.succ_le_of_lt hlt)
      rw [Span.Holds, hwhole, List.append_assoc, hindex, Nat.add_assoc, byteOffset_length_add,
        byteOffset_length_add]
      exact ⟨Nat.le_add_right _ _, Nat.add_le_add_left hstop _⟩
    · obtain ⟨k, rfl⟩ := Nat.exists_eq_add_of_le hge
      rw [List.getElem?_append_right hge, Nat.add_sub_cancel_left] at hc
      obtain ⟨l, hl, hholds⟩ := ih hc
      refine ⟨l, List.mem_cons_of_mem _ hl, ?_⟩
      have hindex : before.length + (lead.length + (text.length + k)) =
          (before ++ lead ++ text).length + k := by
        simp only [List.length_append, Nat.add_assoc]
      rw [hwhole, hindex]
      exact hholds

/-! ## The lines of a source -/

/-- What a line is in the source that it comes from. -/
structure SourceLine.CutFrom (l : SourceLine) (source : List Char) : Prop where
  trimmed : Trimmed l.text
  noFeed : '\n' ∉ l.text
  /-- It stands at its range in the text with its comments blanked. -/
  found : l.span.Marks (blankComments source) l.text
  start : IsBoundary source l.span.start
  stop : IsBoundary source l.span.stop
  /-- With its comments, which may be in it, it stands there in the source. -/
  marked : ∃ marked, l.span.Marks source marked ∧ blankComments marked = l.text
  /-- It begins and ends on one line of the source. -/
  oneLine : lineNumber source l.span.start = lineNumber source l.span.stop

/-- The lines of a source divide what is not blank in it, comments apart, among them. -/
structure Partitions (lines : List SourceLine) (source : List Char) : Prop where
  cut : ∀ l ∈ lines, l.CutFrom source
  ascending : lines.Pairwise (·.span.stop < ·.span.start)
  /-- No two of them are on one line of the source. -/
  apart : lines.Pairwise fun a b =>
    lineNumber source a.span.start < lineNumber source b.span.start
  covers : ∀ i c, (blankComments source)[i]? = some c → isBlank c = false →
    ∃! l, l ∈ lines ∧ l.span.Holds (blankComments source) i

theorem Lined.cutFrom {source : List Char} {ls : List SourceLine} {l : SourceLine}
    (h : Lined [] (blankComments source) ls) (hl : l ∈ ls) : l.CutFrom source := by
  obtain ⟨htrimmed, hfeed, front, back, hsplit, hplace, -⟩ := h.exists_place hl
  rw [List.nil_append] at hplace
  have hstop : l.span.stop = byteLength (front ++ l.text) := by
    rw [byteLength_append, ← hplace]
    rfl
  have hfound : l.span.Marks (blankComments source) l.text :=
    ⟨front, back, hsplit, hplace.symm, hstop.symm⟩
  obtain ⟨marked, hmarks, hblank⟩ := exists_marked hfound htrimmed.ends.1 htrimmed.ends.2
  refine ⟨htrimmed, hfeed, hfound, hmarks.isBoundary.1, hmarks.isBoundary.2,
    ⟨marked, hmarks, hblank⟩, ?_⟩
  have hfirst : lineNumber (blankComments source) l.span.start = (utf8 front).count 0x0A := by
    rw [hsplit, List.append_assoc, ← lineNumber_append front]
    exact congrArg _ hplace
  have hlast : lineNumber (blankComments source) l.span.stop =
      (utf8 (front ++ l.text)).count 0x0A := by
    rw [hsplit, hstop]
    exact lineNumber_append _ _
  have hnone : (utf8 l.text).count 0x0A = 0 :=
    List.count_eq_zero.mpr fun h => hfeed (feed_mem_utf8.mp h)
  rw [← lineNumber_blankComments source, ← lineNumber_blankComments source, hfirst, hlast,
    utf8_append, List.count_append, hnone, Nat.add_zero]

theorem Span.Holds.not_of_lt {a b : Span} {text : List Char} {i : Nat} (ha : a.Holds text i)
    (hlt : a.stop < b.start) : ¬ b.Holds text i := by
  intro hb
  have hle : byteOffset text i ≤ byteOffset text (i + 1) := byteOffset_le text (Nat.le_succ i)
  have hstop := ha.2
  have hstart := hb.1
  omega

/-- Of ranges one behind the other, only one holds a character. -/
theorem SourceLine.eq_of_holds {ls : List SourceLine} {text : List Char} {i : Nat}
    (h : ls.Pairwise (·.span.stop < ·.span.start)) {a b : SourceLine} (ha : a ∈ ls) (hb : b ∈ ls)
    (hold : a.span.Holds text i) (hold' : b.span.Holds text i) : a = b := by
  have hboth : ls.Pairwise fun a b => a.span.Holds text i → b.span.Holds text i → a = b :=
    h.imp fun hlt hold hold' => absurd hold' (hold.not_of_lt hlt)
  have hflip : ls.Pairwise (flip fun a b => a.span.Holds text i → b.span.Holds text i → a = b) :=
    h.imp fun hlt hold hold' => absurd hold (hold'.not_of_lt hlt)
  exact hboth.forall_of_forall_of_flip (fun _ _ _ _ => rfl) hflip ha hb hold hold'

theorem partitions_ofSource (source : List Char) :
    Partitions (SourceLine.ofSource source) source := by
  have hlined : Lined [] (blankComments source) (SourceLine.ofSource source) :=
    lined_ofPieces (blankComments source)
  have hpairwise := hlined.pairwise
  have hascending := hpairwise.imp fun h => h.1
  refine ⟨fun l hl => hlined.cutFrom hl, hascending, ?_, ?_⟩
  · refine hpairwise.imp fun {a b} h => ?_
    rw [List.nil_append, lineNumber_blankComments, lineNumber_blankComments] at h
    exact h.2
  · intro i c hc hblank
    obtain ⟨l, hl, hholds⟩ := hlined.exists_holds hc hblank
    rw [List.nil_append, List.length_nil, Nat.zero_add] at hholds
    refine ⟨l, ⟨hl, hholds⟩, ?_⟩
    rintro m ⟨hm, hholds'⟩
    exact SourceLine.eq_of_holds hascending hm hl hholds' hholds

/-- Bytes are counted, in comments as well; a carriage return is trimmed off with the blanks. -/
example :
    SourceLine.ofSource "/* é\n */ A = 1;\r\n# b\n B/*é*/= 2".toList =
      [⟨10, "A = 1;".toList⟩, ⟨23, "B      = 2".toList⟩] := by
  decide +kernel

end PacketGen
