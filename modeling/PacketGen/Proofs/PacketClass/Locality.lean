import PacketGen.Proofs.Comment.Appending
import PacketGen.Proofs.PacketClass.Outcome
import PacketGen.Proofs.Text.Within

/-!
# Extraction is local to the packet class

The searches see the whole file, and so they see what has nothing to do with the packet: other
classes, functions that are called like its procedures, stray brackets. None of that matters.
A class that is found in a text is found with the same contents when more text stands before or
behind it (`extract_between`); only the places move, by the bytes before it.

Behind the class anything may stand, as the searches do not go on behind a class that has been
found. Before it nothing may stand that takes part in the first search: no word `extends`, and no
comment or name that goes on into the class.
-/

namespace PacketGen

open Text Brackets

/-- The range `n` bytes further on. -/
def Span.shift (n : Nat) (s : Span) : Span := ⟨n + s.start, n + s.stop⟩

def Procedure.shift (n : Nat) (p : Procedure) : Procedure := { p with span := p.span.shift n }

namespace PacketClass

/-- The class `n` bytes further on. -/
def shift (n : Nat) (c : PacketClass) : PacketClass :=
  { c with
    span := c.span.shift n
    encode := c.encode.map (Procedure.shift n)
    decode := c.decode.map (Procedure.shift n) }

theorem shift_zero (c : PacketClass) : c.shift 0 = c := by
  have hspan (s : Span) : s.shift 0 = s := by simp [Span.shift]
  have hprocedure : Procedure.shift 0 = id := by
    funext p
    simp [Procedure.shift, hspan]
  simp [shift, hspan, hprocedure]

variable {front text behind base name : List Char} {bases : List String}
  {start stop index paren first last : Nat}

theorem byteSpan_within {i j : Nat} (hij : i ≤ j) (hj : j ≤ text.length) :
    byteSpan (front ++ text ++ behind) (front.length + i) (front.length + j) =
      (byteSpan text i j).shift (byteLength front) := by
  rw [byteSpan, byteOffset_within (Nat.le_trans hij hj), byteOffset_within hj]
  rfl

theorem procedureBetween_within {opening closing : Nat} (hlt : opening < closing)
    (hclosing : closing < text.length) :
    procedureBetween (front ++ text ++ behind) (front.length + opening) (front.length + closing) =
      (procedureBetween text opening closing).shift (byteLength front) := by
  have hslice : slice (front ++ text ++ behind) (front.length + opening + 1)
      (front.length + closing) = slice text (opening + 1) closing := by
    rw [Nat.add_assoc, slice_within (Nat.le_of_lt hclosing)]
  have hle : opening ≤ closing + 1 := Nat.le_succ_of_le (Nat.le_of_lt hlt)
  rw [procedureBetween, hslice, Nat.add_assoc, byteSpan_within hle (Nat.succ_le_of_lt hclosing)]
  rfl

theorem localConstants_within (hlast : last ≤ text.length) (reserved : String) :
    localConstants (front ++ text ++ behind) (front.length + first) (front.length + last)
      reserved = localConstants text first last reserved := by
  rw [localConstants, slice_within hlast, localConstants]

section

variable (hfront : endsName front = false) (hbrace : text.getLast? = some '\x7d')

/-! ## Headings -/

section
include hfront hbrace

theorem HeadingAt.within (hbase : IsWord base) (h : HeadingAt text base start stop) :
    HeadingAt (front ++ text ++ behind) base (front.length + start) (front.length + stop) := by
  obtain ⟨name, hkeyword, hblank, hname, rfl⟩ := h
  have hends := endsName_of_brace hbrace
  refine ⟨front.length + name, hkeyword.within isWord_extends hfront hends, ?_,
    hname.within hbase hfront hends, (Nat.add_assoc _ _ _).symm⟩
  rw [Nat.add_assoc]
  exact (BlankBetween.within_iff (Nat.le_of_lt (hname.lt_length hbase))).mpr hblank

end

include hbrace in
/-- A heading that begins in the text is one of the text. -/
theorem HeadingAt.of_within (hbase : IsWord base)
    (h : HeadingAt (front ++ text ++ behind) base (front.length + start) stop)
    (hstart : start < text.length) : ∃ stop', HeadingAt text base start stop' := by
  obtain ⟨name, hkeyword, hblank, hname, -⟩ := h
  have hends := endsName_of_brace hbrace
  have hkeyword := hkeyword.of_within isWord_extends hends hstart
  rw [Nat.add_assoc] at hblank
  obtain ⟨name, rfl, hlt, hblank⟩ :=
    hblank.of_within hbrace (hkeyword.add_length_lt hbrace isWord_extends)
  exact ⟨_, name, hkeyword, hblank, hname.of_within hbase hends hlt, rfl⟩

include hfront hbrace

theorem FirstHeading.within (hbases : ∀ base ∈ bases, IsWord base.toList)
    (hnone : ∀ i, ¬ WordAt front i "extends".toList) (h : FirstHeading text bases stop) :
    FirstHeading (front ++ text ++ behind) bases (front.length + stop) := by
  obtain ⟨start, ⟨base, hmem, hheading⟩, hfirst⟩ := h
  have hstart : start < text.length := by
    obtain ⟨name, hkeyword, -⟩ := hheading
    exact hkeyword.lt_length isWord_extends
  refine ⟨front.length + start,
    ⟨base, hmem, hheading.within hfront hbrace (hbases base hmem)⟩, ?_⟩
  intro base' hmem' start' stop' h'
  rcases Nat.lt_or_ge start' front.length with hlt | hge
  · -- A keyword that begins in `front` is one of `front`.
    obtain ⟨name, hkeyword, -⟩ := h'
    rw [List.append_assoc, ← List.nil_append front, ← Nat.zero_add start'] at hkeyword
    exact absurd (hkeyword.of_within isWord_extends hfront hlt) (hnone start')
  · obtain ⟨s, rfl⟩ := Nat.exists_eq_add_of_le hge
    refine Nat.add_le_add_left (Nat.le_of_not_lt fun hlt => ?_) _
    obtain ⟨stop'', h''⟩ :=
      h'.of_within hbrace (hbases base' hmem') (Nat.lt_trans hlt hstart)
    exact absurd (hfirst base' hmem' s stop'' h'') (Nat.not_le.mpr hlt)

theorem ClassOutcome.within (hbases : ∀ base ∈ bases, IsWord base.toList)
    (hnone : ∀ i, ¬ WordAt front i "extends".toList)
    (h : ClassOutcome text bases (.ok (first, last))) :
    ClassOutcome (front ++ text ++ behind) bases
      (.ok (front.length + first, front.length + last)) := by
  cases h with
  | body hheading hfirst hpair =>
    exact .body (hheading.within hfront hbrace hbases hnone) hfirst.within hpair.within

/-! ## Declarations -/

theorem DeclaredAt.within (hname : IsWord name)
    (h : DeclaredAt text first last name index paren) :
    DeclaredAt (front ++ text ++ behind) (front.length + first) (front.length + last) name
      (front.length + index) (front.length + paren) := by
  obtain ⟨k, hk, hkeyword, hblank⟩ := h.keyword
  obtain ⟨hparen, -⟩ := List.getElem?_eq_some_iff.mp h.opens
  have hindex := Nat.le_of_lt (h.word.lt_length hname)
  have hle := h.le_last
  refine ⟨h.word.within hname hfront (endsName_of_brace hbrace),
    Nat.add_le_add_left h.first_le _, by omega, ?_, ?_, getElem?_within_of_some h.opens⟩
  · refine ⟨front.length + k, Nat.add_le_add_left hk _, ?_, ?_⟩
    · rw [Nat.add_assoc, slice_within (Nat.le_trans hblank.le hindex)]
      exact hkeyword
    · rw [Nat.add_assoc]
      exact (BlankBetween.within_iff hindex).mpr hblank
  · rw [Nat.add_assoc]
    exact (BlankBetween.within_iff (Nat.le_of_lt hparen)).mpr h.gap

omit hfront in
/-- A declaration in a part of the text is one of the text. -/
theorem DeclaredAt.of_within (hname : IsWord name) (hlast : last < text.length)
    (h : DeclaredAt (front ++ text ++ behind) (front.length + first) (front.length + last) name
      index paren) : ∃ index' paren', index = front.length + index' ∧
        DeclaredAt text first last name index' paren' := by
  obtain ⟨i, rfl⟩ := Nat.exists_eq_add_of_le (Nat.le_trans (Nat.le_add_right _ first) h.first_le)
  have hle := h.le_last
  have hi : i + name.length < text.length := by omega
  have hgap := h.gap
  rw [Nat.add_assoc] at hgap
  obtain ⟨paren, rfl, hparen, hgap⟩ := hgap.of_within hbrace hi
  obtain ⟨k, hk, hkeyword, hblank⟩ := h.keyword
  obtain ⟨k, rfl⟩ := Nat.exists_eq_add_of_le (Nat.le_trans (Nat.le_add_right _ first) hk)
  have hi' : i ≤ text.length := by omega
  rw [Nat.add_assoc] at hkeyword hblank
  have hblank := (BlankBetween.within_iff hi').mp hblank
  rw [slice_within (Nat.le_trans hblank.le hi')] at hkeyword
  have hopens := h.opens
  rw [getElem?_within hparen] at hopens
  refine ⟨i, paren, rfl, ?_, Nat.add_le_add_iff_left.mp h.first_le, by omega,
    ⟨k, Nat.add_le_add_iff_left.mp hk, hkeyword, hblank⟩, hgap, hopens⟩
  exact h.word.of_within hname (endsName_of_brace hbrace) (by omega)

theorem FirstDeclared.within (hname : IsWord name) (hlast : last < text.length)
    (h : FirstDeclared text first last name index paren) :
    FirstDeclared (front ++ text ++ behind) (front.length + first) (front.length + last) name
      (front.length + index) (front.length + paren) := by
  refine ⟨h.1.within hfront hbrace hname, ?_⟩
  intro index' paren' h'
  obtain ⟨i, p, rfl, h''⟩ := h'.of_within hbrace hname hlast
  exact Nat.add_le_add_left (h.2 i p h'') _

theorem ProcedureOutcome.within {name : String} (hname : IsWord name.toList)
    (hlast : last < text.length) {p : Option Procedure}
    (h : ProcedureOutcome text first last name (.ok p)) :
    ProcedureOutcome (front ++ text ++ behind) (front.length + first) (front.length + last) name
      (.ok (p.map (Procedure.shift (byteLength front)))) := by
  cases h with
  | absent hnone =>
    refine .absent fun index paren h => ?_
    obtain ⟨i, q, -, h'⟩ := h.of_within hbrace hname hlast
    exact hnone i q h'
  | @body index paren close opening closing hdeclared hparens hmark hopening hpair =>
    obtain ⟨hclosing, -⟩ := List.getElem?_eq_some_iff.mp hpair.closing
    have htake : (front ++ text ++ behind).take (front.length + last) =
        front ++ text.take last ++ [] := by
      rw [take_within (Nat.le_of_lt hlast), List.append_nil]
    have hmark' : FirstFrom ((front ++ text ++ behind).take (front.length + last))
        (front.length + close + 1) IsMark (front.length + opening) := by
      rw [htake]
      exact hmark.within
    rw [Option.map_some, ← procedureBetween_within hpair.lt hclosing]
    exact .body (hdeclared.within hfront hbrace hname hlast) hparens.within hmark'
      (getElem?_within_of_some hopening) hpair.within

end

/-! ## The whole -/

/-- The closing brace is the last character of a text that ends with its class. -/
theorem getLast?_of_span (hlast : text[last]? = some '\x7d')
    (hend : byteOffset text last + 1 = byteLength text) : text.getLast? = some '\x7d' := by
  obtain ⟨hlt, -⟩ := List.getElem?_eq_some_iff.mp hlast
  have hoffset : byteOffset text (last + 1) = byteOffset text last + 1 := byteOffset_succ hlast
  have hlength : text.length = last + 1 := by
    refine Nat.le_antisymm (Nat.le_of_not_lt fun hlt' => ?_) hlt
    -- A character behind the brace would have bytes of its own.
    have hmore := byteOffset_succ (List.getElem?_eq_getElem hlt')
    have hsize := Char.utf8Size_pos text[last + 1]
    have hle := (IsBoundary.le_byteLength ⟨last + 1 + 1, rfl⟩ :
      byteOffset text (last + 1 + 1) ≤ byteLength text)
    omega
  rw [List.getLast?_eq_getElem?, hlength, Nat.add_sub_cancel, hlast]

variable {config : Config}

section

variable (hbases : ∀ base ∈ config.baseClasses, IsWord base.toList)
  (hencode : IsWord config.encodeProcedure.toList)
  (hdecode : IsWord config.decodeProcedure.toList)
include hbases hencode hdecode

/-- A class is extracted between texts that are blanked by themselves. -/
theorem extract_between {source whole : String} {c : PacketClass} {front behind : List Char}
    (h : extract config source = .ok c) (hend : c.span.stop + 1 = byteLength source.toList)
    (hfront : endsName front = false) (hnone : ∀ i, ¬ WordAt front i "extends".toList)
    (hwhole : blankComments whole.toList = front ++ blankComments source.toList ++ behind) :
    extract config whole = .ok (c.shift (byteLength front)) := by
  rw [← byteLength_blankComments] at hend
  obtain houtcome := (extract_eq_iff hbases hencode hdecode source).mp h
  rw [extract_eq_iff hbases hencode hdecode, hwhole]
  generalize blankComments source.toList = text at houtcome hend
  cases houtcome with
  | @extracted first last encode decode hclass hencoded hdecoded =>
    have hlast : text[last]? = some '\x7d' := by
      cases hclass with
      | body _ _ hpair => exact hpair.closing
    have hfirst : first ≤ last := by
      cases hclass with
      | body _ _ hpair => exact hpair.lt
    have hbrace := getLast?_of_span hlast hend
    obtain ⟨hlt, -⟩ := List.getElem?_eq_some_iff.mp hlast
    rw [shift, ← byteSpan_within hfirst (Nat.le_of_lt hlt),
      ← localConstants_within (Nat.le_of_lt hlt)]
    exact .extracted (hclass.within hfront hbrace hbases hnone)
      (hencoded.within hfront hbrace hencode hlt) (hdecoded.within hfront hbrace hdecode hlt)

/-- In a source that ends with its class, the last character that is kept is the closing brace. -/
theorem getLast?_of_extract {source : String} {c : PacketClass}
    (h : extract config source = .ok c) (hend : c.span.stop + 1 = byteLength source.toList) :
    (blankComments source.toList).getLast? = some '\x7d' := by
  rw [← byteLength_blankComments] at hend
  cases (extract_eq_iff hbases hencode hdecode source).mp h with
  | extracted hclass =>
    cases hclass with
    | body _ _ hpair => exact getLast?_of_span hpair.closing hend

/-- **What is around a packet class does not matter to its extraction.** Behind it may be any text,
and before it any text that ends in a line feed, leaves no block comment open and has no word
`extends`. -/
theorem extract_local {source : String} {c : PacketClass} (h : extract config source = .ok c)
    (hend : c.span.stop + 1 = byteLength source.toList) :
    (∀ behind : String, extract config (source ++ behind) = .ok c) ∧
      ∀ front : String, front.toList.getLast? = some '\n' →
        CommentScan.code.after front.toList ≠ .block →
        (∀ i, ¬ WordAt (blankComments front.toList) i "extends".toList) →
        extract config (front ++ source) = .ok (c.shift (byteLength front.toList)) := by
  constructor
  · intro behind
    have hbrace := getLast?_of_extract hbases hencode hdecode h hend
    have hnone : ∀ i, ¬ WordAt [] i "extends".toList := by
      intro i hword
      exact absurd (hword.lt_length isWord_extends) (Nat.not_lt_zero i)
    have hwhole : blankComments (source ++ behind).toList =
        [] ++ blankComments source.toList ++ blankComments behind.toList := by
      rw [String.toList_append, blankComments_append_of_bracket hbrace, List.nil_append]
    have hextract := extract_between hbases hencode hdecode h hend rfl hnone hwhole
    rw [byteLength_nil, shift_zero] at hextract
    exact hextract
  · intro front hfeed hopen hnone
    obtain ⟨hsplit, hfront⟩ := blankComments_append_of_feed hfeed hopen source.toList
    have hwhole : blankComments (front ++ source).toList =
        blankComments front.toList ++ blankComments source.toList ++ [] := by
      rw [String.toList_append, hsplit, List.append_nil]
    have hextract := extract_between hbases hencode hdecode h hend hfront hnone hwhole
    rw [byteLength_blankComments] at hextract
    exact hextract

end

/-- The class after a comment, a function with the name of a procedure and a stray parenthesis, and
before another class and a comment that is not closed. -/
theorem extract_local_stray :
    let source := "class A extends DataPacket\x7bfunction encode()\x7breset();\x7d\x7d"
    let front := "# B extends DataPacket\nfunction encode()\x7b(\n"
    let behind := ") class C extends DataPacket\x7b /*"
    let c : PacketClass := ⟨⟨27, 54⟩, [], some ⟨⟨44, 54⟩, ["reset()"]⟩, none⟩
    extract Config.default (source ++ behind) = .ok c ∧
      extract Config.default (front ++ source) = .ok (c.shift 43) := by
  intro source front behind c
  have hbases : ∀ base ∈ Config.default.baseClasses, IsWord base.toList := by decide
  have hencode : IsWord Config.default.encodeProcedure.toList := by decide
  have hdecode : IsWord Config.default.decodeProcedure.toList := by decide
  have h : extract Config.default source = .ok c := by decide +kernel
  have hend : c.span.stop + 1 = byteLength source.toList := by decide +kernel
  have hfeed : front.toList.getLast? = some '\n' := by decide +kernel
  have hopen : CommentScan.code.after front.toList ≠ .block := by decide +kernel
  have hindices : wordIndices (blankComments front.toList) 0 (blankComments front.toList).length
      "extends".toList = [] := by decide +kernel
  have hnone : ∀ i, ¬ WordAt (blankComments front.toList) i "extends".toList := by
    intro i hword
    have hmem := (mem_wordIndices_iff isWord_extends (Nat.zero_le _) (Nat.le_refl _)).mpr
      ⟨hword, Nat.zero_le i, hword.add_length_le⟩
    rw [hindices] at hmem
    cases hmem
  have hlength : byteLength front.toList = 43 := by decide +kernel
  obtain ⟨hbehind, hfront⟩ := extract_local hbases hencode hdecode h hend
  refine ⟨hbehind behind, ?_⟩
  rw [← hlength]
  exact hfront front hfeed hopen hnone

end PacketClass

end PacketGen
