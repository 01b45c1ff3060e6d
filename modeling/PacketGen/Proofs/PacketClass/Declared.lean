import PacketGen.Proofs.PacketClass.Search
import PacketGen.Proofs.Text.WordPlace

/-!
# Where classes and procedures are declared

What marks a packet class is a heading: the keyword `extends`, and behind it, blanks apart, a base
class (`HeadingAt`). What marks a procedure is its name between the word `function` and
a parenthesis (`DeclaredAt`). Both are told of their places alone, and the searches find the first
place of their kind (`firstBaseEnd?_eq_some_iff`, `declaration?_eq_some_iff`).

For a class that is not how the search goes. It looks for each base class by itself and takes the
heading that ends first. But headings end in the order in which they begin (`HeadingAt.lt`), so that
is the one that begins first, whatever the order of the base classes.
-/

namespace PacketGen.PacketClass

open Text

variable {text base base' name : List Char} {bases : List String}
  {start start' stop stop' first last index paren : Nat}

/-! ## Headings -/

theorem isWord_extends : IsWord "extends".toList := by decide

/-- The keyword is at `start`, and behind it, blanks apart, a base class name ends at `stop`. -/
def HeadingAt (text base : List Char) (start stop : Nat) : Prop :=
  ∃ name, WordAt text start "extends".toList ∧
    BlankBetween text (start + "extends".toList.length) name ∧ WordAt text name base ∧
    stop = name + base.length

/-- **Headings end in the order in which they begin.** -/
theorem HeadingAt.lt (hbase : IsWord base) (hbase' : IsWord base')
    (h : HeadingAt text base start stop) (h' : HeadingAt text base' start' stop')
    (hlt : start < start') : stop < stop' := by
  obtain ⟨name, hkeyword, hblank, hname, rfl⟩ := h
  obtain ⟨name', hkeyword', hblank', hname', rfl⟩ := h'
  have hpos : 0 < base'.length := List.length_pos_iff.mpr hbase'.1
  have hle' := hblank'.le
  -- The later keyword is behind the earlier one, and it is no blank.
  have hbehind : start + "extends".toList.length ≤ start' := by
    rcases hkeyword.eq_or_le isWord_extends isWord_extends hkeyword' (Nat.le_of_lt hlt) with
      ⟨heq, -⟩ | hle
    · exact absurd heq (Nat.ne_of_lt hlt)
    · exact hle
  obtain ⟨c, hc, hblankc⟩ := hkeyword'.getElem? isWord_extends
  have hstart' := hblank.le_of_getElem? hbehind hc hblankc
  -- So it is the base class of the earlier one, or behind that.
  rcases hname.eq_or_le hbase isWord_extends hkeyword' hstart' with ⟨rfl, rfl⟩ | hle
  · omega
  · omega

/-- A heading ends in one place only. -/
theorem HeadingAt.stop_eq (hbase : IsWord base) (hbase' : IsWord base')
    (h : HeadingAt text base start stop) (h' : HeadingAt text base' start stop') :
    stop = stop' := by
  obtain ⟨name, -, hblank, hname, rfl⟩ := h
  obtain ⟨name', -, hblank', hname', rfl⟩ := h'
  obtain ⟨c, hc, hblankc⟩ := hname.getElem? hbase
  obtain ⟨c', hc', hblankc'⟩ := hname'.getElem? hbase'
  obtain rfl : name = name' :=
    (hblank.skipBlanks_eq hc hblankc).symm.trans (hblank'.skipBlanks_eq hc' hblankc')
  rcases hname.eq_or_le hbase hbase' hname' (Nat.le_refl name) with ⟨-, rfl⟩ | hle
  · rfl
  · have hpos : 0 < base.length := List.length_pos_iff.mpr hbase.1
    omega

/-- What the search asks of a keyword is that it begins a heading. -/
theorem heading_iff (hbase : IsWord base) :
    (start ∈ wordIndices text 0 text.length "extends".toList ∧
      hasWordAt text (skipBlanks text (start + "extends".toList.length)) base = true ∧
      stop = skipBlanks text (start + "extends".toList.length) + base.length) ↔
      HeadingAt text base start stop := by
  rw [mem_wordIndices_iff isWord_extends (Nat.zero_le _) (Nat.le_refl _), hasWordAt_iff hbase]
  constructor
  · rintro ⟨⟨hkeyword, -, -⟩, hname, rfl⟩
    exact ⟨_, hkeyword, blankBetween_skipBlanks text _, hname, rfl⟩
  · rintro ⟨name, hkeyword, hblank, hname, rfl⟩
    obtain ⟨c, hc, hblankc⟩ := hname.getElem? hbase
    rw [hblank.skipBlanks_eq hc hblankc]
    obtain ⟨before, after, hsplit, rfl, -⟩ := id hkeyword
    refine ⟨⟨hkeyword, Nat.zero_le _, ?_⟩, hname, rfl⟩
    rw [hsplit, List.length_append, List.length_append]
    exact Nat.le_add_right _ _

theorem baseEnd?_eq_some_iff (hbase : IsWord base) : baseEnd? text base = some stop ↔
    ∃ start, HeadingAt text base start stop ∧
      ∀ start' stop', HeadingAt text base start' stop' → start ≤ start' := by
  unfold baseEnd?
  rw [findSome?_eq_some_iff_of_pairwise (pairwise_wordIndices _ _ _ _)]
  simp only [Option.ite_none_right_eq_some, Option.some.injEq, ite_eq_right_iff, reduceCtorEq]
  constructor
  · rintro ⟨start, hmem, ⟨hname, rfl⟩, hfirst⟩
    refine ⟨start, (heading_iff hbase).mp ⟨hmem, hname, rfl⟩, fun start' stop' h' => ?_⟩
    obtain ⟨hmem', hname', -⟩ := (heading_iff hbase).mpr h'
    exact Nat.le_of_not_lt fun hlt => hfirst start' hmem' hlt hname'
  · rintro ⟨start, h, hfirst⟩
    obtain ⟨hmem, hname, rfl⟩ := (heading_iff hbase).mpr h
    refine ⟨start, hmem, ⟨hname, rfl⟩, fun start' hmem' hlt hname' => ?_⟩
    have hle := hfirst start' _ ((heading_iff hbase).mp ⟨hmem', hname', rfl⟩)
    omega

theorem baseEnd?_eq_none_iff (hbase : IsWord base) :
    baseEnd? text base = none ↔ ∀ start stop, ¬ HeadingAt text base start stop := by
  unfold baseEnd?
  rw [List.findSome?_eq_none_iff]
  simp only [ite_eq_right_iff, reduceCtorEq]
  constructor
  · intro h start stop hheading
    obtain ⟨hmem, hname, -⟩ := (heading_iff hbase).mpr hheading
    exact h start hmem hname
  · intro h start hmem hname
    exact h start _ ((heading_iff hbase).mp ⟨hmem, hname, rfl⟩)

/-- The first heading of the text, over all base classes, ends at `stop`. -/
def FirstHeading (text : List Char) (bases : List String) (stop : Nat) : Prop :=
  ∃ start, (∃ base ∈ bases, HeadingAt text base.toList start stop) ∧
    ∀ base ∈ bases, ∀ start' stop', HeadingAt text base.toList start' stop' → start ≤ start'

section

variable (hbases : ∀ base ∈ bases, IsWord base.toList)
include hbases

theorem firstBaseEnd?_eq_none_iff : firstBaseEnd? text bases = none ↔
    ∀ base ∈ bases, ∀ start stop, ¬ HeadingAt text base.toList start stop := by
  rw [firstBaseEnd?, List.min?_eq_none_iff, List.filterMap_eq_nil_iff]
  exact forall₂_congr fun base hmem => baseEnd?_eq_none_iff (hbases base hmem)

theorem firstBaseEnd?_eq_some_iff :
    firstBaseEnd? text bases = some stop ↔ FirstHeading text bases stop := by
  rw [firstBaseEnd?, List.min?_eq_some_iff]
  simp only [List.mem_filterMap]
  constructor
  · rintro ⟨⟨base, hmem, hbase⟩, hleast⟩
    obtain ⟨start, h, -⟩ := (baseEnd?_eq_some_iff (hbases base hmem)).mp hbase
    refine ⟨start, ⟨base, hmem, h⟩, fun base' hmem' start' stop' h' => ?_⟩
    -- A heading that begins earlier, and the first with its base class, would end earlier.
    refine Nat.le_of_not_lt fun hlt => ?_
    cases hend : baseEnd? text base'.toList with
    | none => exact (baseEnd?_eq_none_iff (hbases base' hmem')).mp hend start' stop' h'
    | some stop₁ =>
      obtain ⟨start₁, h₁, hfirst₁⟩ := (baseEnd?_eq_some_iff (hbases base' hmem')).mp hend
      have hle := hfirst₁ start' stop' h'
      have hlt' := h₁.lt (hbases base' hmem') (hbases base hmem) h (by omega)
      have hle' := hleast stop₁ ⟨base', hmem', hend⟩
      omega
  · rintro ⟨start, ⟨base, hmem, h⟩, hfirst⟩
    refine ⟨⟨base, hmem, (baseEnd?_eq_some_iff (hbases base hmem)).mpr ⟨start, h, ?_⟩⟩, ?_⟩
    · exact hfirst base hmem
    · rintro stop₁ ⟨base', hmem', hend⟩
      obtain ⟨start₁, h₁, -⟩ := (baseEnd?_eq_some_iff (hbases base' hmem')).mp hend
      rcases Nat.lt_or_eq_of_le (hfirst base' hmem' start₁ stop₁ h₁) with hlt | rfl
      · exact Nat.le_of_lt (h.lt (hbases base hmem) (hbases base' hmem') h₁ hlt)
      · exact Nat.le_of_eq (h.stop_eq (hbases base hmem) (hbases base' hmem') h₁)

end

/-! ## Declarations -/

/-- The name of a procedure is at `index`, in the class body `first..last`. Before it, blanks apart,
the class body ends in `function`; behind it, blanks apart, a parenthesis is at `paren`. -/
structure DeclaredAt (text : List Char) (first last : Nat) (name : List Char)
    (index paren : Nat) : Prop where
  word : WordAt text index name
  first_le : first ≤ index
  le_last : index + name.length ≤ last
  keyword : ∃ k, first ≤ k ∧ slice text k (k + "function".toList.length) = "function".toList ∧
    BlankBetween text (k + "function".toList.length) index
  gap : BlankBetween text (index + name.length) paren
  opens : text[paren]? = some '('

/-- The first declaration of a procedure in the class body. -/
def FirstDeclared (text : List Char) (first last : Nat) (name : List Char)
    (index paren : Nat) : Prop :=
  DeclaredAt text first last name index paren ∧
    ∀ index' paren', DeclaredAt text first last name index' paren' → index ≤ index'

theorem isBlank_paren : isBlank '(' = false := by decide

theorem DeclaredAt.paren_eq (h : DeclaredAt text first last name index paren) :
    skipBlanks text (index + name.length) = paren :=
  h.gap.skipBlanks_eq h.opens isBlank_paren

/-- What the search asks of a name is that it is declared. -/
theorem declared_iff (hname : IsWord name) (hle : first ≤ last) (hlast : last ≤ text.length) :
    (index ∈ wordIndices text first last name ∧ declaresAt text first name index = true) ↔
      DeclaredAt text first last name index (skipBlanks text (index + name.length)) := by
  rw [mem_wordIndices_iff hname hle hlast, declaresAt, Bool.and_eq_true, function_isSuffixOf_iff,
    beq_iff_eq]
  constructor
  · rintro ⟨⟨hword, hfirst, hstop⟩, ⟨before, gap, hslice, hgap⟩, hparen⟩
    refine ⟨hword, hfirst, hstop, ?_, blankBetween_skipBlanks text _, hparen⟩
    rw [List.append_assoc] at hslice
    have hindex : index ≤ text.length := by omega
    obtain ⟨hle', -, hrest⟩ := slice_eq_append hslice hfirst hindex
    obtain ⟨hle'', hkeyword, hgap'⟩ := slice_eq_append hrest hle' hindex
    exact ⟨first + before.length, Nat.le_add_right _ _, hkeyword, hle'', hgap'.symm ▸ hgap⟩
  · intro h
    obtain ⟨k, hk, hkeyword, hblank⟩ := h.keyword
    refine ⟨⟨h.word, h.first_le, h.le_last⟩, ⟨slice text first k, _, ?_, hblank.blank⟩, h.opens⟩
    have hbefore := slice_append text hk (Nat.le_add_right k "function".toList.length)
    have hwhole := slice_append text (by omega : first ≤ k + "function".toList.length) hblank.le
    rw [← hwhole, ← hbefore, hkeyword]

theorem declaration?_eq_some_iff (hname : IsWord name) (hle : first ≤ last)
    (hlast : last ≤ text.length) : declaration? text first last name = some index ↔
      FirstDeclared text first last name index (skipBlanks text (index + name.length)) := by
  rw [FirstDeclared, declaration?, find?_eq_some_iff_of_pairwise (pairwise_wordIndices _ _ _ _),
    ← and_assoc, declared_iff hname hle hlast]
  refine and_congr_right fun _ => ⟨fun hfirst index' paren' h' => ?_, fun hfirst j hj hlt => ?_⟩
  · obtain ⟨hmem', hdeclares'⟩ := (declared_iff hname hle hlast).mpr (h'.paren_eq ▸ h')
    refine Nat.le_of_not_lt fun hlt => ?_
    rw [hfirst index' hmem' hlt] at hdeclares'
    exact Bool.false_ne_true hdeclares'
  · refine Bool.eq_false_iff.mpr fun hdeclares => ?_
    have hle' := hfirst j _ ((declared_iff hname hle hlast).mp ⟨hj, hdeclares⟩)
    omega

theorem declaration?_eq_none_iff (hname : IsWord name) (hle : first ≤ last)
    (hlast : last ≤ text.length) : declaration? text first last name = none ↔
      ∀ index paren, ¬ DeclaredAt text first last name index paren := by
  rw [declaration?, List.find?_eq_none]
  constructor
  · intro h index paren hdeclared
    obtain ⟨hmem, hdeclares⟩ :=
      (declared_iff hname hle hlast).mpr (hdeclared.paren_eq ▸ hdeclared)
    exact h index hmem hdeclares
  · intro h index hmem hdeclares
    exact h index _ ((declared_iff hname hle hlast).mp ⟨hmem, hdeclares⟩)

end PacketGen.PacketClass
