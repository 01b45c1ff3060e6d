import Mathlib.Order.Bounds.Image
import Mathlib.Order.Lattice.Nat
import PacketGen.Proofs.Text.Checked

/-!
# The first standalone word

What a search for a word has to find can be said without any search, and of the bytes of a text
alone: `WordBytesAt` asks that the bytes of the word are at an offset, inside of the searched range,
and that the bytes on either side, which may be outside of it, belong to no name. The search finds
the least such offset (`findWord?_leftmost`).

The search takes characters, and it does not look inside an occurrence that it has taken. Neither
shows: the first byte of a word is a character of its own, so no word begins within a character
(`exists_index_of_prefix`), and an occurrence reaching into a standalone word would be preceded by
a character of that word (`mem_wordIndices_iff`).
-/

namespace PacketGen

namespace Text

variable {text w : List Char} {i p first last : Nat}

/-! ## The first index -/

/-- The first of ascending numbers is the least one. -/
theorem head?_eq_some_iff_isLeast {l : List Nat} (hl : l.Pairwise (· < ·)) :
    l.head? = some i ↔ IsLeast {j | j ∈ l} i := by
  cases l with
  | nil => simp [IsLeast]
  | cons k l =>
    have hk : IsLeast {j | j ∈ k :: l} k := by
      refine ⟨List.mem_cons_self, fun j hj => ?_⟩
      rcases List.mem_cons.mp hj with rfl | hj
      · exact Nat.le_refl j
      · exact Nat.le_of_lt ((List.pairwise_cons.mp hl).1 j hj)
    rw [List.head?_cons, Option.some_inj]
    constructor
    · rintro rfl
      exact hk
    · intro hi
      exact hk.unique hi

/-- Where a word stands alone inside of a range. -/
def WordWithin (text : List Char) (first last : Nat) (w : List Char) : Set Nat :=
  {i | WordAt text i w ∧ first ≤ i ∧ i + w.length ≤ last}

theorem setOf_mem_wordIndices (hw : IsWord w) (hle : first ≤ last) (hlast : last ≤ text.length) :
    {i | i ∈ wordIndices text first last w} = WordWithin text first last w :=
  Set.ext fun _ => mem_wordIndices_iff hw hle hlast

theorem findWord?_eq_some_iff (hw : IsWord w) (hle : first ≤ last) (hlast : last ≤ text.length) :
    findWord? text first last w = some i ↔ IsLeast (WordWithin text first last w) i := by
  rw [findWord?, head?_eq_some_iff_isLeast (pairwise_wordIndices text first last w),
    setOf_mem_wordIndices hw hle hlast]

theorem findWord?_eq_none_iff (hw : IsWord w) (hle : first ≤ last) (hlast : last ≤ text.length) :
    findWord? text first last w = none ↔ WordWithin text first last w = ∅ := by
  rw [findWord?, List.head?_eq_none_iff, List.eq_nil_iff_forall_not_mem,
    ← setOf_mem_wordIndices hw hle hlast, Set.eq_empty_iff_forall_notMem]
  rfl

/-! ## In bytes -/

/-- The bytes of a word are at `p`, between the offsets `start` and `stop`, and the bytes beside
them in the whole text, if there are any, belong to no name. -/
structure WordBytesAt (bytes : List UInt8) (start stop : Nat) (word : List UInt8) (p : Nat) :
    Prop where
  start_le : start ≤ p
  le_stop : p + word.length ≤ stop
  occurs : word <+: bytes.drop p
  before : ∀ q, q + 1 = p → ∀ b, bytes[q]? = some b → Checked.isNameByte b = false
  behind : ∀ b, bytes[p + word.length]? = some b → Checked.isNameByte b = false

theorem encodeChar_of_isNameChar {c : Char} (hc : isNameChar c = true) :
    ∃ b : UInt8, String.utf8EncodeChar c = [b] ∧ b.toNat < 0x80 := by
  have hlt : c.toNat < 0x80 := of_isNameChar (p := fun c => c.toNat < 0x80) (by decide) hc
  rcases encodeChar_cases c with ⟨-, hone⟩ | ⟨hle, -⟩
  · refine ⟨_, hone, ?_⟩
    rw [UInt8.toNat_ofNat']
    omega
  · exact absurd hlt (Nat.not_lt.mpr hle)

/-- The bytes of a word begin where a character does. -/
theorem exists_index_of_prefix (hw : IsWord w) (h : utf8 w <+: (utf8 text).drop p) :
    ∃ i, i < text.length ∧ byteOffset text i = p ∧ w <+: text.drop i := by
  obtain ⟨c, cs, rfl⟩ := List.exists_cons_of_ne_nil hw.1
  obtain ⟨b, hb, hlt⟩ := encodeChar_of_isNameChar (hw.2 c List.mem_cons_self)
  have hbyte : (utf8 text)[p]? = some b := by
    obtain ⟨after, hafter⟩ := h
    rw [← List.head?_drop, ← hafter, utf8_cons, hb]
    rfl
  obtain ⟨i, d, hd, rfl, -⟩ := exists_char_of_byte hlt hbyte
  refine ⟨i, (List.getElem?_eq_some_iff.mp hd).1, rfl, ?_⟩
  rw [← utf8_drop] at h
  exact utf8_prefix_iff.mp h

theorem hasWordAt_iff_begins :
    hasWordAt text i w = true ↔ w <+: text.drop i ∧ standsAlone text i w.length = true := by
  rw [hasWordAt, Bool.and_eq_true, List.isPrefixOf_iff_prefix]

theorem option_any_eq_false_iff {α : Type} {o : Option α} {q : α → Bool} :
    o.any q = false ↔ ∀ a, o = some a → q a = false := by
  cases o <;> simp

/-- The characters beside a word are told by the bytes beside it. -/
theorem standsAlone_iff_bytes (hi : i ≤ text.length) (hbegins : w <+: text.drop i) :
    standsAlone text i w.length = true ↔
      (∀ q, q + 1 = byteOffset text i → ∀ b, (utf8 text)[q]? = some b →
        Checked.isNameByte b = false) ∧
      ∀ b, (utf8 text)[byteOffset text i + (utf8 w).length]? = some b →
        Checked.isNameByte b = false := by
  obtain ⟨o, ho, hany⟩ := Checked.byteBefore?_byteOffset hi
  rw [standsAlone, ← hany, ← Checked.getElem?_utf8_any, byteOffset_add_of_prefix hbegins,
    length_utf8, Bool.and_eq_true, Bool.not_eq_true', Bool.not_eq_true', option_any_eq_false_iff,
    option_any_eq_false_iff]
  refine and_congr_left' ?_
  cases hoffset : byteOffset text i with
  | zero =>
    rw [hoffset] at ho
    obtain rfl : none = o := Option.some.inj ho
    simp
  | succ q =>
    have hbyte : (utf8 text)[q]?.map some = some o := by
      rw [← ho, hoffset, Checked.byteBefore?, Checked.sub?_of_le (Nat.le_add_left 1 q)]
      rfl
    obtain ⟨b, hb, rfl⟩ := Option.map_eq_some_iff.mp hbyte
    simp [hb]

/-- The offsets that are asked for are those of the characters with which a word begins. -/
theorem setOf_wordBytesAt (hw : IsWord w) (first : Nat) (hlast : last ≤ text.length) :
    {p | WordBytesAt (utf8 text) (byteOffset text first) (byteOffset text last) (utf8 w) p} =
      byteOffset text '' WordWithin text first last w := by
  ext p
  constructor
  · rintro ⟨hstart, hstop, hoccurs, hbefore, hbehind⟩
    obtain ⟨i, hi, rfl, hbegins⟩ := exists_index_of_prefix hw hoccurs
    have halone := (standsAlone_iff_bytes (Nat.le_of_lt hi) hbegins).mpr ⟨hbefore, hbehind⟩
    have hword := (hasWordAt_iff hw).mp (hasWordAt_iff_begins.mpr ⟨hbegins, halone⟩)
    rw [length_utf8, ← byteOffset_add_of_prefix hbegins] at hstop
    have hlength : i + w.length ≤ text.length := by
      have hdrop := hbegins.length_le
      rw [List.length_drop] at hdrop
      omega
    refine ⟨i, ⟨hword, ?_, ?_⟩, rfl⟩
    · refine Nat.le_of_not_lt fun hlt => ?_
      exact absurd hstart (Nat.not_le.mpr (byteOffset_lt hlt hi))
    · refine Nat.le_of_not_lt fun hlt => ?_
      have hlast' : last < text.length := Nat.lt_of_lt_of_le hlt hlength
      exact absurd hstop (Nat.not_le.mpr (byteOffset_lt hlt hlast'))
  · rintro ⟨i, ⟨hword, hstart, hstop⟩, rfl⟩
    obtain ⟨hbegins, halone⟩ := hasWordAt_iff_begins.mp ((hasWordAt_iff hw).mpr hword)
    have hbeside := (standsAlone_iff_bytes (by omega) hbegins).mp halone
    refine ⟨byteOffset_le text hstart, ?_, ?_, hbeside.1, hbeside.2⟩
    · rw [length_utf8, ← byteOffset_add_of_prefix hbegins]
      exact byteOffset_le text hstop
    · rw [← utf8_drop]
      exact utf8_prefix_iff.mpr hbegins

/-- The least of numbers under a monotone function comes from the least of them. -/
theorem isLeast_image_iff {f : Nat → Nat} (hf : Monotone f) {s : Set Nat} :
    IsLeast (f '' s) p ↔ ∃ i, IsLeast s i ∧ f i = p := by
  constructor
  · intro h
    obtain ⟨i, hi, -⟩ := h.1
    have hleast : IsLeast s (sInf s) := ⟨Nat.sInf_mem ⟨i, hi⟩, fun j hj => Nat.sInf_le hj⟩
    exact ⟨sInf s, hleast, (hf.map_isLeast hleast).unique h⟩
  · rintro ⟨i, hi, rfl⟩
    exact hf.map_isLeast hi

theorem monotone_byteOffset (cs : List Char) : Monotone (byteOffset cs) := fun _ _ h =>
  byteOffset_le cs h

theorem IsBoundary.exists_index {offset : Nat} (h : IsBoundary text offset) :
    ∃ i, i ≤ text.length ∧ byteOffset text i = offset := by
  obtain ⟨i, hi⟩ := Option.isSome_iff_exists.mp (Checked.indexAt?_isSome_iff.mpr h)
  exact ⟨i, Checked.indexAt?_eq_some_iff.mp hi⟩

/-- **A search finds the leftmost standalone word** between two character boundaries: the least
offset where the word stands alone in the whole text, and nothing only if there is none. What the
search by characters finds is at that offset, the places that a search goes through are all such
offsets, and the search by bytes gets nowhere out of range. -/
theorem findWord?_leftmost {start stop : Nat} (hw : IsWord w) (hle : start ≤ stop)
    (hstart : IsBoundary text start) (hstop : IsBoundary text stop) :
    ∃ found, Checked.findWord? text start stop w = some found ∧
      (∀ first last, first ≤ last → last ≤ text.length → byteOffset text first = start →
        byteOffset text last = stop →
          (findWord? text first last w).map (byteOffset text) = found ∧
          ∀ p, p ∈ (wordIndices text first last w).map (byteOffset text) ↔
            WordBytesAt (utf8 text) start stop (utf8 w) p) ∧
      (∀ p, found = some p ↔ IsLeast {p | WordBytesAt (utf8 text) start stop (utf8 w) p} p) ∧
      (found = none ↔ ∀ p, ¬ WordBytesAt (utf8 text) start stop (utf8 w) p) := by
  obtain ⟨first, hfirst, rfl⟩ := hstart.exists_index
  obtain ⟨last, hlast, rfl⟩ := hstop.exists_index
  have hrange : first ≤ last := by
    refine Nat.le_of_not_lt fun hlt => ?_
    exact absurd hle (Nat.not_le.mpr (byteOffset_lt hlt (by omega)))
  have hset := setOf_wordBytesAt hw first hlast
  refine ⟨_, Checked.findWord?_byteOffset hrange hlast w, ?_, fun p => ?_, ?_⟩
  · intro first' last' hrange' hlast' hsame hsame'
    obtain rfl := byteOffset_inj (by omega) hfirst hsame
    obtain rfl := byteOffset_inj hlast' hlast hsame'
    refine ⟨rfl, fun p => ?_⟩
    rw [List.mem_map]
    show p ∈ byteOffset text '' {i | i ∈ wordIndices text first' last' w} ↔ p ∈ {p | _}
    rw [setOf_mem_wordIndices hw hrange hlast, ← hset]
  · rw [hset, isLeast_image_iff (monotone_byteOffset text), Option.map_eq_some_iff]
    simp only [findWord?_eq_some_iff hw hrange hlast]
  · rw [Option.map_eq_none_iff, findWord?_eq_none_iff hw hrange hlast, ← Set.image_eq_empty, ← hset,
      Set.eq_empty_iff_forall_notMem]
    rfl

/-- The range begins inside of a name, and the character before it shows. The word overlaps with
itself there, and begins another name behind. -/
theorem findWord?_leftmost_overlapping :
    let text := "éaaa aa_ aa".toList
    IsWord "aa".toList ∧ IsBoundary text 3 ∧ IsBoundary text 12 ∧
      Checked.findWord? text 3 12 "aa".toList = some (some 10) ∧
      IsLeast {p | WordBytesAt (utf8 text) 3 12 (utf8 "aa".toList) p} 10 := by
  intro text
  have hword : IsWord "aa".toList := by decide
  have hstart : IsBoundary text 3 := ⟨2, by decide⟩
  have hstop : IsBoundary text 12 := ⟨11, by decide⟩
  have hrun : Checked.findWord? text 3 12 "aa".toList = some (some 10) := by decide
  obtain ⟨found, hfound, -, hleast, -⟩ := findWord?_leftmost hword (by decide) hstart hstop
  rw [hrun] at hfound
  exact ⟨hword, hstart, hstop, hrun, (hleast 10).mp (Option.some.inj hfound).symm⟩

end Text

end PacketGen
