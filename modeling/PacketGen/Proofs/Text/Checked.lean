import PacketGen.Proofs.Comment.Blanking
import PacketGen.Proofs.Text.WordRestart

/-!
# Places by byte offsets, checked

The searches go by the indices of characters, so they cannot help to stay between characters. Here
they go by byte offsets, and everything that can go wrong with these is checked: `slice?` asks that
a range is in order and that both ends are character boundaries (`slice?_isSome_iff`), a byte is
looked up where there may be none, and a subtraction may fall below zero. `none` is what then
comes of it.

Nothing of that happens when the offsets are those of characters, and then the searches by offsets
find what the searches by characters find (`findWord?_byteOffset`, `skipBlanks?_byteOffset`).

A loop of searches, each behind the place that the one before has found, ends for every word but
the empty one, and with the first of the places that is wanted (`searchWords?_eq`).
-/

namespace PacketGen

namespace Text

variable {text cs w : List Char} {c : Char} {b : UInt8} {i j k first last : Nat}

/-! ## Offsets -/

theorem byteOffset_lt (hij : i < j) (hi : i < cs.length) : byteOffset cs i < byteOffset cs j := by
  have hsucc := byteOffset_succ (List.getElem?_eq_getElem hi)
  have hle : byteOffset cs (i + 1) ≤ byteOffset cs j := byteOffset_le cs hij
  have hpos := Char.utf8Size_pos cs[i]
  omega

theorem byteOffset_inj (hi : i ≤ cs.length) (hj : j ≤ cs.length)
    (h : byteOffset cs i = byteOffset cs j) : i = j := by
  rcases Nat.lt_trichotomy i j with hlt | heq | hlt
  · exact absurd h (Nat.ne_of_lt (byteOffset_lt hlt (by omega)))
  · exact heq
  · exact absurd h.symm (Nat.ne_of_lt (byteOffset_lt hlt (by omega)))

theorem byteOffset_length (cs : List Char) : byteOffset cs cs.length = byteLength cs := by
  rw [byteOffset, List.take_length]

theorem byteLength_drop (cs : List Char) (i : Nat) :
    byteOffset cs i + byteLength (cs.drop i) = byteLength cs := by
  rw [byteOffset, ← byteLength_append, List.take_append_drop]

/-- Behind a word at a place are as many bytes as the word has. -/
theorem byteOffset_add_of_prefix (h : w <+: cs.drop i) :
    byteOffset cs (i + w.length) = byteOffset cs i + byteLength w := by
  rw [byteOffset_add]
  exact congrArg (_ + byteLength ·) (List.prefix_iff_eq_take.mp h).symm

theorem byteOffset_slice (hk : first + k ≤ last) :
    byteOffset cs first + byteOffset (slice cs first last) k = byteOffset cs (first + k) := by
  have hpart : (slice cs first last).take k = (cs.drop first).take k := by
    rw [slice_eq, List.take_take, Nat.min_eq_left (by omega)]
  rw [byteOffset_add]
  exact congrArg (_ + byteLength ·) hpart

/-- The bytes of a character are where it begins, and up to its size behind that. -/
theorem exists_byte (hc : cs[i]? = some c) (hk : k < c.utf8Size) :
    ∃ b ∈ String.utf8EncodeChar c, (utf8 cs)[byteOffset cs i + k]? = some b := by
  obtain ⟨hi, rfl⟩ := List.getElem?_eq_some_iff.mp hc
  have hlength : k < (String.utf8EncodeChar cs[i]).length := by
    rw [String.length_utf8EncodeChar]
    exact hk
  refine ⟨(String.utf8EncodeChar cs[i])[k], List.getElem_mem hlength, ?_⟩
  rw [← List.getElem?_drop, ← utf8_drop, List.drop_eq_getElem_cons hi, utf8_cons,
    List.getElem?_append_left hlength, List.getElem?_eq_getElem hlength]

/-- Where a character begins is its first byte, and behind the last one is none. -/
theorem firstByte_cases (cs : List Char) (i : Nat) :
    (cs[i]? = none ∧ (utf8 cs)[byteOffset cs i]? = none) ∨
      ∃ c, cs[i]? = some c ∧
        ∃ b ∈ String.utf8EncodeChar c, (utf8 cs)[byteOffset cs i]? = some b := by
  cases hc : cs[i]? with
  | none =>
    have hle := List.getElem?_eq_none_iff.mp hc
    refine Or.inl ⟨rfl, List.getElem?_eq_none ?_⟩
    rw [length_utf8, byteOffset, List.take_of_length_le hle]
  | some c => exact Or.inr ⟨c, rfl, exists_byte hc (Char.utf8Size_pos c)⟩

/-- A byte that is a character of its own tells that this character is there. -/
theorem getElem?_utf8_iff (hc : String.utf8EncodeChar c = [b]) (hb : b.toNat < 0x80) :
    (utf8 cs)[byteOffset cs i]? = some b ↔ cs[i]? = some c := by
  rcases firstByte_cases cs i with ⟨hnone, hbyte⟩ | ⟨d, hd, b', hb', hbyte⟩
  · rw [hnone, hbyte]
    exact ⟨nofun, nofun⟩
  · rw [hd, hbyte, Option.some_inj, Option.some_inj]
    constructor
    · rintro rfl
      exact (ascii_mem_encodeChar hc hb).mp hb'
    · rintro rfl
      rw [hc, List.mem_singleton] at hb'
      exact hb'

/-- A byte that is a character of its own is at a boundary. -/
theorem exists_char_of_byte (hb : b.toNat < 0x80) (h : (utf8 cs)[k]? = some b) :
    ∃ i c, cs[i]? = some c ∧ byteOffset cs i = k ∧ String.utf8EncodeChar c = [b] := by
  induction cs generalizing k with
  | nil => cases h
  | cons c cs ih =>
    rw [utf8_cons] at h
    rcases Nat.lt_or_ge k c.utf8Size with hlt | hge
    · -- Only a character of one byte has a byte below `80`.
      rw [List.getElem?_append_left (by rwa [String.length_utf8EncodeChar])] at h
      rcases encodeChar_cases c with ⟨-, hone⟩ | ⟨-, hmany⟩
      · have hsize : c.utf8Size = 1 := by
          rw [← String.length_utf8EncodeChar, hone]
          rfl
        obtain rfl : k = 0 := by omega
        rw [hone] at h
        refine ⟨0, c, rfl, rfl, ?_⟩
        rw [hone, ← Option.some.inj h]
      · exact absurd (hmany b (List.mem_of_getElem? h)) (Nat.not_le.mpr hb)
    · rw [List.getElem?_append_right (by rwa [String.length_utf8EncodeChar]),
        String.length_utf8EncodeChar] at h
      obtain ⟨i, d, hd, hoffset, hbyte⟩ := ih h
      refine ⟨i + 1, d, hd, ?_, hbyte⟩
      rw [byteOffset_cons_succ, hoffset, Nat.sub_add_cancel hge]

end Text

namespace Checked

open Text

/-! ## What can go wrong -/

/-- The index of the character at a byte offset; `none` inside a character and behind the text. -/
def indexAt? : List Char → Nat → Option Nat
  | _, 0 => some 0
  | [], _ + 1 => none
  | c :: cs, n + 1 =>
    if c.utf8Size ≤ n + 1 then (indexAt? cs (n + 1 - c.utf8Size)).map (· + 1) else none

/-- The part of a text between two byte offsets; `none` unless they are in order, and both are
character boundaries. -/
def slice? (text : List Char) (start stop : Nat) : Option (List Char) := do
  let first ← indexAt? text start
  let last ← indexAt? text stop
  if start ≤ stop then some (slice text first last) else none

/-- The bytes between two offsets; `none` unless they are in order and there are so many bytes. -/
def bytes? (bs : List UInt8) (start stop : Nat) : Option (List UInt8) :=
  if start ≤ stop ∧ stop ≤ bs.length then some ((bs.take stop).drop start) else none

/-- The difference of two numbers; `none` below zero. -/
def sub? (m n : Nat) : Option Nat := if n ≤ m then some (m - n) else none

variable {text cs w : List Char} {c : Char} {b : UInt8} {i j k first last : Nat}

theorem indexAt?_eq_some_iff : indexAt? cs k = some i ↔ i ≤ cs.length ∧ byteOffset cs i = k := by
  fun_induction indexAt? cs k generalizing i with
  | case1 cs =>
    constructor
    · intro h
      cases h
      exact ⟨Nat.zero_le _, rfl⟩
    · rintro ⟨hi, hoffset⟩
      rw [byteOffset_inj hi (Nat.zero_le _) hoffset]
  | case2 n =>
    refine ⟨nofun, ?_⟩
    rintro ⟨-, hoffset⟩
    simp [byteOffset] at hoffset
  | case3 c cs n hle ih =>
    rw [Option.map_eq_some_iff]
    constructor
    · rintro ⟨i, hi, rfl⟩
      obtain ⟨hi, hoffset⟩ := ih.mp hi
      refine ⟨Nat.succ_le_succ hi, ?_⟩
      rw [byteOffset_cons_succ, hoffset, Nat.sub_add_cancel hle]
    · rintro ⟨hi, hoffset⟩
      cases i with
      | zero => cases hoffset
      | succ i =>
        rw [byteOffset_cons_succ] at hoffset
        exact ⟨i, ih.mpr ⟨Nat.le_of_succ_le_succ hi, by omega⟩, rfl⟩
  | case4 c cs n hlt =>
    refine ⟨nofun, ?_⟩
    rintro ⟨-, hoffset⟩
    cases i with
    | zero => cases hoffset
    | succ i =>
      rw [byteOffset_cons_succ] at hoffset
      omega

theorem indexAt?_byteOffset (hi : i ≤ cs.length) : indexAt? cs (byteOffset cs i) = some i :=
  indexAt?_eq_some_iff.mpr ⟨hi, rfl⟩

theorem indexAt?_isSome_iff : (indexAt? cs k).isSome = true ↔ IsBoundary cs k := by
  rw [Option.isSome_iff_exists]
  constructor
  · rintro ⟨i, hi⟩
    exact ⟨i, (indexAt?_eq_some_iff.mp hi).2⟩
  · rintro ⟨i, rfl⟩
    rcases Nat.le_total i cs.length with hle | hle
    · exact ⟨i, indexAt?_byteOffset hle⟩
    · refine ⟨cs.length, indexAt?_eq_some_iff.mpr ⟨Nat.le_refl _, ?_⟩⟩
      rw [byteOffset, byteOffset, List.take_length, List.take_of_length_le hle]

/-- **A slice is there just when its ends are in order and are character boundaries.** -/
theorem slice?_isSome_iff {start stop : Nat} : (slice? text start stop).isSome = true ↔
    start ≤ stop ∧ IsBoundary text start ∧ IsBoundary text stop := by
  rw [← indexAt?_isSome_iff, ← indexAt?_isSome_iff, slice?]
  cases hstart : indexAt? text start with
  | none => simp
  | some first =>
    cases hstop : indexAt? text stop with
    | none => simp
    | some last => simp

theorem slice?_byteOffset (hij : i ≤ j) (hj : j ≤ text.length) :
    slice? text (byteOffset text i) (byteOffset text j) = some (slice text i j) := by
  rw [slice?, indexAt?_byteOffset (Nat.le_trans hij hj), indexAt?_byteOffset hj]
  exact if_pos (byteOffset_le text hij)

/-- What is behind a place is a slice up to the length in bytes. -/
theorem slice?_drop (hi : i ≤ text.length) :
    slice? text (byteOffset text i) (byteLength text) = some (text.drop i) := by
  rw [← byteOffset_length, slice?_byteOffset hi (Nat.le_refl _), slice, List.take_length]

theorem sub?_of_le {m n : Nat} (h : n ≤ m) : sub? m n = some (m - n) := if_pos h

/-! ## Words -/

/-- ASCII letters, digits and the underscore, as bytes. -/
def isNameByte (b : UInt8) : Bool :=
  (0x30 ≤ b && b ≤ 0x39) || (0x41 ≤ b && b ≤ 0x5A) || (0x61 ≤ b && b ≤ 0x7A) || b == 0x5F

/-- Any byte of a character tells whether it is one of a name. -/
theorem isNameByte_of_mem (hb : b ∈ String.utf8EncodeChar c) : isNameByte b = isNameChar c := by
  rcases encodeChar_cases c with ⟨hlt, hone⟩ | ⟨hle, hmany⟩
  · have hascii : ∀ n < 128, isNameByte (.ofNat n) = isNameChar (.ofNat n) := by decide
    rw [hone, List.mem_singleton] at hb
    have hchar := hascii c.toNat hlt
    rwa [← hb, Char.ofNat_toNat] at hchar
  · have hchar : isNameChar c = false := by
      refine Bool.eq_false_iff.mpr fun h => ?_
      have hlt : c.toNat < 128 := of_isNameChar (p := fun c => c.toNat < 128) (by decide) h
      exact absurd hlt (Nat.not_lt.mpr hle)
    have hbyte : isNameByte b = false := by
      have hhigh : ∀ n < 0x80, isNameByte (.ofNat (0x80 + n)) = false := by decide
      have hge := hmany b hb
      have hlt := b.toNat_lt
      have hbyte := hhigh (b.toNat - 0x80) (by omega)
      rwa [Nat.add_sub_cancel' hge, UInt8.ofNat_toNat] at hbyte
    rw [hchar, hbyte]

/-- The byte before an offset, unless that is the start. It has to be there. -/
def byteBefore? (text : List Char) (start : Nat) : Option (Option UInt8) :=
  match sub? start 1 with
  | none => some none
  | some index => ((utf8 text)[index]?).map some

/-- Whether the bytes on either side of a word belong to no name. -/
def standsAlone? (text : List Char) (word : List Char) (start : Nat) : Option Bool := do
  let before ← byteBefore? text start
  let behind := (utf8 text)[start + byteLength word]?
  return !before.any isNameByte && !behind.any isNameByte

/-- The byte offsets of the occurrences of a pattern that do not overlap. -/
def matchOffsets (pattern cs : List Char) : List Nat :=
  (occurrencesFrom pattern 0 0 cs).map (byteOffset cs)

/-- The first place between two byte offsets where a word stands alone. -/
def findWord? (text : List Char) (start stop : Nat) (word : List Char) : Option (Option Nat) := do
  let part ← slice? text start stop
  ((matchOffsets word part).map (start + ·)).findM? (standsAlone? text word)

/-- The byte offset behind the blanks at another one. -/
def skipBlanks? (text : List Char) (offset : Nat) : Option Nat := do
  let rest ← slice? text offset (byteLength text)
  let ahead ← sub? (byteLength text) offset
  let blanks ← sub? ahead (byteLength (trimStart rest))
  return offset + blanks

theorem byteBefore?_byteOffset (hi : i ≤ text.length) :
    ∃ o, byteBefore? text (byteOffset text i) = some o ∧
      o.any isNameByte = (text.take i).getLast?.any isNameChar := by
  cases i with
  | zero => exact ⟨none, rfl, rfl⟩
  | succ i =>
    have hc := List.getElem?_eq_getElem (Nat.lt_of_succ_le hi)
    have hsize := Char.utf8Size_pos text[i]
    obtain ⟨b, hb, hbyte⟩ := exists_byte hc (Nat.sub_lt hsize Nat.one_pos)
    have hindex : byteOffset text i + text[i].utf8Size - 1 =
        byteOffset text i + (text[i].utf8Size - 1) := by omega
    refine ⟨some b, ?_, ?_⟩
    · rw [byteBefore?, byteOffset_succ hc, sub?_of_le (by omega), hindex]
      dsimp only
      rw [hbyte]
      rfl
    · rw [List.getLast?_take, if_neg (Nat.succ_ne_zero i), Nat.add_sub_cancel, hc]
      exact isNameByte_of_mem hb

theorem getElem?_utf8_any (text : List Char) (i : Nat) :
    (utf8 text)[byteOffset text i]?.any isNameByte = text[i]?.any isNameChar := by
  rcases firstByte_cases text i with ⟨hnone, hbyte⟩ | ⟨c, hc, b, hb, hbyte⟩
  · rw [hnone, hbyte]
    rfl
  · rw [hc, hbyte]
    exact isNameByte_of_mem hb

theorem standsAlone?_byteOffset (hi : i ≤ text.length) (hw : w <+: text.drop i) :
    standsAlone? text w (byteOffset text i) = some (standsAlone text i w.length) := by
  obtain ⟨o, ho, hany⟩ := byteBefore?_byteOffset hi
  rw [standsAlone?, ho, ← byteOffset_add_of_prefix hw, standsAlone, ← hany, ← getElem?_utf8_any]
  rfl

theorem findM?_map {f : Nat → Nat} {p : Nat → Option Bool} {q : Nat → Bool} {l : List Nat}
    (h : ∀ x ∈ l, p (f x) = some (q x)) : (l.map f).findM? p = some ((l.find? q).map f) := by
  induction l with
  | nil => rfl
  | cons x l ih =>
    have hx := h x List.mem_cons_self
    have hl := ih fun y hy => h y (List.mem_cons_of_mem x hy)
    rw [List.map_cons, List.findM?, hx, List.find?_cons]
    cases q x with
    | true => rfl
    | false => exact hl

/-- **A word is found at the offset of the character at which it is found.** -/
theorem findWord?_byteOffset (hle : first ≤ last) (hlast : last ≤ text.length) (w : List Char) :
    findWord? text (byteOffset text first) (byteOffset text last) w =
      some ((Text.findWord? text first last w).map (byteOffset text)) := by
  have hshift : occurrencesFrom w 0 first (slice text first last) =
      (occurrencesFrom w 0 0 (slice text first last)).map (first + ·) :=
    occurrencesFrom_add w 0 first 0 (slice text first last)
  have hmem {k : Nat} (hk : k ∈ occurrencesFrom w 0 0 (slice text first last)) :
      first + k ≤ last := by
    have hoccurs : first + k ∈ occurrencesFrom w 0 first (slice text first last) := by
      rw [hshift]
      exact List.mem_map_of_mem hk
    obtain ⟨-, hle', -⟩ := occurs_of_mem hle hlast hoccurs
    omega
  have hoffsets : (matchOffsets w (slice text first last)).map (byteOffset text first + ·) =
      (occurrencesFrom w 0 first (slice text first last)).map (byteOffset text) := by
    rw [hshift, matchOffsets, List.map_map, List.map_map]
    exact List.map_congr_left fun k hk => byteOffset_slice (hmem hk)
  rw [findWord?, slice?_byteOffset hle hlast, findWord?_eq]
  refine (congrArg (List.findM? (standsAlone? text w)) hoffsets).trans (findM?_map ?_)
  intro k hk
  obtain ⟨-, hle', hprefix⟩ := occurs_of_mem hle hlast hk
  exact standsAlone?_byteOffset (by omega) hprefix

theorem skipBlanks_le (hi : i ≤ text.length) : skipBlanks text i ≤ text.length := by
  have hblanks := (List.takeWhile_prefix (l := text.drop i) isBlank).length_le
  rw [List.length_drop] at hblanks
  rw [skipBlanks]
  omega

theorem skipBlanks?_byteOffset (hi : i ≤ text.length) :
    skipBlanks? text (byteOffset text i) = some (byteOffset text (skipBlanks text i)) := by
  have hahead := byteLength_drop text i
  have hrest : byteLength ((text.drop i).takeWhile isBlank) + byteLength (trimStart (text.drop i)) =
      byteLength (text.drop i) := by
    rw [trimStart, ← byteLength_append, List.takeWhile_append_dropWhile]
  have hskip : byteOffset text (skipBlanks text i) =
      byteOffset text i + byteLength ((text.drop i).takeWhile isBlank) :=
    byteOffset_add_of_prefix (List.takeWhile_prefix isBlank)
  rw [skipBlanks?, slice?_drop hi, hskip]
  dsimp only [Option.bind_eq_bind, Option.bind_some]
  rw [sub?_of_le (by omega), Option.bind_some, sub?_of_le (by omega), Option.bind_some]
  refine congrArg some ?_
  omega

/-! ## Searches in a row -/

/-- The first result that a test has for a place where a word stands alone. Each search begins
behind the place before; `none` when a test fails, and when there are not rounds enough. -/
def searchWords? {α : Type} (text word : List Char) (stop : Nat)
    (test : Nat → Option (Option α)) : (rounds start : Nat) → Option (Option α)
  | 0, _ => none
  | rounds + 1, start => do
    match ← findWord? text start stop word with
    | none => return none
    | some place =>
      match ← test place with
      | some found => return some found
      | none => searchWords? text word stop test rounds (place + byteLength word)

/-- **The searches end with the first place that has a result.** Each round goes on by the word at
least, and that is not empty. -/
theorem searchWords?_eq {α : Type} {test : Nat → Option (Option α)} {result : Nat → Option α}
    (hw : w ≠ []) (hi : i ≤ last) (hlast : last ≤ text.length) {rounds : Nat}
    (hrounds : last - i < rounds) (htest : ∀ k, i ≤ k → k + w.length ≤ last →
      w <+: text.drop k → test (byteOffset text k) = some (result k)) :
    searchWords? text w (byteOffset text last) test rounds (byteOffset text i) =
      some ((wordIndices text i last w).findSome? result) := by
  induction rounds generalizing i with
  | zero => exact absurd hrounds (Nat.not_lt_zero _)
  | succ rounds ih =>
    rw [searchWords?, findWord?_byteOffset hi hlast, Text.findWord?]
    cases hindices : wordIndices text i last w with
    | nil => rfl
    | cons k ks =>
      obtain ⟨hik, hk, hprefix⟩ := mem_of_wordIndices_cons hi hlast hindices
      rw [List.findSome?_cons, List.head?_cons, Option.map_some]
      dsimp only [Option.bind_eq_bind, Option.bind_some]
      rw [htest k hik hk hprefix, Option.bind_some]
      cases result k with
      | some found => rfl
      | none =>
        have hlength : 0 < w.length := List.length_pos_iff.mpr hw
        dsimp only
        rw [← byteOffset_add_of_prefix hprefix, wordIndices_tail hw hi hlast hindices]
        exact ih hk (by omega) fun k' hk' => htest k' (by omega)

end Checked

end PacketGen
