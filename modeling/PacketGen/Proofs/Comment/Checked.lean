import PacketGen.Proofs.Text.Checked

/-!
# Blanking comments, checked

The loop that blanks the comments of a source goes by bytes, and through a character of several
bytes one at a time. `blankComments?` is that loop with all its slices checked, and with a bound on
its rounds. It slices the text itself only behind the opener of a block comment; the two bytes of
that are characters of their own, so the slice begins at a character (`commentStop?_eq`). Each round
goes on by a byte or by a comment, which has one at least (`commentLength?_bounds`). So the loop
ends, and what it has put together is the blanked text.
-/

namespace PacketGen

open Text Comment

/-! ## The lengths of comments -/

namespace Comment

variable {bs : List UInt8} {n : Nat}

theorem blockLength_le (bs : List UInt8) : blockLength bs ≤ bs.length := by
  fun_induction blockLength bs with
  | case1 => exact Nat.le_refl 0
  | case2 b bs hcloses => exact hcloses.length_le
  | case3 b bs _ ih => exact Nat.succ_le_succ ih

/-- A comment has a byte at least, and no more than there are. -/
theorem commentLength?_bounds (h : commentLength? bs = some n) : 0 < n ∧ n ≤ bs.length := by
  unfold commentLength? at h
  split at h
  · next hopens =>
    cases h
    refine ⟨?_, (List.takeWhile_prefix _).length_le⟩
    rcases hopens with ⟨after, rfl⟩ | ⟨after, rfl⟩
    · exact Nat.succ_pos _
    · exact Nat.succ_pos _
  · split at h
    · next hopens =>
      cases h
      have hle := hopens.length_le
      have hblock := blockLength_le (bs.drop 2)
      rw [List.length_drop] at hblock
      simp only [List.length_cons, List.length_nil] at hle
      omega
    · cases h

/-- The bytes of a comment are blanked, and then what is behind it. -/
theorem blankFrom_take (hn : n ≤ bs.length) :
    blankFrom n bs = (bs.take n).map (blankByte true) ++ blankFrom 0 (bs.drop n) := by
  induction bs generalizing n with
  | nil =>
    obtain rfl : n = 0 := Nat.le_zero.mp hn
    rfl
  | cons b bs ih =>
    cases n with
    | zero => rfl
    | succ n =>
      rw [blankFrom_succ, ih (Nat.le_of_succ_le_succ hn)]
      rfl

end Comment

namespace Checked

variable {source cs : List Char} {index : Nat}

/-! ## The end of a comment -/

/-- The byte offset of the first occurrence of a pattern. -/
def findOffset? (pattern cs : List Char) : Option Nat := (matchOffsets pattern cs).head?

/-- The end of the comment that the bytes at an offset open with, if they do. -/
def commentStop? (source : List Char) (index : Nat) : Option (Option Nat) := do
  let size := (utf8 source).length
  let rest ← bytes? (utf8 source) index size
  if [0x2F, 0x2F] <+: rest ∨ [0x23] <+: rest then
    return some ((rest.findIdx? (· = 0x0A)).elim size (index + ·))
  else if [0x2F, 0x2A] <+: rest then
    let behind ← slice? source (index + 2) (byteLength source)
    return some ((findOffset? ['*', '/'] behind).elim size (index + 2 + · + 2))
  else
    return none

theorem elim_findIdx?_feed (bs : List UInt8) (n : Nat) :
    (bs.findIdx? (· = 0x0A)).elim (n + bs.length) (n + ·) = n + lineLength bs := by
  induction bs generalizing n with
  | nil => rfl
  | cons b bs ih =>
    by_cases hb : b = 0x0A
    · subst hb
      rfl
    · have hlength : lineLength (b :: bs) = lineLength bs + 1 := by
        rw [lineLength, List.takeWhile_cons, if_pos (by simpa using hb), List.length_cons]
        rfl
      have hrest := ih (n + 1)
      rw [List.findIdx?_cons, if_neg (by simpa using hb), hlength, Nat.add_comm _ 1,
        ← Nat.add_assoc, ← hrest, List.length_cons]
      cases bs.findIdx? (· = 0x0A) with
      | none => exact Nat.add_right_comm n bs.length 1
      | some k => exact Nat.add_right_comm n k 1

theorem findOffset?_cons {pattern : List Char} {c : Char} (h : ¬ pattern <+: c :: cs) :
    findOffset? pattern (c :: cs) = (findOffset? pattern cs).map (c.utf8Size + ·) := by
  have hprefix : pattern.isPrefixOf (c :: cs) ≠ true :=
    fun hc => h (List.isPrefixOf_iff_prefix.mp hc)
  have hshift := occurrencesFrom_add pattern 0 1 0 cs
  rw [findOffset?, matchOffsets, occurrencesFrom, if_neg hprefix, Nat.zero_add, ← Nat.add_zero 1,
    hshift, List.map_map, List.head?_map, findOffset?, matchOffsets, List.head?_map, Option.map_map]
  refine congrArg (Option.map · _) (funext fun k => ?_)
  show byteOffset (c :: cs) (1 + k) = c.utf8Size + byteOffset cs k
  rw [Nat.add_comm 1, byteOffset_cons_succ, Nat.add_comm]

/-- A block comment ends behind the first closer. -/
theorem blockLength_utf8 (cs : List Char) : blockLength (utf8 cs) =
    (findOffset? ['*', '/'] cs).elim (byteLength cs) (· + 2) := by
  induction cs with
  | nil => rfl
  | cons c cs ih =>
    by_cases hcloses : ['*', '/'] <+: c :: cs
    · obtain ⟨rfl, ds, hds⟩ := List.cons_prefix_cons.mp hcloses
      obtain rfl : '/' :: ds = cs := hds
      rfl
    · rw [blockLength_cons hcloses, ih, findOffset?_cons hcloses]
      cases findOffset? ['*', '/'] cs with
      | none => rfl
      | some n => exact (Nat.add_assoc _ _ _).symm

/-- The two bytes that open a block comment are characters. -/
theorem exists_block (h : [0x2F, 0x2A] <+: (utf8 source).drop index) :
    ∃ i, ['/', '*'] <+: source.drop i ∧ byteOffset source i = index := by
  obtain ⟨after, hafter⟩ := h
  have hbyte : (utf8 source)[index]? = some 0x2F := by
    rw [← List.head?_drop, ← hafter]
    rfl
  obtain ⟨i, -, -, rfl, -⟩ := exists_char_of_byte (by decide) hbyte
  refine ⟨i, utf8_prefix_iff.mp ⟨after, ?_⟩, rfl⟩
  rw [utf8_drop, ← hafter]
  rfl

/-- **The end of a comment is found as far on as the comment is long.** -/
theorem commentStop?_eq (hindex : index ≤ (utf8 source).length) : commentStop? source index =
    some ((commentLength? ((utf8 source).drop index)).map (index + ·)) := by
  have hrest : bytes? (utf8 source) index (utf8 source).length =
      some ((utf8 source).drop index) := by
    rw [bytes?, if_pos ⟨hindex, Nat.le_refl _⟩, List.take_length]
  have hsize : (utf8 source).length = index + ((utf8 source).drop index).length := by
    rw [List.length_drop, Nat.add_sub_cancel' hindex]
  rw [commentStop?, hrest]
  dsimp only [Option.bind_eq_bind, Option.bind_some]
  unfold commentLength?
  split
  · rw [hsize, elim_findIdx?_feed]
    rfl
  · split
    · next hopens =>
      obtain ⟨i, hi, rfl⟩ := exists_block hopens
      have hoffset : byteOffset source (i + 2) = byteOffset source i + 2 :=
        byteOffset_add_of_prefix hi
      have hle : i + 2 ≤ source.length := by
        have hlength := hi.length_le
        simp only [List.length_cons, List.length_nil, List.length_drop] at hlength
        omega
      have hbehind := byteLength_drop source (i + 2)
      rw [← hoffset, slice?_drop hle, List.drop_drop, ← hoffset, ← utf8_drop, blockLength_utf8,
        length_utf8, ← hbehind]
      dsimp only [Option.bind_some]
      cases findOffset? ['*', '/'] (source.drop (i + 2)) with
      | none =>
        refine congrArg (some <| some ·) ?_
        rw [hoffset]
        exact Nat.add_assoc _ _ _
      | some n =>
        refine congrArg (some <| some ·) ?_
        rw [hoffset]
        dsimp only [Option.elim_some]
        omega
    · rfl

/-! ## The loop -/

def blankBytes? (source : List Char) : (rounds index : Nat) → (out : List UInt8) →
    Option (List UInt8)
  | 0, _, _ => none
  | rounds + 1, index, out =>
    if index < (utf8 source).length then do
      match ← commentStop? source index with
      | none =>
        let b ← (utf8 source)[index]?
        blankBytes? source rounds (index + 1) (out ++ [b])
      | some stop =>
        let comment ← bytes? (utf8 source) index stop
        blankBytes? source rounds stop
          (out ++ comment.map fun b => if b = 0x0A then 0x0A else 0x20)
    else some out

/-- The text with its comments blanked out. -/
def blankComments? (source : List Char) : Option (List Char) :=
  (blankBytes? source (byteLength source + 1) 0 []).map fun out => (decodeReplacing out).toList

theorem blankByte_true : (fun b : UInt8 => if b = 0x0A then 0x0A else 0x20) = blankByte true := by
  funext b
  by_cases hb : b = 0x0A
  · subst hb
    rfl
  · rw [if_neg hb, blankByte, if_pos (by simpa using hb)]

theorem blankBytes?_eq {rounds : Nat} (hindex : index ≤ (utf8 source).length)
    (hrounds : (utf8 source).length - index < rounds) (out : List UInt8) :
    blankBytes? source rounds index out = some (out ++ blankFrom 0 ((utf8 source).drop index)) := by
  induction rounds generalizing index out with
  | zero => exact absurd hrounds (Nat.not_lt_zero _)
  | succ rounds ih =>
    rw [blankBytes?]
    split
    · next hlt =>
      rw [commentStop?_eq hindex]
      dsimp only [Option.bind_eq_bind, Option.bind_some]
      cases hlength : commentLength? ((utf8 source).drop index) with
      | none =>
        have hdrop := List.drop_eq_getElem_cons hlt
        rw [hdrop] at hlength ⊢
        dsimp only [Option.map_none]
        rw [List.getElem?_eq_getElem hlt, Option.bind_some, ih (by omega) (by omega),
          blankFrom_of_none hlength, List.append_assoc]
        rfl
      | some n =>
        obtain ⟨hpos, hn⟩ := commentLength?_bounds hlength
        have hbound := List.length_drop ▸ hn
        have hcomment : bytes? (utf8 source) index (index + n) =
            some (((utf8 source).drop index).take n) := by
          rw [bytes?, if_pos ⟨Nat.le_add_right _ _, by omega⟩, List.drop_take,
            Nat.add_sub_cancel_left]
        obtain ⟨m, rfl⟩ := Nat.exists_eq_add_one.mpr hpos
        dsimp only [Option.map_some]
        rw [hcomment, Option.bind_some, ih (by omega) (by omega), blankFrom_of_some hlength,
          blankFrom_take hn, List.drop_drop, List.append_assoc, blankByte_true]
    · next hge =>
      rw [List.drop_of_length_le (Nat.le_of_not_lt hge), blankFrom_nil, List.append_nil]

theorem blankComments?_eq (source : List Char) :
    blankComments? source = some (blankComments source) := by
  have hblank : utf8 (blankComments source) = blankFrom 0 (utf8 source) := utf8_blankComments source
  have hrounds : (utf8 source).length - 0 < byteLength source + 1 := by
    rw [length_utf8]
    exact Nat.lt_succ_self _
  rw [blankComments?, blankBytes?_eq (Nat.zero_le _) hrounds, List.nil_append, List.drop_zero,
    ← hblank, Option.map_some, decodeReplacing_utf8, String.toList_ofList]

end Checked

end PacketGen
