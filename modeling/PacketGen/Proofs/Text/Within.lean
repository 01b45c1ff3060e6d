import PacketGen.Proofs.Brackets.FirstBlock
import PacketGen.Proofs.PacketClass.Search
import PacketGen.Proofs.Text.Encoding
import PacketGen.Proofs.Text.WordPlace

/-!
# A text within a text

What is at a place of a text is there still when the text is a part of another, `front.length`
places further on: a character, a piece of the text, a pair of brackets. Of words that holds as long
as none goes on over the two ends, and of blanks as long as they do not reach them. So `front` must
not end in a name, and the text ends in a closing brace, where neither goes on.
-/

namespace PacketGen

/-! ## Pieces and brackets -/

section

variable {α : Type} {front text behind : List α} {i j : Nat}

theorem Text.take_within (hi : i ≤ text.length) :
    (front ++ text ++ behind).take (front.length + i) = front ++ text.take i := by
  rw [List.append_assoc, List.take_length_add_append, List.take_append_of_le_length hi]

theorem Text.getElem?_within (hi : i < text.length) :
    (front ++ text ++ behind)[front.length + i]? = text[i]? := by
  rw [List.append_assoc, List.getElem?_append_right (Nat.le_add_right _ _),
    Nat.add_sub_cancel_left, List.getElem?_append_left hi]

theorem Text.getElem?_within_of_some {x : α} (h : text[i]? = some x) :
    (front ++ text ++ behind)[front.length + i]? = some x := by
  obtain ⟨hi, -⟩ := List.getElem?_eq_some_iff.mp h
  rw [getElem?_within hi, h]

theorem Text.extract_within (hj : j ≤ text.length) :
    (front ++ text ++ behind).extract (front.length + i) (front.length + j) =
      text.extract i j := by
  rw [List.extract_eq_take_drop, ← List.drop_take, List.extract_eq_take_drop, ← List.drop_take,
    take_within hj, List.drop_length_add_append]

namespace Brackets

theorem FirstFrom.within {P : α → Prop} (h : FirstFrom text i P j) :
    FirstFrom (front ++ text ++ behind) (front.length + i) P (front.length + j) := by
  obtain ⟨x, hx, hP⟩ := h.holds
  obtain ⟨hj, -⟩ := List.getElem?_eq_some_iff.mp hx
  refine ⟨Nat.add_le_add_left h.le _, ⟨x, Text.getElem?_within_of_some hx, hP⟩, ?_⟩
  intro k hle hlt y hy
  obtain ⟨k, rfl⟩ := Nat.exists_eq_add_of_le (Nat.le_trans (Nat.le_add_right _ i) hle)
  rw [Text.getElem?_within (by omega)] at hy
  exact h.first k (by omega) (by omega) y hy

theorem Pair.within [DecidableEq α] {b : Brackets α} (h : b.Pair text i j) :
    b.Pair (front ++ text ++ behind) (front.length + i) (front.length + j) := by
  obtain ⟨hj, -⟩ := List.getElem?_eq_some_iff.mp h.closing
  have hextract : (front ++ text ++ behind).extract (front.length + i) (front.length + j + 1) =
      text.extract i (j + 1) := Text.extract_within hj
  refine ⟨Text.getElem?_within_of_some h.opening, Nat.add_lt_add_left h.lt _,
    Text.getElem?_within_of_some h.closing, ?_, ?_⟩
  · rw [hextract]
    exact h.counts
  · rw [hextract]
    exact h.deeper

end Brackets

end

namespace Text

variable {front text behind w : List Char} {i j k : Nat}

theorem slice_within (hj : j ≤ text.length) :
    slice (front ++ text ++ behind) (front.length + i) (front.length + j) = slice text i j := by
  rw [slice, slice, take_within hj, List.drop_length_add_append]

theorem byteOffset_within (hi : i ≤ text.length) :
    byteOffset (front ++ text ++ behind) (front.length + i) =
      byteLength front + byteOffset text i := by
  rw [byteOffset, take_within hi, byteLength_append, byteOffset]

/-! ## Words and blanks -/

theorem endsName_word (cs : List Char) (hw : IsWord w) : endsName (cs ++ w) = true := by
  rw [endsName_append_of_ne_nil cs hw.1, endsName, List.getLast?_eq_some_getLast hw.1,
    Option.any_some]
  exact hw.2 _ (List.getLast_mem hw.1)

theorem WordAt.add_length_le (h : WordAt text i w) : i + w.length ≤ text.length := by
  obtain ⟨before, after, rfl, rfl, -⟩ := h
  rw [List.length_append, List.length_append]
  exact Nat.le_add_right _ _

theorem WordAt.lt_length (hw : IsWord w) (h : WordAt text i w) : i < text.length := by
  have hle := h.add_length_le
  have hpos : 0 < w.length := List.length_pos_iff.mpr hw.1
  omega

/-- A word that begins in a text is one of the text. -/
theorem WordAt.of_within (hw : IsWord w) (hends : endsName text = false)
    (h : WordAt (front ++ text ++ behind) (front.length + i) w) (hi : i < text.length) :
    WordAt text i w := by
  obtain ⟨b, a, hsplit, hlength, halone⟩ := h
  -- The word begins behind `front` and ends before `behind`.
  have hfront : front <+: b := by
    have hprefix : b <+: front ++ text ++ behind := ⟨w ++ a, by rw [hsplit, List.append_assoc]⟩
    rw [List.append_assoc] at hprefix
    exact List.prefix_of_prefix_length_le (List.prefix_append _ _) hprefix
      (hlength ▸ Nat.le_add_right _ _)
  obtain ⟨b, rfl⟩ := hfront
  obtain rfl : b.length = i := by
    rw [List.length_append] at hlength
    exact Nat.add_left_cancel hlength
  rw [List.append_assoc, List.append_assoc, List.append_assoc] at hsplit
  have hrest : text ++ behind = b ++ w ++ a := by
    rw [List.append_assoc]
    exact List.append_cancel_left hsplit
  have hle := length_le_of_endsName hw hrest hends hi
  have htext : b ++ w <+: text := by
    refine List.prefix_of_prefix_length_le ⟨a, hrest.symm⟩ (List.prefix_append _ _) ?_
    rw [List.length_append]
    exact hle
  obtain ⟨a', rfl⟩ := htext
  rw [List.append_assoc (b ++ w)] at hrest
  obtain rfl := List.append_cancel_left hrest
  refine ⟨b, a', rfl, rfl, PacketClass.endsName_right halone.before, ?_⟩
  cases a' with
  | nil => rfl
  | cons c a' => exact halone.after

/-- A word of a text is one still where the text stands behind no name. -/
theorem WordAt.within (hw : IsWord w) (hfront : endsName front = false)
    (hends : endsName text = false) (h : WordAt text i w) :
    WordAt (front ++ text ++ behind) (front.length + i) w := by
  obtain ⟨before, after, rfl, rfl, halone⟩ := h
  refine ⟨front ++ before, after ++ behind, by simp, by simp, ?_, ?_⟩
  · by_cases hbefore : before = []
    · rw [hbefore, List.append_nil]
      exact hfront
    · rw [endsName_append_of_ne_nil front hbefore]
      exact halone.before
  · cases after with
    | nil =>
      -- The text would end in the word.
      rw [List.append_nil, endsName_word before hw] at hends
      cases hends
    | cons c after => exact halone.after

theorem BlankBetween.within_iff (hj : j ≤ text.length) :
    BlankBetween (front ++ text ++ behind) (front.length + i) (front.length + j) ↔
      BlankBetween text i j := by
  constructor
  · intro h
    exact ⟨Nat.add_le_add_iff_left.mp h.le, slice_within hj ▸ h.blank⟩
  · intro h
    refine ⟨Nat.add_le_add_left h.le _, ?_⟩
    rw [slice_within hj]
    exact h.blank

section

variable (hlast : text.getLast? = some '\x7d')
include hlast

theorem endsName_of_brace : endsName text = false := by
  rw [endsName, hlast]
  rfl

/-- Blanks do not reach over the closing brace. -/
theorem BlankBetween.of_within (hi : i < text.length)
    (h : BlankBetween (front ++ text ++ behind) (front.length + i) k) :
    ∃ j, k = front.length + j ∧ j < text.length ∧ BlankBetween text i j := by
  have hbrace : (front ++ text ++ behind)[front.length + (text.length - 1)]? = some '\x7d' := by
    rw [getElem?_within (by omega), ← List.getLast?_eq_getElem?, hlast]
  have hle := h.le_of_getElem? (Nat.add_le_add_left (Nat.le_sub_one_of_lt hi) _) hbrace (by decide)
  obtain ⟨j, rfl⟩ := Nat.exists_eq_add_of_le (Nat.le_trans (Nat.le_add_right _ i) h.le)
  have hj : j < text.length := by omega
  exact ⟨j, rfl, hj, (within_iff (Nat.le_of_lt hj)).mp h⟩

/-- A word is not at the end of a text that ends in a brace. -/
theorem WordAt.add_length_lt (hw : IsWord w) (h : WordAt text i w) :
    i + w.length < text.length := by
  have hle := h.add_length_le
  refine Nat.lt_of_le_of_ne hle fun heq => ?_
  obtain ⟨before, after, rfl, rfl, -⟩ := h
  rw [List.length_append, List.length_append] at heq
  obtain rfl : after = [] := List.eq_nil_of_length_eq_zero (by omega)
  have hends := endsName_of_brace hlast
  rw [List.append_nil, endsName_word before hw] at hends
  cases hends

end

end Text

end PacketGen
