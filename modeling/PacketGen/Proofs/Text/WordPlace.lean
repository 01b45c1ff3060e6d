import PacketGen.Proofs.Text.WordSearch
import PacketGen.Text.Offset

/-!
# Words and blanks at their places

A text can be asked what is at a place without any search: whether a word stands alone there
(`WordAt`), and whether there are only blanks from there up to another place (`BlankBetween`). The
searches answer in these terms (`mem_wordIndices_iff`, `blankBetween_skipBlanks`), and what they say
of the first place is a matter of order: of two standalone words of a text one is behind the other,
or they are the same (`WordAt.eq_or_le`).
-/

namespace PacketGen.Text

variable {text v w : List Char} {i j k first last : Nat} {c : Char}

/-! ## Parts of a text -/

theorem slice_eq (text : List Char) (i j : Nat) : slice text i j = (text.drop i).take (j - i) := by
  rw [slice, List.drop_take]

theorem slice_append (text : List Char) (hij : i ≤ j) (hjk : j ≤ k) :
    slice text i j ++ slice text j k = slice text i k := by
  have hsum : k - i = (j - i) + (k - j) := by omega
  rw [slice_eq, slice_eq, slice_eq, hsum, List.take_add, List.drop_drop, Nat.add_sub_cancel' hij]

theorem drop_eq_append (text : List Char) (hij : i ≤ j) :
    text.drop i = slice text i j ++ text.drop j := by
  have hrest : text.drop j = (text.drop i).drop (j - i) := by
    rw [List.drop_drop, Nat.add_sub_cancel' hij]
  rw [slice_eq, hrest, List.take_append_drop]

theorem length_slice (text : List Char) (i : Nat) (hj : j ≤ text.length) :
    (slice text i j).length = j - i := by
  rw [slice_eq, List.length_take, List.length_drop]
  omega

/-- A part of a text that falls into two pieces is cut between them. -/
theorem slice_eq_append {as bs : List Char} (h : slice text i j = as ++ bs) (hij : i ≤ j)
    (hj : j ≤ text.length) : i + as.length ≤ j ∧ slice text i (i + as.length) = as ∧
      slice text (i + as.length) j = bs := by
  have hlength := congrArg List.length h
  rw [length_slice text i hj, List.length_append] at hlength
  have hle : i + as.length ≤ j := by omega
  rw [← slice_append text (Nat.le_add_right i as.length) hle] at h
  have hfirst : (slice text i (i + as.length)).length = as.length := by
    rw [length_slice text i (by omega), Nat.add_sub_cancel_left]
  exact ⟨hle, List.append_inj h hfirst⟩

theorem mem_slice (h : text[k]? = some c) (hik : i ≤ k) (hkj : k < j) : c ∈ slice text i j := by
  rw [slice_eq]
  refine List.mem_of_getElem? (i := k - i) ?_
  rw [List.getElem?_take_of_lt (by omega), List.getElem?_drop, Nat.add_sub_cancel' hik, h]

/-- Two places cut a text into three parts. -/
theorem exists_parts (hle : first ≤ last) (hlast : last ≤ text.length) :
    ∃ A B D, text = A ++ B ++ D ∧ A.length = first ∧ A.length + B.length = last := by
  have hfirst : (text.take first).length = first := List.length_take_of_le (by omega)
  refine ⟨text.take first, slice text first last, text.drop last, ?_, hfirst, ?_⟩
  · have hhead : text.take last = text.take first ++ slice text first last :=
      (slice_append text (Nat.zero_le first) hle).symm
    rw [← hhead, List.take_append_drop]
  · rw [hfirst, length_slice text first hlast, Nat.add_sub_cancel' hle]

/-! ## Words -/

/-- `w` stands alone at `i`. -/
def WordAt (text : List Char) (i : Nat) (w : List Char) : Prop :=
  ∃ before after, text = before ++ w ++ after ∧ before.length = i ∧ Alone before after

theorem hasWordAt_iff (hw : IsWord w) : hasWordAt text i w = true ↔ WordAt text i w := by
  constructor
  · intro h
    obtain ⟨after, hafter⟩ := List.isPrefixOf_iff_prefix.mp (Bool.and_eq_true_iff.mp h).1
    have hi : i < text.length := by
      refine Nat.lt_of_not_le fun hle => ?_
      rw [List.drop_eq_nil_of_le hle, List.append_eq_nil_iff] at hafter
      exact hw.1 hafter.1
    have hlength : (text.take i).length = i := List.length_take_of_le (Nat.le_of_lt hi)
    have hsplit : text = text.take i ++ w ++ after := by
      rw [List.append_assoc, hafter, List.take_append_drop]
    refine ⟨text.take i, after, hsplit, hlength, ?_⟩
    rw [← hasWordAt_split, ← hsplit, hlength]
    exact h
  · rintro ⟨before, after, rfl, rfl, halone⟩
    exact (hasWordAt_split before w after).mpr halone

/-- A word does not begin with a blank. -/
theorem WordAt.getElem? (hw : IsWord w) (h : WordAt text i w) :
    ∃ c, text[i]? = some c ∧ isBlank c = false := by
  obtain ⟨before, after, rfl, rfl, -⟩ := h
  obtain ⟨c, w, rfl⟩ := List.exists_cons_of_ne_nil hw.1
  refine ⟨c, ?_, isBlank_of_isNameChar (hw.2 c List.mem_cons_self)⟩
  rw [List.append_assoc, List.getElem?_append_right (Nat.le_refl _), Nat.sub_self]
  rfl

/-- A word at or behind the place of another is that one, or is behind all of it. -/
theorem WordAt.eq_or_le (hv : IsWord v) (hw : IsWord w) (h : WordAt text i v)
    (h' : WordAt text j w) (hle : i ≤ j) : (i = j ∧ v = w) ∨ i + v.length ≤ j := by
  obtain ⟨before, after, rfl, rfl, halone⟩ := h
  obtain ⟨b, a, hsplit, rfl, halone'⟩ := h'
  have hpos : 0 < w.length := List.length_pos_iff.mpr hw.1
  rcases alone_trichotomy hv hw hsplit halone halone' with ⟨m, rfl⟩ | ⟨rfl, rfl, -⟩ | ⟨m, rfl⟩
  · simp only [List.length_append] at hle
    omega
  · exact Or.inl ⟨rfl, rfl⟩
  · have hlength := congrArg List.length hsplit
    simp only [List.length_append] at hlength
    exact Or.inr (by omega)

/-- What is found in a part of a text are the words there that stand alone in the whole text. -/
theorem mem_wordIndices_iff (hw : IsWord w) (hle : first ≤ last) (hlast : last ≤ text.length) :
    i ∈ wordIndices text first last w ↔ WordAt text i w ∧ first ≤ i ∧ i + w.length ≤ last := by
  obtain ⟨A, B, D, rfl, rfl, rfl⟩ := exists_parts hle hlast
  rw [mem_wordIndices hw]
  constructor
  · rintro ⟨before, after, rfl, rfl, halone⟩
    refine ⟨⟨A ++ before, after ++ D, by simp, by simp, halone⟩, Nat.le_add_right _ _, ?_⟩
    simp only [List.length_append]
    omega
  · rintro ⟨⟨b, a, hsplit, rfl, halone⟩, hstart, hstop⟩
    -- The text begins with `A`, with what is before the word, with the word and with `A ++ B`.
    have hA : A <+: b := by
      have hprefix : b <+: A ++ B ++ D := ⟨w ++ a, by rw [hsplit, List.append_assoc]⟩
      rw [List.append_assoc] at hprefix
      exact List.prefix_of_prefix_length_le (List.prefix_append A _) hprefix hstart
    obtain ⟨before, rfl⟩ := hA
    rw [List.append_assoc A, List.append_assoc A, List.append_assoc A] at hsplit
    have hrest := List.append_cancel_left hsplit
    have hB : before ++ w <+: B := by
      refine List.prefix_of_prefix_length_le ⟨a, hrest.symm⟩ ⟨D, rfl⟩ ?_
      simp only [List.length_append] at hstop ⊢
      omega
    obtain ⟨after, rfl⟩ := hB
    rw [List.append_assoc] at hrest
    obtain rfl := List.append_cancel_left hrest
    exact ⟨before, after, rfl, List.length_append, halone⟩

/-! ## Blanks -/

/-- From `i` up to `j` there are only blanks. -/
structure BlankBetween (text : List Char) (i j : Nat) : Prop where
  le : i ≤ j
  blank : ∀ c ∈ slice text i j, isBlank c = true

theorem blankBetween_skipBlanks (text : List Char) (i : Nat) :
    BlankBetween text i (skipBlanks text i) := by
  refine ⟨Nat.le_add_right _ _, fun c hc => ?_⟩
  have hslice : slice text i (skipBlanks text i) = (text.drop i).takeWhile isBlank := by
    rw [slice_eq, skipBlanks, Nat.add_sub_cancel_left]
    exact (List.prefix_iff_eq_take.mp (List.takeWhile_prefix isBlank)).symm
  rw [hslice] at hc
  exact List.all_eq_true.mp List.all_takeWhile c hc

/-- Blanks end where something else is. -/
theorem BlankBetween.le_of_getElem? (h : BlankBetween text i j) (hik : i ≤ k)
    (hk : text[k]? = some c) (hc : isBlank c = false) : j ≤ k := by
  refine Nat.le_of_not_lt fun hlt => ?_
  have hblank := h.blank c (mem_slice hk hik hlt)
  rw [hc] at hblank
  exact Bool.false_ne_true hblank

theorem BlankBetween.skipBlanks_eq (h : BlankBetween text i j) (hj : text[j]? = some c)
    (hc : isBlank c = false) : skipBlanks text i = j := by
  obtain ⟨hlength, rfl⟩ := List.getElem?_eq_some_iff.mp hj
  have hle := h.le
  have hslice := length_slice text i (Nat.le_of_lt hlength)
  have hdrop : text.drop i = slice text i j ++ text[j] :: text.drop (j + 1) := by
    rw [← List.drop_eq_getElem_cons hlength, drop_eq_append text hle]
  rw [skipBlanks, hdrop, List.takeWhile_append_of_pos h.blank,
    List.takeWhile_cons_of_neg (by simp [hc]), List.append_nil, hslice, Nat.add_sub_cancel' hle]

end PacketGen.Text
