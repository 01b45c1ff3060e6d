import PacketGen.Text.Blank
import PacketGen.Text.Word

/-!
# Characters of names

The characters of a name are ASCII letters, digits and underscores. Being so few, whatever is to be
known of them is checked one by one (`of_isNameChar`): that none of them is blank, for one.
-/

namespace PacketGen.Text

variable {c : Char}

theorem toNat_lt_of_isAlphanum (h : c.isAlphanum = true) : c.toNat < 128 := by
  have hle : c.val ≤ 'z'.val := by
    rcases Bool.or_eq_true_iff.mp h with halpha | hdigit
    · rcases Bool.or_eq_true_iff.mp halpha with hupper | hlower
      · exact UInt32.le_trans (of_decide_eq_true hupper).2 (by decide)
      · exact of_decide_eq_true (Bool.and_eq_true_iff.mp hlower).2
    · exact UInt32.le_trans (of_decide_eq_true (Bool.and_eq_true_iff.mp hdigit).2) (by decide)
  exact Nat.lt_of_le_of_lt (UInt32.le_iff_toNat_le.mp hle) (by decide)

/-- What holds of the letters and digits is checked one by one. -/
theorem of_isAlphanum {p : Char → Prop} (h : ∀ n < 128, p (Char.ofNat n))
    (hc : c.isAlphanum = true) : p c := by
  have hp := h c.toNat (toNat_lt_of_isAlphanum hc)
  rwa [Char.ofNat_toNat] at hp

theorem of_isNameChar {p : Char → Prop} (h : ∀ n < 128, p (Char.ofNat n))
    (hc : isNameChar c = true) : p c := by
  rcases Bool.or_eq_true .. ▸ hc with hc | hc
  · exact of_isAlphanum h hc
  · have hunderscore : c = '_' := by simpa using hc
    exact hunderscore ▸ h 95 (by decide)

theorem isBlank_of_isNameChar (hc : isNameChar c = true) : isBlank c = false :=
  of_isNameChar (p := fun c => isNameChar c = true → isBlank c = false) (by decide) hc hc

theorem isNameChar_of_isBlank (hc : isBlank c = true) : isNameChar c = false := by
  cases h : isNameChar c with
  | false => rfl
  | true => exact absurd hc (by simp [isBlank_of_isNameChar h])

theorem isNameChar_of_isUpper (hc : c.isUpper = true) : isNameChar c = true := by
  have halpha : c.isAlpha = true := Bool.or_eq_true_iff.mpr (.inl hc)
  have halphanum : c.isAlphanum = true := Bool.or_eq_true_iff.mpr (.inl halpha)
  exact Bool.or_eq_true_iff.mpr (.inl halphanum)

theorem isNameChar_of_isNameStart (hc : isNameStart c = true) : isNameChar c = true := by
  simp only [isNameStart, isNameChar, Char.isAlphanum, Bool.or_eq_true] at hc ⊢
  exact hc.imp_left Or.inl

end PacketGen.Text
