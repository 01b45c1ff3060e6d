import Mathlib.Data.List.Induction
import PacketGen.Constant
import PacketGen.Proofs.Text.NameChar

/-!
# Numerals

What digits mean in a base, most significant digit first: a digit alone means its value, and each
further digit multiplies by the base and adds (`Numeral`). A digit is told by its place among the
printed ones, in either case, and not by the arithmetic on character codes that the reader uses; the
two agree (`Numeral.read`, `numeral_ofDigits`). A number that is printed in a base is a numeral of
it, whichever case its digits are printed in (`numeral_toDigits`).
-/

namespace PacketGen.Constant

/-- The character is the digit for `d` in the base. -/
def DigitFor (base : Nat) (c : Char) (d : Nat) : Prop :=
  d < base ∧ (c = Nat.digitChar d ∨ c = (Nat.digitChar d).toUpper)

instance (base : Nat) (c : Char) (d : Nat) : Decidable (DigitFor base c d) :=
  inferInstanceAs (Decidable (_ ∧ _))

/-- The digits mean `n` in the base. -/
inductive Numeral (base : Nat) : List Char → Nat → Prop
  | digit {c : Char} {d : Nat} : DigitFor base c d → Numeral base [c] d
  | snoc {cs : List Char} {n : Nat} {c : Char} {d : Nat} :
      Numeral base cs n → DigitFor base c d → Numeral base (cs ++ [c]) (n * base + d)

variable {base : Nat} {isDigit : Char → Bool}

/-! ## Digits -/

/-- The reader takes the character for the digit `d`. -/
def TakenFor (isDigit : Char → Bool) (c : Char) (d : Nat) : Prop :=
  isDigit c = true ∧ digitValue c = d

instance (isDigit : Char → Bool) (c : Char) (d : Nat) : Decidable (TakenFor isDigit c d) :=
  inferInstanceAs (Decidable (_ ∧ _))

/-- The reader's digits are those of the base. -/
structure Digits (base : Nat) (isDigit : Char → Bool) : Prop where
  value : ∀ c, isDigit c = true → DigitFor base c (digitValue c)
  read : ∀ c d, DigitFor base c d → TakenFor isDigit c d

theorem isAlphanum_of_isHexDigit {c : Char} (hc : Token.isHexDigit c = true) :
    c.isAlphanum = true := by
  have hlower (h : c ≤ 'f') : c ≤ 'z' := Char.le_trans h (by decide)
  have hupper (h : c ≤ 'F') : c ≤ 'Z' := Char.le_trans h (by decide)
  simp only [Token.isHexDigit, Bool.or_eq_true, Bool.and_eq_true, decide_eq_true_eq] at hc
  rcases hc with (hdigit | ⟨ha, hf⟩) | ⟨ha, hf⟩
  · exact Bool.or_eq_true_iff.mpr (.inr hdigit)
  · have hletter : c.isLower = true :=
      Bool.and_eq_true_iff.mpr ⟨decide_eq_true ha, decide_eq_true (hlower hf)⟩
    exact Bool.or_eq_true_iff.mpr (.inl (Bool.or_eq_true_iff.mpr (.inr hletter)))
  · have hletter : c.isUpper = true := decide_eq_true ⟨ha, hupper hf⟩
    exact Bool.or_eq_true_iff.mpr (.inl (Bool.or_eq_true_iff.mpr (.inl hletter)))

theorem digits_ten : Digits 10 Char.isDigit where
  value c hc := Text.of_isAlphanum (p := fun c => c.isDigit = true → DigitFor 10 c (digitValue c))
    (by decide) (by simp [Char.isAlphanum, hc]) hc
  read c d := by
    have hread : ∀ d < 10, TakenFor Char.isDigit (Nat.digitChar d) d ∧
        TakenFor Char.isDigit (Nat.digitChar d).toUpper d := by
      decide
    rintro ⟨hd, rfl | rfl⟩
    · exact (hread d hd).1
    · exact (hread d hd).2

theorem digits_sixteen : Digits 16 Token.isHexDigit where
  value c hc := Text.of_isAlphanum
    (p := fun c => Token.isHexDigit c = true → DigitFor 16 c (digitValue c))
    (by decide) (isAlphanum_of_isHexDigit hc) hc
  read c d := by
    have hread : ∀ d < 16, TakenFor Token.isHexDigit (Nat.digitChar d) d ∧
        TakenFor Token.isHexDigit (Nat.digitChar d).toUpper d := by
      decide
    rintro ⟨hd, rfl | rfl⟩
    · exact (hread d hd).1
    · exact (hread d hd).2

/-! ## Digits in a row -/

theorem ofDigits_concat (base : Nat) (cs : List Char) (c : Char) :
    ofDigits base (cs ++ [c]) = ofDigits base cs * base + digitValue c := by
  simp [ofDigits]

theorem Numeral.read (hbase : Digits base isDigit) {cs : List Char} {n : Nat}
    (h : Numeral base cs n) :
    cs ≠ [] ∧ (∀ c ∈ cs, isDigit c = true) ∧ ofDigits base cs = n := by
  induction h with
  | @digit c d hd =>
    obtain ⟨hc, rfl⟩ := hbase.read _ _ hd
    refine ⟨by simp, by simpa using hc, ?_⟩
    rw [← List.nil_append [c], ofDigits_concat]
    simp [ofDigits]
  | @snoc cs n c d _ hd ih =>
    obtain ⟨-, hcs, rfl⟩ := ih
    obtain ⟨hc, rfl⟩ := hbase.read _ _ hd
    refine ⟨by simp, ?_, ofDigits_concat _ _ _⟩
    intro e he
    rcases List.mem_append.mp he with he | he
    · exact hcs e he
    · exact List.mem_singleton.mp he ▸ hc

theorem numeral_ofDigits (hbase : Digits base isDigit) {cs : List Char} (hne : cs ≠ [])
    (hcs : ∀ c ∈ cs, isDigit c = true) : Numeral base cs (ofDigits base cs) := by
  induction cs using List.reverseRecOn with
  | nil => exact absurd rfl hne
  | append_singleton cs c ih =>
    have hc := hbase.value c (hcs c (by simp))
    rw [ofDigits_concat]
    by_cases hnil : cs = []
    · subst hnil
      simpa [ofDigits] using Numeral.digit hc
    · refine .snoc (ih hnil ?_) hc
      intro d hd
      exact hcs d (List.mem_append_left _ hd)

/-- Printing writes numerals, in either case of the digits. -/
theorem numeral_toDigits {shown : Char → Char} (hshown : shown = id ∨ shown = Char.toUpper)
    (hbase : 1 < base) (n : Nat) : Numeral base ((Nat.toDigits base n).map shown) n := by
  have hdigit {d : Nat} (hd : d < base) : DigitFor base (shown (Nat.digitChar d)) d := by
    rcases hshown with rfl | rfl
    · exact ⟨hd, Or.inl rfl⟩
    · exact ⟨hd, Or.inr rfl⟩
  induction n using Nat.strongRecOn with
  | ind n ih =>
    by_cases hlt : n < base
    · rw [Nat.toDigits_of_lt_base hlt]
      exact .digit (hdigit hlt)
    · have hle : base ≤ n := Nat.le_of_not_lt hlt
      have hpos : 0 < n := Nat.lt_of_lt_of_le (Nat.lt_of_succ_lt hbase) hle
      have hrest := ih (n / base) (Nat.div_lt_self hpos hbase)
      have hlast := hdigit (Nat.mod_lt n (Nat.lt_of_succ_lt hbase))
      rw [Nat.toDigits_of_base_le hbase hle, List.map_append, List.map_singleton]
      have hwhole := Numeral.snoc hrest hlast
      rwa [Nat.div_add_mod'] at hwhole

/-! ## Values in decimal -/

theorem numeral_toDigits_ten (n : Nat) : Numeral 10 (Nat.toDigits 10 n) n := by
  have hnumeral : Numeral 10 ((Nat.toDigits 10 n).map id) n :=
    numeral_toDigits (Or.inl rfl) (by decide) n
  rwa [List.map_id] at hnumeral

theorem literalValue_digits {ds : List Char} (hds : ∀ d ∈ ds, d.isDigit = true) :
    literalValue ds = ofDigits 10 ds := by
  unfold literalValue
  split
  · exact absurd (hds 'x' (by simp)) (by decide)
  · exact absurd (hds 'X' (by simp)) (by decide)
  · exact absurd (hds '-' (by simp)) (by decide)
  · rfl

/-- The digits of a value, with a minus sign in front where it is negative, and their meaning. -/
theorem exists_digits (v : Int) :
    ∃ ds, (∀ d ∈ ds, d.isDigit = true) ∧ ds ≠ [] ∧
      ((toString v).toList = ds ∨ (toString v).toList = '-' :: ds) ∧
      literalValue (toString v).toList = v := by
  cases v with
  | ofNat n =>
    obtain ⟨hne, hdigits, hvalue⟩ := (numeral_toDigits_ten n).read digits_ten
    have htext : (toString (Int.ofNat n)).toList = Nat.toDigits 10 n := Nat.toList_repr
    refine ⟨Nat.toDigits 10 n, hdigits, hne, Or.inl htext, ?_⟩
    rw [htext, literalValue_digits hdigits, hvalue]
    rfl
  | negSucc n =>
    obtain ⟨hne, hdigits, hvalue⟩ := (numeral_toDigits_ten (n + 1)).read digits_ten
    have htext : (toString (Int.negSucc n)).toList = '-' :: Nat.toDigits 10 (n + 1) := by
      change ("-" ++ Nat.repr (n + 1)).toList = _
      rw [String.toList_append, Nat.toList_repr]
      rfl
    refine ⟨Nat.toDigits 10 (n + 1), hdigits, hne, Or.inr htext, ?_⟩
    rw [htext]
    change -((ofDigits 10 (Nat.toDigits 10 (n + 1)) : Nat) : Int) = _
    rw [hvalue]
    rfl

end PacketGen.Constant
