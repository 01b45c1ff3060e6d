import PacketGen.Proofs.Text.WordSearch
import PacketGen.Token

/-!
# Spelled tokens are read back

Tokens may be written with any spacing in between, as long as none runs into what stands behind it:
a word or a number must end where it ends. `Spelled cs ts` says that `cs` writes the tokens `ts` in
this way, and `scan?_of_spelled` that nothing else is needed to read them back.
-/

namespace PacketGen.Token

/-! ## One token -/

/-- A text begins with this token, whatever is behind it. -/
structure Fits (t : Token) (rest : List Char) : Prop where
  spelled : t.spell ≠ []
  first : first? (t.spell ++ rest) = some t

/-- A name as the grammar has it. -/
def IsIdentifier (w : String) : Prop :=
  ∃ c cs, w.toList = c :: cs ∧ Text.isNameStart c = true ∧ ∀ d ∈ cs, Text.isNameChar d = true

theorem IsIdentifier.isWord {w : String} (hw : IsIdentifier w) : Text.IsWord w.toList := by
  obtain ⟨c, cs, hcs, hc, hall⟩ := hw
  rw [hcs]
  exact ⟨by simp, List.forall_mem_cons.mpr ⟨Text.isNameChar_of_isNameStart hc, hall⟩⟩

theorem isIdentifier_of_all {w : String} {c : Char} {cs : List Char} (hw : w.toList = c :: cs)
    (hc : Text.isNameStart c = true) (hcs : cs.all Text.isNameChar = true) : IsIdentifier w :=
  ⟨c, cs, hw, hc, List.all_eq_true.mp hcs⟩

theorem fits_mark {t : Token} (rest : List Char)
    (ht : t = .this ∨ t = .arrow ∨ t = .openParen ∨ t = .closeParen ∨ t = .equals ∨
      t = .semicolon) : Fits t rest := by
  rcases ht with rfl | rfl | rfl | rfl | rfl | rfl
  all_goals exact ⟨by decide, rfl⟩

/-- A character that opens a name opens none of the other tokens. -/
theorem first?_of_isNameStart {c : Char} (cs : List Char) (hc : Text.isNameStart c = true) :
    first? (c :: cs) = some (.word (.ofList ((c :: cs).takeWhile Text.isNameChar))) := by
  have hmark : ∀ d, Text.isNameStart d = false → c ≠ d := by
    rintro d hd rfl
    exact absurd hc (by simp [hd])
  unfold first?
  split
  · exact absurd ‹_› (by simp)
  · next h => exact absurd (List.cons.inj h).1 (hmark _ rfl)
  · next h => exact absurd (List.cons.inj h).1 (hmark _ rfl)
  · next h => exact absurd (List.cons.inj h).1 (hmark _ rfl)
  · next h => exact absurd (List.cons.inj h).1 (hmark _ rfl)
  · next h => exact absurd (List.cons.inj h).1 (hmark _ rfl)
  · next h => exact absurd (List.cons.inj h).1 (hmark _ rfl)
  · next h =>
    obtain ⟨rfl, rfl⟩ := List.cons.inj h
    rw [if_pos hc]

theorem fits_word {w : String} {rest : List Char} (hw : IsIdentifier w)
    (hrest : Text.startsName rest = false) : Fits (.word w) rest := by
  obtain ⟨c, cs, hcs, hc, -⟩ := id hw
  refine ⟨by simp [spell, hcs], ?_⟩
  have htake := Text.takeWhile_word hw.isWord.2 hrest
  rw [hcs, List.cons_append] at htake
  rw [spell, hcs, List.cons_append, first?_of_isNameStart _ hc, htake, ← hcs, String.ofList_toList]

/-! ## Numbers -/

theorem isNameStart_of_isDigit {c : Char} (hc : c.isDigit = true) : Text.isNameStart c = false :=
  Text.of_isAlphanum (p := fun c => c.isDigit = true → Text.isNameStart c = false) (by decide)
    (by simp [Char.isAlphanum, hc]) hc

/-- Digits with nothing of a name behind them are not the start of a hexadecimal literal. -/
theorem hexLiteral?_digits {ds rest : List Char} (hds : ∀ d ∈ ds, d.isDigit = true)
    (hne : ds ≠ []) (hrest : Text.startsName rest = false) : hexLiteral? (ds ++ rest) = none := by
  unfold hexLiteral?
  split
  · next x d cs h =>
    -- The second character is a digit, or no character of a name.
    refine if_neg fun hx => ?_
    have hx' : x = 'x' ∨ x = 'X' := by
      simpa using (Bool.and_eq_true_iff.mp hx).1
    obtain ⟨e, es, rfl⟩ := List.exists_cons_of_ne_nil hne
    have htail := (List.cons.inj h).2
    cases es with
    | nil =>
      change rest = x :: d :: cs at htail
      rw [htail] at hrest
      rcases hx' with rfl | rfl
      · exact absurd (show Text.isNameChar 'x' = false from hrest) (by decide)
      · exact absurd (show Text.isNameChar 'X' = false from hrest) (by decide)
    | cons f fs =>
      have hf := hds f (by simp)
      rw [(List.cons.inj htail).1] at hf
      rcases hx' with rfl | rfl
      · exact absurd hf (by decide)
      · exact absurd hf (by decide)
  · rfl

theorem takeWhile_digits {ds rest : List Char} (hds : ∀ d ∈ ds, d.isDigit = true)
    (hrest : Text.startsName rest = false) : (ds ++ rest).takeWhile Char.isDigit = ds := by
  rw [List.takeWhile_append_of_pos hds]
  cases rest with
  | nil => simp
  | cons c cs =>
    have hc : c.isDigit = false := by
      cases hdigit : c.isDigit with
      | false => rfl
      | true =>
        have hname : Text.isNameChar c = false := by simpa [Text.startsName] using hrest
        exact absurd hname (by simp [Text.isNameChar, Char.isAlphanum, hdigit])
    rw [List.takeWhile_cons_of_neg (by simp [hc]), List.append_nil]

/-- The decimal literal that digits are, with a minus sign or without one. -/
theorem literal?_decimal {ds rest : List Char} (hds : ∀ d ∈ ds, d.isDigit = true) (hne : ds ≠ [])
    (hrest : Text.startsName rest = false) :
    literal? (ds ++ rest) = some ds ∧ literal? ('-' :: (ds ++ rest)) = some ('-' :: ds) := by
  have htake := takeWhile_digits hds hrest
  have hhex := hexLiteral?_digits hds hne hrest
  obtain ⟨d, ds, rfl⟩ := List.exists_cons_of_ne_nil hne
  have hd : d.isDigit = true := hds d List.mem_cons_self
  have hminus : d ≠ '-' := by
    rintro rfl
    exact absurd hd (by decide)
  rw [List.cons_append] at htake hhex ⊢
  constructor
  · rw [literal?, hhex, Option.none_or]
    unfold decimalLiteral?
    split
    · next h => exact absurd (List.cons.inj h).1 hminus
    · next h =>
      obtain ⟨rfl, rfl⟩ := List.cons.inj h
      rw [if_pos hd, htake]
    · exact absurd ‹_› (by simp)
  · rw [literal?]
    have hhex' : hexLiteral? ('-' :: d :: (ds ++ rest)) = none := by
      unfold hexLiteral?
      split
      · next h => exact absurd (List.cons.inj h).1 (by decide)
      · rfl
    rw [hhex', Option.none_or, decimalLiteral?, if_pos hd, htake]

/-- What opens neither a mark nor a name is read as a number. -/
theorem first?_of_not_mark {c : Char} {cs : List Char}
    (hmark : c ∉ ['(', ')', '=', ';', '$']) (harrow : c = '-' → cs.head? ≠ some '>')
    (hstart : Text.isNameStart c = false) :
    first? (c :: cs) = (literal? (c :: cs)).map fun l => .number (.ofList l) := by
  unfold first?
  split
  · exact absurd ‹_› (by simp)
  · next h => exact absurd ((List.cons.inj h).1 ▸ hmark) (by simp)
  · next h => exact absurd ((List.cons.inj h).1 ▸ hmark) (by simp)
  · next h => exact absurd ((List.cons.inj h).1 ▸ hmark) (by simp)
  · next h => exact absurd ((List.cons.inj h).1 ▸ hmark) (by simp)
  · next h =>
    obtain ⟨rfl, rfl⟩ := List.cons.inj h
    exact absurd (harrow rfl) (by simp)
  · next h => exact absurd ((List.cons.inj h).1 ▸ hmark) (by simp)
  · next h =>
    obtain ⟨rfl, rfl⟩ := List.cons.inj h
    rw [if_neg (by simp [hstart])]

theorem not_mark_of_isDigit {c : Char} (hc : c.isDigit = true) :
    c ∉ ['(', ')', '=', ';', '$'] ∧ c ≠ '-' ∧ c ≠ '>' :=
  Text.of_isAlphanum (p := fun c => c.isDigit = true →
    c ∉ ['(', ')', '=', ';', '$'] ∧ c ≠ '-' ∧ c ≠ '>') (by decide)
    (by simp [Char.isAlphanum, hc]) hc

theorem fits_number {ds rest : List Char} (hds : ∀ d ∈ ds, d.isDigit = true) (hne : ds ≠ [])
    (hrest : Text.startsName rest = false) :
    Fits (.number (.ofList ds)) rest ∧ Fits (.number (.ofList ('-' :: ds))) rest := by
  obtain ⟨hplain, hminus⟩ := literal?_decimal hds hne hrest
  obtain ⟨d, ds, rfl⟩ := List.exists_cons_of_ne_nil hne
  have hd : d.isDigit = true := hds d List.mem_cons_self
  obtain ⟨hmark, hnotminus, hgreater⟩ := not_mark_of_isDigit hd
  refine ⟨⟨by simp [spell], ?_⟩, ⟨by simp [spell], ?_⟩⟩
  · rw [spell, String.toList_ofList, List.cons_append, first?_of_not_mark hmark
      (fun h => absurd h hnotminus) (isNameStart_of_isDigit hd), ← List.cons_append, hplain]
    rfl
  · have harrow : '-' = '-' → (d :: ds ++ rest).head? ≠ some '>' := by
      simpa using hgreater
    rw [spell, String.toList_ofList, List.cons_append,
      first?_of_not_mark (by decide) harrow (by decide), hminus]
    rfl

/-! ## A text of tokens -/

theorem first?_of_isSpacing {c : Char} (cs : List Char) (hc : isSpacing c = true) :
    first? (c :: cs) = none := by
  simp only [isSpacing, Bool.or_eq_true, beq_iff_eq] at hc
  rcases hc with ((rfl | rfl) | rfl) | rfl
  all_goals rfl

/-- A text that writes tokens, each of them clear of what is behind it. -/
inductive Spelled : List Char → List Token → Prop
  | nil : Spelled [] []
  | gap {c : Char} {cs : List Char} {ts : List Token} : isSpacing c = true → Spelled cs ts →
      Spelled (c :: cs) ts
  | token {t : Token} {cs : List Char} {ts : List Token} : Fits t cs → Spelled cs ts →
      Spelled (t.spell ++ cs) (t :: ts)

theorem Spelled.mark {t : Token} {cs : List Char} {ts : List Token}
    (ht : t = .this ∨ t = .arrow ∨ t = .openParen ∨ t = .closeParen ∨ t = .equals ∨
      t = .semicolon) (h : Spelled cs ts) : Spelled (t.spell ++ cs) (t :: ts) :=
  .token (fits_mark cs ht) h

theorem Spelled.word {w : String} {cs : List Char} {ts : List Token} (hw : IsIdentifier w)
    (hcs : Text.startsName cs = false) (h : Spelled cs ts) :
    Spelled (w.toList ++ cs) (.word w :: ts) :=
  .token (fits_word hw hcs) h

theorem scanFrom?_covered (ds cs : List Char) :
    scanFrom? ds.length (ds ++ cs) = scanFrom? 0 cs := by
  induction ds with
  | nil => rfl
  | cons d ds ih => rw [List.length_cons, List.cons_append, scanFrom?, ih]

theorem scan?_of_spelled {cs : List Char} {ts : List Token} (h : Spelled cs ts) :
    scan? cs = some ts := by
  induction h with
  | nil => rfl
  | gap hc _ ih => rw [scan?, scanFrom?, if_pos hc, ← scan?, ih]
  | @token t cs ts hfits _ ih =>
    obtain ⟨d, ds, hspell⟩ := List.exists_cons_of_ne_nil hfits.spelled
    have hfirst := hfits.first
    rw [hspell, List.cons_append] at hfirst ⊢
    -- A token never starts with spacing, so the scan takes it here.
    have hd : ¬ isSpacing d = true := fun hd => by
      rw [first?_of_isSpacing _ hd] at hfirst
      exact absurd hfirst (by simp)
    rw [scan?, scanFrom?, if_neg hd, hfirst, Option.bind_some, hspell, List.length_cons,
      Nat.add_sub_cancel, scanFrom?_covered, ← scan?, ih, Option.map_some]

/-! ## What code is spelled with -/

/-- A text of names and the marks between them. -/
def Plain (cs : List Char) : Prop :=
  ∀ c ∈ cs, Text.isNameChar c = true ∨ c ∈ ['$', '-', '>', '(', ')', '=', ';', ' ']

instance (cs : List Char) : Decidable (Plain cs) := List.decidableBAll _ cs

theorem Plain.append {cs ds : List Char} (hcs : Plain cs) (hds : Plain ds) : Plain (cs ++ ds) :=
  fun c hc => (List.mem_append.mp hc).elim (hcs c) (hds c)

theorem IsIdentifier.plain {w : String} (hw : IsIdentifier w) : Plain w.toList :=
  fun c hc => Or.inl (hw.isWord.2 c hc)

theorem Plain.not_mem {cs : List Char} (hcs : Plain cs) {c : Char}
    (hname : Text.isNameChar c = false) (hmark : c ∉ ['$', '-', '>', '(', ')', '=', ';', ' ']) :
    c ∉ cs := by
  intro hc
  rcases hcs c hc with h | h
  · exact absurd h (by simp [hname])
  · exact hmark h

end PacketGen.Token
