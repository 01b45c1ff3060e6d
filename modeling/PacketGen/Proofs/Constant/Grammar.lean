import PacketGen.Proofs.Constant.Numeral
import PacketGen.Proofs.Token.Spacing

/-!
# The declarations a line can be

A constant is declared by `const`, its name, an equals sign and an integer literal, with a
visibility in front or none and a semicolon behind or none (`Declares`). Spacing may stand anywhere
between these and has to stand between two words. That names no reader.
`parse?_eq_some_iff_declares` says that the reader of constants is this relation turned around.

The relation leaves open what reading has to decide: keywords may be names, and `0x1` is no decimal
zero with a word behind it. The number of a literal is told by `Numeral`, so that it does not rest
on the reader's arithmetic.
-/

namespace PacketGen

open Token (Fits IsIdentifier Spelled)

namespace Token

theorem Fits.literal {l : String} {rest : List Char} (h : Fits (.number l) rest) :
    literal? (l.toList ++ rest) = some l.toList := by
  have hfirst := h.first
  rw [spell] at hfirst
  generalize l.toList ++ rest = cs at hfirst
  unfold first? at hfirst
  split at hfirst
  case h_8 c cs _ _ _ _ _ _ =>
    split at hfirst
    · cases hfirst
    · obtain ⟨k, hk, hnumber⟩ := Option.map_eq_some_iff.mp hfirst
      cases hnumber
      rw [hk, String.toList_ofList]
  all_goals cases hfirst

theorem Fits.startsName {w : String} {rest : List Char} (h : Fits (.word w) rest) :
    Text.startsName rest = false := by
  obtain ⟨-, hword, -⟩ := exists_append_of_first? h.first
  obtain ⟨c, cs, hcs, hc, hall⟩ := hword w rfl
  have hfirst := h.first
  rw [spell, hcs, List.cons_append, first?_of_isNameStart _ hc] at hfirst
  -- The word takes all characters of a name, so none of them is behind it.
  have htake := congrArg String.toList (Token.word.inj (Option.some.inj hfirst))
  rw [String.toList_ofList, hcs, ← List.cons_append,
    List.takeWhile_append_of_pos (List.forall_mem_cons.mpr
      ⟨Text.isNameChar_of_isNameStart hc, hall⟩)] at htake
  have hnone : rest.takeWhile Text.isNameChar = [] := by
    simpa using htake
  cases rest with
  | nil => rfl
  | cons d rest =>
    cases hd : Text.isNameChar d with
    | false => exact hd
    | true => simp [List.takeWhile_cons_of_pos hd] at hnone

end Token

namespace Constant

def Gap (cs : List Char) : Prop := ∀ c ∈ cs, Token.isSpacing c = true

/-! ## Literals -/

/-- A literal and its number. A minus sign stands before decimal digits only. -/
inductive Literal : List Char → Int → Prop
  | decimal {digits : List Char} {n : Nat} : Numeral 10 digits n → Literal digits n
  | negative {digits : List Char} {n : Nat} : Numeral 10 digits n → Literal ('-' :: digits) (-n)
  | hexadecimal {x : Char} {digits : List Char} {n : Nat} : x = 'x' ∨ x = 'X' →
      Numeral 16 digits n → Literal ('0' :: x :: digits) n

theorem all_takeWhile {p : Char → Bool} (cs : List Char) : ∀ c ∈ cs.takeWhile p, p c = true :=
  List.all_eq_true.mp List.all_takeWhile

/-- What is read as a literal is one, and its value is its number. -/
theorem literal_of_literal? {cs l : List Char} (h : Token.literal? cs = some l) :
    Literal l (literalValue l) := by
  have hcons {p : Char → Bool} {d : Char} (hd : p d = true) (cs : List Char) :
      (d :: cs).takeWhile p ≠ [] := by
    rw [List.takeWhile_cons_of_pos hd]
    exact List.cons_ne_nil _ _
  rw [Token.literal?, Option.or_eq_some_iff] at h
  rcases h with h | ⟨-, h⟩
  · unfold Token.hexLiteral? at h
    split at h
    · next x d cs =>
      split at h
      · next hx =>
        cases h
        obtain ⟨hx, hd⟩ := Bool.and_eq_true_iff.mp hx
        have hx : x = 'x' ∨ x = 'X' := by simpa using hx
        have hnumeral := numeral_ofDigits digits_sixteen (hcons hd cs) (all_takeWhile _)
        have hliteral := Literal.hexadecimal hx hnumeral
        rcases hx with rfl | rfl
        · exact hliteral
        · exact hliteral
      · cases h
    · cases h
  · unfold Token.decimalLiteral? at h
    split at h
    · next d cs =>
      split at h
      · next hd =>
        cases h
        exact .negative (numeral_ofDigits digits_ten (hcons hd cs) (all_takeWhile _))
      · cases h
    · next d cs _ =>
      split at h
      · next hd =>
        cases h
        rw [literalValue_digits (all_takeWhile _)]
        exact .decimal (numeral_ofDigits digits_ten (hcons hd cs) (all_takeWhile _))
      · cases h
    · cases h

theorem literalValue_of_literal {l : List Char} {v : Int} (h : Literal l v) :
    literalValue l = v := by
  cases h with
  | decimal hn =>
    obtain ⟨-, hdigits, rfl⟩ := hn.read digits_ten
    exact literalValue_digits hdigits
  | negative hn =>
    obtain ⟨-, -, rfl⟩ := hn.read digits_ten
    rfl
  | hexadecimal hx hn =>
    obtain ⟨-, -, rfl⟩ := hn.read digits_sixteen
    rcases hx with rfl | rfl
    · rfl
    · rfl

/-- A literal is read to its end, when no character of a name is behind it. -/
theorem fits_of_literal {l rest : List Char} {v : Int} (h : Literal l v)
    (hrest : Text.startsName rest = false) : Fits (.number (.ofList l)) rest := by
  cases h with
  | decimal hn =>
    obtain ⟨hne, hdigits, -⟩ := hn.read digits_ten
    exact (Token.fits_number hdigits hne hrest).1
  | negative hn =>
    obtain ⟨hne, hdigits, -⟩ := hn.read digits_ten
    exact (Token.fits_number hdigits hne hrest).2
  | @hexadecimal x digits n hx hn =>
    obtain ⟨hne, hdigits, -⟩ := hn.read digits_sixteen
    have htake : (digits ++ rest).takeWhile Token.isHexDigit = digits := by
      rw [List.takeWhile_append_of_pos hdigits]
      cases rest with
      | nil => simp
      | cons c rest =>
        have hc : Token.isHexDigit c = false := by
          refine Bool.eq_false_iff.mpr fun hc => ?_
          have hname : Text.isNameChar c = true :=
            Bool.or_eq_true_iff.mpr (.inl (isAlphanum_of_isHexDigit hc))
          exact absurd (hrest ▸ hname) Bool.false_ne_true
        rw [List.takeWhile_cons_of_neg (by simp [hc]), List.append_nil]
    obtain ⟨d, ds, rfl⟩ := List.exists_cons_of_ne_nil hne
    have hd : Token.isHexDigit d = true := hdigits d List.mem_cons_self
    have hhex : Token.hexLiteral? ('0' :: x :: (d :: ds ++ rest)) = some ('0' :: x :: d :: ds) := by
      rw [List.cons_append] at htake ⊢
      rw [Token.hexLiteral?, htake, if_pos (by simpa [hd] using hx)]
    refine ⟨by simp [Token.spell], ?_⟩
    rw [Token.spell, String.toList_ofList, List.cons_append,
      Token.first?_of_not_mark (by decide) (fun h => absurd h (by decide)) (by decide),
      Token.literal?,
      List.cons_append, hhex]
    rfl

/-! ## Declarations -/

theorem isIdentifier_const : IsIdentifier "const" := Token.isIdentifier_of_all rfl rfl rfl

/-- What may stand before the keyword `const`. -/
inductive Modifier : List Char → Prop
  | none : Modifier []
  | visibility {keyword : String} {gap : List Char} :
      keyword ∈ ["public", "protected", "private"] → gap ≠ [] → Gap gap →
      Modifier (keyword.toList ++ gap)

/-- The line declares the constant. -/
inductive Declares : (line : List Char) → Constant → Prop
  | intro {before modifier gap behindName behindEquals literal behindLiteral mark behind : List Char}
      {c : Constant} :
      Gap before → Modifier modifier → gap ≠ [] → Gap gap → IsIdentifier c.name → Gap behindName →
      Gap behindEquals → Literal literal c.value → Gap behindLiteral → mark = [] ∨ mark = [';'] →
      Gap behind → -0x8000000000000000 ≤ c.value → c.value < 0x8000000000000000 →
      Declares (before ++ (modifier ++ ("const".toList ++ (gap ++ (c.name.toList ++
        (behindName ++ ('=' :: (behindEquals ++ (literal ++ (behindLiteral ++
          (mark ++ behind))))))))))) c

theorem fits_iff {v : Int} :
    fits v = true ↔ -0x8000000000000000 ≤ v ∧ v < 0x8000000000000000 := by
  rw [fits, Bool.and_eq_true, decide_eq_true_eq, decide_eq_true_eq]
  omega

theorem exists_of_ofTokens? {ts : List Token} {c : Constant} (h : ofTokens? ts = some c) :
    ∃ literal mark, skipVisibility ts =
        .word "const" :: .word c.name :: .equals :: .number literal :: mark ∧
      (mark = [] ∨ mark = [.semicolon]) ∧ c.value = literalValue literal.toList ∧
      fits c.value = true := by
  unfold ofTokens? at h
  split at h
  · next name literal hts =>
    dsimp only at h
    split at h
    · next hfits =>
      cases h
      exact ⟨literal, [], hts, Or.inl rfl, rfl, hfits⟩
    · cases h
  · next name literal hts =>
    dsimp only at h
    split at h
    · next hfits =>
      cases h
      exact ⟨literal, [.semicolon], hts, Or.inr rfl, rfl, hfits⟩
    · cases h
  · cases h

theorem ofTokens?_of_skipVisibility {ts mark : List Token} {name literal : String}
    (hts : skipVisibility ts =
      .word "const" :: .word name :: .equals :: .number literal :: mark)
    (hmark : mark = [] ∨ mark = [.semicolon]) (hfits : fits (literalValue literal.toList) = true) :
    ofTokens? ts = some ⟨name, literalValue literal.toList⟩ := by
  rw [ofTokens?, hts]
  rcases hmark with rfl | rfl
  · exact if_pos hfits
  · exact if_pos hfits

theorem skipVisibility_cases (ts : List Token) :
    ts = skipVisibility ts ∨ ∃ w ∈ visibilities, ts = .word w :: skipVisibility ts := by
  unfold skipVisibility
  split
  · next w ts =>
    split
    · next hw => exact Or.inr ⟨w, hw, rfl⟩
    · exact Or.inl rfl
  · exact Or.inl rfl

/-! ## Spacing -/

theorem Gap.startsName {gap rest : List Char} (hgap : Gap gap)
    (hrest : gap ≠ [] ∨ Text.startsName rest = false) :
    Text.startsName (gap ++ rest) = false := by
  cases gap with
  | nil => exact hrest.resolve_left (fun h => h rfl)
  | cons c gap => exact Token.isNameChar_of_isSpacing (hgap c List.mem_cons_self)

/-- Two words do not touch. -/
theorem gap_ne_nil {w : String} {gap rest : List Char} (hw : IsIdentifier w)
    (h : Text.startsName (gap ++ (w.toList ++ rest)) = false) : gap ≠ [] := by
  rintro rfl
  obtain ⟨c, cs, hcs, hc, -⟩ := hw
  rw [List.nil_append, hcs] at h
  exact absurd (h ▸ Text.isNameChar_of_isNameStart hc) Bool.false_ne_true

/-! ## What is read is declared -/

/-- The tokens up to the keyword, as they stand in the line. -/
theorem exists_modifier {line : List Char} {ts us : List Token}
    (hts : skipVisibility ts = .word "const" :: us) (h : Spelled line ts) :
    ∃ before modifier rest, line = before ++ (modifier ++ ("const".toList ++ rest)) ∧
      Gap before ∧ Modifier modifier ∧ Text.startsName rest = false ∧ Spelled rest us := by
  rcases skipVisibility_cases ts with heq | ⟨w, hw, heq⟩
  · rw [heq, hts] at h
    obtain ⟨before, rest, rfl, hbefore, hfits, hrest⟩ := h.exists_first
    exact ⟨before, [], rest, rfl, hbefore, .none, hfits.startsName, hrest⟩
  · rw [heq, hts] at h
    obtain ⟨before, behind, rfl, hbefore, hfits, hbehind⟩ := h.exists_first
    obtain ⟨gap, rest, rfl, hgap, hfits', hrest⟩ := hbehind.exists_first
    have hne : gap ≠ [] := gap_ne_nil isIdentifier_const hfits.startsName
    refine ⟨before, w.toList ++ gap, rest, ?_, hbefore, .visibility hw hne hgap,
      hfits'.startsName, hrest⟩
    simp [Token.spell]

theorem exists_mark {rest : List Char} {mark : List Token} (h : Spelled rest mark)
    (hmark : mark = [] ∨ mark = [.semicolon]) : ∃ gap text behind,
      rest = gap ++ (text ++ behind) ∧ Gap gap ∧ (text = [] ∨ text = [';']) ∧ Gap behind := by
  rcases hmark with rfl | rfl
  · exact ⟨rest, [], [], by simp, h.gap_of_nil, Or.inl rfl, by simp [Gap]⟩
  · obtain ⟨gap, behind, rfl, hgap, -, hbehind⟩ := h.exists_first
    exact ⟨gap, [';'], behind, rfl, hgap, Or.inr rfl, hbehind.gap_of_nil⟩

theorem declares_of_parse? {line : List Char} {c : Constant} (h : parse? line = some c) :
    Declares line c := by
  obtain ⟨ts, hscan, hts⟩ := Option.bind_eq_some_iff.mp h
  obtain ⟨literal, mark, hskip, hmark, hvalue, hfits⟩ := exists_of_ofTokens? hts
  obtain ⟨before, modifier, rest, rfl, hbefore, hmodifier, hclear, hrest⟩ :=
    exists_modifier hskip (Token.spelled_of_scan? hscan)
  obtain ⟨gap, behind₁, rfl, hgap, hname, hrest⟩ := hrest.exists_first
  obtain ⟨behindName, behind₂, rfl, hbehindName, -, hrest⟩ := hrest.exists_first
  obtain ⟨behindEquals, behind₃, rfl, hbehindEquals, hnumber, hrest⟩ := hrest.exists_first
  obtain ⟨behindLiteral, text, behind, rfl, hbehindLiteral, htext, hbehind⟩ :=
    exists_mark hrest hmark
  obtain ⟨-, hidentifier, -⟩ := Token.exists_append_of_first? hname.first
  have hname : IsIdentifier c.name := hidentifier c.name rfl
  have hliteral : Literal literal.toList c.value := by
    rw [hvalue]
    exact literal_of_literal? hnumber.literal
  obtain ⟨hlow, hhigh⟩ := fits_iff.mp hfits
  have hdeclares := Declares.intro hbefore hmodifier (gap_ne_nil hname hclear) hgap hname
    hbehindName hbehindEquals hliteral hbehindLiteral htext hbehind hlow hhigh
  exact hdeclares

/-! ## What is declared is read -/

theorem spelled_mark {mark behind : List Char} (hmark : mark = [] ∨ mark = [';'])
    (hbehind : Gap behind) : Text.startsName (mark ++ behind) = false ∧
      ∃ ts, (ts = [] ∨ ts = [.semicolon]) ∧ Spelled (mark ++ behind) ts := by
  have hend : Spelled behind [] := by
    have hspelled := Spelled.gaps hbehind .nil
    rwa [List.append_nil] at hspelled
  have hclear : Text.startsName (behind ++ []) = false := hbehind.startsName (Or.inr rfl)
  rw [List.append_nil] at hclear
  rcases hmark with rfl | rfl
  · exact ⟨hclear, [], Or.inl rfl, hend⟩
  · exact ⟨rfl, [.semicolon], Or.inr rfl, .mark (t := .semicolon) (by simp) hend⟩

/-- What stands before the keyword is skipped. -/
theorem exists_spelled_modifier {modifier rest : List Char} {ts : List Token}
    (hmodifier : Modifier modifier) (h : Spelled rest (.word "const" :: ts)) :
    ∃ us, skipVisibility us = .word "const" :: ts ∧ Spelled (modifier ++ rest) us := by
  cases hmodifier with
  | none =>
    refine ⟨.word "const" :: ts, ?_, h⟩
    rw [skipVisibility, if_neg (by decide)]
  | @visibility keyword gap hkeyword hne hgap =>
    have hidentifier : IsIdentifier keyword := by
      simp only [List.mem_cons, List.not_mem_nil, or_false] at hkeyword
      rcases hkeyword with rfl | rfl | rfl
      all_goals exact Token.isIdentifier_of_all rfl rfl rfl
    have hclear : Text.startsName (gap ++ rest) = false := hgap.startsName (Or.inl hne)
    refine ⟨.word keyword :: .word "const" :: ts, if_pos hkeyword, ?_⟩
    rw [List.append_assoc]
    exact .word hidentifier hclear (.gaps hgap h)

theorem parse?_of_declares {line : List Char} {c : Constant} (h : Declares line c) :
    parse? line = some c := by
  obtain ⟨hbefore, hmodifier, hne, hgap, hname, hbehindName, hbehindEquals, hliteral,
    hbehindLiteral, hmark, hbehind, hlow, hhigh⟩ := h
  rename_i before modifier gap behindName behindEquals literal behindLiteral mark behind
  obtain ⟨hclear, ts, hts, hspelled⟩ := spelled_mark hmark hbehind
  have hnumber := Spelled.token (fits_of_literal hliteral (hbehindLiteral.startsName (.inr hclear)))
    (.gaps hbehindLiteral hspelled)
  have hequals := Spelled.mark (t := .equals) (by simp) (.gaps hbehindEquals hnumber)
  have hword := Spelled.word hname (hbehindName.startsName (.inr rfl)) (.gaps hbehindName hequals)
  have hconst := Spelled.word isIdentifier_const (hgap.startsName (.inl hne)) (.gaps hgap hword)
  obtain ⟨us, hus, hline⟩ := exists_spelled_modifier hmodifier hconst
  have hscan := Token.scan?_of_spelled (Spelled.gaps hbefore hline)
  have hvalue := literalValue_of_literal hliteral
  have hread := ofTokens?_of_skipVisibility hus hts
  rw [String.toList_ofList, hvalue] at hread
  simp only [Token.spell, String.toList_ofList, List.singleton_append] at hscan
  rw [parse?, hscan, Option.bind_some, hread (fits_iff.mpr ⟨hlow, hhigh⟩)]

/-! ## Printed values -/

/-- A value as it is printed: in decimal, or from zero on in hexadecimal, in either case. -/
inductive Printed : Int → List Char → Prop
  | decimal (v : Int) : Printed v (toString v).toList
  | hexadecimal (n : Nat) {x : Char} {shown : Char → Char} : x = 'x' ∨ x = 'X' →
      shown = id ∨ shown = Char.toUpper →
      Printed n ('0' :: x :: (Nat.toDigits 16 n).map shown)

theorem Printed.literal {v : Int} {l : List Char} (h : Printed v l) : Literal l v := by
  cases h with
  | decimal =>
    obtain ⟨ds, hds, hne, htext, hvalue⟩ := exists_digits v
    have hnumeral := numeral_ofDigits digits_ten hne hds
    rcases htext with htext | htext
    · rw [htext, literalValue_digits hds] at hvalue
      rw [htext, ← hvalue]
      exact .decimal hnumeral
    · rw [htext] at hvalue
      rw [htext, ← hvalue]
      exact .negative hnumeral
  | hexadecimal n hx hshown => exact .hexadecimal hx (numeral_toDigits hshown (by decide) n)

theorem declares_printed {c : Constant} {literal mark : List Char} (hname : IsIdentifier c.name)
    (hlow : -0x8000000000000000 ≤ c.value) (hhigh : c.value < 0x8000000000000000)
    (hliteral : Printed c.value literal) (hmark : mark = [] ∨ mark = [';']) :
    Declares ("const ".toList ++ c.name.toList ++ " = ".toList ++ literal ++ mark) c := by
  have hspace : Gap [' '] := List.forall_mem_singleton.mpr rfl
  have hnone : Gap [] := by simp [Gap]
  have hdeclares := Declares.intro hnone .none (by simp) hspace hname hspace hspace
    hliteral.literal hnone hmark hnone hlow hhigh
  simpa using hdeclares

/-- **Reading a constant is its grammar turned around**: a line is read as a constant if and only if
it declares it. So a constant is read back however its value is printed. -/
theorem parse?_eq_some_iff_declares (line : List Char) :
    (∀ c, parse? line = some c ↔ Declares line c) ∧
      ∀ (c : Constant) (literal mark : List Char), IsIdentifier c.name →
        -0x8000000000000000 ≤ c.value → c.value < 0x8000000000000000 →
        Printed c.value literal → mark = [] ∨ mark = [';'] →
        parse? ("const ".toList ++ c.name.toList ++ " = ".toList ++ literal ++ mark) = some c := by
  refine ⟨fun c => ⟨declares_of_parse?, parse?_of_declares⟩, ?_⟩
  intro c literal mark hname hlow hhigh hliteral hmark
  exact parse?_of_declares (declares_printed hname hlow hhigh hliteral hmark)

/-- The largest value, printed with upper-case digits. -/
theorem parse?_eq_some_iff_declares_largest :
    parse? ("const ".toList ++ "MAX".toList ++ " = ".toList ++ "0X7FFFFFFFFFFFFFFF".toList ++
      [';']) = some ⟨"MAX", 0x7FFFFFFFFFFFFFFF⟩ := by
  have hname : IsIdentifier "MAX" := Token.isIdentifier_of_all rfl rfl rfl
  have hliteral : Printed 0x7FFFFFFFFFFFFFFF "0X7FFFFFFFFFFFFFFF".toList := by
    have hdigits : "0X7FFFFFFFFFFFFFFF".toList =
        '0' :: 'X' :: (Nat.toDigits 16 0x7FFFFFFFFFFFFFFF).map Char.toUpper := by
      decide +kernel
    rw [hdigits]
    exact .hexadecimal 0x7FFFFFFFFFFFFFFF (Or.inr rfl) (Or.inr rfl)
  exact (parse?_eq_some_iff_declares []).2 ⟨"MAX", 0x7FFFFFFFFFFFFFFF⟩ _ _ hname (by decide)
    (by decide) hliteral (Or.inr rfl)

-- A minus sign is for decimal digits, and a keyword may be a name.
example : parse? "const A = -0x1;".toList = none ∧
    parse? "private const const = 1".toList = some ⟨"const", 1⟩ := by
  decide +kernel

end Constant

end PacketGen
