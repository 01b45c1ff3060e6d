import PacketGen.Proofs.Token.Spelling

/-!
# Scanning accepts exactly the spaced tokens

`Spaced ts cs` is what it means for a text to be the tokens `ts`: their spellings one after the
other, with any run of spacing before, between and behind them. Nothing in it is about scanning, so
it can stand on the other side of what a reader of tokens accepts.

Both directions are here. What the scan returns is spelled in the text (`spelled_of_scan?`), and so
it is spaced over the text and each of its words is an identifier (`spaced_of_scan?`). The other way
does not hold of every token list, since `ab` is the words `a` and `b` without spacing as well as
the one word `ab`; it holds where a mark stands behind every word (`scan?_of_spaced`), as in every
statement.
-/

namespace PacketGen.Token

/-- The text `cs` is the tokens `ts`, with any spacing around each of them. -/
inductive Spaced : List Token → List Char → Prop
  | nil {gap : List Char} : (∀ c ∈ gap, isSpacing c = true) → Spaced [] gap
  | cons {t : Token} {ts : List Token} {gap cs : List Char} :
      (∀ c ∈ gap, isSpacing c = true) → Spaced ts cs → Spaced (t :: ts) (gap ++ (t.spell ++ cs))

theorem Spaced.gap {ts : List Token} {c : Char} {cs : List Char} (hc : isSpacing c = true)
    (h : Spaced ts cs) : Spaced ts (c :: cs) := by
  cases h with
  | nil hgap => exact .nil (List.forall_mem_cons.mpr ⟨hc, hgap⟩)
  | @cons t ts gap cs hgap h =>
    rw [← List.cons_append]
    exact .cons (List.forall_mem_cons.mpr ⟨hc, hgap⟩) h

/-! ## What is read is there -/

theorem exists_append_takeWhile (p : Char → Bool) (cs : List Char) :
    ∃ rest, cs = cs.takeWhile p ++ rest :=
  ⟨cs.dropWhile p, List.takeWhile_append_dropWhile.symm⟩

theorem exists_append_of_hexLiteral? {cs l : List Char} (h : hexLiteral? cs = some l) :
    l ≠ [] ∧ ∃ rest, cs = l ++ rest := by
  unfold hexLiteral? at h
  split at h
  · next x d cs =>
    split at h
    · cases h
      obtain ⟨rest, hrest⟩ := exists_append_takeWhile isHexDigit (d :: cs)
      exact ⟨by simp, rest, congrArg ('0' :: x :: ·) hrest⟩
    · cases h
  · cases h

theorem exists_append_of_decimalLiteral? {cs l : List Char} (h : decimalLiteral? cs = some l) :
    l ≠ [] ∧ ∃ rest, cs = l ++ rest := by
  unfold decimalLiteral? at h
  split at h
  · next d cs =>
    split at h
    · cases h
      obtain ⟨rest, hrest⟩ := exists_append_takeWhile Char.isDigit (d :: cs)
      exact ⟨by simp, rest, congrArg ('-' :: ·) hrest⟩
    · cases h
  · next d cs _ =>
    split at h
    · next hd =>
      cases h
      rw [List.takeWhile_cons_of_pos hd]
      obtain ⟨rest, hrest⟩ := exists_append_takeWhile Char.isDigit cs
      exact ⟨by simp, rest, congrArg (d :: ·) hrest⟩
    · cases h
  · cases h

theorem exists_append_of_literal? {cs l : List Char} (h : literal? cs = some l) :
    l ≠ [] ∧ ∃ rest, cs = l ++ rest := by
  rw [literal?] at h
  cases hhex : hexLiteral? cs with
  | none =>
    rw [hhex, Option.none_or] at h
    exact exists_append_of_decimalLiteral? h
  | some k =>
    rw [hhex, Option.some_or] at h
    cases h
    exact exists_append_of_hexLiteral? hhex

/-- A word is an identifier; the other tokens are whatever they are. -/
def NamesWord (t : Token) : Prop := ∀ w, t = .word w → IsIdentifier w

theorem isIdentifier_takeWhile {c : Char} (cs : List Char) (hc : Text.isNameStart c = true) :
    IsIdentifier (.ofList ((c :: cs).takeWhile Text.isNameChar)) := by
  refine ⟨c, cs.takeWhile Text.isNameChar, ?_, hc, ?_⟩
  · rw [String.toList_ofList, List.takeWhile_cons_of_pos (Text.isNameChar_of_isNameStart hc)]
  · intro d hd
    exact List.all_eq_true.mp List.all_takeWhile d hd

/-- The token a text starts with is spelled at its start. -/
theorem exists_append_of_first? {cs : List Char} {t : Token} (h : first? cs = some t) :
    t.spell ≠ [] ∧ NamesWord t ∧ ∃ rest, cs = t.spell ++ rest := by
  have hmark (t : Token) (ht : ∀ w, t ≠ .word w) : NamesWord t := fun w hw => absurd hw (ht w)
  unfold first? at h
  split at h
  case h_1 => cases h
  case h_2 cs | h_3 cs | h_4 cs | h_5 cs | h_6 cs | h_7 cs =>
    cases h
    exact ⟨by decide, hmark _ (by simp), cs, rfl⟩
  case h_8 c cs _ _ _ _ _ _ =>
    split at h
    · next hc =>
      cases h
      have hname := isIdentifier_takeWhile cs hc
      obtain ⟨rest, hrest⟩ := exists_append_takeWhile Text.isNameChar (c :: cs)
      refine ⟨?_, ?_, rest, ?_⟩
      · intro hnil
        exact hname.isWord.1 hnil
      · intro w hw
        cases hw
        exact hname
      · rw [spell, String.toList_ofList]
        exact hrest
    · obtain ⟨l, hl, rfl⟩ := Option.map_eq_some_iff.mp h
      obtain ⟨hne, rest, hrest⟩ := exists_append_of_literal? hl
      refine ⟨?_, hmark _ (by simp), rest, ?_⟩
      · rw [spell, String.toList_ofList]
        exact hne
      · rw [spell, String.toList_ofList]
        exact hrest

/-- **What is scanned is spelled**, each token clear of what is behind it. The induction is on the
length of the text, because a token takes as many characters as its spelling has. -/
theorem spelled_of_scan? {cs : List Char} {ts : List Token} (h : scan? cs = some ts) :
    Spelled cs ts := by
  induction hn : cs.length using Nat.strongRecOn generalizing cs ts with
  | ind n ih =>
    cases cs with
    | nil =>
      cases h
      exact .nil
    | cons c cs =>
      rw [scan?, scanFrom?] at h
      split at h
      · next hc => exact .gap hc (ih cs.length (by simp [← hn]) h rfl)
      · obtain ⟨t, ht, h⟩ := Option.bind_eq_some_iff.mp h
        obtain ⟨us, hus, rfl⟩ := Option.map_eq_some_iff.mp h
        obtain ⟨hne, -, rest, hrest⟩ := exists_append_of_first? ht
        have hfits : Fits t rest := ⟨hne, hrest ▸ ht⟩
        obtain ⟨d, ds, hspell⟩ := List.exists_cons_of_ne_nil hne
        rw [hspell, List.cons_append] at hrest
        obtain ⟨rfl, rfl⟩ := List.cons.inj hrest
        rw [hspell, List.length_cons, Nat.add_sub_cancel, scanFrom?_covered] at hus
        have hshort : rest.length < n := by
          rw [← hn, List.length_cons, List.length_append]
          omega
        have hspelled := Spelled.token hfits (ih rest.length hshort hus rfl)
        rwa [hspell] at hspelled

theorem Spelled.spaced {cs : List Char} {ts : List Token} (h : Spelled cs ts) : Spaced ts cs := by
  induction h with
  | nil => exact .nil (by simp)
  | gap hc _ ih => exact ih.gap hc
  | @token t cs ts _ _ ih =>
    have hspaced : Spaced (t :: ts) ([] ++ (t.spell ++ cs)) := .cons (by simp) ih
    exact hspaced

theorem Spelled.namesWord {cs : List Char} {ts : List Token} (h : Spelled cs ts) :
    ∀ t ∈ ts, NamesWord t := by
  induction h with
  | nil => simp
  | gap _ _ ih => exact ih
  | token hfits _ ih =>
    obtain ⟨-, hword, -⟩ := exists_append_of_first? hfits.first
    exact List.forall_mem_cons.mpr ⟨hword, ih⟩

theorem Spelled.gap_of_nil {cs : List Char} (h : Spelled cs []) :
    ∀ c ∈ cs, isSpacing c = true := by
  generalize hts : [] = ts at h
  induction h with
  | nil => simp
  | gap hc _ ih => exact List.forall_mem_cons.mpr ⟨hc, ih hts⟩
  | token => cases hts

/-- The first token stands behind spacing. -/
theorem Spelled.exists_first {cs : List Char} {t : Token} {ts : List Token}
    (h : Spelled cs (t :: ts)) : ∃ gap rest, cs = gap ++ (t.spell ++ rest) ∧
      (∀ c ∈ gap, isSpacing c = true) ∧ Fits t rest ∧ Spelled rest ts := by
  generalize hus : t :: ts = us at h
  induction h with
  | nil => cases hus
  | @gap c cs us hc _ ih =>
    obtain ⟨gap, rest, rfl, hgap, hrest⟩ := ih hus
    exact ⟨c :: gap, rest, rfl, List.forall_mem_cons.mpr ⟨hc, hgap⟩, hrest⟩
  | @token u cs us hfits hspelled _ =>
    cases hus
    exact ⟨[], cs, rfl, by simp, hfits, hspelled⟩

/-- **What is scanned is there.** -/
theorem spaced_of_scan? {cs : List Char} {ts : List Token} (h : scan? cs = some ts) :
    Spaced ts cs ∧ ∀ t ∈ ts, NamesWord t :=
  ⟨(spelled_of_scan? h).spaced, (spelled_of_scan? h).namesWord⟩

/-! ## What is there is read -/

def isMark : Token → Bool
  | word _ | number _ => false
  | this | arrow | openParen | closeParen | equals | semicolon => true

/-- Every token is a mark, or an identifier with a mark or nothing behind it. -/
inductive Parted : List Token → Prop
  | nil : Parted []
  | mark {t : Token} {ts : List Token} : t.isMark = true → Parted ts → Parted (t :: ts)
  | word {w : String} {ts : List Token} : IsIdentifier w → (∀ t ∈ ts.head?, t.isMark = true) →
      Parted ts → Parted (.word w :: ts)

theorem mark_cases {t : Token} (ht : t.isMark = true) : t = .this ∨ t = .arrow ∨ t = .openParen ∨
    t = .closeParen ∨ t = .equals ∨ t = .semicolon := by
  cases t with
  | word w => cases ht
  | number l => cases ht
  | this => simp
  | arrow => simp
  | openParen => simp
  | closeParen => simp
  | equals => simp
  | semicolon => simp

theorem isNameChar_of_isSpacing {c : Char} (hc : isSpacing c = true) :
    Text.isNameChar c = false := by
  simp only [isSpacing, Bool.or_eq_true, beq_iff_eq] at hc
  rcases hc with ((rfl | rfl) | rfl) | rfl
  all_goals rfl

theorem startsName_spell {t : Token} (ht : t.isMark = true) (cs : List Char) :
    Text.startsName (t.spell ++ cs) = false := by
  rcases mark_cases ht with rfl | rfl | rfl | rfl | rfl | rfl
  all_goals rfl

/-- Spacing ends a name, and so does a mark. -/
theorem Spaced.startsName {ts : List Token} {cs : List Char} (h : Spaced ts cs)
    (hts : ∀ t ∈ ts.head?, t.isMark = true) : Text.startsName cs = false := by
  cases h with
  | nil hgap =>
    cases cs with
    | nil => rfl
    | cons c cs => exact isNameChar_of_isSpacing (hgap c List.mem_cons_self)
  | @cons t ts spaces cs hgap h =>
    cases spaces with
    | nil => exact startsName_spell (hts t rfl) cs
    | cons c spaces => exact isNameChar_of_isSpacing (hgap c List.mem_cons_self)

theorem Spelled.gaps {gap cs : List Char} {ts : List Token} (hgap : ∀ c ∈ gap, isSpacing c = true)
    (h : Spelled cs ts) : Spelled (gap ++ cs) ts := by
  induction gap with
  | nil => exact h
  | cons c gap ih =>
    have hc := List.forall_mem_cons.mp hgap
    exact .gap hc.1 (ih hc.2)

theorem spelled_of_spaced {ts : List Token} {cs : List Char} (hts : Parted ts)
    (h : Spaced ts cs) : Spelled cs ts := by
  induction h with
  | @nil gap hgap =>
    have hspelled := Spelled.gaps hgap .nil
    rwa [List.append_nil] at hspelled
  | @cons t ts gap cs hgap h ih =>
    refine Spelled.gaps hgap ?_
    cases hts with
    | mark ht hts => exact .mark (mark_cases ht) (ih hts)
    | word hw hmark hts => exact .word hw (h.startsName hmark) (ih hts)

/-- **What is there is scanned**, where a mark is behind every word. -/
theorem scan?_of_spaced {ts : List Token} {cs : List Char} (hts : Parted ts) (h : Spaced ts cs) :
    scan? cs = some ts :=
  scan?_of_spelled (spelled_of_spaced hts h)

end PacketGen.Token
