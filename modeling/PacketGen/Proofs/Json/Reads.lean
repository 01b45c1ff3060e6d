import Mathlib.Data.List.TakeWhile
import PacketGen.Proofs.Json.StringText

/-!
# What readers make of written text

`Reads r text a rest` says that a reader takes just `text` off what is ahead, leaves `rest` and
gives `a`. The offset that the cursor counts along plays no part in what is read, so it is left out:
wherever a cursor stands, there is one behind the text. Readers are put together with `bind`, and so
are these statements.

The statements about words and whole numbers are about the text that is written for them. Strings
may be spelled in other ways than they are written, and are read off any of them (`Reads.spelled`).
-/

namespace PacketGen.Json

variable {α β : Type}

/-- A reader takes `text`, gives `a` and leaves `rest`. -/
def Reads (r : Reader α) (text : List Char) (a : α) (rest : List Char) : Prop :=
  ∀ offset, ∃ offset', r ⟨text ++ rest, offset⟩ = .ok (a, ⟨rest, offset'⟩)

namespace Reads

theorem pure (a : α) (rest : List Char) : Reads (Pure.pure a) [] a rest := fun offset =>
  ⟨offset, rfl⟩

theorem bind {r : Reader α} {f : α → Reader β} {text text' rest : List Char} {a : α} {b : β}
    (hr : Reads r text a (text' ++ rest)) (hf : Reads (f a) text' b rest) :
    Reads (r >>= f) (text ++ text') b rest := by
  intro offset
  obtain ⟨middle, hmiddle⟩ := hr offset
  obtain ⟨offset', hoffset⟩ := hf middle
  refine ⟨offset', ?_⟩
  show Reader.thenDo r f _ = _
  rw [Reader.thenDo, List.append_assoc, hmiddle]
  exact hoffset

/-- A reader that takes nothing before another one. -/
theorem seen {r : Reader α} {f : α → Reader β} {text rest : List Char} {a : α} {b : β}
    (hr : Reads r [] a (text ++ rest)) (hf : Reads (f a) text b rest) :
    Reads (r >>= f) text b rest := hr.bind hf

/-- A reader that takes nothing behind another one. -/
theorem done {r : Reader α} {f : α → Reader β} {text rest : List Char} {a : α} {b : β}
    (hr : Reads r text a rest) (hf : Reads (f a) [] b rest) : Reads (r >>= f) text b rest := by
  have hboth := Reads.bind (f := f) hr hf
  rwa [List.append_nil] at hboth

theorem take (c : Char) (rest : List Char) : Reads Reader.take [c] () rest := fun _ => ⟨_, rfl⟩

theorem peek (rest : List Char) : Reads Reader.peek [] rest.head? rest := fun offset =>
  ⟨offset, rfl⟩

theorem takeWhile {p : Char → Bool} {text rest : List Char} (htext : ∀ c ∈ text, p c = true)
    (hrest : ∀ c, rest.head? = some c → p c = false) :
    Reads (Reader.takeWhile p) text text rest := by
  have htaken : (text ++ rest).takeWhile p = text := by
    have hnone : rest.takeWhile p = [] := by
      cases rest with
      | nil => rfl
      | cons c rest => rw [List.takeWhile_cons, hrest c rfl]; rfl
    rw [List.takeWhile_append_of_pos htext, hnone, List.append_nil]
  intro offset
  refine ⟨offset + Text.byteLength text, ?_⟩
  rw [Reader.takeWhile, Cursor.skip, htaken, Cursor.advance, List.drop_left, List.take_left]

/-- White space is taken, and the character behind it is seen. -/
theorem peekValue {spaces : List Char} (hspaces : ∀ c ∈ spaces, isSpace c = true) {c : Char}
    (hc : isSpace c = false) (rest : List Char) :
    Reads Reader.peekValue spaces (some c) (c :: rest) := by
  have htaken : (spaces ++ c :: rest).takeWhile isSpace = spaces := by
    rw [List.takeWhile_append_of_pos hspaces, List.takeWhile_cons, hc]
    exact List.append_nil spaces
  intro offset
  refine ⟨offset + Text.byteLength spaces, ?_⟩
  rw [Reader.peekValue, Cursor.skip, htaken, Cursor.advance, List.drop_left, List.take_left]
  rfl

/-! ## Words -/

theorem word (w rest : List Char) : Reads (readWord w) w () rest := by
  induction w with
  | nil => exact fun offset => ⟨offset, rfl⟩
  | cons c w ih =>
    intro offset
    obtain ⟨offset', hoffset⟩ := ih (offset + Text.byteLength [c])
    refine ⟨offset', ?_⟩
    show (if c = c then _ else _) = _
    rw [if_pos rfl]
    exact hoffset

end Reads

/-! ## Strings -/

/-- **A string is read off any of its spellings**, behind the opening quote. -/
theorem Reads.spelled {text : List Char} {s : String} (h : SpellsText text s.toList)
    (rest : List Char) : Reads readString (text ++ ['"']) s rest := by
  intro offset
  obtain ⟨offset', hoffset⟩ := stringFrom_spelled h rest offset
  refine ⟨offset', ?_⟩
  rw [List.append_assoc, List.singleton_append, readString, hoffset]
  show Except.ok (String.ofList s.toList, _) = _
  rw [String.ofList_toList]

/-- A string is read off its escaped characters. -/
theorem Reads.string (s : String) (rest : List Char) :
    Reads readString (s.toList.flatMap escapeChar ++ ['"']) s rest :=
  Reads.spelled (spells_escaped s.toList) rest

/-! ## Whole numbers -/

/-- Takes a whole number without a sign. A number with a fraction or an exponent is none. -/
def readWhole : Reader Nat := do
  let digits ← Reader.takeWhile Char.isDigit
  if digits = [] ∨ (digits.head? = some '0' ∧ digits ≠ ['0']) then
    Reader.failAhead .invalidNumber
  else match ← Reader.peek with
    | some '.' | some 'e' | some 'E' => Reader.failAhead .invalidNumber
    | _ => return Nat.ofDigitChars 10 digits 0

/-- What does not go on with a number. -/
def EndsNumber (rest : List Char) : Prop :=
  ∀ c, rest.head? = some c → c.isDigit = false ∧ c ≠ '.' ∧ c ≠ 'e' ∧ c ≠ 'E'

/-- A number is written without leading zeros. -/
theorem head?_toDigits {n : Nat} (hn : n ≠ 0) : (Nat.toDigits 10 n).head? ≠ some '0' := by
  induction n using Nat.strongRecOn with
  | _ n ih =>
    by_cases hlt : n < 10
    · rw [Nat.toDigits_of_lt_base hlt]
      have hdigit : ∀ k < 10, k ≠ 0 → Nat.digitChar k ≠ '0' := by decide
      exact fun h => hdigit n hlt hn (Option.some.inj h)
    · have hdiv : n / 10 ≠ 0 := by omega
      have hfirst := ih (n / 10) (by omega) hdiv
      obtain ⟨d, ds, hdigits⟩ := List.exists_cons_of_ne_nil (@Nat.toDigits_ne_nil (n / 10) 10)
      rw [Nat.toDigits_of_base_le (by decide) (Nat.le_of_not_lt hlt), hdigits]
      rw [hdigits] at hfirst
      exact hfirst

theorem Reads.whole (n : Nat) {rest : List Char} (hrest : EndsNumber rest) :
    Reads readWhole (Nat.toDigits 10 n) n rest := by
  have hdigits : ∀ c ∈ Nat.toDigits 10 n, c.isDigit = true := fun c hc =>
    Nat.isDigit_of_mem_toDigits (by decide) (by decide) hc
  have hleading : ¬ (Nat.toDigits 10 n = [] ∨
      ((Nat.toDigits 10 n).head? = some '0' ∧ Nat.toDigits 10 n ≠ ['0'])) := by
    rintro (hnil | ⟨hzero, hmore⟩)
    · exact Nat.toDigits_ne_nil hnil
    · by_cases hn : n = 0
      · subst hn
        exact hmore rfl
      · exact head?_toDigits hn hzero
  refine (Reads.takeWhile hdigits fun c hc => (hrest c hc).1).done ?_
  rw [if_neg hleading]
  refine (Reads.peek rest).done ?_
  rw [Nat.ofDigitChars_ten_toDigits]
  split
  · next h => exact absurd rfl (hrest _ h).2.1
  · next h => exact absurd rfl (hrest _ h).2.2.1
  · next h => exact absurd rfl (hrest _ h).2.2.2
  · exact Reads.pure n rest

end PacketGen.Json
