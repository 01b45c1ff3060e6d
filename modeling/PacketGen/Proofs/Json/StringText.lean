import Mathlib.Data.List.Forall2
import PacketGen.Json.Scalar
import PacketGen.Proofs.Text.Encoding

/-!
# The spellings of a string

A string can be written in many ways: a character stands for itself, or behind a backslash by a
letter, by its code, or by the codes of two surrogates. `SpellsChar` says which texts stand for
a character, and `SpellsText` puts them in a row. What is read off any spelling is the string that
is spelled (`stringFrom_spelled`); the program writes one of the spellings (`spells_escaped`).

A string that is passed over is not made of characters: there half a pair of surrogates will do
(`StringPiece`), which spells nothing.
-/

namespace PacketGen.Json

/-! ## Characters -/

/-- A digit in base 16, in upper or lower case. -/
def IsHexDigit (c : Char) (n : Nat) : Prop := n < 16 ∧ (c = hexDigit n ∨ c = (hexDigit n).toUpper)

/-- Four digits in base 16, and the number that they mean. -/
inductive HexCode : List Char → Nat → Prop
  | intro {a b c d : Char} {i j k l : Nat} (ha : IsHexDigit a i) (hb : IsHexDigit b j)
      (hc : IsHexDigit c k) (hd : IsHexDigit d l) :
      HexCode [a, b, c, d] (i * 0x1000 + j * 0x100 + k * 0x10 + l)

/-- The letters behind a backslash, with the characters that they stand for. -/
def shortEscapes : List (Char × Char) :=
  [('"', '"'), ('\\', '\\'), ('/', '/'), ('b', '\x08'), ('f', '\x0c'), ('n', '\n'), ('r', '\r'),
    ('t', '\t')]

/-- A text between quotes that stands for one character. -/
inductive SpellsChar : List Char → Char → Prop
  | plain {c : Char} (hquote : c ≠ '"') (hback : c ≠ '\\') (hcontrol : 0x20 ≤ c.toNat) :
      SpellsChar [c] c
  | short {e c : Char} (he : (e, c) ∈ shortEscapes) : SpellsChar ['\\', e] c
  | code {digits : List Char} {c : Char} (hcode : HexCode digits c.toNat) :
      SpellsChar ('\\' :: 'u' :: digits) c
  | pair {digits digits' : List Char} {m n : Nat} {c : Char} (hleading : HexCode digits m)
      (htrailing : HexCode digits' n) (hm : 0xD800 ≤ m ∧ m ≤ 0xDBFF) (hn : 0xDC00 ≤ n ∧ n ≤ 0xDFFF)
      (hc : c.toNat = (m - 0xD800) * 0x400 + (n - 0xDC00) + 0x10000) :
      SpellsChar ('\\' :: 'u' :: (digits ++ '\\' :: 'u' :: digits')) c

/-- A text between quotes and the characters that it stands for. -/
def SpellsText (text cs : List Char) : Prop :=
  ∃ parts, List.Forall₂ SpellsChar parts cs ∧ text = parts.flatten

/-- What a string is put together from when nothing is made of it. -/
inductive StringPiece : List Char → Prop
  | plain {c : Char} (hquote : c ≠ '"') (hback : c ≠ '\\') (hcontrol : 0x20 ≤ c.toNat) :
      StringPiece [c]
  | short {e c : Char} (he : (e, c) ∈ shortEscapes) : StringPiece ['\\', e]
  | code {digits : List Char} {n : Nat} (hcode : HexCode digits n) :
      StringPiece ('\\' :: 'u' :: digits)

/-! ## Codes -/

theorem hexValue?_of_isHexDigit {c : Char} {n : Nat} (h : IsHexDigit c n) :
    hexValue? c = some n := by
  have hdigits : ∀ n < 16, hexValue? (hexDigit n) = some n ∧
      hexValue? (hexDigit n).toUpper = some n := by decide
  obtain ⟨hlt, rfl | rfl⟩ := h
  · exact (hdigits n hlt).1
  · exact (hdigits n hlt).2

theorem isHexDigit_hexDigit {n : Nat} (h : n < 16) : IsHexDigit (hexDigit n) n := ⟨h, .inl rfl⟩

namespace HexCode

variable {digits : List Char} {n : Nat}

theorem length_eq (h : HexCode digits n) : digits.length = 4 := by
  obtain ⟨⟩ := h
  rfl

theorem ofHex?_eq (h : HexCode digits n) : ofHex? digits = some n := by
  obtain ⟨ha, hb, hc, hd⟩ := h
  simp only [ofHex?, List.foldlM_cons, List.foldlM_nil, hexValue?_of_isHexDigit ha,
    hexValue?_of_isHexDigit hb, hexValue?_of_isHexDigit hc, hexValue?_of_isHexDigit hd,
    Option.map_some, Option.bind_eq_bind, Option.bind_some, Option.pure_def, Option.some_inj]
  omega

/-- The digits are read whatever comes behind them. -/
theorem hexEscape_eq (h : HexCode digits n) (offset : Nat) (rest : List Char) :
    hexEscape offset (digits ++ rest) = .ok n := by
  have hlength := h.length_eq
  have hlong : ¬ Text.byteLength (digits ++ rest) < 4 := by
    have hbytes := Text.length_le_byteLength digits
    rw [Text.byteLength_append]
    omega
  have htake : (digits ++ rest).take 4 = digits := List.take_left' hlength
  rw [hexEscape, if_neg hlong, htake, h.ofHex?_eq]

end HexCode

/-! ## Escapes -/

theorem ofShortEscape?_of_mem {e c : Char} (h : (e, c) ∈ shortEscapes) :
    e ≠ 'u' ∧ ofShortEscape? e = some c := by
  simp only [shortEscapes, List.mem_cons, Prod.mk.injEq, List.not_mem_nil, or_false] at h
  rcases h with ⟨rfl, rfl⟩ | ⟨rfl, rfl⟩ | ⟨rfl, rfl⟩ | ⟨rfl, rfl⟩ | ⟨rfl, rfl⟩ | ⟨rfl, rfl⟩ |
    ⟨rfl, rfl⟩ | ⟨rfl, rfl⟩ <;> exact ⟨by decide, rfl⟩

theorem escape_short {e c : Char} (h : (e, c) ∈ shortEscapes) (offset : Nat) (rest : List Char) :
    escape offset (e :: rest) = .ok (c, 1) := by
  obtain ⟨hcode, hletter⟩ := ofShortEscape?_of_mem h
  rw [escape, if_neg hcode, hletter]

/-- No character has the code of a surrogate. -/
theorem not_surrogate (c : Char) : isTrailing c.toNat = false ∧ isLeading c.toNat = false := by
  have hlimit : c.toNat < 0xD800 ∨ 0xDFFF < c.toNat ∧ c.toNat < 0x110000 := c.valid
  constructor <;>
    · simp only [isTrailing, isLeading, Bool.and_eq_false_iff, decide_eq_false_iff_not]
      omega

theorem escape_code {digits : List Char} {c : Char} (h : HexCode digits c.toNat) (offset : Nat)
    (rest : List Char) : escape offset ('u' :: (digits ++ rest)) = .ok (c, 5) := by
  obtain ⟨htrailing, hleading⟩ := not_surrogate c
  rw [escape, if_pos rfl, unicodeEscape, h.hexEscape_eq]
  show Except.map _ (if isTrailing c.toNat then _ else if !isLeading c.toNat then _ else _) = _
  rw [htrailing, hleading, Char.ofNat_toNat]
  rfl

theorem escape_pair {digits digits' : List Char} {m n : Nat} {c : Char}
    (hleading : HexCode digits m) (htrailing : HexCode digits' n)
    (hm : 0xD800 ≤ m ∧ m ≤ 0xDBFF) (hn : 0xDC00 ≤ n ∧ n ≤ 0xDFFF)
    (hc : c.toNat = (m - 0xD800) * 0x400 + (n - 0xDC00) + 0x10000) (offset : Nat)
    (rest : List Char) :
    escape offset ('u' :: (digits ++ '\\' :: 'u' :: (digits' ++ rest))) = .ok (c, 11) := by
  have hm' : isTrailing m = false ∧ isLeading m = true := by
    simp [isTrailing, isLeading, hm]
    omega
  have hn' : isTrailing n = true := by
    simp [isTrailing, hn]
  have hdrop : (digits ++ '\\' :: 'u' :: (digits' ++ rest)).drop 4 =
      '\\' :: 'u' :: (digits' ++ rest) := List.drop_left' hleading.length_eq
  rw [escape, if_pos rfl, unicodeEscape, hleading.hexEscape_eq]
  dsimp only
  rw [hm'.1, hm'.2, hdrop, if_neg Bool.false_ne_true, if_neg (by decide)]
  simp only [htrailing.hexEscape_eq, hn', if_true, ofSurrogates, ← hc, Char.ofNat_toNat]
  rfl

/-! ## Strings that are read -/

/-- Characters that belong to an escape are passed over. -/
theorem stringFrom_covered (escaped rest : List Char) (offset : Nat) :
    ∃ offset', stringFrom escaped.length offset (escaped ++ rest) = stringFrom 0 offset' rest := by
  induction escaped generalizing offset with
  | nil => exact ⟨offset, rfl⟩
  | cons c escaped ih => exact ih (offset + c.utf8Size)

theorem stringFrom_escape {escaped rest : List Char} {c : Char}
    (h : ∀ offset, escape offset (escaped ++ rest) = .ok (c, escaped.length)) (offset : Nat) :
    ∃ offset', stringFrom 0 offset ('\\' :: (escaped ++ rest)) =
      (stringFrom 0 offset' rest).map fun r => (c :: r.1, r.2) := by
  obtain ⟨offset', hoffset⟩ := stringFrom_covered escaped rest (offset + 1)
  refine ⟨offset', ?_⟩
  rw [stringFrom, if_neg (by decide), if_pos rfl, h]
  dsimp only
  rw [hoffset]

/-- A character is read off any of its spellings. -/
theorem stringFrom_spellsChar {part : List Char} {c : Char} (h : SpellsChar part c)
    (rest : List Char) (offset : Nat) :
    ∃ offset', stringFrom 0 offset (part ++ rest) =
      (stringFrom 0 offset' rest).map fun r => (c :: r.1, r.2) := by
  cases h with
  | plain hquote hback hcontrol =>
    refine ⟨offset + c.utf8Size, ?_⟩
    rw [List.singleton_append, stringFrom, if_neg hquote, if_neg hback,
      if_neg (Nat.not_lt.mpr hcontrol)]
  | @short e _ he =>
    have hescape : ∀ o, escape o ([e] ++ rest) = .ok (c, [e].length) := fun o =>
      escape_short he o rest
    exact stringFrom_escape hescape offset
  | @code digits _ hcode =>
    have hescape : ∀ o, escape o ('u' :: digits ++ rest) = .ok (c, ('u' :: digits).length) := by
      intro o
      rw [List.length_cons, hcode.length_eq]
      exact escape_code hcode o rest
    exact stringFrom_escape hescape offset
  | @pair digits digits' m n _ hleading htrailing hm hn hc =>
    have hescape : ∀ o, escape o ('u' :: (digits ++ '\\' :: 'u' :: digits') ++ rest) =
        .ok (c, ('u' :: (digits ++ '\\' :: 'u' :: digits')).length) := by
      intro o
      have hpair := escape_pair hleading htrailing hm hn hc o rest
      simpa [hleading.length_eq, htrailing.length_eq] using hpair
    exact stringFrom_escape hescape offset

/-- **A string is read off any of its spellings**, up to the closing quote. -/
theorem stringFrom_spelled {text cs : List Char} (h : SpellsText text cs) (rest : List Char)
    (offset : Nat) :
    ∃ offset', stringFrom 0 offset (text ++ '"' :: rest) = .ok (cs, ⟨rest, offset'⟩) := by
  obtain ⟨parts, hparts, rfl⟩ := h
  induction hparts generalizing offset with
  | nil => exact ⟨offset + 1, rfl⟩
  | @cons part c parts cs hpart _ ih =>
    obtain ⟨middle, hmiddle⟩ := stringFrom_spellsChar hpart (parts.flatten ++ '"' :: rest) offset
    obtain ⟨offset', hoffset⟩ := ih middle
    refine ⟨offset', ?_⟩
    rw [List.flatten_cons, List.append_assoc, hmiddle, hoffset]
    rfl

/-! ## Strings that are passed over -/

theorem skipStringFrom_covered (escaped rest : List Char) (offset : Nat) :
    ∃ offset', skipStringFrom escaped.length offset (escaped ++ rest) =
      skipStringFrom 0 offset' rest := by
  induction escaped generalizing offset with
  | nil => exact ⟨offset, rfl⟩
  | cons c escaped ih => exact ih (offset + c.utf8Size)

theorem skipStringFrom_escape {escaped rest : List Char}
    (h : ∀ offset, escapeLength offset (escaped ++ rest) = .ok escaped.length) (offset : Nat) :
    ∃ offset', skipStringFrom 0 offset ('\\' :: (escaped ++ rest)) =
      skipStringFrom 0 offset' rest := by
  obtain ⟨offset', hoffset⟩ := skipStringFrom_covered escaped rest (offset + 1)
  refine ⟨offset', ?_⟩
  rw [skipStringFrom, if_neg (by decide), if_pos rfl, h]
  dsimp only
  rw [hoffset]

theorem skipStringFrom_piece {part : List Char} (h : StringPiece part) (rest : List Char)
    (offset : Nat) :
    ∃ offset', skipStringFrom 0 offset (part ++ rest) = skipStringFrom 0 offset' rest := by
  cases h with
  | @plain c hquote hback hcontrol =>
    refine ⟨offset + c.utf8Size, ?_⟩
    rw [List.singleton_append, skipStringFrom, if_neg hquote, if_neg hback,
      if_neg (Nat.not_lt.mpr hcontrol)]
  | @short e c he =>
    obtain ⟨hcode, hletter⟩ := ofShortEscape?_of_mem he
    have hescape : ∀ o, escapeLength o ([e] ++ rest) = .ok [e].length := by
      intro o
      rw [List.singleton_append, escapeLength, if_neg hcode, hletter]
      rfl
    exact skipStringFrom_escape hescape offset
  | @code digits n hcode =>
    have hescape : ∀ o, escapeLength o ('u' :: digits ++ rest) = .ok ('u' :: digits).length := by
      intro o
      rw [List.cons_append, escapeLength, if_pos rfl, hcode.hexEscape_eq, List.length_cons,
        hcode.length_eq]
      rfl
    exact skipStringFrom_escape hescape offset

theorem skipStringFrom_pieces {parts : List (List Char)} (h : ∀ part ∈ parts, StringPiece part)
    (rest : List Char) (offset : Nat) :
    ∃ offset', skipStringFrom 0 offset (parts.flatten ++ '"' :: rest) = .ok ⟨rest, offset'⟩ := by
  induction parts generalizing offset with
  | nil => exact ⟨offset + 1, rfl⟩
  | cons part parts ih =>
    obtain ⟨hpart, hparts⟩ := List.forall_mem_cons.mp h
    obtain ⟨middle, hmiddle⟩ := skipStringFrom_piece hpart (parts.flatten ++ '"' :: rest) offset
    obtain ⟨offset', hoffset⟩ := ih hparts middle
    refine ⟨offset', ?_⟩
    rw [List.flatten_cons, List.append_assoc, hmiddle, hoffset]

/-! ## The spelling that is written -/

theorem mem_shortEscapes_of_shortEscape? {c e : Char} (h : shortEscape? c = some e) :
    (e, c) ∈ shortEscapes := by
  unfold shortEscape? at h
  split_ifs at h <;>
    · subst c
      cases h
      simp [shortEscapes]

theorem spellsChar_escapeChar (c : Char) : SpellsChar (escapeChar c) c := by
  unfold escapeChar
  split_ifs with hquote hback hcontrol
  · subst hquote
    exact .short (by simp [shortEscapes])
  · subst hback
    exact .short (by simp [shortEscapes])
  · cases hshort : shortEscape? c with
    | some e => exact .short (mem_shortEscapes_of_shortEscape? hshort)
    | none =>
      have hzero : IsHexDigit '0' 0 := isHexDigit_hexDigit (by decide)
      have hhigh : IsHexDigit (hexDigit (c.toNat / 16)) (c.toNat / 16) :=
        isHexDigit_hexDigit (by omega)
      have hlow : IsHexDigit (hexDigit (c.toNat % 16)) (c.toNat % 16) :=
        isHexDigit_hexDigit (by omega)
      have hvalue : 0 * 0x1000 + 0 * 0x100 + c.toNat / 16 * 0x10 + c.toNat % 16 = c.toNat := by
        omega
      have hcode := HexCode.intro hzero hzero hhigh hlow
      rw [hvalue] at hcode
      exact .code hcode
  · exact .plain hquote hback (Nat.le_of_not_lt hcontrol)

/-- What the program writes for a string is one of the string's spellings. -/
theorem spells_escaped (cs : List Char) : SpellsText (cs.flatMap escapeChar) cs := by
  refine ⟨cs.map escapeChar, ?_, rfl⟩
  induction cs with
  | nil => exact .nil
  | cons c cs ih => exact .cons (spellsChar_escapeChar c) ih

end PacketGen.Json
