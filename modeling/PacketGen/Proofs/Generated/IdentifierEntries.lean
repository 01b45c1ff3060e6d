import PacketGen.Generated.Identifiers
import PacketGen.Proofs.Generated.GoConstants
import PacketGen.Proofs.Generated.GoStatement
import PacketGen.Proofs.IdTable.Names

/-!
# Lines of the identifier block, read back

Each kind of line that the identifier block is written with is read again as what it is meant to be:
the line that opens the enumeration with its expression in either sign, the lines that only have a
name, the constants of the aliases, and the entries of both lookup tables.

A constant can be read at all because its name is a word, and can be told from `iota` and from the
blank identifier because it starts with an upper-case letter or a digit (`constant_ne`).
-/

namespace PacketGen.Generated

variable {t : IdType} {name : String}

/-! ## Constants as words -/

theorem isGoWordChar_of_isAlphanum {c : Char} (hc : c.isAlphanum = true) :
    isGoWordChar c = true := by
  simp [isGoWordChar, Text.isNameChar, hc]

theorem IsGoWord.feed_not_mem {w : String} (h : IsGoWord w) : '\n' ∉ w.toList := fun hfeed =>
  absurd (h.2 _ hfeed) (by decide)

/-- A name that is not empty, in the case that tables have. -/
def IsStem (name : String) : Prop := name ≠ "" ∧ Text.IsPascal name

theorem IsStem.isGoWord (h : IsStem name) : IsGoWord name :=
  ⟨h.1, fun c hc => isGoWordChar_of_isAlphanum (h.2.alphanum c hc)⟩

theorem isGoWord_constant (hsuffix : ∀ c ∈ t.suffix.toList, isGoWordChar c = true)
    (h : IsStem name) : IsGoWord (t.constant name) := by
  refine ⟨?_, ?_⟩
  · intro hempty
    exact h.1 (String.append_eq_empty_iff.mp hempty).1
  · intro c hc
    rw [IdType.constant, String.toList_append] at hc
    rcases List.mem_append.mp hc with hc | hc
    · exact h.isGoWord.2 c hc
    · exact hsuffix c hc

/-- A constant starts as its name does, with no lower-case letter and no underscore. -/
theorem constant_ne (h : IsStem name) {w : String}
    (hw : ∃ c ∈ w.toList.head?, c.isAlphanum = true → c.isLower = true) : t.constant name ≠ w := by
  rintro rfl
  obtain ⟨c, hc, hlower⟩ := hw
  have hne : name.toList ≠ [] := by simpa using h.1
  obtain ⟨d, ds, hds⟩ := List.exists_cons_of_ne_nil hne
  rw [IdType.constant, String.toList_append, hds] at hc
  cases hc
  have halphanum := h.2.alphanum c (hds ▸ List.mem_cons_self)
  have hfirst := h.2.first c (by simp [hds])
  rw [hlower halphanum] at hfirst
  cases hfirst

theorem constant_ne_iota (h : IsStem name) : t.constant name ≠ "iota" :=
  constant_ne h ⟨'i', rfl, by decide⟩

theorem constant_ne_blank (h : IsStem name) : t.constant name ≠ "_" :=
  constant_ne h ⟨'_', rfl, by decide⟩

theorem constant_inj {a b : String} : t.constant a = t.constant b ↔ a = b := by
  constructor
  · intro h
    have hlist := congrArg String.toList h
    rw [IdType.constant, IdType.constant, String.toList_append, String.toList_append] at hlist
    exact String.toList_inj.mp (List.append_cancel_right hlist)
  · intro h
    rw [h]

/-! ## Lines of constants -/

open GoLexeme (lex EndsWord)

theorem endsWord_cons {c : Char} (cs : List Char) (hc : isGoWordChar c = false) :
    EndsWord (c :: cs) := by
  intro d hd
  cases hd
  exact hc

theorem isGoWord_toString (n : Nat) : IsGoWord (toString n) := by
  have htext : (toString n).toList = Nat.toDigits 10 n := Nat.toList_repr
  refine ⟨?_, ?_⟩
  · intro hempty
    have hnil := congrArg String.toList hempty
    rw [htext] at hnil
    exact Nat.toDigits_ne_nil hnil
  · intro c hc
    rw [htext] at hc
    have hdigit := Nat.isDigit_of_mem_toDigits (by decide) (by decide) hc
    exact isGoWordChar_of_isAlphanum (by simp [Char.isAlphanum, hdigit])

theorem lex_comment (v : Int) :
    lex false [] ("// ".toList ++ (toString v).toList) = [.comment (" " ++ toString v)] := by
  have htext : String.ofList (' ' :: (toString v).toList) = " " ++ toString v := by
    rw [← String.toList_inj, String.toList_ofList, String.toList_append]
    rfl
  rw [← htext]
  rfl

theorem lex_iota {cs : List Char} (hcs : EndsWord cs) :
    lex false [] ("iota".toList ++ cs) = .word "iota" :: lex false [] cs :=
  GoLexeme.lex_word (isGoWord_of_all (by decide) rfl) hcs

theorem lex_offset {sign : Char} (hsign : sign = '+' ∨ sign = '-') (n : Nat) (cs : List Char) :
    lex false [] ("iota".toList ++ ' ' :: sign :: ' ' :: ((toString n).toList ++ ' ' :: cs)) =
      [.word "iota", .mark sign, .word (toString n)] ++ lex false [] cs := by
  have hnumber := GoLexeme.lex_word (isGoWord_toString n) (endsWord_cons (c := ' ') cs (by decide))
  have hmark (ds : List Char) :
      lex false [] (' ' :: sign :: ' ' :: ds) = .mark sign :: lex false [] ds := by
    rcases hsign with rfl | rfl
    · rfl
    · rfl
  rw [lex_iota (endsWord_cons _ (by decide)), hmark, hnumber]
  rfl

/-- An expression in the line index is read as it is meant. -/
theorem exists_lex_render (e : LineIndex) (cs : List Char) :
    ∃ parts, lex false [] (e.render.toList ++ ' ' :: cs) = parts ++ lex false [] cs ∧
      GoExpression.ofLexemes? parts = some (.iota e.offset) := by
  have hplus : "iota + ".toList = "iota".toList ++ [' ', '+', ' '] := by decide
  have hminus : "iota - ".toList = "iota".toList ++ [' ', '-', ' '] := by decide
  unfold LineIndex.render
  by_cases hzero : e.offset = 0
  · refine ⟨[.word "iota"], ?_, ?_⟩
    · rw [if_pos hzero, lex_iota (endsWord_cons _ (by decide))]
      rfl
    · rw [hzero]
      rfl
  · rw [if_neg hzero]
    by_cases hpositive : 0 < e.offset
    · obtain ⟨n, hn⟩ := Int.eq_ofNat_of_zero_le (Int.le_of_lt hpositive)
      have hcast : toString (n : Int) = toString n := rfl
      refine ⟨[.word "iota", .mark '+', .word (toString n)], ?_, ?_⟩
      · rw [if_pos hpositive, hn, hcast, String.toList_append, hplus, List.append_assoc,
          List.append_assoc]
        exact lex_offset (Or.inl rfl) n cs
      · rw [hn, GoExpression.ofLexemes?, if_pos rfl, numeral?_toString]
        rfl
    · have hoffset : e.offset = -(e.offset.natAbs : Int) := by omega
      refine ⟨[.word "iota", .mark '-', .word (toString e.offset.natAbs)], ?_, ?_⟩
      · rw [if_neg hpositive, String.toList_append, hminus, List.append_assoc, List.append_assoc]
        exact lex_offset (Or.inr rfl) e.offset.natAbs cs
      · rw [GoExpression.ofLexemes?, if_pos rfl, numeral?_toString, Option.map_some, ← hoffset]

namespace GoConstant

theorem parse?_comment {line : List Char} {parts : List GoLexeme} {s : String}
    (h : lex false [] line = parts ++ [.comment s]) : parse? line = ofLexemes? (some s) parts := by
  rw [parse?, h, List.getLast?_concat, List.dropLast_concat]

/-- What a line of the enumeration is read as. -/
def ofEnumLine : EnumLine → GoConstant
  | .opening c _ e n => ⟨c, some (.iota e.offset), some (" " ++ toString n)⟩
  | .named c n => ⟨c, none, some (" " ++ toString n)⟩
  | .blank n => ⟨"_", none, some (" " ++ toString n)⟩

theorem parse?_opening {c type : String} (hc : IsGoWord c) (htype : IsGoWord type) (e : LineIndex)
    (v : Int) :
    parse? (lineOf (EnumLine.opening c type e v).render) =
      some (ofEnumLine (.opening c type e v)) := by
  have hline : lineOf (EnumLine.opening c type e v).render =
      '\t' :: (c.toList ++ ' ' :: (type.toList ++ ' ' :: '=' :: ' ' ::
        (e.render.toList ++ ' ' :: ("// ".toList ++ (toString v).toList)))) := by
    rw [EnumLine.render, lineOf_line]
    simp only [String.toList_append, List.append_assoc]
    rfl
  obtain ⟨parts, hparts, hread⟩ := exists_lex_render e ("// ".toList ++ (toString v).toList)
  have hlex : lex false [] (lineOf (EnumLine.opening c type e v).render) =
      (.word c :: .word type :: .mark '=' :: parts) ++ [.comment (" " ++ toString v)] := by
    rw [hline]
    change lex false [] (c.toList ++ _) = _
    rw [GoLexeme.lex_word hc (endsWord_cons _ (by decide))]
    change _ :: lex false [] (type.toList ++ _) = _
    rw [GoLexeme.lex_word htype (endsWord_cons _ (by decide))]
    change _ :: _ :: .mark '=' :: lex false [] (e.render.toList ++ _) = _
    rw [hparts, lex_comment]
    rfl
  rw [parse?_comment hlex]
  change (GoExpression.ofLexemes? parts).map _ = _
  rw [hread]
  rfl

/-- A line with nothing but a name before the comment. -/
theorem parse?_bare {w : String} (hw : IsGoWord w) (v : Int) :
    parse? (lineOf ("\t" ++ w ++ " // " ++ toString v ++ "\n")) =
      some ⟨w, none, some (" " ++ toString v)⟩ := by
  have hline : lineOf ("\t" ++ w ++ " // " ++ toString v ++ "\n") =
      '\t' :: (w.toList ++ ' ' :: ("// ".toList ++ (toString v).toList)) := by
    rw [lineOf_line]
    simp only [String.toList_append, List.append_assoc]
    rfl
  have hlex : lex false [] (lineOf ("\t" ++ w ++ " // " ++ toString v ++ "\n")) =
      [.word w] ++ [.comment (" " ++ toString v)] := by
    rw [hline]
    change lex false [] (w.toList ++ _) = _
    rw [GoLexeme.lex_word hw (endsWord_cons _ (by decide))]
    change _ :: lex false [] ("// ".toList ++ _) = _
    rw [lex_comment]
    rfl
  rw [parse?_comment hlex]
  rfl

theorem parse?_named {c : String} (hc : IsGoWord c) (v : Int) :
    parse? (lineOf (EnumLine.named c v).render) = some (ofEnumLine (.named c v)) :=
  parse?_bare hc v

theorem parse?_blank (v : Int) :
    parse? (lineOf (EnumLine.blank v).render) = some (ofEnumLine (.blank v)) :=
  parse?_bare (w := "_") (isGoWord_of_all (by decide) rfl) v

theorem parse?_alias {a c : String} (ha : IsGoWord a) (hc : IsGoWord c) (hiota : c ≠ "iota") :
    parse? (lineOf ("\t" ++ a ++ " = " ++ c ++ "\n")) = some ⟨a, some (.constant c), none⟩ := by
  have hline : lineOf ("\t" ++ a ++ " = " ++ c ++ "\n") =
      '\t' :: (a.toList ++ ' ' :: '=' :: ' ' :: (c.toList ++ [])) := by
    rw [lineOf_line]
    simp only [String.toList_append, List.append_assoc, List.append_nil]
    rfl
  have hlex : lex false [] (lineOf ("\t" ++ a ++ " = " ++ c ++ "\n")) =
      [.word a, .mark '=', .word c] := by
    rw [hline]
    change lex false [] (a.toList ++ _) = _
    rw [GoLexeme.lex_word ha (endsWord_cons _ (by decide))]
    change _ :: .mark '=' :: lex false [] (c.toList ++ []) = _
    rw [GoLexeme.lex_word hc (by simp [EndsWord])]
    rfl
  have hread : ofLexemes? none [.word a, .mark '=', .word c] =
      (some (if c = "iota" then GoExpression.iota 0 else .constant c)).map fun e =>
        ⟨a, some e, none⟩ := rfl
  rw [if_neg hiota] at hread
  rw [parse?, hlex]
  exact hread

end GoConstant

/-! ## Entries of the lookup tables -/

namespace GoIdentifiers

theorem readValue?_line {key c : String} (hkey : IsGoWord key) (hc : IsGoWord c) :
    readValue? (lineOf ("\t\"" ++ key ++ "\": " ++ c ++ ",\n")) = some (key, c) := by
  have hline : lineOf ("\t\"" ++ key ++ "\": " ++ c ++ ",\n") =
      '\t' :: '"' :: (key.toList ++ '"' :: ':' :: ' ' :: (c.toList ++ [','])) := by
    rw [lineOf_append _ (by decide)]
    simp only [String.toList_append, List.append_assoc]
    rfl
  have hlex : lex false [] (lineOf ("\t\"" ++ key ++ "\": " ++ c ++ ",\n")) =
      [.text key, .mark ':', .word c, .mark ','] := by
    rw [hline]
    change lex false [] ('"' :: (key.toList ++ '"' :: _)) = _
    rw [GoLexeme.lex_text _ hkey.2]
    change _ :: .mark ':' :: lex false [] (c.toList ++ [',']) = _
    rw [GoLexeme.lex_word hc (endsWord_cons _ (by decide))]
    rfl
  rw [readValue?, hlex]
  rfl

theorem readName?_line {c s : String} (hc : IsGoWord c) (hs : IsGoWord s) :
    readName? (lineOf ("\t" ++ c ++ ": \"" ++ s ++ "\",\n")) = some (c, s) := by
  have hline : lineOf ("\t" ++ c ++ ": \"" ++ s ++ "\",\n") =
      '\t' :: (c.toList ++ ':' :: ' ' :: '"' :: (s.toList ++ '"' :: [','])) := by
    rw [lineOf_append _ (by decide)]
    simp only [String.toList_append, List.append_assoc]
    rfl
  have hlex : lex false [] (lineOf ("\t" ++ c ++ ": \"" ++ s ++ "\",\n")) =
      [.word c, .mark ':', .text s, .mark ','] := by
    rw [hline]
    change lex false [] (c.toList ++ _) = _
    rw [GoLexeme.lex_word hc (endsWord_cons _ (by decide))]
    change _ :: .mark ':' :: lex false [] ('"' :: (s.toList ++ '"' :: [','])) = _
    rw [GoLexeme.lex_text _ hs.2]
    rfl
  rw [readName?, hlex]
  rfl

end GoIdentifiers

end PacketGen.Generated
