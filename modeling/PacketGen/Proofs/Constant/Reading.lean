import PacketGen.Proofs.Constant.Grammar
import PacketGen.Proofs.PacketClass.CodeLines
import PacketGen.Proofs.PacketClass.Search
import PacketGen.Proofs.Statement.Source

/-!
# Constants as they are written

`Constant.source` is how a constant usually looks in a packet source: its value is written in
decimal, with a minus sign where it is negative. It is read back as the constant (`parse?_source`)
if the value fits 64 bits.
-/

namespace PacketGen.Constant

open Token (IsIdentifier)

def source (c : Constant) : String := "const " ++ c.name ++ " = " ++ toString c.value

theorem toList_source (c : Constant) : c.source.toList =
    "const ".toList ++ c.name.toList ++ " = ".toList ++ (toString c.value).toList := by
  simp only [source, String.toList_append]

/-! ## Reading it -/

/-- **A constant survives being written**, as long as its value fits. -/
theorem parse?_source {c : Constant} (hname : IsIdentifier c.name) (hvalue : fits c.value = true) :
    parse? c.source.toList = some c := by
  obtain ⟨hlow, hhigh⟩ := fits_iff.mp hvalue
  have hdeclares := declares_printed hname hlow hhigh (.decimal c.value) (Or.inl rfl)
  rw [toList_source, ← List.append_nil (_ ++ (toString c.value).toList)]
  exact parse?_of_declares hdeclares

theorem parse?_nil : parse? [] = none := rfl

theorem parse?_statement {s : Statement} (hs : s.WellFormed) :
    parse? s.source.toList = none := by
  have hspelled := Statement.spelled_source hs .nil
  obtain ⟨rest, hrest⟩ := s.exists_tokens
  rw [List.append_nil, List.append_nil, hrest] at hspelled
  rw [parse?, Token.scan?_of_spelled hspelled]
  rfl

/-! ## What is in it -/

theorem plain_value (v : Int) : Token.Plain (toString v).toList := by
  obtain ⟨ds, hds, -, htext, -⟩ := exists_digits v
  have hplain : Token.Plain ds := fun d hd =>
    Or.inl (by simp [Text.isNameChar, Char.isAlphanum, hds d hd])
  rcases htext with htext | htext
  · rw [htext]
    exact hplain
  · rw [htext]
    exact List.forall_mem_cons.mpr ⟨Or.inr (by simp), hplain⟩

theorem plain_source {c : Constant} (hname : IsIdentifier c.name) :
    Token.Plain c.source.toList := by
  have hconst : Token.Plain "const ".toList := by decide
  rw [toList_source]
  exact ((hconst.append hname.plain).append (by decide)).append (plain_value c.value)

theorem open_not_mem_source {c : Constant} (hname : IsIdentifier c.name) :
    '(' ∉ c.source.toList := by
  obtain ⟨ds, hds, -, htext, -⟩ := exists_digits c.value
  have hdigits : '(' ∉ ds := fun h => absurd (hds _ h) (by decide)
  have hvalue : '(' ∉ (toString c.value).toList := by
    rcases htext with htext | htext
    · rw [htext]
      exact hdigits
    · rw [htext]
      exact fun h => (List.mem_cons.mp h).elim (by decide) hdigits
  have hword : '(' ∉ c.name.toList := fun h => absurd (hname.isWord.2 _ h) (by decide)
  rw [toList_source]
  intro h
  rcases List.mem_append.mp h with h | h
  · rcases List.mem_append.mp h with h | h
    · exact (List.mem_append.mp h).elim (by decide) hword
    · exact absurd h (by decide)
  · exact hvalue h

theorem cleanStatement_source (c : Constant) :
    PacketClass.cleanStatement (c.source.toList ++ [';']) = c.source.toList := by
  obtain ⟨ds, hds, hne, htext, -⟩ := exists_digits c.value
  obtain ⟨es, d, rfl⟩ : ∃ es d, ds = es ++ [d] :=
    ⟨_, _, (List.dropLast_concat_getLast hne).symm⟩
  have hd : d.isDigit = true := hds d (by simp)
  have hblank : Text.isBlank d = false :=
    Text.isBlank_of_isNameChar (by simp [Text.isNameChar, Char.isAlphanum, hd])
  have hmark : d ≠ ';' := by
    rintro rfl
    exact absurd hd (by decide)
  have hlast : ∃ ks, c.source.toList = ks ++ [d] := by
    rw [toList_source]
    rcases htext with htext | htext
    · rw [htext]
      exact ⟨_, (List.append_assoc _ es [d]).symm⟩
    · rw [htext, ← List.cons_append]
      exact ⟨_, (List.append_assoc _ ('-' :: es) [d]).symm⟩
  have hfirst : c.source.toList = 'c' :: ("onst ".toList ++ c.name.toList ++ " = ".toList ++
      (toString c.value).toList) := toList_source c
  exact PacketClass.cleanStatement_semicolon hfirst hlast rfl hblank hmark

end PacketGen.Constant
