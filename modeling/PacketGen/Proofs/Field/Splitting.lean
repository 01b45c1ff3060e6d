import PacketGen.Proofs.Field.Neighbours

/-!
# Where the lines of a procedure may be cut

The fields of two runs of lines, one behind the other, are those of the first and then those of the
second, but for one thing: the cut may part a raw-bytes call from its length prefix. Then the call
(`CutsOff`), which the whole passes over, is an unknown statement at the start of the second part,
and nothing else changes.

The reason is that the lines of the first part reach no further than one line into the second
(`contributionsFrom_append`).
-/

namespace PacketGen.Field

/-- The call of raw bytes that a cut between the two parts takes away from its length prefix. -/
def CutsOff (front back : List String) (line : String) : Prop :=
  (effective back).head? = some line ∧ Absorbed (effective front).getLast? line

/-- Behind other lines, lines are read with the last of these before them. -/
theorem contributionsFrom_append (before : Option String) (front back : List String) :
    contributionsFrom before (front ++ back) =
      contributionsFrom before front ++ contributionsFrom (front.getLast?.or before) back := by
  induction front generalizing before with
  | nil => rfl
  | cons line lines ih =>
    have hlast : (line :: lines).getLast?.or before = lines.getLast?.or (some line) := by
      rw [List.getLast?_cons, Option.or_some]
      rfl
    rw [List.cons_append, contributionsFrom_cons, contributionsFrom_cons, ih, hlast,
      List.append_assoc]

theorem ofStatements_append_eq (front back : List String) :
    ofStatements (front ++ back) = ofStatements front ++
      contributionsFrom (effective front).getLast? (effective back) := by
  rw [ofStatements_eq_contributions, ofStatements_eq_contributions, effective_append,
    contributionsFrom_append, Option.or_none]

/-! ## What the line before changes -/

theorem isAbsorbed_none (line : String) : isAbsorbed none line = false := by
  rw [Bool.eq_false_iff]
  intro h
  obtain ⟨name, -, hprefixed⟩ := isAbsorbed_iff.mp h
  cases hprefixed

theorem contribution_of_not_isAbsorbed {previous : Option String} {line : String}
    (h : isAbsorbed previous line = false) :
    contribution previous line = contribution none line := by
  rw [contribution, contribution, h, isAbsorbed_none]

theorem contribution_none_of_isAbsorbed {previous : Option String} {line : String}
    (h : isAbsorbed previous line = true) : contribution none line = [.unknown line] := by
  rw [contribution, ofLine?_of_isAbsorbed h, isAbsorbed_none]
  rfl

theorem contributionsFrom_of_not_isAbsorbed {previous : Option String} {lines : List String}
    (h : ∀ line, lines.head? = some line → isAbsorbed previous line = false) :
    contributionsFrom previous lines = contributionsFrom none lines := by
  cases lines with
  | nil => rfl
  | cons line lines =>
    rw [contributionsFrom_cons, contributionsFrom_cons, contribution_of_not_isAbsorbed (h line rfl)]

theorem contributionsFrom_of_isAbsorbed {previous : Option String} {line : String}
    {lines : List String} (hfirst : lines.head? = some line) (h : isAbsorbed previous line = true) :
    contributionsFrom none lines = .unknown line :: contributionsFrom previous lines := by
  obtain ⟨rest, rfl⟩ := List.head?_eq_some_iff.mp hfirst
  rw [contributionsFrom_cons, contributionsFrom_cons, contribution_none_of_isAbsorbed h,
    contribution_of_isAbsorbed h]
  rfl

/-- **A procedure may be cut anywhere** but between a length prefix and its raw bytes, and there it
costs one unknown statement. -/
theorem ofStatements_append (front back : List String) :
    (∀ line, CutsOff front back line →
      (ofStatements back).head? = some (.unknown line) ∧
        ofStatements (front ++ back) = ofStatements front ++ (ofStatements back).tail) ∧
    ((∀ line, ¬ CutsOff front back line) →
      ofStatements (front ++ back) = ofStatements front ++ ofStatements back) := by
  rw [ofStatements_append_eq, ofStatements_eq_contributions back]
  constructor
  · rintro line ⟨hfirst, habsorbed⟩
    have hback := contributionsFrom_of_isAbsorbed hfirst (isAbsorbed_iff_absorbed.mpr habsorbed)
    rw [hback]
    exact ⟨rfl, rfl⟩
  · intro hcut
    rw [contributionsFrom_of_not_isAbsorbed]
    intro line hfirst
    rw [Bool.eq_false_iff]
    intro habsorbed
    exact hcut line ⟨hfirst, isAbsorbed_iff_absorbed.mp habsorbed⟩

/-- A cut between a length prefix and its raw bytes, with a reset at the cut. -/
theorem ofStatements_append_skin :
    let front := ["$this->putInt(strlen($this->skin))"]
    let back := ["$this->reset()", "$this->put($this->skin)", "$this->putByte($this->slot)"]
    CutsOff front back "$this->put($this->skin)" ∧
      ofStatements back = [.unknown "$this->put($this->skin)", .value .byte "slot"] ∧
        ofStatements (front ++ back) = ofStatements front ++ (ofStatements back).tail := by
  intro front back
  have hlast : (effective front).getLast? = some "$this->putInt(strlen($this->skin))" := by
    decide +kernel
  have hfirst : (effective back).head? = some "$this->put($this->skin)" := by decide +kernel
  have hlength : Statement.read? "$this->putInt(strlen($this->skin))".toList =
      some (.call (.ofLength ⟨.put, some Primitive.int.tag⟩ "skin")) := by decide +kernel
  have hraw : Statement.read? "$this->put($this->skin)".toList =
      some (.call (.ofField ⟨.put, none⟩ "skin")) := by decide +kernel
  have hcut : CutsOff front back "$this->put($this->skin)" :=
    ⟨hfirst, _, _, .int, .put, "skin", hlast, by rw [Statement.parse, hlength],
      .bytes .put "skin" rfl, by rw [Statement.parse, hraw]⟩
  exact ⟨hcut, by decide +kernel, ((ofStatements_append front back).1 _ hcut).2⟩

end PacketGen.Field
