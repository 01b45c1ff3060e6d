import PacketGen.Proofs.Generated.MemberName
import PacketGen.Proofs.IdTable.FirstDeclaration
import PacketGen.Proofs.Token.Spacing

/-!
# Names in a table

A declaration is only read where its name is an identifier, and the change of case drops the
underscores. So every name of a table that is built consists of ASCII letters and digits
(`isPascal_of_build`): it can stand between quotes and at the start of a generated constant
without any care. It may be empty, when nothing but underscores is left of the declared name; if it
is not, its first character is no lower-case letter.
-/

namespace PacketGen

namespace Constant

theorem word_of_mem_skipVisibility {ts : List Token} {name : String}
    (h : .word name ∈ skipVisibility ts) : .word name ∈ ts := by
  unfold skipVisibility at h
  split at h
  · split at h
    · exact List.mem_cons_of_mem _ h
    · exact h
  · exact h

theorem word_mem_of_ofTokens? {ts : List Token} {c : Constant} (h : ofTokens? ts = some c) :
    .word c.name ∈ ts := by
  refine word_of_mem_skipVisibility ?_
  unfold ofTokens? at h
  split at h
  · next name literal hts =>
    dsimp only at h
    split at h
    · cases h
      rw [hts]
      simp
    · cases h
  · next name literal hts =>
    dsimp only at h
    split at h
    · cases h
      rw [hts]
      simp
    · cases h
  · cases h

/-- What a line declares has an identifier for its name. -/
theorem isIdentifier_of_parse? {line : List Char} {c : Constant} (h : parse? line = some c) :
    Token.IsIdentifier c.name := by
  obtain ⟨ts, hts, hc⟩ := Option.bind_eq_some_iff.mp h
  exact (Token.spaced_of_scan? hts).2 _ (word_mem_of_ofTokens? hc) c.name rfl

end Constant

namespace Text

/-! ## The change of case -/

/-- A segment keeps to the characters of the name, and has no underscore. -/
theorem isAlphanum_of_mem_splitUnderscores {cs s : List Char} {c : Char}
    (hcs : ∀ c ∈ cs, isNameChar c = true) (hs : s ∈ splitUnderscores cs) (hc : c ∈ s) :
    c.isAlphanum = true := by
  induction cs generalizing s with
  | nil =>
    rw [splitUnderscores, List.mem_singleton] at hs
    rw [hs] at hc
    cases hc
  | cons d ds ih =>
    obtain ⟨hd, hds⟩ := List.forall_mem_cons.mp hcs
    rw [splitUnderscores] at hs
    split at hs
    · rcases List.mem_cons.mp hs with rfl | hs
      · cases hc
      · exact ih hds hs hc
    · next hunderscore =>
      have halphanum : d.isAlphanum = true := by
        simpa [isNameChar, hunderscore] using hd
      split at hs
      · rw [List.mem_singleton.mp hs, List.mem_singleton] at hc
        exact hc ▸ halphanum
      · next t ss ht =>
        rcases List.mem_cons.mp hs with rfl | hs
        · rcases List.mem_cons.mp hc with rfl | hc
          · exact halphanum
          · exact ih hds (s := t) (by simp [ht]) hc
        · exact ih hds (by simp [ht, hs]) hc

theorem isLower_toUpper {c : Char} (h : c.isAlphanum = true) : c.toUpper.isLower = false :=
  of_isAlphanum (p := fun c => c.isAlphanum = true → c.toUpper.isLower = false) (by decide) h h

/-- A segment in its new case: one upper-case letter or digit, and lower-case letters and digits
behind it. -/
theorem capitalized_cons {c : Char} {cs : List Char} (h : ∀ d ∈ c :: cs, d.isAlphanum = true) :
    capitalized (c :: cs) = c.toUpper :: cs.map Char.toLower := by
  obtain ⟨hc, hcs⟩ := List.forall_mem_cons.mp h
  have hlower : cs.flatMap toLower = cs.map Char.toLower := by
    rw [← List.flatMap_singleton' (cs.map Char.toLower), List.flatMap_map]
    refine List.flatMap_congr ?_
    intro d hd
    exact toLower_of_ascii (toNat_lt_of_isAlphanum (hcs d hd))
  rw [capitalized, toUpper_of_ascii (toNat_lt_of_isAlphanum hc), hlower]
  rfl

theorem isAlphanum_of_mem_capitalized {s : List Char} (h : ∀ d ∈ s, d.isAlphanum = true) {c : Char}
    (hc : c ∈ capitalized s) : c.isAlphanum = true := by
  cases s with
  | nil => cases hc
  | cons d ds =>
    rw [capitalized_cons h] at hc
    obtain ⟨hd, hds⟩ := List.forall_mem_cons.mp h
    rcases List.mem_cons.mp hc with rfl | hc
    · exact isAlphanum_toUpper hd
    · obtain ⟨e, he, rfl⟩ := List.mem_map.mp hc
      exact isAlphanum_toLower (hds e he)

/-- ASCII letters and digits, of which the first is no lower-case letter. -/
structure IsPascal (name : String) : Prop where
  alphanum : ∀ c ∈ name.toList, c.isAlphanum = true
  first : ∀ c ∈ name.toList.head?, c.isLower = false

theorem isLower_of_head?_flatMap_capitalized {segments : List (List Char)}
    (h : ∀ s ∈ segments, ∀ d ∈ s, d.isAlphanum = true) {c : Char}
    (hc : (segments.flatMap capitalized).head? = some c) : c.isLower = false := by
  induction segments with
  | nil => cases hc
  | cons s ss ih =>
    obtain ⟨hs, hss⟩ := List.forall_mem_cons.mp h
    cases s with
    | nil => exact ih hss hc
    | cons d ds =>
      rw [List.flatMap_cons, capitalized_cons hs] at hc
      cases hc
      exact isLower_toUpper (hs d List.mem_cons_self)

theorem isPascal_upperToPascal {name : String} (h : ∀ c ∈ name.toList, isNameChar c = true) :
    IsPascal (upperToPascal name) := by
  have hsegments : ∀ s ∈ splitUnderscores name.toList, ∀ d ∈ s, d.isAlphanum = true :=
    fun s hs d hd => isAlphanum_of_mem_splitUnderscores h hs hd
  rw [upperToPascal]
  refine ⟨?_, ?_⟩
  · intro c hc
    rw [String.toList_ofList] at hc
    obtain ⟨s, hs, hc⟩ := List.mem_flatMap.mp hc
    exact isAlphanum_of_mem_capitalized (hsegments s hs) hc
  · intro c hc
    rw [String.toList_ofList] at hc
    exact isLower_of_head?_flatMap_capitalized hsegments hc

end Text

namespace Declaration

variable {suffix : String} {lines : List SourceLine} {d : Declaration}

/-- The name of a declaration is a part of an identifier in another case. -/
theorem exists_of_mem_ofLines (h : d ∈ ofLines suffix lines) :
    ∃ stem : String, (∀ c ∈ stem.toList, Text.isNameChar c = true) ∧
      d.name = Text.upperToPascal stem := by
  obtain ⟨line, -, hline⟩ := List.mem_filterMap.mp h
  obtain ⟨c, hc, hline⟩ := Option.bind_eq_some_iff.mp hline
  obtain ⟨stem, hstem, hline⟩ := Option.bind_eq_some_iff.mp hline
  cases hline
  refine ⟨.ofList stem, ?_, rfl⟩
  intro e he
  rw [String.toList_ofList] at he
  refine (Constant.isIdentifier_of_parse? hc).isWord.2 e ?_
  rw [(stem?_eq_some_iff.mp hstem).1]
  exact List.mem_append_left _ he

theorem isPascal_of_mem_ofLines (h : d ∈ ofLines suffix lines) : Text.IsPascal d.name := by
  obtain ⟨stem, hstem, hname⟩ := exists_of_mem_ofLines h
  rw [hname]
  exact Text.isPascal_upperToPascal hstem

end Declaration

namespace IdTable

/-- A table that is built is that of some of the declarations, no two of the same name. -/
theorem exists_tableOf {suffix : String} {lines : List SourceLine} {t : IdTable}
    (h : build suffix lines = .ok t) :
    ∃ ds : List Declaration, t = tableOf ds ∧ (ds.map (·.name)).Nodup ∧
      ds.Sublist (Declaration.ofLines suffix lines) := by
  refine ⟨firstBy (·.name) (Declaration.ofLines suffix lines), ?_, nodup_map_firstBy _ _,
    firstBy_sublist _ _⟩
  rw [(table_of_ok h).1, table_ofDeclarations]

/-- The names of a table of declarations are theirs, canonical or not. -/
theorem exists_of_mem_names_tableOf {ds : List Declaration} {name : String}
    (h : name ∈ (tableOf ds).canonical.map (·.name) ++ (tableOf ds).aliases.map (·.name)) :
    ∃ d ∈ ds, d.name = name := by
  rw [map_name_canonical_tableOf, map_name_aliases_tableOf] at h
  rcases List.mem_append.mp h with h | h
  · exact List.mem_map.mp (mem_names_of_mem_ownerNames h)
  · obtain ⟨d, hd, hname⟩ := List.mem_map.mp h
    exact ⟨d, List.mem_of_mem_filter hd, hname⟩

/-- The names of a table that is built are in the new case, canonical or not. -/
theorem isPascal_of_build {suffix : String} {lines : List SourceLine} {t : IdTable}
    (h : build suffix lines = .ok t) {name : String}
    (hname : name ∈ t.canonical.map (·.name) ++ t.aliases.map (·.name)) : Text.IsPascal name := by
  obtain ⟨ds, rfl, -, hsublist⟩ := exists_tableOf h
  obtain ⟨d, hd, rfl⟩ := exists_of_mem_names_tableOf hname
  exact Declaration.isPascal_of_mem_ofLines (hsublist.subset hd)

end IdTable

end PacketGen
