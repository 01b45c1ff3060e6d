import PacketGen.Proofs.IdTable.Resolution

/-!
# What is reported of declarations

Declarations fail to make a table for two reasons: there is none, or a name is declared with two
values. `Reports` says which diagnostics come of it, read off the sequence of declarations alone. A
declaration is reported exactly when its value is not that of the first one of its name
(`redeclaration?`), whatever stands between the two and whoever owns the values. The construction
goes on after a conflict and passes over what repeats a value; it neither misses nor doubles one.
-/

namespace PacketGen.IdTable

/-- The report on a declaration, at its own place and at that of the first one of its name, when
that one has another value. -/
def redeclaration? (file : Nat) (ds : List Declaration) (d : Declaration) : Option Diagnostic :=
  (ds.find? (·.name = d.name)).bind fun first =>
    if first.value = d.value then none
    else some
      { code := .duplicateIdentifier
        message := "redeclaration of `" ++ d.name ++ "` with value " ++ toString d.value ++
          ", previously " ++ toString first.value
        labels := [.primary file d.span "",
          .secondary file first.span ("`" ++ d.name ++ "` is first declared here")] }

/-- The report on a file without a declaration. -/
def noDeclaration (file : Nat) : Diagnostic where
  code := .emptyIdTable
  message := "no identifier declaration found"
  labels := [.primary file ⟨0, 0⟩ ""]

/-- What is reported of the declarations of a file, when nothing is and when something is. -/
structure Reports (file : Nat) (ds : List Declaration)
    (result : Except (List Diagnostic) IdTable) : Prop where
  fails_iff : (∃ found, result = .error found) ↔
    ds = [] ∨ ∃ d ∈ ds, ∃ e ∈ ds, d.name = e.name ∧ d.value ≠ e.value
  of_nil : ds = [] → result = .error [noDeclaration file]
  of_ne_nil : ds ≠ [] → ∀ found, result = .error found →
    found = ds.filterMap (redeclaration? file ds)

theorem map_diagnostic_conflictIn (file : Nat) (ds : List Declaration) (d : Declaration) :
    (conflictIn ds d).map (·.diagnostic file) = redeclaration? file ds d := by
  rw [conflictIn, redeclaration?, Option.map_bind]
  congr 1
  funext first
  dsimp only [Function.comp]
  split <;> rfl

theorem diagnostics_ofDeclarations (file : Nat) (ds : List Declaration) :
    (Draft.ofDeclarations ds).faults.map (·.diagnostic file) =
      if ds = [] then [noDeclaration file] else ds.filterMap (redeclaration? file ds) := by
  rw [faults_ofDeclarations]
  split
  · rfl
  · rw [List.map_filterMap]
    exact List.filterMap_congr fun d _ => map_diagnostic_conflictIn file ds d

theorem conflicts_eq_nil_iff {ds : List Declaration} :
    (Draft.ofDeclarations ds).conflicts = [] ↔
      ∀ d ∈ ds, ∀ e ∈ ds, d.name = e.name → d.value = e.value := by
  constructor
  · exact value_eq_of_no_conflict
  · intro h
    rw [conflicts_ofDeclarations, List.filterMap_eq_nil_iff]
    intro d hd
    rw [conflictIn, Option.bind_eq_none_iff]
    intro first hfirst
    have hname : first.name = d.name := by simpa using List.find?_some hfirst
    exact if_pos (h first (List.mem_of_find?_eq_some hfirst) d hd hname)

theorem faults_ne_nil_iff {ds : List Declaration} :
    (Draft.ofDeclarations ds).faults ≠ [] ↔
      ds = [] ∨ ∃ d ∈ ds, ∃ e ∈ ds, d.name = e.name ∧ d.value ≠ e.value := by
  rw [faults_ofDeclarations, ← conflicts_ofDeclarations]
  split
  · next hds => simp [hds]
  · next hds =>
    rw [Ne, conflicts_eq_nil_iff]
    push Not
    simp [hds]

theorem diagnosed_ofDeclarations (file : Nat) (ds : List Declaration) :
    (ofDeclarations ds).mapError (·.map (·.diagnostic file)) =
      if (Draft.ofDeclarations ds).faults = [] then .ok (Draft.ofDeclarations ds).table
      else .error
        (if ds = [] then [noDeclaration file] else ds.filterMap (redeclaration? file ds)) := by
  rw [ofDeclarations, ← diagnostics_ofDeclarations]
  split <;> rfl

theorem reports_ofDeclarations (file : Nat) (ds : List Declaration) :
    Reports file ds ((ofDeclarations ds).mapError (·.map (·.diagnostic file))) := by
  rw [diagnosed_ofDeclarations]
  by_cases hfaults : (Draft.ofDeclarations ds).faults = []
  · have hnone := mt faults_ne_nil_iff.mpr (not_not_intro hfaults)
    rw [if_pos hfaults]
    refine ⟨⟨?_, fun h => absurd h hnone⟩, fun hds => absurd (Or.inl hds) hnone, ?_⟩
    · rintro ⟨found, hfound⟩
      cases hfound
    · intro _ found hfound
      cases hfound
  · rw [if_neg hfaults]
    refine ⟨⟨fun _ => faults_ne_nil_iff.mp hfaults, fun _ => ⟨_, rfl⟩⟩, ?_, ?_⟩
    · intro hds
      rw [if_pos hds]
    · intro hds found hfound
      rw [if_neg hds] at hfound
      cases hfound
      rfl

/-- **A table fails for its declarations only**: for having none, or for a name with two values.
Then each declaration at odds with the first one of its name is reported at both places, in order;
with indexes the same is found, and no look-up of the first place fails. -/
theorem build_reports (suffix : String) (lines : List SourceLine) (file : Nat) :
    Reports file (Declaration.ofLines suffix lines)
      ((build suffix lines).mapError (·.map (·.diagnostic file))) ∧
    ∃ r, Indexed.build suffix lines = some r ∧ Indexed.SameResult r (build suffix lines) :=
  ⟨reports_ofDeclarations file _, Indexed.exists_build suffix lines⟩

/-- A conflict does not hide a later one, and the owner of a value plays no part. -/
example :
    build "" [⟨0, "const AIR = 0".toList⟩, ⟨14, "const STONE = 0".toList⟩,
        ⟨30, "const AIR = 1".toList⟩, ⟨44, "const STONE = 1".toList⟩,
        ⟨60, "const AIR = 0".toList⟩] =
      .error [.conflict ⟨"Air", 1, ⟨30, 43⟩⟩ ⟨"Air", 0, ⟨0, 13⟩⟩,
        .conflict ⟨"Stone", 1, ⟨44, 59⟩⟩ ⟨"Stone", 0, ⟨14, 29⟩⟩] := by
  decide +kernel

end PacketGen.IdTable
