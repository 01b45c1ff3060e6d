import PacketGen.Proofs.Comment.SourceLines
import PacketGen.Proofs.IdTable.Redeclaration

/-!
# Where declarations are found

A declaration keeps the range of its line, and a table and its reports keep ranges of declarations
only. So wherever a table points to, the source has a declaration there: the text at the range, with
its comments blanked, is a whole line that reads as one (`Declaration.StandsIn`). It is read there
as it is in the file: no comment that begins before the range reaches into it, and none that begins
in it is left open.
-/

namespace PacketGen

open Text Comment

namespace Declaration

/-- A text declares a name with a value: it is a constant whose name, without the required ending
and in the other case, is that name. -/
def IsDeclaredBy (suffix : String) (text : List Char) (name : String) (value : Int) : Prop :=
  ∃ stem : List Char, stem ≠ [] ∧ name = upperToPascal (.ofList stem) ∧
    Constant.parse? text = some ⟨.ofList (stem ++ suffix.toList), value⟩

/-- What the source has at the range of the declaration is, with its comments blanked, a line that
declares it. -/
def StandsIn (d : Declaration) (suffix : String) (source : List Char) : Prop :=
  ∃ marked, d.span.Marks source marked ∧
    ⟨d.span.start, blankComments marked⟩ ∈ SourceLine.ofSource source ∧
    IsDeclaredBy suffix (blankComments marked) d.name d.value

variable {suffix : String} {source : List Char} {d : Declaration}

theorem ofLine?_eq_some {line : SourceLine} (h : ofLine? suffix line = some d) :
    d.span = line.span ∧ IsDeclaredBy suffix line.text d.name d.value := by
  obtain ⟨c, hc, h⟩ := Option.bind_eq_some_iff.mp h
  obtain ⟨stem, hstem, h⟩ := Option.bind_eq_some_iff.mp h
  obtain ⟨hname, hne⟩ := stem?_eq_some_iff.mp hstem
  cases h
  refine ⟨rfl, stem, hne, rfl, ?_⟩
  rw [hc, ← hname, String.ofList_toList]

theorem standsIn_of_mem_ofLines (h : d ∈ ofLines suffix (SourceLine.ofSource source)) :
    d.StandsIn suffix source := by
  obtain ⟨line, hline, hd⟩ := List.mem_filterMap.mp h
  obtain ⟨hspan, hdeclared⟩ := ofLine?_eq_some hd
  obtain ⟨marked, hmarks, htext⟩ := ((partitions_ofSource source).cut line hline).marked
  refine ⟨marked, hspan ▸ hmarks, ?_, htext ▸ hdeclared⟩
  have hstart : d.span.start = line.start := congrArg Span.start hspan
  rw [htext, hstart]
  exact hline

end Declaration

namespace IdTable

/-- What a file is loaded as points into that file, at declarations. -/
structure Locates (suffix : String) (file : SourceFile) (number : Nat)
    (result : Except (List Diagnostic) IdTable × Sources) : Prop where
  /-- The number that labels are given is that of the file. -/
  numbered : result.2.file? number = some file
  aliases : ∀ t, result.1 = .ok t → ∀ a ∈ t.aliases, ∃ value,
    t.value? a.name = some value ∧
      (⟨a.name, value, a.span⟩ : Declaration).StandsIn suffix file.text.toList
  labels : ∀ found, result.1 = .error found → ∀ d ∈ found, d.code = .duplicateIdentifier →
    ∃ later first : Declaration,
      d.labels = [.primary number later.span "",
        .secondary number first.span ("`" ++ later.name ++ "` is first declared here")] ∧
      first.name = later.name ∧ first.value ≠ later.value ∧
      later.StandsIn suffix file.text.toList ∧ first.StandsIn suffix file.text.toList

variable {suffix : String} {source : List Char} {ds : List Declaration}

/-- An alias has the name and the range of one of the declarations. -/
theorem exists_declaration_of_alias (hnodup : (ds.map (·.name)).Nodup) {a : Alias}
    (ha : a ∈ (tableOf ds).aliases) :
    ∃ value, (tableOf ds).value? a.name = some value ∧ ⟨a.name, value, a.span⟩ ∈ ds := by
  obtain ⟨d, hd, halias⟩ := List.mem_filterMap.mp ha
  obtain ⟨owner, -, rfl⟩ := Option.map_eq_some_iff.mp halias
  have hd := List.mem_of_mem_filter hd
  exact ⟨d.value, value?_tableOf hnodup hd, hd⟩

theorem standsIn_of_alias {t : IdTable} (h : build suffix (SourceLine.ofSource source) = .ok t)
    {a : Alias} (ha : a ∈ t.aliases) :
    ∃ value, t.value? a.name = some value ∧
      (⟨a.name, value, a.span⟩ : Declaration).StandsIn suffix source := by
  obtain ⟨ds, rfl, hnodup, hsublist⟩ := exists_tableOf h
  obtain ⟨value, hvalue, hmem⟩ := exists_declaration_of_alias hnodup ha
  exact ⟨value, hvalue, Declaration.standsIn_of_mem_ofLines (hsublist.subset hmem)⟩

/-- A name that is reported twice declared was declared at both places. -/
theorem labels_of_redeclaration? {file : Nat} {d : Declaration} {report : Diagnostic}
    (h : redeclaration? file ds d = some report) :
    ∃ first ∈ ds, report.labels = [.primary file d.span "",
        .secondary file first.span ("`" ++ d.name ++ "` is first declared here")] ∧
      first.name = d.name ∧ first.value ≠ d.value := by
  obtain ⟨first, hfirst, h⟩ := Option.bind_eq_some_iff.mp h
  split at h
  · cases h
  · next hvalue =>
    cases h
    exact ⟨first, List.mem_of_find?_eq_some hfirst, rfl, by simpa using List.find?_some hfirst,
      hvalue⟩

/-- A file with a declaration is reported for redeclarations only. -/
theorem exists_redeclaration {file : Nat} {found : List Diagnostic} {report : Diagnostic}
    (h : (ofDeclarations ds).mapError (·.map (·.diagnostic file)) = .error found)
    (hreport : report ∈ found) (hcode : report.code = .duplicateIdentifier) :
    ∃ d ∈ ds, redeclaration? file ds d = some report := by
  rw [diagnosed_ofDeclarations] at h
  split at h
  · cases h
  · cases h
    split at hreport
    · rw [List.mem_singleton.mp hreport] at hcode
      cases hcode
    · exact List.mem_filterMap.mp hreport

/-- A table that is loaded is the one of the lines of the file. -/
theorem build_of_load {sources : Sources} {file : SourceFile} {t : IdTable}
    (h : (load sources file suffix).1 = .ok t) :
    build suffix (SourceLine.ofSource file.text.toList) = .ok t := by
  rw [load, ofSource] at h
  cases hresult : build suffix (SourceLine.ofSource file.text.toList) with
  | ok u =>
    rw [hresult] at h
    cases h
    rfl
  | error faults =>
    rw [hresult] at h
    cases h

theorem locates_load (suffix : String) (file : SourceFile) (sources : Sources) :
    Locates suffix file sources.next (load sources file suffix) := by
  refine ⟨Sources.file?_add_next sources file, ?_, ?_⟩
  · intro t ht a ha
    exact standsIn_of_alias (build_of_load ht) ha
  · intro found hfound report hreport hcode
    obtain ⟨later, hlater, hredeclared⟩ := exists_redeclaration hfound hreport hcode
    obtain ⟨first, hfirst, hlabels, hname, hvalue⟩ := labels_of_redeclaration? hredeclared
    exact ⟨later, first, hlabels, hname, hvalue, Declaration.standsIn_of_mem_ofLines hlater,
      Declaration.standsIn_of_mem_ofLines hfirst⟩

/-- **The lines of a file are cut at exact places, and all that is said of its declarations points
there.** The ranges lie one behind the other, one line of the file apart or more, and hold all that
is neither blank nor in a comment; what an alias or a label marks in the file is a declaration. -/
theorem load_marks_declarations (sources : Sources) (file : SourceFile) (suffix : String) :
    Partitions (SourceLine.ofSource file.text.toList) file.text.toList ∧
      Locates suffix file sources.next (load sources file suffix) :=
  ⟨partitions_ofSource file.text.toList, locates_load suffix file sources⟩

end IdTable

end PacketGen
