import Mathlib.Data.List.Nodup
import PacketGen.Config.Basic
import PacketGen.Proofs.IdTable.Located
import PacketGen.Proofs.Text.NameCase

/-!
# Names and the stems they are made of

The names of a table are stems in another case, where the stem of a declared name is what the
required ending leaves of it. Two things are asked of the change of case that it does not give for
any stem: that the name is one that code can be generated for, and that different stems have
different names.

It may leave nothing of a stem, and a name may begin with a digit. Which names these are is told by
the first character of the stem that is no underscore (`isUsable_upperToPascal_iff`), so a table is
free of them exactly when every stem has a letter there. Stems in upper snake case do, and keep
apart as well (`Text.upperToPascal_inj`): of these none is lost, and none is in conflict.
-/

namespace PacketGen

namespace Declaration

variable {suffix : String} {lines : List SourceLine}

/-- The constant of a line, with what the required ending leaves of its name. -/
def stemOf? (suffix : String) (line : SourceLine) : Option Constant := do
  let c ← Constant.parse? line.text
  let stem ← stem? suffix.toList c.name.toList
  return ⟨.ofList stem, c.value⟩

def stems (suffix : String) (lines : List SourceLine) : List Constant :=
  lines.filterMap (stemOf? suffix)

/-- A line has a stem if it declares that stem with the ending behind it. -/
theorem stemOf?_eq_some_iff {line : SourceLine} {c : Constant} :
    stemOf? suffix line = some c ↔
      c.name ≠ "" ∧ Constant.parse? line.text = some ⟨c.name ++ suffix, c.value⟩ := by
  constructor
  · intro h
    obtain ⟨raw, hraw, h⟩ := Option.bind_eq_some_iff.mp h
    obtain ⟨stem, hstem, h⟩ := Option.bind_eq_some_iff.mp h
    obtain ⟨hname, hne⟩ := stem?_eq_some_iff.mp hstem
    cases h
    have htext : raw.name = String.ofList stem ++ suffix := by
      rw [← String.toList_inj, String.toList_append, String.toList_ofList, hname]
    exact ⟨mt String.ofList_eq_empty_iff.mp hne, htext ▸ hraw⟩
  · rintro ⟨hne, hparse⟩
    have hstem : stem? suffix.toList (c.name ++ suffix).toList = some c.name.toList :=
      stem?_eq_some_iff.mpr ⟨String.toList_append, mt String.toList_eq_nil_iff.mp hne⟩
    refine Option.bind_eq_some_iff.mpr ⟨_, hparse, Option.bind_eq_some_iff.mpr ⟨_, hstem, ?_⟩⟩
    rw [String.ofList_toList]
    rfl

/-- A line declares its stem in the other case. -/
theorem ofLine?_eq_map (suffix : String) (line : SourceLine) :
    ofLine? suffix line =
      (stemOf? suffix line).map fun c => ⟨Text.upperToPascal c.name, c.value, line.span⟩ := by
  unfold ofLine? stemOf?
  cases Constant.parse? line.text with
  | none => rfl
  | some c => cases hstem : stem? suffix.toList c.name.toList <;> simp [hstem]

theorem map_constant_ofLines (suffix : String) (lines : List SourceLine) :
    (ofLines suffix lines).map constant =
      (stems suffix lines).map fun c => ⟨Text.upperToPascal c.name, c.value⟩ := by
  rw [ofLines, stems, List.map_filterMap, List.map_filterMap]
  refine List.filterMap_congr fun line _ => ?_
  rw [ofLine?_eq_map, Option.map_map]
  rfl

theorem map_name_ofLines (suffix : String) (lines : List SourceLine) :
    (ofLines suffix lines).map (·.name) =
      (stems suffix lines).map fun c => Text.upperToPascal c.name := by
  have h := congrArg (List.map Constant.name) (map_constant_ofLines suffix lines)
  rwa [List.map_map, List.map_map] at h

theorem isNameChar_of_mem_stems {c : Constant} (hc : c ∈ stems suffix lines) :
    ∀ d ∈ c.name.toList, Text.isNameChar d = true := by
  obtain ⟨line, -, hline⟩ := List.mem_filterMap.mp hc
  have hraw := Constant.isIdentifier_of_parse? (stemOf?_eq_some_iff.mp hline).2
  intro d hd
  refine hraw.isWord.2 d ?_
  rw [String.toList_append]
  exact List.mem_append_left _ hd

end Declaration

namespace IdTable

open Declaration (stems)

variable {suffix : String} {lines : List SourceLine} {t : IdTable}

/-- The names of a table, the canonical ones first. -/
def names (t : IdTable) : List String := t.canonical.map (·.name) ++ t.aliases.map (·.name)

theorem table_of_build (h : build suffix lines = .ok t) :
    t = tableOf (firstBy (·.name) (Declaration.ofLines suffix lines)) := by
  rw [(table_of_ok h).1, table_ofDeclarations]

theorem nodup_names (h : build suffix lines = .ok t) : t.names.Nodup := by
  rw [table_of_build h]
  exact nodup_names_tableOf (nodup_map_firstBy _ _)

/-- A table has the names of the declarations it is built of. -/
theorem mem_names_iff (h : build suffix lines = .ok t) {name : String} :
    name ∈ t.names ↔ name ∈ (Declaration.ofLines suffix lines).map (·.name) := by
  rw [table_of_build h, ← mem_map_firstBy]
  constructor
  · intro hname
    obtain ⟨d, hd, hname⟩ := exists_of_mem_names_tableOf hname
    exact List.mem_map.mpr ⟨d, hd, hname⟩
  · intro hname
    exact List.mem_append.mpr (mem_names_tableOf hname).or

/-! ## Names that code can be generated for -/

/-- A letter, and letters and digits behind it. -/
def IsUsable (name : String) : Prop :=
  ∃ c cs, name.toList = c :: cs ∧ c.isAlpha = true ∧ ∀ d ∈ cs, d.isAlphanum = true

/-- A stem with a letter behind its underscores. -/
def LetterFirst (stem : String) : Prop :=
  Text.FirstIs (· != '_') Char.isAlpha stem.toList

instance (stem : String) : Decidable (LetterFirst stem) :=
  inferInstanceAs (Decidable (Text.FirstIs ..))

theorem isUsable_iff {name : String} (h : ∀ c ∈ name.toList, c.isAlphanum = true) :
    IsUsable name ↔ ∃ c ∈ name.toList.head?, c.isAlpha = true :=
  Text.exists_eq_cons_iff h

theorem isAlpha_toUpper {c : Char} (h : Text.isNameChar c = true) :
    c.toUpper.isAlpha = c.isAlpha :=
  Text.of_isNameChar (p := fun c => c.toUpper.isAlpha = c.isAlpha) (by decide) h

/-- A name is usable if its stem has a letter behind its underscores. -/
theorem isUsable_upperToPascal_iff {stem : String}
    (h : ∀ c ∈ stem.toList, Text.isNameChar c = true) :
    IsUsable (Text.upperToPascal stem) ↔ LetterFirst stem := by
  rw [isUsable_iff (Text.isPascal_upperToPascal h).alphanum, Text.head?_upperToPascal h,
    LetterFirst, Text.firstIs_iff]
  cases hfind : stem.toList.find? (· != '_') with
  | none => simp
  | some c =>
    have halpha := isAlpha_toUpper (h c (List.mem_of_find?_eq_some hfind))
    simp only [Option.map_some, Option.mem_some_iff, exists_eq_left', halpha]

/-- The constant of a usable name is an identifier that is seen outside its package. -/
theorem isExported_constant {idType : IdType} {name : String} (hname : Text.IsPascal name)
    (husable : IsUsable name) (hsuffix : ∀ c ∈ idType.suffix.toList, Text.isNameChar c = true) :
    Text.IsExported (idType.constant name) := by
  obtain ⟨c, cs, htext, hc, hcs⟩ := husable
  have hlower : c.isLower = false := hname.first c (by rw [htext]; rfl)
  have hupper : c.isUpper = true := (Bool.or_eq_true_iff.mp hc).resolve_right (by simp [hlower])
  refine ⟨c, cs ++ idType.suffix.toList, ?_, hupper, ?_⟩
  · rw [IdType.constant, String.toList_append, htext, List.cons_append]
  · intro d hd
    rcases List.mem_append.mp hd with hd | hd
    · simp [Text.isNameChar, hcs d hd]
    · exact hsuffix d hd

/-- **The names of a table are usable exactly when every declared stem has a letter behind its
underscores**. They are letters and digits in any case, and where they are usable, so are the
constants that are called after them. -/
theorem load_isUsable_iff {sources : Sources} {file : SourceFile}
    (h : (load sources file suffix).1 = .ok t) :
    (∀ name ∈ t.names, ∀ c ∈ name.toList, c.isAlphanum = true) ∧
    ((∀ name ∈ t.names, IsUsable name) ↔
      ∀ c ∈ stems suffix (SourceLine.ofSource file.text.toList), LetterFirst c.name) ∧
    ∀ idType : IdType, (∀ c ∈ idType.suffix.toList, Text.isNameChar c = true) →
      ∀ name ∈ t.names, IsUsable name → Text.IsExported (idType.constant name) := by
  have hbuild := build_of_load h
  have hpascal : ∀ name ∈ t.names, Text.IsPascal name :=
    fun name hname => isPascal_of_build hbuild hname
  refine ⟨fun name hname => (hpascal name hname).alphanum, ?_,
    fun idType hsuffix name hname husable =>
      isExported_constant (hpascal name hname) husable hsuffix⟩
  have hnames : ∀ name, name ∈ t.names ↔
      name ∈ (stems suffix (SourceLine.ofSource file.text.toList)).map
        fun c => Text.upperToPascal c.name := by
    intro name
    rw [mem_names_iff hbuild, Declaration.map_name_ofLines]
  simp only [hnames, List.forall_mem_map]
  exact forall₂_congr fun c hc =>
    isUsable_upperToPascal_iff (Declaration.isNameChar_of_mem_stems hc)

/-- A stem may hold underscores and digits, and a name may be an alias. -/
theorem load_isUsable_iff_digits :
    let file : SourceFile := ⟨"Info.php", "const TIME_2_PACKET = 7;\nconst _set__time_PACKET = 7;"⟩
    ∃ t, (load Sources.empty file "_PACKET").1 = .ok t ∧ t.names = ["Time2", "SetTime"] ∧
      ∀ name ∈ t.names, IsUsable name := by
  intro file
  let t : IdTable := ⟨[⟨"Time2", 7⟩], [⟨"SetTime", "Time2", ⟨25, 53⟩⟩],
    [⟨"Time2", 7, ⟨0, 24⟩⟩, ⟨"SetTime", 7, ⟨25, 53⟩⟩]⟩
  have h : (load Sources.empty file "_PACKET").1 = .ok t := by decide +kernel
  exact ⟨t, h, rfl, (load_isUsable_iff h).2.1.mpr (by decide +kernel)⟩

/-- A stem without a letter leaves a name that is empty, or begins with a digit. -/
theorem load_isUsable_iff_nameless :
    let file : SourceFile := ⟨"Info.php",
      "const LOGIN_PACKET = 1;\nconst __PACKET = 2;\nconst _1_PACKET = 3;"⟩
    ∃ t, (load Sources.empty file "_PACKET").1 = .ok t ∧ t.names = ["Login", "", "1"] ∧
      ¬ IsUsable "" ∧ ¬ IsUsable "1" := by
  intro file
  let t : IdTable := ⟨[⟨"Login", 1⟩, ⟨"", 2⟩, ⟨"1", 3⟩], [],
    [⟨"Login", 1, ⟨0, 23⟩⟩, ⟨"", 2, ⟨24, 43⟩⟩, ⟨"1", 3, ⟨44, 64⟩⟩]⟩
  have h : (load Sources.empty file "_PACKET").1 = .ok t := by decide +kernel
  refine ⟨t, h, rfl, ?_, ?_⟩
  · rintro ⟨c, cs, hname, -⟩
    cases hname
  · rintro ⟨c, cs, hname, hc, -⟩
    have hone : "1".toList = ['1'] := rfl
    rw [hone] at hname
    cases hname
    exact absurd hc (by decide)

/-! ## Stems that stay apart -/

/-- Names that are declared once each make a table, if there are any. -/
theorem exists_build_of_nodup
    (hnodup : ((Declaration.ofLines suffix lines).map (·.name)).Nodup)
    (hne : Declaration.ofLines suffix lines ≠ []) :
    ∃ t, build suffix lines = .ok t := by
  have hfaults : (Draft.ofDeclarations (Declaration.ofLines suffix lines)).faults = [] := by
    by_contra hfaults
    rcases faults_ne_nil_iff.mp hfaults with hnil | ⟨d, hd, e, he, hname, hvalue⟩
    · exact hne hnil
    · exact hvalue (congrArg _ (List.inj_on_of_nodup_map hnodup hd he hname))
  exact ⟨_, if_pos hfaults⟩

/-- A name that is declared once has its value. -/
theorem value?_of_build (h : build suffix lines = .ok t)
    (hnodup : ((Declaration.ofLines suffix lines).map (·.name)).Nodup) {d : Declaration}
    (hd : d ∈ Declaration.ofLines suffix lines) : t.value? d.name = some d.value := by
  have hfirst : t.declaration? d.name = some d := by
    rw [(table_of_ok h).1, declaration?_ofDeclarations]
    exact find?_eq_some_of_nodup hnodup hd
  rw [value?, hfirst]
  rfl

theorem nodup_map_name_ofLines
    (hsnake : ∀ c ∈ stems suffix lines, Text.UpperSnake c.name.toList)
    (hnodup : ((stems suffix lines).map (·.name)).Nodup) :
    ((Declaration.ofLines suffix lines).map (·.name)).Nodup := by
  rw [Declaration.map_name_ofLines]
  refine hnodup.of_map.map_on fun c hc d hd hname => ?_
  have hstem := Text.upperToPascal_inj (hsnake c hc) (hsnake d hd) hname
  exact List.inj_on_of_nodup_map hnodup hc hd hstem

theorem ofLines_eq_nil_iff :
    Declaration.ofLines suffix lines = [] ↔ stems suffix lines = [] := by
  have h := Declaration.map_constant_ofLines suffix lines
  rw [← List.map_eq_nil_iff, h, List.map_eq_nil_iff]

/-- **Stems in upper snake case keep their declarations apart**, when no two of them are the same:
none is in conflict with another, and the table has a name for every one of them, with its value. -/
theorem build_keepsApart (hsnake : ∀ c ∈ stems suffix lines, Text.UpperSnake c.name.toList)
    (hnodup : ((stems suffix lines).map (·.name)).Nodup) :
    (∀ a b : String, Text.UpperSnake a.toList → Text.UpperSnake b.toList →
      Text.upperToPascal a = Text.upperToPascal b → a = b) ∧
    (∀ faults, build suffix lines = .error faults →
      ∀ f ∈ faults, f.code ≠ .duplicateIdentifier) ∧
    (stems suffix lines ≠ [] → ∃ t, build suffix lines = .ok t ∧
      t.names.Perm ((stems suffix lines).map fun c => Text.upperToPascal c.name) ∧
      ∀ c ∈ stems suffix lines, t.value? (Text.upperToPascal c.name) = some c.value) := by
  have hnames := nodup_map_name_ofLines hsnake hnodup
  refine ⟨fun a b ha hb => Text.upperToPascal_inj ha hb, ?_, ?_⟩
  · intro faults hfaults f hf
    -- With a declaration there would be a table.
    have hnil : Declaration.ofLines suffix lines = [] := by
      by_contra hne
      obtain ⟨t, ht⟩ := exists_build_of_nodup hnames hne
      rw [ht] at hfaults
      cases hfaults
    rw [faults_of_error hfaults, faults_ofDeclarations, if_pos hnil, List.mem_singleton] at hf
    rw [hf]
    decide
  · intro hne
    obtain ⟨t, ht⟩ := exists_build_of_nodup hnames (mt ofLines_eq_nil_iff.mp hne)
    refine ⟨t, ht, ?_, ?_⟩
    · rw [← Declaration.map_name_ofLines, List.perm_ext_iff_of_nodup (nodup_names ht) hnames]
      exact fun name => mem_names_iff ht
    · intro c hc
      have hmem : (⟨Text.upperToPascal c.name, c.value⟩ : Constant) ∈
          (Declaration.ofLines suffix lines).map Declaration.constant := by
        rw [Declaration.map_constant_ofLines]
        exact List.mem_map_of_mem hc
      obtain ⟨d, hd, hconstant⟩ := List.mem_map.mp hmem
      obtain ⟨hname, hvalue⟩ := Constant.mk.inj hconstant
      rw [← hname, ← hvalue]
      exact value?_of_build ht hnames hd

/-- Stems that differ by an underscore only, two of them with one value. -/
theorem build_keepsApart_underscore :
    let lines : List SourceLine :=
      [⟨0, "const UPDATE_BLOCK_PACKET = 0x1;".toList⟩, ⟨40, "const VERSION = 9".toList⟩,
        ⟨60, "const UPDATEBLOCK_PACKET = 2;".toList⟩, ⟨90, "const UPDATE_B2_PACKET = 1".toList⟩]
    ∃ t, build "_PACKET" lines = .ok t ∧
      t.names.Perm ["UpdateBlock", "Updateblock", "UpdateB2"] ∧ t.value? "UpdateB2" = some 1 := by
  intro lines
  have hstems : stems "_PACKET" lines =
      [⟨"UPDATE_BLOCK", 1⟩, ⟨"UPDATEBLOCK", 2⟩, ⟨"UPDATE_B2", 1⟩] := by
    decide +kernel
  have hsnake : ∀ c ∈ stems "_PACKET" lines, Text.UpperSnake c.name.toList := by
    rw [hstems]
    decide +kernel
  have hnodup : ((stems "_PACKET" lines).map (·.name)).Nodup := by
    rw [hstems]
    decide
  obtain ⟨-, -, htable⟩ := build_keepsApart hsnake hnodup
  rw [hstems] at htable
  obtain ⟨t, ht, hnames, hvalues⟩ := htable (by decide)
  exact ⟨t, ht, hnames, hvalues ⟨"UPDATE_B2", 1⟩ (by decide)⟩

end IdTable

end PacketGen
