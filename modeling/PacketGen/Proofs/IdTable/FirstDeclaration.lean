import Mathlib.Data.List.Induction
import Mathlib.Logic.Basic
import PacketGen.IdTable.Build
import PacketGen.Proofs.FirstOccurrence

/-!
# The first declaration wins

A table is grown one declaration at a time, with four things kept in step: the canonical constants,
the aliases, the declared names and the owners of values. What comes out depends on none of this
history. `tableOf` writes the finished table down directly from a sequence of declarations with
distinct names, and the invariant of the construction is that the draft's table **is** that one:

```
(Draft.ofDeclarations ds).table = tableOf (firstBy name ds)
```

whatever `ds` is, also when it holds conflicts. The conflicts are written down directly as well
(`conflicts_ofDeclarations`), so a successful build says that names determine values. Only then may
"first of a value" be read off the whole sequence instead of off the first declarations of names,
which is how `FirstWins` puts it.
-/

namespace PacketGen

namespace Declaration

/-- The declaration without its place. -/
def constant (d : Declaration) : Constant := ⟨d.name, d.value⟩

/-- A name has the stem that the required ending leaves of it, if it leaves anything. -/
theorem stem?_eq_some_iff {suffix name stem : List Char} :
    stem? suffix name = some stem ↔ name = stem ++ suffix ∧ stem ≠ [] := by
  unfold stem?
  constructor
  · intro h
    split at h
    · next hs =>
      simp only [Bool.and_eq_true, List.isSuffixOf_iff_suffix, decide_eq_true_eq] at hs
      obtain ⟨⟨t, rfl⟩, hlen⟩ := hs
      simp only [List.length_append, Nat.add_sub_cancel, List.take_left', Option.some.injEq] at h
      subst h
      refine ⟨rfl, fun hnil => ?_⟩
      simp [hnil] at hlen
    · exact absurd h (by simp)
  · rintro ⟨rfl, hne⟩
    have hlen : 0 < stem.length := List.length_pos_iff.mpr hne
    simp [hlen]

end Declaration

namespace IdTable

/-! ## The table of declarations with distinct names -/

/-- The declaration that owns a value: the first one that has it. -/
def ownerIn (ds : List Declaration) (value : Int) : Option Declaration :=
  ds.find? (·.value = value)

/-- A declaration as an alias of the owner of its value. -/
def aliasIn (ds : List Declaration) (d : Declaration) : Option Alias :=
  (ownerIn ds d.value).map fun owner => ⟨d.name, owner.name, d.span⟩

/-- The names that own a value. -/
def ownerNames (ds : List Declaration) : List String := (firstBy (·.value) ds).map (·.name)

/-- The table of declarations whose names are distinct. -/
def tableOf (ds : List Declaration) : IdTable where
  canonical := (firstBy (·.value) ds).map Declaration.constant
  aliases := (ds.filter (·.name ∉ ownerNames ds)).filterMap (aliasIn ds)
  declared := ds

theorem owner?_eq_find? (t : IdTable) (value : Int) :
    t.owner? value = t.canonical.find? (·.value = value) := by
  rw [owner?, ownerIndex?, ← List.find?_eq_bind_findIdx?_getElem?]
  rfl

theorem declaration?_eq_find? (t : IdTable) (name : String) :
    t.declaration? name = t.declared.find? (·.name = name) := rfl

theorem owner?_tableOf (ds : List Declaration) (value : Int) :
    (tableOf ds).owner? value = (ownerIn ds value).map Declaration.constant := by
  rw [owner?_eq_find?, tableOf, List.find?_map, ownerIn,
    ← find?_firstBy Declaration.value Declaration.value fun _ _ _ _ h => h]
  rfl

theorem ownerIn_isSome_iff {ds : List Declaration} {value : Int} :
    (ownerIn ds value).isSome ↔ value ∈ ds.map (·.value) := by
  simp [ownerIn, List.find?_isSome]

/-- A value keeps its owner when more is declared. -/
theorem ownerIn_concat {ds : List Declaration} {value : Int} (d : Declaration)
    (h : value ∈ ds.map (·.value)) : ownerIn (ds ++ [d]) value = ownerIn ds value := by
  obtain ⟨owner, howner⟩ := Option.isSome_iff_exists.mp (ownerIn_isSome_iff.mpr h)
  rw [ownerIn, List.find?_append, ← ownerIn, howner]
  rfl

theorem aliasIn_concat {ds : List Declaration} (d : Declaration) {e : Declaration} (he : e ∈ ds) :
    aliasIn (ds ++ [d]) e = aliasIn ds e := by
  rw [aliasIn, aliasIn, ownerIn_concat d (List.mem_map_of_mem he)]

/-- Further declarations change no alias. -/
theorem filterMap_aliasIn_concat (ds : List Declaration) (d : Declaration)
    (p : Declaration → Bool) :
    (ds.filter p).filterMap (aliasIn (ds ++ [d])) = (ds.filter p).filterMap (aliasIn ds) :=
  List.filterMap_congr fun _ he => aliasIn_concat d (List.mem_of_mem_filter he)

theorem mem_names_of_mem_ownerNames {ds : List Declaration} {name : String}
    (h : name ∈ ownerNames ds) : name ∈ ds.map (·.name) :=
  ((firstBy_sublist _ ds).map _).subset h

/-- A new name for a value that has an owner is an alias. -/
theorem tableOf_concat_owned {ds : List Declaration} {d owner : Declaration}
    (hnew : d.name ∉ ds.map (·.name)) (hown : ownerIn ds d.value = some owner) :
    tableOf (ds ++ [d]) =
      { tableOf ds with
        aliases := (tableOf ds).aliases ++ [⟨d.name, owner.name, d.span⟩]
        declared := ds ++ [d] } := by
  have hmem : d.value ∈ ds.map (·.value) := ownerIn_isSome_iff.mp (by simp [hown])
  have hfirst : firstBy (·.value) (ds ++ [d]) = firstBy (·.value) ds := by
    rw [firstBy_concat, if_pos hmem]
  have howners : ownerNames (ds ++ [d]) = ownerNames ds := by
    rw [ownerNames, hfirst, ownerNames]
  have halias : aliasIn (ds ++ [d]) d = some ⟨d.name, owner.name, d.span⟩ := by
    rw [aliasIn, ownerIn_concat d hmem, hown]
    rfl
  have hd : [d].filter (·.name ∉ ownerNames ds) = [d] := by
    have := fun h => hnew (mem_names_of_mem_ownerNames h)
    simpa using this
  rw [tableOf, howners, hfirst, List.filter_append, List.filterMap_append,
    filterMap_aliasIn_concat, hd, List.filterMap_cons_some halias]
  rfl

/-- A new name for a value without an owner owns it. -/
theorem tableOf_concat_free {ds : List Declaration} {d : Declaration}
    (hnew : d.name ∉ ds.map (·.name)) (hown : ownerIn ds d.value = none) :
    tableOf (ds ++ [d]) =
      { tableOf ds with
        canonical := (tableOf ds).canonical ++ [d.constant]
        declared := ds ++ [d] } := by
  have hmem : d.value ∉ ds.map (·.value) := fun h => by
    have := ownerIn_isSome_iff.mpr h
    simp [hown] at this
  have hfirst : firstBy (·.value) (ds ++ [d]) = firstBy (·.value) ds ++ [d] := by
    rw [firstBy_concat, if_neg hmem]
  have howners : ownerNames (ds ++ [d]) = ownerNames ds ++ [d.name] := by
    rw [ownerNames, hfirst, List.map_append, ownerNames]
    rfl
  -- No earlier declaration has the new name, so the new owner hides no alias.
  have hkeep : ds.filter (·.name ∉ ownerNames ds ++ [d.name]) =
      ds.filter (·.name ∉ ownerNames ds) := by
    refine List.filter_congr fun e he => ?_
    have hne : e.name ≠ d.name := fun h => hnew (h ▸ List.mem_map_of_mem he)
    simp [hne]
  have hd : [d].filter (·.name ∉ ownerNames ds ++ [d.name]) = [] := by simp
  rw [tableOf, howners, hfirst, List.filter_append, hkeep, hd, List.append_nil,
    filterMap_aliasIn_concat, List.map_append]
  rfl

/-- Declaring a new name makes of the table what one more declaration makes of it. -/
theorem declare_tableOf {ds : List Declaration} {d : Declaration}
    (hnew : d.name ∉ ds.map (·.name)) : (tableOf ds).declare d = tableOf (ds ++ [d]) := by
  rw [declare, owner?_tableOf]
  cases hown : ownerIn ds d.value with
  | some owner =>
    rw [tableOf_concat_owned hnew hown]
    rfl
  | none =>
    rw [tableOf_concat_free hnew hown]
    rfl

/-! ## The invariant of the construction -/

theorem ofDeclarations_concat (ds : List Declaration) (d : Declaration) :
    Draft.ofDeclarations (ds ++ [d]) = (Draft.ofDeclarations ds).enter d := by
  simp [Draft.ofDeclarations]

/-- The table of a draft is that of the first declarations of names, conflicts or not. -/
theorem table_ofDeclarations (ds : List Declaration) :
    (Draft.ofDeclarations ds).table = tableOf (firstBy (·.name) ds) := by
  induction ds using List.reverseRecOn with
  | nil => rfl
  | append_singleton ds d ih =>
    rw [ofDeclarations_concat, Draft.enter, ih, declaration?_eq_find?, firstBy_concat]
    cases hfind : (tableOf (firstBy (·.name) ds)).declared.find? (·.name = d.name) with
    | none =>
      have hnew : d.name ∉ (firstBy (·.name) ds).map (·.name) := by
        intro h
        obtain ⟨e, he, hname⟩ := List.mem_map.mp h
        exact List.find?_eq_none.mp hfind e he (by simpa using hname)
      rw [if_neg (fun h => hnew (mem_map_firstBy.mpr h)), ← declare_tableOf hnew]
    | some first =>
      have hold : d.name ∈ ds.map (·.name) := by
        have hname : first.name = d.name := by simpa using List.find?_some hfind
        exact hname ▸ List.mem_map_of_mem (mem_of_mem_firstBy (List.mem_of_find?_eq_some hfind))
      rw [if_pos hold]
      dsimp only
      split
      · exact ih
      · rfl

/-- The first declaration of a name in a draft is the first one of the sequence. -/
theorem declaration?_ofDeclarations (ds : List Declaration) (name : String) :
    (Draft.ofDeclarations ds).table.declaration? name = ds.find? (·.name = name) := by
  rw [table_ofDeclarations, declaration?_eq_find?]
  exact find?_firstBy Declaration.name Declaration.name (fun _ _ _ _ h => h) name

/-- The conflict of a declaration with the first one of its name. -/
def conflictIn (ds : List Declaration) (d : Declaration) : Option TableFault :=
  (ds.find? (·.name = d.name)).bind fun first =>
    if first.value = d.value then none else some (.conflict d first)

theorem conflictIn_concat {ds : List Declaration} (d : Declaration) {e : Declaration}
    (he : e.name ∈ ds.map (·.name)) : conflictIn (ds ++ [d]) e = conflictIn ds e := by
  have hsome : (ds.find? (·.name = e.name)).isSome := by
    obtain ⟨f, hf, hname⟩ := List.mem_map.mp he
    exact List.find?_isSome.mpr ⟨f, hf, by simpa using hname⟩
  obtain ⟨first, hfirst⟩ := Option.isSome_iff_exists.mp hsome
  rw [conflictIn, conflictIn, List.find?_append, hfirst]
  rfl

/-- The conflicts of a draft, in order: one for every declaration whose name has another value
before. -/
theorem conflicts_ofDeclarations (ds : List Declaration) :
    (Draft.ofDeclarations ds).conflicts = ds.filterMap (conflictIn ds) := by
  induction ds using List.reverseRecOn with
  | nil => rfl
  | append_singleton ds d ih =>
    have hold : ds.filterMap (conflictIn (ds ++ [d])) = ds.filterMap (conflictIn ds) :=
      List.filterMap_congr fun e he => conflictIn_concat d (List.mem_map_of_mem he)
    rw [ofDeclarations_concat, Draft.enter, declaration?_ofDeclarations, List.filterMap_append,
      hold, ← ih]
    cases hfind : ds.find? (·.name = d.name) with
    | none =>
      have hself : conflictIn (ds ++ [d]) d = none := by
        simp [conflictIn, List.find?_append, hfind]
      simp [hself]
    | some first =>
      have hself : conflictIn (ds ++ [d]) d =
          if first.value = d.value then none else some (.conflict d first) := by
        simp [conflictIn, List.find?_append, hfind]
      by_cases hv : first.value = d.value <;> simp [hself, hv]

/-! ## A successful build -/

/-- A table that is built has seen no conflict. -/
theorem table_of_ok {ds : List Declaration} {t : IdTable} (h : ofDeclarations ds = .ok t) :
    t = (Draft.ofDeclarations ds).table ∧ (Draft.ofDeclarations ds).conflicts = [] := by
  unfold ofDeclarations at h
  dsimp only at h
  split at h
  · next hf =>
    refine ⟨by simpa using h.symm, ?_⟩
    unfold Draft.faults at hf
    dsimp only at hf
    split at hf
    · exact absurd hf (by simp)
    · exact (List.append_eq_nil_iff.mp hf).1
  · exact absurd h (by simp)

/-- Without a conflict, a name has one value. -/
theorem value_eq_of_no_conflict {ds : List Declaration}
    (h : (Draft.ofDeclarations ds).conflicts = []) :
    ∀ d ∈ ds, ∀ e ∈ ds, d.name = e.name → d.value = e.value := by
  rw [conflicts_ofDeclarations, List.filterMap_eq_nil_iff] at h
  have hfirst : ∀ d ∈ ds, ∀ first, ds.find? (·.name = d.name) = some first →
      first.value = d.value := by
    intro d hd first hfind
    have hd' := h d hd
    rw [conflictIn, hfind] at hd'
    by_contra hv
    simp [hv] at hd'
  intro d hd e he hname
  have hsome : (ds.find? (·.name = d.name)).isSome :=
    List.find?_isSome.mpr ⟨d, hd, by simp⟩
  obtain ⟨first, hfind⟩ := Option.isSome_iff_exists.mp hsome
  rw [← hfirst d hd first hfind, hfirst e he first (by rw [← hname]; exact hfind)]

/-- What "the first declaration wins" says of a table and the sequence of declarations it was
built from. The first two fields determine the table; the others are what its users rely on. -/
structure FirstWins (ds : List Declaration) (t : IdTable) : Prop where
  /-- Canonical is the first declaration of every value. -/
  canonical : t.canonical = (firstBy (·.value) ds).map Declaration.constant
  /-- An alias is the first declaration of every other name, and stands for the name that the
  first declaration of its value has. -/
  aliases : t.aliases.map some =
    ((firstBy (·.name) ds).filter (·.name ∉ t.canonical.map (·.name))).map (aliasIn ds)
  distinct_values : (t.canonical.map (·.value)).Nodup
  distinct_names : (t.canonical.map (·.name) ++ t.aliases.map (·.name)).Nodup
  /-- Every declared name is canonical or an alias, and not both. -/
  listed_once : ∀ d ∈ ds,
    Xor (d.name ∈ t.canonical.map (·.name)) (d.name ∈ t.aliases.map (·.name))
  aliases_lead : ∀ a ∈ t.aliases, ∃ c ∈ t.canonical, c.name = a.canonical

/-- Every declaration of a sequence is an alias of some owner there. -/
theorem aliasIn_isSome {ds : List Declaration} {d : Declaration} (h : d ∈ ds) :
    ∃ owner, ownerIn ds d.value = some owner ∧
      aliasIn ds d = some ⟨d.name, owner.name, d.span⟩ := by
  have hsome := ownerIn_isSome_iff.mpr (List.mem_map_of_mem (f := fun e => e.value) h)
  obtain ⟨owner, howner⟩ := Option.isSome_iff_exists.mp hsome
  exact ⟨owner, howner, by rw [aliasIn, howner]; rfl⟩

theorem map_filterMap_aliasIn {ds es : List Declaration} (h : ∀ e ∈ es, e ∈ ds) :
    (es.filterMap (aliasIn ds)).map some = es.map (aliasIn ds) := by
  induction es with
  | nil => rfl
  | cons e es ih =>
    obtain ⟨owner, -, halias⟩ := aliasIn_isSome (h e List.mem_cons_self)
    rw [List.filterMap_cons_some halias, List.map_cons, List.map_cons, halias,
      ih fun e he => h e (List.mem_cons_of_mem _ he)]

theorem map_name_filterMap_aliasIn {ds es : List Declaration} (h : ∀ e ∈ es, e ∈ ds) :
    (es.filterMap (aliasIn ds)).map (·.name) = es.map (·.name) := by
  induction es with
  | nil => rfl
  | cons e es ih =>
    obtain ⟨owner, -, halias⟩ := aliasIn_isSome (h e List.mem_cons_self)
    rw [List.filterMap_cons_some halias, List.map_cons, List.map_cons,
      ih fun e he => h e (List.mem_cons_of_mem _ he)]

theorem map_name_canonical_tableOf (ds : List Declaration) :
    (tableOf ds).canonical.map (·.name) = ownerNames ds := by
  rw [tableOf, List.map_map]
  rfl

theorem map_name_aliases_tableOf (ds : List Declaration) :
    (tableOf ds).aliases.map (·.name) =
      (ds.filter (·.name ∉ ownerNames ds)).map (·.name) :=
  map_name_filterMap_aliasIn fun _ he => List.mem_of_mem_filter he

/-- Both lists of a table hold every name once between them. -/
theorem mem_names_tableOf {ds : List Declaration} {name : String} (h : name ∈ ds.map (·.name)) :
    Xor (name ∈ (tableOf ds).canonical.map (·.name))
      (name ∈ (tableOf ds).aliases.map (·.name)) := by
  rw [map_name_canonical_tableOf, map_name_aliases_tableOf]
  obtain ⟨d, hd, rfl⟩ := List.mem_map.mp h
  by_cases hown : d.name ∈ ownerNames ds
  · refine Or.inl ⟨hown, fun halias => ?_⟩
    obtain ⟨e, he, hname⟩ := List.mem_map.mp halias
    have hnot : e.name ∉ ownerNames ds := by simpa using (List.mem_filter.mp he).2
    exact hnot (hname ▸ hown)
  · exact Or.inr ⟨List.mem_map.mpr ⟨d, List.mem_filter.mpr ⟨hd, by simpa using hown⟩, rfl⟩, hown⟩

theorem nodup_names_tableOf {ds : List Declaration} (h : (ds.map (·.name)).Nodup) :
    ((tableOf ds).canonical.map (·.name) ++ (tableOf ds).aliases.map (·.name)).Nodup := by
  rw [map_name_canonical_tableOf, map_name_aliases_tableOf, List.nodup_append]
  refine ⟨((firstBy_sublist _ ds).map _).nodup h, (List.filter_sublist.map _).nodup h, ?_⟩
  rintro name hown _ halias rfl
  obtain ⟨e, he, hname⟩ := List.mem_map.mp halias
  have hnot : e.name ∉ ownerNames ds := by simpa using (List.mem_filter.mp he).2
  exact hnot (hname ▸ hown)

theorem nodup_values_tableOf (ds : List Declaration) :
    ((tableOf ds).canonical.map (·.value)).Nodup := by
  rw [tableOf, List.map_map]
  exact nodup_map_firstBy Declaration.value ds

theorem aliases_lead_tableOf {ds : List Declaration} {a : Alias} (h : a ∈ (tableOf ds).aliases) :
    ∃ c ∈ (tableOf ds).canonical, c.name = a.canonical := by
  obtain ⟨d, -, halias⟩ := List.mem_filterMap.mp h
  obtain ⟨owner, hown, rfl⟩ := Option.map_eq_some_iff.mp halias
  have hmem : owner.constant ∈ (tableOf ds).canonical := by
    have howner : (tableOf ds).owner? d.value = some owner.constant := by
      rw [owner?_tableOf, hown]
      rfl
    rw [owner?_eq_find?] at howner
    exact List.mem_of_find?_eq_some howner
  exact ⟨_, hmem, rfl⟩

/-- **The first declaration wins.** Whenever the lines of a file make a table, the table is read off
the sequence of their declarations alone: the first declaration of every value is canonical, and
the first one of every other name is an alias of it. -/
theorem build_firstWins {suffix : String} {lines : List SourceLine} {t : IdTable}
    (h : build suffix lines = .ok t) : FirstWins (Declaration.ofLines suffix lines) t := by
  generalize hds : Declaration.ofLines suffix lines = ds
  rw [build, hds] at h
  obtain ⟨rfl, hconflicts⟩ := table_of_ok h
  have hvalue := value_eq_of_no_conflict hconflicts
  rw [table_ofDeclarations]
  have hcanonical : firstBy (·.value) (firstBy (·.name) ds) = firstBy (·.value) ds :=
    firstBy_firstBy hvalue
  have hnames : ownerNames (firstBy (·.name) ds) =
      ((firstBy (·.value) ds).map Declaration.constant).map (·.name) := by
    rw [ownerNames, hcanonical, List.map_map]
    rfl
  refine
    { canonical := by rw [tableOf, hcanonical]
      aliases := ?_
      distinct_values := nodup_values_tableOf _
      distinct_names := nodup_names_tableOf (nodup_map_firstBy _ ds)
      listed_once := fun d hd =>
        mem_names_tableOf (mem_map_firstBy.mpr (List.mem_map_of_mem hd))
      aliases_lead := fun a ha => aliases_lead_tableOf ha }
  rw [map_name_canonical_tableOf, tableOf,
    map_filterMap_aliasIn fun _ he => List.mem_of_mem_filter he]
  refine List.map_congr_left fun d _ => ?_
  rw [aliasIn, aliasIn, ownerIn, ownerIn, find?_firstBy Declaration.value Declaration.name hvalue]

/-- Two names for one value, a repeated declaration, and two raw names that become one. -/
theorem build_firstWins_aliases :
    let lines : List SourceLine :=
      [⟨0, "const AIR_ID = 0;".toList⟩, ⟨20, "const COBBLE_STONE_ID = 0x4;".toList⟩,
        ⟨50, "const COBBLE_ID = 4;".toList⟩, ⟨70, "const COBBLE__STONE_ID = 4".toList⟩,
        ⟨90, "const VERSION = 7;".toList⟩]
    let t : IdTable :=
      ⟨[⟨"Air", 0⟩, ⟨"CobbleStone", 4⟩], [⟨"Cobble", "CobbleStone", ⟨50, 70⟩⟩],
        [⟨"Air", 0, ⟨0, 17⟩⟩, ⟨"CobbleStone", 4, ⟨20, 48⟩⟩, ⟨"Cobble", 4, ⟨50, 70⟩⟩]⟩
    build "_ID" lines = .ok t ∧ FirstWins (Declaration.ofLines "_ID" lines) t := by
  intro lines t
  have h : build "_ID" lines = .ok t := by decide +kernel
  exact ⟨h, build_firstWins h⟩

end IdTable

end PacketGen
