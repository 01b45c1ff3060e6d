import PacketGen.Proofs.IdTable.Indexed
import PacketGen.Proofs.IdTable.Slots

/-!
# Names and values lead to each other

A table knows the value of a name in two ways: it was noted when the name was declared, and it can
be found through the aliases and the canonical constants. The construction compares the two for
every alias and would report a difference. There is none, in any table it makes and for any name,
also when the declarations contradict each other (`resolve?_tableOf`): names are listed once, so the
canonical constant that is found under the name of an alias is the owner of its value.

What a table is good for its readers is `Resolution`. It speaks of the look-ups alone, so it is said
of a table and of the same table with indexes in the same words.
-/

namespace PacketGen.IdTable

/-- The look-ups of a table agree with each other and with its canonical constants. -/
structure Resolution (canonical : List Constant) (value? resolve? : String → Option Int)
    (canonicalName? : Int → Option String) : Prop where
  /-- Any name, declared or not, has its declared value through aliases and constants. -/
  value_eq_resolve : ∀ name, value? name = resolve? name
  canonicalName_iff : ∀ v name, canonicalName? v = some name ↔ ⟨name, v⟩ ∈ canonical
  value_canonicalName : ∀ v name, canonicalName? v = some name → value? name = some v

/-! ## Through aliases and constants -/

theorem canonicalFor_alias {t : IdTable} (hnodup : (t.aliases.map (·.name)).Nodup) {a : Alias}
    (ha : a ∈ t.aliases) : t.canonicalFor a.name = a.canonical := by
  have hfind : t.aliases.find? (·.name == a.name) = some a :=
    find?_eq_some_of_nodup hnodup ha
  rw [canonicalFor, hfind]

theorem canonicalFor_of_not_mem {t : IdTable} {name : String}
    (h : name ∉ t.aliases.map (·.name)) : t.canonicalFor name = name := by
  have hfind : t.aliases.find? (·.name == name) = none := by
    rw [List.find?_eq_none]
    intro a ha hname
    exact h (List.mem_map.mpr ⟨a, ha, by simpa using hname⟩)
  rw [canonicalFor, hfind]

namespace WellFormed

variable {t : IdTable} (h : WellFormed t)

include h

theorem find?_canonical {c : Constant} (hc : c ∈ t.canonical) :
    t.canonical.find? (·.name == c.name) = some c :=
  find?_eq_some_of_nodup (List.nodup_append.mp h.distinct_names).1 hc

theorem resolve?_canonical {c : Constant} (hc : c ∈ t.canonical) :
    t.resolve? c.name = some c.value := by
  -- Names are listed once, so no alias stands in the way of a canonical name.
  have hnot : c.name ∉ t.aliases.map (·.name) := by
    intro hmem
    exact (List.nodup_append.mp h.distinct_names).2.2 _ (List.mem_map_of_mem hc) _ hmem rfl
  rw [resolve?, canonicalFor_of_not_mem hnot, h.find?_canonical hc]
  rfl

theorem resolve?_alias {a : Alias} (ha : a ∈ t.aliases) : t.resolve? a.name = t.value? a.name := by
  obtain ⟨c, hc, hname, hvalue⟩ := h.aliases a ha
  rw [resolve?, canonicalFor_alias (List.nodup_append.mp h.distinct_names).2.1 ha, ← hname,
    h.find?_canonical hc, hvalue]
  rfl

theorem owner?_eq_some_iff {v : Int} {c : Constant} :
    t.owner? v = some c ↔ c ∈ t.canonical ∧ c.value = v := by
  constructor
  · intro howner
    rw [owner?_eq_find?] at howner
    exact ⟨List.mem_of_find?_eq_some howner, by simpa using List.find?_some howner⟩
  · rintro ⟨hc, rfl⟩
    exact h.owner? hc

theorem canonicalName?_eq_some_iff {v : Int} {name : String} :
    t.canonicalName? v = some name ↔ ⟨name, v⟩ ∈ t.canonical := by
  rw [canonicalName?, Option.map_eq_some_iff]
  constructor
  · rintro ⟨c, howner, rfl⟩
    obtain ⟨hc, rfl⟩ := h.owner?_eq_some_iff.mp howner
    exact hc
  · intro hc
    exact ⟨_, h.owner?_eq_some_iff.mpr ⟨hc, rfl⟩, rfl⟩

end WellFormed

theorem resolve?_of_not_mem {t : IdTable} {name : String}
    (h : name ∉ t.canonical.map (·.name) ++ t.aliases.map (·.name)) : t.resolve? name = none := by
  rw [List.mem_append, not_or] at h
  have hfind : t.canonical.find? (·.name == name) = none := by
    rw [List.find?_eq_none]
    intro c hc hname
    exact h.1 (List.mem_map.mpr ⟨c, hc, by simpa using hname⟩)
  rw [resolve?, canonicalFor_of_not_mem h.2, hfind]
  rfl

/-! ## In the table of declarations -/

theorem value?_tableOf_of_not_mem {ds : List Declaration} {name : String}
    (h : name ∉ (tableOf ds).canonical.map (·.name) ++ (tableOf ds).aliases.map (·.name)) :
    (tableOf ds).value? name = none := by
  rw [value?, Option.map_eq_none_iff, declaration?_eq_find?, List.find?_eq_none]
  intro d hd hname
  have hname : d.name = name := by simpa using hname
  refine h (List.mem_append.mpr ?_)
  exact (mem_names_tableOf (hname ▸ List.mem_map_of_mem hd)).or

theorem canonical_tableOf_eq_nil_iff {ds : List Declaration} :
    (tableOf ds).canonical = [] ↔ ds = [] := by
  rw [tableOf, List.map_eq_nil_iff, firstBy_eq_nil_iff]

theorem resolve?_tableOf {ds : List Declaration} (hnodup : (ds.map (·.name)).Nodup)
    (name : String) : (tableOf ds).resolve? name = (tableOf ds).value? name := by
  -- A name that is listed leads to its value; any other is unknown either way.
  by_cases hmem : name ∈ (tableOf ds).canonical.map (·.name) ++ (tableOf ds).aliases.map (·.name)
  · have hne : (tableOf ds).canonical ≠ [] := by
      intro hnil
      rw [canonical_tableOf_eq_nil_iff.mp hnil] at hmem
      cases hmem
    have hwell := wellFormed_tableOf hnodup hne
    rcases List.mem_append.mp hmem with hmem | hmem
    · obtain ⟨c, hc, rfl⟩ := List.mem_map.mp hmem
      rw [hwell.resolve?_canonical hc, hwell.canonical c hc]
    · obtain ⟨a, ha, rfl⟩ := List.mem_map.mp hmem
      exact hwell.resolve?_alias ha
  · rw [resolve?_of_not_mem hmem, value?_tableOf_of_not_mem hmem]

/-- No alias misses its declared value, conflicts or not. -/
theorem inconsistencies_ofDeclarations (ds : List Declaration) :
    (Draft.ofDeclarations ds).inconsistencies = [] := by
  rw [Draft.inconsistencies, List.map_eq_nil_iff, List.filter_eq_nil_iff, table_ofDeclarations]
  intro a _
  simp [resolve?_tableOf (nodup_map_firstBy _ ds)]

theorem canonical_ofDeclarations_eq_nil_iff {ds : List Declaration} :
    (Draft.ofDeclarations ds).table.canonical = [] ↔ ds = [] := by
  rw [table_ofDeclarations, canonical_tableOf_eq_nil_iff, firstBy_eq_nil_iff]

/-- All that can be wrong: nothing is declared, or names are declared again with other values. -/
theorem faults_ofDeclarations (ds : List Declaration) :
    (Draft.ofDeclarations ds).faults =
      if ds = [] then [.empty] else ds.filterMap (conflictIn ds) := by
  rw [Draft.faults, inconsistencies_ofDeclarations, List.append_nil, conflicts_ofDeclarations]
  by_cases hds : ds = []
  · subst hds
    rfl
  · have hcanonical : (Draft.ofDeclarations ds).table.canonical ≠ [] := fun h =>
      hds (canonical_ofDeclarations_eq_nil_iff.mp h)
    rw [if_neg hds, if_neg fun h => hcanonical h.2]

theorem code_of_mem_faults {ds : List Declaration} {f : TableFault}
    (h : f ∈ (Draft.ofDeclarations ds).faults) :
    f.code = .emptyIdTable ∨ f.code = .duplicateIdentifier := by
  rw [faults_ofDeclarations] at h
  split at h
  · rw [List.mem_singleton.mp h]
    exact Or.inl rfl
  · obtain ⟨d, -, hconflict⟩ := List.mem_filterMap.mp h
    obtain ⟨first, -, hfirst⟩ := Option.bind_eq_some_iff.mp hconflict
    split at hfirst
    · cases hfirst
    · cases hfirst
      exact Or.inr rfl

theorem faults_of_error {suffix : String} {lines : List SourceLine} {faults : List TableFault}
    (h : build suffix lines = .error faults) :
    faults = (Draft.ofDeclarations (Declaration.ofLines suffix lines)).faults := by
  rw [build, ofDeclarations] at h
  split at h
  · cases h
  · cases h
    rfl

theorem resolution_of_build {suffix : String} {lines : List SourceLine} {t : IdTable}
    (h : build suffix lines = .ok t) :
    Resolution t.canonical t.value? t.resolve? t.canonicalName? := by
  have hwell := wellFormed_of_build h
  obtain ⟨ds, rfl, hnodup, -⟩ := exists_tableOf h
  refine ⟨?_, fun _ _ => hwell.canonicalName?_eq_some_iff, ?_⟩
  · intro name
    exact (resolve?_tableOf hnodup name).symm
  · intro v name hname
    exact hwell.canonical ⟨name, v⟩ (hwell.canonicalName?_eq_some_iff.mp hname)

/-- **Every name resolves to its declared value**: the construction never reports an alias that does
not, and the look-ups of a table that is built agree, whether they go through the lists or through
indexes, of which every position holds a constant. -/
theorem build_resolves (suffix : String) (lines : List SourceLine) :
    (∀ faults, build suffix lines = .error faults →
      ∀ f ∈ faults, f.code ≠ .inconsistentAlias) ∧
    (∀ t, build suffix lines = .ok t →
      Resolution t.canonical t.value? t.resolve? t.canonicalName?) ∧
    ∃ r, Indexed.build suffix lines = some r ∧ Indexed.SameResult r (build suffix lines) ∧
      ∀ x, r = .ok x → Resolution x.canonical x.value? x.resolve? x.canonicalName? ∧
        ∀ (v : Int) (i : Nat), x.owners[v]? = some i → i < x.canonical.length := by
  refine ⟨?_, fun t => resolution_of_build, ?_⟩
  · intro faults hbuild f hf hcode
    rw [faults_of_error hbuild] at hf
    rcases code_of_mem_faults hf with h | h
    · rw [hcode] at h
      cases h
    · rw [hcode] at h
      cases h
  · obtain ⟨r, hr, hsame⟩ := Indexed.exists_build suffix lines
    refine ⟨r, hr, hsame, ?_⟩
    rintro x rfl
    generalize hbuild : build suffix lines = result at hsame
    cases hsame with
    | ok h =>
      rw [h.value?, h.resolve?, h.canonicalName?, h.canonical]
      exact ⟨resolution_of_build hbuild, fun v i hi => h.canonical ▸ h.owners_lt hi⟩

end PacketGen.IdTable
