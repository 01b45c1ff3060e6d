import PacketGen.Proofs.IdTable.FirstDeclaration

/-!
# Tables with indexes

`IdTable` answers every question by going through its lists. A construction that asks for each
declaration whether its name is known, where, and who owns its value, keeps the answers at hand: the
value and the place of every name, and of every value the position of its owner among the canonical
constants. `Indexed` is a table with these three maps, which grow beside the lists.

Now the maps have to stay in step with the lists and with each other, and two look-ups rest on it:
the place of a name that has a value, and the constant at a position that was noted. Where one of
them finds nothing the construction breaks off, so `Indexed.build` is an `Option`. `Indexes` says
that maps and lists tell the same. One declaration keeps it (`exists_enter`) and so does a whole
construction (`exists_foldlM`): none ever breaks off, and what comes out is the same as without
indexes (`exists_build`).
-/

namespace PacketGen.IdTable

/-! ## What one more declaration answers -/

theorem declaration?_declare {t : IdTable} {d : Declaration} (hnew : t.declaration? d.name = none)
    (name : String) :
    (t.declare d).declaration? name = if d.name = name then some d else t.declaration? name := by
  have hdeclared : (t.declare d).declared = t.declared ++ [d] := by
    rw [declare]
    cases t.owner? d.value <;> rfl
  rw [declaration?_eq_find?, hdeclared, List.find?_append, ← declaration?_eq_find?]
  by_cases hname : d.name = name
  · subst hname
    simp [hnew]
  · simp [hname]

theorem value?_declare {t : IdTable} {d : Declaration} (hnew : t.declaration? d.name = none)
    (name : String) :
    (t.declare d).value? name = if d.name = name then some d.value else t.value? name := by
  rw [value?, declaration?_declare hnew, value?]
  split <;> rfl

theorem owner?_of_ownerIndex? {t : IdTable} {v : Int} {i : Nat} (h : t.ownerIndex? v = some i) :
    i < t.canonical.length ∧ t.owner? v = t.canonical[i]? := by
  obtain ⟨hi, -⟩ := List.findIdx?_eq_some_iff_getElem.mp h
  exact ⟨hi, by rw [owner?, h, Option.bind_some]⟩

theorem owner?_of_ownerIndex?_eq_none {t : IdTable} {v : Int} (h : t.ownerIndex? v = none) :
    t.owner? v = none := by
  rw [owner?, h]
  rfl

theorem ownerIndex?_declare {t : IdTable} {d : Declaration} (hfree : t.ownerIndex? d.value = none)
    (v : Int) :
    (t.declare d).ownerIndex? v =
      if d.value = v then some t.canonical.length else t.ownerIndex? v := by
  have hcanonical : (t.declare d).canonical = t.canonical ++ [⟨d.name, d.value⟩] := by
    rw [declare, owner?_of_ownerIndex?_eq_none hfree]
  rw [ownerIndex?, hcanonical, List.findIdx?_append, ← ownerIndex?]
  by_cases hv : d.value = v
  · subst hv
    simp [hfree]
  · simp [hv]

/-! ## The construction -/

/-- A table with maps for the answers. -/
structure Indexed where
  canonical : List Constant
  aliases : List Alias
  /-- The declared value of every name. -/
  values : Std.HashMap String Int
  /-- The position of the canonical constant that owns a value. -/
  owners : Std.HashMap Int Nat

namespace Indexed

def empty : Indexed := ⟨[], [], ∅, ∅⟩

def value? (x : Indexed) (name : String) : Option Int := x.values[name]?

/-- The name that owns a value; also `none` when there is no constant at the noted position. -/
def canonicalName? (x : Indexed) (value : Int) : Option String :=
  ((x.owners[value]?).bind (x.canonical[·]?)).map (·.name)

/-- The value of a name, looked up through the aliases and the canonical constants. -/
def resolve? (x : Indexed) (name : String) : Option Int :=
  let canonical := match x.aliases.find? (·.name == name) with
    | some a => a.canonical
    | none => name
  (x.canonical.find? (·.name == canonical)).map (·.value)

/-- The table with one more declaration, of a name that is not declared yet; `none` when there is
no constant at the noted position. -/
def declare (x : Indexed) (d : Declaration) : Option Indexed :=
  match x.owners[d.value]? with
  | some index => (x.canonical[index]?).map fun owner =>
    { x with
      aliases := x.aliases ++ [⟨d.name, owner.name, d.span⟩]
      values := x.values.insert d.name d.value }
  | none => some
    { canonical := x.canonical ++ [⟨d.name, d.value⟩]
      aliases := x.aliases
      values := x.values.insert d.name d.value
      owners := x.owners.insert d.value x.canonical.length }

/-- A table under construction, with the place of every name and the conflicts met so far. -/
structure Draft where
  table : Indexed
  spans : Std.HashMap String Span
  conflicts : List TableFault

namespace Draft

def empty : Draft := ⟨Indexed.empty, ∅, []⟩

/-- Enters one declaration; `none` when a look-up fails. -/
def enter (s : Draft) (d : Declaration) : Option Draft :=
  match s.table.value? d.name with
  | some value =>
    if value = d.value then some s
    else (s.spans[d.name]?).map fun span =>
      { s with conflicts := s.conflicts ++ [.conflict d ⟨d.name, value, span⟩] }
  | none => (s.table.declare d).map fun table =>
    { s with table := table, spans := s.spans.insert d.name d.span }

def ofDeclarations (ds : List Declaration) : Option Draft := ds.foldlM enter empty

/-- The aliases that do not lead to their declared value. -/
def inconsistencies (s : Draft) : List TableFault :=
  (s.table.aliases.filter fun a => s.table.resolve? a.name ≠ s.table.value? a.name).map
    .inconsistentAlias

/-- Everything that is wrong with a finished draft. -/
def faults (s : Draft) : List TableFault :=
  let found := s.conflicts ++ s.inconsistencies
  if found = [] ∧ s.table.canonical = [] then [.empty] else found

end Draft

/-- The table of the lines that declare a name ending in `suffix`, or all their faults; `none` when
a look-up fails. -/
def build (suffix : String) (lines : List SourceLine) :
    Option (Except (List TableFault) Indexed) :=
  (Draft.ofDeclarations (Declaration.ofLines suffix lines)).map fun s =>
    if s.faults = [] then .ok s.table else .error s.faults

/-! ## Maps and lists in step -/

/-- The maps answer what the lists of a table do. -/
structure Indexes (x : Indexed) (t : IdTable) : Prop where
  canonical : x.canonical = t.canonical
  aliases : x.aliases = t.aliases
  values : ∀ name, x.values[name]? = t.value? name
  owners : ∀ v, x.owners[v]? = t.ownerIndex? v

namespace Indexes

variable {x : Indexed} {t : IdTable} (h : x.Indexes t)

include h

theorem value? : x.value? = t.value? := funext h.values

theorem resolve? : x.resolve? = t.resolve? := by
  funext name
  rw [Indexed.resolve?, h.canonical, h.aliases]
  rfl

theorem canonicalName? : x.canonicalName? = t.canonicalName? := by
  funext v
  rw [Indexed.canonicalName?, h.owners, h.canonical]
  rfl

/-- Every position that is noted holds a constant. -/
theorem owners_lt {v : Int} {i : Nat} (hi : x.owners[v]? = some i) : i < x.canonical.length := by
  rw [h.owners] at hi
  rw [h.canonical]
  exact (owner?_of_ownerIndex? hi).1

/-- A new name is declared without a look-up failing, and maps and lists stay in step. -/
theorem exists_declare {d : Declaration} (hnew : t.declaration? d.name = none) :
    ∃ y, x.declare d = some y ∧ y.Indexes (t.declare d) := by
  have hvalues : ∀ name, (x.values.insert d.name d.value)[name]? = (t.declare d).value? name := by
    intro name
    rw [Std.HashMap.getElem?_insert, value?_declare hnew, h.values]
    simp
  rw [Indexed.declare, h.owners]
  cases hindex : t.ownerIndex? d.value with
  | some i =>
    -- The noted position is that of the owner, so there is a constant at it.
    obtain ⟨hi, howner⟩ := owner?_of_ownerIndex? hindex
    rw [List.getElem?_eq_getElem hi] at howner
    rw [h.canonical]
    dsimp only
    rw [List.getElem?_eq_getElem hi]
    refine ⟨_, rfl, ?_⟩
    rw [IdTable.declare, howner] at hvalues ⊢
    exact ⟨rfl, by rw [h.aliases], hvalues, h.owners⟩
  | none =>
    -- The new constant comes last, which is the position noted for its value.
    have howners : ∀ v, (x.owners.insert d.value x.canonical.length)[v]? =
        (t.declare d).ownerIndex? v := by
      intro v
      rw [Std.HashMap.getElem?_insert, ownerIndex?_declare hindex, h.owners, h.canonical]
      simp
    refine ⟨_, rfl, ?_⟩
    rw [IdTable.declare, owner?_of_ownerIndex?_eq_none hindex] at hvalues howners ⊢
    exact ⟨by rw [h.canonical], h.aliases, hvalues, howners⟩

end Indexes

/-- The maps of a draft answer what its table does. -/
structure Draft.Indexes (s : Indexed.Draft) (u : IdTable.Draft) : Prop where
  table : s.table.Indexes u.table
  spans : ∀ name, s.spans[name]? = (u.table.declaration? name).map (·.span)
  conflicts : s.conflicts = u.conflicts

namespace Draft.Indexes

variable {s : Indexed.Draft} {u : IdTable.Draft}

theorem empty : Draft.empty.Indexes IdTable.Draft.empty where
  table := ⟨rfl, rfl, fun _ => Std.HashMap.getElem?_empty, fun _ => Std.HashMap.getElem?_empty⟩
  spans _ := Std.HashMap.getElem?_empty
  conflicts := rfl

/-- One declaration is entered without a look-up failing, and maps and lists stay in step. -/
theorem exists_enter (h : s.Indexes u) (d : Declaration) :
    ∃ s', s.enter d = some s' ∧ s'.Indexes (u.enter d) := by
  have hvalue : s.table.value? d.name = (u.table.declaration? d.name).map (·.value) :=
    h.table.values d.name
  rw [Draft.enter, hvalue, IdTable.Draft.enter]
  cases hfirst : u.table.declaration? d.name with
  | none =>
    obtain ⟨y, hy, hindexes⟩ := h.table.exists_declare hfirst
    dsimp only [Option.map_none]
    rw [hy]
    refine ⟨_, rfl, hindexes, ?_, h.conflicts⟩
    intro name
    rw [Std.HashMap.getElem?_insert, declaration?_declare hfirst, h.spans]
    by_cases hname : d.name = name <;> simp [hname]
  | some first =>
    dsimp only [Option.map_some]
    split
    · exact ⟨s, rfl, h⟩
    · -- The name has a value, so it has a place.
      have hspan : s.spans[d.name]? = some first.span := by rw [h.spans, hfirst]; rfl
      have hname : first.name = d.name := by
        have := List.find?_some (hfirst ▸ declaration?_eq_find? u.table d.name).symm
        simpa using this
      rw [hspan]
      exact ⟨_, rfl, h.table, h.spans, by rw [h.conflicts, ← hname]⟩

/-- No look-up of a whole construction fails. -/
theorem exists_foldlM (h : s.Indexes u) (ds : List Declaration) :
    ∃ s', ds.foldlM Draft.enter s = some s' ∧ s'.Indexes (ds.foldl IdTable.Draft.enter u) := by
  induction ds generalizing s u with
  | nil => exact ⟨s, rfl, h⟩
  | cons d ds ih =>
    obtain ⟨s', hs', hindexes⟩ := h.exists_enter d
    obtain ⟨s'', hs'', hrun⟩ := ih hindexes
    refine ⟨s'', ?_, hrun⟩
    rw [List.foldlM_cons, hs']
    exact hs''

theorem faults (h : s.Indexes u) : s.faults = u.faults := by
  rw [Draft.faults, IdTable.Draft.faults, Draft.inconsistencies, IdTable.Draft.inconsistencies,
    h.conflicts, h.table.canonical, h.table.aliases, h.table.value?, h.table.resolve?]

end Draft.Indexes

/-- A construction with indexes ended as the one without: with a table that says the same, or with
the same faults. -/
inductive SameResult : Except (List TableFault) Indexed → Except (List TableFault) IdTable → Prop
  | ok {x : Indexed} {t : IdTable} (h : x.Indexes t) : SameResult (.ok x) (.ok t)
  | error (faults : List TableFault) : SameResult (.error faults) (.error faults)

/-- A construction with indexes never breaks off, and ends as the one without. -/
theorem exists_build (suffix : String) (lines : List SourceLine) :
    ∃ r, Indexed.build suffix lines = some r ∧ SameResult r (IdTable.build suffix lines) := by
  obtain ⟨s, hs, hindexes⟩ :=
    Draft.Indexes.empty.exists_foldlM (Declaration.ofLines suffix lines)
  refine ⟨if s.faults = [] then .ok s.table else .error s.faults, ?_, ?_⟩
  · rw [build, Draft.ofDeclarations, hs]
    rfl
  · rw [IdTable.build, IdTable.ofDeclarations, IdTable.Draft.ofDeclarations, ← hindexes.faults]
    split
    · exact .ok hindexes.table
    · exact .error s.faults

end Indexed

end PacketGen.IdTable
