import Mathlib.Data.List.Nodup
import PacketGen.Proofs.Generated.IdentifierText

/-!
# The identifier block means the table

Nothing after the first line of the enumeration carries a value, and nothing in the lookup tables
does, so what a constant is worth rests on where its line stands. `Means` says what a reader of the
text may rely on; `identifiers_mean` that this holds of the text that is written for a table.

The text is read by `GoIdentifiers.read?`, and the argument is about what it finds
(`GoIdentifiers.ofTable`). The slots of a table are consecutive, so the lines of the enumeration
come to the values of the slots (`enumerated_ofTable`). Constants are told apart by their names,
which are distinct, so each has one value: the one declared (`constant?_ofTable`). The tables then
only have to name the right constants.
-/

namespace PacketGen.Generated

open IdTable (WellFormed Consecutive)

variable {table : IdTable} {t : IdType}

/-- What an identifier block says about a table, when the lines are evaluated. -/
structure Means (table : IdTable) (t : IdType) (g : GoIdentifiers) : Prop where
  /-- The first line of the enumeration has an expression in `iota`, which all others repeat. -/
  opening : ∃ first rest offset, g.enumeration = first :: rest ∧
    first.expression = some (.iota offset) ∧ ∀ line ∈ rest, line.expression = none
  /-- Every canonical entry has one line of the enumeration, which comes to its value. -/
  canonical : ∀ c ∈ table.canonical, ∃ line,
    g.enumerated.filter (·.name = t.constant c.name) = [line] ∧ line.value = some c.value
  /-- Every line of the enumeration comes to what its comment says. -/
  comments : ∀ line ∈ g.enumerated, ∃ v : Int,
    line.value = some v ∧ line.comment = some (" " ++ toString v)
  /-- A line that is not of a canonical entry declares nothing, and comes to a value that no name
  is declared with. -/
  placeholders : ∀ line ∈ g.enumerated, (∃ c ∈ table.canonical, line.name = t.constant c.name) ∨
    (line.name = "_" ∧ ∀ name, table.value? name ≠ line.value)
  /-- Every alias has one line among the aliases, which comes to the value declared for it. -/
  aliases : ∀ a ∈ table.aliases, ∃ line v,
    g.aliased.filter (·.name = t.constant a.name) = [line] ∧ line.value = some v ∧
      table.value? a.name = some v
  /-- The table of values has every declared name for a key, and none twice. -/
  keys : g.values.map (·.1) = declaredNames table ∧ (declaredNames table).Nodup
  values : ∀ entry ∈ g.values, ∃ v,
    g.constant? entry.2 = some v ∧ table.value? entry.1 = some v
  /-- The table of names has one entry for every canonical value, under that value. -/
  names : g.names.map (fun entry => (g.constant? entry.1, entry.2)) =
      table.canonical.map (fun c => (some c.value, c.name)) ∧
    (table.canonical.map (·.value)).Nodup
  /-- Through both tables a declared name leads to the canonical name of its value. -/
  lookup : ∀ name ∈ declaredNames table, ∃ v owner,
    table.value? name = some v ∧ g.lookup? name = some v ∧
      table.canonicalName? v = some owner ∧ g.lookupName? v = some owner

/-! ## The enumeration -/

def slotName (t : IdType) : Slot → String
  | .named e => t.constant e.name
  | .placeholder _ => "_"

/-- A slot as a line with its value. -/
def slotValue (t : IdType) (s : Slot) : GoConstantValue :=
  ⟨slotName t s, some (" " ++ toString s.value), some s.value⟩

theorem ofEnumLine_ofSlot (t : IdType) (s : Slot) :
    GoConstant.ofEnumLine (EnumLine.ofSlot t s) =
      ⟨slotName t s, none, some (" " ++ toString s.value)⟩ := by
  cases s with
  | named e => rfl
  | placeholder v => rfl

/-- Lines that repeat the expression of a line before come to the values of consecutive slots. -/
theorem evaluate_slots {scope : String → Option Int} {base : Int} {line : Nat} {slots : List Slot}
    (h : Consecutive (base + line) slots) :
    GoConstant.evaluate scope (some (.iota base)) line
        ((slots.map (EnumLine.ofSlot t)).map GoConstant.ofEnumLine) =
      slots.map (slotValue t) := by
  -- The line index and the value move on together, so their difference stays `base`.
  induction slots generalizing line with
  | nil => rfl
  | cons s slots ih =>
    obtain ⟨hvalue, hrest⟩ := h
    have hnext : base + (line : Int) + 1 = base + ((line + 1 : Nat) : Int) := by omega
    have hline : (line : Int) + base = s.value := by omega
    rw [hnext] at hrest
    rw [List.map_cons, List.map_cons, List.map_cons, ofEnumLine_ofSlot, GoConstant.evaluate,
      slotValue, ← hline]
    exact congrArg _ (ih hrest)

/-- The lines of the enumeration come to the values of the slots. -/
theorem enumerated_ofTable (h : WellFormed table) :
    (GoIdentifiers.ofTable table t).enumerated = table.slots.map (slotValue t) := by
  obtain ⟨e, slots, hslots, hconsecutive⟩ := IdTable.exists_slots h.nonempty h.distinct_values
  rw [hslots] at hconsecutive
  have hrest : Consecutive (e.value + (1 : Nat)) slots := hconsecutive.2
  have hfirst : (0 : Nat) + e.value = e.value := by omega
  unfold GoIdentifiers.enumerated GoIdentifiers.ofTable
  rw [hslots, EnumLine.ofSlots, List.map_cons, GoConstant.evaluate, List.map_cons, slotValue]
  change GoConstantValue.mk _ _ (some ((0 : Nat) + e.value)) ::
    GoConstant.evaluate _ (some (.iota e.value)) 1 _ = _
  rw [hfirst, evaluate_slots hrest]
  rfl

theorem slotName_eq_iff (hspell : Spellable table t) (h : WellFormed table) {c : Constant}
    (hc : c ∈ table.canonical) {s : Slot} (hs : s ∈ table.slots) :
    slotName t s = t.constant c.name ↔ s = .named c := by
  constructor
  · intro hname
    cases s with
    | named e =>
      have he := IdTable.named_mem_slots_iff.mp hs
      have hdistinct := (List.nodup_append.mp h.distinct_names).1
      rw [List.inj_on_of_nodup_map hdistinct he hc (constant_inj.mp hname)]
    | placeholder v => exact absurd hname.symm (constant_ne_blank (hspell.stem_canonical hc))
  · rintro rfl
    rfl

theorem filter_slots (hspell : Spellable table t) (h : WellFormed table) {c : Constant}
    (hc : c ∈ table.canonical) :
    table.slots.filter (fun s => slotName t s = t.constant c.name) = [.named c] := by
  obtain ⟨e, slots, -, hconsecutive⟩ := IdTable.exists_slots h.nonempty h.distinct_values
  have hmem : .named c ∈ table.slots := IdTable.named_mem_slots_iff.mpr hc
  -- All placeholders have one name, so it is by their values that slots are told apart.
  have hsingle := IdTable.filter_eq_singleton hconsecutive.nodup hmem
  rw [← hsingle]
  refine List.filter_congr ?_
  intro s hs
  rw [decide_eq_decide, slotName_eq_iff hspell h hc hs]
  constructor
  · rintro rfl
    rfl
  · intro hvalue
    exact List.inj_on_of_nodup_map hconsecutive.nodup hs hmem hvalue

theorem filter_enumerated (hspell : Spellable table t) (h : WellFormed table) {c : Constant}
    (hc : c ∈ table.canonical) :
    (GoIdentifiers.ofTable table t).enumerated.filter (·.name = t.constant c.name) =
      [slotValue t (.named c)] := by
  rw [enumerated_ofTable h, List.filter_map]
  change (table.slots.filter fun s => slotName t s = t.constant c.name).map _ = _
  rw [filter_slots hspell h hc]
  rfl

/-- No other slot has the value of a placeholder, so no name is declared with it. -/
theorem value?_ne_placeholder (h : WellFormed table) {v : Int}
    (hv : .placeholder v ∈ table.slots) (name : String) : table.value? name ≠ some v := by
  intro hvalue
  obtain ⟨c, hc, hcv⟩ := h.owned name v hvalue
  obtain ⟨e, slots, -, hconsecutive⟩ := IdTable.exists_slots h.nonempty h.distinct_values
  have hmem : .named c ∈ table.slots := IdTable.named_mem_slots_iff.mpr hc
  have heq : Slot.named c = .placeholder v :=
    List.inj_on_of_nodup_map hconsecutive.nodup hmem hv hcv
  cases heq

/-! ## Constants -/

theorem valueIn_eq {lines : List GoConstantValue} {name : String} (hname : name ≠ "_") :
    valueIn lines name = ((lines.filter (·.name = name)).head?).bind (·.value) := by
  rw [valueIn, if_neg hname, List.head?_filter]

theorem valueIn_enumerated (hspell : Spellable table t) (h : WellFormed table) {c : Constant}
    (hc : c ∈ table.canonical) :
    valueIn (GoIdentifiers.ofTable table t).enumerated (t.constant c.name) = some c.value := by
  rw [valueIn_eq (constant_ne_blank (hspell.stem_canonical hc)), filter_enumerated hspell h hc]
  rfl

theorem valueIn_enumerated_alias (hspell : Spellable table t) (h : WellFormed table) {a : Alias}
    (ha : a ∈ table.aliases) :
    valueIn (GoIdentifiers.ofTable table t).enumerated (t.constant a.name) = none := by
  have hne := constant_ne_blank (t := t) (hspell.stem_alias ha)
  have hnone : (table.slots.map (slotValue t)).filter (·.name = t.constant a.name) = [] := by
    refine List.filter_eq_nil_iff.mpr ?_
    intro line hline hname
    obtain ⟨s, hs, rfl⟩ := List.mem_map.mp hline
    have hname := of_decide_eq_true hname
    cases s with
    | named e =>
      have he := IdTable.named_mem_slots_iff.mp hs
      have hsame : e.name = a.name := constant_inj.mp hname
      exact (List.nodup_append.mp h.distinct_names).2.2 e.name (List.mem_map_of_mem he) a.name
        (List.mem_map_of_mem ha) hsame
    | placeholder v => exact hne hname.symm
  rw [valueIn_eq hne, enumerated_ofTable h, hnone]
  rfl

/-- Every alias line has an expression of its own, so the last one does not matter. -/
theorem evaluate_aliases (scope : String → Option Int) (last : Option GoExpression) (line : Nat)
    (aliases : List Alias) :
    GoConstant.evaluate scope last line (aliases.map (aliasConstant t)) =
      aliases.map fun a => ⟨t.constant a.name, none, scope (t.constant a.canonical)⟩ := by
  induction aliases generalizing last line with
  | nil => rfl
  | cons a aliases ih =>
    rw [List.map_cons, List.map_cons, GoConstant.evaluate]
    exact congrArg _ (ih _ _)

theorem aliased_ofTable (hspell : Spellable table t) (h : WellFormed table) :
    (GoIdentifiers.ofTable table t).aliased =
      table.aliases.map fun a => ⟨t.constant a.name, none, table.value? a.name⟩ := by
  unfold GoIdentifiers.aliased
  change GoConstant.evaluate _ _ _ (table.aliases.map (aliasConstant t)) = _
  rw [evaluate_aliases]
  refine List.map_congr_left ?_
  intro a ha
  obtain ⟨c, hc, hname, hvalue⟩ := h.aliases a ha
  rw [← hname, valueIn_enumerated hspell h hc, hvalue]

theorem filter_aliased (hspell : Spellable table t) (h : WellFormed table) {a : Alias}
    (ha : a ∈ table.aliases) :
    (GoIdentifiers.ofTable table t).aliased.filter (·.name = t.constant a.name) =
      [⟨t.constant a.name, none, table.value? a.name⟩] := by
  have hdistinct := (List.nodup_append.mp h.distinct_names).2.1
  have hsingle := IdTable.filter_eq_singleton hdistinct ha
  rw [aliased_ofTable hspell h, List.filter_map]
  have hfilter : table.aliases.filter (fun b => t.constant b.name = t.constant a.name) = [a] := by
    rw [← hsingle]
    refine List.filter_congr ?_
    intro b _
    rw [decide_eq_decide, constant_inj]
  change (table.aliases.filter fun b => t.constant b.name = t.constant a.name).map _ = _
  rw [hfilter]
  rfl

/-- **A constant has the value declared for its name**, canonical or not. -/
theorem constant?_ofTable (hspell : Spellable table t) (h : WellFormed table) {name : String}
    (hname : name ∈ declaredNames table) :
    (GoIdentifiers.ofTable table t).constant? (t.constant name) = table.value? name := by
  unfold GoIdentifiers.constant?
  rcases List.mem_append.mp hname with hname | hname
  · obtain ⟨c, hc, rfl⟩ := List.mem_map.mp hname
    rw [valueIn_enumerated hspell h hc, h.canonical c hc]
    rfl
  · obtain ⟨a, ha, rfl⟩ := List.mem_map.mp hname
    rw [valueIn_enumerated_alias hspell h ha,
      valueIn_eq (constant_ne_blank (hspell.stem_alias ha)), filter_aliased hspell h ha]
    rfl

theorem exists_value? (h : WellFormed table) {name : String} (hname : name ∈ declaredNames table) :
    ∃ v, table.value? name = some v := by
  rcases List.mem_append.mp hname with hname | hname
  · obtain ⟨c, hc, rfl⟩ := List.mem_map.mp hname
    exact ⟨c.value, h.canonical c hc⟩
  · obtain ⟨a, ha, rfl⟩ := List.mem_map.mp hname
    obtain ⟨c, -, -, hvalue⟩ := h.aliases a ha
    exact ⟨c.value, hvalue⟩

/-! ## The lookup tables -/

theorem keys_ofTable (table : IdTable) (t : IdType) :
    (GoIdentifiers.ofTable table t).values.map (·.1) = declaredNames table := by
  change ((declaredNames table).map fun name => (name, t.constant name)).map (·.1) = _
  rw [List.map_map]
  exact List.map_id'' (fun _ => rfl) _

theorem lookup?_ofTable (hspell : Spellable table t) (h : WellFormed table) {name : String}
    (hname : name ∈ declaredNames table) :
    (GoIdentifiers.ofTable table t).lookup? name = table.value? name := by
  have hmem : (name, t.constant name) ∈ (GoIdentifiers.ofTable table t).values :=
    List.mem_map_of_mem hname
  have hkeys : ((GoIdentifiers.ofTable table t).values.map (·.1)).Nodup := by
    rw [keys_ofTable]
    exact h.distinct_names
  have hfind := IdTable.find?_eq_some_of_nodup hkeys hmem
  unfold GoIdentifiers.lookup?
  rw [hfind]
  exact constant?_ofTable hspell h hname

theorem constant?_canonical (hspell : Spellable table t) (h : WellFormed table) {c : Constant}
    (hc : c ∈ table.canonical) :
    (GoIdentifiers.ofTable table t).constant? (t.constant c.name) = some c.value := by
  rw [constant?_ofTable hspell h (List.mem_append_left _ (List.mem_map_of_mem hc)),
    h.canonical c hc]

theorem names_ofTable (hspell : Spellable table t) (h : WellFormed table) :
    (GoIdentifiers.ofTable table t).names.map
        (fun entry => ((GoIdentifiers.ofTable table t).constant? entry.1, entry.2)) =
      table.canonical.map fun c => (some c.value, c.name) := by
  change (table.canonical.map fun c => (t.constant c.name, c.name)).map _ = _
  rw [List.map_map]
  refine List.map_congr_left ?_
  intro c hc
  exact congrArg (·, c.name) (constant?_canonical hspell h hc)

theorem lookupName?_ofTable (hspell : Spellable table t) (h : WellFormed table) {c : Constant}
    (hc : c ∈ table.canonical) :
    (GoIdentifiers.ofTable table t).lookupName? c.value = some c.name := by
  have hmem : (t.constant c.name, c.name) ∈ (GoIdentifiers.ofTable table t).names :=
    List.mem_map_of_mem hc
  have hkeys : ((GoIdentifiers.ofTable table t).names.map fun entry =>
      (GoIdentifiers.ofTable table t).constant? entry.1).Nodup := by
    have hfirst := congrArg (List.map Prod.fst) (names_ofTable hspell h)
    rw [List.map_map, List.map_map] at hfirst
    change (GoIdentifiers.ofTable table t).names.map _ = table.canonical.map _ at hfirst
    have hvalues := h.distinct_values.map fun _ _ => Option.some.inj
    rw [List.map_map] at hvalues
    exact hfirst ▸ hvalues
  have hfind := IdTable.find?_eq_some_of_nodup hkeys hmem
  rw [constant?_canonical hspell h hc] at hfind
  unfold GoIdentifiers.lookupName?
  rw [hfind]
  rfl

/-! ## The block -/

theorem means_ofTable (hspell : Spellable table t) (h : WellFormed table) :
    Means table t (.ofTable table t) := by
  refine
    { opening := ?_, canonical := ?_, comments := ?_, placeholders := ?_, aliases := ?_
      keys := ⟨keys_ofTable table t, h.distinct_names⟩
      values := ?_
      names := ⟨names_ofTable hspell h, h.distinct_values⟩
      lookup := ?_ }
  · obtain ⟨e, slots, hslots, -⟩ := IdTable.exists_slots h.nonempty h.distinct_values
    refine ⟨_, (slots.map (EnumLine.ofSlot t)).map GoConstant.ofEnumLine, e.value,
      congrArg (fun slots => (EnumLine.ofSlots t slots).map GoConstant.ofEnumLine) hslots, rfl, ?_⟩
    intro line hline
    obtain ⟨l, hl, rfl⟩ := List.mem_map.mp hline
    obtain ⟨s, -, rfl⟩ := List.mem_map.mp hl
    rw [ofEnumLine_ofSlot]
  · intro c hc
    exact ⟨_, filter_enumerated hspell h hc, rfl⟩
  · intro line hline
    rw [enumerated_ofTable h] at hline
    obtain ⟨s, -, rfl⟩ := List.mem_map.mp hline
    exact ⟨s.value, rfl, rfl⟩
  · intro line hline
    rw [enumerated_ofTable h] at hline
    obtain ⟨s, hs, rfl⟩ := List.mem_map.mp hline
    cases s with
    | named c => exact Or.inl ⟨c, IdTable.named_mem_slots_iff.mp hs, rfl⟩
    | placeholder v => exact Or.inr ⟨rfl, value?_ne_placeholder h hs⟩
  · intro a ha
    obtain ⟨c, -, -, hvalue⟩ := h.aliases a ha
    exact ⟨_, c.value, filter_aliased hspell h ha, hvalue, hvalue⟩
  · intro entry hentry
    obtain ⟨name, hname, rfl⟩ := List.mem_map.mp hentry
    obtain ⟨v, hv⟩ := exists_value? h hname
    exact ⟨v, (constant?_ofTable hspell h hname).trans hv, hv⟩
  · intro name hname
    obtain ⟨v, hv⟩ := exists_value? h hname
    obtain ⟨c, hc, rfl⟩ := h.owned name v hv
    refine ⟨c.value, c.name, hv, (lookup?_ofTable hspell h hname).trans hv, ?_,
      lookupName?_ofTable hspell h hc⟩
    rw [IdTable.canonicalName?, h.owner? hc]
    rfl

/-- **The identifier block means the table it was generated from.** It is written exactly when the
slots of the table can be collected, which they can if no two values are too far apart. The text is
the type section and a rest, which is read as a block that says what the table does. With the
underlying type on one line, the whole text is read as that block. -/
theorem identifiers_mean {suffix : String} {lines : List SourceLine}
    (htable : IdTable.build suffix lines = .ok table)
    (hnames : ∀ name ∈ declaredNames table, name ≠ "") (htype : IsGoWord t.name)
    (hsuffix : ∀ c ∈ t.suffix.toList, isGoWordChar c = true) :
    ((∃ text, writeIdentifiers table t = .ok text) ↔ ∃ slots, table.collectSlots = .ok slots) ∧
    (table.Narrow → ∃ text, writeIdentifiers table t = .ok text) ∧
    ∀ text, writeIdentifiers table t = .ok text →
      ∃ rest g, text.toList = (identifierType t (Text.lowerCamel t.name)).toList ++ rest ∧
        GoIdentifiers.read? t rest = some g ∧
        ('\n' ∉ t.repr.toList → GoIdentifiers.read? t text.toList = some g) ∧
        Means table t g := by
  have h := IdTable.wellFormed_of_build htable
  have hspell : Spellable table t :=
    { type := htype
      suffix := hsuffix
      names := fun name hname => ⟨hnames name hname, IdTable.isPascal_of_build htable hname⟩
      aliases := fun a ha => by
        obtain ⟨c, hc, hname, -⟩ := h.aliases a ha
        exact ⟨c, hc, hname⟩ }
  have hwritten : ∀ text, writeIdentifiers table t = .ok text ↔
      (∃ slots, table.collectSlots = .ok slots) ∧ text = identifiers table t :=
    fun _ => writeIdentifiers_eq_ok_iff htable
  have hgives : (∃ text, writeIdentifiers table t = .ok text) ↔
      ∃ slots, table.collectSlots = .ok slots := by
    simp only [hwritten, exists_and_left, exists_eq, and_true]
  refine ⟨hgives, fun hnarrow => ?_, fun text htext => ?_⟩
  · exact hgives.mpr ⟨_, IdTable.collectSlots_of_narrow htable hnarrow⟩
  · obtain ⟨-, rfl⟩ := (hwritten text).mp htext
    obtain ⟨rest, hsplit, hread, hwhole⟩ := read?_identifiers hspell h.nonempty
    exact ⟨rest, _, hsplit, hread, hwhole, means_ofTable hspell h⟩

/-- The lowest value of 64 bits with a gap above it, and an alias. -/
theorem identifiers_mean_lowest :
    let lines : List SourceLine :=
      [⟨0, "const AIR = -9223372036854775806".toList⟩,
        ⟨40, "const VOID = -9223372036854775808".toList⟩,
        ⟨80, "const CAVE_AIR = -9223372036854775806".toList⟩]
    let table : IdTable :=
      ⟨[⟨"Air", -9223372036854775806⟩, ⟨"Void", -9223372036854775808⟩],
        [⟨"CaveAir", "Air", ⟨80, 117⟩⟩],
        [⟨"Air", -9223372036854775806, ⟨0, 32⟩⟩, ⟨"Void", -9223372036854775808, ⟨40, 73⟩⟩,
          ⟨"CaveAir", -9223372036854775806, ⟨80, 117⟩⟩]⟩
    let t : IdType := ⟨"BlockID", "int64", "_1"⟩
    IdTable.build "" lines = .ok table ∧
      (∀ name ∈ declaredNames table, name ≠ "") ∧ IsGoWord t.name ∧
      (∀ c ∈ t.suffix.toList, isGoWordChar c = true) ∧ '\n' ∉ t.repr.toList ∧
      ∃ text g, writeIdentifiers table t = .ok text ∧
        GoIdentifiers.read? t text.toList = some g ∧ Means table t g := by
  intro lines table t
  have htable : IdTable.build "" lines = .ok table := by decide +kernel
  have hnames : ∀ name ∈ declaredNames table, name ≠ "" := by decide
  have htype : IsGoWord "BlockID" := isGoWord_of_all (by decide) rfl
  have hsuffix : ∀ c ∈ "_1".toList, isGoWordChar c = true := List.all_eq_true.mp rfl
  have hrepr : '\n' ∉ t.repr.toList := by decide
  have hnarrow : table.Narrow := by decide
  obtain ⟨-, hgives, hmeans⟩ := identifiers_mean (t := t) htable hnames htype hsuffix
  obtain ⟨text, htext⟩ := hgives hnarrow
  obtain ⟨rest, g, -, -, hwhole, hg⟩ := hmeans text htext
  exact ⟨htable, hnames, htype, hsuffix, hrepr, text, g, htext, hwhole hrepr, hg⟩

end PacketGen.Generated
