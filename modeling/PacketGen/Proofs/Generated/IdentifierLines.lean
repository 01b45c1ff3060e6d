import PacketGen.Generated.File
import PacketGen.Proofs.Generated.IdentifierEntries
import PacketGen.Proofs.IdTable.SlotRoom

/-!
# The lines of the identifier block

The identifier block is a type section, two blocks of constants, two lookup tables and a function,
all of them written line by line. Here the text is put down as its lines (`toList_identifiers`), and
each of them is shown to be one: names, constants and numbers hold no line feed. The type section
is the exception, which holds the underlying type as it was given.

That text is written whenever the slots of the table can be collected, and no other text ever is
(`writeIdentifiers_eq_ok_iff`); and the same goes for the files that the block stands in.
-/

namespace PacketGen.Generated

variable {t : IdType} {table : IdTable} {ss : List String}

/-! ## What is written -/

theorem writeIdentifiers_eq_ok_iff {suffix : String} {lines : List SourceLine}
    (h : IdTable.build suffix lines = .ok table) {text : String} :
    writeIdentifiers table t = .ok text ↔
      (∃ slots, table.collectSlots = .ok slots) ∧ text = identifiers table t := by
  rw [writeIdentifiers, identifiers]
  cases hcollect : table.collectSlots with
  | error p => exact iff_of_false nofun fun hwritten => nomatch hwritten.1
  | ok slots =>
    rw [← IdTable.eq_slots_of_collect h hcollect]
    constructor
    · intro hwritten
      exact ⟨⟨slots, rfl⟩, (Except.ok.inj hwritten).symm⟩
    · rintro ⟨-, rfl⟩
      rfl

/-- A text around the block is written whenever the block is. -/
theorem around_writeIdentifiers_eq_ok_iff (around : String → String) {suffix : String}
    {lines : List SourceLine} (h : IdTable.build suffix lines = .ok table) {text : String} :
    (around <$> writeIdentifiers table t) = .ok text ↔
      (∃ slots, table.collectSlots = .ok slots) ∧ text = around (identifiers table t) := by
  cases hwritten : writeIdentifiers table t with
  | error p =>
    refine iff_of_false nofun ?_
    rintro ⟨hslots, -⟩
    cases hwritten.symm.trans ((writeIdentifiers_eq_ok_iff h).mpr ⟨hslots, rfl⟩)
  | ok block =>
    obtain ⟨hslots, rfl⟩ := (writeIdentifiers_eq_ok_iff h).mp hwritten
    constructor
    · intro hok
      exact ⟨hslots, (Except.ok.inj hok).symm⟩
    · rintro ⟨-, rfl⟩
      rfl

theorem writeIdentifiersFile_eq_ok_iff (origin package : String) {suffix : String}
    {lines : List SourceLine} (h : IdTable.build suffix lines = .ok table) {text : String} :
    writeIdentifiersFile origin package table t = .ok text ↔
      (∃ slots, table.collectSlots = .ok slots) ∧
        text = identifiersFile origin package table t :=
  around_writeIdentifiers_eq_ok_iff (preamble origin package [] ++ ·) h

/-! ## Blocks -/

/-- A text that is one indented line. -/
def IsEntry (s : String) : Prop := ∃ l, s.toList = '\t' :: (l ++ ['\n']) ∧ '\n' ∉ l

theorem IsEntry.oneLine {s : String} (h : IsEntry s) : OneLine s := by
  obtain ⟨l, hl, hfeed⟩ := h
  exact ⟨'\t' :: l, hl, by simpa using hfeed⟩

theorem IsEntry.head? {s : String} (h : IsEntry s) : (lineOf s).head? = some '\t' := by
  obtain ⟨l, hl, -⟩ := h
  rw [lineOf, hl, ← List.cons_append, List.dropLast_concat]
  rfl

/-- A block with its heading, its closing line and an empty line behind it. -/
def blockLines (heading closing : List Char) (ss : List String) : List (List Char) :=
  heading :: (ss.map lineOf ++ [closing, []])

theorem toList_block (heading : String) (closing : Char) (hss : ∀ s ∈ ss, IsEntry s) :
    heading.toList ++ '\n' :: ((String.join ss).toList ++ [closing, '\n', '\n']) =
      Text.joinLines (blockLines heading.toList [closing] ss) := by
  rw [toList_join_of_oneLine fun s hs => (hss s hs).oneLine, blockLines, Text.joinLines_cons,
    Text.joinLines_append]
  rfl

def constantLines (ss : List String) : List (List Char) :=
  if ss = [] then [] else blockLines GoIdentifiers.constantsHeading [')'] ss

theorem toList_constantBlock (hss : ∀ s ∈ ss, IsEntry s) :
    (constantBlock ss).toList = Text.joinLines (constantLines ss) := by
  unfold constantBlock constantLines
  by_cases hne : ss = []
  · rw [if_pos hne, if_pos hne]
    rfl
  · have hopen : "const (\n".toList = "const (".toList ++ ['\n'] := by decide
    have hclose : ")\n\n".toList = [')', '\n', '\n'] := by decide
    have hblock := toList_block "const (" ')' hss
    rw [if_neg hne, if_neg hne]
    simp only [String.toList_append, hopen, hclose, List.append_assoc]
    exact hblock

/-! ## The lines of the text -/

def aliasLine (t : IdType) (a : Alias) : String :=
  "\t" ++ t.constant a.name ++ " = " ++ t.constant a.canonical ++ "\n"

def valueLine (t : IdType) (name : String) : String :=
  "\t\"" ++ name ++ "\": " ++ t.constant name ++ ",\n"

def nameLine (t : IdType) (c : Constant) : String :=
  "\t" ++ t.constant c.name ++ ": \"" ++ c.name ++ "\",\n"

def enumerationLines (table : IdTable) (t : IdType) : List String :=
  (EnumLine.ofSlots t table.slots).map EnumLine.render

/-- The lines of the function behind the lookup tables. -/
def functionLines (t : IdType) : List (List Char) :=
  [("// " ++ t.name ++ "FromString returns the identifier declared as name.").toList,
    ("func " ++ t.name ++ "FromString(name string) (" ++ t.name ++ ", bool) \x7b").toList,
    ("\tid, ok := " ++ Text.lowerCamel t.name ++ "Values[name]").toList,
    "\treturn id, ok".toList, ['\x7d'], []]

/-- The lines behind the type section. -/
def declarationLines (table : IdTable) (t : IdType) : List (List Char) :=
  constantLines (enumerationLines table t) ++
    (constantLines (table.aliases.map (aliasLine t)) ++
      (blockLines (GoIdentifiers.valuesHeading t) ['\x7d']
          ((declaredNames table).map (valueLine t)) ++
        (blockLines (GoIdentifiers.namesHeading t) ['\x7d'] (table.canonical.map (nameLine t)) ++
          functionLines t)))

/-- The lines of the type section, if the underlying type is on one line. -/
def typeLines (t : IdType) : List (List Char) :=
  [("// " ++ t.name ++ " is a declared numeric identifier.").toList,
    ("type " ++ t.name ++ " " ++ t.repr).toList, [],
    "// String returns the declared name of the identifier.".toList,
    ("func (id " ++ t.name ++ ") String() string \x7b").toList,
    ("\tif name, ok := " ++ Text.lowerCamel t.name ++ "Names[id]; ok \x7b").toList,
    "\t\treturn name".toList, "\t\x7d".toList, "\treturn \"Unknown\"".toList, ['\x7d'], []]

/-- A line of the enumeration opens it with a constant, or is that of a slot. -/
theorem mem_ofSlots {slots : List Slot} {l : EnumLine} (h : l ∈ EnumLine.ofSlots t slots) :
    (∃ e, .named e ∈ slots ∧ l = .opening (t.constant e.name) t.name ⟨e.value⟩ e.value) ∨
      (∃ e, .named e ∈ slots ∧ l = .named (t.constant e.name) e.value) ∨
      ∃ v, .placeholder v ∈ slots ∧ l = .blank v := by
  have hslot : ∀ ss : List Slot, (∀ s ∈ ss, s ∈ slots) → l ∈ ss.map (EnumLine.ofSlot t) →
      (∃ e, .named e ∈ slots ∧ l = .named (t.constant e.name) e.value) ∨
        ∃ v, .placeholder v ∈ slots ∧ l = .blank v := by
    intro ss hss hl
    obtain ⟨s, hs, rfl⟩ := List.mem_map.mp hl
    cases s with
    | named e => exact Or.inl ⟨e, hss _ hs, rfl⟩
    | placeholder v => exact Or.inr ⟨v, hss _ hs, rfl⟩
  unfold EnumLine.ofSlots at h
  split at h
  · next e ss =>
    rcases List.mem_cons.mp h with rfl | h
    · exact Or.inl ⟨e, List.mem_cons_self, rfl⟩
    · exact Or.inr (hslot ss (fun s hs => List.mem_cons_of_mem _ hs) h)
  · exact Or.inr (hslot slots (fun s hs => hs) h)

theorem toList_identifierType (t : IdType) :
    (identifierType t (Text.lowerCamel t.name)).toList = Text.joinLines (typeLines t) := by
  have hnote : " is a declared numeric identifier.\n".toList =
      " is a declared numeric identifier.".toList ++ ['\n'] := by decide
  have hempty : "\n\n".toList = ['\n', '\n'] := by decide
  have hmethod : "// String returns the declared name of the identifier.\n".toList =
      "// String returns the declared name of the identifier.".toList ++ ['\n'] := by decide
  have hopen : ") String() string \x7b\n".toList = ") String() string \x7b".toList ++ ['\n'] := by
    decide
  have hlookup : "Names[id]; ok \x7b\n".toList = "Names[id]; ok \x7b".toList ++ ['\n'] := by decide
  have hbody : "\t\treturn name\n\t\x7d\n\treturn \"Unknown\"\n\x7d\n\n".toList =
      "\t\treturn name".toList ++ '\n' :: ("\t\x7d".toList ++
        '\n' :: ("\treturn \"Unknown\"".toList ++ ['\n', '\x7d', '\n', '\n'])) := by decide
  unfold identifierType typeLines
  simp only [String.toList_append, hnote, hempty, hmethod, hopen, hlookup, hbody,
    List.append_assoc, List.cons_append, List.nil_append, Text.joinLines_cons, Text.joinLines_nil]

theorem toList_lookupFunction (t : IdType) :
    (lookupFunction t (Text.lowerCamel t.name)).toList = Text.joinLines (functionLines t) := by
  have hnote : "FromString returns the identifier declared as name.\n".toList =
      "FromString returns the identifier declared as name.".toList ++ ['\n'] := by decide
  have hopen : ", bool) \x7b\n".toList = ", bool) \x7b".toList ++ ['\n'] := by decide
  have hbody : "Values[name]\n\treturn id, ok\n\x7d\n\n".toList =
      "Values[name]".toList ++ '\n' :: ("\treturn id, ok".toList ++
        ['\n', '\x7d', '\n', '\n']) := by decide
  unfold lookupFunction functionLines
  simp only [String.toList_append, hnote, hopen, hbody, List.append_assoc, List.cons_append,
    List.nil_append, Text.joinLines_cons, Text.joinLines_nil]

/-! ## Every line is one line -/

theorem feed_not_mem_blockLines {heading closing : List Char} (hheading : '\n' ∉ heading)
    (hclosing : '\n' ∉ closing) (hss : ∀ s ∈ ss, IsEntry s) :
    ∀ l ∈ blockLines heading closing ss, '\n' ∉ l := by
  intro l hl
  rcases List.mem_cons.mp hl with rfl | hl
  · exact hheading
  · rcases List.mem_append.mp hl with hl | hl
    · obtain ⟨s, hs, rfl⟩ := List.mem_map.mp hl
      exact (hss s hs).oneLine.not_mem
    · rcases List.mem_cons.mp hl with rfl | hl
      · exact hclosing
      · rw [List.mem_singleton.mp hl]
        exact List.not_mem_nil

theorem feed_not_mem_constantLines (hss : ∀ s ∈ ss, IsEntry s) :
    ∀ l ∈ constantLines ss, '\n' ∉ l := by
  unfold constantLines
  split
  · simp
  · exact feed_not_mem_blockLines (by decide) (by decide) hss

theorem feed_not_mem_toString (v : Int) : '\n' ∉ (toString v).toList := by
  obtain ⟨ds, hds, -, htext, -⟩ := Constant.exists_digits v
  have hdigits : '\n' ∉ ds := fun h => absurd (hds _ h) (by decide)
  rcases htext with htext | htext
  · rw [htext]
    exact hdigits
  · rw [htext]
    exact fun h => (List.mem_cons.mp h).elim (by decide) hdigits

theorem feed_not_mem_render (e : LineIndex) : '\n' ∉ e.render.toList := by
  unfold LineIndex.render
  split
  · decide
  · split
    · exact not_mem_toList_append (by decide) (feed_not_mem_toString _)
    · exact not_mem_toList_append (by decide) (feed_not_mem_toString e.offset.natAbs)

theorem feed_not_mem_lowerCamel (name : String) : '\n' ∉ (Text.lowerCamel name).toList := fun h =>
  absurd (Text.isAlphanum_of_mem_lowerCamel h) (by decide)

theorem isEntry_bare {w : String} (hw : '\n' ∉ w.toList) (v : Int) :
    IsEntry ("\t" ++ w ++ " // " ++ toString v ++ "\n") := by
  refine ⟨(w ++ " // " ++ toString v).toList, ?_, ?_⟩
  · simp only [String.toList_append, List.append_assoc]
    rfl
  · exact not_mem_toList_append (not_mem_toList_append hw (by decide)) (feed_not_mem_toString v)

/-- What is asked of a table and of the type of its constants: every name is a word, and so is
every constant. -/
structure Spellable (table : IdTable) (t : IdType) : Prop where
  type : IsGoWord t.name
  suffix : ∀ c ∈ t.suffix.toList, isGoWordChar c = true
  names : ∀ name ∈ declaredNames table, IsStem name
  /-- An alias stands for a canonical name. -/
  aliases : ∀ a ∈ table.aliases, ∃ c ∈ table.canonical, c.name = a.canonical

namespace Spellable

variable {name : String} (h : Spellable table t)
include h

theorem stem_canonical {c : Constant} (hc : c ∈ table.canonical) : IsStem c.name :=
  h.names _ (List.mem_append_left _ (List.mem_map_of_mem hc))

theorem stem_alias {a : Alias} (ha : a ∈ table.aliases) : IsStem a.name :=
  h.names _ (List.mem_append_right _ (List.mem_map_of_mem ha))

theorem stem_aliased {a : Alias} (ha : a ∈ table.aliases) : IsStem a.canonical := by
  obtain ⟨c, hc, hname⟩ := h.aliases a ha
  exact hname ▸ h.stem_canonical hc

theorem feed_not_mem_constant (hname : IsStem name) : '\n' ∉ (t.constant name).toList :=
  (isGoWord_constant h.suffix hname).feed_not_mem

theorem isEntry_aliasLine {a : Alias} (ha : a ∈ table.aliases) : IsEntry (aliasLine t a) := by
  refine ⟨(t.constant a.name ++ " = " ++ t.constant a.canonical).toList, ?_, ?_⟩
  · simp only [aliasLine, String.toList_append, List.append_assoc]
    rfl
  · simp only [String.toList_append, List.mem_append, h.feed_not_mem_constant (h.stem_alias ha),
      h.feed_not_mem_constant (h.stem_aliased ha)]
    decide

theorem isEntry_valueLine (hname : name ∈ declaredNames table) : IsEntry (valueLine t name) := by
  have hstem := h.names name hname
  refine ⟨("\"" ++ name ++ "\": " ++ t.constant name ++ ",").toList, ?_, ?_⟩
  · simp only [valueLine, String.toList_append, List.append_assoc]
    rfl
  · simp only [String.toList_append, List.mem_append, hstem.isGoWord.feed_not_mem,
      h.feed_not_mem_constant hstem]
    decide

theorem isEntry_nameLine {c : Constant} (hc : c ∈ table.canonical) : IsEntry (nameLine t c) := by
  have hstem := h.stem_canonical hc
  refine ⟨(t.constant c.name ++ ": \"" ++ c.name ++ "\",").toList, ?_, ?_⟩
  · simp only [nameLine, String.toList_append, List.append_assoc]
    rfl
  · simp only [String.toList_append, List.mem_append, hstem.isGoWord.feed_not_mem,
      h.feed_not_mem_constant hstem]
    decide

theorem isEntry_opening {e : Constant} (he : e ∈ table.canonical) :
    IsEntry (EnumLine.opening (t.constant e.name) t.name ⟨e.value⟩ e.value).render := by
  refine ⟨(t.constant e.name ++ " " ++ t.name ++ " = " ++ LineIndex.render ⟨e.value⟩ ++ " // " ++
    toString e.value).toList, ?_, ?_⟩
  · simp only [EnumLine.render, String.toList_append, List.append_assoc]
    rfl
  · simp only [String.toList_append, List.mem_append, h.feed_not_mem_constant (h.stem_canonical he),
      h.type.feed_not_mem, feed_not_mem_render, feed_not_mem_toString]
    decide

theorem isEntry_enumerationLines : ∀ s ∈ enumerationLines table t, IsEntry s := by
  intro s hs
  obtain ⟨l, hl, rfl⟩ := List.mem_map.mp hs
  rcases mem_ofSlots hl with ⟨e, he, rfl⟩ | ⟨e, he, rfl⟩ | ⟨v, -, rfl⟩
  · exact h.isEntry_opening (IdTable.named_mem_slots_iff.mp he)
  · have hstem := h.stem_canonical (IdTable.named_mem_slots_iff.mp he)
    exact isEntry_bare (h.feed_not_mem_constant hstem) e.value
  · exact isEntry_bare (w := "_") (by decide) v

theorem isEntry_aliasLines : ∀ s ∈ table.aliases.map (aliasLine t), IsEntry s := by
  intro s hs
  obtain ⟨a, ha, rfl⟩ := List.mem_map.mp hs
  exact h.isEntry_aliasLine ha

theorem isEntry_valueLines : ∀ s ∈ (declaredNames table).map (valueLine t), IsEntry s := by
  intro s hs
  obtain ⟨name, hname, rfl⟩ := List.mem_map.mp hs
  exact h.isEntry_valueLine hname

theorem isEntry_nameLines : ∀ s ∈ table.canonical.map (nameLine t), IsEntry s := by
  intro s hs
  obtain ⟨c, hc, rfl⟩ := List.mem_map.mp hs
  exact h.isEntry_nameLine hc

/-! ## The text as lines -/

theorem toList_valuesTable : (valuesTable table t (Text.lowerCamel t.name)).toList =
    Text.joinLines (blockLines (GoIdentifiers.valuesHeading t) ['\x7d']
      ((declaredNames table).map (valueLine t))) := by
  have hopen : "\x7b\n".toList = "\x7b".toList ++ ['\n'] := by decide
  have hclose : "\x7d\n\n".toList = ['\x7d', '\n', '\n'] := by decide
  rw [GoIdentifiers.valuesHeading, ← toList_block _ _ h.isEntry_valueLines, valuesTable]
  simp only [String.toList_append, hopen, hclose, List.append_assoc]
  rfl

theorem toList_namesTable : (namesTable table t (Text.lowerCamel t.name)).toList =
    Text.joinLines (blockLines (GoIdentifiers.namesHeading t) ['\x7d']
      (table.canonical.map (nameLine t))) := by
  have hopen : "]string\x7b\n".toList = "]string\x7b".toList ++ ['\n'] := by decide
  have hclose : "\x7d\n\n".toList = ['\x7d', '\n', '\n'] := by decide
  rw [GoIdentifiers.namesHeading, ← toList_block _ _ h.isEntry_nameLines, namesTable]
  simp only [String.toList_append, hopen, hclose, List.append_assoc]
  rfl

theorem toList_identifiers : (identifiers table t).toList =
    (identifierType t (Text.lowerCamel t.name)).toList ++
      Text.joinLines (declarationLines table t) := by
  have henumeration := toList_constantBlock h.isEntry_enumerationLines
  have haliases := toList_constantBlock h.isEntry_aliasLines
  unfold identifiers identifierBlock
  dsimp only
  simp only [String.toList_append, h.toList_valuesTable, h.toList_namesTable, toList_lookupFunction,
    declarationLines, Text.joinLines_append, List.append_assoc]
  rw [← henumeration, ← haliases]
  rfl

theorem feed_not_mem_declarationLines : ∀ l ∈ declarationLines table t, '\n' ∉ l := by
  have hname := h.type.feed_not_mem
  have hstem := feed_not_mem_lowerCamel t.name
  have hvalues : '\n' ∉ GoIdentifiers.valuesHeading t := by
    simp only [GoIdentifiers.valuesHeading, String.toList_append, List.mem_append, hname, hstem]
    decide
  have hnames : '\n' ∉ GoIdentifiers.namesHeading t := by
    simp only [GoIdentifiers.namesHeading, String.toList_append, List.mem_append, hname, hstem]
    decide
  have hfunction : ∀ l ∈ functionLines t, '\n' ∉ l := by
    simp only [functionLines, List.forall_mem_cons, String.toList_append, List.mem_append, hname,
      hstem]
    decide
  exact List.forall_mem_append.mpr ⟨feed_not_mem_constantLines h.isEntry_enumerationLines,
    List.forall_mem_append.mpr ⟨feed_not_mem_constantLines h.isEntry_aliasLines,
      List.forall_mem_append.mpr
        ⟨feed_not_mem_blockLines hvalues (by decide) h.isEntry_valueLines,
          List.forall_mem_append.mpr
            ⟨feed_not_mem_blockLines hnames (by decide) h.isEntry_nameLines, hfunction⟩⟩⟩⟩

end Spellable

theorem feed_not_mem_typeLines (htype : IsGoWord t.name) (hrepr : '\n' ∉ t.repr.toList) :
    ∀ l ∈ typeLines t, '\n' ∉ l := by
  simp only [typeLines, List.forall_mem_cons, String.toList_append, List.mem_append,
    htype.feed_not_mem, feed_not_mem_lowerCamel, hrepr]
  decide

end PacketGen.Generated
