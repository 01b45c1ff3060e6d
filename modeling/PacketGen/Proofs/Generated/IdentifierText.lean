import PacketGen.Proofs.Generated.IdentifierLines

/-!
# The identifier block is read back

What is written line by line is read line by line. `GoIdentifiers.ofTable` is what a reader of the
text finds in it, written down from the table: that `GoIdentifiers.read?` finds it is the whole of
this module (`read?_identifiers`), and nothing here says what it means.

A block is found under its heading because no other line is one. The lines in blocks are indented,
and the others start in other ways (`NoHeading`). Unless the underlying type has a line feed, this
holds of the type section too, so that it may be read along with the rest or not.
-/

namespace PacketGen.Generated

variable {t : IdType} {table : IdTable}

/-! ## Headings -/

/-- A line that is no heading, told by how it starts. -/
def NoHeading (l : List Char) : Prop := l.head? ≠ some 'c' ∧ l.head? ≠ some 'v'

instance (l : List Char) : Decidable (NoHeading l) := inferInstanceAs (Decidable (_ ∧ _))

/-- A heading, told by how it starts. -/
def IsHeading (l : List Char) : Prop := l.head? = some 'c' ∨ l.head? = some 'v'

theorem ne_of_isHeading {heading l : List Char} (h : IsHeading heading) (hl : NoHeading l) :
    heading ≠ l := by
  rintro rfl
  exact h.elim hl.1 hl.2

theorem not_mem_of_isHeading {heading : List Char} {ls : List (List Char)} (h : IsHeading heading)
    (hls : ∀ l ∈ ls, NoHeading l) : heading ∉ ls := fun hmem =>
  ne_of_isHeading h (hls heading hmem) rfl

theorem noHeading_nil : NoHeading [] := by simp [NoHeading]

theorem noHeading_entry {s : String} (h : IsEntry s) : NoHeading (lineOf s) := by
  simp [NoHeading, h.head?]

variable {heading closing : List Char} {ss : List String}

theorem closing_not_mem (hclosing : closing.head? ≠ some '\t') (hss : ∀ s ∈ ss, IsEntry s) :
    closing ∉ ss.map lineOf := by
  intro hmem
  obtain ⟨s, hs, rfl⟩ := List.mem_map.mp hmem
  exact hclosing (hss s hs).head?

/-- A block is found under its own heading. -/
theorem blocks_blockLines (rest : List (List Char)) (hheading : IsHeading heading)
    (hclosing : closing.head? ≠ some '\t') (hss : ∀ s ∈ ss, IsEntry s) :
    blocks heading closing none (blockLines heading closing ss ++ rest) =
      ss.map lineOf :: blocks heading closing none rest := by
  have hlines : blockLines heading closing ss ++ rest =
      heading :: (ss.map lineOf ++ closing :: ([[]] ++ rest)) := by
    rw [blockLines, List.cons_append, List.append_assoc]
    rfl
  have hempty : heading ∉ [[]] :=
    not_mem_of_isHeading hheading (List.forall_mem_singleton.mpr noHeading_nil)
  rw [hlines, blocks_cons _ (closing_not_mem hclosing hss), blocks_append rest hempty]

/-- A block is not found under another heading. -/
theorem not_mem_blockLines {other : List Char} (hother : IsHeading other) (hne : other ≠ heading)
    (hclosing : NoHeading closing) (hss : ∀ s ∈ ss, IsEntry s) :
    other ∉ blockLines heading closing ss := by
  intro hmem
  rcases List.mem_cons.mp hmem with rfl | hmem
  · exact hne rfl
  · refine not_mem_of_isHeading hother ?_ hmem
    intro l hl
    rcases List.mem_append.mp hl with hl | hl
    · obtain ⟨s, hs, rfl⟩ := List.mem_map.mp hl
      exact noHeading_entry (hss s hs)
    · rcases List.mem_cons.mp hl with rfl | hl
      · exact hclosing
      · rw [List.mem_singleton.mp hl]
        exact noHeading_nil

/-- The blocks that are read of a constant block: one, unless it has been left out. -/
def constantBlocks (ss : List String) : List (List (List Char)) :=
  if ss = [] then [] else [ss.map lineOf]

theorem blocks_constantLines (rest : List (List Char)) (hss : ∀ s ∈ ss, IsEntry s) :
    blocks GoIdentifiers.constantsHeading [')'] none (constantLines ss ++ rest) =
      constantBlocks ss ++ blocks GoIdentifiers.constantsHeading [')'] none rest := by
  unfold constantLines constantBlocks
  by_cases hne : ss = []
  · rw [if_pos hne, if_pos hne, List.nil_append, List.nil_append]
  · rw [if_neg hne, if_neg hne, blocks_blockLines rest (Or.inl rfl) (by decide) hss]
    rfl

theorem not_mem_constantLines {other : List Char} (hother : other.head? = some 'v')
    (hss : ∀ s ∈ ss, IsEntry s) : other ∉ constantLines ss := by
  unfold constantLines
  by_cases hne : ss = []
  · rw [if_pos hne]
    exact List.not_mem_nil
  · rw [if_neg hne]
    refine not_mem_blockLines (Or.inr hother) ?_ (by simp [NoHeading]) hss
    rintro rfl
    exact absurd hother (by decide)

/-! ## The blocks of the text -/

theorem noHeading_append {s : String} (rest : String) (hs : NoHeading s.toList) (hne : s ≠ "") :
    NoHeading (s ++ rest).toList := by
  have hlist : s.toList ≠ [] := by simpa using hne
  obtain ⟨c, cs, hcs⟩ := List.exists_cons_of_ne_nil hlist
  rw [hcs] at hs
  rw [String.toList_append, hcs]
  exact hs

theorem noHeading_typeLines (t : IdType) : ∀ l ∈ typeLines t, NoHeading l := by
  unfold typeLines
  simp only [String.append_assoc]
  exact List.forall_mem_cons.mpr ⟨noHeading_append _ (by decide) (by decide),
    List.forall_mem_cons.mpr ⟨noHeading_append _ (by decide) (by decide),
      List.forall_mem_cons.mpr ⟨by decide, List.forall_mem_cons.mpr ⟨by decide,
        List.forall_mem_cons.mpr ⟨noHeading_append _ (by decide) (by decide),
          List.forall_mem_cons.mpr ⟨noHeading_append _ (by decide) (by decide), by decide⟩⟩⟩⟩⟩⟩

theorem noHeading_functionLines (t : IdType) : ∀ l ∈ functionLines t, NoHeading l := by
  unfold functionLines
  simp only [String.append_assoc]
  exact List.forall_mem_cons.mpr ⟨noHeading_append _ (by decide) (by decide),
    List.forall_mem_cons.mpr ⟨noHeading_append _ (by decide) (by decide),
      List.forall_mem_cons.mpr ⟨noHeading_append _ (by decide) (by decide), by decide⟩⟩⟩

theorem head?_valuesHeading (t : IdType) :
    (GoIdentifiers.valuesHeading t).head? = some 'v' := by
  simp only [GoIdentifiers.valuesHeading, String.toList_append, List.append_assoc]
  rfl

theorem head?_namesHeading (t : IdType) : (GoIdentifiers.namesHeading t).head? = some 'v' := by
  simp only [GoIdentifiers.namesHeading, String.toList_append, List.append_assoc]
  rfl

theorem constantsHeading_ne {other : List Char} (hother : other.head? = some 'v') :
    GoIdentifiers.constantsHeading ≠ other := by
  rintro rfl
  exact absurd hother (by decide)

/-- The two tables are told apart behind the name that they have in common. -/
theorem valuesHeading_ne (t : IdType) :
    GoIdentifiers.valuesHeading t ≠ GoIdentifiers.namesHeading t := by
  intro heq
  simp only [GoIdentifiers.valuesHeading, GoIdentifiers.namesHeading, String.toList_append,
    List.append_assoc] at heq
  have hbehind := List.append_cancel_left (List.append_cancel_left heq)
  have hhead := congrArg List.head? hbehind
  exact absurd (Option.some.inj hhead) (by decide)

namespace Spellable

variable (h : Spellable table t) {before : List (List Char)}
  (hbefore : ∀ l ∈ before, NoHeading l)
include h hbefore

/-- The blocks of constants are the enumeration and, if there are any, the aliases. -/
theorem blocks_constants :
    blocks GoIdentifiers.constantsHeading [')'] none
        (before ++ (declarationLines table t ++ [[]])) =
      constantBlocks (enumerationLines table t) ++
        constantBlocks (table.aliases.map (aliasLine t)) := by
  have hheading : IsHeading GoIdentifiers.constantsHeading := Or.inl rfl
  have hvalues : GoIdentifiers.constantsHeading ∉ blockLines (GoIdentifiers.valuesHeading t)
      ['\x7d'] ((declaredNames table).map (valueLine t)) :=
    not_mem_blockLines hheading (constantsHeading_ne (head?_valuesHeading t)) (by decide)
      h.isEntry_valueLines
  have hnames : GoIdentifiers.constantsHeading ∉
      blockLines (GoIdentifiers.namesHeading t) ['\x7d'] (table.canonical.map (nameLine t)) :=
    not_mem_blockLines hheading (constantsHeading_ne (head?_namesHeading t)) (by decide)
      h.isEntry_nameLines
  have hfunction := not_mem_of_isHeading hheading (noHeading_functionLines t)
  have hempty : GoIdentifiers.constantsHeading ∉ [[]] := by decide
  rw [blocks_append _ (not_mem_of_isHeading hheading hbefore), declarationLines]
  simp only [List.append_assoc]
  rw [blocks_constantLines _ h.isEntry_enumerationLines,
    blocks_constantLines _ h.isEntry_aliasLines, blocks_append _ hvalues, blocks_append _ hnames,
    blocks_append _ hfunction, blocks_eq_nil hempty, List.append_nil]

/-- The table of values is the only block under its heading. -/
theorem blocks_values :
    blocks (GoIdentifiers.valuesHeading t) ['\x7d'] none
        (before ++ (declarationLines table t ++ [[]])) =
      [((declaredNames table).map (valueLine t)).map lineOf] := by
  have hhead := head?_valuesHeading t
  have hheading : IsHeading (GoIdentifiers.valuesHeading t) := Or.inr hhead
  have hnames : GoIdentifiers.valuesHeading t ∉ blockLines (GoIdentifiers.namesHeading t) ['\x7d']
      (table.canonical.map (nameLine t)) :=
    not_mem_blockLines hheading (valuesHeading_ne t) (by decide) h.isEntry_nameLines
  have hfunction := not_mem_of_isHeading hheading (noHeading_functionLines t)
  have hempty : GoIdentifiers.valuesHeading t ∉ [[]] :=
    not_mem_of_isHeading hheading (List.forall_mem_singleton.mpr noHeading_nil)
  rw [blocks_append _ (not_mem_of_isHeading hheading hbefore), declarationLines]
  simp only [List.append_assoc]
  rw [blocks_append _ (not_mem_constantLines hhead h.isEntry_enumerationLines),
    blocks_append _ (not_mem_constantLines hhead h.isEntry_aliasLines),
    blocks_blockLines _ hheading (by decide) h.isEntry_valueLines, blocks_append _ hnames,
    blocks_append _ hfunction, blocks_eq_nil hempty]

/-- The table of names is the only block under its heading. -/
theorem blocks_names :
    blocks (GoIdentifiers.namesHeading t) ['\x7d'] none
        (before ++ (declarationLines table t ++ [[]])) =
      [(table.canonical.map (nameLine t)).map lineOf] := by
  have hhead := head?_namesHeading t
  have hheading : IsHeading (GoIdentifiers.namesHeading t) := Or.inr hhead
  have hvalues : GoIdentifiers.namesHeading t ∉ blockLines (GoIdentifiers.valuesHeading t) ['\x7d']
      ((declaredNames table).map (valueLine t)) :=
    not_mem_blockLines hheading (valuesHeading_ne t).symm (by decide) h.isEntry_valueLines
  have hfunction := not_mem_of_isHeading hheading (noHeading_functionLines t)
  have hempty : GoIdentifiers.namesHeading t ∉ [[]] :=
    not_mem_of_isHeading hheading (List.forall_mem_singleton.mpr noHeading_nil)
  rw [blocks_append _ (not_mem_of_isHeading hheading hbefore), declarationLines]
  simp only [List.append_assoc]
  rw [blocks_append _ (not_mem_constantLines hhead h.isEntry_enumerationLines),
    blocks_append _ (not_mem_constantLines hhead h.isEntry_aliasLines), blocks_append _ hvalues,
    blocks_blockLines _ hheading (by decide) h.isEntry_nameLines, blocks_append _ hfunction,
    blocks_eq_nil hempty]

end Spellable

/-! ## What is read in the blocks -/

def aliasConstant (t : IdType) (a : Alias) : GoConstant :=
  ⟨t.constant a.name, some (.constant (t.constant a.canonical)), none⟩

/-- What the identifier block of a table is read as. -/
def GoIdentifiers.ofTable (table : IdTable) (t : IdType) : GoIdentifiers where
  enumeration := (EnumLine.ofSlots t table.slots).map GoConstant.ofEnumLine
  aliases := table.aliases.map (aliasConstant t)
  values := (declaredNames table).map fun name => (name, t.constant name)
  names := table.canonical.map fun c => (t.constant c.name, c.name)

theorem enumerationLines_ne_nil (hne : table.canonical ≠ []) : enumerationLines table t ≠ [] := by
  obtain ⟨c, cs, hcs⟩ := List.exists_cons_of_ne_nil hne
  have hmem : .named c ∈ table.slots :=
    IdTable.named_mem_slots_iff.mpr (hcs ▸ List.mem_cons_self)
  unfold enumerationLines
  generalize table.slots = slots at hmem
  cases slots with
  | nil => cases hmem
  | cons first slots =>
    cases first with
    | named e => exact List.cons_ne_nil _ _
    | placeholder v => exact List.cons_ne_nil _ _

namespace Spellable

variable (h : Spellable table t)
include h

theorem mapM_enumerationLines :
    ((enumerationLines table t).map lineOf).mapM GoConstant.parse? =
      some ((EnumLine.ofSlots t table.slots).map GoConstant.ofEnumLine) := by
  rw [enumerationLines, List.map_map]
  refine mapM_map_eq_some ?_
  intro l hl
  have hword : ∀ e, .named e ∈ table.slots → IsGoWord (t.constant e.name) := fun e he =>
    isGoWord_constant h.suffix (h.stem_canonical (IdTable.named_mem_slots_iff.mp he))
  rcases mem_ofSlots hl with ⟨e, he, rfl⟩ | ⟨e, he, rfl⟩ | ⟨v, -, rfl⟩
  · exact GoConstant.parse?_opening (hword e he) h.type _ _
  · exact GoConstant.parse?_named (hword e he) e.value
  · exact GoConstant.parse?_blank v

theorem mapM_aliasLines :
    ((table.aliases.map (aliasLine t)).map lineOf).mapM GoConstant.parse? =
      some (table.aliases.map (aliasConstant t)) := by
  rw [List.map_map]
  refine mapM_map_eq_some ?_
  intro a ha
  exact GoConstant.parse?_alias (isGoWord_constant h.suffix (h.stem_alias ha))
    (isGoWord_constant h.suffix (h.stem_aliased ha)) (constant_ne_iota (h.stem_aliased ha))

theorem mapM_valueLines :
    (((declaredNames table).map (valueLine t)).map lineOf).mapM GoIdentifiers.readValue? =
      some ((declaredNames table).map fun name => (name, t.constant name)) := by
  rw [List.map_map]
  refine mapM_map_eq_some ?_
  intro name hname
  have hstem := h.names name hname
  exact GoIdentifiers.readValue?_line hstem.isGoWord (isGoWord_constant h.suffix hstem)

theorem mapM_nameLines :
    ((table.canonical.map (nameLine t)).map lineOf).mapM GoIdentifiers.readName? =
      some (table.canonical.map fun c => (t.constant c.name, c.name)) := by
  rw [List.map_map]
  refine mapM_map_eq_some ?_
  intro c hc
  have hstem := h.stem_canonical hc
  exact GoIdentifiers.readName?_line (isGoWord_constant h.suffix hstem) hstem.isGoWord

/-- A text with the lines of the identifier block is read as it, whatever other lines stand in
front, as long as none of them is a heading. -/
theorem read?_of_splitLines (hne : table.canonical ≠ []) {source : List Char}
    {before : List (List Char)} (hbefore : ∀ l ∈ before, NoHeading l)
    (hsource : Text.splitLines source = before ++ (declarationLines table t ++ [[]])) :
    GoIdentifiers.read? t source = some (.ofTable table t) := by
  have hfirst := enumerationLines_ne_nil (t := t) hne
  unfold GoIdentifiers.read?
  dsimp only
  rw [hsource, h.blocks_constants hbefore, h.blocks_values hbefore, h.blocks_names hbefore,
    constantBlocks, if_neg hfirst, constantBlocks]
  -- Without aliases there is no second block of constants.
  by_cases haliases : table.aliases.map (aliasLine t) = []
  · have hnil : table.aliases = [] := List.map_eq_nil_iff.mp haliases
    rw [if_pos haliases, List.append_nil]
    dsimp only
    rw [h.mapM_enumerationLines, h.mapM_valueLines, h.mapM_nameLines, GoIdentifiers.ofTable, hnil]
    rfl
  · rw [if_neg haliases]
    change (do
      return GoIdentifiers.mk (← _) (← _) (← _) (← _)) = _
    rw [h.mapM_enumerationLines, h.mapM_aliasLines, h.mapM_valueLines, h.mapM_nameLines]
    rfl

end Spellable

/-- **The identifier block is read back** from behind the type section, and along with it if the
underlying type is on one line. -/
theorem read?_identifiers (h : Spellable table t) (hne : table.canonical ≠ []) :
    ∃ rest, (identifiers table t).toList =
        (identifierType t (Text.lowerCamel t.name)).toList ++ rest ∧
      GoIdentifiers.read? t rest = some (.ofTable table t) ∧
      ('\n' ∉ t.repr.toList →
        GoIdentifiers.read? t (identifiers table t).toList = some (.ofTable table t)) := by
  have hsplit : Text.splitLines (Text.joinLines (declarationLines table t)) =
      declarationLines table t ++ [[]] := by
    have hlines := Text.splitLines_joinLines [] h.feed_not_mem_declarationLines
    rwa [List.append_nil] at hlines
  refine ⟨_, h.toList_identifiers, ?_, ?_⟩
  · have hnothing : ∀ l ∈ ([] : List (List Char)), NoHeading l := by simp
    exact h.read?_of_splitLines hne hnothing hsplit
  · intro hrepr
    refine h.read?_of_splitLines hne (noHeading_typeLines t) ?_
    rw [h.toList_identifiers, toList_identifierType,
      Text.splitLines_joinLines _ (feed_not_mem_typeLines h.type hrepr), hsplit]

end PacketGen.Generated
