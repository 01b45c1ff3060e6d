import PacketGen.Proofs.Generated.GoDeclarations
import PacketGen.Proofs.Generated.IdentifierText

/-!
# What the identifier block declares

The type of the identifiers, both lookup tables, the lookup function, and one constant for every
declared name, canonical or not: nothing else, and none of them twice. The enumeration lists its
constants by value and not in the order of the table, so the names are told up to their order.
-/

namespace PacketGen.Generated

open GoLexeme (code declared declared? opened? EndsWord)

/-! ## Constant blocks -/

/-- A group of constants. -/
def constantGroup : GoBlock := ⟨')', true⟩

theorem code_word {w : String} {cs : List Char} (hw : IsGoWord w) (hcs : EndsWord cs) :
    code (w.toList ++ cs) = .word w :: code cs := by
  rw [code, GoLexeme.lex_word hw hcs]
  rfl

/-- A line of a group declares the name that it starts with, unless more names follow it. -/
theorem entries?_name {w : String} {cs : List Char} (hw : IsGoWord w)
    (hcs : (code cs).head? ≠ some (.mark ',')) :
    constantGroup.entries? ('\t' :: (w.toList ++ ' ' :: cs)) = some (declared w) := by
  have hcode : code ('\t' :: (w.toList ++ ' ' :: cs)) = .word w :: code cs :=
    code_word hw (endsWord_cons cs (by decide))
  have hread : constantGroup.entries? ('\t' :: (w.toList ++ ' ' :: cs)) =
      GoLexeme.entries? (code ('\t' :: (w.toList ++ ' ' :: cs))) := rfl
  rw [hread, hcode, GoLexeme.entries?, if_neg hcs]

/-- Behind the name stands its type. -/
theorem entries?_typed {w type : String} {cs : List Char} (hw : IsGoWord w)
    (htype : IsGoWord type) :
    constantGroup.entries? ('\t' :: (w.toList ++ ' ' :: (type.toList ++ ' ' :: cs))) =
      some (declared w) := by
  refine entries?_name hw ?_
  rw [code_word htype (endsWord_cons cs (by decide))]
  simp

theorem declared_of_ne {w : String} (hw : w ≠ "_") : declared w = [w] := if_neg hw

variable {α : Type} {xs : List α} {render : α → String} {names : α → List String}

theorem declares_constantLines
    (h : ∀ x ∈ xs, constantGroup.entries? (lineOf (render x)) = some (names x)) :
    Declares (constantLines (xs.map render)) (xs.flatMap names) := by
  by_cases hne : xs.map render = []
  · rw [constantLines, if_pos hne, List.map_eq_nil_iff.mp hne]
    exact declares_nil
  · have hnames : declared? (code GoIdentifiers.constantsHeading) = some [] := rfl
    have hopened : opened? (code GoIdentifiers.constantsHeading) = some constantGroup := rfl
    have hblock := declares_block hnames hopened (by decide) h
    rw [constantLines, if_neg hne, blockLines, List.map_map]
    exact hblock

theorem goSection_constantBlock (hentry : ∀ x ∈ xs, IsEntry (render x))
    (h : ∀ x ∈ xs, constantGroup.entries? (lineOf (render x)) = some (names x)) :
    GoSection (constantBlock (xs.map render)).toList (xs.flatMap names) := by
  have hss : ∀ s ∈ xs.map render, IsEntry s := List.forall_mem_map.mpr hentry
  exact .ofLines (toList_constantBlock hss) (feed_not_mem_constantLines hss)
    (declares_constantLines h)

/-! ## The enumeration and the aliases -/

variable {table : IdTable} {t : IdType}

theorem entries?_bare {w : String} (hw : IsGoWord w) (v : Int) :
    constantGroup.entries? (lineOf ("\t" ++ w ++ " // " ++ toString v ++ "\n")) =
      some (declared w) := by
  have hline : lineOf ("\t" ++ w ++ " // " ++ toString v ++ "\n") =
      '\t' :: (w.toList ++ ' ' :: '/' :: '/' :: ' ' :: (toString v).toList) := by
    rw [lineOf_line]
    simp only [String.toList_append, List.append_assoc]
    rfl
  have hcomment : code ('/' :: '/' :: ' ' :: (toString v).toList) = [] := rfl
  rw [hline]
  refine entries?_name hw ?_
  rw [hcomment]
  simp

theorem entries?_opening {c type : String} (hc : IsGoWord c) (htype : IsGoWord type)
    (e : LineIndex) (v : Int) :
    constantGroup.entries? (lineOf (EnumLine.opening c type e v).render) = some (declared c) := by
  have hline : lineOf (EnumLine.opening c type e v).render =
      '\t' :: (c.toList ++ ' ' :: (type.toList ++ ' ' :: ("= ".toList ++ (e.render.toList ++
        (" // ".toList ++ (toString v).toList))))) := by
    rw [EnumLine.render, lineOf_line]
    simp only [String.toList_append, List.append_assoc]
    rfl
  rw [hline]
  exact entries?_typed hc htype

namespace Spellable

variable (h : Spellable table t)
include h

theorem isGoWord_canonical {c : Constant} (hc : c ∈ table.canonical) :
    IsGoWord (t.constant c.name) :=
  isGoWord_constant h.suffix (h.stem_canonical hc)

/-- A line of the enumeration declares its constant, if it has one. -/
theorem entries?_enumLine {l : EnumLine} (hl : l ∈ EnumLine.ofSlots t table.slots) :
    constantGroup.entries? (lineOf l.render) = some l.constant?.toList := by
  rcases mem_ofSlots hl with ⟨e, he, rfl⟩ | ⟨e, he, rfl⟩ | ⟨v, -, rfl⟩
  · have hmem := IdTable.named_mem_slots_iff.mp he
    rw [entries?_opening (h.isGoWord_canonical hmem) h.type,
      declared_of_ne (constant_ne_blank (h.stem_canonical hmem))]
    rfl
  · have hmem := IdTable.named_mem_slots_iff.mp he
    have hread := entries?_bare (h.isGoWord_canonical hmem) e.value
    rw [declared_of_ne (constant_ne_blank (h.stem_canonical hmem))] at hread
    exact hread
  · exact entries?_bare (w := "_") (isGoWord_of_all (by decide) rfl) v

theorem entries?_aliasLine {a : Alias} (ha : a ∈ table.aliases) :
    constantGroup.entries? (lineOf (aliasLine t a)) = some [t.constant a.name] := by
  have hstem := h.stem_alias ha
  have hline : lineOf (aliasLine t a) = '\t' :: ((t.constant a.name).toList ++
      ' ' :: '=' :: ' ' :: (t.constant a.canonical).toList) := by
    rw [aliasLine, lineOf_line]
    simp only [String.toList_append, List.append_assoc]
    rfl
  have hcode : code ('=' :: ' ' :: (t.constant a.canonical).toList) =
      .mark '=' :: code (t.constant a.canonical).toList := rfl
  rw [hline, entries?_name (isGoWord_constant h.suffix hstem) (by simp [hcode]),
    declared_of_ne (constant_ne_blank hstem)]

end Spellable

theorem filterMap_constant?_ofSlots (t : IdType) (slots : List Slot) :
    (EnumLine.ofSlots t slots).filterMap EnumLine.constant? =
      (slots.filterMap Slot.constant?).map fun c => t.constant c.name := by
  have hslot : ∀ s : Slot, (EnumLine.ofSlot t s).constant? =
      s.constant?.map fun c => t.constant c.name := by
    intro s
    cases s with
    | named e => rfl
    | placeholder v => rfl
  have hslots : ∀ ss : List Slot, (ss.map (EnumLine.ofSlot t)).filterMap EnumLine.constant? =
      (ss.filterMap Slot.constant?).map fun c => t.constant c.name := by
    intro ss
    rw [List.filterMap_map, List.map_filterMap]
    exact List.filterMap_congr fun s _ => hslot s
  cases slots with
  | nil => rfl
  | cons s ss =>
    cases s with
    | named e => exact congrArg _ (hslots ss)
    | placeholder v => exact hslots (.placeholder v :: ss)

/-- The enumeration has the constants of the canonical names. -/
theorem enumeration_perm (table : IdTable) (t : IdType) :
    ((EnumLine.ofSlots t table.slots).flatMap (·.constant?.toList)).Perm
      (table.canonical.map fun c => t.constant c.name) := by
  have hfilter : (EnumLine.ofSlots t table.slots).flatMap (·.constant?.toList) =
      (EnumLine.ofSlots t table.slots).filterMap EnumLine.constant? := by
    rw [List.filterMap_eq_flatMap_toList]
  rw [hfilter, filterMap_constant?_ofSlots]
  exact (IdTable.slots_perm table).map _

/-! ## The block -/

/-- The names that the identifier block declares besides the constants. -/
def identifierNames : List String :=
  ["PacketID", "packetIdValues", "packetIdNames", "PacketIDFromString"]

/-- Every constant of the identifier block. -/
def identifierConstants (table : IdTable) (t : IdType) : List String :=
  (declaredNames table).map t.constant

theorem goSection_tables {table : IdTable} (h : Spellable table .default) :
    GoSection (valuesTable table .default (Text.lowerCamel IdType.default.name) ++
      namesTable table .default (Text.lowerCamel IdType.default.name)).toList
      ["packetIdValues", "packetIdNames"] := by
  have hentries : ∀ ss : List String, (∀ s ∈ ss, IsEntry s) →
      ∀ l ∈ ss.map lineOf, l.head? = some '\t' := by
    intro ss hss
    exact List.forall_mem_map.mpr fun s hs => (hss s hs).head?
  have hvalues := h.isEntry_valueLines
  have hnames := h.isEntry_nameLines
  have hfirst : Declares (blockLines (GoIdentifiers.valuesHeading .default) ['\x7d']
      ((declaredNames table).map (valueLine .default))) ["packetIdValues"] :=
    declares_body (b := ⟨'\x7d', false⟩) (by decide) (by decide) rfl (by decide)
      (hentries _ hvalues)
  have hsecond : Declares (blockLines (GoIdentifiers.namesHeading .default) ['\x7d']
      (table.canonical.map (nameLine .default))) ["packetIdNames"] :=
    declares_body (b := ⟨'\x7d', false⟩) (by decide) (by decide) rfl (by decide)
      (hentries _ hnames)
  rw [String.toList_append]
  exact GoSection.append
    (.ofLines h.toList_valuesTable (feed_not_mem_blockLines (by decide) (by decide) hvalues) hfirst)
    (.ofLines h.toList_namesTable (feed_not_mem_blockLines (by decide) (by decide) hnames) hsecond)

theorem goSection_identifierType : GoSection
    (identifierType .default (Text.lowerCamel IdType.default.name)).toList ["PacketID"] :=
  .ofLines (toList_identifierType .default) (by decide) (by decide)

theorem goSection_lookupFunction : GoSection
    (lookupFunction .default (Text.lowerCamel IdType.default.name)).toList
    ["PacketIDFromString"] :=
  .ofLines (toList_lookupFunction .default) (by decide) (by decide)

/-- **The identifier block** declares its constants and four other names. -/
theorem goSection_identifiers {table : IdTable} (h : Spellable table .default) :
    GoSection (identifiers table .default).toList
      (identifierNames ++ identifierConstants table .default) := by
  have henumeration : GoSection (enumeration table.slots .default).toList
      ((EnumLine.ofSlots .default table.slots).flatMap (·.constant?.toList)) :=
    goSection_constantBlock (fun _ hl => h.isEntry_enumerationLines _ (List.mem_map_of_mem hl))
      fun _ hl => h.entries?_enumLine hl
  have haliases : GoSection (aliasConstants table .default).toList
      (table.aliases.flatMap fun a => [IdType.default.constant a.name]) :=
    goSection_constantBlock (fun _ ha => h.isEntry_aliasLine ha) fun _ ha => h.entries?_aliasLine ha
  have hconstants := (henumeration.perm (enumeration_perm table .default)).append haliases
  have htext := goSection_identifierType.append
    (hconstants.append ((goSection_tables h).append goSection_lookupFunction))
  have hnames : identifierConstants table .default =
      (table.canonical.map fun c => IdType.default.constant c.name) ++
        table.aliases.flatMap fun a => [IdType.default.constant a.name] := by
    rw [identifierConstants, declaredNames, List.map_append, List.map_map, List.map_map,
      ← List.map_eq_flatMap]
    rfl
  rw [← hnames] at htext
  -- The constants stand between the type and the lookup tables.
  have hlast : (identifierConstants table .default ++
        (["packetIdValues", "packetIdNames"] ++ ["PacketIDFromString"])).Perm
      (["packetIdValues", "packetIdNames", "PacketIDFromString"] ++
        identifierConstants table .default) := List.perm_append_comm
  have hsection := htext.perm (hlast.cons "PacketID")
  unfold identifiers identifierBlock
  dsimp only
  simp only [String.toList_append, List.append_assoc] at hsection ⊢
  exact hsection

end PacketGen.Generated
