import PacketGen.Proofs.Generated.KeptStatements
import PacketGen.Proofs.Generated.NameClashes
import PacketGen.Proofs.Run.Isolation

/-!
# The names that a run declares

Whatever the sources of the packets are, what a run makes of them is plain: names come from
identifiers, and what is kept of a source is kept in comments. So the text of a run can be read, and
it declares what `NameClashes` speaks of.

The names are not distinct for all sources. A packet may have a constant that is called like the
suffix of the identifiers, and then its name is that of the packet's own identifier
(`verbatim_declares_head_twice`).
-/

namespace PacketGen.Run

open Generated

variable {packets : PacketSources} {name : String} {r : Run}

/-! ## Every outcome is plain -/

theorem isPascal_localConstants {text : List Char} {first last : Nat} {reserved : String} :
    ∀ c ∈ PacketClass.localConstants text first last reserved, Text.IsPascal c.name := by
  intro c hc
  obtain ⟨d, hd, rfl⟩ := List.mem_map.mp hc
  obtain ⟨line, -, hline⟩ := List.mem_filterMap.mp (List.mem_filter.mp hd).1
  exact Text.isPascal_upperToPascal (Constant.isIdentifier_of_parse? hline).isWord.2

theorem plain_of_analyze {config : Config} {source : String} {p : Packet} (hname : IsStem name)
    (h : Packet.analyze config name source = .ok p) : Packet.Plain p := by
  obtain ⟨c, hextract, -, rfl⟩ := Packet.analyze_eq_ok h
  obtain ⟨first, last, hfound⟩ := PacketClass.extract_eq_ok hextract
  refine ⟨hname, ?_, noFeed_fieldsOf hfound⟩
  rw [hfound.constants]
  exact isPascal_localConstants

theorem plainOutcome_process (hname : IsStem name) (hlocate : '\n' ∉ (packets.locate name).toList)
    (r : Run) : PlainOutcome r.config (process packets name r).1 := by
  obtain ⟨htemplate, h⟩ | ⟨-, reason, -, h⟩ | ⟨-, source, -, h⟩ := process_cases packets name r
  · rw [h]
    exact htemplate
  · rw [h]
    exact ⟨hname, hlocate⟩
  · rw [h]
    dsimp only
    unfold outcomeOf
    cases hanalyze : Packet.analyze r.config name source with
    | ok packet => exact plain_of_analyze hname hanalyze
    | error fault => exact ⟨hname, hlocate⟩

/-! ## The text of a run -/

/-- What the text of a run over the packets declares. -/
structure DeclaresNames (packets : PacketSources) (r : Run) (names : List String) : Prop where
  /-- The names can be read in the text. -/
  read : declarationsIn? (r.verbatim packets).toList = some names
  /-- They are those of the file, of the structs and of the constants of packets. -/
  listed : names.Perm (fileNames r.table ++
    (structNames (r.outcomes packets).1 ++ packetConstantNames (r.outcomes packets).1))
  /-- They are distinct if no struct is called like something of the file, and no constant of a
  packet is called like something of the file, a struct, or another constant. -/
  distinct_iff : names.Nodup ↔
    (∀ w ∈ structNames (r.outcomes packets).1, w ∉ fileNames r.table) ∧
    (packetConstantNames (r.outcomes packets).1).Nodup ∧
    ∀ w ∈ packetConstantNames (r.outcomes packets).1,
      w ∉ fileNames r.table ∧ w ∉ structNames (r.outcomes packets).1
  /-- If no declared name goes on to another, it is enough to look at each packet alone. -/
  alone : Unambiguous r.table →
    (names.Nodup ↔ ∀ p, .generated p ∈ (r.outcomes packets).1 → ClashFree p)

section Plain

variable {declarations : String}

theorem isStem_of_ofSource {suffix : String} {table : IdTable}
    (htable : IdTable.ofSource suffix declarations = .ok table)
    (hnames : ∀ name ∈ declaredNames table, name ≠ "") :
    ∀ name ∈ declaredNames table, IsStem name := by
  intro name hname
  exact ⟨hnames name hname, IdTable.isPascal_of_build htable hname⟩

theorem spellable_of_ofSource {suffix : String} {table : IdTable}
    (htable : IdTable.ofSource suffix declarations = .ok table)
    (hnames : ∀ name ∈ declaredNames table, name ≠ "") : Spellable table .default := by
  refine ⟨isGoWord_of_all (by decide) rfl, List.all_eq_true.mp rfl,
    isStem_of_ofSource htable hnames, ?_⟩
  intro a ha
  obtain ⟨c, hc, hname, -⟩ := (IdTable.wellFormed_of_build htable).aliases a ha
  exact ⟨c, hc, hname⟩

variable (htable : IdTable.ofSource Config.default.idDeclarationSuffix declarations = .ok r.table)
  (hnames : ∀ name ∈ declaredNames r.table, name ≠ "")
include htable hnames

theorem named_outcomes (packets : PacketSources) : Named r.table (r.outcomes packets).1 :=
  ⟨map_name_outcomes packets r, (IdTable.wellFormed_of_build htable).distinct_names,
    isStem_of_ofSource htable hnames⟩

variable (hconfig : r.config = .default) (htemplate : r.batchTemplate = Generated.batchTemplate)
  (horigin : '\n' ∉ r.origin.toList)
  (hlocate : ∀ name ∈ r.packetNames, '\n' ∉ (packets.locate name).toList)
include hconfig htemplate horigin hlocate

theorem plainRun : PlainRun r (r.outcomes packets).1 := by
  refine ⟨hconfig, htemplate, horigin, spellable_of_ofSource htable hnames, ?_⟩
  intro o ho
  rw [outcomes_fst] at ho
  obtain ⟨name, hname, rfl⟩ := List.mem_map.mp ho
  have hstem := isStem_of_ofSource htable hnames name (List.mem_append_left _ hname)
  have hplain := plainOutcome_process hstem (hlocate name hname) r
  rw [hconfig] at hplain
  exact hplain

/-- The text of a run by default settings declares names that are known from its outcomes. -/
theorem exists_declaresNames : ∃ names, DeclaresNames packets r names := by
  have hplain := plainRun htable hnames hconfig htemplate horigin hlocate
  have hnamed := named_outcomes htable hnames packets
  obtain ⟨names, hread, hperm⟩ := (goSection_packetsFile hplain).exists_declarations
  rw [← verbatim_eq] at hread
  refine ⟨names, hread, hperm.trans ((groupNames_perm _).append_left _),
    hnamed.nodup_names_iff hperm, ?_⟩
  intro hun
  exact hnamed.nodup_names_iff_of_unambiguous hun hperm

end Plain

/-- **What a run declares**: whatever the sources of the packets are, the names that the text of a
run declares are known from the outcomes, and so it is known when they are distinct. -/
theorem verbatim_declares {readFile : String → Except String String} {origin declarations : String}
    {table : IdTable}
    (htable : IdTable.ofSource Config.default.idDeclarationSuffix declarations = .ok table)
    (hnames : ∀ name ∈ declaredNames table, name ≠ "") (horigin : '\n' ∉ origin.toList) :
    ∃ r, ofSource readFile .default origin declarations = .ok r ∧ r.table = table ∧
      ∀ packets : PacketSources, (∀ name ∈ r.packetNames, '\n' ∉ (packets.locate name).toList) →
        ∃ names, DeclaresNames packets r names := by
  have htemplate : loadTemplate readFile .default = .ok Generated.batchTemplate := rfl
  refine ⟨_, ofSource_eq_ok htable htemplate, rfl, ?_⟩
  intro packets hlocate
  exact exists_declaresNames htable hnames rfl rfl horigin hlocate

/-- Two packets, one of which is the template, with all names distinct. -/
theorem verbatim_declares_login :
    let declarations := "const LOGIN_PACKET = 1;\nconst BATCH_PACKET = 2;"
    let table : IdTable :=
      ⟨[⟨"Login", 1⟩, ⟨"Batch", 2⟩], [], [⟨"Login", 1, ⟨0, 23⟩⟩, ⟨"Batch", 2, ⟨24, 47⟩⟩]⟩
    let packets := PacketSources.ofList .default
      [("Login", "class LoginPacket extends DataPacket \x7b\nconst TYPE_RAW = 0;\n\x7d")]
    IdTable.ofSource Config.default.idDeclarationSuffix declarations = .ok table ∧
      (∀ name ∈ declaredNames table, name ≠ "") ∧ '\n' ∉ "Info.php".toList ∧
      ∃ r, ofSource (fun _ => .error "no such file") .default "Info.php" declarations = .ok r ∧
        (∀ name ∈ r.packetNames, '\n' ∉ (packets.locate name).toList) ∧
        ∃ names, DeclaresNames packets r names ∧ names.Nodup ∧ "LoginTypeRaw" ∈ names := by
  intro declarations table packets
  have htable : IdTable.ofSource Config.default.idDeclarationSuffix declarations = .ok table := by
    decide +kernel
  have hnames : ∀ name ∈ declaredNames table, name ≠ "" := by decide
  have horigin : '\n' ∉ "Info.php".toList := by decide
  obtain ⟨r, hr, -, hdeclares⟩ :=
    @verbatim_declares (fun _ => .error "no such file") "Info.php" declarations table htable hnames
      horigin
  have hsame := hr
  rw [ofSource_eq_ok htable rfl] at hsame
  cases hsame
  have hlocate : ∀ name ∈ table.canonical.map (·.name), '\n' ∉ (packets.locate name).toList := by
    decide +kernel
  obtain ⟨names, hdeclared⟩ := hdeclares packets hlocate
  refine ⟨htable, hnames, horigin, _, hr, hlocate, names, hdeclared, ?_, ?_⟩
  · refine hdeclared.distinct_iff.mpr ⟨?_, ?_, ?_⟩
    · decide +kernel
    · decide +kernel
    · decide +kernel
  · refine hdeclared.listed.mem_iff.mpr ?_
    decide +kernel

/-- The names are not distinct for all sources: a constant that is called like the suffix of the
identifiers is called like the identifier of its packet. -/
theorem verbatim_declares_head_twice :
    let declarations := "const LOGIN_PACKET = 1;"
    let packets := PacketSources.ofList .default
      [("Login", "class LoginPacket extends DataPacket \x7b\n const HEAD = 1;\n\x7d")]
    ∃ r names, ofSource (fun _ => .error "no such file") .default "Info.php" declarations = .ok r ∧
      declarationsIn? (r.verbatim packets).toList = some names ∧ names.count "LoginHead" = 2 ∧
      ¬ names.Nodup := by
  intro declarations packets
  let table : IdTable := ⟨[⟨"Login", 1⟩], [], [⟨"Login", 1, ⟨0, 23⟩⟩]⟩
  let r : Run := ⟨.default, "Info.php", Sources.empty.add ⟨"Info.php", declarations⟩, table,
    Generated.batchTemplate⟩
  have htable : IdTable.ofSource Config.default.idDeclarationSuffix declarations = .ok table := by
    decide +kernel
  have hnames : ∀ name ∈ declaredNames table, name ≠ "" := by decide
  have hlocate : ∀ name ∈ r.packetNames, '\n' ∉ (packets.locate name).toList := by decide +kernel
  have horigin : '\n' ∉ r.origin.toList := by decide
  have houtcomes : (r.outcomes packets).1 = [.generated ⟨"Login", [⟨"Head", 1⟩], []⟩] := by
    decide +kernel
  obtain ⟨names, hdeclared⟩ := exists_declaresNames (r := r) htable hnames rfl rfl horigin hlocate
  have hlisted := hdeclared.listed
  rw [houtcomes] at hlisted
  have hcount : names.count "LoginHead" = 2 := by
    rw [hlisted.count_eq]
    decide
  refine ⟨r, names, ofSource_eq_ok htable rfl, hdeclared.read, hcount, ?_⟩
  intro hnodup
  have hone := List.nodup_iff_count_le_one.mp hnodup "LoginHead"
  omega

end PacketGen.Run
