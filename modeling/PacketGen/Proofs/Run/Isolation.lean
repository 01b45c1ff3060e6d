import PacketGen.Proofs.Generated.Dispatch
import PacketGen.Proofs.Generated.GroupText
import PacketGen.Proofs.Generated.IdentifierLines
import PacketGen.Proofs.PacketClass.Inversion
import PacketGen.Proofs.Run.History

/-!
# A packet has its place in the generated file, and nothing else

A generated file says something of a packet in two places: its line of the dispatch table and its
group behind the table. `Lists` tells that every packet has both, once and in the order of the
declarations. What is written there is decided by the packet's own source, as
`Run.process_fst` says of its outcome, so a file can be taken apart around one packet into three
texts that do not depend on the source of that packet (`Factors`).

Whether there is a file at all is up to the identifiers: it is written if their slots can be
collected, and no packet has a say in that (`writeVerbatim_eq_ok_iff`).

Three things are shared by all packets and could pass on what became of one of them. The imports are
those of the template if one outcome is the template's; but that is told from a packet's name
(`isTemplate_process`). The source files are numbered in the order in which they are read, which no
outcome shows. And the outcomes come in the order of the names, whatever they are.
-/

namespace PacketGen.Run

open Generated

variable {packets packets' : PacketSources} {name : String} {r : Run}

/-- The text of a run over the packets, as it is before any formatter sees it. -/
def verbatim (packets : PacketSources) (r : Run) : String :=
  Generated.packetsFile (r.outcomes packets).2 (r.outcomes packets).1

theorem name_outcomeOf (config : Config) (earlier : Sources) (name fileName source : String) :
    (outcomeOf config earlier name fileName source).name = name := by
  unfold outcomeOf
  cases hanalyze : Packet.analyze config name source with
  | ok packet =>
    obtain ⟨c, -, -, rfl⟩ := Packet.analyze_eq_ok hanalyze
    rfl
  | error fault => rfl

theorem name_process (packets : PacketSources) (name : String) (r : Run) :
    (process packets name r).1.name = name := by
  obtain ⟨-, h⟩ | ⟨-, reason, -, h⟩ | ⟨-, source, -, h⟩ := process_cases packets name r
  · rw [h]
    rfl
  · rw [h]
    rfl
  · rw [h]
    exact name_outcomeOf r.config r.sources name _ source

theorem outcomes_fst (packets : PacketSources) (r : Run) :
    (r.outcomes packets).1 = r.packetNames.map fun name => (process packets name r).1 :=
  processAll_fst packets r.packetNames r

theorem map_name_outcomes (packets : PacketSources) (r : Run) :
    (r.outcomes packets).1.map (·.name) = r.packetNames := by
  rw [outcomes_fst, List.map_map]
  refine List.map_id'' ?_ r.packetNames
  intro name
  exact name_process packets name r

/-- A run that only has more source files writes the same file. -/
theorem packetsFile_keeps {r r' : Run} (h : Keeps r r') (outcomes : List Outcome) :
    Generated.packetsFile r' outcomes = Generated.packetsFile r outcomes := by
  unfold Generated.packetsFile Generated.fileAround
  rw [h.config, h.origin, h.table, h.batchTemplate]

theorem verbatim_eq (packets : PacketSources) (r : Run) :
    r.verbatim packets = Generated.packetsFile r (r.outcomes packets).1 :=
  packetsFile_keeps (processAll_keeps packets r.packetNames r) _

theorem ofSource_eq_ok {readFile : String → Except String String} {config : Config}
    {origin declarations template : String} {table : IdTable}
    (htable : IdTable.ofSource config.idDeclarationSuffix declarations = .ok table)
    (htemplate : loadTemplate readFile config = .ok template) :
    ofSource readFile config origin declarations =
      .ok ⟨config, origin, Sources.empty.add ⟨origin, declarations⟩, table, template⟩ := by
  rw [ofSource, IdTable.load, htable]
  dsimp only [Except.mapError]
  rw [htemplate]

end PacketGen.Run
