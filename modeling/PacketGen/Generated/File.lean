import PacketGen.Generated.Fallback
import PacketGen.Generated.Identifiers
import PacketGen.Generated.PacketCode
import PacketGen.Generated.Preamble
import PacketGen.Generated.Template
import PacketGen.Run.Basic

/-!
# Generated files

The parts of a generated file in their order: the head, the identifier block, the interface of
packets, the dispatch table with one line per outcome, and one group of declarations per outcome.
-/

namespace PacketGen.Generated

/-- The interface that every packet implements. -/
def packetInterface (t : IdType) : String :=
  "// Packet is a network packet of the protocol.\n" ++
    "type Packet interface \x7b\n" ++
    "\tPid() " ++ t.name ++ "\n" ++
    "\tRead(buf *buffer.Buffer)\n" ++
    "\tWrite() *buffer.Buffer\n" ++
    "\x7d\n\n"

/-- The dispatch line of an outcome; a comment for a packet left to be written by hand. -/
def dispatchLine (t : IdType) (o : Outcome) : String :=
  (if o.isFallback then "\t// " else "\t") ++
    t.constant o.name ++ ": func() Packet \x7b return new(" ++ o.name ++ ") \x7d,\n"

/-- The table of constructors by identifier. -/
def dispatchTable (t : IdType) (outcomes : List Outcome) : String :=
  "var packets = map[" ++ t.name ++ "]func() Packet\x7b\n" ++
    String.join (outcomes.map (dispatchLine t)) ++ "\x7d\n\n"

/-- The declarations of an outcome. -/
def outcomeGroup (template : String) (t : IdType) : Outcome → String
  | .generated p => packetCode p t
  | .template name => renderTemplate template name t
  | .fallback f => fallbackBlock f

/-- The imports of a file, ascending and without repetition. Those of the template are there only
when it is used. -/
def importsOf (config : Config) (outcomes : List Outcome) : List String :=
  let needed := config.imports ++
    if outcomes.any Outcome.isTemplate then config.templateImports else []
  (needed.mergeSort fun a b => a ≤ b).eraseReps

/-- The file generated from the outcomes of a run, around an identifier block. -/
def fileAround (block : String) (r : Run) (outcomes : List Outcome) : String :=
  let t := r.config.idType
  preamble r.origin r.config.package (importsOf r.config outcomes) ++
    block ++ packetInterface t ++ dispatchTable t outcomes ++
    String.join (outcomes.map (outcomeGroup r.batchTemplate t))

/-- The file generated from the outcomes of a run. -/
def packetsFile (r : Run) (outcomes : List Outcome) : String :=
  fileAround (identifiers r.table r.config.idType) r outcomes

/-- The file of a run as the program writes it. -/
def writePacketsFile (r : Run) (outcomes : List Outcome) : Except Panic String := do
  return fileAround (← writeIdentifiers r.table r.config.idType) r outcomes

/-- A file with an identifier block only. -/
def identifiersFile (origin package : String) (table : IdTable) (t : IdType) : String :=
  preamble origin package [] ++ identifiers table t

/-- A file with an identifier block only, as the program writes it. -/
def writeIdentifiersFile (origin package : String) (table : IdTable) (t : IdType) :
    Except Panic String := do
  return preamble origin package [] ++ (← writeIdentifiers table t)

end PacketGen.Generated
