import PacketGen.Diagnostic.Snippet
import PacketGen.Generated.Template
import PacketGen.IdTable.Build
import PacketGen.Run.Error
import PacketGen.Run.Outcome

/-!
# Runs

A run goes over the canonical names of an identifier table and processes the packet of each. A
faulty packet leaves a fallback and nothing else: of the state of a run only the list of source
files changes, and it only grows.
-/

namespace PacketGen

/-- Where the sources of packets are found. -/
structure PacketSources where
  /-- The name under which the source of a packet is shown. -/
  locate : String → String
  /-- The source of a packet, or why it cannot be read. -/
  read : String → Except String String

namespace PacketSources

/-- Sources held in memory: later entries for one packet win. -/
def ofList (config : Config) (entries : List (String × String)) : PacketSources where
  locate := config.sourceFileName
  read := fun name =>
    match entries.reverse.lookup name with
    | some source => .ok source
    | none => .error "no such packet source"

/-- The sources with that of one packet added or replaced. -/
def set (packets : PacketSources) (name source : String) : PacketSources :=
  { packets with read := fun n => if n = name then .ok source else packets.read n }

end PacketSources

/-- The state of a run. -/
structure Run where
  config : Config
  /-- The name under which the declarations are shown. -/
  origin : String
  sources : Sources
  table : IdTable
  /-- Text of the container template. -/
  batchTemplate : String

namespace Run

/-- The container template that the settings name, read by `readFile`, or the built-in one. -/
def loadTemplate (readFile : String → Except String String) (config : Config) :
    Except RunError String :=
  match config.batchTemplate with
  | none => .ok Generated.batchTemplate
  | some path => (readFile path).mapError (.inaccessible path)

/-- A run over the declarations in `text`. Faulty declarations are reported before the template is
looked at. -/
def ofSource (readFile : String → Except String String) (config : Config)
    (origin text : String) : Except (RunError × Sources) Run :=
  let (table, sources) := IdTable.load Sources.empty ⟨origin, text⟩ config.idDeclarationSuffix
  match table with
  | .error faults => .error (.declarations faults, sources)
  | .ok table =>
    match loadTemplate readFile config with
    | .error e => .error (e, sources)
    | .ok batchTemplate => .ok { config, origin, sources, table, batchTemplate }

/-- The packets to process, in the order of their declarations. -/
def packetNames (r : Run) : List String := r.table.canonical.map (·.name)

/-- The outcome of a packet with a fault in the file with the given number. -/
def fallback (sources : Sources) (name fileName : String) (source : Option String)
    (file : Nat) (fault : PacketFault) : Outcome :=
  let d := fault.diagnostic file
  .fallback ⟨name, fileName, some d.code.render, d.render sources, source⟩

/-- Processes the packet `name`. -/
def process (packets : PacketSources) (name : String) (r : Run) : Outcome × Run :=
  if name = r.config.batchPacket then (.template name, r)
  else
    let fileName := packets.locate name
    let file := r.sources.next
    match packets.read name with
    | .error reason =>
      (fallback r.sources name fileName none file (.unreadable fileName reason), r)
    | .ok source =>
      let sources := r.sources.add ⟨fileName, source⟩
      let outcome := match Packet.analyze r.config name source with
        | .ok packet => .generated packet
        | .error fault => fallback sources name fileName (some source) file fault
      (outcome, { r with sources })

/-- Processes several packets, one after the other. -/
def processAll (packets : PacketSources) : List String → Run → List Outcome × Run
  | [], r => ([], r)
  | name :: names, r =>
    let (outcome, r) := process packets name r
    let (outcomes, r) := processAll packets names r
    (outcome :: outcomes, r)

/-- Processes every packet of the table. -/
def outcomes (packets : PacketSources) (r : Run) : List Outcome × Run :=
  processAll packets r.packetNames r

end Run

end PacketGen
