import PacketGen.CommandLine.Arguments
import PacketGen.Config.Reader
import PacketGen.Generated.File
import PacketGen.Host.Basic
import PacketGen.Report

/-!
# Running a command

A command reads everything it needs, works out its whole output, and writes it last: to one file or
to the standard output. So a command that fails has written nothing.
-/

namespace PacketGen

/-- How a generated text is finished. -/
inductive Formatter where
  /-- The text is left as it is. -/
  | verbatim
  /-- The text is passed through a program. -/
  | program (path : String)
deriving Repr, DecidableEq

namespace Formatter

/-- Finishes a text. -/
def apply {m : Type → Type} [Monad m] (host : Host m) (text : String) :
    Formatter → m (Except RunError String)
  | verbatim => return .ok text
  | program path => return (← host.pipe path text).mapError (.formatter path)

end Formatter

namespace CommandLine

namespace OutputOptions

/-- The formatter that the options ask for. -/
def formatter (o : OutputOptions) : Formatter :=
  if o.noFormat then .verbatim else .program (o.gofmt.getD "gofmt")

end OutputOptions

/-- How a command fails. -/
inductive Failure where
  /-- With a text on the standard error output, and the reason behind it. -/
  | reported (shown reason : String)
  /-- Where it stands. -/
  | panicked (p : Panic)
deriving Repr, DecidableEq

namespace Failure

def ofError (e : RunError) : Failure := reported "" e.message

/-- The end of a program that fails. What a runtime tells of the place where it stopped is left
out. -/
def exit : Failure → Exit
  | reported shown reason => ⟨1, "", shown ++ "Error: " ++ Text.quoted reason ++ "\n"⟩
  | panicked p => ⟨101, "", p.message ++ "\n"⟩

end Failure

/-- The path of a file in a directory. -/
def join (directory file : String) : String :=
  if directory = "" || directory.endsWith "/" then directory ++ file
  else directory ++ "/" ++ file

section

variable {m : Type → Type} [Monad m] (host : Host m)

/-- The text of a file. -/
def readText (path : String) : m (Except Failure String) :=
  return (← host.readFile path).mapError fun e => .ofError (.inaccessible path e)

/-- The settings in a file, or the default ones. -/
def readConfig : Option String → m (Except Failure Config)
  | none => return .ok Config.default
  | some path => return (← readText host path).bind fun text =>
      (Config.ofJson text).mapError .ofError

/-- The failure on faulty declarations, which are shown. -/
def declarationFailure (sources : Sources) (faults : List Diagnostic) : Failure :=
  match Diagnostic.emit sources faults with
  | .ok shown => .reported shown "Invalid identifier declarations"
  | .error e => .reported "" ("could not print diagnostics: " ++ e.message)

/-- The identifier table in a file, with the sources that hold the file. -/
def readTable (path suffix : String) : m (Except Failure (IdTable × Sources)) :=
  return (← readText host path).bind fun text =>
    match IdTable.load Sources.empty ⟨path, text⟩ suffix with
    | (.ok table, sources) => .ok (table, sources)
    | (.error faults, sources) => .error (declarationFailure sources faults)

/-- The container template that the settings name. -/
def readTemplate (config : Config) : m (Except Failure String) :=
  match config.batchTemplate with
  | none => return .ok Generated.batchTemplate
  | some path => readText host path

/-- The sources of the packets with the given names in a directory, each read once. -/
def readPackets (config : Config) (directory : String) :
    List String → m (List (String × Except String String))
  | [] => return []
  | name :: names => do
    let source ← host.readFile (join directory (config.sourceFileName name))
    let sources ← readPackets config directory names
    return (name, source) :: sources

/-- Packet sources that have been read from a directory. -/
def sourcesOf (config : Config) (directory : String)
    (read : List (String × Except String String)) : PacketSources where
  locate := fun name => join directory (config.sourceFileName name)
  read := fun name => (read.lookup name).getD (.error "not read")

/-- Writes the finished text where the options say. -/
def writeOutput (o : OutputOptions) (text : String) : m Exit :=
  match o.output with
  | none => return ⟨0, text, ""⟩
  | some path => do
    match ← host.writeFile path text with
    | .ok () => return ⟨0, "", ""⟩
    | .error e => return (Failure.ofError (.inaccessible path e)).exit

/-- The text that the packets command writes. -/
def packetsText (o : PacketsOptions) : m (Except Failure String) := do
  match ← readConfig host o.config with
  | .error f => return .error f
  | .ok config =>
    match ← readTable host o.ids config.idDeclarationSuffix with
    | .error f => return .error f
    | .ok (table, sources) =>
      match ← readTemplate host config with
      | .error f => return .error f
      | .ok batchTemplate =>
        let r : Run := { config, origin := o.ids, sources, table, batchTemplate }
        let needed := r.packetNames.filter (· ≠ config.batchPacket)
        let packets := sourcesOf config o.protocolDir
          (← readPackets host config o.protocolDir needed)
        let (outcomes, r) := r.outcomes packets
        match o.format with
        | .json => return .ok (Report.render r.table outcomes ++ "\n")
        | .go =>
          match Generated.writePacketsFile r outcomes with
          | .error p => return .error (.panicked p)
          | .ok text => return (← o.output.formatter.apply host text).mapError .ofError

/-- The text that the identifiers command writes. -/
def idsText (o : IdsOptions) : m (Except Failure String) := do
  match ← readTable host o.declarations o.declarationSuffix with
  | .error f => return .error f
  | .ok (table, _) =>
    match Generated.writeIdentifiersFile o.declarations o.package table
        ⟨o.typeName, o.repr, o.suffix⟩ with
    | .error p => return .error (.panicked p)
    | .ok text => return (← o.output.formatter.apply host text).mapError .ofError

/-- Writes a text, or fails. -/
def finish (o : OutputOptions) (text : Except Failure String) : m Exit :=
  match text with
  | .ok text => writeOutput host o text
  | .error f => return f.exit

/-- Runs a command. -/
def runCommand : Command → m Exit
  | .version => return ⟨0, version, ""⟩
  | .nothing => return Failure.exit (.reported "" "No subcommand is specified, see --help")
  | .packets o => do finish host o.output (← packetsText host o)
  | .ids o => do finish host o.output (← idsText host o)

/-- The end of a program whose arguments give no command. -/
def Refusal.exit : Refusal → Exit
  | .usage text => ⟨0, text ++ "\n", ""⟩
  | .fault f => ⟨1, "", f.message ++ "\nRun pmportc --help for more information.\n"⟩

/-- Runs the program. -/
def run (args : List String) : m Exit :=
  match parse args with
  | .error r => return r.exit
  | .ok c => runCommand host c

end

end CommandLine

end PacketGen
