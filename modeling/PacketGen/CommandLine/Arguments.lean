import PacketGen.CommandLine.Usage
import PacketGen.Text.Quoted

/-!
# Command-line arguments

Arguments are read from left to right and the first fault ends the reading. An option takes the
next argument as its value, whatever that is; `--help` or `help` asks for the usage, and is granted
only if what follows has no fault, but before anything required is missed.
-/

namespace PacketGen.CommandLine

/-- What is wrong with the arguments. -/
inductive ArgumentFault where
  | unrecognized (argument : String)
  | noValue (option : String)
  | badValue (option value reason : String)
  /-- An option behind a request for the usage. -/
  | afterHelp
  /-- Required arguments are missing. -/
  | missing (positionals options : List String)
deriving Repr, DecidableEq

namespace ArgumentFault

/-- A headline with indented lines, if there are any. -/
def listed (headline : String) : List String → String
  | [] => ""
  | names => headline ++ String.join (names.map ("\n    " ++ ·)) ++ "\n"

def message : ArgumentFault → String
  | unrecognized a => "Unrecognized argument: " ++ a ++ "\n"
  | noValue o => "No value provided for option '" ++ o ++ "'.\n"
  | badValue o v reason =>
    "Error parsing option '" ++ o ++ "' with value '" ++ v ++ "': " ++ reason ++ "\n"
  | afterHelp => "Trailing arguments are not allowed after `help`."
  | missing positionals options =>
    listed "Required positional arguments not provided:" positionals ++
      listed "Required options not provided:" options

end ArgumentFault

/-- Why the arguments give no command to run. -/
inductive Refusal where
  /-- The usage was asked for. -/
  | usage (text : String)
  | fault (f : ArgumentFault)
deriving Repr, DecidableEq

/-- The format of the output. -/
inductive OutputFormat where
  | go
  | json
deriving Repr, DecidableEq

namespace OutputFormat

/-- The format with the given name, in any case. -/
def ofName (name : String) : Except String OutputFormat :=
  let lower := name.map Char.toLower
  if lower = "go" then .ok .go
  else if lower = "json" then .ok .json
  else .error ("could not parse " ++ Text.quoted name ++ ", valid option are 'go', 'json'.")

end OutputFormat

/-- The arguments that a command takes. -/
structure Signature where
  /-- Options that take a value. -/
  options : List String
  /-- Options that take none. -/
  switches : List String
  /-- How many arguments are taken by position. -/
  positionals : Nat
  /-- Why the value of an option is refused. -/
  refuses : (option value : String) → Option String

/-- Arguments taken apart. -/
structure Given where
  values : List (String × String)
  switches : List String
  positionals : List String
  /-- The usage was asked for. -/
  help : Bool
  /-- No options follow. -/
  optionsEnded : Bool
deriving Repr, DecidableEq

namespace Given

def empty : Given := ⟨[], [], [], false, false⟩

def value? (g : Given) (option : String) : Option String := g.values.lookup option

end Given

/-- Whether an argument asks for the usage. -/
def asksHelp (argument : String) : Bool := argument = "--help" || argument = "help"

namespace Signature

/-- The value of an option entered among the arguments: once, and if it is not refused. -/
def enterValue (sig : Signature) (g : Given) (option value : String) :
    Except ArgumentFault Given :=
  if (g.value? option).isSome then .error (.badValue option value "duplicate values provided")
  else match sig.refuses option value with
    | some reason => .error (.badValue option value reason)
    | none => .ok { g with values := g.values ++ [(option, value)] }

/-- Takes arguments apart, after those in `g`. -/
def takeApart (sig : Signature) (g : Given) : List String → Except ArgumentFault Given
  | [] => .ok g
  | a :: rest =>
    if asksHelp a && !g.optionsEnded then sig.takeApart { g with help := true } rest
    else if a.startsWith "-" && !g.optionsEnded then
      if a = "--" then sig.takeApart { g with optionsEnded := true } rest
      else if g.help then .error .afterHelp
      else if a ∈ sig.switches then sig.takeApart { g with switches := a :: g.switches } rest
      else if a ∈ sig.options then
        match rest with
        | [] => .error (.noValue a)
        | value :: rest =>
          match sig.enterValue g a value with
          | .error e => .error e
          | .ok g => sig.takeApart g rest
      else .error (.unrecognized a)
    else if g.positionals.length < sig.positionals then
      sig.takeApart { g with positionals := g.positionals ++ [a] } rest
    else .error (.unrecognized a)

end Signature

/-- What is done with the generated text. -/
structure OutputOptions where
  /-- The file to write; without one the text is printed. -/
  output : Option String
  /-- The formatter is skipped. -/
  noFormat : Bool
  /-- Path of the formatter program. -/
  gofmt : Option String
deriving Repr, DecidableEq

/-- The command that generates packets. -/
structure PacketsOptions where
  protocolDir : String
  ids : String
  config : Option String
  format : OutputFormat
  output : OutputOptions
deriving Repr, DecidableEq

/-- The command that generates an identifier table. -/
structure IdsOptions where
  declarations : String
  typeName : String
  repr : String
  package : String
  suffix : String
  declarationSuffix : String
  output : OutputOptions
deriving Repr, DecidableEq

/-- What the program is asked to do. -/
inductive Command where
  | version
  | packets (o : PacketsOptions)
  | ids (o : IdsOptions)
  /-- No command was given. -/
  | nothing
deriving Repr, DecidableEq

namespace Given

/-- The options on the generated text. -/
def outputOptions (g : Given) : OutputOptions :=
  ⟨g.value? "--output", "--no-format" ∈ g.switches, g.value? "--gofmt"⟩

end Given

def packetsSignature : Signature where
  options := ["--ids", "--config", "--output", "--output-format", "--gofmt"]
  switches := ["--no-format"]
  positionals := 1
  refuses := fun option value =>
    if option = "--output-format" then
      match OutputFormat.ofName value with
      | .ok _ => none
      | .error reason => some reason
    else none

def idsSignature : Signature where
  options := ["--type-name", "--repr", "--package", "--suffix", "--declaration-suffix",
    "--output", "--gofmt"]
  switches := ["--no-format"]
  positionals := 1
  refuses := fun _ _ => none

/-- The names of things that are absent. -/
def missingNames (given : List (String × Option String)) : List String :=
  (given.filter (·.2.isNone)).map (·.1)

def parsePackets (args : List String) (help : Bool) : Except Refusal PacketsOptions :=
  match packetsSignature.takeApart { Given.empty with help } args with
  | .error f => .error (.fault f)
  | .ok g =>
    if g.help then .error (.usage packetsUsage)
    else match g.positionals.head?, g.value? "--ids" with
      | some protocolDir, some ids =>
        let format := match (g.value? "--output-format").map OutputFormat.ofName with
          | some (.ok f) => f
          | _ => .go
        .ok ⟨protocolDir, ids, g.value? "--config", format, g.outputOptions⟩
      | protocolDir, ids =>
        .error (.fault (.missing (missingNames [("protocol_dir", protocolDir)])
          (missingNames [("--ids", ids)])))

def parseIds (args : List String) (help : Bool) : Except Refusal IdsOptions :=
  match idsSignature.takeApart { Given.empty with help } args with
  | .error f => .error (.fault f)
  | .ok g =>
    if g.help then .error (.usage idsUsage)
    else match g.positionals.head? with
      | some declarations =>
        let text (option dflt : String) : String := (g.value? option).getD dflt
        .ok ⟨declarations, text "--type-name" "ID", text "--repr" "uint16",
          text "--package" "lav7", text "--suffix" "", text "--declaration-suffix" "",
          g.outputOptions⟩
      | none => .error (.fault (.missing ["declarations"] []))

/-- Reads the arguments of the program, after a request for the usage (`help`), the end of the
options (`ended`) or a request for the version (`version`). What comes behind the name of a command
is for the command; the request for the version is granted only if that has no fault. -/
def parseFrom (help ended version : Bool) : List String → Except Refusal Command
  | [] =>
    if help then .error (.usage usage) else .ok (if version then .version else .nothing)
  | a :: rest =>
    if asksHelp a && !ended then parseFrom true ended version rest
    else if a.startsWith "-" && !ended then
      if a = "--" then parseFrom help true version rest
      else if help then .error (.fault .afterHelp)
      else if a = "--version" then parseFrom help ended true rest
      else .error (.fault (.unrecognized a))
    else if a = "packets" then
      (parsePackets rest help).map fun o => if version then .version else .packets o
    else if a = "ids" then
      (parseIds rest help).map fun o => if version then .version else .ids o
    else .error (.fault (.unrecognized a))

/-- The command that the arguments of the program ask for. -/
def parse (args : List String) : Except Refusal Command := parseFrom false false false args

end PacketGen.CommandLine
