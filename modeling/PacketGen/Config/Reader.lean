import PacketGen.Config.Basic
import PacketGen.Json.Reader
import PacketGen.Run.Error

/-!
# Settings as JSON

`Config.toJson` writes all settings out and `Config.ofJson` reads them back. A text may leave any
setting out, which then has its default, and may hold further keys, which are passed over; a
setting may not be given twice. Of the type of the identifiers the name and the integer type are
required once it is given at all.
-/

namespace PacketGen

namespace IdType

/-- The type of the identifiers as far as it has been read. -/
structure Draft where
  name : Option String
  repr : Option String
  suffix : String

namespace Draft

/-- The finished type; `name` is missed first. -/
def complete (d : Draft) : Except Json.Fault IdType :=
  match d.name, d.repr with
  | none, _ => .error (.missingKey "name")
  | some _, none => .error (.missingKey "repr")
  | some name, some repr => .ok ⟨name, repr, d.suffix⟩

/-- The finished type when it was given by position. -/
def completeItems (count : Nat) (d : Draft) : Except Json.Fault IdType :=
  match d.name, d.repr with
  | some name, some repr => .ok ⟨name, repr, d.suffix⟩
  | _, _ => .error (.invalidLength count "struct IdType with 3 elements")

end Draft

/-- A setting whose value is a string. -/
def textSetting (key : String) (set : String → Draft → Draft) : Json.Setting Draft :=
  ⟨key, do return set (← Json.text)⟩

/-- How the type of the identifiers is read. -/
def record : Json.Record Draft IdType where
  expected := "struct IdType"
  settings := [
    textSetting "name" fun v d => { d with name := some v },
    textSetting "repr" fun v d => { d with repr := some v },
    textSetting "suffix" fun v d => { d with suffix := v }]
  initial := ⟨none, none, ""⟩
  ofKeys := Draft.complete
  ofItems := Draft.completeItems

def toJson (t : IdType) : Json :=
  .object [("name", .string t.name), ("repr", .string t.repr), ("suffix", .string t.suffix)]

end IdType

namespace Config

/-- A setting whose value is a string. -/
def textSetting (key : String) (set : String → Config → Config) : Json.Setting Config :=
  ⟨key, do return set (← Json.text)⟩

/-- A setting whose value is a list of strings. -/
def textsSetting (key : String) (set : List String → Config → Config) : Json.Setting Config :=
  ⟨key, do return set (← Json.listOf Json.text)⟩

/-- How settings are read. -/
def record : Json.Record Config Config where
  expected := "struct Config"
  settings := [
    textSetting "package" fun v c => { c with package := v },
    textsSetting "imports" fun v c => { c with imports := v },
    textsSetting "template_imports" fun v c => { c with templateImports := v },
    textsSetting "base_classes" fun v c => { c with baseClasses := v },
    textSetting "reserved_constant" fun v c => { c with reservedConstant := v },
    textSetting "encode_procedure" fun v c => { c with encodeProcedure := v },
    textSetting "decode_procedure" fun v c => { c with decodeProcedure := v },
    textSetting "source_extension" fun v c => { c with sourceExtension := v },
    textSetting "id_declaration_suffix" fun v c => { c with idDeclarationSuffix := v },
    ⟨"id_type", do
      let v ← IdType.record.read
      return fun c => { c with idType := v }⟩,
    textSetting "batch_packet" fun v c => { c with batchPacket := v },
    ⟨"batch_template", do
      let v ← Json.optional (Json.stringAs "path string")
      return fun c => { c with batchTemplate := v }⟩]
  initial := Config.default
  ofKeys := .ok
  ofItems := fun _ c => .ok c

/-- The settings that a text gives. -/
def ofJson (source : String) : Except RunError Config :=
  (Json.readAll record.read source).mapError fun e => .config (e.message source)

def listToJson (xs : List String) : Json := .array (xs.map .string)

/-- All settings as JSON. -/
def toJson (c : Config) : Json :=
  .object [("package", .string c.package), ("imports", listToJson c.imports),
    ("template_imports", listToJson c.templateImports),
    ("base_classes", listToJson c.baseClasses),
    ("reserved_constant", .string c.reservedConstant),
    ("encode_procedure", .string c.encodeProcedure),
    ("decode_procedure", .string c.decodeProcedure),
    ("source_extension", .string c.sourceExtension),
    ("id_declaration_suffix", .string c.idDeclarationSuffix),
    ("id_type", c.idType.toJson), ("batch_packet", .string c.batchPacket),
    ("batch_template", match c.batchTemplate with
      | some path => .string path
      | none => .null)]

end Config

end PacketGen
