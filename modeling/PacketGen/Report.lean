import PacketGen.Json.Basic
import PacketGen.Run.Basic

/-!
# Reports

The identifier table and the outcomes of a run as JSON. Nothing is left out but the places of the
aliases.
-/

namespace PacketGen.Report

def ofConstant (c : Constant) : Json :=
  .object [("name", .string c.name), ("value", .number c.value)]

def ofAlias (a : Alias) : Json :=
  .object [("name", .string a.name), ("canonical", .string a.canonical)]

def ofTable (t : IdTable) : Json :=
  .object [("canonical", .array (t.canonical.map ofConstant)),
    ("aliases", .array (t.aliases.map ofAlias))]

/-- The kind of a field; the statement of one that is not recognised is its name. -/
def fieldKind : Field → Json
  | .value type _ => .object [("kind", .string "Primitive"), ("type", .string type.tag)]
  | .bytes type _ => .object [("kind", .string "LengthOf"), ("type", .string type.tag)]
  | .unknown _ => .object [("kind", .string "Unknown")]

def ofField (f : Field) : Json := .object [("kind", fieldKind f), ("name", .string f.name)]

def ofOption : Option String → Json
  | some s => .string s
  | none => .null

def ofOutcome : Outcome → Json
  | .generated p => .object [("outcome", .string "generated"), ("name", .string p.name),
      ("constants", .array (p.constants.map ofConstant)),
      ("fields", .array (p.fields.map ofField))]
  | .template name => .object [("outcome", .string "template"), ("name", .string name)]
  | .fallback f => .object [("outcome", .string "fallback"), ("name", .string f.name),
      ("file_name", .string f.fileName), ("code", ofOption f.code),
      ("diagnostic", .string f.diagnostic), ("source", ofOption f.source)]

/-- The report on a table and outcomes. -/
def ofRun (table : IdTable) (outcomes : List Outcome) : Json :=
  .object [("ids", ofTable table), ("packets", .array (outcomes.map ofOutcome))]

/-- The report as text. -/
def render (table : IdTable) (outcomes : List Outcome) : String := (ofRun table outcomes).render

end PacketGen.Report
