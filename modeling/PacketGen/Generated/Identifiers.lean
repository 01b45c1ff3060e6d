import PacketGen.Config.Basic
import PacketGen.IdTable.SlotVector
import PacketGen.Text.CamelCase

/-!
# The identifier block

The type of the identifiers, their constants, the constants of the aliases, and the two lookup
tables between names and identifiers.

Only the first line of the enumeration has an expression; every later line repeats it with the
next line index. `EnumLine.evaluate` is that reading, and the note behind each line is the value
it must come to.
-/

namespace PacketGen.Generated

/-- An expression in the index of the line it stands on: the index moved by `offset`. -/
structure LineIndex where
  offset : Int
deriving Repr, DecidableEq

namespace LineIndex

/-- The value on the line with the given index. -/
def evaluate (e : LineIndex) (line : Nat) : Int := line + e.offset

def render (e : LineIndex) : String :=
  if e.offset = 0 then "iota"
  else if 0 < e.offset then "iota + " ++ toString e.offset
  else "iota - " ++ toString e.offset.natAbs

end LineIndex

/-- A line of the enumeration. The note is the comment behind it. -/
inductive EnumLine where
  /-- The line that gives the type and the expression. -/
  | opening (constant type : String) (expression : LineIndex) (note : Int)
  | named (constant : String) (note : Int)
  | blank (note : Int)
deriving Repr, DecidableEq

namespace EnumLine

/-- The constant that the line declares. -/
def constant? : EnumLine → Option String
  | opening c .. | named c _ => some c
  | blank _ => none

def note : EnumLine → Int
  | opening _ _ _ n | named _ n | blank n => n

/-- The values of the lines of a block, from the given line index on, when the last expression was
`e`. -/
def evaluate (e : LineIndex) : (line : Nat) → List EnumLine → List Int
  | _, [] => []
  | line, opening _ _ e' _ :: ls => e'.evaluate line :: evaluate e' (line + 1) ls
  | line, _ :: ls => e.evaluate line :: evaluate e (line + 1) ls

def render : EnumLine → String
  | opening c type e n =>
    "\t" ++ c ++ " " ++ type ++ " = " ++ e.render ++ " // " ++ toString n ++ "\n"
  | named c n => "\t" ++ c ++ " // " ++ toString n ++ "\n"
  | blank n => "\t_ // " ++ toString n ++ "\n"

/-- The line of a slot behind the first. -/
def ofSlot (t : IdType) : Slot → EnumLine
  | .named entry => named (t.constant entry.name) entry.value
  | .placeholder value => blank value

/-- The lines of a slot sequence. -/
def ofSlots (t : IdType) : List Slot → List EnumLine
  | .named entry :: slots =>
    opening (t.constant entry.name) t.name ⟨entry.value⟩ entry.value :: slots.map (ofSlot t)
  | slots => slots.map (ofSlot t)

end EnumLine

/-- A constant block, or nothing for no lines. -/
def constantBlock (lines : List String) : String :=
  if lines = [] then "" else "const (\n" ++ String.join lines ++ ")\n\n"

/-- The type of the identifiers with its `String` method. -/
def identifierType (t : IdType) (stem : String) : String :=
  "// " ++ t.name ++ " is a declared numeric identifier.\n" ++
    "type " ++ t.name ++ " " ++ t.repr ++ "\n\n" ++
    "// String returns the declared name of the identifier.\n" ++
    "func (id " ++ t.name ++ ") String() string \x7b\n" ++
    "\tif name, ok := " ++ stem ++ "Names[id]; ok \x7b\n" ++
    "\t\treturn name\n\t\x7d\n\treturn \"Unknown\"\n\x7d\n\n"

/-- The constants of the canonical names, one line for every slot. -/
def enumeration (slots : List Slot) (t : IdType) : String :=
  constantBlock ((EnumLine.ofSlots t slots).map EnumLine.render)

/-- The constants of the aliases, each equal to that of its canonical name. -/
def aliasConstants (table : IdTable) (t : IdType) : String :=
  constantBlock (table.aliases.map fun a =>
    "\t" ++ t.constant a.name ++ " = " ++ t.constant a.canonical ++ "\n")

/-- Every declared name, canonical ones first. -/
def declaredNames (table : IdTable) : List String :=
  table.canonical.map (·.name) ++ table.aliases.map (·.name)

/-- The lookup table from names to identifiers. -/
def valuesTable (table : IdTable) (t : IdType) (stem : String) : String :=
  "var " ++ stem ++ "Values = map[string]" ++ t.name ++ "\x7b\n" ++
    String.join ((declaredNames table).map fun n =>
      "\t\"" ++ n ++ "\": " ++ t.constant n ++ ",\n") ++ "\x7d\n\n"

/-- The lookup table from identifiers to canonical names. -/
def namesTable (table : IdTable) (t : IdType) (stem : String) : String :=
  "var " ++ stem ++ "Names = map[" ++ t.name ++ "]string\x7b\n" ++
    String.join (table.canonical.map fun c =>
      "\t" ++ t.constant c.name ++ ": \"" ++ c.name ++ "\",\n") ++ "\x7d\n\n"

/-- The function that looks a name up. -/
def lookupFunction (t : IdType) (stem : String) : String :=
  "// " ++ t.name ++ "FromString returns the identifier declared as name.\n" ++
    "func " ++ t.name ++ "FromString(name string) (" ++ t.name ++ ", bool) \x7b\n" ++
    "\tid, ok := " ++ stem ++ "Values[name]\n\treturn id, ok\n\x7d\n\n"

/-- The identifier block of a table with the given slots. -/
def identifierBlock (slots : List Slot) (table : IdTable) (t : IdType) : String :=
  let stem := Text.lowerCamel t.name
  identifierType t stem ++ enumeration slots t ++ aliasConstants table t ++
    valuesTable table t stem ++ namesTable table t stem ++ lookupFunction t stem

/-- The identifier block of a table. -/
def identifiers (table : IdTable) (t : IdType) : String := identifierBlock table.slots table t

/-- The identifier block as the program writes it, from the slots that it can collect. -/
def writeIdentifiers (table : IdTable) (t : IdType) : Except Panic String := do
  return identifierBlock (← table.collectSlots) table t

end PacketGen.Generated
