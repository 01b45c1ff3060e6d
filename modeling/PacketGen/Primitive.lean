/-!
# Primitive types

The types that the buffer of the generated code reads and writes.
-/

namespace PacketGen

/-- A primitive type of the buffer; a leading `L` means little-endian. -/
inductive Primitive where
  | bool
  | byte
  | short
  | lshort
  | int
  | lint
  | long
  | llong
  | float
  | double
  | triad
  | ltriad
  | string
deriving Repr, DecidableEq

namespace Primitive

/-- Every primitive type. -/
def all : List Primitive :=
  [bool, byte, short, lshort, int, lint, long, llong, float, double, triad, ltriad, string]

/-- The tag that names the type in accessors. -/
def tag : Primitive → String
  | bool => "Bool"
  | byte => "Byte"
  | short => "Short"
  | lshort => "LShort"
  | int => "Int"
  | lint => "LInt"
  | long => "Long"
  | llong => "LLong"
  | float => "Float"
  | double => "Double"
  | triad => "Triad"
  | ltriad => "LTriad"
  | string => "String"

/-- The type with the given tag. -/
def ofTag? (tag : String) : Option Primitive := all.find? (·.tag == tag)

/-- Whether the type can carry a length prefix. -/
def isInteger : Primitive → Bool
  | bool | float | double | string => false
  | byte | short | lshort | int | lint | long | llong | triad | ltriad => true

/-- The type in generated code of a value that is read. -/
def valueType : Primitive → String
  | bool => "bool"
  | byte => "byte"
  | short | lshort => "uint16"
  | int | lint | triad | ltriad => "uint32"
  | long | llong => "uint64"
  | float => "float32"
  | double => "float64"
  | string => "string"

theorem mem_all (p : Primitive) : p ∈ all := by cases p <;> decide

@[simp] theorem ofTag?_tag (p : Primitive) : ofTag? p.tag = some p := by cases p <;> rfl

theorem tag_of_ofTag? {tag : String} {p : Primitive} (h : ofTag? tag = some p) : p.tag = tag := by
  simpa using List.find?_some h

end Primitive

end PacketGen
