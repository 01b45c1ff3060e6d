import PacketGen.Config.Basic
import PacketGen.Packet
import PacketGen.Text.CamelCase

/-!
# The code of one packet

The constants of the packet, its struct, and the three methods that make it a packet. The bodies of
the methods that read and write are kept as data first (`ReadLine`, `WriteLine`), so that what they
do can be told without taking their text apart.
-/

namespace PacketGen.Generated

/-- The smallest unsigned type that holds a value, or the widest signed one below zero. -/
def constantType (value : Int) : String :=
  if value < 0 then "int64"
  else if value ≤ 0xFF then "byte"
  else if value ≤ 0xFFFF then "uint16"
  else if value ≤ 0xFFFFFFFF then "uint32"
  else "uint64"

/-- Name of a constant of a packet. -/
def constantName (packet constant : String) : String := packet ++ constant

/-- The methods of every packet; no member may have their names. -/
def methodNames : List String := ["Pid", "Read", "Write"]

/-- The exported member name of a field. -/
def memberName (field : String) : String :=
  let name := Text.upperCamel field
  if name = "" then "Field"
  else if name ∈ methodNames then name ++ "_"
  else name

/-- A member of a struct. -/
structure Member where
  name : String
  type : String
deriving Repr, DecidableEq

namespace Member

/-- The member that a recognised field needs. -/
def ofField? : Field → Option Member
  | .value type name => some ⟨memberName name, type.valueType⟩
  | .bytes _ name => some ⟨memberName name, "[]byte"⟩
  | .unknown _ => none

/-- The members of which no earlier one has the name, when `seen` are the names before. -/
def firstOfName (seen : List String) : List Member → List Member
  | [] => []
  | m :: ms =>
    if m.name ∈ seen then firstOfName seen ms else m :: firstOfName (m.name :: seen) ms

/-- The members of a packet, by first appearance; the first field of a name decides its type. -/
def ofFields (fields : List Field) : List Member := firstOfName [] (fields.filterMap ofField?)

end Member

/-- The comment that keeps a statement that was not recognised. -/
def unexpected (statement : String) : String := "\t// Unexpected code: " ++ statement ++ "\n"

/-- A line of the method that reads. -/
inductive ReadLine where
  /-- Reads a value into a member. -/
  | value (member : String) (type : Primitive)
  /-- Reads a length and then as many bytes into a member. -/
  | bytes (member : String) (lengthType : Primitive)
  | comment (statement : String)
deriving Repr, DecidableEq

namespace ReadLine

def ofField : Field → ReadLine
  | .value type name => value (memberName name) type
  | .bytes lengthType name => bytes (memberName name) lengthType
  | .unknown statement => comment statement

def render : ReadLine → String
  | value member type => "\ti." ++ member ++ " = buf.Read" ++ type.tag ++ "()\n"
  | bytes member type =>
    "\ti." ++ member ++ " = buf.Read(uint32(buf.Read" ++ type.tag ++ "()))\n"
  | comment statement => unexpected statement

end ReadLine

/-- A line of the method that writes. -/
inductive WriteLine where
  /-- Writes the value of a member. -/
  | value (type : Primitive) (member : String)
  /-- Writes how many bytes a member holds. -/
  | length (type : Primitive) (member : String)
  /-- Writes the bytes of a member. -/
  | bytes (member : String)
  | comment (statement : String)
deriving Repr, DecidableEq

namespace WriteLine

def ofField : Field → List WriteLine
  | .value type name => [value type (memberName name)]
  | .bytes lengthType name => [length lengthType (memberName name), bytes (memberName name)]
  | .unknown statement => [comment statement]

def render : WriteLine → String
  | value type member => "\tbuf.Write" ++ type.tag ++ "(i." ++ member ++ ")\n"
  | length type member =>
    "\tbuf.Write" ++ type.tag ++ "(" ++ type.valueType ++ "(len(i." ++ member ++ ")))\n"
  | bytes member => "\tbuf.Write(i." ++ member ++ ")\n"
  | comment statement => unexpected statement

end WriteLine

/-- The constants of a packet. -/
def packetConstants (p : Packet) : String :=
  if p.constants = [] then ""
  else
    "const (\n" ++ String.join (p.constants.map fun c =>
      "\t" ++ constantName p.name c.name ++ " " ++ constantType c.value ++ " = " ++
        toString c.value ++ "\n") ++ ")\n\n"

/-- The struct of a packet. -/
def packetStruct (p : Packet) : String :=
  let members := Member.ofFields p.fields
  if members = [] then "type " ++ p.name ++ " struct\x7b\x7d\n\n"
  else
    "type " ++ p.name ++ " struct \x7b\n" ++
      String.join (members.map fun m => "\t" ++ m.name ++ " " ++ m.type ++ "\n") ++ "\x7d\n\n"

/-- The method that tells the identifier of a packet. -/
def pidMethod (p : Packet) (t : IdType) : String :=
  "// Pid implements Packet interface.\n" ++
    "func (i " ++ p.name ++ ") Pid() " ++ t.name ++ " \x7b return " ++ t.constant p.name ++
    " \x7d\n\n"

def readBody (fields : List Field) : List ReadLine := fields.map ReadLine.ofField

/-- The method that reads a packet. -/
def readMethod (p : Packet) : String :=
  let head := "// Read implements Packet interface.\n" ++
    "func (i *" ++ p.name ++ ") Read(buf *buffer.Buffer) \x7b"
  if p.fields = [] then head ++ "\x7d\n\n"
  else head ++ "\n" ++ String.join ((readBody p.fields).map ReadLine.render) ++ "\x7d\n\n"

def writeBody (fields : List Field) : List WriteLine := fields.flatMap WriteLine.ofField

/-- The method that writes a packet. -/
def writeMethod (p : Packet) : String :=
  "// Write implements Packet interface.\n" ++
    "func (i " ++ p.name ++ ") Write() *buffer.Buffer \x7b\n" ++
    "\tbuf := new(buffer.Buffer)\n" ++
    String.join ((writeBody p.fields).map WriteLine.render) ++
    "\treturn buf\n\x7d\n\n"

/-- The code of a packet. -/
def packetCode (p : Packet) (t : IdType) : String :=
  packetConstants p ++ packetStruct p ++ pidMethod p t ++ readMethod p ++ writeMethod p

end PacketGen.Generated
