import PacketGen.Field
import PacketGen.PacketClass

/-!
# Packets

What is generated for one packet: its constants and its fields in wire order. The fields are those
that the encoding procedure writes, or those that the decoding procedure reads where the first one
writes none. When both have fields they must recognise equally many.
-/

namespace PacketGen

/-- One packet to generate. -/
structure Packet where
  name : String
  constants : List Constant
  /-- The fields in wire order. -/
  fields : List Field
deriving Repr, DecidableEq

namespace Procedure

/-- The fields of a procedure; none when there is no procedure. -/
def fields (p : Option Procedure) : List Field :=
  match p with
  | none => []
  | some p => Field.ofStatements p.statements

end Procedure

namespace Field

/-- How many of the fields are recognised. -/
def recognizedCount (fields : List Field) : Nat := fields.countP Field.isRecognized

end Field

namespace Packet

/-- The fault of a class whose procedures both have fields but recognise different numbers of
them. -/
def asymmetry? (config : Config) (c : PacketClass) : Option PacketFault := do
  let encode ← c.encode
  let decode ← c.decode
  let written := Field.ofStatements encode.statements
  let read := Field.ofStatements decode.statements
  if written ≠ [] ∧ read ≠ [] ∧ Field.recognizedCount written ≠ Field.recognizedCount read then
    some (.asymmetric ⟨config.encodeProcedure, encode.span, Field.recognizedCount written⟩
      ⟨config.decodeProcedure, decode.span, Field.recognizedCount read⟩)
  else none

/-- The fields of a class: those written, or those read where none is written. -/
def fieldsOf (c : PacketClass) : List Field :=
  let written := Procedure.fields c.encode
  if written = [] then Procedure.fields c.decode else written

/-- The packet `name` with the given source. -/
def analyze (config : Config) (name source : String) : Except PacketFault Packet := do
  let c ← PacketClass.extract config source
  match asymmetry? config c with
  | some fault => .error fault
  | none => .ok ⟨name, c.constants, fieldsOf c⟩

end Packet

end PacketGen
