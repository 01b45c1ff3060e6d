import PacketGen.Primitive
import PacketGen.Statement

/-!
# Fields

A procedure, read as the sequence of fields it transfers. A length prefix and the raw bytes it
announces are one field: the call that transfers the bytes is folded into the prefix right before
it. Statements that are no transfer of a known shape are kept word for word.
-/

namespace PacketGen

/-- One field of a packet, in wire order. -/
inductive Field where
  /-- A value of a primitive type. -/
  | value (type : Primitive) (name : String)
  /-- Raw bytes behind a length prefix of the given type. -/
  | bytes (lengthType : Primitive) (name : String)
  /-- A statement that was not recognised. -/
  | unknown (statement : String)
deriving Repr, DecidableEq

namespace Field

/-- The name of the member transferred, or the statement that was not recognised. -/
def name : Field → String
  | value _ n | bytes _ n | unknown n => n

/-- The kind of field as it is shown: `Byte`, `LengthOf_Int` or `Unknown`. -/
def kindTag : Field → String
  | value t _ => t.tag
  | bytes t _ => "LengthOf_" ++ t.tag
  | unknown _ => "Unknown"

def isRecognized : Field → Bool
  | value .. | bytes .. => true
  | unknown _ => false

end Field

namespace Accessor

/-- The primitive type that an accessor transfers. -/
def primitive? (a : Accessor) : Option Primitive := a.tag.bind Primitive.ofTag?

/-- The type of a length prefix that an accessor transfers. -/
def lengthType? (a : Accessor) : Option Primitive := a.primitive?.filter Primitive.isInteger

end Accessor

/-- What one statement adds to the fields of a procedure. -/
inductive Transfer where
  | field (f : Field)
  /-- The raw bytes announced by the field right before. -/
  | folded
  /-- Nothing is transferred. -/
  | silent
  | unrecognized
deriving Repr, DecidableEq

namespace Transfer

/-- The transfer of a call that stands alone, when `announced` names the member whose raw bytes
are still to come. -/
def ofCall (announced : Option String) : Call → Transfer
  | .ofField a name =>
    match a.tag with
    | none => if announced = some name then .folded else .unrecognized
    | some _ => match a.primitive? with
      | some t => .field (.value t name)
      | none => .unrecognized
  | .ofLength a name =>
    match a.lengthType? with
    | some t => .field (.bytes t name)
    | none => .unrecognized
  | .bare _ | .ofCall .. => .unrecognized

/-- The transfer of a call whose result is assigned to the member `name`. -/
def ofAssignment (name : String) : Call → Transfer
  | .bare a =>
    match a.primitive? with
    | some t => .field (.value t name)
    | none => .unrecognized
  | .ofCall ⟨_, none⟩ (.bare length) =>
    match length.lengthType? with
    | some t => .field (.bytes t name)
    | none => .unrecognized
  | .ofCall .. | .ofField .. | .ofLength .. => .unrecognized

def ofStatement (announced : Option String) : Statement → Transfer
  | .reset => .silent
  | .call c => ofCall announced c
  | .assign name c => ofAssignment name c

/-- The transfer of a statement's text. -/
def ofText (announced : Option String) (text : String) : Transfer :=
  match Statement.parse text with
  | .ok s => ofStatement announced s
  | .error _ => .unrecognized

end Transfer

namespace Field

/-- The member whose raw bytes a field announces. -/
def announces : Field → Option String
  | bytes _ name => some name
  | value .. | unknown _ => none

/-- The fields that statements transfer when `announced` names the member whose raw bytes are
still to come. -/
def ofStatementsFrom : (announced : Option String) → List String → List Field
  | _, [] => []
  | announced, text :: texts =>
    if text = "" then ofStatementsFrom announced texts
    else match Transfer.ofText announced text with
      | .field f => f :: ofStatementsFrom f.announces texts
      | .folded => ofStatementsFrom none texts
      | .silent => ofStatementsFrom announced texts
      | .unrecognized => unknown text :: ofStatementsFrom none texts

/-- The fields of a procedure, in wire order. -/
def ofStatements (texts : List String) : List Field := ofStatementsFrom none texts

end Field

end PacketGen
