import PacketGen.Diagnostic.Basic

/-!
# Faults of a packet source

Why a packet could not be generated from its source. The diagnostic of a fault differs from file
to file only in the file number of its labels.
-/

namespace PacketGen

/-- The part of a packet class that a bracket opens. -/
inductive BracketRole where
  | classBody
  | parameters
  | procedure (name : String)
deriving Repr, DecidableEq

namespace BracketRole

def describe : BracketRole → String
  | classBody => "class body"
  | parameters => "procedure parameters"
  | procedure name => "procedure `" ++ name ++ "`"

end BracketRole

/-- A count of the fields that a procedure transfers, and where its body is. -/
structure FieldCount where
  procedure : String
  body : Span
  count : Nat
deriving Repr, DecidableEq

/-- Why a packet could not be generated. -/
inductive PacketFault where
  /-- No class extends one of the base classes. -/
  | noClass (bases : List String)
  /-- No brace follows the base class name that ends at `index`. -/
  | noClassBody (index : Nat)
  /-- The bracket at `index` is never closed. -/
  | unclosed (role : BracketRole) (index : Nat)
  /-- The procedure declared at `declaration` has no body. -/
  | noProcedureBody (name : String) (declaration : Span)
  /-- Both procedures transfer fields, but not equally many. -/
  | asymmetric (written read : FieldCount)
  /-- The source file could not be read. -/
  | unreadable (fileName reason : String)
deriving Repr, DecidableEq

namespace PacketFault

def code : PacketFault → ErrorCode
  | noClass _ | noClassBody _ => .missingPacketClass
  | unclosed .. => .unbalancedBrackets
  | noProcedureBody .. => .missingProcedureBody
  | asymmetric .. => .asymmetricProcedures
  | unreadable .. => .unreadableSource

def message : PacketFault → String
  | noClass bases => "no class extending " ++ " or ".intercalate bases ++ " found"
  | noClassBody _ => "packet class has no body"
  | unclosed role _ => "unbalanced brackets in " ++ role.describe
  | noProcedureBody name _ => "procedure `" ++ name ++ "` is declared without a body"
  | asymmetric written read =>
    "`" ++ written.procedure ++ "` writes " ++ toString written.count ++ " fields but `" ++
      read.procedure ++ "` reads " ++ toString read.count
  | unreadable fileName reason => "cannot read " ++ fileName ++ ": " ++ reason

/-- The labels of a fault in the given file. -/
def labels (file : Nat) : PacketFault → List Label
  | noClass _ => [.primary file ⟨0, 0⟩ ""]
  | noClassBody index => [.primary file ⟨index, index⟩ ""]
  | unclosed _ index => [.primary file ⟨index, index + 1⟩ "this bracket is never closed"]
  | noProcedureBody _ declaration => [.primary file declaration ""]
  | asymmetric written read =>
    [.primary file written.body (toString written.count ++ " fields written here"),
      .secondary file read.body (toString read.count ++ " fields read here")]
  | unreadable .. => []

/-- The diagnostic of a fault in the given file. -/
def diagnostic (file : Nat) (f : PacketFault) : Diagnostic := ⟨f.code, f.message, f.labels file⟩

end PacketFault

end PacketGen
