/-!
# Settings

Everything a run can be told. Each setting has a default, which suits the sources of the game
server and the buffer of the generated package.
-/

namespace PacketGen

/-- The type of the identifiers in generated code. -/
structure IdType where
  /-- Name of the generated type. -/
  name : String
  /-- The integer type beneath it. -/
  repr : String
  /-- Ending of every identifier constant. -/
  suffix : String
deriving Repr, DecidableEq, Inhabited

namespace IdType

/-- Name of the identifier constant for `name`. -/
def constant (t : IdType) (name : String) : String := name ++ t.suffix

end IdType

/-- The settings of a run. -/
structure Config where
  /-- Package of the generated file. -/
  package : String
  /-- Import paths of the generated file. -/
  imports : List String
  /-- Import paths that only the container template needs. -/
  templateImports : List String
  /-- Base classes that mark a class as a packet. -/
  baseClasses : List String
  /-- Class constant that holds the packet's identifier and is not generated. -/
  reservedConstant : String
  encodeProcedure : String
  decodeProcedure : String
  /-- Extension of the packet source files. -/
  sourceExtension : String
  /-- Ending of the declarations that name packets. -/
  idDeclarationSuffix : String
  idType : IdType
  /-- The packet that is written from the container template. -/
  batchPacket : String
  /-- File with another container template than the built-in one. -/
  batchTemplate : Option String
deriving Repr, DecidableEq

namespace IdType

def default : IdType := ⟨"PacketID", "byte", "Head"⟩

end IdType

namespace Config

def default : Config where
  package := "lav7"
  imports := ["github.com/L7-MCPE/lav7/util/buffer"]
  templateImports := ["github.com/L7-MCPE/lav7/util"]
  baseClasses := ["DataPacket"]
  reservedConstant := "NETWORK_ID"
  encodeProcedure := "encode"
  decodeProcedure := "decode"
  sourceExtension := "php"
  idDeclarationSuffix := "_PACKET"
  idType := IdType.default
  batchPacket := "Batch"
  batchTemplate := none

/-- Name of the source file of the packet `name`. -/
def sourceFileName (c : Config) (name : String) : String :=
  name ++ "Packet." ++ c.sourceExtension

end Config

end PacketGen
