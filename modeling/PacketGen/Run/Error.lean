import PacketGen.Diagnostic.Basic

/-!
# Fatal errors

What ends a run without output. Faults of single packets are none of these; they stay in the
packet's outcome.
-/

namespace PacketGen

/-- Why a run ended without output. -/
inductive RunError where
  /-- A file could not be read or written. -/
  | inaccessible (path reason : String)
  /-- The configuration was rejected. -/
  | config (reason : String)
  /-- The identifier declarations are faulty. -/
  | declarations (faults : List Diagnostic)
  /-- The formatter program failed. -/
  | formatter (program reason : String)
deriving Repr, DecidableEq

namespace RunError

def message : RunError → String
  | inaccessible path reason => "cannot access " ++ path ++ ": " ++ reason
  | config reason => "invalid configuration: " ++ reason
  | declarations faults => "invalid identifier declarations: " ++ Diagnostic.summary faults
  | formatter program reason => "formatter `" ++ program ++ "` failed: " ++ reason

end RunError

end PacketGen
