import PacketGen.CommandLine.Run
import PacketGen.Host.Script
import PacketGen.Text.Utf8

/-!
# The program

The command line on the real system. Files are read and written by path; a formatter program is a
script that is read and carried out here (`PacketGen.Script`), and is named by its path.
-/

namespace PacketGen.CommandLine

/-- The reason behind a failure of the system, if it is one that the program tells apart. -/
def fileError? : IO.Error → Option FileError
  | .noFileOrDirectory .. => some .notFound
  | .permissionDenied .. => some .permissionDenied
  | .inappropriateType _ code _ => some (if code = 21 then .isDirectory else .notDirectory)
  | _ => none

/-- Does something to the system and tells a failure as text, its reason changed by `f`. -/
def attempt {α : Type} (f : FileError → FileError) (action : IO α) : IO (Except String α) := do
  match ← action.toBaseIO with
  | .ok a => return .ok a
  | .error e =>
    match fileError? e with
    | some reason => return .error (f reason).message
    | none => return .error (toString e)

/-- The real system as a host. -/
def systemHost : Host IO where
  readFile := fun path =>
    return (← attempt id (IO.FS.readBinFile path)).bind fun bytes =>
      (Text.decode bytes.toList).mapError fun _ => FileError.notText.message
  writeFile := fun path content => attempt id (IO.FS.writeBinFile path content.toUTF8)
  pipe := fun program text => do
    if program.contains '/' then
      return (← attempt FileError.ofProgram (IO.FS.readBinFile program)).bind fun bytes =>
        match Script.ofBytes bytes.toList with
        | .ok script => Script.pipe program script text
        | .error e => .error e.message
    else return .error FileError.notFound.message

end PacketGen.CommandLine

/-- Runs the command that the arguments ask for. -/
def main (args : List String) : IO UInt32 := do
  let exit ← PacketGen.CommandLine.run PacketGen.CommandLine.systemHost args
  IO.print exit.stdout
  IO.eprint exit.stderr
  return exit.status.toUInt32
