/-!
# The host of a command

What a command needs of the system it runs on: to read and write files by path and to pass a text
through a formatter program. The command line is written over any host, so that one definition runs
on the real system and on a file tree in memory.
-/

namespace PacketGen

/-- Why a file cannot be used. -/
inductive FileError where
  | notFound
  | permissionDenied
  | notExecutable
  | notDirectory
  | isDirectory
  | nameTooLong
  | notText
  | nullInPath
deriving Repr, DecidableEq

namespace FileError

/-- The reason why a program cannot be run: a directory may not be run. -/
def ofProgram : FileError → FileError
  | isDirectory => permissionDenied
  | e => e

/-- The reason as the system tells it. -/
def message : FileError → String
  | notFound => "No such file or directory (os error 2)"
  | notExecutable => "Exec format error (os error 8)"
  | permissionDenied => "Permission denied (os error 13)"
  | notDirectory => "Not a directory (os error 20)"
  | isDirectory => "Is a directory (os error 21)"
  | nameTooLong => "File name too long (os error 36)"
  | notText => "stream did not contain valid UTF-8"
  | nullInPath => "file name contained an unexpected NUL byte"

end FileError

/-- What a command can do to the system. Failures are told as text. -/
structure Host (m : Type → Type) where
  readFile : (path : String) → m (Except String String)
  writeFile : (path content : String) → m (Except String Unit)
  /-- Passes a text through the program at a path. -/
  pipe : (program text : String) → m (Except String String)

/-- How a command ends. -/
structure Exit where
  status : Nat
  stdout : String
  stderr : String
deriving Repr, DecidableEq

end PacketGen
