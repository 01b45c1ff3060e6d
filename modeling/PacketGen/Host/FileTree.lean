import PacketGen.Host.Basic
import PacketGen.Host.Script
import PacketGen.Text.Utf8

/-!
# File trees

A host in memory: files by path, and every proper beginning of a path is a directory. Nothing lies
outside of the tree. Formatter programs are scripts of the tree.
-/

namespace PacketGen

/-- A file with its path below the working directory. -/
structure FileEntry where
  path : List String
  content : List UInt8
  executable : Bool
deriving Repr, DecidableEq

/-- Files, one per path. -/
structure FileTree where
  entries : List FileEntry
deriving Repr, DecidableEq

namespace FileTree

/-- The tree without files. -/
def empty : FileTree := ⟨[]⟩

/-- What stands at a path. -/
inductive Node where
  | directory
  | file (entry : FileEntry)
deriving Repr, DecidableEq

/-- The file or directory at a path, if there is one. -/
def node? (t : FileTree) (path : List String) : Option Node :=
  match t.entries.find? (·.path == path) with
  | some e => some (.file e)
  | none =>
    if path = [] || t.entries.any (fun e => path.isPrefixOf e.path) then some .directory else none

/-- The tree with one file added, in the place of the one at its path. -/
def insert (t : FileTree) (e : FileEntry) : FileTree :=
  ⟨t.entries.filter (·.path != e.path) ++ [e]⟩

/-- The tree of some files. Of two files with one path the later counts. -/
def ofList (entries : List FileEntry) : FileTree := entries.foldl insert empty

/-- The parts of a path between slashes. -/
def partsOf (path : String) : List String :=
  ((path.toList.splitOn '/').filter (· ≠ [])).map String.ofList

/-- The most bytes that a part of a path can have. -/
def partLimit : Nat := 255

/-- The most bytes that a path can have. -/
def pathLimit : Nat := 4095

/-- Follows parts of a path from a directory on. Every part but the last has to be a directory.
Above the root there are directories, but nothing can be found in them. -/
def walk (t : FileTree) : (current : List String) → List String → Except FileError (List String)
  | current, [] => .ok current
  | current, part :: parts =>
    match t.node? current with
    | none => .error .notFound
    | some (.file _) => .error .notDirectory
    | some .directory =>
      if part.utf8ByteSize > partLimit then .error .nameTooLong
      else if part = "." then t.walk current parts
      else if part = ".." then
        if current = [] then .error (if parts = [] then .isDirectory else .notFound)
        else t.walk current.dropLast parts
      else t.walk (current ++ [part]) parts

/-- The place that a path names, where there may be nothing. A path from the root of the system
leads out of the tree. -/
def resolve (t : FileTree) (path : String) : Except FileError (List String) :=
  if '\x00' ∈ path.toList then .error .nullInPath
  else if path = "" then .error .notFound
  else if path.utf8ByteSize > pathLimit then .error .nameTooLong
  else if path.startsWith "/" then
    .error (if partsOf path = [] then .isDirectory else .notFound)
  else t.walk [] (partsOf path)

/-- The file at a path. -/
def file (t : FileTree) (path : String) : Except FileError FileEntry := do
  match t.node? (← t.resolve path) with
  | none => .error .notFound
  | some .directory => .error .isDirectory
  | some (.file e) => if path.endsWith "/" then .error .notDirectory else .ok e

/-- The text of the file at a path. -/
def read (t : FileTree) (path : String) : Except FileError String := do
  let e ← t.file path
  (Text.decode e.content).mapError fun _ => .notText

/-- The entries with the content of one file changed, or with a new file. -/
def setContent (path : List String) (content : List UInt8) : List FileEntry → List FileEntry
  | [] => [⟨path, content, false⟩]
  | e :: es =>
    if e.path = path then { e with content } :: es else e :: setContent path content es

/-- The tree with the file at a path written. A path that ends in a slash names a directory. -/
def write (t : FileTree) (path content : String) : Except FileError FileTree := do
  let place ← t.resolve path
  if path.endsWith "/" || t.node? place = some .directory then .error .isDirectory
  else .ok ⟨setContent place (Text.encode content) t.entries⟩

/-- The script at a path. Programs without a slash are looked for in no directory. -/
def program (t : FileTree) (path : String) : Except FileError String := do
  if '/' ∉ path.toList then .error .notFound
  let e ← (t.file path).mapError FileError.ofProgram
  if e.executable then Script.ofBytes e.content else .error .permissionDenied

/-- Passes a text through the formatter script at a path. -/
def pipe (t : FileTree) (path text : String) : Except String String :=
  match t.program path with
  | .error e => .error e.message
  | .ok script => Script.pipe path script text

/-- The host that a tree is, with the given formatter programs. -/
def host (programs : String → String → Except String String) : Host (StateM FileTree) where
  readFile path := return ((← get).read path).mapError FileError.message
  writeFile path content := do
    match (← get).write path content with
    | .error e => return .error e.message
    | .ok t =>
      set t
      return .ok ()
  pipe program text := return programs program text

/-- The host that a tree is, with its own scripts as formatter programs. -/
def ownHost (t : FileTree) : Host (StateM FileTree) := host t.pipe

end FileTree

end PacketGen
