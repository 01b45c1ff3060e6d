import PacketGen.Comment
import PacketGen.Diagnostic.Basic
import PacketGen.IdTable.Basic
import PacketGen.SourceFile
import PacketGen.Text.Pascal

/-!
# Building an identifier table

The lines of a declaration file that declare a constant are entered one after the other. A name
that is declared again with its old value is passed over; with another value it is a conflict.
Every conflict is reported, and so is a file without any declaration.
-/

namespace PacketGen

namespace Declaration

/-- The name without the required ending; `none` when it ends otherwise or nothing is left. -/
def stem? (suffix name : List Char) : Option (List Char) :=
  if suffix.isSuffixOf name && suffix.length < name.length then
    some (name.take (name.length - suffix.length))
  else none

/-- The declaration on a line: of a constant whose name ends in `suffix`, which is dropped before
the name changes case. -/
def ofLine? (suffix : String) (line : SourceLine) : Option Declaration := do
  let c ← Constant.parse? line.text
  let stem ← stem? suffix.toList c.name.toList
  return ⟨Text.upperToPascal (.ofList stem), c.value, line.span⟩

/-- The declarations on lines, in order. -/
def ofLines (suffix : String) (lines : List SourceLine) : List Declaration :=
  lines.filterMap (ofLine? suffix)

end Declaration

/-- Why declarations do not make a table. -/
inductive TableFault where
  /-- A name is declared again with another value. -/
  | conflict (later first : Declaration)
  /-- An alias does not lead to its declared value. -/
  | inconsistentAlias (a : Alias)
  /-- Nothing is declared. -/
  | empty
deriving Repr, DecidableEq

namespace TableFault

def code : TableFault → ErrorCode
  | conflict .. => .duplicateIdentifier
  | inconsistentAlias _ => .inconsistentAlias
  | empty => .emptyIdTable

def message : TableFault → String
  | conflict later first =>
    "redeclaration of `" ++ later.name ++ "` with value " ++ toString later.value ++
      ", previously " ++ toString first.value
  | inconsistentAlias a =>
    "alias `" ++ a.name ++ "` does not resolve to its declared value through `" ++ a.canonical ++
      "`"
  | empty => "no identifier declaration found"

/-- The labels of a fault in the given file. -/
def labels (file : Nat) : TableFault → List Label
  | conflict later first =>
    [.primary file later.span "",
      .secondary file first.span ("`" ++ later.name ++ "` is first declared here")]
  | inconsistentAlias a => [.primary file a.span ""]
  | empty => [.primary file ⟨0, 0⟩ ""]

/-- The diagnostic of a fault in the given file. -/
def diagnostic (file : Nat) (f : TableFault) : Diagnostic := ⟨f.code, f.message, f.labels file⟩

end TableFault

namespace IdTable

/-- A table under construction, with the conflicts met so far. -/
structure Draft where
  table : IdTable
  conflicts : List TableFault

namespace Draft

def empty : Draft := ⟨IdTable.empty, []⟩

/-- Enters one declaration. -/
def enter (s : Draft) (d : Declaration) : Draft :=
  match s.table.declaration? d.name with
  | none => { s with table := s.table.declare d }
  | some first =>
    if first.value = d.value then s
    else { s with conflicts := s.conflicts ++ [.conflict d first] }

def ofDeclarations (ds : List Declaration) : Draft := ds.foldl enter empty

/-- The aliases that do not lead to their declared value. -/
def inconsistencies (s : Draft) : List TableFault :=
  (s.table.aliases.filter fun a => s.table.resolve? a.name ≠ s.table.value? a.name).map
    .inconsistentAlias

/-- Everything that is wrong with a finished draft. -/
def faults (s : Draft) : List TableFault :=
  let found := s.conflicts ++ s.inconsistencies
  if found = [] ∧ s.table.canonical = [] then [.empty] else found

end Draft

/-- The table of the declarations, or all their faults. -/
def ofDeclarations (ds : List Declaration) : Except (List TableFault) IdTable :=
  let s := Draft.ofDeclarations ds
  if s.faults = [] then .ok s.table else .error s.faults

/-- The table of the lines that declare a name ending in `suffix`. -/
def build (suffix : String) (lines : List SourceLine) : Except (List TableFault) IdTable :=
  ofDeclarations (Declaration.ofLines suffix lines)

/-- The table of a source text. -/
def ofSource (suffix source : String) : Except (List TableFault) IdTable :=
  build suffix (SourceLine.ofSource source.toList)

/-- Enters a declaration file among the sources and builds its table. -/
def load (sources : Sources) (file : SourceFile) (suffix : String) :
    Except (List Diagnostic) IdTable × Sources :=
  ((ofSource suffix file.text).mapError (·.map (·.diagnostic sources.next)), sources.add file)

end IdTable

end PacketGen
