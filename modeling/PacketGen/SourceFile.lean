import PacketGen.Text.Lines
import PacketGen.Text.Offset

/-!
# Source files

The files that labels point into, numbered in the order in which they were added. A number, once
given, keeps its file: adding only appends.
-/

namespace PacketGen

/-- A named text. -/
structure SourceFile where
  name : String
  text : String
deriving Repr, DecidableEq

/-- A line of a source file without its line feed. -/
structure NumberedLine where
  /-- Byte offset of the line. -/
  start : Nat
  chars : List Char
deriving Repr, DecidableEq

namespace NumberedLine

/-- Pieces of a text as lines, the first of which starts at byte `start`. -/
def ofPieces : (start : Nat) → List (List Char) → List NumberedLine
  | _, [] => []
  | start, l :: ls => ⟨start, l⟩ :: ofPieces (start + Text.byteLength l + 1) ls

/-- How many of the characters end at most `offset` bytes into the text. -/
def charsWithin (offset : Nat) : List Char → Nat
  | [] => 0
  | c :: cs => if c.utf8Size ≤ offset then charsWithin (offset - c.utf8Size) cs + 1 else 0

end NumberedLine

namespace SourceFile

/-- The lines of a file: one more than it has line feeds. -/
def lines (f : SourceFile) : List NumberedLine :=
  NumberedLine.ofPieces 0 (Text.splitLines f.text.toList)

/-- Index of the line that holds the byte `offset`; the last line when it is past the end. -/
def lineIndex (f : SourceFile) (offset : Nat) : Nat :=
  (f.lines.takeWhile (·.start ≤ offset)).length - 1

/-- The line with the given index, or an empty one past the last. -/
def line (f : SourceFile) (index : Nat) : NumberedLine := f.lines.getD index ⟨0, []⟩

/-- Column, from 1, of the byte `offset` in the line with the given index. -/
def column (f : SourceFile) (index offset : Nat) : Nat :=
  let l := f.line index
  NumberedLine.charsWithin (offset - l.start) l.chars + 1

end SourceFile

/-- Numbered source files. -/
structure Sources where
  files : List SourceFile
deriving Repr, DecidableEq

namespace Sources

def empty : Sources := ⟨[]⟩

/-- The number that the next file will get. -/
def next (s : Sources) : Nat := s.files.length

def add (s : Sources) (f : SourceFile) : Sources := ⟨s.files ++ [f]⟩

def file? (s : Sources) (number : Nat) : Option SourceFile := s.files[number]?

@[simp] theorem file?_add_next (s : Sources) (f : SourceFile) :
    (s.add f).file? s.next = some f := by
  simp [add, file?, next]

/-- Adding a file leaves every number with the file it has. -/
theorem file?_add {s : Sources} {n : Nat} {f : SourceFile} (g : SourceFile)
    (h : s.file? n = some f) : (s.add g).file? n = some f := by
  unfold file? add at *
  rw [List.getElem?_append_left (List.getElem?_eq_some_iff.1 h).1]
  exact h

end Sources

end PacketGen
