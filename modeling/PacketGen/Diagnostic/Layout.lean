import PacketGen.Diagnostic.Basic
import PacketGen.SourceFile

/-!
# Layout of labelled lines

Which lines of which files a diagnostic shows, and which marks belong to each line. Files come in
the order in which labels first name them, lines ascending.

A label within one line becomes carets beneath it. A label over several lines gets a column of its
own at the left margin, where it is drawn down from its first line to its last; of the lines
between, only the three after the first and the one before the last are sure to be shown.
-/

namespace PacketGen

/-- The marks of a label within one line, by byte offsets into that line. -/
structure CaretMark where
  style : LabelStyle
  start : Nat
  stop : Nat
  message : String
deriving Repr, DecidableEq

/-- The part of a label over several lines that one of its lines holds. -/
inductive BarPart where
  /-- The label starts at byte `start` of this line. -/
  | top (start : Nat)
  | through
  /-- The label ends at byte `stop` of this line. -/
  | bottom (stop : Nat) (message : String)
deriving Repr, DecidableEq

/-- A label over several lines, as one of its lines sees it. -/
structure BarMark where
  /-- The column of the margin that the label is drawn in. -/
  column : Nat
  style : LabelStyle
  part : BarPart
deriving Repr, DecidableEq

/-- A labelled line. -/
structure MarkedLine where
  index : Nat
  /-- By start and stop. A mark is entered before the mark of the same range that a binary search
  meets (`CaretMark.position`). -/
  carets : List CaretMark
  /-- By column. -/
  bars : List BarMark
  shown : Bool
deriving Repr, DecidableEq

/-- The labelled lines of one file. -/
structure FileLayout where
  number : Nat
  file : SourceFile
  /-- The label whose start is given as the position in this file. -/
  head : Label
  /-- How many labels over several lines there are. -/
  columns : Nat
  /-- Ascending by index. -/
  lines : List MarkedLine
deriving Repr, DecidableEq

/-- How many lines behind the first of a label over several lines are shown. -/
def contextAfterStart : Nat := 3

/-- How many lines before the last of a label over several lines are shown. -/
def contextBeforeEnd : Nat := 1

namespace CaretMark

/-- Whether the range of `a` comes before that of `b`. -/
def before (a b : CaretMark) : Bool :=
  a.start < b.start || (a.start == b.start && a.stop < b.stop)

/-- Where a binary search for the range of `m` ends in `ms`, when the position is known to be
`low` or one of the `size - 1` after it. The search halves `size` until it is one. -/
def searchFrom (ms : List CaretMark) (m : CaretMark) : (fuel low size : Nat) → Nat
  | 0, low, _ => low
  | fuel + 1, low, size =>
    if size ≤ 1 then low
    else
      let middle := low + size / 2
      let low := match ms[middle]? with
        | some x => if m.before x then low else middle
        | none => low
      searchFrom ms m fuel low (size - size / 2)

/-- The position at which `m` is entered among marks that are in order. -/
def position (ms : List CaretMark) (m : CaretMark) : Nat :=
  let low := searchFrom ms m ms.length 0 ms.length
  match ms[low]? with
  | some x => if x.before m then low + 1 else low
  | none => low

end CaretMark

namespace MarkedLine

def addCaret (l : MarkedLine) (m : CaretMark) : MarkedLine :=
  { l with carets := l.carets.insertIdx (CaretMark.position l.carets m) m, shown := true }

def addBar (l : MarkedLine) (m : BarMark) (shown : Bool) : MarkedLine :=
  { l with bars := l.bars ++ [m], shown := l.shown || shown }

end MarkedLine

namespace FileLayout

/-- Changes the line with the given index, which is entered if it is not there yet. -/
def modifyLine (index : Nat) (f : MarkedLine → MarkedLine) : List MarkedLine → List MarkedLine
  | [] => [f ⟨index, [], [], false⟩]
  | l :: ls =>
    if index < l.index then f ⟨index, [], [], false⟩ :: l :: ls
    else if index = l.index then f l :: ls
    else l :: modifyLine index f ls

/-- Enters a label that lies within the line with the given index. -/
def addCaret (s : FileLayout) (index : Nat) (l : Label) : FileLayout :=
  let lineStart := (s.file.line index).start
  let start := l.span.start - lineStart
  let mark : CaretMark := ⟨l.style, start, max (l.span.stop - lineStart) (start + 1), l.message⟩
  { s with lines := modifyLine index (·.addCaret mark) s.lines }

/-- Enters a label that reaches from line `first` to another line `last`. -/
def addBar (s : FileLayout) (first last : Nat) (l : Label) : FileLayout :=
  let column := s.columns
  let top := BarPart.top (l.span.start - (s.file.line first).start)
  let bottom := BarPart.bottom (l.span.stop - (s.file.line last).start) l.message
  let lines := modifyLine first (·.addBar ⟨column, l.style, top⟩ true) s.lines
  let lines := (List.range' (first + 1) (last - first - 1)).foldl (fun lines index =>
    modifyLine index (·.addBar ⟨column, l.style, .through⟩
      (index - first ≤ contextAfterStart || last - index ≤ contextBeforeEnd)) lines) lines
  let lines := modifyLine last (·.addBar ⟨column, l.style, bottom⟩ true) lines
  { s with columns := column + 1, lines }

/-- Whether the position of a file is taken from `l` rather than from `head`: a primary label goes
before a secondary one, and an earlier start before a later one. -/
def leads (l head : Label) : Bool :=
  (l.style == .primary && head.style == .secondary) ||
    (l.style == head.style && l.span.start < head.span.start)

/-- Enters a label of this file. -/
def add (s : FileLayout) (l : Label) : FileLayout :=
  let s := if leads l s.head then { s with head := l } else s
  let first := s.file.lineIndex l.span.start
  let last := s.file.lineIndex l.span.stop
  if first = last then s.addCaret first l else s.addBar first last l

/-- The layout of a file whose first label is `l`. -/
def start (file : SourceFile) (l : Label) : FileLayout := add ⟨l.file, file, l, 0, []⟩ l

/-- Enters a label that points into `file`. -/
def insert (file : SourceFile) (l : Label) : List FileLayout → List FileLayout
  | [] => [start file l]
  | s :: ss => if s.number = l.file then s.add l :: ss else s :: insert file l ss

/-- The layouts of the files that labels point into; `none` when a file is missing. -/
def ofLabels? (sources : Sources) (labels : List Label) : Option (List FileLayout) :=
  labels.foldlM (fun layouts l => (sources.file? l.file).map (insert · l layouts)) []

/-- The line and column, both from 1, that stand for the labels of the file. -/
def position (s : FileLayout) : Nat × Nat :=
  let index := s.file.lineIndex s.head.span.start
  (index + 1, s.file.column index s.head.span.start)

end FileLayout

end PacketGen
