import PacketGen.Diagnostic.Layout
import PacketGen.Text.Blank
import PacketGen.Text.Width

/-!
# Snippets

A diagnostic as plain text: its header, and for each file the labelled lines with their numbers in
an outer gutter, the bars of labels over several lines in an inner gutter of two columns each, and
the carets and messages beneath.

    error[E5]: unbalanced brackets in class body
      ┌─ TestPacket.php:3:12
      │
    3 │ class Test {
      │            ^ this bracket is never closed
-/

namespace PacketGen

namespace LabelStyle

/-- The character that marks a label of this style within a line. -/
def caret : LabelStyle → Char
  | primary => '^'
  | secondary => '-'

/-- The character at either end of a label of this style over several lines. -/
def barEnd : LabelStyle → Char
  | primary => '^'
  | secondary => '\''

end LabelStyle

namespace Snippet

/-- A character of a line with its byte offset in the line and its width in columns. -/
structure Cell where
  offset : Nat
  width : Nat
  char : Char
deriving Repr, DecidableEq

/-- The cells of characters that start at the given byte offset and column. -/
def cells : (offset column : Nat) → List Char → List Cell
  | _, _, [] => []
  | offset, column, c :: cs =>
    let width := Text.widthAt column c
    ⟨offset, width, c⟩ :: cells (offset + c.utf8Size) (column + width) cs

def repeated (n : Nat) (c : Char) : String := .ofList (List.replicate n c)

/-- A line without the carriage returns and null characters at its end. -/
def visibleChars (line : List Char) : List Char :=
  Text.dropEndWhile (fun c => c == '\n' || c == '\r' || c == '\x00') line

/-- The drawn shape of a margin column without a bar. -/
def noBar : String := "  "

/-- A horizontal stroke through a margin column, if there is one. -/
def stroke (through : Bool) : String := if through then "──" else noBar

/-- A bar that goes down, crossed by a horizontal stroke or not. -/
def verticalBar (crossed : Bool) : String := if crossed then "─│" else " │"

/-- Bytes of the blanks that a line starts with. -/
def indentation (line : List Char) : Nat := Text.byteLength (line.takeWhile Text.isBlank)

/-- Whether a bar can start in front of the line, because only blanks precede its label. -/
def startsInFront (line : List Char) : BarPart → Bool
  | .top start => start ≤ indentation line
  | .through | .bottom .. => false

/-- Draws the margin columns from `column` to the last. The first mark that is left belongs to the
current column or a later one; `drawMark` draws it and gives the state for the columns behind it. -/
def margin {σ : Type} (drawMark : σ → BarMark → String × σ) (drawNone : σ → String) :
    (count column : Nat) → σ → List BarMark → String
  | 0, _, _, _ => ""
  | count + 1, column, s, [] => drawNone s ++ margin drawMark drawNone count (column + 1) s []
  | count + 1, column, s, m :: ms =>
    if m.column = column then
      let (drawn, s') := drawMark s m
      drawn ++ margin drawMark drawNone count (column + 1) s' ms
    else drawNone s ++ margin drawMark drawNone count (column + 1) s (m :: ms)

/-- The margin beside a source line. -/
def sourceMargin (line : List Char) (columns : Nat) (bars : List BarMark) : String :=
  margin (fun _ m => (match m.part with
    | .top _ => if startsInFront line m.part then " ╭" else noBar
    | .through | .bottom .. => verticalBar false, ())) (fun _ => noBar) columns 0 () bars

/-- The margin beside a line of marks. -/
def plainMargin (columns : Nat) (bars : List BarMark) : String :=
  margin (fun _ m => (match m.part with
    | .top _ => noBar
    | .through | .bottom .. => verticalBar false, ())) (fun _ => noBar) columns 0 () bars

/-- The margin of the line on which the bar in the column `target` turns towards its caret: bars
that open later or have closed already are not there, and the rest is crossed by the turning bar
once that has been drawn. -/
def turningMargin (target : Nat) (columns : Nat) (bars : List BarMark) : String :=
  margin (fun crossed m =>
    if m.column = target then
      (match m.part with
        | .top _ => " ╭"
        | .bottom .. => " ╰"
        | .through => verticalBar crossed, true)
    else
      (match m.part with
        | .through => verticalBar crossed
        | .top _ => if m.column < target then verticalBar crossed else stroke crossed
        | .bottom .. => if target < m.column then verticalBar crossed else stroke crossed,
        crossed)) stroke columns 0 false bars

/-- The outer gutter and the border beside a line without a number. -/
def border (padding : Nat) : String := repeated (padding + 1) ' ' ++ "│"

/-- The outer gutter and the border beside the line with the given number. -/
def numberedBorder (padding number : Nat) : String :=
  let digits := toString number
  repeated (padding - digits.length) ' ' ++ digits ++ " │"

/-- A source line as it is shown, with tabs spread to their width. -/
def shownText (line : List Char) : String :=
  String.join ((cells 0 0 line).map fun c =>
    if c.char = '\t' then repeated c.width ' ' else c.char.toString)

/-- Whether two byte ranges share a byte. -/
def overlap (aStart aStop bStart bStop : Nat) : Bool := max aStart bStart < min aStop bStop

/-- The stronger of several label styles. -/
def strongest (styles : List LabelStyle) : Option LabelStyle :=
  if .primary ∈ styles then some .primary else styles.head?

/-- The mark whose message is written behind the carets: the last one that reaches furthest, if it
has a message and overlaps no other mark. Given by its position. -/
def trailing? (carets : List CaretMark) : Option Nat :=
  let candidate := (carets.zipIdx.foldl (fun (stop, found) (m, i) =>
    if stop ≤ m.stop then (m.stop, if m.message = "" then none else some i)
    else (stop, found)) (0, none)).2
  candidate.filter fun i =>
    match carets[i]? with
    | none => false
    | some m => carets.zipIdx.all fun (n, j) =>
      j == i || !overlap m.start m.stop n.start n.stop

/-- The marks whose messages hang below the carets. -/
def hanging (carets : List CaretMark) (trailing : Option Nat) : List CaretMark :=
  (carets.zipIdx.filter fun (m, i) => m.message ≠ "" && trailing ≠ some i).map (·.1)

/-- The carets beneath a line, and behind its end for marks that reach there. -/
def caretLine (line : List Char) (carets : List CaretMark) : String :=
  let furthest := carets.foldl (fun n m => max n m.stop) 0
  let atEnd : Cell := ⟨Text.byteLength line, 1, '\x00'⟩
  String.join ((cells 0 0 line ++ [atEnd]).map fun c =>
    let marks := carets.filter fun m =>
      overlap m.start m.stop c.offset (c.offset + c.char.utf8Size)
    match strongest (marks.map (·.style)) with
    | some style => repeated c.width style.caret
    | none => if c.offset < furthest then repeated c.width ' ' else "")

/-- Vertical strokes beneath the starts of hanging marks. -/
def pointerLine (carets : List CaretMark) (marks : List CaretMark) (cs : List Cell) : String :=
  let lastStart := carets.foldl (fun n m => max n m.start) 0
  String.join (cs.map fun c =>
    let pointed := marks.any fun m => c.offset ≤ m.start && m.start < c.offset + c.char.utf8Size
    let spaces := if c.offset ≤ lastStart then repeated (c.width - pointed.toNat) ' ' else ""
    if pointed then "│" ++ spaces else spaces)

/-- The lines of carets and messages beneath a source line. -/
def caretLines (padding columns : Nat) (line : List Char) (carets : List CaretMark)
    (bars : List BarMark) : String :=
  if carets = [] then ""
  else
    let edge := border padding ++ plainMargin columns bars ++ " "
    let trailing := trailing? carets
    let message := match trailing.bind (carets[·]?) with
      | some m => " " ++ m.message
      | none => ""
    let marks := hanging carets trailing
    let cs := cells 0 0 line
    let messages := marks.reverse.map fun m =>
      edge ++ pointerLine carets marks (cs.takeWhile (·.offset < m.start)) ++ m.message ++ "\n"
    edge ++ caretLine line carets ++ message ++ "\n" ++
      (if marks = [] then "" else edge ++ pointerLine carets marks cs ++ "\n") ++
      String.join messages

/-- The stroke from the margin to a caret: over the characters before byte `stop`. -/
def strokeTo (stop : Nat) (line : List Char) : String :=
  String.join (((cells 0 0 line).takeWhile (·.offset < stop)).map fun c => repeated c.width '─')

/-- The line on which a bar turns towards its caret; nothing where it needs none. -/
def turningLine (padding columns : Nat) (line : List Char) (bars : List BarMark)
    (m : BarMark) : String :=
  let edge := border padding ++ turningMargin m.column columns bars
  match m.part with
  | .through => ""
  | .top start =>
    if startsInFront line m.part then ""
    else edge ++ strokeTo (start + 1) line ++ m.style.barEnd.toString ++ "\n"
  | .bottom stop message =>
    edge ++ strokeTo stop line ++ m.style.barEnd.toString ++
      (if message = "" then "" else " " ++ message) ++ "\n"

/-- A source line with everything beneath it. -/
def sourceLine (padding columns : Nat) (file : SourceFile) (index : Nat)
    (carets : List CaretMark) (bars : List BarMark) : String :=
  let line := visibleChars (file.line index).chars
  numberedBorder padding (index + 1) ++ sourceMargin line columns bars ++ " " ++
    shownText line ++ "\n" ++
    caretLines padding columns line carets bars ++
    String.join (bars.map (turningLine padding columns line bars))

/-- What stands between two shown lines: nothing between neighbours, the line itself where one is
left out, and a break for more. -/
def between (padding : Nat) (s : FileLayout) (a b : MarkedLine) : String :=
  if b.index = a.index + 1 then ""
  else if b.index = a.index + 2 then
    let bars := match s.lines.find? (·.index == a.index + 1) with
      | some l => l.bars
      | none => []
    sourceLine padding s.columns s.file (a.index + 1) [] bars
  else repeated (padding + 1) ' ' ++ "·" ++ plainMargin s.columns a.bars ++ "\n"

/-- The shown lines of a file with what stands between them. -/
def shownLines (padding : Nat) (s : FileLayout) : List MarkedLine → String
  | [] => ""
  | [a] => sourceLine padding s.columns s.file a.index a.carets a.bars
  | a :: b :: ls =>
    sourceLine padding s.columns s.file a.index a.carets a.bars ++ between padding s a b ++
      shownLines padding s (b :: ls)

/-- A border line without anything beside it. -/
def emptyLine (padding columns : Nat) : String :=
  border padding ++ plainMargin columns [] ++ "\n"

/-- The part of the snippet that belongs to one file. -/
def fileSnippet (padding : Nat) (s : FileLayout) : String :=
  let (line, column) := s.position
  repeated (padding + 1) ' ' ++ "┌─ " ++ s.file.name ++ ":" ++ toString line ++ ":" ++
    toString column ++ "\n" ++ emptyLine padding s.columns ++
    shownLines padding s (s.lines.filter (·.shown))

/-- The parts of all files, with a border line between them. -/
def fileSnippets (padding : Nat) : List FileLayout → String
  | [] => ""
  | [s] => fileSnippet padding s
  | s :: ss => fileSnippet padding s ++ emptyLine padding s.columns ++ fileSnippets padding ss

/-- Digits of the greatest line number. -/
def paddingOf (layouts : List FileLayout) : Nat :=
  (layouts.flatMap (·.lines)).foldl (fun n l => max n (toString (l.index + 1)).length) 0

end Snippet

/-- Why a diagnostic cannot be shown with snippets. -/
inductive SnippetError where
  /-- A label points into a file that is not among the sources. -/
  | fileMissing
deriving Repr, DecidableEq

namespace SnippetError

def message : SnippetError → String
  | fileMissing => "file missing"

end SnippetError

namespace Diagnostic

def header (d : Diagnostic) : String := "error[" ++ d.code.render ++ "]: " ++ d.message ++ "\n"

/-- A diagnostic with its snippets. -/
def show? (sources : Sources) (d : Diagnostic) : Except SnippetError String :=
  match FileLayout.ofLabels? sources d.labels with
  | none => .error .fileMissing
  | some layouts =>
    .ok (d.header ++ Snippet.fileSnippets (Snippet.paddingOf layouts) layouts ++ "\n")

/-- A diagnostic as text; only its message when a label cannot be resolved. -/
def render (sources : Sources) (d : Diagnostic) : String :=
  match d.show? sources with
  | .ok text => text
  | .error _ => d.message

/-- Several diagnostics, one below the other. -/
def emit (sources : Sources) (ds : List Diagnostic) : Except SnippetError String :=
  (ds.mapM (show? sources)).map String.join

end Diagnostic

end PacketGen
