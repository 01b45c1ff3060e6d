import PacketGen.Text.Blank
import PacketGen.Text.Lines
import PacketGen.Text.Offset

/-!
# Comments

`blankComments` replaces every byte of a comment by a space and keeps the line feeds, so that what
is left stands at its old byte offset and on its old line. A character of `n` bytes becomes `n`
spaces.

Line comments open with two slashes or a hash and end before the line feed. Block comments open
with `/*` and end with the first `*/` behind that; the star of the opener does not count.
-/

namespace PacketGen

/-- Where a scan for comments stands. -/
inductive CommentScan where
  | code
  | lineComment
  /-- Before the star of a block opener. -/
  | blockOpener
  | block
  /-- Before the slash of a block closer. -/
  | blockCloser
deriving Repr, DecidableEq

/-- The spaces that take the place of a character. -/
def blanked (c : Char) : List Char := List.replicate c.utf8Size ' '

namespace CommentScan

/-- Whether the text opens a line comment. -/
def opensLine : List Char → Bool
  | '#' :: _ => true
  | '/' :: '/' :: _ => true
  | _ => false

/-- Whether the text opens a block comment. -/
def opensBlock : List Char → Bool
  | '/' :: '*' :: _ => true
  | _ => false

/-- Whether the text closes a block comment. -/
def closesBlock : List Char → Bool
  | '*' :: '/' :: _ => true
  | _ => false

/-- Blanks the comments of a text that is entered in the given state. -/
def blank : CommentScan → List Char → List Char
  | _, [] => []
  | .code, c :: cs =>
    if opensLine (c :: cs) then blanked c ++ blank .lineComment cs
    else if opensBlock (c :: cs) then blanked c ++ blank .blockOpener cs
    else c :: blank .code cs
  | .lineComment, c :: cs =>
    if c = '\n' then c :: blank .code cs else blanked c ++ blank .lineComment cs
  | .blockOpener, c :: cs => blanked c ++ blank .block cs
  | .block, c :: cs =>
    if c = '\n' then c :: blank .block cs
    else if closesBlock (c :: cs) then blanked c ++ blank .blockCloser cs
    else blanked c ++ blank .block cs
  | .blockCloser, c :: cs => blanked c ++ blank .code cs

end CommentScan

/-- The text with its comments blanked out. -/
def blankComments (source : List Char) : List Char := CommentScan.blank .code source

@[simp] theorem byteLength_blanked (c : Char) : Text.byteLength (blanked c) = c.utf8Size := by
  have space : Char.utf8Size ' ' = 1 := rfl
  simp [blanked, space]

/-- A scan keeps the number of bytes, whatever state it is entered in. -/
theorem CommentScan.byteLength_blank (s : CommentScan) (cs : List Char) :
    Text.byteLength (s.blank cs) = Text.byteLength cs := by
  fun_induction CommentScan.blank s cs <;> simp_all

/-- Blanking comments keeps the number of bytes, and so every offset behind a comment. -/
theorem byteLength_blankComments (source : List Char) :
    Text.byteLength (blankComments source) = Text.byteLength source :=
  CommentScan.byteLength_blank .code source

/-- A trimmed line with its byte offset. -/
structure SourceLine where
  start : Nat
  text : List Char
deriving Repr, DecidableEq

namespace SourceLine

/-- The byte range of the line. -/
def span (l : SourceLine) : Span := ⟨l.start, l.start + Text.byteLength l.text⟩

/-- Trims the pieces of a text that starts at byte `start`, each followed by one line feed, and
keeps those that are not blank. -/
def ofPieces : (start : Nat) → List (List Char) → List SourceLine
  | _, [] => []
  | start, piece :: pieces =>
    let rest := ofPieces (start + Text.byteLength piece + 1) pieces
    let text := Text.trim piece
    if text = [] then rest
    else ⟨start + Text.byteLength (piece.takeWhile Text.isBlank), text⟩ :: rest

/-- The lines of a source that hold more than blanks and comments. -/
def ofSource (source : List Char) : List SourceLine :=
  ofPieces 0 (Text.splitLines (blankComments source))

end SourceLine

end PacketGen
