import PacketGen.Text.Offset

/-!
# Reading JSON: positions and faults

A reader walks a text with a cursor and stops at the first fault. What a fault is reported at is a
byte offset: either that of the cursor, or one byte further where the character ahead is to blame.
Line and column are worked out from the offset at the end; columns count bytes.
-/

namespace PacketGen.Json

/-- What is wrong with a text that is read. -/
inductive Fault where
  | eofInList
  | eofInObject
  | eofInString
  | eofInValue
  | expectedColon
  | expectedListEnd
  | expectedObjectEnd
  | expectedWord
  | expectedValue
  | invalidEscape
  | invalidNumber
  | numberOutOfRange
  | controlCharacter
  | keyNotString
  | loneSurrogate
  | trailingComma
  | trailingCharacters
  | unfinishedSurrogate
  /-- A value of another type than the setting needs. -/
  | invalidType (found expected : String)
  | missingKey (key : String)
  | duplicateKey (key : String)
  /-- A list of this many items where more are needed. -/
  | invalidLength (length : Nat) (expected : String)
deriving Repr, DecidableEq

namespace Fault

def message : Fault → String
  | eofInList => "EOF while parsing a list"
  | eofInObject => "EOF while parsing an object"
  | eofInString => "EOF while parsing a string"
  | eofInValue => "EOF while parsing a value"
  | expectedColon => "expected `:`"
  | expectedListEnd => "expected `,` or `]`"
  | expectedObjectEnd => "expected `,` or `\x7d`"
  | expectedWord => "expected ident"
  | expectedValue => "expected value"
  | invalidEscape => "invalid escape"
  | invalidNumber => "invalid number"
  | numberOutOfRange => "number out of range"
  | controlCharacter => "control character (\\u0000-\\u001F) found while parsing a string"
  | keyNotString => "key must be a string"
  | loneSurrogate => "lone leading surrogate in hex escape"
  | trailingComma => "trailing comma"
  | trailingCharacters => "trailing characters"
  | unfinishedSurrogate => "unexpected end of hex escape"
  | invalidType found expected => "invalid type: " ++ found ++ ", expected " ++ expected
  | missingKey key => "missing field `" ++ key ++ "`"
  | duplicateKey key => "duplicate field `" ++ key ++ "`"
  | invalidLength length expected =>
    "invalid length " ++ toString length ++ ", expected " ++ expected

end Fault

/-- A fault with the byte offset that it is reported at. -/
structure Misread where
  fault : Fault
  offset : Nat
deriving Repr, DecidableEq

/-- The rest of a text, and how many bytes came before. -/
structure Cursor where
  rest : List Char
  offset : Nat
deriving Repr, DecidableEq

namespace Cursor

def start (text : List Char) : Cursor := ⟨text, 0⟩

/-- The cursor behind the next `count` characters. -/
def advance (c : Cursor) (count : Nat) : Cursor :=
  ⟨c.rest.drop count, c.offset + Text.byteLength (c.rest.take count)⟩

/-- The cursor behind the longest run of characters that satisfy `p`. -/
def skip (c : Cursor) (p : Char → Bool) : Cursor := c.advance (c.rest.takeWhile p).length

/-- The cursor at the end of the text. -/
def finish (c : Cursor) : Cursor := c.advance c.rest.length

end Cursor

/-- White space between the parts of a text. -/
def isSpace (c : Char) : Bool := c == ' ' || c == '\n' || c == '\t' || c == '\r'

/-- A reader of values of one type. -/
abbrev Reader (α : Type) := Cursor → Except Misread (α × Cursor)

namespace Reader

/-- A reader that takes nothing and gives `a`. -/
def result {α : Type} (a : α) : Reader α := fun c => .ok (a, c)

/-- One reader after the other; the second may depend on what the first gave. -/
def thenDo {α β : Type} (r : Reader α) (f : α → Reader β) : Reader β := fun c =>
  match r c with
  | .error e => .error e
  | .ok (a, c) => f a c

instance : Monad Reader where
  pure := result
  bind := thenDo

/-- A fault reported at the cursor. -/
def fail {α : Type} (f : Fault) : Reader α := fun c => .error ⟨f, c.offset⟩

/-- A fault of the character ahead, reported one byte behind the cursor, or at the cursor where the
text ends. -/
def failAhead {α : Type} (f : Fault) : Reader α := fun c =>
  .error ⟨f, if c.rest = [] then c.offset else c.offset + 1⟩

/-- The character ahead, which is not taken. -/
def peek : Reader (Option Char) := fun c => .ok (c.rest.head?, c)

/-- The character ahead behind white space, which is taken. -/
def peekValue : Reader (Option Char) := fun c =>
  let c := c.skip isSpace
  .ok (c.rest.head?, c)

/-- Takes the character ahead. -/
def take : Reader Unit := fun c => .ok ((), c.advance 1)

/-- Takes the characters ahead that satisfy `p`. -/
def takeWhile (p : Char → Bool) : Reader (List Char) := fun c =>
  .ok (c.rest.takeWhile p, c.skip p)

end Reader

/-- The line, from 1, and the column of a byte offset. The column is the number of bytes since the
last line feed before it. -/
def lineAndColumn (text : String) (offset : Nat) : Nat × Nat :=
  let before := text.toUTF8.toList.take offset
  (before.count 10 + 1, (before.reverse.takeWhile (· ≠ 10)).length)

/-- A fault with its place in the text. -/
def Misread.message (text : String) (m : Misread) : String :=
  let (line, column) := lineAndColumn text m.offset
  m.fault.message ++ " at line " ++ toString line ++ " column " ++ toString column

end PacketGen.Json
