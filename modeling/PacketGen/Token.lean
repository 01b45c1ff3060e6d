import PacketGen.Text.Word

/-!
# Tokens of statements and constant declarations

Both small grammars are read from one kind of token. Between tokens stand any number of spacing
characters (space, tab, carriage return, line feed), and a token is always the longest that fits,
so two words or a word and a number need spacing between them and nothing else does.

`Token.spell` writes a token and `Token.first?` reads the one a text starts with;
`Token.scan?` reads a text that consists of tokens and spacing only. The scan walks the text once:
after a token it passes over as many characters as the token is spelled with.
-/

namespace PacketGen

/-- One token. -/
inductive Token where
  /-- The receiver `$this`. -/
  | this
  /-- The member arrow `->`. -/
  | arrow
  | openParen
  | closeParen
  | equals
  | semicolon
  /-- A name or keyword. -/
  | word (name : String)
  /-- An integer literal as it is written. -/
  | number (literal : String)
deriving Repr, DecidableEq

namespace Token

/-- Spacing between tokens. -/
def isSpacing (c : Char) : Bool := c == ' ' || c == '\t' || c == '\r' || c == '\n'

def isHexDigit (c : Char) : Bool :=
  c.isDigit || ('a' ≤ c && c ≤ 'f') || ('A' ≤ c && c ≤ 'F')

/-- The text of a token. -/
def spell : Token → List Char
  | .this => ['$', 't', 'h', 'i', 's']
  | .arrow => ['-', '>']
  | .openParen => ['(']
  | .closeParen => [')']
  | .equals => ['=']
  | .semicolon => [';']
  | .word name => name.toList
  | .number literal => literal.toList

/-- The hexadecimal literal that a text starts with. -/
def hexLiteral? : List Char → Option (List Char)
  | '0' :: x :: d :: cs =>
    if (x == 'x' || x == 'X') && isHexDigit d then
      some ('0' :: x :: (d :: cs).takeWhile isHexDigit)
    else none
  | _ => none

/-- The decimal literal, with an optional minus sign, that a text starts with. -/
def decimalLiteral? : List Char → Option (List Char)
  | '-' :: d :: cs =>
    if d.isDigit then some ('-' :: (d :: cs).takeWhile Char.isDigit) else none
  | d :: cs => if d.isDigit then some ((d :: cs).takeWhile Char.isDigit) else none
  | [] => none

/-- The integer literal that a text starts with; a hexadecimal reading is preferred. -/
def literal? (text : List Char) : Option (List Char) :=
  (hexLiteral? text).or (decimalLiteral? text)

/-- The token that a text starts with. -/
def first? : List Char → Option Token
  | [] => none
  | '(' :: _ => some .openParen
  | ')' :: _ => some .closeParen
  | '=' :: _ => some .equals
  | ';' :: _ => some .semicolon
  | '-' :: '>' :: _ => some .arrow
  | '$' :: 't' :: 'h' :: 'i' :: 's' :: _ => some .this
  | c :: cs =>
    if Text.isNameStart c then some (.word (.ofList ((c :: cs).takeWhile Text.isNameChar)))
    else (literal? (c :: cs)).map fun l => .number (.ofList l)

/-- The tokens of a text whose first `covered` characters belong to a token already read; `none`
when some part of the text is neither a token nor spacing. -/
def scanFrom? : (covered : Nat) → List Char → Option (List Token)
  | _, [] => some []
  | 0, c :: cs =>
    if isSpacing c then scanFrom? 0 cs
    else (first? (c :: cs)).bind fun t => (scanFrom? (t.spell.length - 1) cs).map (t :: ·)
  | covered + 1, _ :: cs => scanFrom? covered cs

/-- The tokens of a text. -/
def scan? (text : List Char) : Option (List Token) := scanFrom? 0 text

end Token

end PacketGen
