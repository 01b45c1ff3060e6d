import PacketGen.Token

/-!
# Constant declarations

`const NAME = 12;`, with an optional visibility in front, a decimal or hexadecimal value, and an
optional semicolon. A value counts only if it fits 64 signed bits.
-/

namespace PacketGen

/-- A named integer. -/
structure Constant where
  name : String
  value : Int
deriving Repr, DecidableEq, Inhabited

namespace Constant

/-- Whether a value fits 64 signed bits. -/
def fits (v : Int) : Bool := -0x8000000000000000 ≤ v && v ≤ 0x7FFFFFFFFFFFFFFF

/-- The value of a digit up to `f`, in either case. -/
def digitValue (c : Char) : Nat :=
  if c.isDigit then c.toNat - '0'.toNat
  else if 'a' ≤ c then c.toNat - 'a'.toNat + 10
  else c.toNat - 'A'.toNat + 10

/-- The number that digits mean in a base, most significant digit first. -/
def ofDigits (base : Nat) (digits : List Char) : Nat :=
  digits.foldl (fun n c => n * base + digitValue c) 0

/-- The value of an integer literal. -/
def literalValue : List Char → Int
  | '0' :: 'x' :: digits | '0' :: 'X' :: digits => ofDigits 16 digits
  | '-' :: digits => -(ofDigits 10 digits : Int)
  | digits => ofDigits 10 digits

/-- The keywords that may stand before `const`. -/
def visibilities : List String := ["public", "protected", "private"]

/-- The tokens behind an optional visibility. -/
def skipVisibility : List Token → List Token
  | .word w :: ts => if w ∈ visibilities then ts else .word w :: ts
  | ts => ts

/-- The constant that a token list declares. -/
def ofTokens? (ts : List Token) : Option Constant :=
  match skipVisibility ts with
  | [.word "const", .word name, .equals, .number literal]
  | [.word "const", .word name, .equals, .number literal, .semicolon] =>
    let value := literalValue literal.toList
    if fits value then some ⟨name, value⟩ else none
  | _ => none

/-- The constant that a line declares; `none` for a line of another shape and for a value beyond
64 bits. -/
def parse? (line : List Char) : Option Constant := (Token.scan? line).bind ofTokens?

end Constant

end PacketGen
