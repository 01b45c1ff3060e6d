import PacketGen.Text.Extending
import PacketGen.Text.InvisibleTable

/-!
# Quoted text

A text in double quotes, for messages: every character that could not be told apart on a screen is
written as an escape.
-/

namespace PacketGen.Text

/-- Digits of `n` in base 16, lower case, without leading zeros. -/
def hexDigits (n : Nat) : List Char := Nat.toDigits 16 n

/-- Whether `c` is written by its code point: it has no form of its own. -/
def isInvisible (c : Char) : Bool :=
  isExtending c || inRanges invisibleRanges c.toNat

/-- One character between the quotes. -/
def quoteChar (c : Char) : List Char :=
  if c = '\x00' then ['\\', '0']
  else if c = '\t' then ['\\', 't']
  else if c = '\r' then ['\\', 'r']
  else if c = '\n' then ['\\', 'n']
  else if c = '\\' then ['\\', '\\']
  else if c = '"' then ['\\', '"']
  else if isInvisible c then "\\u\x7b".toList ++ hexDigits c.toNat ++ ['}']
  else [c]

/-- The text in double quotes. -/
def quoted (s : String) : String :=
  .ofList ('"' :: s.toList.flatMap quoteChar ++ ['"'])

end PacketGen.Text
