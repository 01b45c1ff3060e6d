import PacketGen.Text.Extending
import PacketGen.Text.WidthTables

/-!
# Column widths

How many columns of a terminal a character takes: none, one or two, and up to the next tab stop
for a tab.
-/

namespace PacketGen.Text

/-- Distance between tab stops. -/
def tabWidth : Nat := 4

/-- Columns of a character other than a tab. -/
def charWidth (c : Char) : Nat :=
  let n := c.toNat
  if isExtending c || inRanges zeroWidthRanges n then 0
  else if inRanges wideRanges n then 2
  else 1

/-- Columns of a character that is written at `column`. -/
def widthAt (column : Nat) (c : Char) : Nat :=
  if c = '\t' then tabWidth - column % tabWidth else charWidth c

end PacketGen.Text
