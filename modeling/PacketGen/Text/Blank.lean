/-!
# Blank characters

Source text is trimmed by the Unicode property `White_Space`, which has 25 members; the grammar of
statements (`PacketGen.Token`) knows only four of them. The two classes are kept apart by name:
`isBlank` here, `isSpacing` there.
-/

namespace PacketGen.Text

/-- The characters with the Unicode property `White_Space`. -/
def isBlank (c : Char) : Bool :=
  let n := c.toNat
  (0x9 ≤ n && n ≤ 0xD) || n == 0x20 || n == 0x85 || n == 0xA0 || n == 0x1680 ||
    (0x2000 ≤ n && n ≤ 0x200A) || n == 0x2028 || n == 0x2029 || n == 0x202F || n == 0x205F ||
    n == 0x3000

/-- Drops the longest ending whose characters all satisfy `p`. -/
def dropEndWhile (p : Char → Bool) (cs : List Char) : List Char :=
  (cs.reverse.dropWhile p).reverse

def trimStart (cs : List Char) : List Char := cs.dropWhile isBlank

def trimEnd (cs : List Char) : List Char := dropEndWhile isBlank cs

def trim (cs : List Char) : List Char := trimEnd (trimStart cs)

/-- The index of the first character at or after `index` that is not blank, or the length of the
text. -/
def skipBlanks (cs : List Char) (index : Nat) : Nat :=
  index + ((cs.drop index).takeWhile isBlank).length

end PacketGen.Text
