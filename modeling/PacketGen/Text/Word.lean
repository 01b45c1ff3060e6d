import PacketGen.Text.Occurrence

/-!
# Standalone words

A word stands alone when neither neighbour in the whole text is an ASCII letter, a digit or an
underscore. The search may be confined to a part of the text; the neighbours are looked up outside
of that part too, so that cutting a text never creates a word.
-/

namespace PacketGen.Text

/-- ASCII letters, digits and the underscore. -/
def isNameChar (c : Char) : Bool := c.isAlphanum || c == '_'

/-- ASCII letters and the underscore. -/
def isNameStart (c : Char) : Bool := c.isAlpha || c == '_'

/-- Whether `length` characters from `index` on have no name character on either side. -/
def standsAlone (text : List Char) (index length : Nat) : Bool :=
  !((text.take index).getLast?.any isNameChar) && !(text[index + length]?.any isNameChar)

/-- The indices in `first..last` at which `word` stands alone, among its occurrences that do not
overlap. -/
def wordIndices (text : List Char) (first last : Nat) (word : List Char) : List Nat :=
  (occurrencesFrom word 0 first ((text.take last).drop first)).filter
    (standsAlone text · word.length)

/-- The first index in `first..last` at which `word` stands alone. -/
def findWord? (text : List Char) (first last : Nat) (word : List Char) : Option Nat :=
  (wordIndices text first last word).head?

/-- Whether `word` occurs at `index` and stands alone there. -/
def hasWordAt (text : List Char) (index : Nat) (word : List Char) : Bool :=
  word.isPrefixOf (text.drop index) && standsAlone text index word.length

end PacketGen.Text
