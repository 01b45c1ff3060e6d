/-!
# Occurrences of a pattern

The leftmost occurrences that do not overlap, and their replacement. Both walk the text once; the
number of characters still covered by the last occurrence is an argument, so an occurrence is
looked for only where it is zero.
-/

namespace PacketGen.Text

/-- Indices of the occurrences of `pattern`, when the text starts at index `index` and its first
`covered` characters belong to an occurrence already taken. The empty pattern occurs before every
character and at the end. -/
def occurrencesFrom (pattern : List Char) : (covered index : Nat) → List Char → List Nat
  | covered, index, [] => if covered = 0 ∧ pattern = [] then [index] else []
  | 0, index, c :: cs =>
    if pattern.isPrefixOf (c :: cs) then
      index :: occurrencesFrom pattern (pattern.length - 1) (index + 1) cs
    else
      occurrencesFrom pattern 0 (index + 1) cs
  | covered + 1, index, _ :: cs => occurrencesFrom pattern covered (index + 1) cs

/-- Replaces the occurrences of a pattern that is not empty, past `covered` characters that belong
to an occurrence already replaced. -/
def replaceFrom (pattern replacement : List Char) : (covered : Nat) → List Char → List Char
  | _, [] => []
  | 0, c :: cs =>
    if pattern.isPrefixOf (c :: cs) then
      replacement ++ replaceFrom pattern replacement (pattern.length - 1) cs
    else
      c :: replaceFrom pattern replacement 0 cs
  | covered + 1, _ :: cs => replaceFrom pattern replacement covered cs

/-- Replaces every occurrence of `pattern`, which is not empty, from left to right. What has been
put in is not searched again. -/
def replaceAll (pattern replacement text : List Char) : List Char :=
  replaceFrom pattern replacement 0 text

end PacketGen.Text
