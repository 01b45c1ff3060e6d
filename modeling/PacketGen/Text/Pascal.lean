import PacketGen.Text.Letter

/-!
# `UPPER_SNAKE` to `PascalCase`

Underscores separate segments and are dropped; each segment keeps its first character in upper
case and the rest in lower case.
-/

namespace PacketGen.Text

/-- The pieces between underscores, empty ones included. -/
def splitUnderscores : List Char → List (List Char)
  | [] => [[]]
  | c :: cs =>
    if c = '_' then [] :: splitUnderscores cs
    else match splitUnderscores cs with
      | [] => [[c]]
      | s :: ss => (c :: s) :: ss

/-- First character in upper case, the others in lower case. -/
def capitalized : List Char → List Char
  | [] => []
  | c :: cs => toUpper c ++ cs.flatMap toLower

/-- `UPPER_SNAKE` as `PascalCase`; empty segments vanish. -/
def upperToPascal (name : String) : String :=
  .ofList ((splitUnderscores name.toList).flatMap capitalized)

end PacketGen.Text
