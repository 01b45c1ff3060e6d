import PacketGen.Text.Blank
import PacketGen.Text.Lines

/-!
# Packets left to be written by hand

A packet that could not be generated leaves a block of comments: what went wrong, and its source.
-/

namespace PacketGen

/-- A packet that could not be generated. -/
structure Fallback where
  name : String
  fileName : String
  /-- Code of the diagnostic. -/
  code : Option String
  /-- The diagnostic as text. -/
  diagnostic : String
  /-- The source, if it could be read. -/
  source : Option String
deriving Repr, DecidableEq

namespace Generated

/-- One line as a comment line, without the blanks at its end. -/
def commentLine (line : List Char) : List Char :=
  let line := Text.trimEnd line
  if line = [] then ['/', '/', '\n'] else '/' :: '/' :: ' ' :: line ++ ['\n']

/-- Every line of a text as a comment line. -/
def commented (text : String) : String :=
  .ofList ((Text.lines text.toList).flatMap commentLine)

/-- The comments that a packet leaves. -/
def fallbackBlock (f : Fallback) : String :=
  "// " ++ f.fileName ++ ": automatic port failed.\n" ++
    "// Read the original code below and port it manually.\n//\n" ++
    commented f.diagnostic ++
    (match f.source with
      | some source => "//\n" ++ commented source
      | none => "") ++ "\n"

end Generated

end PacketGen
