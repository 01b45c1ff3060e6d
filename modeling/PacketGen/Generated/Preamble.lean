/-!
# The head of a generated file

A note on where the file comes from, the package clause and the imports.
-/

namespace PacketGen.Generated

/-- One import path, quoted. -/
def quotedImport (path : String) : String := "\"" ++ path ++ "\""

/-- The import declaration: none, one line, or a block. -/
def importDeclaration : List String → String
  | [] => ""
  | [path] => "import " ++ quotedImport path ++ "\n\n"
  | paths =>
    "import (\n" ++ String.join (paths.map fun p => "\t" ++ quotedImport p ++ "\n") ++ ")\n\n"

/-- The head of a file generated from `origin`. -/
def preamble (origin package : String) (imports : List String) : String :=
  "// Code generated by pmportc from " ++ origin ++ ". DO NOT EDIT.\n\n" ++
    "package " ++ package ++ "\n\n" ++ importDeclaration imports

end PacketGen.Generated
