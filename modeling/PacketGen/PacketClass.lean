import PacketGen.Brackets
import PacketGen.Comment
import PacketGen.Config.Basic
import PacketGen.Constant
import PacketGen.PacketFault
import PacketGen.Text.Pascal
import PacketGen.Text.Word

/-!
# Packet classes

The class of a packet source that extends one of the base classes: its integer constants and the
bodies of its two procedures. Words and brackets are looked for in the source with its comments
blanked out, by character index; only the spans of the result are measured in bytes, which are
those of the source itself because blanking keeps every byte offset.
-/

namespace PacketGen

/-- The body of a procedure. -/
structure Procedure where
  /-- From the opening brace to behind the closing one. -/
  span : Span
  /-- The cleaned lines that are not empty. -/
  statements : List String
deriving Repr, DecidableEq

/-- What a packet class says about its packet. -/
structure PacketClass where
  /-- The class body between its braces. -/
  span : Span
  constants : List Constant
  encode : Option Procedure
  decode : Option Procedure
deriving Repr, DecidableEq

namespace PacketClass

/-- A line without blanks at its start, and without blanks and semicolons at its end. -/
def cleanStatement (line : List Char) : List Char :=
  Text.dropEndWhile (fun c => c == ';' || Text.isBlank c) (Text.trim line)

/-- The cleaned lines of a text. -/
def cleanLines (text : List Char) : List (List Char) := (Text.lines text).map cleanStatement

/-- Behind the first base class name `base` that follows a word `extends`. -/
def baseEnd? (text base : List Char) : Option Nat :=
  (Text.wordIndices text 0 text.length "extends".toList).findSome? fun index =>
    let name := Text.skipBlanks text (index + "extends".toList.length)
    if Text.hasWordAt text name base then some (name + base.length) else none

/-- Behind the base class name that ends first, over all base classes. -/
def firstBaseEnd? (text : List Char) (bases : List String) : Option Nat :=
  (bases.filterMap fun base => baseEnd? text base.toList).min?

/-- The character indices of the class body. -/
def findBody (text : List Char) (bases : List String) : Except PacketFault (Nat × Nat) :=
  match firstBaseEnd? text bases with
  | none => .error (.noClass bases)
  | some index =>
    match Brackets.braces.findBlock text index with
    | .closed first last => .ok (first, last)
    | .absent => .error (.noClassBody (Text.byteOffset text index))
    | .unclosed opening => .error (.unclosed .classBody (Text.byteOffset text opening))

/-- Whether `name` is declared at `index`: the class body up to there ends in `function`, blanks
apart, and a parenthesis follows. -/
def declaresAt (text : List Char) (bodyStart : Nat) (name : List Char) (index : Nat) : Bool :=
  "function".toList.isSuffixOf (Text.trimEnd (Text.slice text bodyStart index)) &&
    text[Text.skipBlanks text (index + name.length)]? == some '('

/-- Where the procedure `name` is declared in the class body `first..last`. -/
def declaration? (text : List Char) (first last : Nat) (name : List Char) : Option Nat :=
  (Text.wordIndices text first last name).find? (declaresAt text first name)

/-- The index of the first opening brace or semicolon in `first..last`. -/
def bodyMark? (text : List Char) (first last : Nat) : Option Nat :=
  ((Text.slice text first last).findIdx? fun c => c == '{' || c == ';').map (first + ·)

/-- The procedure `name` of the class body `first..last`, if it is declared there. -/
def findProcedure (text : List Char) (first last : Nat) (name : String) :
    Except PacketFault (Option Procedure) :=
  match declaration? text first last name.toList with
  | none => .ok none
  | some index =>
    let parameters := Text.skipBlanks text (index + name.toList.length)
    match Brackets.parens.match? text parameters with
    | none => .error (.unclosed .parameters (Text.byteOffset text parameters))
    | some parametersEnd =>
      match (bodyMark? text (parametersEnd + 1) last).filter (text[·]? == some '{') with
      | none => .error (.noProcedureBody name (Text.byteSpan text index parameters))
      | some opening =>
        match Brackets.braces.match? text opening with
        | none => .error (.unclosed (.procedure name) (Text.byteOffset text opening))
        | some closing =>
          let lines := cleanLines (Text.slice text (opening + 1) closing)
          .ok (some ⟨Text.byteSpan text opening (closing + 1),
            (lines.filter (· ≠ [])).map String.ofList⟩)

/-- The constants declared in the class body `first..last`, but for the one named `reserved`. -/
def localConstants (text : List Char) (first last : Nat) (reserved : String) : List Constant :=
  (((cleanLines (Text.slice text first last)).filterMap Constant.parse?).filter
    (·.name ≠ reserved)).map fun c => ⟨Text.upperToPascal c.name, c.value⟩

/-- The packet class of a source. -/
def extract (config : Config) (source : String) : Except PacketFault PacketClass := do
  let text := blankComments source.toList
  let (first, last) ← findBody text config.baseClasses
  let encode ← findProcedure text first last config.encodeProcedure
  let decode ← findProcedure text first last config.decodeProcedure
  return {
    span := Text.byteSpan text first last
    constants := localConstants text first last config.reservedConstant
    encode, decode }

end PacketClass

end PacketGen
