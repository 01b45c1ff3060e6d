import PacketGen.Host.Basic
import PacketGen.Text.Blank
import PacketGen.Text.Lines
import PacketGen.Text.Utf8

/-!
# Formatter scripts

A formatter program is a shell script of plain commands, one after the other: `cat`, `printf`,
`echo`, `true`, `false`, `kill` and `exit`, with quoted words, the arguments of the script, and
redirection between the two outputs or into nothing. Its outcome is a function of its text and its
input.
-/

namespace PacketGen.Script

/-- A part of a word. -/
inductive Piece where
  | literal (c : Char)
  /-- An argument of the script, or all of them. -/
  | parameter (name : Char)
deriving Repr, DecidableEq

/-- One word; quoting may make it empty. -/
abbrev Word := List Piece

/-- Where an output goes. -/
inductive Sink where
  | stdout
  | stderr
  | nowhere
deriving Repr, DecidableEq

/-- How the character that comes next is read. -/
inductive Mode where
  /-- Between words. -/
  | between
  | word
  | singleQuoted
  | doubleQuoted
  /-- Behind a backslash outside of quotes. -/
  | escaped
  /-- Behind a backslash in double quotes. -/
  | escapedQuoted
  /-- Behind a dollar sign; it stands in double quotes or not. -/
  | dollar (inQuotes : Bool)
  | comment
deriving Repr, DecidableEq

/-- A line taken apart: the words that are complete, and the one being read. -/
structure Lexer where
  mode : Mode
  current : Word
  words : List Word
  commands : List (List Word)
deriving Repr

namespace Lexer

def start : Lexer := ⟨.between, [], [], []⟩

/-- Ends the word being read, if there is one. -/
def endWord (s : Lexer) : Lexer :=
  match s.mode with
  | .between | .comment => s
  | _ => { s with mode := .between, current := [], words := s.words ++ [s.current] }

/-- Ends the command being read; every command counts, also an empty one. -/
def endCommand (s : Lexer) : Lexer :=
  let s := s.endWord
  { s with mode := .between, words := [], commands := s.commands ++ [s.words] }

def push (s : Lexer) (mode : Mode) (p : Piece) : Lexer :=
  { s with mode, current := s.current ++ [p] }

/-- Reads one character in a word or between words. -/
def stepPlain (s : Lexer) (c : Char) : Lexer :=
  if c = ' ' ∨ c = '\t' then s.endWord
  else if c = ';' then s.endCommand
  else if c = '#' ∧ s.mode = .between then { s with mode := .comment }
  else if c = '\'' then { s with mode := .singleQuoted }
  else if c = '"' then { s with mode := .doubleQuoted }
  else if c = '\\' then { s with mode := .escaped }
  else if c = '$' then { s with mode := .dollar false }
  else s.push .word (.literal c)

/-- Reads one character. -/
def step (s : Lexer) (c : Char) : Lexer :=
  match s.mode with
  | .between | .word => s.stepPlain c
  | .singleQuoted =>
    if c = '\'' then { s with mode := .word } else s.push .singleQuoted (.literal c)
  | .doubleQuoted =>
    if c = '"' then { s with mode := .word }
    else if c = '\\' then { s with mode := .escapedQuoted }
    else if c = '$' then { s with mode := .dollar true }
    else s.push .doubleQuoted (.literal c)
  | .escaped => s.push .word (.literal c)
  | .escapedQuoted =>
    if c ∈ ['$', '"', '\\', '`'] then s.push .doubleQuoted (.literal c)
    else (s.push .doubleQuoted (.literal '\\')).push .doubleQuoted (.literal c)
  | .dollar inQuotes => s.push (if inQuotes then .doubleQuoted else .word) (.parameter c)
  | .comment => s

/-- The commands of one line. -/
def commandsOf (line : List Char) : List (List Word) :=
  (line.foldl step start).endCommand.commands

end Lexer

/-- A script's name and arguments, its input, and what it has done so far. -/
structure State where
  name : String
  args : List String
  input : List UInt8
  stdout : List UInt8
  stderr : List UInt8
  status : Nat
  ended : Bool

namespace State

/-- The text of a piece. -/
def pieceText (s : State) : Piece → List Char
  | .literal c => [c]
  | .parameter c =>
    if c = '*' ∨ c = '@' then (" ".intercalate s.args).toList
    else if c = '#' then (toString s.args.length).toList
    else if c = '0' then s.name.toList
    else if c = '?' then (toString s.status).toList
    else if c.isDigit then (s.args.getD (c.toNat - '1'.toNat) "").toList
    else ['$', c]

def wordText (s : State) (w : Word) : String := .ofList (w.flatMap s.pieceText)

/-- Sends bytes to an output. -/
def emit (s : State) (sink : Sink) (bytes : List UInt8) : State :=
  match sink with
  | .stdout => { s with stdout := s.stdout ++ bytes }
  | .stderr => { s with stderr := s.stderr ++ bytes }
  | .nowhere => s

end State

/-- Bytes of a text. -/
def bytesOf (cs : List Char) : List UInt8 := Text.encode (.ofList cs)

/-- Up to three octal digits as a byte, and how many there are. -/
def octal (cs : List Char) : UInt8 × Nat :=
  let digits := (cs.take 3).takeWhile fun c => '0' ≤ c && c ≤ '7'
  (.ofNat (digits.foldl (fun n c => n * 8 + (c.toNat - '0'.toNat)) 0), digits.length)

/-- The byte of a letter behind a backslash. -/
def ofEscape? (c : Char) : Option UInt8 :=
  if c = 'n' then some 10
  else if c = 't' then some 9
  else if c = 'r' then some 13
  else if c = 'b' then some 8
  else if c = 'f' then some 12
  else if c = 'v' then some 11
  else if c = 'a' then some 7
  else if c = '\\' then some 92
  else none

/-- The byte that characters behind a backslash stand for, and how many they are. -/
def escape? (cs : List Char) : Option (UInt8 × Nat) :=
  match cs.head?.bind ofEscape? with
  | some b => some (b, 1)
  | none =>
    let (b, count) := octal cs
    if count = 0 then none else some (b, count)

/-- The bytes of a text with backslashes, whose first `covered` characters are done with. -/
def unescaped : (covered : Nat) → List Char → List UInt8
  | _, [] => []
  | covered + 1, _ :: cs => unescaped covered cs
  | 0, '\\' :: cs =>
    match escape? cs with
    | some (b, count) => b :: unescaped count cs
    | none => 92 :: unescaped 0 cs
  | 0, c :: cs => bytesOf [c] ++ unescaped 0 cs

/-- The bytes of a `printf` format, whose first `covered` characters are done with, and the
arguments that are left. -/
def formatted : (covered : Nat) → List String → List Char → List UInt8 × List String
  | _, args, [] => ([], args)
  | covered + 1, args, _ :: cs => formatted covered args cs
  | 0, args, '%' :: c :: cs =>
    if c = 's' ∨ c = 'd' then
      let (bytes, left) := formatted 1 (args.drop 1) (c :: cs)
      (Text.encode (args.headD "") ++ bytes, left)
    else
      let (bytes, left) := formatted (if c = '%' then 1 else 0) args (c :: cs)
      (37 :: bytes, left)
  | 0, args, '\\' :: cs =>
    match escape? cs with
    | some (b, count) =>
      let (bytes, left) := formatted count args cs
      (b :: bytes, left)
    | none =>
      let (bytes, left) := formatted 0 args cs
      (92 :: bytes, left)
  | 0, args, c :: cs =>
    let (bytes, left) := formatted 0 args cs
    (bytesOf [c] ++ bytes, left)

/-- The bytes of a format that is used again as long as arguments are left. -/
def formattedAll (format : List Char) : (fuel : Nat) → List String → List UInt8
  | 0, args => (formatted 0 args format).1
  | fuel + 1, args =>
    let (bytes, left) := formatted 0 args format
    if left = [] ∨ left.length = args.length then bytes
    else bytes ++ formattedAll format fuel left

/-- Where the outputs of a command go. -/
structure Outputs where
  out : Sink
  err : Sink

namespace Outputs

def plain : Outputs := ⟨.stdout, .stderr⟩

/-- The outputs after a redirection; `none` for any other word. -/
def redirect? (o : Outputs) (word : String) : Option Outputs :=
  if word ∈ [">/dev/null", "1>/dev/null"] then some { o with out := .nowhere }
  else if word = "2>/dev/null" then some { o with err := .nowhere }
  else if word ∈ [">&2", "1>&2", ">/dev/stderr", "1>/dev/stderr"] then some { o with out := o.err }
  else if word = "2>&1" then some { o with err := o.out }
  else none

end Outputs

/-- Words with each redirection sign joined to the target behind it. -/
def joinTargets : List String → List String
  | word :: target :: words =>
    if word ∈ [">", "1>", "2>"] then (word ++ target) :: joinTargets words
    else word :: joinTargets (target :: words)
  | words => words

/-- The words of a command without its redirections, which take effect from left to right. -/
def takeRedirections (words : List String) : List String × Outputs :=
  (joinTargets words).foldl (fun (taken, outputs) word =>
    match outputs.redirect? word with
    | some outputs => (taken, outputs)
    | none => (taken ++ [word], outputs)) ([], Outputs.plain)

/-- The whole number that digits mean; other text counts as zero. -/
def number (s : String) : Nat := s.toNat?.getD 0

/-- Runs a command on line `line` of the script. -/
def command (line : Nat) (s : State) (words : List String) : State :=
  let (words, outputs) := takeRedirections words
  let (words, last) := match words with
    | "exec" :: words => (words, true)
    | words => (words, false)
  let s := match words with
    | [] => s
    | ["true"] | [":"] | ["/bin/true"] => { s with status := 0 }
    | ["false"] | ["/bin/false"] => { s with status := 1 }
    | ["exit"] => { s with ended := true }
    | "exit" :: n :: _ => { s with status := number n % 256, ended := true }
    | ["/bin/cat"] | ["/bin/cat", "-"] =>
      { s.emit outputs.out s.input with input := [], status := 0 }
    | "printf" :: format :: args | "/usr/bin/printf" :: format :: args =>
      { s.emit outputs.out (formattedAll format.toList args.length args) with status := 0 }
    | "echo" :: "-n" :: args =>
      { s.emit outputs.out (unescaped 0 (" ".intercalate args).toList) with status := 0 }
    | "echo" :: args =>
      { s.emit outputs.out (unescaped 0 (" ".intercalate args).toList ++ [10]) with status := 0 }
    | "kill" :: _ => { s with status := 128 + 15, ended := true }
    | word :: _ =>
      let message := s.name ++ ": " ++ toString line ++ ": " ++ word ++ ": not found\n"
      { s.emit outputs.err (Text.encode message) with status := 127 }
  { s with ended := s.ended || last }

/-- Runs commands with the numbers of their lines until one ends the script. -/
def runCommands (s : State) : List (Nat × List Word) → State
  | [] => s
  | (line, words) :: commands =>
    if s.ended then s else runCommands (command line s (words.map s.wordText)) commands

/-- The commands of a script with their line numbers; the first line names the interpreter. -/
def commandsOf (script : List Char) : List (Nat × List Word) :=
  (Text.lines script).zipIdx.flatMap fun (line, i) =>
    if i = 0 then [] else (Lexer.commandsOf line).map (i + 1, ·)

/-- Runs a script. -/
def run (name : String) (args : List String) (script : String) (input : List UInt8) : State :=
  runCommands ⟨name, args, input, [], [], 0, false⟩ (commandsOf script.toList)

/-- The beginnings of scripts that can be run. -/
def interpreters : List String := ["#!/bin/sh", "#! /bin/sh", "#!/bin/bash", "#!/bin/dash"]

/-- The script in a file. -/
def ofBytes (content : List UInt8) : Except FileError String :=
  let script := Text.decodeReplacing content
  if !script.startsWith "#!" then .error .notExecutable
  else if interpreters.any fun i => script.startsWith i then .ok script
  else .error .notFound

/-- What a finished script comes to: its output, if it ends well and the output is text. -/
def outcome (s : State) : Except String String :=
  if s.status ≠ 0 then .error (.ofList (Text.trim (Text.decodeReplacing s.stderr).toList))
  else (Text.decode s.stdout).mapError (·.message)

/-- Passes a text through a script, which is told to simplify (`-s`). -/
def pipe (name script text : String) : Except String String :=
  outcome (run name ["-s"] script (Text.encode text))

end PacketGen.Script
