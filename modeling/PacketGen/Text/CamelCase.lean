/-!
# Camel case of arbitrary names

A name is cut into words at every character that is not an ASCII letter or digit, and inside such
a piece where the case changes: before an upper-case letter that follows a lower-case one
(`head|Yaw`), and before the last upper-case letter of a run that a lower-case letter ends
(`XML|Http`). Digits take the case of what came before them, so that they never open a word.
-/

namespace PacketGen.Text

/-- The case of the last letter of the word being read. -/
inductive WordCase where
  /-- No letter yet. -/
  | start
  | lower
  | upper
deriving Repr, DecidableEq

/-- The case after reading `c`. -/
def WordCase.next (m : WordCase) (c : Char) : WordCase :=
  if c.isLower then .lower else if c.isUpper then .upper else m

/-- Cuts one piece at its case changes. `word` holds, in reverse, the characters of the current
word that come before the next one. -/
def splitCase (word : List Char) (m : WordCase) : List Char → List (List Char)
  | [] => if word = [] then [] else [word.reverse]
  | [c] => [(c :: word).reverse]
  | c :: d :: cs =>
    if m.next c = .lower && d.isUpper then
      (c :: word).reverse :: splitCase [] .start (d :: cs)
    else if m = .upper && c.isUpper && d.isLower then
      word.reverse :: splitCase [c] .start (d :: cs)
    else
      splitCase (c :: word) (m.next c) (d :: cs)

/-- The pieces between characters that are not ASCII letters or digits, empty ones included. -/
def splitSeparators : List Char → List (List Char)
  | [] => [[]]
  | c :: cs =>
    if !c.isAlphanum then [] :: splitSeparators cs
    else match splitSeparators cs with
      | [] => [[c]]
      | s :: ss => (c :: s) :: ss

/-- The words of a name, none of them empty. -/
def camelWords (name : List Char) : List (List Char) :=
  (splitSeparators name).flatMap (splitCase [] .start)

def lowerWord (w : List Char) : List Char := w.map Char.toLower

def capitalWord : List Char → List Char
  | [] => []
  | c :: cs => c.toUpper :: lowerWord cs

/-- `UpperCamelCase`: every word capitalised. -/
def upperCamel (name : String) : String :=
  .ofList ((camelWords name.toList).flatMap capitalWord)

/-- `lowerCamelCase`: every word but the first capitalised. -/
def lowerCamel (name : String) : String :=
  .ofList (match camelWords name.toList with
    | [] => []
    | w :: ws => lowerWord w ++ ws.flatMap capitalWord)

end PacketGen.Text
