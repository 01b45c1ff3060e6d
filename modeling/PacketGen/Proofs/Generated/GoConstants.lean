import PacketGen.Proofs.Constant.Reading
import PacketGen.Proofs.Generated.MethodText

/-!
# Constants and lookup tables, read as Go

The identifier block says what its constants are worth in a roundabout way: one line has an
expression, the lines below repeat it with the next `iota`, and the lookup tables name constants
instead of values. Here a text is read the way the language reads it, knowing nothing of the table
that it was written from.

A text is cut into lines, and the lines into the blocks under a given heading (`blocks`). A line is
cut into words, string literals, marks and a comment (`GoLexeme.lex`). What the constants come to is
worked out from the lines alone (`evaluate`).

The reading is partial. A line of a shape that is not known is not read at all, and neither is a
number with a leading zero, which is no decimal number there.
-/

namespace PacketGen.Generated

/-- What a line is made of. -/
inductive GoLexeme where
  | word (w : String)
  /-- A string literal. One with an escape in it is not read. -/
  | text (s : String)
  | mark (c : Char)
  /-- What stands behind two slashes. -/
  | comment (s : String)
deriving Repr, DecidableEq

/-- The characters of words. Letters and digits of other scripts are among those beyond ASCII, none
of which is an operator, a bracket or a quote. -/
def isGoWordChar (c : Char) : Bool :=
  Text.isNameChar c || (128 ≤ c.toNat && !Text.isBlank c)

/-- A name, as far as its characters go. -/
def IsGoWord (w : String) : Prop := w ≠ "" ∧ ∀ c ∈ w.toList, isGoWordChar c = true

theorem isGoWord_of_all {w : String} (hne : w ≠ "") (h : w.toList.all isGoWordChar = true) :
    IsGoWord w :=
  ⟨hne, List.all_eq_true.mp h⟩

namespace GoLexeme

/-- The word read so far, its characters in reverse; no word without characters. -/
def flush (read : List Char) : List GoLexeme :=
  if read = [] then [] else [.word (.ofList read.reverse)]

/-- The parts of a line behind the characters that have been read, which are those of a word or,
if `quoted`, of a string literal. -/
def lex (quoted : Bool) (read : List Char) : List Char → List GoLexeme
  | [] => if quoted then [.mark '"'] else flush read
  | c :: cs =>
    if quoted then
      if c = '"' then .text (.ofList read.reverse) :: lex false [] cs
      else if c = '\\' then [.mark '"']
      else lex true (c :: read) cs
    else if c = '"' then flush read ++ lex true [] cs
    else if c = '/' ∧ cs.head? = some '/' then flush read ++ [.comment (.ofList cs.tail)]
    else if isGoWordChar c then lex false (c :: read) cs
    else if Text.isBlank c then flush read ++ lex false [] cs
    else flush read ++ .mark c :: lex false [] cs

theorem lex_cons (read : List Char) (c : Char) (cs : List Char) : lex false read (c :: cs) =
    if c = '"' then flush read ++ lex true [] cs
    else if c = '/' ∧ cs.head? = some '/' then flush read ++ [.comment (.ofList cs.tail)]
    else if isGoWordChar c then lex false (c :: read) cs
    else if Text.isBlank c then flush read ++ lex false [] cs
    else flush read ++ .mark c :: lex false [] cs :=
  rfl

/-- No word goes on here. -/
def EndsWord (cs : List Char) : Prop := ∀ c ∈ cs.head?, isGoWordChar c = false

theorem lex_wordChars {w : List Char} (read cs : List Char)
    (hw : ∀ c ∈ w, isGoWordChar c = true) :
    lex false read (w ++ cs) = lex false (w.reverse ++ read) cs := by
  induction w generalizing read with
  | nil => rfl
  | cons c w ih =>
    obtain ⟨hc, hw⟩ := List.forall_mem_cons.mp hw
    have hquote : c ≠ '"' := by
      rintro rfl
      exact absurd hc (by decide)
    have hslash : ¬ (c = '/' ∧ (w ++ cs).head? = some '/') := by
      rintro ⟨rfl, -⟩
      exact absurd hc (by decide)
    rw [List.cons_append, lex_cons, if_neg hquote, if_neg hslash, if_pos hc, ih (c :: read) hw,
      List.reverse_cons, List.append_assoc]
    rfl

/-- Whatever ends a word, the word is there before it. -/
theorem lex_endsWord {read cs : List Char} (hcs : EndsWord cs) :
    lex false read cs = flush read ++ lex false [] cs := by
  cases cs with
  | nil => simp [lex, flush]
  | cons c cs =>
    have hc : isGoWordChar c = false := hcs c rfl
    have hempty : flush [] = [] := rfl
    have hword : ¬ isGoWordChar c = true := by simp [hc]
    -- Every way to go on from here puts the word read so far in front.
    rw [lex_cons, lex_cons, hempty]
    by_cases hquote : c = '"'
    · rw [if_pos hquote, if_pos hquote]
      rfl
    · rw [if_neg hquote, if_neg hquote]
      by_cases hslash : c = '/' ∧ cs.head? = some '/'
      · rw [if_pos hslash, if_pos hslash]
        rfl
      · rw [if_neg hslash, if_neg hslash, if_neg hword, if_neg hword]
        by_cases hblank : Text.isBlank c = true
        · rw [if_pos hblank, if_pos hblank]
          rfl
        · rw [if_neg hblank, if_neg hblank]
          rfl

theorem lex_word {w : String} {cs : List Char} (hw : IsGoWord w) (hcs : EndsWord cs) :
    lex false [] (w.toList ++ cs) = .word w :: lex false [] cs := by
  have hne : w.toList.reverse ++ [] ≠ [] := by simpa using hw.1
  rw [lex_wordChars _ _ hw.2, lex_endsWord hcs, flush, if_neg hne, List.append_nil,
    List.reverse_reverse, String.ofList_toList]
  rfl

theorem lex_text {s : String} (cs : List Char) (hs : ∀ c ∈ s.toList, isGoWordChar c = true) :
    lex false [] ('"' :: (s.toList ++ '"' :: cs)) = .text s :: lex false [] cs := by
  have hread : ∀ (read w : List Char), (∀ c ∈ w, isGoWordChar c = true) →
      lex true read (w ++ '"' :: cs) =
        .text (.ofList (w.reverse ++ read).reverse) :: lex false [] cs := by
    intro read w hw
    induction w generalizing read with
    | nil => rfl
    | cons c w ih =>
      obtain ⟨hc, hw⟩ := List.forall_mem_cons.mp hw
      have hquote : c ≠ '"' := by
        rintro rfl
        exact absurd hc (by decide)
      have hescape : c ≠ '\\' := by
        rintro rfl
        exact absurd hc (by decide)
      rw [List.cons_append, lex, if_pos rfl, if_neg hquote, if_neg hescape, ih (c :: read) hw,
        List.reverse_cons, List.append_assoc]
      rfl
  have hlex := hread [] s.toList hs
  rw [List.append_nil, List.reverse_reverse, String.ofList_toList] at hlex
  rw [← hlex]
  rfl

end GoLexeme

/-! ## Constants -/

inductive GoExpression where
  /-- `iota`, `iota + n` or `iota - n` -/
  | iota (offset : Int)
  /-- The name of a constant. -/
  | constant (name : String)
deriving Repr, DecidableEq

/-- The value of a decimal number. -/
def numeral? (w : String) : Option Nat :=
  let n := Constant.ofDigits 10 w.toList
  if toString n = w then some n else none

theorem numeral?_toString (n : Nat) : numeral? (toString n) = some n := by
  have hread : Constant.ofDigits 10 (toString n).toList = n := by
    change Constant.ofDigits 10 (Nat.repr n).toList = n
    rw [Nat.toList_repr]
    exact ((Constant.numeral_toDigits_ten n).read Constant.digits_ten).2.2
  rw [numeral?, hread, if_pos rfl]

namespace GoExpression

open GoLexeme in
def ofLexemes? : List GoLexeme → Option GoExpression
  | [word w] => some (if w = "iota" then .iota 0 else .constant w)
  | [word w, mark '+', word n] =>
    if w = "iota" then (numeral? n).map fun (n : Nat) => .iota n else none
  | [word w, mark '-', word n] =>
    if w = "iota" then (numeral? n).map fun (n : Nat) => .iota (-n) else none
  | _ => none

/-- The value on the line with the given index, where the constants in scope have values. -/
def value? (scope : String → Option Int) (line : Nat) : GoExpression → Option Int
  | .iota offset => some (line + offset)
  | .constant name => scope name

end GoExpression

/-- A line of a constant block. -/
structure GoConstant where
  name : String
  /-- The expression; a line without one repeats that of the line before. -/
  expression : Option GoExpression
  comment : Option String
deriving Repr, DecidableEq

namespace GoConstant

open GoLexeme in
/-- The constant that the parts of a line declare. Its type has no part in its value. -/
def ofLexemes? (comment : Option String) : List GoLexeme → Option GoConstant
  | [word c] => some ⟨c, none, comment⟩
  | word c :: mark '=' :: e => (GoExpression.ofLexemes? e).map fun e => ⟨c, some e, comment⟩
  | word c :: word _ :: mark '=' :: e =>
    (GoExpression.ofLexemes? e).map fun e => ⟨c, some e, comment⟩
  | _ => none

def parse? (line : List Char) : Option GoConstant :=
  let parts := GoLexeme.lex false [] line
  match parts.getLast? with
  | some (.comment s) => ofLexemes? (some s) parts.dropLast
  | _ => ofLexemes? none parts

end GoConstant

/-- A line of a constant block with what it comes to. -/
structure GoConstantValue where
  name : String
  comment : Option String
  value : Option Int
deriving Repr, DecidableEq

namespace GoConstant

/-- What the lines of a block come to, from the given line index on, when `last` is the last
expression. -/
def evaluate (scope : String → Option Int) (last : Option GoExpression) (line : Nat) :
    List GoConstant → List GoConstantValue
  | [] => []
  | c :: cs =>
    let e := c.expression.or last
    ⟨c.name, c.comment, e.bind (·.value? scope line)⟩ :: evaluate scope e (line + 1) cs

end GoConstant

/-- The value of a constant among those of a block. The blank identifier is none. -/
def valueIn (lines : List GoConstantValue) (name : String) : Option Int :=
  if name = "_" then none else (lines.find? (·.name = name)).bind (·.value)

/-! ## Blocks -/

/-- The lines of every block under the heading, up to the closing line. `block` holds, in reverse,
the lines of an open block. A block that is not closed is none. -/
def blocks (heading closing : List Char) :
    (block : Option (List (List Char))) → List (List Char) → List (List (List Char))
  | _, [] => []
  | none, l :: ls => blocks heading closing (if l = heading then some [] else none) ls
  | some entries, l :: ls =>
    if l = closing then entries.reverse :: blocks heading closing none ls
    else blocks heading closing (some (l :: entries)) ls

theorem blocks_append {heading closing : List Char} {ls : List (List Char)}
    (rest : List (List Char)) (h : heading ∉ ls) :
    blocks heading closing none (ls ++ rest) = blocks heading closing none rest := by
  induction ls with
  | nil => rfl
  | cons l ls ih =>
    have hl : l ≠ heading := fun heq => h (heq ▸ List.mem_cons_self)
    rw [List.cons_append, blocks, if_neg hl]
    exact ih fun hmem => h (List.mem_cons_of_mem _ hmem)

theorem blocks_eq_nil {heading closing : List Char} {ls : List (List Char)} (h : heading ∉ ls) :
    blocks heading closing none ls = [] := by
  rw [← List.append_nil ls, blocks_append [] h]
  rfl

theorem blocks_cons {heading closing : List Char} {entries : List (List Char)}
    (rest : List (List Char)) (h : closing ∉ entries) :
    blocks heading closing none (heading :: (entries ++ closing :: rest)) =
      entries :: blocks heading closing none rest := by
  have hopen : ∀ (read ls : List (List Char)), closing ∉ ls →
      blocks heading closing (some read) (ls ++ closing :: rest) =
        (ls.reverse ++ read).reverse :: blocks heading closing none rest := by
    intro read ls hls
    induction ls generalizing read with
    | nil =>
      rw [List.nil_append, blocks, if_pos rfl]
      rfl
    | cons l ls ih =>
      have hl : l ≠ closing := fun heq => hls (heq ▸ List.mem_cons_self)
      have hrest : closing ∉ ls := fun hmem => hls (List.mem_cons_of_mem _ hmem)
      rw [List.cons_append, blocks, if_neg hl, ih (l :: read) hrest, List.reverse_cons,
        List.append_assoc]
      rfl
  rw [blocks, if_pos rfl, hopen [] entries h, List.append_nil, List.reverse_reverse]

/-! ## The identifier block -/

/-- What an identifier block declares. -/
structure GoIdentifiers where
  /-- The first block of constants. -/
  enumeration : List GoConstant
  /-- The second block of constants, if there is one. -/
  aliases : List GoConstant
  /-- The entries of the table of values: a key and the name of a constant. -/
  values : List (String × String)
  /-- The entries of the table of names: the name of a constant and a text. -/
  names : List (String × String)
deriving Repr, DecidableEq

namespace GoIdentifiers

def constantsHeading : List Char := "const (".toList

def valuesHeading (t : IdType) : List Char :=
  ("var " ++ Text.lowerCamel t.name ++ "Values = map[string]" ++ t.name ++ "\x7b").toList

def namesHeading (t : IdType) : List Char :=
  ("var " ++ Text.lowerCamel t.name ++ "Names = map[" ++ t.name ++ "]string\x7b").toList

open GoLexeme in
def readValue? (line : List Char) : Option (String × String) :=
  match lex false [] line with
  | [text key, mark ':', word c, mark ','] => some (key, c)
  | _ => none

open GoLexeme in
def readName? (line : List Char) : Option (String × String) :=
  match lex false [] line with
  | [word c, mark ':', text s, mark ','] => some (c, s)
  | _ => none

/-- The identifier block of a text, if it has all parts of one and no other block like them. -/
def read? (t : IdType) (source : List Char) : Option GoIdentifiers :=
  let lines := Text.splitLines source
  match blocks constantsHeading [')'] none lines, blocks (valuesHeading t) ['\x7d'] none lines,
      blocks (namesHeading t) ['\x7d'] none lines with
  | [enumeration], [values], [names] => do
    return ⟨← enumeration.mapM GoConstant.parse?, [], ← values.mapM readValue?,
      ← names.mapM readName?⟩
  | [enumeration, aliases], [values], [names] => do
    return ⟨← enumeration.mapM GoConstant.parse?, ← aliases.mapM GoConstant.parse?,
      ← values.mapM readValue?, ← names.mapM readName?⟩
  | _, _, _ => none

/-- The lines of the enumeration with what they come to. No constant is in scope there. -/
def enumerated (g : GoIdentifiers) : List GoConstantValue :=
  GoConstant.evaluate (fun _ => none) none 0 g.enumeration

/-- The lines of the second block with what they come to. -/
def aliased (g : GoIdentifiers) : List GoConstantValue :=
  GoConstant.evaluate (valueIn g.enumerated) none 0 g.aliases

/-- The value of a constant. -/
def constant? (g : GoIdentifiers) (name : String) : Option Int :=
  (valueIn g.enumerated name).or (valueIn g.aliased name)

/-- What the table of values has under a key. -/
def lookup? (g : GoIdentifiers) (key : String) : Option Int :=
  (g.values.find? (·.1 = key)).bind fun entry => g.constant? entry.2

/-- What the table of names has under a value. -/
def lookupName? (g : GoIdentifiers) (value : Int) : Option String :=
  (g.names.find? fun entry => g.constant? entry.1 = some value).map (·.2)

end GoIdentifiers

end PacketGen.Generated
