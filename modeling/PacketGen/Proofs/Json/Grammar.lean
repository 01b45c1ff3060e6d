import PacketGen.Proofs.Json.Value

/-!
# The texts of JSON values

What a JSON text may look like, by the grammar and not by a reader of it. `Enclosed` is what lists
and objects have in common: parts behind commas between two brackets, with white space wherever it
may be. On top of it there are two views of a value. `Spells` tells which texts stand for a value
that is known: strings in any spelling, white space at will, and the members of an object in any
order. `WellFormed` tells which texts are values at all, for the parts of a text that nothing is
made of; these hold numbers of every kind, and strings with half a pair of surrogates.

The written form of a value is one of the texts that stand for it (`spells_pretty`).
-/

namespace PacketGen.Json

/-! ## Brackets and commas -/

section Enclosed

variable {α : Type}

/-- Parts that each stand behind a comma, up to the closing bracket. -/
inductive Separated (Part : α → List Char → Prop) : List α → List Char → Prop
  | nil {spaces : List Char} (hspaces : Spaces spaces) : Separated Part [] spaces
  | cons {spaces part more : List Char} {x : α} {xs : List α} (hspaces : Spaces spaces)
      (hpart : Part x part) (hmore : Separated Part xs more) :
      Separated Part (x :: xs) (spaces ++ ',' :: (part ++ more))

/-- Parts between two brackets. -/
inductive Enclosed (opening closing : Char) (Part : α → List Char → Prop) :
    List α → List Char → Prop
  | empty {spaces : List Char} (hspaces : Spaces spaces) :
      Enclosed opening closing Part [] (opening :: (spaces ++ [closing]))
  | cons {part more : List Char} {x : α} {xs : List α} (hpart : Part x part)
      (hmore : Separated Part xs more) :
      Enclosed opening closing Part (x :: xs) (opening :: (part ++ (more ++ [closing])))

end Enclosed

/-- A value with white space before it. -/
inductive ItemText (value : List Char) : List Char → Prop
  | intro {spaces : List Char} (hspaces : Spaces spaces) : ItemText value (spaces ++ value)

/-- A value behind its key and a colon. -/
inductive MemberText (IsKey : List Char → Prop) (value : List Char) : List Char → Prop
  | intro {before key behind spaces : List Char} (hbefore : Spaces before) (hkey : IsKey key)
      (hbehind : Spaces behind) (hspaces : Spaces spaces) :
      MemberText IsKey value (before ++ (key ++ (behind ++ ':' :: (spaces ++ value))))

/-- A value with white space on either side. -/
inductive Surrounded (value : List Char) : List Char → Prop
  | intro {before behind : List Char} (hbefore : Spaces before) (hbehind : Spaces behind) :
      Surrounded value (before ++ (value ++ behind))

/-! ## Known values -/

/-- A string in quotes, in one of its spellings. -/
inductive Literal (s : String) : List Char → Prop
  | intro {text : List Char} (h : SpellsText text s.toList) : Literal s ('"' :: (text ++ ['"']))

/-- The items of a list, given by their texts. -/
def ListText (values : List (List Char)) (text : List Char) : Prop :=
  Enclosed '[' ']' ItemText values text

/-- A member whose key is known, given by the key and the text of its value. -/
def KeyedText (member : String × List Char) (text : List Char) : Prop :=
  MemberText (Literal member.1) member.2 text

/-- The members of an object whose keys are known. -/
def ObjectText (members : List (String × List Char)) (text : List Char) : Prop :=
  Enclosed '\x7b' '\x7d' KeyedText members text

/-- A text stands for a value. -/
inductive Spells : Json → List Char → Prop
  | null : Spells .null "null".toList
  | bool (b : Bool) : Spells (.bool b) (wordOfBool b).toList
  | number (n : Int) : Spells (.number n) (toString n).toList
  | string {s : String} {text : List Char} (h : Literal s text) : Spells (.string s) text
  | array {items : List Json} {values : List (List Char)} {text : List Char}
      (hitems : List.Forall₂ Spells items values) (htext : ListText values text) :
      Spells (.array items) text
  | object {members ordered : List (String × Json)} {values : List (String × List Char)}
      {text : List Char} (horder : ordered.Perm members)
      (hkeys : values.map Prod.fst = ordered.map Prod.fst)
      (hvalues : List.Forall₂ Spells (ordered.map Prod.snd) (values.map Prod.snd))
      (htext : ObjectText values text) : Spells (.object members) text

/-! ## Values of any kind -/

/-- A string in quotes that nothing is made of. -/
inductive StringText : List Char → Prop
  | intro {parts : List (List Char)} (h : ∀ part ∈ parts, StringPiece part) :
      StringText ('"' :: (parts.flatten ++ ['"']))

def Digits (text : List Char) : Prop := text ≠ [] ∧ ∀ c ∈ text, c.isDigit = true

/-- The digits before the point: a zero stands alone. -/
inductive WholeText : List Char → Prop
  | zero : WholeText ['0']
  | digits {text : List Char} (hdigits : Digits text) (hfirst : text.head? ≠ some '0') :
      WholeText text

inductive FractionText : List Char → Prop
  | none : FractionText []
  | digits {text : List Char} (hdigits : Digits text) : FractionText ('.' :: text)

inductive ExponentText : List Char → Prop
  | none : ExponentText []
  | digits {e : Char} {sign text : List Char} (he : e = 'e' ∨ e = 'E')
      (hsign : sign = [] ∨ sign = ['+'] ∨ sign = ['-']) (hdigits : Digits text) :
      ExponentText (e :: (sign ++ text))

inductive NumberText : List Char → Prop
  | intro {sign whole fraction exponent : List Char} (hsign : sign = [] ∨ sign = ['-'])
      (hwhole : WholeText whole) (hfraction : FractionText fraction)
      (hexponent : ExponentText exponent) :
      NumberText (sign ++ (whole ++ (fraction ++ exponent)))

/-- The text of some value. -/
inductive WellFormed : List Char → Prop
  | null : WellFormed "null".toList
  | bool (b : Bool) : WellFormed (wordOfBool b).toList
  | number {text : List Char} (h : NumberText text) : WellFormed text
  | string {text : List Char} (h : StringText text) : WellFormed text
  | array {values : List (List Char)} {text : List Char}
      (hvalues : ∀ value ∈ values, WellFormed value) (htext : ListText values text) :
      WellFormed text
  | object {values : List (List Char)} {text : List Char}
      (hvalues : ∀ value ∈ values, WellFormed value)
      (htext : Enclosed '\x7b' '\x7d' (MemberText StringText) values text) : WellFormed text

/-! ## The written form -/

theorem literal_quote (s : String) : Literal s (quote s) := .intro (spells_escaped s.toList)

theorem separated_prettyItems (level outer : Nat) (items : List Json) :
    Separated ItemText (items.map (pretty level)) (prettyItems level items ++ newline outer) := by
  induction items with
  | nil => exact .nil (spaces_newline outer)
  | cons item items ih =>
    have hitem : ItemText (item.pretty level) (newline level ++ item.pretty level) :=
      .intro (spaces_newline level)
    simpa [prettyItems] using Separated.cons spaces_nil hitem ih

theorem keyedText_pretty (level : Nat) (member : String × Json) :
    KeyedText (member.1, member.2.pretty level)
      (newline level ++ (quote member.1 ++ ([':', ' '] ++ member.2.pretty level))) :=
  .intro (spaces_newline level) (literal_quote member.1) spaces_nil spaces_one

theorem separated_prettyMembers (level outer : Nat) (members : List (String × Json)) :
    Separated KeyedText (members.map fun m => (m.1, m.2.pretty level))
      (prettyMembers level members ++ newline outer) := by
  induction members with
  | nil => exact .nil (spaces_newline outer)
  | cons member members ih =>
    simpa [prettyMembers] using Separated.cons spaces_nil (keyedText_pretty level member) ih

theorem listText_pretty (level : Nat) (items : List Json) :
    ListText (items.map (pretty (level + 1))) ((array items).pretty level) := by
  cases items with
  | nil => exact .empty spaces_nil
  | cons item items =>
    have hitem : ItemText (item.pretty (level + 1))
        (newline (level + 1) ++ item.pretty (level + 1)) := .intro (spaces_newline (level + 1))
    have htext : ListText _ _ := .cons hitem (separated_prettyItems (level + 1) level items)
    simpa [pretty] using htext

theorem objectText_pretty (level : Nat) (members : List (String × Json)) :
    ObjectText (members.map fun m => (m.1, m.2.pretty (level + 1)))
      ((object members).pretty level) := by
  cases members with
  | nil => exact .empty spaces_nil
  | cons member members =>
    have htext : ObjectText _ _ := .cons (keyedText_pretty (level + 1) member)
      (separated_prettyMembers (level + 1) level members)
    simpa [pretty] using htext

mutual

/-- **The written form of a value stands for it.** -/
theorem spells_pretty (level : Nat) : (j : Json) → Spells j (j.pretty level)
  | .null => .null
  | .bool b => .bool b
  | .number n => .number n
  | .string s => .string (literal_quote s)
  | .array items => .array (spells_prettyItems (level + 1) items) (listText_pretty level items)
  | .object members =>
    .object (.refl members) (by simp [Function.comp_def])
      (spells_prettyMembers (level + 1) members) (objectText_pretty level members)

theorem spells_prettyItems (level : Nat) :
    (items : List Json) → List.Forall₂ Spells items (items.map (pretty level))
  | [] => .nil
  | item :: items => .cons (spells_pretty level item) (spells_prettyItems level items)

theorem spells_prettyMembers (level : Nat) : (members : List (String × Json)) →
    List.Forall₂ Spells (members.map Prod.snd)
      ((members.map fun m => (m.1, m.2.pretty level)).map Prod.snd)
  | [] => .nil
  | (_, value) :: members =>
    .cons (spells_pretty level value) (spells_prettyMembers level members)

end

end PacketGen.Json
