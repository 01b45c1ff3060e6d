import PacketGen.Constant
import PacketGen.Text.Offset

/-!
# Identifier tables

Declarations give names to integers. The first name declared for a value owns it and is canonical;
a later name for the same value is an alias of the owner.

A table is grown one declaration at a time by `IdTable.declare`, and keeps beside the two lists the
first declaration of every name, which is what the declared value of a name is read from.
-/

namespace PacketGen

/-- A named integer and where it is declared. -/
structure Declaration where
  name : String
  value : Int
  span : Span
deriving Repr, DecidableEq

/-- A further name for a value that a canonical constant owns. -/
structure Alias where
  name : String
  canonical : String
  span : Span
deriving Repr, DecidableEq

/-- Canonical constants and their aliases. -/
structure IdTable where
  /-- Canonical constants in declaration order. -/
  canonical : List Constant
  /-- Aliases in declaration order. -/
  aliases : List Alias
  /-- The first declaration of every name, in declaration order. -/
  declared : List Declaration
deriving Repr, DecidableEq

/-- A place in the contiguous sequence of values. -/
inductive Slot where
  | named (entry : Constant)
  /-- A value between two declared ones that no name is declared for. -/
  | placeholder (value : Int)
deriving Repr, DecidableEq

namespace Slot

def value : Slot → Int
  | named entry => entry.value
  | placeholder value => value

end Slot

namespace IdTable

def empty : IdTable := ⟨[], [], []⟩

/-- The first declaration of a name. -/
def declaration? (t : IdTable) (name : String) : Option Declaration :=
  t.declared.find? (·.name == name)

/-- The declared value of a canonical or alias name. -/
def value? (t : IdTable) (name : String) : Option Int := (t.declaration? name).map (·.value)

/-- Position of the canonical constant that owns a value. -/
def ownerIndex? (t : IdTable) (value : Int) : Option Nat :=
  t.canonical.findIdx? (·.value == value)

/-- The canonical constant that owns a value. -/
def owner? (t : IdTable) (value : Int) : Option Constant :=
  (t.ownerIndex? value).bind (t.canonical[·]?)

def canonicalName? (t : IdTable) (value : Int) : Option String :=
  (t.owner? value).map (·.name)

/-- The canonical name that an alias stands for, or the name itself. -/
def canonicalFor (t : IdTable) (name : String) : String :=
  match t.aliases.find? (·.name == name) with
  | some a => a.canonical
  | none => name

/-- The value of a name, looked up through the aliases and the canonical constants. -/
def resolve? (t : IdTable) (name : String) : Option Int :=
  (t.canonical.find? (·.name == t.canonicalFor name)).map (·.value)

/-- The table with one more declaration, of a name that is not declared yet. -/
def declare (t : IdTable) (d : Declaration) : IdTable :=
  match t.owner? d.value with
  | some owner =>
    { t with
      aliases := t.aliases ++ [⟨d.name, owner.name, d.span⟩]
      declared := t.declared ++ [d] }
  | none =>
    { t with
      canonical := t.canonical ++ [⟨d.name, d.value⟩]
      declared := t.declared ++ [d] }

/-- The canonical constants ascending by value. -/
def sorted (t : IdTable) : List Constant :=
  t.canonical.mergeSort fun a b => a.value ≤ b.value

/-- The values from `first` up to but not including `stop` as placeholders. -/
def placeholders (first stop : Int) : List Slot :=
  (List.range (stop - first).toNat).map fun (k : Nat) => .placeholder (first + k)

/-- The slots of ascending constants, with the gaps between neighbours filled. -/
def fillGaps : List Constant → List Slot
  | [] => []
  | [entry] => [.named entry]
  | entry :: next :: entries =>
    .named entry :: placeholders (entry.value + 1) next.value ++ fillGaps (next :: entries)

/-- The canonical constants ascending by value, with a placeholder for every value between the
lowest and the highest that is not declared. Not every such list can be collected in a program
(`IdTable.collectSlots`). -/
def slots (t : IdTable) : List Slot := fillGaps t.sorted

end IdTable

end PacketGen
