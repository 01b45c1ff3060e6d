import PacketGen.IdTable.Basic

/-!
# Collecting the slots of a table

The slots of a table are put into a vector constant by constant: the placeholders up to the
constant, for which room is made in one go, and then the constant itself. A vector counts its bytes
in a signed word, so a gap that is wide enough asks for more than any vector can have, and the
program stops there. Where it does not stop, what it has collected are the slots
(`IdTable.slots`).

Memory is taken to be as large as a vector can count; that a real one runs out before is not
modelled.
-/

namespace PacketGen

/-- Why the program stops where it stands, with no answer at all. -/
inductive Panic where
  /-- A vector is asked for more room than it can count. -/
  | capacityOverflow
  /-- A sum takes more than 64 bits. -/
  | additionOverflow
deriving Repr, DecidableEq

namespace Panic

def message : Panic → String
  | capacityOverflow => "capacity overflow"
  | additionOverflow => "attempt to add with overflow"

end Panic

/-- A growing vector of slots. -/
structure SlotVector where
  slots : List Slot
  /-- How many slots there is room for. -/
  capacity : Nat
deriving Repr, DecidableEq

namespace SlotVector

def empty : SlotVector := ⟨[], 0⟩

/-- The most slots that a vector has room for: they take 16 bytes each, and their bytes are counted
in a signed word of 64 bits. -/
def limit : Nat := 0x7FFFFFFFFFFFFFFF / 16

/-- The room of a vector after it is asked for room for `length` slots. If it has to grow, it at
least doubles. -/
def grown (capacity length : Nat) : Nat :=
  if length ≤ capacity then capacity else max (max (2 * capacity) length) 4

/-- Makes room for more slots. -/
def reserve (v : SlotVector) (additional : Nat) : Except Panic SlotVector :=
  let capacity := grown v.capacity (v.slots.length + additional)
  if capacity ≤ limit then .ok { v with capacity } else .error .capacityOverflow

/-- Appends one slot. -/
def push (v : SlotVector) (slot : Slot) : Except Panic SlotVector := do
  let v ← v.reserve 1
  return { v with slots := v.slots ++ [slot] }

/-- Appends placeholders for the values from `first` up to but not including `stop`. -/
def extend (v : SlotVector) (first stop : Int) : Except Panic SlotVector := do
  let v ← v.reserve (stop - first).toNat
  return { v with slots := v.slots ++ IdTable.placeholders first stop }

end SlotVector

/-- The next value, if it has 64 bits. -/
def successor (v : Int) : Except Panic Int :=
  if Constant.fits (v + 1) then .ok (v + 1) else .error .additionOverflow

/-- A walk along ascending constants. -/
structure SlotWalk where
  /-- The value of the constant that was passed last. -/
  previous : Option Int
  vector : SlotVector
deriving Repr, DecidableEq

namespace SlotWalk

/-- The vector with the gap in front of a constant. -/
def fill (w : SlotWalk) (e : Constant) : Except Panic SlotVector :=
  match w.previous with
  | none => .ok w.vector
  | some previous => do w.vector.extend (← successor previous) e.value

/-- The walk past one more constant. -/
def enter (w : SlotWalk) (e : Constant) : Except Panic SlotWalk := do
  let v ← w.fill e
  return ⟨some e.value, ← v.push (.named e)⟩

end SlotWalk

namespace IdTable

/-- The slots of a table as the program collects them. -/
def collectSlots (t : IdTable) : Except Panic (List Slot) := do
  let w ← t.sorted.foldlM SlotWalk.enter ⟨none, .empty⟩
  return w.vector.slots

end IdTable

end PacketGen
