import PacketGen.Text.LetterTables

/-!
# Letter case of one character

A character's upper-case form may have up to three characters, its lower-case form up to two.
Neither depends on the characters around it.
-/

namespace PacketGen.Text

namespace CaseRun

def contains (r : CaseRun) (n : Nat) : Bool :=
  r.first ≤ n && n ≤ r.last && (n - r.first) % r.step == 0

def shift (r : CaseRun) (n : Nat) : Char := Char.ofNat (n + r.delta).toNat

end CaseRun

/-- The image of `c` in a table of runs; `c` itself when no run holds it. -/
def mapRuns (runs : List CaseRun) (c : Char) : Char :=
  match runs.find? (·.contains c.toNat) with
  | some r => r.shift c.toNat
  | none => c

/-- The upper-case form of `c`. -/
def toUpper (c : Char) : List Char :=
  if c.toNat < 0x80 then [c.toUpper]
  else match upperExpansions.lookup c.toNat with
    | some cs => cs.map Char.ofNat
    | none => [mapRuns upperRuns c]

/-- The lower-case form of `c`. -/
def toLower (c : Char) : List Char :=
  if c.toNat < 0x80 then [c.toLower]
  else match lowerExpansions.lookup c.toNat with
    | some cs => cs.map Char.ofNat
    | none => [mapRuns lowerRuns c]

theorem toUpper_of_ascii {c : Char} (h : c.toNat < 0x80) : toUpper c = [c.toUpper] := by
  simp [toUpper, h]

theorem toLower_of_ascii {c : Char} (h : c.toNat < 0x80) : toLower c = [c.toLower] := by
  simp [toLower, h]

end PacketGen.Text
