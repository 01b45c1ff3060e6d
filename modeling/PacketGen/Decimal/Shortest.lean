/-!
# Shortest decimals

The fewest decimal digits that read back as a given binary floating-point number, and of those the
nearest to it. A number `significand * 2 ^ exponent` stands for all reals that round to it; the
search tries one digit, two digits and so on, and of each grid the two neighbours of the number.
All arithmetic is exact, on natural numbers.
-/

namespace PacketGen

/-- The decimal number `digits * 10 ^ exponent`. -/
structure Decimal where
  digits : Nat
  exponent : Int
deriving Repr, DecidableEq

namespace Decimal

/-- A positive binary number, with whether the next lower one is only half as far away as the next
higher one. -/
structure Binary where
  significand : Nat
  exponent : Int
  lowerIsNear : Bool
deriving Repr, DecidableEq

namespace Binary

/-- The finite positive number with the given bits of the 64-bit format. -/
def ofBits (bits : Nat) : Binary :=
  let fraction := bits % Nat.pow 2 52
  let biased : Nat := bits / Nat.pow 2 52 % Nat.pow 2 11
  if biased = 0 then ⟨fraction, -1074, false⟩
  else ⟨Nat.pow 2 52 + fraction, (biased : Int) - 1075, fraction == 0 && 1 < biased⟩

/-- A quarter of the last place, as a fraction. -/
def unit (b : Binary) : Nat × Nat :=
  let q := b.exponent - 2
  (Nat.pow 2 q.toNat, Nat.pow 2 (-q).toNat)

/-- The number and the ends of its rounding interval, in quarters of the last place. -/
def quarters (b : Binary) : Nat × Nat × Nat :=
  let v := 4 * b.significand
  (v - (if b.lowerIsNear then 1 else 2), v, v + 2)

/-- How `digits * 10 ^ exponent` compares with `n` quarters of the last place of `b`. -/
def compareWith (b : Binary) (d : Decimal) (n : Nat) : Ordering :=
  compare (d.digits * Nat.pow 10 d.exponent.toNat * b.unit.2)
    (n * b.unit.1 * Nat.pow 10 (-d.exponent).toNat)

/-- Whether a decimal reads back as `b`; the ends of the interval do if the significand is even. -/
def readsBack (b : Binary) (d : Decimal) : Bool :=
  let (low, _, high) := b.quarters
  let even := b.significand % 2 == 0
  (match b.compareWith d low with
    | .gt => true
    | .eq => even
    | .lt => false) &&
  (match b.compareWith d high with
    | .lt => true
    | .eq => even
    | .gt => false)

/-- The greatest decimal with the given exponent that is not above `b`. -/
def below (b : Binary) (exponent : Int) : Decimal :=
  let (_, v, _) := b.quarters
  ⟨v * b.unit.1 * Nat.pow 10 (-exponent).toNat / (b.unit.2 * Nat.pow 10 exponent.toNat), exponent⟩

/-- The exponent of the leading digit. -/
def leading (b : Binary) : Int :=
  let found := (List.range 640).find? fun (n : Nat) => (b.below (n - 330 + 1)).digits == 0
  (found.getD 0 : Int) - 330

/-- Of two neighbours on a grid, the nearer one to `b`; in the middle the even one. -/
def nearer (b : Binary) (low high : Decimal) : Decimal :=
  match b.compareWith ⟨low.digits + high.digits, low.exponent⟩ (2 * b.quarters.2.1) with
  | .gt => low
  | .lt => high
  | .eq => if low.digits % 2 = 0 then low else high

/-- The decimal of the grid with the given exponent that reads back as `b`, if there is one. -/
def onGrid? (b : Binary) (exponent : Int) : Option Decimal :=
  let low := b.below exponent
  let high : Decimal := ⟨low.digits + 1, exponent⟩
  match b.readsBack low, b.readsBack high with
  | true, true => some (b.nearer low high)
  | true, false => some low
  | false, true => some high
  | false, false => none

/-- The shortest decimal that reads back as `b`; seventeen digits always do. -/
def shortest (b : Binary) : Decimal :=
  let e := b.leading
  ((List.range 17).findSome? fun (n : Nat) => b.onGrid? (e - n)).getD (b.below (e - 16))

end Binary

/-- Digits without zeros at the end, and the exponent that goes with them. -/
def stripped : (fuel : Nat) → Decimal → Decimal
  | 0, d => d
  | fuel + 1, d =>
    if d.digits % 10 = 0 ∧ d.digits ≠ 0 then stripped fuel ⟨d.digits / 10, d.exponent + 1⟩ else d

def zeros (n : Int) : String := .ofList (List.replicate n.toNat '0')

/-- The power of ten behind a significand: its sign, and at least two digits. -/
def exponentPart (n : Int) : String :=
  let digits := toString n.natAbs
  (if n < 0 then "e-" else "e+") ++ (if digits.length < 2 then "0" ++ digits else digits)

/-- The number as it is shown: positional from `1e-5` on and below `1e16`, always with a point or
an exponent. -/
def render (d : Decimal) : String :=
  let d := stripped 20 d
  let digits := toString d.digits
  let length : Int := digits.length
  let point := length + d.exponent
  if 0 ≤ d.exponent ∧ point ≤ 16 then digits ++ zeros d.exponent ++ ".0"
  else if 0 < point ∧ point ≤ 16 then
    .ofList (digits.toList.take point.toNat ++ '.' :: digits.toList.drop point.toNat)
  else if -5 < point ∧ point ≤ 0 then "0." ++ zeros (-point) ++ digits
  else if length = 1 then digits ++ exponentPart (point - 1)
  else
    .ofList (digits.toList.take 1 ++ '.' :: digits.toList.drop 1) ++ exponentPart (point - 1)

/-- A finite floating-point number as it is shown, with the fewest digits that read back. -/
def renderFloat (x : Float) : String :=
  let bits := x.toBits.toNat
  let magnitude := bits % Nat.pow 2 63
  let text := if magnitude = 0 then "0.0" else (Binary.ofBits magnitude).shortest.render
  if bits < Nat.pow 2 63 then text else "-" ++ text

end Decimal

end PacketGen
