import PacketGen.Decimal.Shortest
import PacketGen.Json.Basic
import PacketGen.Json.Cursor
import PacketGen.Text.Quoted

/-!
# Reading JSON: words, strings and numbers

Strings are read in one pass over the text: after an escape the pass goes over as many characters
as the escape has, so each character is looked at once. A character beyond 16 bits may be escaped
as a pair of surrogates; half a pair is a fault.
-/

namespace PacketGen.Json

/-! ## Words -/

/-- Takes the characters of a word. -/
def readWord : List Char → Reader Unit
  | [] => Reader.result ()
  | w :: ws => fun c =>
    match c.rest with
    | [] => Reader.fail .eofInValue c
    | d :: _ =>
      if d = w then readWord ws (c.advance 1) else .error ⟨.expectedWord, c.offset + 1⟩

/-! ## Strings -/

/-- The value of a digit in base 16. -/
def hexValue? (c : Char) : Option Nat :=
  if c.isDigit then some (c.toNat - '0'.toNat)
  else if 'a' ≤ c ∧ c ≤ 'f' then some (c.toNat - 'a'.toNat + 10)
  else if 'A' ≤ c ∧ c ≤ 'F' then some (c.toNat - 'A'.toNat + 10)
  else none

/-- The number that the digits in base 16 mean, if all are such digits. -/
def ofHex? (digits : List Char) : Option Nat :=
  digits.foldlM (fun n c => (hexValue? c).map (16 * n + ·)) 0

/-- The four digits of an escape. -/
def hexEscape (offset : Nat) (text : List Char) : Except Misread Nat :=
  if Text.byteLength text < 4 then .error ⟨.eofInString, offset + Text.byteLength text⟩
  else match ofHex? (text.take 4) with
    | some n => .ok n
    | none => .error ⟨.invalidEscape, offset + 4⟩

def isLeading (n : Nat) : Bool := 0xD800 ≤ n && n ≤ 0xDBFF

def isTrailing (n : Nat) : Bool := 0xDC00 ≤ n && n ≤ 0xDFFF

/-- The character of a pair of surrogates. -/
def ofSurrogates (leading trailing : Nat) : Char :=
  Char.ofNat ((leading - 0xD800) * 0x400 + (trailing - 0xDC00) + 0x10000)

/-- The character of an escape by code, behind the `u`, and how many characters the escape has
there. -/
def unicodeEscape (offset : Nat) (text : List Char) : Except Misread (Char × Nat) :=
  match hexEscape offset text with
  | .error e => .error e
  | .ok n =>
    if isTrailing n then .error ⟨.loneSurrogate, offset + 4⟩
    else if !isLeading n then .ok (Char.ofNat n, 4)
    else match text.drop 4 with
      | [] => .error ⟨.eofInString, offset + 4⟩
      | ['\\'] => .error ⟨.eofInString, offset + 5⟩
      | '\\' :: 'u' :: more =>
        match hexEscape (offset + 6) more with
        | .error e => .error e
        | .ok m =>
          if isTrailing m then .ok (ofSurrogates n m, 10)
          else .error ⟨.loneSurrogate, offset + 10⟩
      | '\\' :: _ => .error ⟨.unfinishedSurrogate, offset + 6⟩
      | _ => .error ⟨.unfinishedSurrogate, offset + 5⟩

/-- The character that a letter stands for behind a backslash. -/
def ofShortEscape? (c : Char) : Option Char :=
  if c = '"' ∨ c = '\\' ∨ c = '/' then some c
  else if c = 'b' then some '\x08'
  else if c = 'f' then some '\x0c'
  else if c = 'n' then some '\n'
  else if c = 'r' then some '\r'
  else if c = 't' then some '\t'
  else none

/-- The character of an escape, behind the backslash, and how many characters the escape has
there. -/
def escape (offset : Nat) : List Char → Except Misread (Char × Nat)
  | [] => .error ⟨.eofInString, offset⟩
  | c :: cs =>
    if c = 'u' then (unicodeEscape (offset + 1) cs).map fun r => (r.1, r.2 + 1)
    else match ofShortEscape? c with
      | some d => .ok (d, 1)
      | none => .error ⟨.invalidEscape, offset + 1⟩

/-- The rest of a string, whose first `covered` characters belong to an escape already read, with
the cursor behind its closing quote. -/
def stringFrom : (covered offset : Nat) → List Char → Except Misread (List Char × Cursor)
  | _, offset, [] => .error ⟨.eofInString, offset⟩
  | covered + 1, offset, c :: cs => stringFrom covered (offset + c.utf8Size) cs
  | 0, offset, c :: cs =>
    if c = '"' then .ok ([], ⟨cs, offset + 1⟩)
    else if c = '\\' then
      match escape (offset + 1) cs with
      | .error e => .error e
      | .ok (d, n) => (stringFrom n (offset + 1) cs).map fun r => (d :: r.1, r.2)
    else if c.toNat < 0x20 then .error ⟨.controlCharacter, offset + 1⟩
    else (stringFrom 0 (offset + c.utf8Size) cs).map fun r => (c :: r.1, r.2)

/-- A string behind its opening quote. -/
def readString : Reader String := fun c =>
  (stringFrom 0 c.offset c.rest).map fun r => (.ofList r.1, r.2)

/-- How many characters an escape has that nothing is made of; surrogates need not be paired. -/
def escapeLength (offset : Nat) : List Char → Except Misread Nat
  | [] => .error ⟨.eofInString, offset⟩
  | c :: cs =>
    if c = 'u' then (hexEscape (offset + 1) cs).map fun _ => 5
    else match ofShortEscape? c with
      | some _ => .ok 1
      | none => .error ⟨.invalidEscape, offset + 1⟩

/-- The cursor behind a string that nothing is made of, whose first `covered` characters belong to
an escape. -/
def skipStringFrom : (covered offset : Nat) → List Char → Except Misread Cursor
  | _, offset, [] => .error ⟨.eofInString, offset⟩
  | covered + 1, offset, c :: cs => skipStringFrom covered (offset + c.utf8Size) cs
  | 0, offset, c :: cs =>
    if c = '"' then .ok ⟨cs, offset + 1⟩
    else if c = '\\' then
      match escapeLength (offset + 1) cs with
      | .error e => .error e
      | .ok n => skipStringFrom n (offset + 1) cs
    else if c.toNat < 0x20 then .error ⟨.controlCharacter, offset⟩
    else skipStringFrom 0 (offset + c.utf8Size) cs

/-- Takes a string behind its opening quote. -/
def skipString : Reader Unit := fun c => (skipStringFrom 0 c.offset c.rest).map ((), ·)

/-! ## Numbers that are shown -/

/-- A number as it is told in a message: whole numbers within 64 bits, and all others as
floating-point numbers. -/
inductive Number where
  | integer (n : Int)
  | float (x : Float)

namespace Number

/-- The number as it is described in a message. -/
def describe : Number → String
  | integer n => "integer `" ++ toString n ++ "`"
  | float x => "floating point `" ++ Decimal.renderFloat x ++ "`"

end Number

/-- The greatest whole number of 64 bits. -/
def maxWord : Nat := Nat.pow 2 64 - 1

/-- Appends digits to a number as long as the result is at most `limit`; also the digits that are
left. -/
def appendDigits (limit : Nat) : Nat → List Char → Nat × List Char
  | n, [] => (n, [])
  | n, c :: cs =>
    let next := n * 10 + (c.toNat - '0'.toNat)
    if next ≤ limit then appendDigits limit next cs else (n, c :: cs)

/-- A whole number moved by a power of ten. Each step rounds; `none` when the result is too
great. -/
def scaled : (fuel : Nat) → Float → Int → Option Float
  | 0, x, _ => some x
  | fuel + 1, x, exponent =>
    if exponent.natAbs ≤ 308 then
      let power := Float.ofScientific 1 false exponent.natAbs
      if 0 ≤ exponent then
        let y := x * power
        if y.isInf then none else some y
      else some (x / power)
    else if x == 0 then some x
    else if 0 ≤ exponent then none
    else scaled fuel (x / Float.ofScientific 1 false 308) (exponent + 308)

/-- Gives the floating-point number with these parts. -/
def readParts (positive : Bool) (significand : Nat) (exponent : Int) : Reader Number := fun c =>
  match scaled 5 (Float.ofNat significand) exponent with
  | none => Reader.fail .numberOutOfRange c
  | some x => .ok (.float (if positive then x else -x), c)

/-- The greatest exponent that is read. -/
def maxExponent : Nat := Nat.pow 2 31 - 1

/-- The exponent of a number, from its letter on, that is added to `exponent`. -/
def readExponent (positive : Bool) (significand : Nat) (exponent : Int) : Reader Number := do
  Reader.take
  let sign ← Reader.peek
  if sign = some '+' ∨ sign = some '-' then Reader.take
  match ← Reader.peek with
  | none => Reader.fail .eofInValue
  | some d =>
    if !d.isDigit then fun c => .error ⟨.invalidNumber, c.offset + 1⟩
    else fun c =>
      let digits := c.rest.takeWhile Char.isDigit
      let (n, left) := appendDigits maxExponent 0 digits
      if left = [] then
        let moved : Int := if sign = some '-' then exponent - n else exponent + n
        readParts positive significand moved (c.skip Char.isDigit)
      else if significand ≠ 0 ∧ sign ≠ some '-' then
        Reader.fail .numberOutOfRange (c.advance (digits.length - left.length + 1))
      else .ok (.float (if positive then 0.0 else -0.0), c.skip Char.isDigit)

/-- The exponent of a number, if there is one. -/
def readEnd (positive : Bool) (significand : Nat) (exponent : Int) : Reader Number := do
  match ← Reader.peek with
  | some 'e' | some 'E' => readExponent positive significand exponent
  | _ => readParts positive significand exponent

/-- The digits of a number from its point on. -/
def readFraction (positive : Bool) (significand : Nat) (exponent : Int) : Reader Number := do
  Reader.take
  let digits ← Reader.takeWhile Char.isDigit
  if digits = [] then
    match ← Reader.peek with
    | some _ => Reader.failAhead .invalidNumber
    | none => Reader.failAhead .eofInValue
  else
    let (n, left) := appendDigits maxWord significand digits
    readEnd positive n (exponent - (digits.length - left.length : Nat))

/-- What may follow the digits before the point, when `dropped` more digits than the significand
holds have been read. -/
def readAfterDigits (positive : Bool) (significand dropped : Nat) : Reader Number := do
  match ← Reader.peek with
  | some '.' => readFraction positive significand dropped
  | some 'e' | some 'E' => readExponent positive significand dropped
  | _ =>
    if dropped ≠ 0 then readParts positive significand dropped
    else if positive then Reader.result (.integer significand)
    else if significand = 0 ∨ Nat.pow 2 63 < significand then
      Reader.result (.float (-(Float.ofNat significand)))
    else Reader.result (.integer (-significand))

/-- A number behind its sign. -/
def readNumber (positive : Bool) : Reader Number := do
  match ← Reader.peek with
  | none => Reader.fail .eofInValue
  | some '0' =>
    Reader.take
    match ← Reader.peek with
    | some d => if d.isDigit then Reader.failAhead .invalidNumber else readAfterDigits positive 0 0
    | none => readAfterDigits positive 0 0
  | some d =>
    if !d.isDigit then fun c => .error ⟨.invalidNumber, c.offset + 1⟩
    else
      let digits ← Reader.takeWhile Char.isDigit
      let (n, left) := appendDigits maxWord 0 digits
      readAfterDigits positive n left.length

/-! ## Numbers that nothing is made of -/

/-- Takes an exponent from its letter on. -/
def skipExponent : Reader Unit := do
  Reader.take
  let sign ← Reader.peek
  if sign = some '+' ∨ sign = some '-' then Reader.take
  match ← Reader.peek with
  | none => Reader.fail .invalidNumber
  | some d =>
    if !d.isDigit then fun c => .error ⟨.invalidNumber, c.offset + 1⟩
    else let _ ← Reader.takeWhile Char.isDigit

/-- Takes a fraction from its point on. -/
def skipFraction : Reader Unit := do
  Reader.take
  let digits ← Reader.takeWhile Char.isDigit
  if digits = [] then Reader.failAhead .invalidNumber
  else match ← Reader.peek with
    | some 'e' | some 'E' => skipExponent
    | _ => Reader.result ()

/-- Takes what may follow the digits before the point. -/
def skipAfterDigits : Reader Unit := do
  match ← Reader.peek with
  | some '.' => skipFraction
  | some 'e' | some 'E' => skipExponent
  | _ => Reader.result ()

/-- Takes a number behind its sign. -/
def skipNumber : Reader Unit := do
  match ← Reader.peek with
  | none => Reader.fail .invalidNumber
  | some '0' =>
    Reader.take
    match ← Reader.peek with
    | some d => if d.isDigit then Reader.failAhead .invalidNumber else skipAfterDigits
    | none => skipAfterDigits
  | some d =>
    if !d.isDigit then fun c => .error ⟨.invalidNumber, c.offset + 1⟩
    else
      let _ ← Reader.takeWhile Char.isDigit
      skipAfterDigits

end PacketGen.Json
