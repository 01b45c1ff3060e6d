/-!
# UTF-8

Decoding of bytes that may be no text. What is wrong is told by the number of bytes that could not
be the start of a character: the longest run of bytes that begins one, or a single byte. Where the
bytes end inside a character, nothing is wrong yet but something is missing.
-/

namespace PacketGen.Text

/-- What bytes start with. -/
inductive Utf8Step where
  /-- A character of so many bytes. -/
  | char (c : Char) (length : Nat)
  /-- So many bytes that are no start of a character. -/
  | invalid (length : Nat)
  /-- The start of a character that is cut off. -/
  | incomplete
deriving Repr, DecidableEq

/-- Whether a byte continues a character. -/
def isContinuation (b : UInt8) : Bool := 0x80 ≤ b && b ≤ 0xBF

/-- The number that leading bits and continuation bytes make. -/
def assemble (lead : Nat) (bytes : List UInt8) : Char :=
  Char.ofNat (bytes.foldl (fun n b => n * 0x40 + (b.toNat - 0x80)) lead)

/-- The bytes that may follow the first byte of a character of more than one byte: how many, and
the range of the next one. -/
def continuation? (b : UInt8) : Option (Nat × UInt8 × UInt8) :=
  if 0xC2 ≤ b && b ≤ 0xDF then some (1, 0x80, 0xBF)
  else if b == 0xE0 then some (2, 0xA0, 0xBF)
  else if b == 0xED then some (2, 0x80, 0x9F)
  else if 0xE1 ≤ b && b ≤ 0xEF then some (2, 0x80, 0xBF)
  else if b == 0xF0 then some (3, 0x90, 0xBF)
  else if 0xF1 ≤ b && b ≤ 0xF3 then some (3, 0x80, 0xBF)
  else if b == 0xF4 then some (3, 0x80, 0x8F)
  else none

/-- The leading bits in the first byte of a character of `count + 1` bytes. -/
def leadBits (count : Nat) (b : UInt8) : Nat :=
  b.toNat - (if count = 1 then 0xC0 else if count = 2 then 0xE0 else 0xF0)

/-- What a byte and those behind it start with. -/
def utf8Step (b : UInt8) (bs : List UInt8) : Utf8Step :=
  if b < 0x80 then .char (Char.ofNat b.toNat) 1
  else match continuation? b with
    | none => .invalid 1
    | some (count, low, high) =>
      match bs with
      | [] => .incomplete
      | second :: _ =>
        if second < low || high < second then .invalid 1
        else
          let tail := (bs.take count).takeWhile isContinuation
          if tail.length = count then .char (assemble (leadBits count b) tail) (count + 1)
          else if bs.length ≤ tail.length then .incomplete
          else .invalid (tail.length + 1)

/-- Why bytes are no text: so many good bytes come first. -/
inductive Utf8Fault where
  | invalid (length index : Nat)
  | incomplete (index : Nat)
deriving Repr, DecidableEq

namespace Utf8Fault

def message : Utf8Fault → String
  | invalid length index =>
    "invalid utf-8 sequence of " ++ toString length ++ " bytes from index " ++ toString index
  | incomplete index => "incomplete utf-8 byte sequence from index " ++ toString index

end Utf8Fault

/-- The characters of bytes, of which the first `covered` belong to a character already taken. -/
def decodeFrom : (covered index : Nat) → List UInt8 → Except Utf8Fault (List Char)
  | _, _, [] => .ok []
  | covered + 1, index, _ :: bs => decodeFrom covered (index + 1) bs
  | 0, index, b :: bs =>
    match utf8Step b bs with
    | .char c length => (decodeFrom (length - 1) (index + 1) bs).map (c :: ·)
    | .invalid length => .error (.invalid length index)
    | .incomplete => .error (.incomplete index)

/-- The text that bytes are the UTF-8 form of. -/
def decode (bytes : List UInt8) : Except Utf8Fault String :=
  (decodeFrom 0 0 bytes).map String.ofList

/-- The characters of bytes, of which the first `covered` belong to a run already taken. -/
def decodeReplacingFrom : (covered : Nat) → List UInt8 → List Char
  | _, [] => []
  | covered + 1, _ :: bs => decodeReplacingFrom covered bs
  | 0, b :: bs =>
    match utf8Step b bs with
    | .char c length => c :: decodeReplacingFrom (length - 1) bs
    | .invalid length => '\ufffd' :: decodeReplacingFrom (length - 1) bs
    | .incomplete => ['\ufffd']

/-- Bytes as text, with a replacement character for each run that is no character. -/
def decodeReplacing (bytes : List UInt8) : String := .ofList (decodeReplacingFrom 0 bytes)

/-- The UTF-8 form of a text. -/
def encode (s : String) : List UInt8 := s.toUTF8.toList

end PacketGen.Text
