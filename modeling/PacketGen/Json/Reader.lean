import PacketGen.Json.Scalar

/-!
# Reading JSON: values of a known type

The reader never builds a JSON value: what a text may hold is known, so each part is read as what
it is needed for, and a part that is not needed is passed over. A value of the wrong type is told
in the message; of it, a word, a string or a number is read to its end first, a list or an object
is not entered.

`Reader.list` and `Reader.object` close their bracket even when the contents had a fault of their
own (a missing or repeated key, too few items). Such a fault is reported where the closing left the
cursor.
-/

namespace PacketGen.Json

/-! ## Values that are passed over -/

mutual

/-- Takes a value. Every level of nesting uses up fuel, and a value cannot be nested deeper than the
text is long. -/
def skipValue : (fuel : Nat) → Reader Unit
  | 0 => Reader.fail .eofInValue
  | fuel + 1 => do
    match ← Reader.peekValue with
    | none => Reader.failAhead .eofInValue
    | some 'n' => readWord "null".toList
    | some 't' => readWord "true".toList
    | some 'f' => readWord "false".toList
    | some '-' => do Reader.take; skipNumber
    | some '"' => do Reader.take; skipString
    | some '[' => do
      Reader.take
      match ← Reader.peekValue with
      | some ']' => Reader.take
      | none => Reader.failAhead .eofInList
      | some _ => skipItems fuel
    | some '{' => do
      Reader.take
      match ← Reader.peekValue with
      | some '}' => Reader.take
      | none => Reader.failAhead .eofInObject
      | some _ => skipMembers fuel
    | some c => if c.isDigit then skipNumber else Reader.failAhead .expectedValue

/-- Takes the items of a list from one item on, with the closing bracket. -/
def skipItems : (fuel : Nat) → Reader Unit
  | 0 => Reader.fail .eofInList
  | fuel + 1 => do
    skipValue fuel
    match ← Reader.peekValue with
    | some ',' => do Reader.take; skipItems fuel
    | some ']' => Reader.take
    | some _ => Reader.failAhead .expectedListEnd
    | none => Reader.failAhead .eofInList

/-- Takes the members of an object from one key on, with the closing bracket. -/
def skipMembers : (fuel : Nat) → Reader Unit
  | 0 => Reader.fail .eofInObject
  | fuel + 1 => do
    match ← Reader.peekValue with
    | some '"' => Reader.take
    | some _ => Reader.failAhead .keyNotString
    | none => Reader.failAhead .eofInObject
    skipString
    match ← Reader.peekValue with
    | some ':' => Reader.take
    | some _ => Reader.failAhead .expectedColon
    | none => Reader.failAhead .eofInObject
    skipValue fuel
    match ← Reader.peekValue with
    | some ',' => do Reader.take; skipMembers fuel
    | some '}' => Reader.take
    | some _ => Reader.failAhead .expectedObjectEnd
    | none => Reader.failAhead .eofInObject

end

/-- Takes a value of any kind. -/
def skipAny : Reader Unit := fun c => skipValue (2 * c.rest.length + 2) c

/-! ## Values of a known type -/

/-- The fault of a value ahead that is no `expected`. -/
def wrongType {α : Type} (expected : String) : Reader α := do
  let blame (found : String) : Reader α := Reader.fail (.invalidType found expected)
  match ← Reader.peek with
  | some 'n' => do readWord "null".toList; blame "null"
  | some 't' => do readWord "true".toList; blame "boolean `true`"
  | some 'f' => do readWord "false".toList; blame "boolean `false`"
  | some '-' => do
    Reader.take
    let n ← readNumber false
    blame n.describe
  | some '"' => do
    Reader.take
    let s ← readString
    blame ("string " ++ Text.quoted s)
  | some '[' => blame "sequence"
  | some '{' => blame "map"
  | some c =>
    if c.isDigit then do
      let n ← readNumber true
      blame n.describe
    else Reader.failAhead .expectedValue
  | none => Reader.failAhead .expectedValue

/-- A string, described as `expected` when something else is found. -/
def stringAs (expected : String) : Reader String := do
  match ← Reader.peekValue with
  | none => Reader.failAhead .eofInValue
  | some '"' => do Reader.take; readString
  | some _ => wrongType expected

/-- A string. -/
def text : Reader String := stringAs "a string"

/-- A value that may be null. -/
def optional {α : Type} (r : Reader α) : Reader (Option α) := do
  match ← Reader.peekValue with
  | some 'n' => do readWord "null".toList; return none
  | _ => do return some (← r)

/-- The cursor behind a closing bracket, where the closing leaves it, and the fault of something
else that stands there. -/
def closeList (c : Cursor) : Cursor × Option Misread :=
  let c := c.skip isSpace
  match c.rest with
  | ']' :: _ => (c.advance 1, none)
  | ',' :: _ =>
    let c := (c.advance 1).skip isSpace
    let fault := if c.rest.head? = some ']' then Fault.trailingComma else .trailingCharacters
    (c, some ⟨fault, if c.rest = [] then c.offset else c.offset + 1⟩)
  | _ :: _ => (c, some ⟨.trailingCharacters, c.offset + 1⟩)
  | [] => (c, some ⟨.eofInList, c.offset⟩)

/-- The same for the closing bracket of an object. -/
def closeObject (c : Cursor) : Cursor × Option Misread :=
  let c := c.skip isSpace
  match c.rest with
  | '}' :: _ => (c.advance 1, none)
  | ',' :: _ => (c, some ⟨.trailingComma, c.offset + 1⟩)
  | _ :: _ => (c, some ⟨.trailingCharacters, c.offset + 1⟩)
  | [] => (c, some ⟨.eofInObject, c.offset⟩)

/-- Reads contents behind an opening bracket and closes it. A fault of the contents as a whole goes
before one of the closing. -/
def enclosed {α : Type} (close : Cursor → Cursor × Option Misread)
    (contents : Reader (Except Fault α)) : Reader α := fun c =>
  match contents (c.advance 1) with
  | .error e => .error e
  | .ok (.error fault, c) => .error ⟨fault, (close c).1.offset⟩
  | .ok (.ok a, c) =>
    match close c with
    | (_, some e) => .error e
    | (c, none) => .ok (a, c)

/-- Whether another item follows, and goes to it. -/
def nextItem (isFirst : Bool) : Reader Bool := do
  match ← Reader.peekValue with
  | some ']' => return false
  | none => Reader.failAhead .eofInList
  | some c =>
    if isFirst then return true
    else if c = ',' then
      Reader.take
      match ← Reader.peekValue with
      | some ']' => Reader.failAhead .trailingComma
      | some _ => return true
      | none => Reader.failAhead .eofInValue
    else Reader.failAhead .expectedListEnd

/-- The next key with its quotes, if another member follows. -/
def nextKey (isFirst : Bool) : Reader (Option String) := do
  match ← Reader.peekValue with
  | some '}' => return none
  | none => Reader.failAhead .eofInObject
  | some c =>
    if isFirst then
      if c = '"' then do Reader.take; return some (← readString)
      else Reader.failAhead .keyNotString
    else if c = ',' then
      Reader.take
      match ← Reader.peekValue with
      | some '"' => do Reader.take; return some (← readString)
      | some '}' => Reader.failAhead .trailingComma
      | some _ => Reader.failAhead .keyNotString
      | none => Reader.failAhead .eofInValue
    else Reader.failAhead .expectedObjectEnd

/-- Takes the colon behind a key. -/
def colon : Reader Unit := do
  match ← Reader.peekValue with
  | some ':' => Reader.take
  | some _ => Reader.failAhead .expectedColon
  | none => Reader.failAhead .eofInObject

/-- Items up to the closing bracket; each takes at least one character, so that the length of the
text is fuel enough. -/
def items {α : Type} (r : Reader α) : (fuel : Nat) → (isFirst : Bool) → Reader (List α)
  | 0, _ => Reader.fail .eofInList
  | fuel + 1, isFirst => do
    if ← nextItem isFirst then
      let a ← r
      let rest ← items r fuel false
      return a :: rest
    else return []

/-- A list of values of one type. -/
def listOf {α : Type} (r : Reader α) : Reader (List α) := do
  match ← Reader.peekValue with
  | none => Reader.failAhead .eofInValue
  | some '[' =>
    enclosed closeList fun c => (items r (c.rest.length + 1) true c).map fun x => (.ok x.1, x.2)
  | some _ => wrongType "a sequence"

/-! ## Records

A record is read from an object, by key, or from a list, by position. Each of its settings says
how its value is read and what the value changes in the state that is being put together. -/

/-- A setting of a record that is put together in a state. -/
structure Setting (σ : Type) where
  key : String
  read : Reader (σ → σ)

/-- How a record is read. -/
structure Record (σ α : Type) where
  /-- What is expected, as messages tell it. -/
  expected : String
  settings : List (Setting σ)
  initial : σ
  /-- The record, from the final state. -/
  ofKeys : σ → Except Fault α
  /-- The record, from the final state when only this many settings were given by position. -/
  ofItems : Nat → σ → Except Fault α

namespace Record

variable {σ α : Type}

/-- The members of an object up to its closing bracket, when the keys in `seen` have been read. -/
def members (settings : List (Setting σ)) :
    (fuel : Nat) → (isFirst : Bool) → (seen : List String) → σ → Reader (Except Fault σ)
  | 0, _, _, _ => Reader.fail .eofInObject
  | fuel + 1, isFirst, seen, s => do
    match ← nextKey isFirst with
    | none => return .ok s
    | some key =>
      match settings.find? (·.key == key) with
      | none => do
        colon
        skipAny
        members settings fuel false seen s
      | some setting =>
        if key ∈ seen then return .error (.duplicateKey key)
        else do
          colon
          let change ← setting.read
          members settings fuel false (key :: seen) (change s)

/-- The items of a list as settings in their order, and how many there were. -/
def positions : List (Setting σ) → (isFirst : Bool) → (count : Nat) → σ → Reader (Nat × σ)
  | [], _, count, s => return (count, s)
  | setting :: settings, isFirst, count, s => do
    if ← nextItem isFirst then
      let change ← setting.read
      positions settings false (count + 1) (change s)
    else return (count, s)

/-- Reads a record. -/
def read (r : Record σ α) : Reader α := do
  match ← Reader.peekValue with
  | none => Reader.failAhead .eofInValue
  | some '{' =>
    enclosed closeObject fun c =>
      (members r.settings (c.rest.length + 1) true [] r.initial c).map fun x =>
        (x.1.bind r.ofKeys, x.2)
  | some '[' =>
    enclosed closeList fun c =>
      (positions r.settings true 0 r.initial c).map fun x => (r.ofItems x.1.1 x.1.2, x.2)
  | some _ => wrongType r.expected

end Record

/-- The value that a whole text consists of. -/
def readAll {α : Type} (r : Reader α) (source : String) : Except Misread α :=
  match r (Cursor.start source.toList) with
  | .error e => .error e
  | .ok (a, c) =>
    let c := c.skip isSpace
    if c.rest = [] then .ok a else .error ⟨.trailingCharacters, c.offset + 1⟩

end PacketGen.Json
