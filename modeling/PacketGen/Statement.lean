import PacketGen.Token

/-!
# Statements of packet procedures

The few shapes that procedures of packet classes are written in: calls of a buffer accessor on
`$this`, with or without an argument, their assignment to a member, and the buffer reset.

`Statement.tokens` spells a statement out and `Statement.parse` reads one. Reading is decided by
one token at each point: what follows a receiver, an arrow and a word is a call when an opening
parenthesis comes next and a member otherwise, so no reading is ever taken back.
-/

namespace PacketGen

/-- Direction of a buffer accessor. -/
inductive Verb where
  | get
  | put
deriving Repr, DecidableEq

namespace Verb

def keyword : Verb → String
  | .get => "get"
  | .put => "put"

end Verb

/-- A buffer accessor: `get` or `put`, with the tag of the type it transfers. Without a tag it
transfers raw bytes. -/
structure Accessor where
  verb : Verb
  tag : Option String
deriving Repr, DecidableEq

namespace Accessor

/-- The method name. -/
def name (a : Accessor) : String := a.verb.keyword ++ a.tag.getD ""

/-- The type tag behind the verb: absent, or starting with an upper-case letter. -/
def tag? : List Char → Option (Option String)
  | [] => some none
  | c :: cs => if c.isUpper then some (some (.ofList (c :: cs))) else none

/-- The accessor with the method name `name`. -/
def ofName? (name : String) : Option Accessor :=
  match name.toList with
  | 'g' :: 'e' :: 't' :: tag => (tag? tag).map (⟨.get, ·⟩)
  | 'p' :: 'u' :: 't' :: tag => (tag? tag).map (⟨.put, ·⟩)
  | _ => none

end Accessor

/-- A call of an accessor on `$this`, told apart by its argument. -/
inductive Call where
  /-- No argument. -/
  | bare (accessor : Accessor)
  /-- The argument `$this->field`. -/
  | ofField (accessor : Accessor) (field : String)
  /-- The argument `strlen($this->field)`. -/
  | ofLength (accessor : Accessor) (field : String)
  /-- The argument is another call. -/
  | ofCall (accessor : Accessor) (inner : Call)
deriving Repr, DecidableEq

namespace Call

def accessor : Call → Accessor
  | bare a | ofField a _ | ofLength a _ | ofCall a _ => a

/-- The tokens of `$this->name`. -/
def memberTokens (name : String) : List Token := [.this, .arrow, .word name]

def tokens : Call → List Token
  | bare a => memberTokens a.name ++ [.openParen, .closeParen]
  | ofField a field => memberTokens a.name ++ .openParen :: memberTokens field ++ [.closeParen]
  | ofLength a field =>
    memberTokens a.name ++ .openParen :: .word "strlen" :: .openParen :: memberTokens field ++
      [.closeParen, .closeParen]
  | ofCall a inner => memberTokens a.name ++ .openParen :: tokens inner ++ [.closeParen]

/-- The call that a token list starts with, and the tokens behind it. -/
def parse? : List Token → Option (Call × List Token)
  | .this :: .arrow :: .word name :: .openParen :: rest =>
    (Accessor.ofName? name).bind fun a =>
      match rest with
      | .closeParen :: after => some (bare a, after)
      | .word "strlen" :: .openParen :: .this :: .arrow :: .word field ::
          .closeParen :: .closeParen :: after =>
        some (ofLength a field, after)
      | .this :: .arrow :: .word field :: .closeParen :: after => some (ofField a field, after)
      | rest =>
        match parse? rest with
        | some (inner, .closeParen :: after) => some (ofCall a inner, after)
        | _ => none
  | _ => none

end Call

/-- One statement. -/
inductive Statement where
  /-- `$this->reset()` -/
  | reset
  | call (call : Call)
  /-- `$this->field = call` -/
  | assign (field : String) (call : Call)
deriving Repr, DecidableEq

/-- A text that is no statement. -/
structure UnrecognizedStatement where
  text : String
deriving Repr, DecidableEq

namespace UnrecognizedStatement

def message (e : UnrecognizedStatement) : String :=
  "unrecognized statement `" ++ e.text ++ "`"

end UnrecognizedStatement

namespace Statement

def tokens : Statement → List Token
  | .reset => Call.memberTokens "reset" ++ [.openParen, .closeParen]
  | .call c => c.tokens
  | .assign field c => Call.memberTokens field ++ .equals :: c.tokens

/-- The statement that a token list starts with, and the tokens behind it. -/
def ofTokens? : List Token → Option (Statement × List Token)
  | .this :: .arrow :: .word "reset" :: .openParen :: .closeParen :: after => some (.reset, after)
  | .this :: .arrow :: .word field :: .equals :: rest =>
    (Call.parse? rest).map fun r => (.assign field r.1, r.2)
  | ts => (Call.parse? ts).map fun r => (.call r.1, r.2)

/-- Whether at most one semicolon is left. -/
def isEnd : List Token → Bool
  | [] | [.semicolon] => true
  | _ => false

/-- The statement a text consists of. -/
def read? (text : List Char) : Option Statement :=
  ((Token.scan? text).bind ofTokens?).bind fun r => if isEnd r.2 then some r.1 else none

/-- The statement a text consists of; any other text is handed back in the error. -/
def parse (text : String) : Except UnrecognizedStatement Statement :=
  match read? text.toList with
  | some s => .ok s
  | none => .error ⟨text⟩

end Statement

end PacketGen
