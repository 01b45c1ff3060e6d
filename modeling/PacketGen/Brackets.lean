/-!
# Matching brackets

A bracket pair over any alphabet: the packet classes are searched as characters, a raw text as
bytes. The scan starts behind an opening bracket and counts the further brackets that are still
open; it ends at the closing bracket met while that count is zero, so the count is never lowered
below zero.
-/

namespace PacketGen

/-- An opening and a closing bracket. -/
structure Brackets (α : Type) where
  opening : α
  closing : α

namespace Brackets

def braces : Brackets Char := ⟨'{', '}'⟩

def parens : Brackets Char := ⟨'(', ')'⟩

variable {α : Type} [DecidableEq α]

/-- How far into `xs` the bracket closes that was opened just before it, with `pending` further
brackets open. -/
def closing? (b : Brackets α) : (pending : Nat) → List α → Option Nat
  | _, [] => none
  | pending, x :: xs =>
    if x = b.opening then (b.closing? (pending + 1) xs).map (· + 1)
    else if x = b.closing then
      match pending with
      | 0 => some 0
      | pending + 1 => (b.closing? pending xs).map (· + 1)
    else (b.closing? pending xs).map (· + 1)

/-- The index of the bracket that closes the one at `start`; `none` when no opening bracket is
there or the text ends first. -/
def match? (b : Brackets α) (text : List α) (start : Nat) : Option Nat :=
  match text.drop start with
  | [] => none
  | x :: xs => if x = b.opening then (b.closing? 0 xs).map (start + 1 + ·) else none

/-- What is found where a bracketed block is looked for. -/
inductive Block where
  /-- No opening bracket follows. -/
  | absent
  /-- The opening bracket at `opening` is never closed. -/
  | unclosed (opening : Nat)
  /-- The contents, both brackets excluded, are the elements `first` up to `last`. -/
  | closed (first last : Nat)
deriving Repr, DecidableEq

/-- The block of the first opening bracket at or after `start`. -/
def findBlock (b : Brackets α) (text : List α) (start : Nat) : Block :=
  match (text.drop start).findIdx? (· = b.opening) with
  | none => .absent
  | some n =>
    match b.match? text (start + n) with
    | some close => .closed (start + n + 1) close
    | none => .unclosed (start + n)

end Brackets

end PacketGen
