/-!
# Byte offsets

Texts are lists of characters, but every position that is reported is a byte offset into the
UTF-8 form. Working on characters and measuring only at the end keeps every reported offset on a
character boundary: `byteOffset` takes its values nowhere else.
-/

namespace PacketGen

/-- A byte range `start..stop` of one text. -/
structure Span where
  start : Nat
  stop : Nat
deriving Repr, DecidableEq, Inhabited

namespace Span

/-- The range as it is shown: `start..stop`. -/
def render (s : Span) : String := s!"{s.start}..{s.stop}"

end Span

namespace Text

/-- Bytes of the UTF-8 form. -/
def byteLength (cs : List Char) : Nat := cs.foldr (fun c n => c.utf8Size + n) 0

/-- Byte offset of the character with index `index`; the length in bytes at and past the end. -/
def byteOffset (cs : List Char) (index : Nat) : Nat := byteLength (cs.take index)

@[simp] theorem byteLength_nil : byteLength [] = 0 := rfl

@[simp] theorem byteLength_cons (c : Char) (cs : List Char) :
    byteLength (c :: cs) = c.utf8Size + byteLength cs := rfl

@[simp] theorem byteLength_append (as bs : List Char) :
    byteLength (as ++ bs) = byteLength as + byteLength bs := by
  induction as with
  | nil => simp
  | cons a as ih => rw [List.cons_append, byteLength_cons, byteLength_cons, ih, Nat.add_assoc]

@[simp] theorem byteLength_replicate (n : Nat) (c : Char) :
    byteLength (List.replicate n c) = n * c.utf8Size := by
  induction n with
  | zero => simp
  | succ n ih => rw [List.replicate_succ, byteLength_cons, ih, Nat.succ_mul, Nat.add_comm]

@[simp] theorem byteOffset_zero (cs : List Char) : byteOffset cs 0 = 0 := rfl

/-- The byte range of the characters with indices `first` up to but not including `last`. -/
def byteSpan (cs : List Char) (first last : Nat) : Span :=
  ⟨byteOffset cs first, byteOffset cs last⟩

/-- The characters with indices `first` up to but not including `last`. -/
def slice (cs : List Char) (first last : Nat) : List Char := (cs.take last).drop first

end Text

end PacketGen
