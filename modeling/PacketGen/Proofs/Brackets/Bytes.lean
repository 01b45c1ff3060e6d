import PacketGen.Proofs.Brackets.Matching
import PacketGen.Proofs.Comment.Bytes

/-!
# Brackets among bytes

A bracket of a source is a byte of its own, which no other character contains. So it makes no
difference whether a text is scanned by characters or by bytes: the scan of the bytes finds the byte
of what the scan of the characters finds, and nothing when that finds nothing (`match?_utf8`).
Whatever holds of brackets over any alphabet can then be said of the bytes of a source. The first
block behind a place is the same, too (`findBlock_utf8`).
-/

namespace PacketGen.Brackets

open Text

/-- The brackets `b'` are the brackets `b`, as bytes. -/
structure Ascii (b : Brackets Char) (b' : Brackets UInt8) : Prop where
  opening : String.utf8EncodeChar b.opening = [b'.opening]
  closing : String.utf8EncodeChar b.closing = [b'.closing]
  opening_lt : b'.opening.toNat < 0x80
  closing_lt : b'.closing.toNat < 0x80
  ne : b'.opening ≠ b'.closing

/-- The two braces, as bytes. -/
def byteBraces : Brackets UInt8 := ⟨0x7B, 0x7D⟩

theorem ascii_braces : Ascii braces byteBraces := ⟨rfl, rfl, by decide, by decide, by decide⟩

/-- The two parentheses, as bytes. -/
def byteParens : Brackets UInt8 := ⟨0x28, 0x29⟩

theorem ascii_parens : Ascii parens byteParens := ⟨rfl, rfl, by decide, by decide, by decide⟩

variable {b : Brackets Char} {b' : Brackets UInt8}

namespace Ascii

theorem char_ne (h : Ascii b b') : b.opening ≠ b.closing := by
  intro heq
  have hbytes := h.closing
  rw [← heq, h.opening] at hbytes
  exact h.ne (List.cons.inj hbytes).1

theorem opening_mem (h : Ascii b b') (c : Char) :
    b'.opening ∈ String.utf8EncodeChar c ↔ c = b.opening :=
  ascii_mem_encodeChar h.opening h.opening_lt

theorem closing_mem (h : Ascii b b') (c : Char) :
    b'.closing ∈ String.utf8EncodeChar c ↔ c = b.closing :=
  ascii_mem_encodeChar h.closing h.closing_lt

end Ascii

/-- The scan of the bytes keeps the count that the scan of the characters keeps. -/
theorem closing?_utf8 (h : Ascii b b') (pending : Nat) (cs : List Char) :
    b'.closing? pending (utf8 cs) = (b.closing? pending cs).map (byteOffset cs) := by
  have hsize {c : Char} {x : UInt8} (hc : String.utf8EncodeChar c = [x]) : c.utf8Size = 1 := by
    rw [← String.length_utf8EncodeChar, hc]
    rfl
  have hmap (c : Char) (cs : List Char) (r : Option Nat) :
      (r.map (byteOffset cs)).map (· + c.utf8Size) =
        (r.map (· + 1)).map (byteOffset (c :: cs)) := by
    rw [Option.map_map, Option.map_map]
    congr 1
    funext n
    exact (byteOffset_cons_succ c cs n).symm
  induction cs generalizing pending with
  | nil => rfl
  | cons c cs ih =>
    rw [utf8_cons]
    by_cases hopening : c = b.opening
    · subst hopening
      rw [closing?_opening, ← hmap, ← ih, hsize h.opening, h.opening]
      exact closing?_opening b' pending (utf8 cs)
    · by_cases hclosing : c = b.closing
      · subst hclosing
        rw [h.closing]
        cases pending with
        | zero =>
          rw [closing?_closing_zero h.char_ne]
          exact closing?_closing_zero h.ne (utf8 cs)
        | succ pending =>
          rw [closing?_closing_succ h.char_ne, ← hmap, ← ih, hsize h.closing]
          exact closing?_closing_succ h.ne pending (utf8 cs)
      · have hbalanced : b'.Balanced (String.utf8EncodeChar c) :=
          balanced_of_not_mem (fun hmem => hopening ((h.opening_mem c).mp hmem))
            fun hmem => hclosing ((h.closing_mem c).mp hmem)
        rw [closing?_append h.ne hbalanced, ih, String.length_utf8EncodeChar, hmap,
          closing?_other hopening hclosing]

/-- **Bytes and characters agree about which bracket closes another.** -/
theorem match?_utf8 (h : Ascii b b') (text : List Char) (i : Nat) :
    b'.match? (utf8 text) (byteOffset text i) = (b.match? text i).map (byteOffset text) := by
  rw [match?, match?, ← utf8_drop]
  cases hdrop : text.drop i with
  | nil => rfl
  | cons c cs =>
    rw [utf8_cons]
    by_cases hopening : c = b.opening
    · subst hopening
      have hplace (n : Nat) :
          byteOffset text (i + 1 + n) = byteOffset text i + 1 + byteOffset cs n := by
        rw [Nat.add_assoc, byteOffset_add, hdrop, Nat.add_comm 1, byteOffset_cons_succ,
          ← String.length_utf8EncodeChar, h.opening, List.length_singleton]
        omega
      rw [h.opening, List.singleton_append]
      dsimp only
      rw [if_pos rfl, if_pos rfl, closing?_utf8 h, Option.map_map, Option.map_map]
      congr 1
      funext n
      exact (hplace n).symm
    · obtain ⟨x, tail, hbytes, -⟩ := encodeChar_eq_cons c
      have hx : x ≠ b'.opening := by
        rintro rfl
        refine hopening ((h.opening_mem c).mp ?_)
        rw [hbytes]
        exact List.mem_cons_self
      rw [hbytes, List.cons_append]
      dsimp only
      rw [if_neg hx, if_neg hopening]
      rfl

/-! ## Blocks -/

/-- A block whose places are told in another way. -/
def Block.map (f : Nat → Nat) : Block → Block
  | .absent => .absent
  | .unclosed opening => .unclosed (f opening)
  | .closed first last => .closed (f first) (f last)

/-- The first opening bracket among the bytes is the first one among the characters. -/
theorem findIdx?_utf8 (h : Ascii b b') (cs : List Char) :
    (utf8 cs).findIdx? (· = b'.opening) =
      (cs.findIdx? (· = b.opening)).map (byteOffset cs) := by
  induction cs with
  | nil => rfl
  | cons c cs ih =>
    rw [utf8_cons, List.findIdx?_cons, List.findIdx?_append]
    by_cases hopening : c = b.opening
    · rw [if_pos (decide_eq_true hopening), hopening, h.opening, List.findIdx?_singleton,
        if_pos (decide_eq_true rfl)]
      rfl
    · have hnone : (String.utf8EncodeChar c).findIdx? (· = b'.opening) = none := by
        refine List.findIdx?_eq_none_iff.mpr fun x hx => decide_eq_false ?_
        rintro rfl
        exact hopening ((h.opening_mem c).mp hx)
      rw [if_neg (by simpa using hopening), hnone, Option.none_or, ih,
        String.length_utf8EncodeChar, Option.map_map, Option.map_map]
      congr 1
      funext n
      exact (byteOffset_cons_succ c cs n).symm

/-- **Bytes and characters agree about the first block.** -/
theorem findBlock_utf8 (h : Ascii b b') (text : List Char) (i : Nat) :
    b'.findBlock (utf8 text) (byteOffset text i) = (b.findBlock text i).map (byteOffset text) := by
  rw [findBlock, findBlock, ← utf8_drop, findIdx?_utf8 h]
  cases (text.drop i).findIdx? (· = b.opening) with
  | none => rfl
  | some n =>
    dsimp only [Option.map_some]
    rw [← byteOffset_add, match?_utf8 h]
    cases hmatch : b.match? text (i + n) with
    | none => rfl
    | some close =>
      have hsize : b.opening.utf8Size = 1 := by
        rw [← String.length_utf8EncodeChar, h.opening]
        rfl
      have hfirst : byteOffset text (i + n + 1) = byteOffset text (i + n) + 1 := by
        rw [byteOffset_succ (match?_opening h.char_ne hmatch), hsize]
      exact congrArg (Block.closed · _) hfirst.symm

end PacketGen.Brackets
