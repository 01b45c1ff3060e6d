import Mathlib.Data.List.TakeWhile
import PacketGen.Text.Offset
import PacketGen.Text.Utf8

/-!
# Encoded text is decoded again

`utf8Step` reads a character off the front of any bytes, well formed or not, and tells what is wrong
with them. What it has to get right is the other case: on the bytes of a character it finds that
character and nothing is left of it (`utf8Step_encodeChar`), whatever comes behind. The character's
size is the only thing the bytes can differ in, so the proof goes through the four sizes; the bounds
that a second byte has behind the first bytes `E0`, `ED`, `F0` and `F4` are those of the numbers
that are characters.

From there both decoders are inverses of `encode`: the strict one, and the lossy one, which has
nothing to replace.
-/

namespace PacketGen.Text

/-- The UTF-8 form of characters. -/
def utf8 (cs : List Char) : List UInt8 := cs.flatMap String.utf8EncodeChar

@[simp] theorem utf8_nil : utf8 [] = [] := rfl

@[simp] theorem utf8_cons (c : Char) (cs : List Char) :
    utf8 (c :: cs) = String.utf8EncodeChar c ++ utf8 cs := rfl

@[simp] theorem utf8_append (as bs : List Char) : utf8 (as ++ bs) = utf8 as ++ utf8 bs := by
  simp [utf8]

theorem length_utf8 (cs : List Char) : (utf8 cs).length = byteLength cs := by
  induction cs with
  | nil => rfl
  | cons c cs ih => simp [ih]

theorem length_le_byteLength (cs : List Char) : cs.length ≤ byteLength cs := by
  induction cs with
  | nil => exact Nat.le_refl 0
  | cons c cs ih =>
    have hsize := c.utf8Size_pos
    rw [List.length_cons, byteLength_cons]
    omega

/-! ## Byte offsets -/

theorem byteOffset_add (cs : List Char) (i j : Nat) :
    byteOffset cs (i + j) = byteOffset cs i + byteOffset (cs.drop i) j := by
  rw [byteOffset, List.take_add, byteLength_append, byteOffset, byteOffset]

theorem byteOffset_cons_succ (c : Char) (cs : List Char) (i : Nat) :
    byteOffset (c :: cs) (i + 1) = byteOffset cs i + c.utf8Size :=
  Nat.add_comm _ _

theorem byteOffset_succ {cs : List Char} {i : Nat} {c : Char} (h : cs[i]? = some c) :
    byteOffset cs (i + 1) = byteOffset cs i + c.utf8Size := by
  obtain ⟨hi, rfl⟩ := List.getElem?_eq_some_iff.mp h
  rw [byteOffset, List.take_succ_eq_append_getElem hi, byteLength_append]
  rfl

theorem byteOffset_le (cs : List Char) {i j : Nat} (h : i ≤ j) :
    byteOffset cs i ≤ byteOffset cs j := by
  obtain ⟨k, rfl⟩ := Nat.exists_eq_add_of_le h
  rw [byteOffset_add]
  exact Nat.le_add_right _ _

/-- What is behind a place has the bytes behind the offset of that place. -/
theorem utf8_drop (cs : List Char) (i : Nat) :
    utf8 (cs.drop i) = (utf8 cs).drop (byteOffset cs i) := by
  have hwhole : utf8 cs = utf8 (cs.take i) ++ utf8 (cs.drop i) := by
    rw [← utf8_append, List.take_append_drop]
  rw [hwhole, byteOffset, ← length_utf8, List.drop_left]

theorem getElem?_utf8 {cs : List Char} {i : Nat} {c : Char} {b : UInt8} (h : cs[i]? = some c)
    (hbyte : String.utf8EncodeChar c = [b]) : (utf8 cs)[byteOffset cs i]? = some b := by
  obtain ⟨hi, rfl⟩ := List.getElem?_eq_some_iff.mp h
  rw [← List.head?_drop, ← utf8_drop, List.drop_eq_getElem_cons hi, utf8_cons, hbyte]
  rfl

/-! ## One character -/

/-- The byte of the six bits at some place of a number. -/
theorem toNat_continuation (n : Nat) : (UInt8.ofNat (n % 64 + 128)).toNat = n % 64 + 128 := by
  rw [UInt8.toNat_ofNat']
  omega

theorem isContinuation_ofNat (n : Nat) : isContinuation (UInt8.ofNat (n % 64 + 128)) = true := by
  have h := toNat_continuation n
  simp only [isContinuation, UInt8.le_iff_toNat_le, h, Bool.and_eq_true, decide_eq_true_eq]
  have h80 : UInt8.toNat 0x80 = 0x80 := rfl
  have hBF : UInt8.toNat 0xBF = 0xBF := rfl
  omega

/-- The number that the bits of continuation bytes make behind leading bits. -/
theorem assemble_eq (c : Char) {lead : Nat} {bytes : List UInt8}
    (h : bytes.foldl (fun n b => n * 0x40 + (b.toNat - 0x80)) lead = c.toNat) :
    assemble lead bytes = c := by
  rw [assemble, h, Char.ofNat_toNat]

theorem utf8Step_size_one (c : Char) (bs : List UInt8) (h : c.toNat ≤ 0x7F) :
    utf8Step (UInt8.ofNat c.toNat) bs = .char c 1 := by
  have hbyte : (UInt8.ofNat c.toNat).toNat = c.toNat := by
    rw [UInt8.toNat_ofNat']
    omega
  have hlt : UInt8.ofNat c.toNat < 0x80 := by
    rw [UInt8.lt_iff_toNat_lt, hbyte]
    exact Nat.lt_succ_of_le h
  rw [utf8Step, if_pos hlt, hbyte, Char.ofNat_toNat]

/-! What may follow a first byte, told by the number of bytes that the character has. -/

theorem continuation?_two : ∀ k < 30,
    continuation? (.ofNat (0xC2 + k)) = some (1, .ofNat 0x80, .ofNat 0xBF) := by
  decide

theorem continuation?_three : ∀ k < 16,
    continuation? (.ofNat (0xE0 + k)) =
      some (2, .ofNat (if k = 0 then 0xA0 else 0x80), .ofNat (if k = 13 then 0x9F else 0xBF)) := by
  decide

theorem continuation?_four : ∀ k < 5,
    continuation? (.ofNat (0xF0 + k)) =
      some (3, .ofNat (if k = 0 then 0x90 else 0x80), .ofNat (if k = 4 then 0x8F else 0xBF)) := by
  decide

/-- A first byte, and a second one within its bounds, start a character if the bytes that are to
follow are there. The numbers of the bytes are given by what makes them up. -/
theorem utf8Step_of_continuation {c : Char} {first low high : Nat} (bits : Nat) (tail : List Nat)
    (bs : List UInt8) (hfirst : 0x80 ≤ first ∧ first < 256)
    (hcount : continuation? (.ofNat first) = some (tail.length + 1, .ofNat low, .ofNat high))
    (hlow : low ≤ bits % 64 + 128) (hhigh : bits % 64 + 128 ≤ high) (hhigh' : high < 256)
    (hnumber : (bits :: tail).foldl (fun n d => n * 64 + d % 64)
      (leadBits (tail.length + 1) (.ofNat first)) = c.toNat) :
    utf8Step (.ofNat first) ((bits :: tail).map (fun n => .ofNat (n % 64 + 128)) ++ bs) =
      .char c (tail.length + 2) := by
  have hlead : ¬ UInt8.ofNat first < 0x80 := by
    rw [UInt8.lt_iff_toNat_lt, UInt8.toNat_ofNat', Nat.mod_eq_of_lt hfirst.2]
    exact Nat.not_lt.mpr hfirst.1
  have hrange : ¬ (decide (UInt8.ofNat (bits % 64 + 128) < .ofNat low) ||
      decide (UInt8.ofNat high < .ofNat (bits % 64 + 128))) = true := by
    simp only [Bool.or_eq_true, decide_eq_true_eq, UInt8.lt_iff_toNat_lt, toNat_continuation,
      UInt8.toNat_ofNat']
    omega
  have hcontinue : ∀ d ∈ (bits :: tail).map (fun n => UInt8.ofNat (n % 64 + 128)),
      isContinuation d = true := by
    intro d hd
    obtain ⟨n, -, rfl⟩ := List.mem_map.mp hd
    exact isContinuation_ofNat n
  have htaken : (((bits :: tail).map (fun n => UInt8.ofNat (n % 64 + 128)) ++ bs).take
      (tail.length + 1)).takeWhile isContinuation =
      (bits :: tail).map fun n => UInt8.ofNat (n % 64 + 128) := by
    rw [List.take_left' (by simp), List.takeWhile_eq_self_iff]
    exact hcontinue
  have hvalue : assemble (leadBits (tail.length + 1) (.ofNat first))
      ((bits :: tail).map fun n => .ofNat (n % 64 + 128)) = c := by
    refine assemble_eq c ?_
    rw [List.foldl_map]
    simp only [toNat_continuation, Nat.add_sub_cancel]
    exact hnumber
  rw [utf8Step, if_neg hlead, hcount]
  simp only [List.map_cons, List.cons_append] at htaken hvalue ⊢
  rw [if_neg hrange, htaken, if_pos (by simp), hvalue]

/-- **The bytes of a character are read as that character**, whatever is behind them. -/
theorem utf8Step_encodeChar (c : Char) (bs : List UInt8) :
    ∃ b tail, String.utf8EncodeChar c = b :: tail ∧
      utf8Step b (tail ++ bs) = .char c (tail.length + 1) := by
  have hval : c.val.toNat = c.toNat := rfl
  have hlimit : c.toNat < 0xD800 ∨ 0xDFFF < c.toNat ∧ c.toNat < 0x110000 := c.valid
  rw [String.utf8EncodeChar, hval]
  by_cases h7F : c.toNat ≤ 0x7F
  · exact ⟨_, _, if_pos h7F, utf8Step_size_one c _ h7F⟩
  by_cases h7FF : c.toNat ≤ 0x7FF
  · refine ⟨_, _, by rw [if_neg h7F, if_pos h7FF], ?_⟩
    have hfirst : c.toNat / 64 % 32 + 192 = 0xC2 + (c.toNat / 64 - 2) := by omega
    rw [hfirst]
    refine utf8Step_of_continuation c.toNat [] bs (by omega)
      (continuation?_two _ (by omega)) (by omega) (by omega) (by decide) ?_
    rw [leadBits, UInt8.toNat_ofNat']
    simp only [List.foldl_cons, List.foldl_nil, List.length_nil, reduceIte, Nat.reduceAdd]
    omega
  by_cases hFFFF : c.toNat ≤ 0xFFFF
  · refine ⟨_, _, by rw [if_neg h7F, if_neg h7FF, if_pos hFFFF], ?_⟩
    have hfirst : c.toNat / 4096 % 16 + 224 = 0xE0 + c.toNat / 4096 := by omega
    rw [hfirst]
    refine utf8Step_of_continuation (c.toNat / 64) [c.toNat] bs (by omega)
      (continuation?_three _ (by omega)) (by split <;> omega) (by split <;> omega)
      (by split <;> omega) ?_
    rw [leadBits, UInt8.toNat_ofNat']
    simp only [List.foldl_cons, List.foldl_nil, List.length_cons, List.length_nil, reduceIte,
      Nat.reduceAdd, Nat.reduceEqDiff]
    omega
  · refine ⟨_, _, by rw [if_neg h7F, if_neg h7FF, if_neg hFFFF], ?_⟩
    have hfirst : c.toNat / 262144 % 8 + 240 = 0xF0 + c.toNat / 262144 := by omega
    rw [hfirst]
    refine utf8Step_of_continuation (c.toNat / 4096) [c.toNat / 64, c.toNat] bs
      (by omega) (continuation?_four _ (by omega)) (by split <;> omega) (by split <;> omega)
      (by split <;> omega) ?_
    rw [leadBits, UInt8.toNat_ofNat']
    simp only [List.foldl_cons, List.foldl_nil, List.length_cons, List.length_nil, reduceIte,
      Nat.reduceAdd, Nat.reduceEqDiff]
    omega

/-! ## Texts -/

/-- Bytes that belong to a character already taken are passed over. -/
theorem decodeFrom_covered (index : Nat) (tail bs : List UInt8) :
    decodeFrom tail.length index (tail ++ bs) = decodeFrom 0 (index + tail.length) bs := by
  induction tail generalizing index with
  | nil => rfl
  | cons b tail ih =>
    show decodeFrom tail.length (index + 1) (tail ++ bs) = _
    rw [ih, List.length_cons, Nat.add_right_comm, Nat.add_assoc]

theorem decodeReplacingFrom_covered (tail bs : List UInt8) :
    decodeReplacingFrom tail.length (tail ++ bs) = decodeReplacingFrom 0 bs := by
  induction tail with
  | nil => rfl
  | cons b tail ih => exact ih

theorem decodeFrom_utf8 (index : Nat) (cs : List Char) :
    decodeFrom 0 index (utf8 cs) = .ok cs := by
  induction cs generalizing index with
  | nil => rfl
  | cons c cs ih =>
    obtain ⟨b, tail, hbytes, hstep⟩ := utf8Step_encodeChar c (utf8 cs)
    rw [utf8_cons, hbytes, List.cons_append, decodeFrom, hstep]
    dsimp only
    rw [Nat.add_sub_cancel, decodeFrom_covered, ih]
    rfl

theorem decodeReplacingFrom_utf8 (cs : List Char) : decodeReplacingFrom 0 (utf8 cs) = cs := by
  induction cs with
  | nil => rfl
  | cons c cs ih =>
    obtain ⟨b, tail, hbytes, hstep⟩ := utf8Step_encodeChar c (utf8 cs)
    rw [utf8_cons, hbytes, List.cons_append, decodeReplacingFrom, hstep]
    dsimp only
    rw [Nat.add_sub_cancel, decodeReplacingFrom_covered, ih]

/-- Characters are decoded from their bytes. -/
theorem decode_utf8 (cs : List Char) : decode (utf8 cs) = .ok (.ofList cs) := by
  rw [decode, decodeFrom_utf8]
  rfl

/-- The lossy decoder loses nothing of well-formed bytes. -/
theorem decodeReplacing_utf8 (cs : List Char) : decodeReplacing (utf8 cs) = .ofList cs := by
  rw [decodeReplacing, decodeReplacingFrom_utf8]

end PacketGen.Text
