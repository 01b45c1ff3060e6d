import PacketGen.Proofs.Generated.GoStatement
import Mathlib.Algebra.Group.Nat.Defs
import Mathlib.Logic.Function.Basic

/-!
# The buffer behind generated methods

Generated methods run on a buffer that is not generated with them. `BufferRuntime` is what is asked
of it: a codec for every primitive type whose values, within a range of the codec's own, come off
the front of a buffer as they were put on its end. Which bytes a codec uses and how far its range
goes is left open, and so is what becomes of a number on its way into a floating-point type and
back, which belongs to the platform.

`run` gives a method's lines their meaning on such a buffer. It is strict: a line that is no
statement, a member that the struct does not declare, a value of another type than the declared
one, or a buffer with too few bytes all end the run without a result. So that a run has a result is
itself a statement about the generated text.
-/

namespace PacketGen.Generated

/-! ## Values -/

/-- A value of a member. Numbers are kept as the bits they are made of. -/
inductive GoValue where
  | bool (b : Bool)
  | byte (n : BitVec 8)
  | uint16 (n : BitVec 16)
  | uint32 (n : BitVec 32)
  | uint64 (n : BitVec 64)
  | float32 (bits : BitVec 32)
  | float64 (bits : BitVec 64)
  | string (octets : List UInt8)
  | bytes (octets : List UInt8)
deriving Repr, DecidableEq

def GoValue.type : GoValue → String
  | .bool _ => "bool"
  | .byte _ => "byte"
  | .uint16 _ => "uint16"
  | .uint32 _ => "uint32"
  | .uint64 _ => "uint64"
  | .float32 _ => "float32"
  | .float64 _ => "float64"
  | .string _ => "string"
  | .bytes _ => "[]byte"

theorem GoValue.eq_bytes_of_type {x : GoValue} (h : x.type = "[]byte") : ∃ bs, x = .bytes bs := by
  cases x with
  | bytes bs => exact ⟨bs, rfl⟩
  | _ => exact absurd h (by simp [GoValue.type])

/-- The members of a struct value, by name. -/
abbrev GoStruct := String → GoValue

/-- Every member holds a value of its declared type. -/
def GoStruct.Typed (members : List Member) (v : GoStruct) : Prop :=
  ∀ m ∈ members, (v m.name).type = m.type

/-! ## The runtime -/

structure BufferRuntime where
  /-- The bytes that `WriteT` appends. -/
  encode : Primitive → GoValue → List UInt8
  /-- What `ReadT` returns, and what it leaves. -/
  decode : Primitive → List UInt8 → Option (GoValue × List UInt8)
  /-- The values that `WriteT` and `ReadT` preserve. -/
  range : Primitive → GoValue → Prop
  float32OfInt : Nat → BitVec 32
  float64OfInt : Nat → BitVec 64
  uint32OfFloat32 : BitVec 32 → BitVec 32
  uint32OfFloat64 : BitVec 64 → BitVec 32
  /-- First in, first out: what is behind a value stays behind it. -/
  decode_encode : ∀ (t : Primitive) (x : GoValue) (rest : List UInt8), x.type = t.valueType →
    range t x → decode t (encode t x ++ rest) = some (x, rest)

namespace BufferRuntime

variable (rt : BufferRuntime)

/-- The conversion of a length to a type. Booleans and texts are no numbers. -/
def ofLength? (type : String) (n : Nat) : Option GoValue :=
  match type with
  | "byte" => some (.byte (.ofNat 8 n))
  | "uint16" => some (.uint16 (.ofNat 16 n))
  | "uint32" => some (.uint32 (.ofNat 32 n))
  | "uint64" => some (.uint64 (.ofNat 64 n))
  | "float32" => some (.float32 (rt.float32OfInt n))
  | "float64" => some (.float64 (rt.float64OfInt n))
  | _ => none

def count? : GoValue → Option Nat
  | .byte n => some n.toNat
  | .uint16 n => some n.toNat
  | .uint32 n => some n.toNat
  | .uint64 n => some (n.setWidth 32).toNat
  | .float32 bits => some (rt.uint32OfFloat32 bits).toNat
  | .float64 bits => some (rt.uint32OfFloat64 bits).toNat
  | .bool _ | .string _ | .bytes _ => none

theorem type_of_ofLength? {rt : BufferRuntime} {type : String} {n : Nat} {x : GoValue}
    (h : rt.ofLength? type n = some x) : x.type = type := by
  unfold ofLength? at h
  split at h
  all_goals first
    | (rw [← Option.some.inj h]; rfl)
    | exact absurd h (by simp)

/-- A length that is still the same after its conversion to the type of its prefix, the way through
the buffer, and the conversion to the type that `Read` takes. -/
def KeepsLength (t : Primitive) (n : Nat) : Prop :=
  ∃ x, rt.ofLength? t.valueType n = some x ∧ rt.range t x ∧ rt.count? x = some n

/-! ## Runs -/

/-- Where a method is: its receiver, and the buffer once there is one. -/
structure Frame where
  self : GoStruct
  buffer : Option (List UInt8)

def typeOf? (members : List Member) (name : String) : Option String :=
  (members.find? (·.name == name)).map Member.type

def load (members : List Member) (f : Frame) (name : String) : Option GoValue :=
  if typeOf? members name = some (f.self name).type then some (f.self name) else none

/-- The frame behind an assignment that leaves a buffer. -/
def store (members : List Member) (f : Frame) (name : String) (x : GoValue)
    (buffer : List UInt8) : Option Frame :=
  if typeOf? members name = some x.type then
    some ⟨Function.update f.self name x, some buffer⟩
  else none

def append (f : Frame) (bs : List UInt8) : Option Frame :=
  f.buffer.map fun buffer => { f with buffer := some (buffer ++ bs) }

def step (members : List Member) (f : Frame) : GoStatement → Option Frame
  | .nothing => some f
  | .openBuffer => if f.buffer.isNone then some { f with buffer := some [] } else none
  | .returnBuffer => none
  | .readValue m t => do
    let (x, rest) ← rt.decode t (← f.buffer)
    store members f m x rest
  | .readBytes m conversion t => do
    let (x, rest) ← rt.decode t (← f.buffer)
    let n ← if conversion = "uint32" then rt.count? x else none
    if n ≤ rest.length then store members f m (.bytes (rest.take n)) (rest.drop n) else none
  | .writeValue t m => do
    let x ← load members f m
    if x.type = t.valueType then append f (rt.encode t x) else none
  | .writeLength t conversion m =>
    match load members f m with
    | some (.bytes bs) => do
      let x ← rt.ofLength? conversion bs.length
      if x.type = t.valueType then append f (rt.encode t x) else none
    | _ => none
  | .writeBytes m =>
    match load members f m with
    | some (.bytes bs) => append f bs
    | _ => none

/-- The end of a method: the last frame, and the buffer if it is returned. Lines behind a return do
not run. -/
def run (members : List Member) : Frame → List (List Char) →
    Option (Frame × Option (List UInt8))
  | f, [] => some (f, none)
  | f, line :: lines =>
    match GoStatement.parse? line with
    | none => none
    | some .returnBuffer => f.buffer.map fun buffer => (f, some buffer)
    | some s => (rt.step members f s).bind (run members · lines)

theorem run_cons_of_step {rt : BufferRuntime} {members : List Member} {f g : Frame}
    {line : List Char} {s : GoStatement} (hs : GoStatement.parse? line = some s)
    (hstep : rt.step members f s = some g) (lines : List (List Char)) :
    rt.run members f (line :: lines) = rt.run members g lines := by
  rw [run, hs]
  cases s with
  | returnBuffer => exact absurd hstep (by simp [step])
  | _ => simp only [hstep, Option.bind_some]

end BufferRuntime

/-- Runs the body of the method that writes: the buffer that it returns. -/
def BufferRuntime.callWrite (rt : BufferRuntime) (members : List Member) (body : List Char)
    (self : GoStruct) : Option (List UInt8) :=
  (rt.run members ⟨self, none⟩ (Text.splitLines body)).bind (·.2)

/-- Runs the body of the method that reads, which returns nothing: its receiver and its buffer
afterwards. -/
def BufferRuntime.callRead (rt : BufferRuntime) (members : List Member) (body : List Char)
    (self : GoStruct) (buffer : List UInt8) : Option (GoStruct × List UInt8) :=
  match rt.run members ⟨self, some buffer⟩ (Text.splitLines body) with
  | some (⟨after, some rest⟩, none) => some (after, rest)
  | _ => none

/-! ## A plain runtime

A buffer that writes its numbers octet by octet, and a text behind the number of its octets: what
is asked of a runtime can be had. -/

def lowOctets : (k : Nat) → Nat → List UInt8
  | 0, _ => []
  | k + 1, n => .ofNat n :: lowOctets k (n / 256)

def ofLowOctets : List UInt8 → Nat
  | [] => 0
  | b :: bs => b.toNat + 256 * ofLowOctets bs

@[simp] theorem length_lowOctets (k n : Nat) : (lowOctets k n).length = k := by
  induction k generalizing n with
  | zero => rfl
  | succ k ih => rw [lowOctets, List.length_cons, ih]

theorem ofLowOctets_lowOctets {k n : Nat} (h : n < 256 ^ k) :
    ofLowOctets (lowOctets k n) = n := by
  induction k generalizing n with
  | zero =>
    have hn : n = 0 := by simpa using h
    rw [hn]
    rfl
  | succ k ih =>
    have hdiv : n / 256 < 256 ^ k := by
      rw [Nat.pow_succ, Nat.mul_comm] at h
      exact Nat.div_lt_of_lt_mul h
    rw [lowOctets, ofLowOctets, ih hdiv, UInt8.toNat_ofNat']
    omega

def GoValue.bits : GoValue → Nat
  | .bool b => b.toNat
  | .byte n => n.toNat
  | .uint16 n => n.toNat
  | .uint32 n => n.toNat
  | .uint64 n => n.toNat
  | .float32 n => n.toNat
  | .float64 n => n.toNat
  | .string bs | .bytes bs => bs.length

namespace PlainRuntime

/-- How many octets a value takes up; for a text, how many the number of its octets does. -/
def width : Primitive → Nat
  | .bool | .byte => 1
  | .short | .lshort | .string => 2
  | .triad | .ltriad => 3
  | .int | .lint | .float => 4
  | .long | .llong | .double => 8

/-- Puts the octets of a number, the lowest first, into the order of a type, or back again. -/
def ordered (t : Primitive) (bs : List UInt8) : List UInt8 :=
  match t with
  | .lshort | .lint | .ltriad | .llong => bs
  | _ => bs.reverse

def payload : GoValue → List UInt8
  | .string bs => bs
  | _ => []

def encode (t : Primitive) (x : GoValue) : List UInt8 :=
  ordered t (lowOctets (width t) x.bits) ++ payload x

/-- The value of the given bits, and of what is left behind them. -/
def ofBits (t : Primitive) (n : Nat) (rest : List UInt8) : GoValue × List UInt8 :=
  match t with
  | .bool => (.bool (n == 1), rest)
  | .byte => (.byte (.ofNat 8 n), rest)
  | .short | .lshort => (.uint16 (.ofNat 16 n), rest)
  | .int | .lint | .triad | .ltriad => (.uint32 (.ofNat 32 n), rest)
  | .long | .llong => (.uint64 (.ofNat 64 n), rest)
  | .float => (.float32 (.ofNat 32 n), rest)
  | .double => (.float64 (.ofNat 64 n), rest)
  | .string => (.string (rest.take n), rest.drop n)

def decode (t : Primitive) (buffer : List UInt8) : Option (GoValue × List UInt8) :=
  if buffer.length < width t then none
  else some (ofBits t (ofLowOctets (ordered t (buffer.take (width t)))) (buffer.drop (width t)))

@[simp] theorem length_ordered (t : Primitive) (bs : List UInt8) :
    (ordered t bs).length = bs.length := by
  cases t <;> simp [ordered]

theorem ordered_ordered (t : Primitive) (bs : List UInt8) : ordered t (ordered t bs) = bs := by
  cases t <;> simp [ordered]

theorem ofBits_bits {t : Primitive} {x : GoValue} (ht : x.type = t.valueType)
    (rest : List UInt8) : ofBits t x.bits (payload x ++ rest) = (x, rest) := by
  cases t with
  | bool =>
    cases x with
    | bool b => cases b <;> rfl
    | _ => exact absurd ht (by simp [GoValue.type, Primitive.valueType])
  | byte =>
    cases x with
    | byte n => simp [ofBits, GoValue.bits, payload]
    | _ => exact absurd ht (by simp [GoValue.type, Primitive.valueType])
  | short | lshort =>
    cases x with
    | uint16 n => simp [ofBits, GoValue.bits, payload]
    | _ => exact absurd ht (by simp [GoValue.type, Primitive.valueType])
  | int | lint | triad | ltriad =>
    cases x with
    | uint32 n => simp [ofBits, GoValue.bits, payload]
    | _ => exact absurd ht (by simp [GoValue.type, Primitive.valueType])
  | long | llong =>
    cases x with
    | uint64 n => simp [ofBits, GoValue.bits, payload]
    | _ => exact absurd ht (by simp [GoValue.type, Primitive.valueType])
  | float =>
    cases x with
    | float32 n => simp [ofBits, GoValue.bits, payload]
    | _ => exact absurd ht (by simp [GoValue.type, Primitive.valueType])
  | double =>
    cases x with
    | float64 n => simp [ofBits, GoValue.bits, payload]
    | _ => exact absurd ht (by simp [GoValue.type, Primitive.valueType])
  | string =>
    cases x with
    | string bs => simp [ofBits, GoValue.bits, payload]
    | _ => exact absurd ht (by simp [GoValue.type, Primitive.valueType])

theorem decode_encode (t : Primitive) (x : GoValue) (rest : List UInt8)
    (ht : x.type = t.valueType) (hx : x.bits < 256 ^ width t) :
    decode t (encode t x ++ rest) = some (x, rest) := by
  have hlength : (ordered t (lowOctets (width t) x.bits)).length = width t := by simp
  have htake : (encode t x ++ rest).take (width t) = ordered t (lowOctets (width t) x.bits) := by
    rw [encode, List.append_assoc]
    exact List.take_left' hlength
  have hdrop : (encode t x ++ rest).drop (width t) = payload x ++ rest := by
    rw [encode, List.append_assoc]
    exact List.drop_left' hlength
  have hlong : ¬(encode t x ++ rest).length < width t := by simp [encode]
  rw [decode, if_neg hlong, htake, hdrop, ordered_ordered, ofLowOctets_lowOctets hx,
    ofBits_bits ht]

end PlainRuntime

/-- Conversions to and from floating-point numbers are those of the platform. -/
def plainRuntime : BufferRuntime where
  encode := PlainRuntime.encode
  decode := PlainRuntime.decode
  range t x := x.bits < 256 ^ PlainRuntime.width t
  float32OfInt n := (Float32.ofNat n).toBits.toBitVec
  float64OfInt n := (Float.ofNat n).toBits.toBitVec
  uint32OfFloat32 bits := (Float32.ofBits ⟨bits⟩).toUInt32.toBitVec
  uint32OfFloat64 bits := (Float.ofBits ⟨bits⟩).toUInt32.toBitVec
  decode_encode := PlainRuntime.decode_encode

end PacketGen.Generated
