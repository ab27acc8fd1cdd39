import Dataflow.ElemType

/-!
# Samples

Channels carry samples of one machine type.  A sample is a word of the width of its type; what the
word means matters only to arithmetic.

**Bytes.**  In frames a sample stands as its bytes, least significant first.  `encodeBlock` and
`decodeBlock` move as many whole samples as both sides hold and leave the rest as it was.

**Arithmetic.**  Integers wrap.  Sums and products of numbers with a floating point are rounded to
the nearest; an operand that is not a number is handed on with its quiet bit set, the left one
first, and an operation without a result gives the negative quiet word without payload.
-/

namespace Dataflow

section Types

/-- Machine types of samples. -/
inductive SampleType where
  | f32
  | f64
  | i8
  | i16
  | i32
  | i64
  | u8
  | u16
  | u32
deriving DecidableEq, Repr

namespace SampleType

/-- All types. -/
def all : List SampleType := [.f32, .f64, .i8, .i16, .i32, .i64, .u8, .u16, .u32]

/-- Bytes of one sample. -/
def width : SampleType → Nat
  | .i8 | .u8 => 1
  | .i16 | .u16 => 2
  | .f32 | .i32 | .u32 => 4
  | .f64 | .i64 => 8

/-- The type of elements that a sample stands for. -/
def elem : SampleType → ElemType
  | .f32 => { kind := .float, bits := 32, signed := true }
  | .f64 => { kind := .float, bits := 64, signed := true }
  | .i8 => { kind := .int, bits := 8, signed := true }
  | .i16 => { kind := .int, bits := 16, signed := true }
  | .i32 => { kind := .int, bits := 32, signed := true }
  | .i64 => { kind := .int, bits := 64, signed := true }
  | .u8 => { kind := .int, bits := 8, signed := false }
  | .u16 => { kind := .int, bits := 16, signed := false }
  | .u32 => { kind := .int, bits := 32, signed := false }

/-- The type with a name. -/
def ofName? (name : String) : Option SampleType := all.find? fun t => t.elem.text = name

end SampleType

/-- A sample: a word of the width of its type. -/
abbrev Sample (t : SampleType) := BitVec (8 * t.width)

end Types

section Bytes

/-- The `w` lowest bytes of a number, least significant first. -/
def bytesOf : Nat → Nat → List UInt8
  | 0, _ => []
  | w + 1, n => .ofNat n :: bytesOf w (n / 256)

/-- The number with given bytes, least significant first. -/
def ofBytes : List UInt8 → Nat
  | [] => 0
  | b :: rest => b.toNat + 256 * ofBytes rest

variable {t : SampleType}

/-- Bytes of a sample. -/
def Sample.bytes (x : Sample t) : List UInt8 := bytesOf t.width x.toNat

/-- The sample with given bytes. -/
def Sample.ofBytes (bytes : List UInt8) : Sample t := .ofNat _ (Dataflow.ofBytes bytes)

/-- Write a sample over the start of a buffer. -/
def encodeSample (x : Sample t) (out : List UInt8) : Except Trap (List UInt8) :=
  if out.length < t.width then .error .outOfBounds else .ok (x.bytes ++ out.drop t.width)

/-- Read a sample from the start of a buffer. -/
def decodeSample (bytes : List UInt8) : Except Trap (Sample t) :=
  if bytes.length < t.width then .error .outOfBounds else .ok (Sample.ofBytes (bytes.take t.width))

/-- Write samples over the start of a buffer, as many as it has room for. -/
def encodeBlock : List (Sample t) → List UInt8 → List UInt8
  | [], out => out
  | x :: rest, out =>
      if (out.take t.width).length < t.width then out
      else x.bytes ++ encodeBlock rest (out.drop t.width)

/-- Read samples over the start of a block, as many as the bytes hold. -/
def decodeBlock : List UInt8 → List (Sample t) → List (Sample t)
  | _, [] => []
  | bytes, x :: rest =>
      if (bytes.take t.width).length < t.width then x :: rest
      else Sample.ofBytes (bytes.take t.width) :: decodeBlock (bytes.drop t.width) rest

end Bytes

section Arithmetic

/-- Layout of words with a floating point. -/
structure FloatFormat where
  /-- Bits of the whole word. -/
  size : Nat
  /-- Bits of the significand. -/
  fraction : Nat

namespace FloatFormat

/-- Words of single precision. -/
def single : FloatFormat := ⟨32, 23⟩

/-- Words of double precision. -/
def double : FloatFormat := ⟨64, 52⟩

/-- Largest exponent. -/
def top (f : FloatFormat) : Nat := 1 <<< (f.size - 1 - f.fraction) - 1

/-- Whether a word is not a number. -/
def isNan (f : FloatFormat) (word : Nat) : Bool :=
  (word >>> f.fraction) % (f.top + 1) = f.top && word % (1 <<< f.fraction) ≠ 0

/-- A word that is not a number, with its quiet bit set. -/
def quiet (f : FloatFormat) (word : Nat) : Nat := word ||| 1 <<< (f.fraction - 1)

/-- The word for an operation without a result. -/
def invalid (f : FloatFormat) : Nat :=
  1 <<< (f.size - 1) ||| f.top <<< f.fraction ||| 1 <<< (f.fraction - 1)

/-- Apply an operation on numbers to words, some of which may not be numbers. -/
def lift (f : FloatFormat) (op : Nat → Nat → Nat) (x y : Nat) : Nat :=
  if f.isNan x then f.quiet x
  else if f.isNan y then f.quiet y
  else if f.isNan (op x y) then f.invalid
  else op x y

end FloatFormat

/-- An operation on words of single precision. -/
def singleOp (op : Float32 → Float32 → Float32) (x y : Nat) : Nat :=
  FloatFormat.single.lift
    (fun x y => (op (.ofBits (.ofNat x)) (.ofBits (.ofNat y))).toBits.toNat) x y

/-- An operation on words of double precision. -/
def doubleOp (op : Float → Float → Float) (x y : Nat) : Nat :=
  FloatFormat.double.lift
    (fun x y => (op (.ofBits (.ofNat x)) (.ofBits (.ofNat y))).toBits.toNat) x y

namespace Sample

variable {t : SampleType}

/-- Sum of two samples. -/
def add (x y : Sample t) : Sample t :=
  match t with
  | .f32 => .ofNat _ (singleOp (· + ·) x.toNat y.toNat)
  | .f64 => .ofNat _ (doubleOp (· + ·) x.toNat y.toNat)
  | _ => x + y

/-- Product of two samples. -/
def mul (x y : Sample t) : Sample t :=
  match t with
  | .f32 => .ofNat _ (singleOp (· * ·) x.toNat y.toNat)
  | .f64 => .ofNat _ (doubleOp (· * ·) x.toNat y.toNat)
  | _ => x * y

/-- The sample for a whole number. -/
def ofInt (n : Int) : Sample t :=
  match t with
  | .f32 => .ofNat _ (Float32.ofInt n).toBits.toNat
  | .f64 => .ofNat _ (Float.ofInt n).toBits.toNat
  | _ => BitVec.ofInt _ n

end Sample

end Arithmetic

end Dataflow
