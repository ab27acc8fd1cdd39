import Dataflow.Trap

/-!
# Element types

What one element of a port, an arc or a channel is: a scalar or a small array of scalars of one
numeric kind.

**Width.**  `ElemType.byteWidth` is the number of bytes one element takes in an external frame:
whole bytes for each component, two components for a complex number, and as many of those as the
shape holds.  An empty shape, and one with a zero, count as one.
-/

namespace Dataflow

section Defs

/-- Kinds of scalars. -/
inductive NumericKind where
  | bool
  | int
  | float
  | complex
deriving DecidableEq, Repr

/-- Type of one element. -/
structure ElemType where
  kind : NumericKind
  /-- Bits of one component. -/
  bits : UInt16
  signed : Bool := false
  /-- Shape; empty for a scalar. -/
  dims : List UInt32 := []
deriving DecidableEq, Repr

namespace ElemType

/-- Single-precision numbers. -/
def f32 : ElemType := { kind := .float, bits := 32, signed := true }

/-- Double-precision numbers. -/
def f64 : ElemType := { kind := .float, bits := 64, signed := true }

/-- Signed 32-bit integers. -/
def i32 : ElemType := { kind := .int, bits := 32, signed := true }

/-- Product of a shape, from the left. -/
def count (dims : List UInt32) : Except Trap Nat :=
  dims.foldlM (fun n d => mulLong n d.toNat) 1

/-- Components of one scalar. -/
def lanes (t : ElemType) : Nat := if t.kind = .complex then 2 else 1

/-- Bytes of one element in an external frame. -/
def byteWidth (t : ElemType) : Except Trap Nat := do
  let n ← count t.dims
  let scalar ← mulLong ((t.bits.toNat + 7) / 8) t.lanes
  mulLong scalar (max n 1)

/-- Written form without the shape. -/
def scalarText (t : ElemType) : String :=
  match t.kind with
  | .bool => "bool"
  | .int => (if t.signed then "i" else "u") ++ toString t.bits.toNat
  | .float => "f" ++ toString t.bits.toNat
  | .complex => "c" ++ toString t.bits.toNat

/-- Written form: the scalar, then the shape in brackets when there is one. -/
def text (t : ElemType) : String :=
  if t.dims.isEmpty then t.scalarText
  else t.scalarText ++ "[" ++ ",".intercalate (t.dims.map fun d => toString d.toNat) ++ "]"

instance : ToString ElemType := ⟨text⟩

end ElemType

end Defs

end Dataflow
