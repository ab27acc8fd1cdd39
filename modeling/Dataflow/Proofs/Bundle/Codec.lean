import Dataflow.Bundle.Input
import Dataflow.Bundle.Output
import Mathlib.Algebra.Group.Nat.Defs

/-!
# Frames and blocks

A frame is the blocks of all members of a bundle, one after the other, each as the bytes of its
samples.

**Bytes.**  A sample has exactly as many bytes as it takes to tell it from the others, so bytes that
are read as a sample and written again are the same (`Sample.bytes_ofBytes`).

**Blocks.**  A block that fills its part of a buffer is written as its bytes (`encodeBlock_eq`), and
the block that was read from such a part has these bytes (`wire_decodeBlock`).

**Frames.**  The parts of a frame that belong to the members lie one behind the other and fill it
(`Tiles`).  So what blocks are encoded into is their bytes side by side (`encodeMembers_eq`).
-/

namespace Dataflow

section Bytes

theorem length_bytesOf (w n : Nat) : (bytesOf w n).length = w := by
  induction w generalizing n with
  | zero => rfl
  | succ w ih => rw [bytesOf, List.length_cons, ih]

theorem ofBytes_lt (bytes : List UInt8) : ofBytes bytes < 256 ^ bytes.length := by
  induction bytes with
  | nil => simp [ofBytes]
  | cons b rest ih =>
      have hb : b.toNat < 256 := b.toNat_lt
      rw [ofBytes, List.length_cons, Nat.pow_succ]
      omega

/-- Bytes that are read as a number can be written again. -/
theorem bytesOf_ofBytes (bytes : List UInt8) : bytesOf bytes.length (ofBytes bytes) = bytes := by
  induction bytes with
  | nil => rfl
  | cons b rest ih =>
      have hb : b.toNat < 256 := b.toNat_lt
      have hlow : UInt8.ofNat (b.toNat + 256 * ofBytes rest) = b := by
        apply UInt8.toNat_inj.mp
        rw [UInt8.toNat_ofNat']
        omega
      have hhigh : (b.toNat + 256 * ofBytes rest) / 256 = ofBytes rest := by omega
      rw [ofBytes, List.length_cons, bytesOf, hlow, hhigh, ih]

variable {t : SampleType}

@[simp] theorem Sample.length_bytes (x : Sample t) : (Sample.bytes x).length = t.width :=
  length_bytesOf _ _

theorem Sample.bytes_ofBytes {bytes : List UInt8} (h : bytes.length = t.width) :
    Sample.bytes (Sample.ofBytes bytes : Sample t) = bytes := by
  have hlt : Dataflow.ofBytes bytes < 2 ^ (8 * t.width) := by
    have hbound := ofBytes_lt bytes
    rwa [h, show 256 = 2 ^ 8 by rfl, ← Nat.pow_mul] at hbound
  rw [Sample.bytes, Sample.ofBytes, BitVec.toNat_ofNat, Nat.mod_eq_of_lt hlt, ← h]
  exact bytesOf_ofBytes bytes

end Bytes

section Blocks

variable {t : SampleType} {block : List (Sample t)} {bytes out : List UInt8}

/-- The bytes of a block. -/
def wire (block : List (Sample t)) : List UInt8 := block.flatMap Sample.bytes

@[simp] theorem wire_cons (x : Sample t) : wire (x :: block) = Sample.bytes x ++ wire block := rfl

@[simp] theorem length_wire : (wire block).length = block.length * t.width := by
  induction block with
  | nil => simp [wire]
  | cons x rest ih =>
      rw [wire_cons, List.length_append, Sample.length_bytes, ih, List.length_cons, Nat.succ_mul,
        Nat.add_comm]

/-- A buffer that a block fills is written over from end to end. -/
theorem encodeBlock_eq (h : out.length = block.length * t.width) :
    encodeBlock block out = wire block := by
  induction block generalizing out with
  | nil =>
      have hnil : out = [] := List.length_eq_zero_iff.mp (by simpa using h)
      rw [hnil]
      rfl
  | cons x rest ih =>
      rw [List.length_cons, Nat.succ_mul] at h
      have hroom : ¬(out.take t.width).length < t.width := by
        rw [List.length_take]
        omega
      have hrest : (out.drop t.width).length = rest.length * t.width := by
        rw [List.length_drop]
        omega
      rw [encodeBlock, if_neg hroom, ih hrest, wire_cons]

theorem length_decodeBlock : (decodeBlock bytes block).length = block.length := by
  induction block generalizing bytes with
  | nil => rfl
  | cons x rest ih =>
      rw [decodeBlock]
      split
      · rfl
      · rw [List.length_cons, ih, List.length_cons]

/-- The block that was read has the bytes that it was read from. -/
theorem wire_decodeBlock (h : bytes.length = block.length * t.width) :
    wire (decodeBlock bytes block) = bytes := by
  induction block generalizing bytes with
  | nil =>
      have hnil : bytes = [] := List.length_eq_zero_iff.mp (by simpa using h)
      rw [hnil]
      rfl
  | cons x rest ih =>
      rw [List.length_cons, Nat.succ_mul] at h
      have hfirst : (bytes.take t.width).length = t.width := by
        rw [List.length_take]
        omega
      have hrest : (bytes.drop t.width).length = rest.length * t.width := by
        rw [List.length_drop]
        omega
      rw [decodeBlock, if_neg (by omega), wire_cons, Sample.bytes_ofBytes hfirst, ih hrest,
        List.take_append_drop]

end Blocks

section Frames

/-- Parts, each given by where it begins and how long it is, that lie one behind the other from
`start` to `stop`. -/
def Tiles : Nat → List (Nat × Nat) → Nat → Prop
  | start, [], stop => start = stop
  | start, (offset, length) :: rest, stop => offset = start ∧ Tiles (start + length) rest stop

theorem Tiles.append {start stop : Nat} {parts : List (Nat × Nat)} (h : Tiles start parts stop)
    (length : Nat) : Tiles start (parts ++ [(stop, length)]) (stop + length) := by
  induction parts generalizing start with
  | nil =>
      have hstart : start = stop := h
      exact ⟨hstart.symm, by rw [hstart]; rfl⟩
  | cons part rest ih => exact ⟨h.1, ih h.2⟩

theorem Tiles.le {start stop : Nat} {parts : List (Nat × Nat)} (h : Tiles start parts stop) :
    start ≤ stop := by
  induction parts generalizing start with
  | nil => exact Nat.le_of_eq h
  | cons part rest ih =>
      have hrest := ih h.2
      omega

variable {t : SampleType} {frame : List UInt8} {start : Nat}

/-- The part of a frame that belongs to a member. -/
def InputMember.part (m : InputMember t) : Nat × Nat := (m.offset, m.block.length * t.width)

/-- The part of a frame that belongs to a member. -/
def OutputMember.part (m : OutputMember t) : Nat × Nat := (m.offset, m.block.length * t.width)

/-- Writing a block over its part of a frame leaves the rest as it was. -/
theorem encodeMember_eq {m : OutputMember t}
    (h : m.offset + m.block.length * t.width ≤ frame.length) :
    OutputBundle.encodeMember frame m =
      frame.take m.offset ++ wire m.block ++ frame.drop (m.offset + m.block.length * t.width) := by
  have hpart : ((frame.drop m.offset).take (m.block.length * t.width)).length =
      m.block.length * t.width := by
    rw [List.length_take, List.length_drop]
    omega
  rw [OutputBundle.encodeMember, encodeBlock_eq hpart]

/-- The bytes of all blocks fill the parts of the members. -/
theorem Tiles.length_wires {members : List (OutputMember t)} {stop : Nat}
    (h : Tiles start (members.map OutputMember.part) stop) :
    start + (members.flatMap fun m => wire m.block).length = stop := by
  induction members generalizing start with
  | nil => exact h
  | cons m rest ih =>
      rw [List.flatMap_cons, List.length_append, length_wire, ← Nat.add_assoc]
      exact ih h.2

/-- Blocks that are encoded into a frame stand in it side by side. -/
theorem encodeMembers_eq {members : List (OutputMember t)}
    (h : Tiles start (members.map OutputMember.part) frame.length) :
    members.foldl OutputBundle.encodeMember frame =
      frame.take start ++ members.flatMap fun m => wire m.block := by
  induction members generalizing start frame with
  | nil =>
      have hstart : start = frame.length := h
      simp [hstart]
  | cons m rest ih =>
      obtain ⟨hoffset, hrest⟩ := h
      have hoffset : m.offset = start := hoffset
      have hbound : start + m.block.length * t.width ≤ frame.length := hrest.le
      have hone : OutputBundle.encodeMember frame m =
          frame.take start ++ wire m.block ++ frame.drop (start + m.block.length * t.width) := by
        rw [encodeMember_eq (by omega), hoffset]
      have htake :
          (frame.take start ++ wire m.block).length = start + m.block.length * t.width := by
        rw [List.length_append, List.length_take, length_wire]
        omega
      have hlength : (OutputBundle.encodeMember frame m).length = frame.length := by
        rw [hone, List.length_append, htake, List.length_drop]
        omega
      rw [List.foldl_cons, ih (hlength ▸ hrest), hone, List.take_left' htake, List.flatMap_cons,
        List.append_assoc]

end Frames

end Dataflow
