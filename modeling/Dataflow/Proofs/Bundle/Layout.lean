import Dataflow.Proofs.Bundle.Codec
import Mathlib.Algebra.GroupWithZero.Nat
import Mathlib.Data.List.Induction

/-!
# The blocks of a frame

The members of a bundle that reads lie one behind the other in its frame, each with as many samples
as its blocks have.

**Results.**
* `frameBlock`: the samples that stand in a frame for a member.
* `wire_frameBlock_zero`, `frameBlock_succ`: the bytes of the blocks, one after the other, are the
  frame.
* `Laid.block_decodeFrame`: the bundle decodes a frame into exactly these.
* `assemble_spec`: a bundle is laid out like this, however many members it has and however
  many channels each.
-/

namespace Dataflow

section Defs

variable {t : SampleType}

/-- A bundle that reads, from the size of the blocks and the channels of every member. -/
def InputBundle.assemble (name : String) (parts : List (Nat × List NodeId)) : InputBundle t :=
  parts.foldl (fun b p => b.addMember p.1 p.2) { name }

/-- The block of a member in a frame: its samples stand behind those of all members before it. -/
def frameBlock (t : SampleType) (sizes : List Nat) (i : Nat) (frame : List UInt8) :
    List (Sample t) :=
  (List.range (sizes.getD i 0)).map fun j =>
    Sample.ofBytes ((frame.drop (((sizes.take i).sum + j) * t.width)).take t.width)

end Defs

section Blocks

variable {t : SampleType}

/-- Bytes that hold a whole block are read sample by sample. -/
theorem decodeBlock_eq {bytes : List UInt8} {block : List (Sample t)}
    (h : bytes.length = block.length * t.width) :
    decodeBlock bytes block = (List.range block.length).map fun j =>
      Sample.ofBytes ((bytes.drop (j * t.width)).take t.width) := by
  induction block generalizing bytes with
  | nil => rfl
  | cons x rest ih =>
      rw [List.length_cons, Nat.succ_mul] at h
      have hfirst : ¬(bytes.take t.width).length < t.width := by
        rw [List.length_take]
        omega
      have hrest : (bytes.drop t.width).length = rest.length * t.width := by
        rw [List.length_drop]
        omega
      rw [decodeBlock, if_neg hfirst, ih hrest, List.length_cons, List.range_succ_eq_map,
        List.map_cons, List.map_map, Nat.zero_mul, List.drop_zero]
      refine congrArg _ (List.map_congr_left fun j _ => ?_)
      rw [Function.comp_apply, List.drop_drop, Nat.succ_mul, Nat.add_comm]

/-- The members up to one of them do not take more than all of them. -/
theorem sum_take_add_le (sizes : List Nat) (i : Nat) :
    (sizes.take i).sum + sizes.getD i 0 ≤ sizes.sum := by
  induction sizes generalizing i with
  | nil => simp
  | cons n rest ih =>
      cases i with
      | zero => simp
      | succ i =>
          have hrest := ih i
          rw [List.take_succ_cons, List.sum_cons, List.sum_cons, List.getD_cons_succ]
          omega

theorem length_frameBlock (sizes : List Nat) (i : Nat) (frame : List UInt8) :
    (frameBlock t sizes i frame).length = sizes.getD i 0 := by
  simp [frameBlock]

/-- The block of the first member has the bytes at the beginning of the frame. -/
theorem wire_frameBlock_zero {n : Nat} {sizes : List Nat} {frame : List UInt8}
    (h : n * t.width ≤ frame.length) :
    wire (frameBlock t (n :: sizes) 0 frame) = frame.take (n * t.width) := by
  have hbytes : (frame.take (n * t.width)).length =
      (List.replicate n (default : Sample t)).length * t.width := by
    rw [List.length_take, List.length_replicate]
    exact Nat.min_eq_left h
  have hblock : frameBlock t (n :: sizes) 0 frame =
      decodeBlock (frame.take (n * t.width)) (List.replicate n default) := by
    rw [decodeBlock_eq hbytes, frameBlock, List.length_replicate]
    refine List.map_congr_left fun j hj => ?_
    have hj : (j + 1) * t.width ≤ n * t.width := Nat.mul_le_mul_right _ (List.mem_range.mp hj)
    rw [Nat.succ_mul] at hj
    rw [List.take_zero, List.sum_nil, Nat.zero_add, List.drop_take, List.take_take,
      Nat.min_eq_left (by omega)]
  rw [hblock, wire_decodeBlock hbytes]

/-- The blocks of the other members stand in the rest of the frame. -/
theorem frameBlock_succ (n : Nat) (sizes : List Nat) (i : Nat) (frame : List UInt8) :
    frameBlock t (n :: sizes) (i + 1) frame = frameBlock t sizes i (frame.drop (n * t.width)) := by
  unfold frameBlock
  rw [List.getD_cons_succ, List.take_succ_cons, List.sum_cons]
  refine List.map_congr_left fun j _ => ?_
  rw [List.drop_drop, ← Nat.add_mul, Nat.add_assoc]

end Blocks

namespace InputBundle

variable {t : SampleType} {b : InputBundle t} {parts : List (Nat × List NodeId)}

/-- A bundle whose members lie one behind the other in its frame. -/
structure Laid (b : InputBundle t) (parts : List (Nat × List NodeId)) : Prop where
  outputs : b.members.map InputMember.outputs = parts.map Prod.snd
  sized : b.members.map (fun m => m.block.length) = parts.map Prod.fst
  offset : ∀ {i m}, b.members[i]? = some m → m.offset = ((parts.map Prod.fst).take i).sum * t.width
  frame : b.frame.length = (parts.map Prod.fst).sum * t.width

namespace Laid

theorem writes_eq (h : b.Laid parts) : b.writes = parts.flatMap Prod.snd := by
  rw [writes, List.flatMap_def, h.outputs, ← List.flatMap_def]

/-- The member that belongs to a part. -/
theorem member (h : b.Laid parts) {i : Nat} {p : Nat × List NodeId} (hp : parts[i]? = some p) :
    ∃ m, b.members[i]? = some m ∧ m.outputs = p.2 ∧ m.block.length = p.1 := by
  have houtputs := congrArg (·[i]?) h.outputs
  have hsized := congrArg (·[i]?) h.sized
  simp only [List.getElem?_map, hp, Option.map_some] at houtputs hsized
  obtain ⟨m, hm, hmout⟩ := Option.map_eq_some_iff.mp houtputs
  rw [hm] at hsized
  exact ⟨m, hm, hmout, Option.some.inj hsized⟩

/-- The part that belongs to a member. -/
theorem part (h : b.Laid parts) {m : InputMember t} (hm : m ∈ b.members) :
    ∃ (i : Nat) (p : Nat × List NodeId),
      b.members[i]? = some m ∧ parts[i]? = some p ∧ m.outputs = p.2 ∧ m.block.length = p.1 := by
  obtain ⟨i, hi⟩ := List.getElem?_of_mem hm
  have houtputs := congrArg (·[i]?) h.outputs
  simp only [List.getElem?_map, hi, Option.map_some] at houtputs
  obtain ⟨p, hp, -⟩ := Option.map_eq_some_iff.mp houtputs.symm
  obtain ⟨n, hn, hnout, hnsize⟩ := h.member hp
  cases hi.symm.trans hn
  exact ⟨i, p, hi, hp, hnout, hnsize⟩

/-- A frame is decoded into the blocks that it has for the members. -/
theorem block_decodeFrame (h : b.Laid parts) {frame : List UInt8}
    (hframe : frame.length = (parts.map Prod.fst).sum * t.width) {i : Nat} {m : InputMember t}
    (hm : b.members[i]? = some m) :
    (decodeFrame frame m).block = frameBlock t (parts.map Prod.fst) i frame := by
  have hlength : m.block.length = (parts.map Prod.fst).getD i 0 := by
    rw [← h.sized, List.getD_eq_getElem?_getD, List.getElem?_map, hm]
    rfl
  have hbound := Nat.mul_le_mul_right t.width (sum_take_add_le (parts.map Prod.fst) i)
  rw [← hlength, ← hframe, Nat.add_mul, ← h.offset hm] at hbound
  have hbytes : ((frame.drop m.offset).take (m.block.length * t.width)).length =
      m.block.length * t.width := by
    rw [List.length_take, List.length_drop]
    omega
  rw [decodeFrame, decodeBlock_eq hbytes, frameBlock, ← hlength]
  refine List.map_congr_left fun j hj => ?_
  have hj : (j + 1) * t.width ≤ m.block.length * t.width :=
    Nat.mul_le_mul_right _ (List.mem_range.mp hj)
  rw [Nat.succ_mul] at hj
  rw [List.drop_take, List.take_take, List.drop_drop, Nat.add_mul, ← h.offset hm,
    Nat.min_eq_left (by omega)]

/-- Decoding a frame leaves the members where they are. -/
theorem decode (h : b.Laid parts) (frame : List UInt8) :
    Laid { b with members := b.members.map (decodeFrame frame) } parts := by
  refine ⟨?_, ?_, ?_, h.frame⟩
  · rw [← h.outputs, List.map_map]
    rfl
  · rw [← h.sized, List.map_map]
    exact List.map_congr_left fun m _ => length_decodeBlock
  · intro i m hm
    rw [List.getElem?_map] at hm
    obtain ⟨n, hn, rfl⟩ := Option.map_eq_some_iff.mp hm
    exact (h.offset hn : n.offset = _)

/-- The layout depends on the members and the length of the frame only. -/
theorem congr (h : b.Laid parts) {b' : InputBundle t} (hmembers : b'.members = b.members)
    (hframe : b'.frame.length = b.frame.length) : b'.Laid parts :=
  ⟨hmembers ▸ h.outputs, hmembers ▸ h.sized, fun hm => h.offset (hmembers ▸ hm),
    hframe.trans h.frame⟩

theorem addMember (h : b.Laid parts) (p : Nat × List NodeId) :
    (b.addMember p.1 p.2).Laid (parts ++ [p]) := by
  have hcount : (parts.map Prod.fst).length = b.members.length := by
    rw [← h.sized, List.length_map]
  refine ⟨?_, ?_, ?_, ?_⟩
  · simp [InputBundle.addMember, h.outputs]
  · simp [InputBundle.addMember, h.sized]
  · intro i m hm
    rw [List.map_append]
    rcases Nat.lt_or_ge i b.members.length with hi | hi
    · have hold : b.members[i]? = some m := by
        rwa [InputBundle.addMember, List.getElem?_append_left hi] at hm
      rw [List.take_append_of_le_length (by omega)]
      exact h.offset hold
    · obtain ⟨hlt, -⟩ := List.getElem?_eq_some_iff.mp hm
      obtain rfl : i = b.members.length := by
        simp only [InputBundle.addMember, List.length_append, List.length_singleton] at hlt
        omega
      have hnew : b.frame.length = m.offset := by
        simp only [InputBundle.addMember, List.getElem?_concat_length] at hm
        cases hm
        rfl
      rw [← hnew, h.frame, ← hcount, List.take_left]
  · simp [InputBundle.addMember, h.frame, Nat.add_mul]

end Laid

/-- A bundle before its first step. -/
theorem assemble_spec (name : String) (parts : List (Nat × List NodeId)) :
    let b : InputBundle t := assemble name parts
    b.Laid parts ∧ b.externalFilled = false ∧ b.internalFilled = false ∧ b.sawEnd = false ∧
      b.ended = false ∧ b.frames = 0 := by
  induction parts using List.reverseRecOn with
  | nil => exact ⟨⟨rfl, rfl, nofun, by simp [assemble]⟩, rfl, rfl, rfl, rfl, rfl⟩
  | append_singleton parts p ih =>
      obtain ⟨hlaid, hflags⟩ := ih
      have hadd : (assemble name (parts ++ [p]) : InputBundle t) =
          (assemble name parts).addMember p.1 p.2 := List.foldl_append
      rw [hadd]
      exact ⟨hlaid.addMember p, hflags⟩

end InputBundle

end Dataflow
