import Dataflow.Trap
import Std.Data.ExtTreeMap

/-!
# Identifiers

Nodes and arcs are addressed by numbers that stay the same for the life of a graph.  Partitions are
labels; one label is reserved for the partition that talks to the outside.

**Supply.**  `IdSupply` hands out node and arc numbers in increasing order.  A number is never
handed out twice: when a counter would leave its word, the supply traps instead.
-/

namespace Dataflow

section Defs

/-- Number of a node. -/
structure NodeId where
  val : UInt32
deriving DecidableEq, Repr

/-- Number of an arc. -/
structure ArcId where
  val : UInt32
deriving DecidableEq, Repr

/-- Label of a partition.  One thread runs each label. -/
structure PartitionId where
  val : UInt32
deriving DecidableEq, Repr

instance : Ord NodeId := ⟨compareOn NodeId.val⟩
instance : Ord ArcId := ⟨compareOn ArcId.val⟩
instance : Ord PartitionId := ⟨compareOn PartitionId.val⟩

instance : Std.TransOrd NodeId := inferInstanceAs (Std.TransCmp (compareOn NodeId.val))
instance : Std.TransOrd ArcId := inferInstanceAs (Std.TransCmp (compareOn ArcId.val))
instance : Std.TransOrd PartitionId := inferInstanceAs (Std.TransCmp (compareOn PartitionId.val))

instance : Std.LawfulEqOrd NodeId where
  eq_of_compare {a b} h := by
    have e : a.val = b.val := Std.LawfulEqOrd.eq_of_compare h
    cases a
    cases b
    exact congrArg NodeId.mk e

instance : Std.LawfulEqOrd ArcId where
  eq_of_compare {a b} h := by
    have e : a.val = b.val := Std.LawfulEqOrd.eq_of_compare h
    cases a
    cases b
    exact congrArg ArcId.mk e

instance : Std.LawfulEqOrd PartitionId where
  eq_of_compare {a b} h := by
    have e : a.val = b.val := Std.LawfulEqOrd.eq_of_compare h
    cases a
    cases b
    exact congrArg PartitionId.mk e

/-- The label reserved for the partition that talks to the outside. -/
def PartitionId.io : PartitionId := ⟨4294967295⟩

/-- Whether a label is the reserved one. -/
def PartitionId.isIo (p : PartitionId) : Bool := p = .io

/-- Written form of a node number. -/
def NodeId.text (id : NodeId) : String := "#" ++ toString id.val.toNat

/-- Written form of an arc number. -/
def ArcId.text (id : ArcId) : String := "a" ++ toString id.val.toNat

/-- Written form of a partition label. -/
def PartitionId.text (p : PartitionId) : String :=
  if p.isIo then "io" else "p" ++ toString p.val.toNat

instance : ToString NodeId := ⟨NodeId.text⟩
instance : ToString ArcId := ⟨ArcId.text⟩
instance : ToString PartitionId := ⟨PartitionId.text⟩

/-- The next node number and the next arc number. -/
structure IdSupply where
  nextNode : UInt32 := 0
  nextArc : UInt32 := 0
deriving DecidableEq, Repr

namespace IdSupply

/-- Hand out a node number.  The counter moves first, so the last number of the word is never
given. -/
def takeNode (s : IdSupply) : Except Trap (NodeId × IdSupply) := do
  let next ← addWord s.nextNode 1
  return (⟨s.nextNode⟩, { s with nextNode := next })

/-- Hand out an arc number. -/
def takeArc (s : IdSupply) : Except Trap (ArcId × IdSupply) := do
  let next ← addWord s.nextArc 1
  return (⟨s.nextArc⟩, { s with nextArc := next })

/-- Move the node counter past a number that is in use. -/
def reserveNode (s : IdSupply) (id : NodeId) : Except Trap IdSupply := do
  let next ← addWord id.val 1
  return { s with nextNode := max s.nextNode next }

/-- Move the arc counter past a number that is in use. -/
def reserveArc (s : IdSupply) (id : ArcId) : Except Trap IdSupply := do
  let next ← addWord id.val 1
  return { s with nextArc := max s.nextArc next }

/-- Move both counters past the numbers in use, the node counter first. -/
def reserve (s : IdSupply) (node : Option NodeId) (arc : Option ArcId) : Except Trap IdSupply := do
  let s ← match node with
    | some id => s.reserveNode id
    | none => pure s
  match arc with
  | some id => s.reserveArc id
  | none => pure s

end IdSupply

end Defs

section Values

theorem NodeId.isLE_compare {a b : NodeId} : (compare a b).isLE ↔ a.val ≤ b.val :=
  Std.LawfulOrderOrd.isLE_compare a.val b.val

theorem ArcId.isLE_compare {a b : ArcId} : (compare a b).isLE ↔ a.val ≤ b.val :=
  Std.LawfulOrderOrd.isLE_compare a.val b.val

namespace IdSupply

/-- What was handed out was next, and the counter has moved by one. -/
theorem takeNode_eq_ok_iff {s s' : IdSupply} {id : NodeId} :
    s.takeNode = .ok (id, s') ↔
      id = ⟨s.nextNode⟩ ∧ s'.nextNode.toNat = s.nextNode.toNat + 1 ∧ s'.nextArc = s.nextArc := by
  refine bind_addWord_eq_ok_iff.trans ⟨?_, ?_⟩
  · rintro ⟨next, hnext, ⟨⟩⟩
    exact ⟨rfl, hnext, rfl⟩
  · rintro ⟨rfl, hnext, harc⟩
    exact ⟨s'.nextNode, hnext, by rw [← harc]⟩

theorem takeArc_eq_ok_iff {s s' : IdSupply} {id : ArcId} :
    s.takeArc = .ok (id, s') ↔
      id = ⟨s.nextArc⟩ ∧ s'.nextArc.toNat = s.nextArc.toNat + 1 ∧ s'.nextNode = s.nextNode := by
  refine bind_addWord_eq_ok_iff.trans ⟨?_, ?_⟩
  · rintro ⟨next, hnext, ⟨⟩⟩
    exact ⟨rfl, hnext, rfl⟩
  · rintro ⟨rfl, hnext, hnode⟩
    exact ⟨s'.nextArc, hnext, by rw [← hnode]⟩

theorem reserveNode_lt {s s' : IdSupply} {id : NodeId} (h : s.reserveNode id = .ok s') :
    id.val < s'.nextNode ∧ s'.nextArc = s.nextArc := by
  obtain ⟨next, hnext, rfl⟩ := bind_addWord_eq_ok_iff.mp h
  exact ⟨lt_max_of_next hnext, rfl⟩

theorem reserveArc_lt {s s' : IdSupply} {id : ArcId} (h : s.reserveArc id = .ok s') :
    id.val < s'.nextArc ∧ s'.nextNode = s.nextNode := by
  obtain ⟨next, hnext, rfl⟩ := bind_addWord_eq_ok_iff.mp h
  exact ⟨lt_max_of_next hnext, rfl⟩

/-- Both counters are past what was reserved. -/
theorem reserve_lt {s s' : IdSupply} {node : Option NodeId} {arc : Option ArcId}
    (h : s.reserve node arc = .ok s') :
    (∀ id ∈ node, id.val < s'.nextNode) ∧ ∀ id ∈ arc, id.val < s'.nextArc := by
  unfold reserve at h
  cases node with
  | none =>
      cases arc with
      | none => exact ⟨nofun, nofun⟩
      | some a =>
          refine ⟨nofun, ?_⟩
          rintro _ ⟨⟩
          exact (reserveArc_lt h).1
  | some n =>
      dsimp only at h
      cases hn : s.reserveNode n with
      | error trap =>
          rw [hn] at h
          cases h
      | ok mid =>
          rw [hn] at h
          cases arc with
          | none =>
              cases h
              refine ⟨?_, nofun⟩
              rintro _ ⟨⟩
              exact (reserveNode_lt hn).1
          | some a =>
              have ha := reserveArc_lt h
              constructor
              · rintro _ ⟨⟩
                rw [ha.2]
                exact (reserveNode_lt hn).1
              · rintro _ ⟨⟩
                exact ha.1

end IdSupply

end Values

end Dataflow
