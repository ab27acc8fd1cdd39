import Dataflow.Proofs.Graph.Subtree
import Mathlib.Data.List.Perm.Basic

/-!
# Taking a node out of any graph

Nothing is assumed of the graph here: containers may list each other, share a member or list
numbers without a node.  Exactly the subtree of the node and the arcs at it are gone, and of
what remains only the container of the node has changed (`removeNode_takes_subtree`): its lists
have lost the node.
-/

namespace Dataflow

namespace NodeKind

/-- Only containers have lists to change. -/
theorem disown_eq_self {kind : NodeKind} (h : kind.isContainer = false) (id : NodeId) :
    kind.disown id = kind := by
  cases kind with
  | subsystem | clockDomain => cases h
  | _ => rfl

end NodeKind

namespace Graph

section Removal

variable {g : Graph} {id : NodeId} {n : Node}

theorem removeNode_node?_eq_none_iff (hn : g.node? id = some n) {i : NodeId} :
    (g.removeNode id).node? i = none ↔ g.node? i = none ∨ g.Below id i := by
  rw [node?_removeNode hn, ← contains_subtree_iff]
  by_cases hbelow : (g.subtree id).contains i = true
  · simp [hbelow]
  · by_cases hparent : n.parent = some i <;> simp [hbelow, hparent]

/-- What is not below the node stays, and only its container changes. -/
theorem node?_removeNode_of_not_below (hn : g.node? id = some n) {i : NodeId} {m : Node}
    (hm : g.node? i = some m) (hi : ¬ g.Below id i) :
    (g.removeNode id).node? i =
      some (if n.parent = some i then { m with kind := m.kind.disown id } else m) := by
  rw [node?_removeNode hn, if_neg (contains_subtree_iff.not.mpr hi), hm]
  by_cases hparent : n.parent = some i <;> simp [hparent]

/-- Taking out a node of any graph ends, and takes out its subtree.

* No walk through the lists of the graph goes on for ever.  From the node on every walk, in whatever
  order, finds the same numbers.
* The nodes that are gone are those below the node: reachable from it through lists of members.
* The arcs that are gone are those with an end below the node.
* Of the nodes that remain only the container of the node changes.  The node is gone from the
  children of a subsystem, and from the children and from the boundaries of a clock domain.  All
  else of the container stays: what it is, its rate, and the other numbers in the list and the order
  in which they were.
* Arcs that remain do not change, and neither does the supply of numbers. -/
theorem removeNode_takes_subtree (g : Graph) (id : NodeId) (n : Node) (hn : g.node? id = some n) :
    WellFounded (flip g.Visit) ∧
    (∀ found, g.Walk ([id], ∅) ([], found) ↔ found = g.subtree id) ∧
    (∀ i, (g.removeNode id).node? i = none ↔ g.node? i = none ∨ g.Below id i) ∧
    (∀ i a, (g.removeNode id).arc? i = some a ↔ g.arc? i = some a ∧ ¬ g.Below id a.src.node ∧
      ∀ c, a.dstNode = some c → ¬ g.Below id c) ∧
    (∀ i m, g.node? i = some m → ¬ g.Below id i →
      (n.parent ≠ some i → (g.removeNode id).node? i = some m) ∧
      (n.parent = some i →
        (∀ children, m.kind = .subsystem children →
          (g.removeNode id).node? i = some { m with
            kind := .subsystem (children.filter (· ≠ id)) }) ∧
        (∀ rate children boundaries, m.kind = .clockDomain rate children boundaries →
          (g.removeNode id).node? i = some { m with
            kind := .clockDomain rate (children.filter (· ≠ id)) (boundaries.filter (· ≠ id)) }) ∧
        (m.kind.isContainer = false → (g.removeNode id).node? i = some m))) ∧
    (g.removeNode id).ids = g.ids := by
  refine ⟨g.visit_wellFounded, fun _ => walk_iff, fun _ => removeNode_node?_eq_none_iff hn, ?_, ?_,
    ids_removeNode⟩
  · intro i a
    simp only [arc?_removeNode hn, ← contains_subtree_iff, Bool.not_eq_true]
  · intro i m hm hi
    rw [node?_removeNode_of_not_below hn hm hi]
    refine ⟨fun hparent => by rw [if_neg hparent], fun hparent => ?_⟩
    rw [if_pos hparent]
    refine ⟨fun children hkind => ?_, fun rate children boundaries hkind => ?_, fun hleaf => ?_⟩
    · rw [hkind, NodeKind.disown]
    · rw [hkind, NodeKind.disown]
    · rw [NodeKind.disown_eq_self hleaf]

/-- Two containers that list each other.  The first also lists a number without a node, where an arc
ends, and a node that the clock domain around it lists too. -/
def looped : Graph :=
  let build : Except Trap Graph := do
    let (_, g) ← empty.placeNode
      { name := "first", kind := .subsystem [⟨1⟩, ⟨9⟩, ⟨3⟩], parent := some ⟨2⟩ }
    let (_, g) ← g.placeNode { name := "second", kind := .subsystem [⟨0⟩], parent := some ⟨0⟩ }
    let (_, g) ← g.placeNode
      { name := "around", kind := .clockDomain (.upsample 3) [⟨3⟩, ⟨0⟩, ⟨4⟩] [⟨5⟩, ⟨0⟩] }
    let (shared, g) ← g.addPrimitive none "shared" 1 1 ⟨0⟩
    let (other, g) ← g.addPrimitive none "other" 1 1 ⟨0⟩
    let (_, g) ← g.placeNode
      { name := "edge", kind := .rateInput ⟨.upsample, 3⟩, parent := some ⟨2⟩ }
    let (_, g) ← g.connect ⟨other, 0⟩ ⟨⟨9⟩, 0⟩
    let (_, g) ← g.connect ⟨shared, 0⟩ ⟨other, 0⟩
    let (_, g) ← g.connectNowhere ⟨other, 0⟩
    return g
  build.toOption.getD empty

/-- The walk comes back to the first container and ends.  The node with two containers is gone, as
is the arc to the number without a node.  The domain around has lost the first container from both
of its lists, and keeps its rate, its other children and its other boundary. -/
theorem removeNode_takes_subtree_looped :
    ∃ n m, looped.node? ⟨0⟩ = some n ∧ looped.node? ⟨2⟩ = some m ∧ ¬ looped.Below ⟨0⟩ ⟨2⟩ ∧
      m.kind = .clockDomain (.upsample 3) [⟨3⟩, ⟨0⟩, ⟨4⟩] [⟨5⟩, ⟨0⟩] ∧
      looped.Walk ([⟨0⟩], ∅) ([], looped.subtree ⟨0⟩) ∧
      (looped.removeNode ⟨0⟩).node? ⟨3⟩ = none ∧ (looped.removeNode ⟨0⟩).arc? ⟨0⟩ = none ∧
      (looped.removeNode ⟨0⟩).arc? ⟨2⟩ = looped.arc? ⟨2⟩ ∧
      (looped.removeNode ⟨0⟩).node? ⟨2⟩ =
        some { m with kind := .clockDomain (.upsample 3) [⟨3⟩, ⟨4⟩] [⟨5⟩] } := by
  obtain ⟨n, hn, hparent⟩ : ∃ n, looped.node? ⟨0⟩ = some n ∧ n.parent = some ⟨2⟩ := by
    decide
  obtain ⟨m, hm, hkind⟩ : ∃ m, looped.node? ⟨2⟩ = some m ∧
      m.kind = .clockDomain (.upsample 3) [⟨3⟩, ⟨0⟩, ⟨4⟩] [⟨5⟩, ⟨0⟩] := by
    decide
  have hfound : ∀ i, looped.Below ⟨0⟩ i ↔ (looped.subtree ⟨0⟩).contains i = true :=
    fun i => contains_subtree_iff.symm
  have haway : ¬ looped.Below ⟨0⟩ ⟨2⟩ := by
    rw [hfound]
    decide
  obtain ⟨into, hinto, hend⟩ : ∃ a, looped.arc? ⟨0⟩ = some a ∧ a.dstNode = some ⟨9⟩ := by
    decide
  obtain ⟨out, hout, hsrc, hnowhere⟩ : ∃ a, looped.arc? ⟨2⟩ = some a ∧ a.src.node = ⟨4⟩ ∧
      a.dstNode = none := by
    decide
  obtain ⟨-, hwalk, hgone, harcs, hkept, -⟩ := removeNode_takes_subtree looped ⟨0⟩ n hn
  refine ⟨n, m, hn, hm, haway, hkind, (hwalk _).mpr rfl, (hgone _).mpr (.inr ?_), ?_, ?_, ?_⟩
  · rw [hfound]
    decide
  · rw [Option.eq_none_iff_forall_ne_some]
    intro a ha
    obtain ⟨hold, -, hdst⟩ := (harcs _ a).mp ha
    cases hold.symm.trans hinto
    refine hdst _ hend ((hfound _).mpr ?_)
    decide
  · rw [hout, harcs, hsrc, hnowhere, hfound]
    exact ⟨hout, by decide, nofun⟩
  · exact ((hkept _ m hm haway).2 hparent).2.1 _ _ _ hkind

end Removal

end Graph
end Dataflow
