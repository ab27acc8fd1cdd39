import Dataflow.Graph.Basic

/-!
# Schedules

The order in which the nodes of a unit run: every node after those that feed it, and of the nodes
that could come next always the one with the least number.  Nodes on a cycle, or fed from one,
cannot be ordered in this way; they follow in the order of their numbers.
-/

namespace Dataflow

section Defs

/-- A directed edge between nodes. -/
abbrev Edge := NodeId × NodeId

/-- Take, as long as there is one, the first of `nodes` to which no edge leads, and drop the edges
that leave it. -/
def orderFrom : Nat → List NodeId → List Edge → List NodeId
  | 0, _, _ => []
  | steps + 1, nodes, edges =>
      match nodes.find? fun n => !edges.any fun e => e.2 = n with
      | none => []
      | some n => n :: orderFrom steps (nodes.erase n) (edges.filter fun e => e.1 ≠ n)

/-- A schedule: the nodes in order, and those of them that no order can place. -/
structure Schedule where
  order : List NodeId
  cyclic : List NodeId
deriving DecidableEq, Repr

/-- Schedule nodes, given in increasing order, along edges between them. -/
def schedule (nodes : List NodeId) (edges : List Edge) : Schedule :=
  let placed := orderFrom nodes.length nodes edges
  let cyclic := nodes.filter fun n => !placed.contains n
  { order := placed ++ cyclic, cyclic }

/-- The connected arcs between given nodes. -/
def Graph.arcsAmong (g : Graph) (nodes : List NodeId) : List (ArcId × Edge) :=
  g.arcList.filterMap fun (id, a) => do
    let dst ← a.dstNode
    if nodes.contains a.src.node && nodes.contains dst then some (id, (a.src.node, dst)) else none

end Defs

end Dataflow
