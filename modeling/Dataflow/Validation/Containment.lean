import Dataflow.Validation.References

/-!
# Containment

Containers form a forest, and a node and its container agree on it: the container lists the
node, among its boundaries exactly if the node changes the rate, and every node that it lists
names it as parent.
-/

namespace Dataflow
namespace Graph

section Defs

/-- Whether following parents from `cur` comes to `self`, or goes on for more than `steps` nodes. -/
def climbsTo (g : Graph) (self : NodeId) : Nat → Option NodeId → Bool
  | _, none => false
  | 0, some _ => true
  | steps + 1, some p => p = self || g.climbsTo self steps ((g.node? p).bind Node.parent)

/-- A node inside itself. -/
def cycleFaults (g : Graph) (id : NodeId) (n : Node) : List Diagnostic :=
  if g.climbsTo id g.nodes.size n.parent then
    [structural .containmentCycle (some id) s!"{g.label id} is its own ancestor"]
  else []

/-- The remedy for a node that changes the rate in the wrong place. -/
def boundaryHint : String :=
  "place rate-change nodes in the boundary list of the domain they enter or leave"

/-- A node that its parent does not list where it should. -/
def membershipFaults (g : Graph) (id : NodeId) (n : Node) (parentId : NodeId) (parent : Node) :
    List Diagnostic :=
  let judge (asChild asBoundary inDomain : Bool) : List Diagnostic :=
    if n.kind.isRateChange then
      if inDomain && asBoundary then []
      else [{ structural .strayRateChange (some id)
          s!"{n.kind.title} {g.label id} is not in the boundary list of a clock domain" with
        hint := some boundaryHint }]
    else if asBoundary || !asChild then
      [structural .containment (some id)
        s!"{g.label id} names {g.label parentId} as parent, but is not among its children"]
    else []
  match parent.kind with
  | .subsystem children => judge (children.contains id) false false
  | .clockDomain _ children boundaries => judge (children.contains id) (boundaries.contains id) true
  | _ => [structural .containment (some id)
      (s!"parent of {g.label id} is {parent.kind.title} {g.label parentId}, " ++
        "which cannot contain nodes")]

/-- What is wrong between a node and its parent. -/
def upwardFaults (g : Graph) (id : NodeId) (n : Node) : List Diagnostic :=
  match n.parent.bind fun p => (g.node? p).map fun c => (p, c) with
  | some (p, parent) => g.membershipFaults id n p parent
  | none =>
      if n.kind.isRateChange then
        [{ structural .strayRateChange (some id)
            s!"{n.kind.title} {g.label id} is not owned by a clock domain" with
          hint := some boundaryHint }]
      else []

/-- Members that name another parent, or none. -/
def downwardFaults (g : Graph) (id : NodeId) (n : Node) : List Diagnostic :=
  n.kind.members.filterMap fun c =>
    let back := (g.node? c).bind Node.parent
    if back = some id then none
    else
      let named := match back with
        | some b => toString b
        | none => "none"
      some (structural .containment (some c)
        s!"{g.label id} lists {g.label c} as a child, but its parent is {named}")

/-- All disagreements on containment. -/
def containmentFaults (g : Graph) : List Diagnostic :=
  g.nodeList.flatMap fun n =>
    g.cycleFaults n.1 n.2 ++ g.upwardFaults n.1 n.2 ++ g.downwardFaults n.1 n.2

end Defs

end Graph
end Dataflow
