import Dataflow.Graph.Basic
import Std.Data.ExtTreeSet

/-!
# Building and changing graphs

**Tables.**  Every change of a graph is made of a few changes of its tables: `placeNode` and
`placeArc` take a fresh number, `modifyNode` and `modifyArc` keep the numbers in use, `restrict`
only gives numbers up.

**Construction.**  `addNode` takes a fresh number and lists the new node with its container;
the other constructions fix the kind and the number of ports.  `connect` gives an arc the
type of its source.

**Changes.**  `spliceArc` leads an arc through a node, `redirectSource` moves its start, and
`removeNode` takes a node out with everything below it and every arc that touches what is gone.
-/

namespace Dataflow
namespace Graph

section Tables

/-- Put a node under a fresh number. -/
def placeNode (g : Graph) (n : Node) : Except Trap (NodeId × Graph) :=
  withValue g.ids.takeNode fun (id, ids) h =>
    (id, { g with
      nodes := g.nodes.insert id n
      ids
      node_lt := by
        obtain ⟨rfl, hnext, -⟩ := IdSupply.takeNode_eq_ok_iff.mp h
        exact lt_of_mem_insert g.node_lt rfl hnext
      arc_lt := by
        obtain ⟨-, -, harc⟩ := IdSupply.takeNode_eq_ok_iff.mp h
        rw [harc]
        exact g.arc_lt })

/-- Put an arc under a fresh number. -/
def placeArc (g : Graph) (a : Arc) : Except Trap (ArcId × Graph) :=
  withValue g.ids.takeArc fun (id, ids) h =>
    (id, { g with
      arcs := g.arcs.insert id a
      ids
      node_lt := by
        obtain ⟨-, -, hnode⟩ := IdSupply.takeArc_eq_ok_iff.mp h
        rw [hnode]
        exact g.node_lt
      arc_lt := by
        obtain ⟨rfl, hnext, -⟩ := IdSupply.takeArc_eq_ok_iff.mp h
        exact lt_of_mem_insert g.arc_lt rfl hnext })

/-- Change a node in place, if it exists. -/
def modifyNode (g : Graph) (id : NodeId) (f : Node → Node) : Graph :=
  { g with
    nodes := g.nodes.modify id f
    node_lt := fun i hi => g.node_lt i (Std.ExtTreeMap.mem_modify.mp hi) }

/-- Change an arc in place, if it exists. -/
def modifyArc (g : Graph) (id : ArcId) (f : Arc → Arc) : Graph :=
  { g with
    arcs := g.arcs.modify id f
    arc_lt := fun i hi => g.arc_lt i (Std.ExtTreeMap.mem_modify.mp hi) }

/-- Keep only some of the nodes and arcs. -/
def restrict (g : Graph) (keepNode : NodeId → Bool) (keepArc : Arc → Bool) : Graph :=
  { g with
    nodes := g.nodes.filter fun i _ => keepNode i
    arcs := g.arcs.filter fun _ a => keepArc a
    node_lt := fun i hi => g.node_lt i (Std.ExtTreeMap.mem_of_mem_filter hi)
    arc_lt := fun i hi => g.arc_lt i (Std.ExtTreeMap.mem_of_mem_filter hi) }

end Tables

section Construction

/-- Add a node and list it with its container.  A node that changes the rate is listed among the
boundaries of its clock domain. -/
def addNode (g : Graph) (parent : Option NodeId) (name : String) (kind : NodeKind)
    (inputs outputs : Nat) (partition : Option PartitionId) : Except Trap (NodeId × Graph) := do
  let (id, g) ← g.placeNode
    { name, kind, inputs := List.replicate inputs {}, outputs := List.replicate outputs {},
      partition, parent }
  match parent with
  | some p =>
      return (id, g.modifyNode p fun n => { n with kind := n.kind.adopt kind.isRateChange id })
  | none => return (id, g)

/-- Add a primitive.  Its operation is its name. -/
def addPrimitive (g : Graph) (parent : Option NodeId) (name : String) (inputs outputs : Nat)
    (partition : PartitionId) : Except Trap (NodeId × Graph) :=
  g.addNode parent name (.primitive name) inputs outputs (some partition)

/-- Add an empty subsystem. -/
def addSubsystem (g : Graph) (parent : Option NodeId) (name : String) :
    Except Trap (NodeId × Graph) :=
  g.addNode parent name (.subsystem []) 0 0 none

/-- Add an empty clock domain. -/
def addDomain (g : Graph) (parent : Option NodeId) (name : String) (rate : Rate) :
    Except Trap (NodeId × Graph) :=
  g.addNode parent name (.clockDomain rate [] []) 0 0 none

/-- Add a node through which samples enter a clock domain. -/
def addRateInput (g : Graph) (domain : NodeId) (name : String) (change : RateChange)
    (partition : PartitionId) : Except Trap (NodeId × Graph) :=
  g.addNode (some domain) name (.rateInput change) 1 1 (some partition)

/-- Add a node through which samples leave a clock domain. -/
def addRateOutput (g : Graph) (domain : NodeId) (name : String) (change : RateChange)
    (inputs : Nat) (partition : PartitionId) : Except Trap (NodeId × Graph) :=
  g.addNode (some domain) name (.rateOutput change) inputs 1 (some partition)

/-- Add a member of a bundle of external ports. -/
def addIo (g : Graph) (parent : Option NodeId) (name : String) (endpoint : IoEndpoint) :
    Except Trap (NodeId × Graph) :=
  match endpoint.direction with
  | .input => g.addNode parent name (.externalIo endpoint) 0 1 (some .io)
  | .output => g.addNode parent name (.externalIo endpoint) 1 0 (some .io)

/-- Add a channel whose two ports have the given type. -/
def addChannel (g : Graph) (parent : Option NodeId) (name : String) (spec : ChannelSpec)
    (partition : PartitionId) (ty : Option ElemType) : Except Trap (NodeId × Graph) := do
  let (id, g) ← g.addNode parent name (.channel spec) 1 1 (some partition)
  return (id, g.modifyNode id fun n => { n with inputs := [{ ty }], outputs := [{ ty }] })

/-- Set the type of an output port, if it exists. -/
def setOutputType (g : Graph) (p : PortRef) (ty : ElemType) : Graph :=
  g.modifyNode p.node fun n =>
    { n with outputs := n.outputs.modify p.port.toNat fun _ => { ty := some ty } }

/-- Set the type of an input port, if it exists. -/
def setInputType (g : Graph) (p : PortRef) (ty : ElemType) : Graph :=
  g.modifyNode p.node fun n =>
    { n with inputs := n.inputs.modify p.port.toNat fun _ => { ty := some ty } }

/-- Add an arc.  It has the type of its source. -/
def addArc (g : Graph) (src : PortRef) (dst : ArcSink) : Except Trap (ArcId × Graph) :=
  g.placeArc { src, dst, ty := g.outputType src }

/-- Connect an output port to an input port. -/
def connect (g : Graph) (src dst : PortRef) : Except Trap (ArcId × Graph) :=
  g.addArc src (.port dst)

/-- Say that an output port is deliberately not consumed. -/
def connectNowhere (g : Graph) (src : PortRef) : Except Trap (ArcId × Graph) :=
  g.addArc src .unconnected

/-- Declare the sample period of an arc, if it exists. -/
def setArcPeriod (g : Graph) (id : ArcId) (period : Rate) : Graph :=
  g.modifyArc id fun a => { a with period := some period }

end Construction

section Changes

/-- Take an arc out. -/
def removeArc (g : Graph) (id : ArcId) : Graph :=
  { g with
    arcs := g.arcs.erase id
    arc_lt := fun i hi => g.arc_lt i (Std.ExtTreeMap.mem_of_mem_erase hi) }

/-- The numbers reachable from those in `stack` through lists of members, added to `seen`, within
`steps` numbers taken from the stack. -/
def reachFrom (g : Graph) : Nat → List NodeId → Std.ExtTreeSet NodeId → Std.ExtTreeSet NodeId
  | 0, _, seen => seen
  | _ + 1, [], seen => seen
  | steps + 1, id :: stack, seen =>
      if seen.contains id then g.reachFrom steps stack seen
      else
        match g.node? id with
        | some n => g.reachFrom steps (n.kind.members ++ stack) (seen.insert id)
        | none => g.reachFrom steps stack (seen.insert id)

/-- How many times containers list a member. -/
def listings (g : Graph) : Nat := (g.nodeList.flatMap fun n => n.2.kind.members).length

/-- A node and everything below it.  Each listing puts one number on the stack at most once. -/
def subtree (g : Graph) (id : NodeId) : Std.ExtTreeSet NodeId :=
  g.reachFrom (g.listings + 2) [id] ∅

/-- Take out a node, everything below it, and every arc that touches any of them. -/
def removeNode (g : Graph) (id : NodeId) : Graph :=
  match g.node? id with
  | none => g
  | some n =>
      let doomed := g.subtree id
      let gone (a : Arc) : Bool := doomed.contains a.src.node || a.dstNode.any doomed.contains
      let rest := g.restrict (fun i => !doomed.contains i) fun a => !gone a
      match n.parent with
      | some p => rest.modifyNode p fun c => { c with kind := c.kind.disown id }
      | none => rest

/-- Lead an arc through the first ports of a node: what was `src → dst` becomes `src → via → dst`.
The second half is a new arc. -/
def spliceArc (g : Graph) (id : ArcId) (via : NodeId) : Except Trap (Option ArcId × Graph) :=
  match g.arc? id with
  | none => .ok (none, g)
  | some old => do
      let (next, g) ← g.placeArc { old with src := ⟨via, 0⟩ }
      return (some next, g.modifyArc id fun a => { a with dst := .port ⟨via, 0⟩ })

/-- Move the start of an arc, if it exists. -/
def redirectSource (g : Graph) (id : ArcId) (src : PortRef) : Graph :=
  g.modifyArc id fun a => { a with src }

end Changes

end Graph
end Dataflow
