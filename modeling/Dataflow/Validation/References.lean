import Dataflow.Diagnostic
import Dataflow.Graph.Nesting

/-!
# References

Every number that a graph mentions has to belong to something: the ends of arcs to ports, parents
and members of containers to nodes, and the domain of a channel to a clock domain.
-/

namespace Dataflow
namespace Graph

section Defs

/-- A structural error. -/
def structural (code : Code) (subject : Option NodeId) (message : String) : Diagnostic :=
  { code := some code, errorClass := .structural, subject, message }

/-- Faults of the source of an arc. -/
def sourceFaults (g : Graph) (id : ArcId) (p : PortRef) : List Diagnostic :=
  match g.node? p.node with
  | none => [structural .danglingNode none s!"arc {id} source names missing node {p.node}"]
  | some n =>
      if p.port.toNat < n.outputs.length then []
      else [structural .danglingPort (some p.node)
        (s!"arc {id} source names output port {p.port.toNat} of {g.label p.node}, " ++
          s!"which has {n.outputs.length} output ports")]

/-- Faults of the destination of an arc. -/
def targetFaults (g : Graph) (id : ArcId) (p : PortRef) : List Diagnostic :=
  match g.node? p.node with
  | none => [structural .danglingNode none s!"arc {id} destination names missing node {p.node}"]
  | some n =>
      if p.port.toNat < n.inputs.length then []
      else [structural .danglingPort (some p.node)
        (s!"arc {id} destination names input port {p.port.toNat} of {g.label p.node}, " ++
          s!"which has {n.inputs.length} input ports")]

/-- Faults of the ends of an arc. -/
def arcFaults (g : Graph) (id : ArcId) (a : Arc) : List Diagnostic :=
  g.sourceFaults id a.src ++ (match a.dst with
    | .port p => g.targetFaults id p
    | .unconnected => [])

/-- A parent that does not exist. -/
def parentFaults (g : Graph) (id : NodeId) (n : Node) : List Diagnostic :=
  match n.parent with
  | none => []
  | some p =>
      if g.nodes.contains p then []
      else [structural .danglingNode (some id) s!"{g.label id} names missing parent {p}"]

/-- Members that do not exist. -/
def memberFaults (g : Graph) (id : NodeId) (n : Node) : List Diagnostic :=
  (n.kind.members.filter fun c => !g.nodes.contains c).map fun c =>
    structural .danglingNode (some id) s!"{g.label id} lists missing child {c}"

/-- The domain of a channel, when it is no clock domain. -/
def anchorFaults (g : Graph) (id : NodeId) (n : Node) : List Diagnostic :=
  match n.kind.channelSpec?.bind ChannelSpec.domain with
  | none => []
  | some d =>
      if (g.kindOf d).any NodeKind.isDomain then []
      else [structural .danglingNode (some id)
        s!"channel {g.label id} is anchored to {d}, which is not a clock domain"]

/-- All references to what does not exist. -/
def referenceFaults (g : Graph) : List Diagnostic :=
  (g.arcList.flatMap fun a => g.arcFaults a.1 a.2)
    ++ g.nodeList.flatMap fun n =>
      g.parentFaults n.1 n.2 ++ g.memberFaults n.1 n.2 ++ g.anchorFaults n.1 n.2

end Defs

end Graph
end Dataflow
