import Dataflow.Graph.Basic

/-!
# Listing of a graph

`Graph.text` lists a graph for a reader: a line of counts, one line for each node and one for each
arc, in the order of their numbers.
-/

namespace Dataflow

section Defs

/-- What a listing says of a kind beyond its name. -/
def NodeKind.detail : NodeKind → String
  | .clockDomain rate _ _ => " rate=" ++ toString rate
  | .rateInput change => " " ++ change.text
  | .rateOutput change => " " ++ change.text
  | .channel spec =>
      " cap=" ++ toString spec.capacity.toNat ++ " block=" ++ toString spec.blockSize.toNat
  | .externalIo ep =>
      " " ++ ep.bundle ++ "[" ++ toString ep.member.toNat ++ "] " ++ toString ep.direction
  | _ => ""

/-- The line of a node. -/
def Node.line (id : NodeId) (n : Node) : String :=
  let partition := match n.partition with
    | some p => " @" ++ toString p
    | none => ""
  "  " ++ toString id ++ " " ++ n.kind.title ++ " '" ++ n.name ++ "'" ++ n.kind.detail ++ partition
    ++ "\n"

/-- The line of an arc. -/
def Arc.line (id : ArcId) (a : Arc) : String :=
  let target := match a.dst with
    | .port p => p.text
    | .unconnected => "(unconnected)"
  "  " ++ toString id ++ ": " ++ a.src.text ++ " -> " ++ target ++ "\n"

/-- The listing of a graph. -/
def Graph.text (g : Graph) : String :=
  "Graph (" ++ toString g.nodes.size ++ " nodes, " ++ toString g.arcs.size ++ " arcs)\n"
    ++ String.join (g.nodeList.map fun n => n.2.line n.1)
    ++ String.join (g.arcList.map fun a => a.2.line a.1)

end Defs

end Dataflow
