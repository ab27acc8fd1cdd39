import Dataflow.Graph.Basic
import Std.Data.ExtTreeSet

/-!
# Drawings of a graph

A graph is drawn in the DOT language.  Leaves become nodes filled with the colour of their
partition, containers become clusters around what they list, and connected arcs become edges, those
at a channel bold and red.

**Algorithm.**  `Graph.drawing` is the list of statements, `Graph.dot` their text.  Containers are
drawn from the outside in.  Each node is drawn where it is met first: below the containers without a
parent, or on the outermost level when no container leads to it.  A drawn node is never drawn again,
so a container that holds itself does no harm.
-/

namespace Dataflow

section Defs

/-- Statements of a drawing. -/
inductive DotStatement where
  /-- A leaf, inside `depth` clusters. -/
  | leaf (depth : Nat) (id : NodeId) (node : Node)
  /-- The start of the cluster of a container. -/
  | enter (depth : Nat) (id : NodeId) (node : Node)
  /-- The end of the cluster of a container. -/
  | leave (depth : Nat) (id : NodeId)
  /-- A connected arc; `channel` when one of its ends is a channel. -/
  | edge (src dst : NodeId) (ty : Option ElemType) (channel : Bool)
deriving DecidableEq, Repr

/-- What has been drawn, and the statements that draw it. -/
structure Sketch where
  drawn : Std.ExtTreeSet NodeId := ∅
  statements : List DotStatement := []

/-- Numbers in increasing order. -/
def sortIds (ids : List NodeId) : List NodeId := ids.mergeSort fun a b => a.val ≤ b.val

/-- Draw a node and, inside its cluster, what it lists, unless it has been drawn.  Every level of
the descent draws one more node, so `steps` may be the number of nodes. -/
def Graph.drawNode (g : Graph) : Nat → Nat → NodeId → Sketch → Sketch
  | 0, _, _, sketch => sketch
  | steps + 1, depth, id, sketch =>
      match g.node? id with
      | none => sketch
      | some n =>
          if sketch.drawn.contains id then sketch
          else if n.isLeaf then
            { drawn := sketch.drawn.insert id
              statements := sketch.statements ++ [.leaf depth id n] }
          else
            let entered : Sketch :=
              { drawn := sketch.drawn.insert id
                statements := sketch.statements ++ [.enter depth id n] }
            let filled := (sortIds n.kind.members).foldl
              (fun s child => g.drawNode steps (depth + 1) child s) entered
            { filled with statements := filled.statements ++ [.leave depth id] }

/-- Draw nodes one after the other on the outermost level. -/
def Graph.drawNodes (g : Graph) (ids : List NodeId) (sketch : Sketch) : Sketch :=
  ids.foldl (fun s id => g.drawNode g.nodes.size 0 id s) sketch

/-- The edge of an arc, if it is connected. -/
def Graph.drawArc (g : Graph) (a : Arc) : Option DotStatement :=
  a.dstNode.map fun dst =>
    .edge a.src.node dst a.ty (g.isChannel a.src.node || g.isChannel dst)

/-- The statements that draw a graph: what has no parent, then what is still missing, then the
arcs. -/
def Graph.drawing (g : Graph) : List DotStatement :=
  let roots := (g.nodeList.filter fun n => n.2.parent.isNone).map Prod.fst
  let sketch := g.drawNodes (g.nodeList.map Prod.fst) (g.drawNodes roots {})
  sketch.statements ++ g.arcList.filterMap fun a => g.drawArc a.2

end Defs

section Text

/-- Text inside a quoted label. -/
def dotEscape (s : String) : String :=
  String.ofList (s.toList.flatMap fun c =>
    if c = '\\' then ['\\', '\\'] else if c = '"' then ['\\', '"'] else [c])

/-- Colours of partitions, used in turn. -/
def palette : List String := ["#cfe2f3", "#d9ead3", "#fff2cc", "#f4cccc", "#d9d2e9", "#fce5cd"]

/-- The colour of a partition. -/
def fillColour : Option PartitionId → String
  | none => "white"
  | some p => if p.isIo then "#eeeeee" else palette.getD (p.val.toNat % palette.length) "white"

/-- The label of a leaf. -/
def leafLabel (n : Node) : String :=
  let name := dotEscape n.name
  match n.kind with
  | .rateInput change => name ++ "\\n" ++ change.text
  | .rateOutput change => name ++ "\\n" ++ change.text
  | .channel spec =>
      name ++ "\\ncap=" ++ toString spec.capacity.toNat ++ " block="
        ++ toString spec.blockSize.toNat
  | .externalIo ep =>
      name ++ "\\n" ++ dotEscape ep.bundle ++ "[" ++ toString ep.member.toNat ++ "]"
  | _ => name

/-- The outline of a leaf. -/
def leafShape : NodeKind → String
  | .rateInput _ => "invtrapezium"
  | .rateOutput _ => "trapezium"
  | .channel _ => "cds"
  | .externalIo ep => if ep.direction = .input then "invhouse" else "house"
  | _ => "box"

/-- Title, style and colour of the cluster of a container. -/
def clusterStyle (n : Node) : String × String × String :=
  let name := dotEscape n.name
  match n.kind with
  | .clockDomain rate _ _ => ("domain: " ++ name ++ " (" ++ toString rate ++ ")", "rounded", "blue")
  | _ => ("subsystem: " ++ name, "dashed", "gray50")

/-- Indentation inside `depth` clusters. -/
def dotIndent (depth : Nat) : String := String.ofList (List.replicate (4 * (depth + 1)) ' ')

/-- The lines of a statement. -/
def DotStatement.text : DotStatement → String
  | .leaf depth id n =>
      dotIndent depth ++ "n" ++ toString id.val.toNat ++ " [label=\"" ++ leafLabel n ++ "\", shape="
        ++ leafShape n.kind ++ ", style=filled, fillcolor=\"" ++ fillColour n.partition ++ "\"];\n"
  | .enter depth id n =>
      match clusterStyle n with
      | (title, style, colour) =>
          dotIndent depth ++ "subgraph cluster_n" ++ toString id.val.toNat ++ " \x7b\n"
            ++ dotIndent (depth + 1) ++ "label=\"" ++ title ++ "\";\n"
            ++ dotIndent (depth + 1) ++ "style=" ++ style ++ ";\n"
            ++ dotIndent (depth + 1) ++ "color=" ++ colour ++ ";\n"
  | .leave depth _ => dotIndent depth ++ "\x7d\n"
  | .edge src dst ty channel =>
      let typed := match ty with
        | some t => ["label=\"" ++ toString t ++ "\""]
        | none => []
      let marked := if channel then ["style=bold", "color=red"] else []
      let attributes := typed ++ marked
      let listed := if attributes.isEmpty then "" else " [" ++ ", ".intercalate attributes ++ "]"
      "    n" ++ toString src.val.toNat ++ " -> n" ++ toString dst.val.toNat ++ listed ++ ";\n"

/-- A graph in the DOT language. -/
def Graph.dot (g : Graph) : String :=
  "digraph ptc \x7b\n    rankdir=LR;\n"
    ++ "    node [fontname=\"Helvetica\", fontsize=10];\n"
    ++ "    edge [fontname=\"Helvetica\", fontsize=9];\n"
    ++ String.join (g.drawing.map DotStatement.text) ++ "\x7d\n"

end Text

end Dataflow
