import Dataflow.Graph.Node

/-!
# Graphs

A graph is a table of nodes, a table of arcs and the supply of numbers for both.  The supply has
passed every number in use, so a number that it hands out is fresh.  Nothing else is assumed of the
tables: a graph that was read from a document may name ports and containers that do not exist.

**Views.**  `nodeList` and `arcList` list the tables in the order of their numbers; every walk over
a graph uses one of them.
-/

namespace Dataflow

section Defs

/-- Nodes by number. -/
abbrev NodeTable := Std.ExtTreeMap NodeId Node

/-- Arcs by number. -/
abbrev ArcTable := Std.ExtTreeMap ArcId Arc

/-- A hierarchical dataflow graph. -/
structure Graph where
  nodes : NodeTable := ∅
  arcs : ArcTable := ∅
  ids : IdSupply := {}
  /-- The supply has passed every node. -/
  node_lt : ∀ id ∈ nodes, id.val < ids.nextNode := by simp
  /-- The supply has passed every arc. -/
  arc_lt : ∀ id ∈ arcs, id.val < ids.nextArc := by simp

namespace Graph

/-- The graph without nodes. -/
def empty : Graph := {}

/-- The node with a number. -/
def node? (g : Graph) (id : NodeId) : Option Node := g.nodes[id]?

/-- The arc with a number. -/
def arc? (g : Graph) (id : ArcId) : Option Arc := g.arcs[id]?

/-- Nodes in the order of their numbers. -/
def nodeList (g : Graph) : List (NodeId × Node) := g.nodes.toList

/-- Arcs in the order of their numbers. -/
def arcList (g : Graph) : List (ArcId × Arc) := g.arcs.toList

/-- Arcs that end at a node. -/
def incoming (g : Graph) (id : NodeId) : List (ArcId × Arc) :=
  g.arcList.filter fun a => a.2.dstNode = some id

/-- Arcs that start at a node. -/
def outgoing (g : Graph) (id : NodeId) : List (ArcId × Arc) :=
  g.arcList.filter fun a => a.2.src.node = id

/-- Arcs that end at a port. -/
def incomingTo (g : Graph) (p : PortRef) : List (ArcId × Arc) :=
  g.arcList.filter fun a => a.2.dstPort = some p

/-- The kind of a node. -/
def kindOf (g : Graph) (id : NodeId) : Option NodeKind := (g.node? id).map Node.kind

/-- The partition of a node. -/
def partitionOf (g : Graph) (id : NodeId) : Option PartitionId := (g.node? id).bind Node.partition

/-- Whether a number belongs to a channel. -/
def isChannel (g : Graph) (id : NodeId) : Bool := (g.kindOf id).any NodeKind.isChannel

/-- Whether a number belongs to a node that talks to the outside. -/
def isExternalIo (g : Graph) (id : NodeId) : Bool := (g.kindOf id).any NodeKind.isExternalIo

/-- Whether a number belongs to a node that changes the rate. -/
def isRateChange (g : Graph) (id : NodeId) : Bool := (g.kindOf id).any NodeKind.isRateChange

/-- A node in the words of a message: its name and its number. -/
def label (g : Graph) (id : NodeId) : String :=
  match g.node? id with
  | some n => "'" ++ n.name ++ "' (" ++ toString id ++ ")"
  | none => "<missing> (" ++ toString id ++ ")"

/-- The type of an output port. -/
def outputType (g : Graph) (p : PortRef) : Option ElemType := do
  let n ← g.node? p.node
  let port ← n.outputs[p.port.toNat]?
  port.ty

end Graph

end Defs

section Numbered

variable {κ α : Type} [Ord κ] [Std.TransOrd κ] [Std.LawfulEqOrd κ] {t : Std.ExtTreeMap κ α}
  {number : κ → UInt32} {next : UInt32}

/-- A counter has passed every entry of a table that gets one under the number that was next. -/
theorem lt_of_mem_insert {id : κ} {x : α} {moved : UInt32} (h : ∀ i ∈ t, number i < next)
    (hid : number id = next) (hmoved : moved.toNat = next.toNat + 1) :
    ∀ i ∈ t.insert id x, number i < moved := by
  intro i hi
  rw [UInt32.lt_iff_toNat_lt, hmoved]
  rcases Std.ExtTreeMap.mem_insert.mp hi with he | hi
  · cases Std.LawfulEqOrd.eq_of_compare he
    rw [hid]
    exact Nat.lt_succ_self _
  · exact Nat.lt_succ_of_lt (h i hi)

/-- A counter that has passed the last entry of a table has passed all of them. -/
theorem lt_of_maxKey? (hle : ∀ {i j : κ}, (compare i j).isLE → number i ≤ number j)
    (h : ∀ top ∈ t.maxKey?, number top < next) : ∀ i ∈ t, number i < next := by
  intro i hi
  obtain ⟨top, htop⟩ := Option.isSome_iff_exists.mp (Std.ExtTreeMap.isSome_maxKey?_of_mem hi)
  have hlast := (Std.ExtTreeMap.maxKey?_eq_some_iff_mem_and_forall.mp htop).2 i hi
  exact UInt32.lt_of_le_of_lt (hle hlast) (h top htop)

end Numbered

end Dataflow
