import Dataflow.Proofs.Graph.Table
import Mathlib.Logic.Relation

/-!
# Well-formed graphs

What a graph has to be before anything is said about its rates: every reference leads somewhere,
containment is a forest on which nodes and containers agree, and each node by itself is sound.
Nothing here mentions how a graph is checked.
-/

namespace Dataflow

section Nodes

namespace NodeKind

/-- The ordinary members of a container. -/
def children : NodeKind → List NodeId
  | subsystem children => children
  | clockDomain _ children _ => children
  | _ => []

/-- The nodes at the edge of a clock domain. -/
def boundaries : NodeKind → List NodeId
  | clockDomain _ _ boundaries => boundaries
  | _ => []

theorem channelSpec?_eq_some {kind : NodeKind} {spec : ChannelSpec} :
    kind.channelSpec? = some spec ↔ kind = .channel spec := by
  cases kind <;> simp [channelSpec?]

theorem endpoint?_eq_some {kind : NodeKind} {endpoint : IoEndpoint} :
    kind.endpoint? = some endpoint ↔ kind = .externalIo endpoint := by
  cases kind <;> simp [endpoint?]

end NodeKind

/-- The ports of a node are as many as its kind asks for. -/
def Node.PortsSuit (n : Node) : Prop :=
  match n.kind with
  | .primitive _ => True
  | .subsystem _ => n.inputs.length = 0 ∧ n.outputs.length = 0
  | .clockDomain .. => n.inputs.length = 0 ∧ n.outputs.length = 0
  | .rateInput _ => n.inputs.length = 1 ∧ n.outputs.length = 1
  | .rateOutput _ => 1 ≤ n.inputs.length ∧ n.outputs.length = 1
  | .channel _ => n.inputs.length = 1 ∧ n.outputs.length = 1
  | .externalIo endpoint =>
      match endpoint.direction with
      | .input => n.inputs.length = 0 ∧ n.outputs.length = 1
      | .output => n.inputs.length = 1 ∧ n.outputs.length = 0

/-- A container lists a node where it belongs: at the edge if the node changes the rate, and
otherwise among the ordinary members alone. -/
def NodeKind.Lists (container : NodeKind) (id : NodeId) (n : Node) : Prop :=
  if n.kind.isRateChange then id ∈ container.boundaries
  else id ∈ container.children ∧ id ∉ container.boundaries

end Nodes

section Graphs

namespace Graph

/-- An output port that exists. -/
def HasOutput (g : Graph) (p : PortRef) : Prop :=
  ∃ n, g.node? p.node = some n ∧ p.port.toNat < n.outputs.length

/-- An input port that exists. -/
def HasInput (g : Graph) (p : PortRef) : Prop :=
  ∃ n, g.node? p.node = some n ∧ p.port.toNat < n.inputs.length

/-- The node `id` names `p` as its container. -/
def Parent (g : Graph) (id p : NodeId) : Prop :=
  ∃ n, g.node? id = some n ∧ n.parent = some p

/-- Every reference of a graph leads to something of the right sort. -/
structure ReferencesExist (g : Graph) : Prop where
  source : ∀ {id a}, g.arc? id = some a → g.HasOutput a.src
  target : ∀ {id a p}, g.arc? id = some a → a.dst = .port p → g.HasInput p
  parent : ∀ {id p}, g.Parent id p → ∃ c, g.node? p = some c
  member : ∀ {id n c}, g.node? id = some n → c ∈ n.kind.members → ∃ m, g.node? c = some m
  anchor : ∀ {id n spec d}, g.node? id = some n → n.kind = .channel spec → spec.domain = some d →
    ∃ m, g.node? d = some m ∧ m.kind.isDomain

/-- Containment has no cycle, and nodes and containers agree on it. -/
structure ContainmentAgrees (g : Graph) : Prop where
  acyclic : ∀ id, ¬ Relation.TransGen g.Parent id id
  back : ∀ {id n c}, g.node? id = some n → c ∈ n.kind.members → g.Parent c id
  listed : ∀ {id n p m}, g.node? id = some n → n.parent = some p → g.node? p = some m →
    m.kind.Lists id n
  rateChange : ∀ {id n}, g.node? id = some n → n.kind.isRateChange → ∃ p, n.parent = some p

/-- A graph that can be given rates: references, containment, ports, channels, partitions and
bundles are sound. -/
structure WellFormed (g : Graph) : Prop extends ReferencesExist g, ContainmentAgrees g where
  fanIn : ∀ {id id' a a' p}, g.arc? id = some a → g.arc? id' = some a' →
    a.dst = .port p → a'.dst = .port p → id = id'
  ports : ∀ {id n}, g.node? id = some n → n.PortsSuit
  channel : ∀ {id n spec}, g.node? id = some n → n.kind = .channel spec →
    0 < spec.blockSize ∧ spec.blockSize ≤ spec.capacity
  partition : ∀ {id n}, g.node? id = some n → n.isLeaf → ∃ p, n.partition = some p
  ioPartition : ∀ {id n ep}, g.node? id = some n → n.kind = .externalIo ep →
    n.partition = some .io
  member_unique : ∀ {id id' n n' ep ep'}, g.node? id = some n → g.node? id' = some n' →
    n.kind = .externalIo ep → n'.kind = .externalIo ep' →
    ep.bundle = ep'.bundle → ep.member = ep'.member → id = id'
  oneDirection : ∀ {id id' n n' ep ep'}, g.node? id = some n → g.node? id' = some n' →
    n.kind = .externalIo ep → n'.kind = .externalIo ep' →
    ep.bundle = ep'.bundle → ep.direction = ep'.direction

theorem Parent.unique {g : Graph} {id p q : NodeId} (hp : g.Parent id p) (hq : g.Parent id q) :
    p = q := by
  obtain ⟨n, hn, hp⟩ := hp
  obtain ⟨m, hm, hq⟩ := hq
  cases hn.symm.trans hm
  exact Option.some.inj (hp.symm.trans hq)

/-- A node with a port is no container. -/
theorem isLeaf_of_ports {g : Graph} {n : Node} (hg : g.WellFormed) {id : NodeId}
    (hn : g.node? id = some n) (hport : 0 < n.inputs.length + n.outputs.length) :
    n.isLeaf = true := by
  have hports := hg.ports hn
  unfold Node.PortsSuit at hports
  cases hk : n.kind <;> simp_all [Node.isLeaf, NodeKind.isContainer]

/-- A node with ports computes or talks, and so has a partition. -/
theorem WellFormed.exists_partition {g : Graph} {n : Node} (hg : g.WellFormed) {id : NodeId}
    (hn : g.node? id = some n) (hport : 0 < n.inputs.length + n.outputs.length) :
    ∃ l, g.partitionOf id = some l := by
  obtain ⟨l, hl⟩ := hg.partition hn (isLeaf_of_ports hg hn hport)
  exact ⟨l, by simp [partitionOf, hn, hl]⟩

end Graph

end Graphs

end Dataflow
