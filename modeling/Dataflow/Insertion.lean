import Dataflow.Certificate
import Dataflow.Diagnostic
import Dataflow.Domain.Analysis
import Dataflow.Domain.Crossing
import Dataflow.Graph.Edit
import Dataflow.Policy

/-!
# Insertion of channels

Every arc that crosses from one partition or clock domain to another, or touches the outside,
is led through a channel.  The channel belongs to the side that reads: it has the partition of
the reader, the domain of the port that it feeds, and a block of as many samples as the policy
gives that domain.

**Sharing.**  Under a policy that shares, arcs from one port whose readers agree on partition,
domain and block ride the same channel.

**Algorithm.**  The crossing arcs are found first and then led through channels one after the other,
in the order of their numbers.

**Certificate.**  After insertion no arc crosses without a channel, every channel holds a block, and
every channel has one writer and readers of its own partition only (`Graph.insertionCert`).
-/

namespace Dataflow

section Defs

/-- What arcs have to agree on to share a channel. -/
structure ShareKey where
  src : PortRef
  partition : PartitionId
  domain : Option NodeId
  block : UInt32
deriving DecidableEq, Repr

/-- A channel that was inserted and the arcs that it carries. -/
structure InsertedChannel where
  channel : NodeId
  crossing : Crossing
  arcs : List ArcId
deriving DecidableEq, Repr

/-- A graph on its way to having all its channels. -/
structure Insertion where
  graph : Graph
  /-- Inserted channels in order, with what their first arc needs. -/
  entries : List (ShareKey × InsertedChannel) := []
  diagnostics : List Diagnostic := []

namespace Insertion

/-- The inserted channels in order. -/
def inserted (s : Insertion) : List InsertedChannel := s.entries.map Prod.snd

/-- The same with one more diagnostic. -/
def report (s : Insertion) (d : Diagnostic) : Insertion :=
  { s with diagnostics := s.diagnostics ++ [d] }

end Insertion

end Defs

section Policy

/-- A policy that cannot size a channel, or sizes it for one block only. -/
def ChannelPolicy.faults (p : ChannelPolicy) : List Diagnostic :=
  (if p.baseBlockSize = 0 then
    [{ code := some .badPolicy, errorClass := .plan,
       message := "channel block size must be at least 1" }]
  else [])
  ++ (if p.capacityMultiplier = 0 then
    [{ code := some .badPolicy, errorClass := .plan,
       message := "channel capacity multiplier must be at least 1" }]
  else if p.capacityMultiplier = 1 then
    [{ code := some .singleBuffer, level := .warning, errorClass := .plan,
       message := "channel capacity equals block size; producer and consumer cannot overlap",
       hint := some "use a capacity multiplier of 2 or more" }]
  else [])

end Policy

section Sizing

/-- Samples of a block that arrives in a domain, if it is a whole number within its word. -/
def DomainAnalysis.channelBlock (a : DomainAnalysis) (policy : ChannelPolicy)
    (domain : Option NodeId) : Except Trap (Option UInt32) := do
  match ← a.blockSize domain policy.baseBlockSize.toNat with
  | .ok block => return word? block
  | .error _ => return none

/-- Capacity of a channel with a given block, if it stays within its word. -/
def ChannelPolicy.capacity (p : ChannelPolicy) (block : UInt32) : Option UInt32 :=
  word? (block.toNat * p.capacityMultiplier.toNat)

/-- The name of a channel: the port that writes and the port that reads. -/
def Graph.channelName (g : Graph) (src dst : PortRef) : String :=
  let name (id : NodeId) : String := ((g.node? id).map Node.name).getD (toString id)
  s!"{name src.node}.{src.port.toNat}->{name dst.node}.{dst.port.toNat}"

end Sizing

section Steps

namespace Insertion

/-- Let an arc start at the channel of an earlier arc with the same needs. -/
def share (s : Insertion) (id : ArcId) (key : ShareKey) (entry : InsertedChannel) : Insertion :=
  { s with
    graph := s.graph.redirectSource id ⟨entry.channel, 0⟩
    entries := s.entries.map fun e =>
      if e.1 = key then (e.1, { e.2 with arcs := e.2.arcs ++ [id] }) else e }

/-- Lead an arc through a channel of its own. -/
def lead (s : Insertion) (id : ArcId) (arc : Arc) (dst : PortRef) (crossing : Crossing)
    (key : ShareKey) (capacity : UInt32) : Except Trap Insertion := do
  let g := s.graph
  let ty := arc.ty.or (g.outputType arc.src)
  let spec : ChannelSpec := { capacity, blockSize := key.block, domain := key.domain }
  let (channel, g) ← g.addChannel (g.inputContainer dst) (g.channelName arc.src dst) spec
    key.partition ty
  let (_, g) ← g.spliceArc id channel
  return { s with
    graph := g
    entries := s.entries ++ [(key, { channel, crossing, arcs := [id] })] }

/-- Lead one crossing arc through a channel. -/
def step (a : DomainAnalysis) (policy : ChannelPolicy) (s : Insertion)
    (crossing : ArcId × Crossing) : Except Trap Insertion := do
  let g := s.graph
  let id := crossing.1
  match (g.arc? id).bind fun arc => arc.dstPort.map fun dst => (arc, dst) with
  | none => return s
  | some (arc, dst) =>
      match g.partitionOf dst.node with
      | none =>
          return s.report {
            code := some .channelEnd, errorClass := .plan, subject := some dst.node
            message := s!"consumer {g.label dst.node} has no partition label" }
      | some partition =>
          let domain := g.inputDomain dst
          match ← a.channelBlock policy domain with
          | none =>
              return s.report {
                code := some .channelOverflow, errorClass := .rate, subject := some dst.node
                message :=
                  s!"no integral 32-bit block size for the channel feeding {g.label dst.node}" }
          | some block =>
              match policy.capacity block with
              | none =>
                  let multiplier := policy.capacityMultiplier.toNat
                  return s.report {
                    code := some .channelOverflow, errorClass := .rate, subject := some dst.node
                    message := s!"channel capacity {block.toNat} x {multiplier} overflows" }
              | some capacity =>
                  let key : ShareKey := { src := arc.src, partition, domain, block }
                  let earlier :=
                    if policy.shareFanout then s.entries.find? (fun e => e.1 = key) else none
                  match earlier with
                  | some entry => return s.share id key entry.2
                  | none => s.lead id arc dst crossing.2 key capacity

end Insertion

/-- The arcs of a graph that have to ride a channel. -/
def Graph.crossings (g : Graph) : List (ArcId × Crossing) :=
  g.arcList.filterMap fun a => (g.crossing? a.2).map fun c => (a.1, c)

/-- Lead every crossing arc of a graph through a channel. -/
def Graph.insertChannels (g : Graph) (a : DomainAnalysis) (policy : ChannelPolicy) :
    Except Trap Insertion :=
  let start : Insertion := { graph := g, diagnostics := policy.faults }
  if hasErrors policy.faults then .ok start
  else g.crossings.foldlM (Insertion.step a policy) start

end Steps

section Certificates

/-- No arc crosses without a channel. -/
def Graph.noDirectCrossing (g : Graph) : Bool :=
  g.arcList.all fun a => (g.crossing? a.2).isNone

/-- Every channel holds a block that is not empty. -/
def Graph.channelsHoldBlock (g : Graph) : Bool :=
  g.nodeList.all fun n =>
    match n.2.kind.channelSpec? with
    | some spec => 0 < spec.blockSize && spec.blockSize ≤ spec.capacity
    | none => true

/-- Every channel has one incoming arc, and its outgoing arcs end in its own partition. -/
def Graph.channelsPaired (g : Graph) : Bool :=
  g.nodeList.all fun (id, n) =>
    !n.kind.isChannel
      || ((g.incoming id).length = 1
        && (g.outgoing id).all fun a =>
          match a.2.dstNode with
          | some dst => g.partitionOf dst = n.partition
          | none => true)

/-- Evidence that every crossing rides a channel. -/
def Graph.insertionCert (g : Graph) : Certificate where
  obligations :=
    [("C1_no_direct_crossing", g.noDirectCrossing),
      ("C2_capacity_holds_block", g.channelsHoldBlock),
      ("C3_single_writer_local_reader", g.channelsPaired)]

end Certificates

end Dataflow
