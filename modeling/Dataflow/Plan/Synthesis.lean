import Dataflow.Diagnostic
import Dataflow.Domain.Analysis
import Dataflow.Domain.Crossing
import Dataflow.Plan.Basic
import Dataflow.Plan.Schedule

/-!
# Synthesis of plans

`Graph.synthesize` turns a graph with all its channels into a plan.

**Channels.**  A channel is described by its only writer, its readers and the partitions of both
sides.

**Bundles.**  The members of a bundle are laid out one after the other in a frame, each with one
block of the channels that it feeds or drains.

**Units.**  The nodes of a partition are scheduled; the channels at its edge are its inputs and
outputs, those inside it its locals.  Of a channel at a member of a bundle only the other side
belongs to a unit, and of a channel between two bundles neither.
-/

namespace Dataflow

section Results

/-- A plan and what was found on the way. -/
structure Synthesis where
  plan : ProgramPlan
  diagnostics : List Diagnostic := []
deriving DecidableEq, Repr

/-- An error of planning. -/
def planError (code : Code) (subject : NodeId) (message : String) : Diagnostic :=
  { code := some code, errorClass := .plan, subject := some subject, message }

/-- The values among results. -/
def oks {ε α : Type} (l : List (Except ε α)) : List α :=
  l.filterMap fun
    | .ok a => some a
    | .error _ => none

/-- The errors among results. -/
def faults {ε α : Type} (l : List (Except ε α)) : List ε :=
  l.filterMap fun
    | .ok _ => none
    | .error e => some e

end Results

section Channels

namespace Graph

/-- Describe a channel. -/
def describeChannel (g : Graph) (a : DomainAnalysis) (id : NodeId) (n : Node) (spec : ChannelSpec) :
    Except Diagnostic ChannelDescriptor :=
  match g.incoming id with
  | [(_, writer)] =>
      let consumers := (g.outgoing id).filterMap fun a => a.2.dstPort
      if consumers.isEmpty then
        .error (planError .channelEnd id s!"channel {g.label id} has no reader")
      else
        match g.partitionOf writer.src.node, n.partition with
        | some producerPartition, some consumerPartition =>
            .ok {
              node := id
              name := n.name
              capacity := spec.capacity
              blockSize := spec.blockSize
              elem := n.inputs.head?.bind Port.ty
              domain := spec.domain
              domainRate := a.baseRate spec.domain
              producer := writer.src
              producerPartition
              consumers
              consumerPartition }
        | _, _ =>
            .error (planError .channelEnd id s!"channel {g.label id} endpoint has no partition")
  | writers =>
      .error (planError .channelEnd id
        s!"channel {g.label id} has {writers.length} writers; expected exactly one")

/-- Describe all channels. -/
def describeChannels (g : Graph) (a : DomainAnalysis) :
    List (Except Diagnostic ChannelDescriptor) :=
  g.nodeList.filterMap fun (id, n) =>
    n.kind.channelSpec?.map fun spec => g.describeChannel a id n spec

end Graph

end Channels

section Bundles

/-- Members of a bundle: the direction of the first, and all with their positions. -/
structure BundleGroup where
  name : String
  direction : IoDirection
  members : List (UInt32 × NodeId)
deriving DecidableEq, Repr

namespace Graph

/-- The nodes that are members of bundles. -/
def ioNodes (g : Graph) : List (NodeId × IoEndpoint) :=
  g.nodeList.filterMap fun n => n.2.kind.endpoint?.map fun ep => (n.1, ep)

/-- Names of bundles in order, each once. -/
def bundleNames (g : Graph) : List String :=
  ((g.ioNodes.map fun n => n.2.bundle).mergeSort fun a b => !decide (b < a)).eraseReps

/-- The bundle with a name. -/
def bundleGroup? (g : Graph) (name : String) : Option BundleGroup :=
  match g.ioNodes.filter fun n => n.2.bundle = name with
  | [] => none
  | first :: rest =>
      some {
        name
        direction := first.2.direction
        members := ((first :: rest).map fun n => (n.2.member, n.1)).mergeSort fun a b =>
          a.1 < b.1 || (a.1 = b.1 && a.2.val ≤ b.2.val) }

/-- All bundles by name. -/
def bundleGroups (g : Graph) : List BundleGroup := g.bundleNames.filterMap g.bundleGroup?

end Graph

/-- The channels at a member of a bundle. -/
def attached (channels : List ChannelDescriptor) (direction : IoDirection) (node : NodeId) :
    List ChannelDescriptor :=
  channels.filter fun c =>
    match direction with
    | .input => c.producer.node = node
    | .output => c.consumers.any fun p => p.node = node

/-- Lay out a member whose block begins at `offset`. -/
def layMember (g : Graph) (channels : List ChannelDescriptor) (group : BundleGroup) (offset : Nat)
    (member : UInt32) (node : NodeId) : Except Diagnostic BundleMember :=
  match attached channels group.direction node with
  | [] =>
      .error (planError .channelEnd node
        (s!"bundle '{group.name}' member {member.toNat} ({g.label node}) " ++
          "is not connected to a channel"))
  | first :: rest =>
      if (first :: rest).any fun c => c.blockSize ≠ first.blockSize then
        .error (planError .frameLayout node
          s!"bundle '{group.name}' member {member.toNat} feeds channels with different block sizes")
      else
        match first.elem with
        | none =>
            .error (planError .untyped node
              s!"bundle '{group.name}' member {member.toNat} has no resolved element type")
        | some elem =>
            .ok {
              member
              node
              channels := (first :: rest).map ChannelDescriptor.node
              elem
              blockSize := first.blockSize
              byteOffset := offset }

/-- Lay out members one after the other; the end of the last block is the length of the frame. -/
def layMembers (g : Graph) (channels : List ChannelDescriptor) (group : BundleGroup) :
    Nat → List (UInt32 × NodeId) → Except Trap (List (Except Diagnostic BundleMember) × Nat)
  | offset, [] => .ok ([], offset)
  | offset, (member, node) :: rest => do
      let laid := layMember g channels group offset member node
      let next ← match laid with
        | .ok m => addLong offset (← m.blockBytes)
        | .error _ => .ok offset
      let (more, length) ← layMembers g channels group next rest
      return (laid :: more, length)

/-- Lay out a bundle.  It is dropped when one of its members cannot be laid out. -/
def layBundle (g : Graph) (channels : List ChannelDescriptor) (group : BundleGroup) :
    Except Trap (Option BundlePlan × List Diagnostic) := do
  let (laid, frameBytes) ← layMembers g channels group 0 group.members
  let found := faults laid
  if found.isEmpty then
    return (some { name := group.name, direction := group.direction, members := oks laid,
                   frameBytes }, [])
  else
    return (none, found)

end Bundles

section Units

/-- What a unit does with a channel. -/
inductive Duty where
  | read
  | write
  /-- Both. -/
  | loop
deriving DecidableEq, Repr

/-- Which units deal with a channel, given whether it is at a member of a bundle. -/
def duties (g : Graph) (bundled : Bool) (c : ChannelDescriptor) : List (PartitionId × Duty) :=
  if bundled then
    let reader := c.consumers.all fun p => g.isExternalIo p.node
    if g.isExternalIo c.producer.node && reader then []
    else if reader then [(c.producerPartition, .write)]
    else [(c.consumerPartition, .read)]
  else if c.producerPartition = c.consumerPartition then [(c.producerPartition, .loop)]
  else [(c.producerPartition, .write), (c.consumerPartition, .read)]

/-- A duty of a unit towards a channel. -/
structure Assignment where
  partition : PartitionId
  duty : Duty
  channel : NodeId
deriving DecidableEq, Repr

/-- All duties towards channels. -/
def assignments (g : Graph) (channels : List ChannelDescriptor) (bundles : List BundlePlan) :
    List Assignment :=
  let bundled := bundles.flatMap fun b => b.members.flatMap BundleMember.channels
  channels.flatMap fun c =>
    (duties g (bundled.contains c.node) c).map fun d => ⟨d.1, d.2, c.node⟩

/-- The nodes that compute inside a partition. -/
def Graph.internalNodes (g : Graph) (p : PartitionId) : List NodeId :=
  g.nodeList.filterMap fun (id, n) =>
    if n.isInternal && n.partition = some p then some id else none

/-- The channels towards which a unit has a duty, in the order of their numbers. -/
def channelsOf (as : List Assignment) (p : PartitionId) (d : Duty) : List NodeId :=
  let mine := as.filterMap fun a => if a.partition = p && a.duty = d then some a.channel else none
  mine.mergeSort fun a b => a.val ≤ b.val

/-- Partitions that have a node or a duty, in order and each once. -/
def Graph.unitLabels (g : Graph) (as : List Assignment) : List PartitionId :=
  let ofNodes := g.nodeList.filterMap fun n => if n.2.isInternal then n.2.partition else none
  ((ofNodes ++ as.map Assignment.partition).mergeSort fun a b => a.val ≤ b.val).eraseReps

/-- The unit of a partition, and a warning when its nodes have a cycle. -/
def Graph.unitPlan (g : Graph) (as : List Assignment) (p : PartitionId) :
    UnitPlan × List Diagnostic :=
  let nodes := g.internalNodes p
  let arcs := g.arcsAmong nodes
  let s := schedule nodes (arcs.map Prod.snd)
  let unit : UnitPlan :=
    { partition := p
      inputs := channelsOf as p .read
      outputs := channelsOf as p .write
      locals := channelsOf as p .loop
      nodes := s.order
      arcs := arcs.map Prod.fst }
  match s.cyclic with
  | [] => (unit, [])
  | n :: _ =>
      (unit, [{ planError .cycle n
        s!"partition {p} contains a cycle through {g.label n}; using ID order" with
          level := .warning }])

end Units

section Plans

/-- Plan a program for a graph with all its channels. -/
def Graph.synthesize (g : Graph) (a : DomainAnalysis) : Except Trap Synthesis := do
  let described := g.describeChannels a
  let channels := oks described
  let laid ← g.bundleGroups.mapM (layBundle g channels)
  let bundles := laid.filterMap Prod.fst
  let as := assignments g channels bundles
  let units := (g.unitLabels as).map (g.unitPlan as)
  let plans := units.map Prod.fst
  let ioUnit := plans.find? fun u => u.partition.isIo
  let io := if bundles.isEmpty && ioUnit.isNone then none else some { bundles, unit := ioUnit }
  return {
    plan := { channels, partitions := plans.filter (fun u => !u.partition.isIo), io }
    diagnostics := faults described ++ laid.flatMap Prod.snd ++ units.flatMap Prod.snd }

end Plans

end Dataflow
