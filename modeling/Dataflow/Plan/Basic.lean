import Dataflow.Graph.Node

/-!
# Program plans

What the threads of a program need to know: the channels between them, one unit for each partition,
and the bundles that talk to the outside.
-/

namespace Dataflow

section Defs

/-- A channel of the program. -/
structure ChannelDescriptor where
  node : NodeId
  name : String
  capacity : UInt32
  blockSize : UInt32
  elem : Option ElemType
  domain : Option NodeId
  /-- Rate of the domain against the base domain. -/
  domainRate : Rate
  /-- The output port that writes. -/
  producer : PortRef
  producerPartition : PartitionId
  /-- The input ports that read. -/
  consumers : List PortRef
  consumerPartition : PartitionId
deriving DecidableEq, Repr

/-- What the thread of one partition does. -/
structure UnitPlan where
  partition : PartitionId
  /-- Channels that it reads. -/
  inputs : List NodeId := []
  /-- Channels that it writes. -/
  outputs : List NodeId := []
  /-- Channels that it writes and reads itself. -/
  locals : List NodeId := []
  /-- Its nodes in the order in which they run. -/
  nodes : List NodeId := []
  /-- The arcs between its nodes. -/
  arcs : List ArcId := []
deriving DecidableEq, Repr

/-- One member of a bundle. -/
structure BundleMember where
  member : UInt32
  node : NodeId
  /-- Channels that it writes or reads. -/
  channels : List NodeId
  elem : ElemType
  blockSize : UInt32
  /-- Where its block begins in a frame. -/
  byteOffset : Nat
deriving DecidableEq, Repr

/-- A bundle: one frame holds one block of each member. -/
structure BundlePlan where
  name : String
  direction : IoDirection
  /-- Members in the order of their positions. -/
  members : List BundleMember
  frameBytes : Nat
deriving DecidableEq, Repr

/-- What the thread does that talks to the outside. -/
structure IoPlan where
  bundles : List BundlePlan
  /-- The nodes of its partition that are no members of bundles. -/
  unit : Option UnitPlan
deriving DecidableEq, Repr

/-- A program. -/
structure ProgramPlan where
  channels : List ChannelDescriptor := []
  /-- One unit for each partition other than that for the outside, by label. -/
  partitions : List UnitPlan := []
  io : Option IoPlan := none
deriving DecidableEq, Repr

/-- Bytes of a block of elements. -/
def blockBytes (elem : ElemType) (blockSize : UInt32) : Except Trap Nat := do
  let width ← elem.byteWidth
  mulLong blockSize.toNat width

/-- Bytes of the block of a member. -/
def BundleMember.blockBytes (m : BundleMember) : Except Trap Nat :=
  Dataflow.blockBytes m.elem m.blockSize

namespace ProgramPlan

/-- The channel with a number. -/
def channel? (p : ProgramPlan) (id : NodeId) : Option ChannelDescriptor :=
  p.channels.find? fun c => c.node = id

/-- All units, that for the outside last. -/
def units (p : ProgramPlan) : List UnitPlan := p.partitions ++ (p.io.bind IoPlan.unit).toList

/-- All bundles. -/
def bundles (p : ProgramPlan) : List BundlePlan :=
  match p.io with
  | some io => io.bundles
  | none => []

end ProgramPlan

end Defs

end Dataflow
