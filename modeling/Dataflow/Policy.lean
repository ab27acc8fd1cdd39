/-!
# Policies

`ChannelPolicy` says how channels are sized when they are inserted into a graph.
-/

namespace Dataflow

section Defs

/-- How channels are sized. -/
structure ChannelPolicy where
  /-- Samples of one block at the base rate. -/
  baseBlockSize : UInt32 := 1
  /-- Blocks that a channel holds. -/
  capacityMultiplier : UInt32 := 2
  /-- Whether readers of one port with equal needs share a channel. -/
  shareFanout : Bool := false
deriving DecidableEq, Repr

/-- Settings that replace those of a policy where they are given. -/
structure PolicyOverride where
  blockSize : Option UInt32 := none
  capacityMultiplier : Option UInt32 := none
  shareFanout : Option Bool := none
deriving DecidableEq, Repr

/-- A policy with some of its settings replaced. -/
def ChannelPolicy.override (p : ChannelPolicy) (o : PolicyOverride) : ChannelPolicy where
  baseBlockSize := o.blockSize.getD p.baseBlockSize
  capacityMultiplier := o.capacityMultiplier.getD p.capacityMultiplier
  shareFanout := o.shareFanout.getD p.shareFanout

end Defs

end Dataflow
