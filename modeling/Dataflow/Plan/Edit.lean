import Dataflow.Plan.Basic

/-!
# Edits of plans

Single changes to a plan, such as one may make by hand before it is run or checked.  None of them
keeps a plan sound.

**Targets.**  To forget something that is not there changes nothing.  To change something that is
not there is a trap.
-/

namespace Dataflow

section Defs

/-- A change to a plan. -/
inductive PlanEdit where
  /-- Forget the description of a channel. -/
  | dropChannel (channel : NodeId)
  | setCapacity (channel : NodeId) (capacity : UInt32)
  /-- Forget a unit other than that for the outside. -/
  | dropUnit (partition : PartitionId)
  | addInput (partition : PartitionId) (channel : NodeId)
  | addOutput (partition : PartitionId) (channel : NodeId)
  | addLocal (partition : PartitionId) (channel : NodeId)
  | addNode (partition : PartitionId) (node : NodeId)
  | clearNodes (partition : PartitionId)
  /-- Forget everything that talks to the outside. -/
  | dropIo
  /-- Give one more channel to the member of a bundle at a position. -/
  | memberChannel (bundle : String) (index : Nat) (channel : NodeId)
deriving DecidableEq, Repr

namespace ProgramPlan

/-- Change the unit of a partition. -/
def editUnit (p : ProgramPlan) (partition : PartitionId) (f : UnitPlan → UnitPlan) :
    Except Trap ProgramPlan :=
  let change (u : UnitPlan) : UnitPlan := if u.partition = partition then f u else u
  if p.units.any fun u => u.partition = partition then
    .ok { p with
      partitions := p.partitions.map change
      io := p.io.map fun io => { io with unit := io.unit.map change } }
  else .error .outOfBounds

/-- Change the description of a channel. -/
def editChannel (p : ProgramPlan) (channel : NodeId) (f : ChannelDescriptor → ChannelDescriptor) :
    Except Trap ProgramPlan :=
  if (p.channel? channel).isSome then
    .ok { p with channels := p.channels.map fun d => if d.node = channel then f d else d }
  else .error .outOfBounds

/-- Change the member of a bundle at a position. -/
def editMember (p : ProgramPlan) (bundle : String) (index : Nat) (f : BundleMember → BundleMember) :
    Except Trap ProgramPlan :=
  let change (b : BundlePlan) : BundlePlan :=
    if b.name = bundle then { b with members := b.members.modify index f } else b
  if p.bundles.any fun b => b.name = bundle && index < b.members.length then
    .ok { p with io := p.io.map fun io => { io with bundles := io.bundles.map change } }
  else .error .outOfBounds

/-- Apply a change to a plan. -/
def edit (p : ProgramPlan) : PlanEdit → Except Trap ProgramPlan
  | .dropChannel c => .ok { p with channels := p.channels.filter fun d => d.node ≠ c }
  | .setCapacity c capacity => p.editChannel c fun d => { d with capacity }
  | .dropUnit q => .ok { p with partitions := p.partitions.filter fun u => u.partition ≠ q }
  | .addInput q c => p.editUnit q fun u => { u with inputs := u.inputs ++ [c] }
  | .addOutput q c => p.editUnit q fun u => { u with outputs := u.outputs ++ [c] }
  | .addLocal q c => p.editUnit q fun u => { u with locals := u.locals ++ [c] }
  | .addNode q n => p.editUnit q fun u => { u with nodes := u.nodes ++ [n] }
  | .clearNodes q => p.editUnit q fun u => { u with nodes := [] }
  | .dropIo => .ok { p with io := none }
  | .memberChannel name index c =>
      p.editMember name index fun m => { m with channels := m.channels ++ [c] }

end ProgramPlan

end Defs

end Dataflow
