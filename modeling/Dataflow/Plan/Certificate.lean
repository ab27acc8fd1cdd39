import Dataflow.Certificate
import Dataflow.Graph.Basic
import Dataflow.Plan.Basic

/-!
# Certificate of a plan

Every node that computes is run by exactly one unit, and every channel has one end that writes and
one that reads, counted over units and bundles.
-/

namespace Dataflow

section Defs

namespace ProgramPlan

/-- Nodes that units run, as often as they run them. -/
def scheduled (p : ProgramPlan) : List NodeId := p.units.flatMap UnitPlan.nodes

/-- Channels of the bundles of one direction, as often as members have them. -/
def bundled (p : ProgramPlan) (direction : IoDirection) : List NodeId :=
  (p.bundles.filter fun b => b.direction = direction).flatMap fun b =>
    b.members.flatMap BundleMember.channels

/-- Channels that are written, as often as someone writes them. -/
def writers (p : ProgramPlan) : List NodeId :=
  (p.units.flatMap fun u => u.outputs ++ u.locals) ++ p.bundled .input

/-- Channels that are read, as often as someone reads them. -/
def readers (p : ProgramPlan) : List NodeId :=
  (p.units.flatMap fun u => u.inputs ++ u.locals) ++ p.bundled .output

/-- Every node that computes is run once, and nothing else is run. -/
def nodesOnce (p : ProgramPlan) (g : Graph) : Bool :=
  let expected := (g.nodeList.filter fun n => n.2.isInternal).map Prod.fst
  p.scheduled.eraseDups.length = expected.length
    && expected.all fun n => p.scheduled.count n = 1

/-- Every channel has one writer and one reader. -/
def endsPaired (p : ProgramPlan) (g : Graph) : Bool :=
  (g.nodeList.filter fun n => n.2.kind.isChannel).all fun n =>
    p.writers.count n.1 = 1 && p.readers.count n.1 = 1

/-- Evidence that a plan covers its graph. -/
def cert (p : ProgramPlan) (g : Graph) : Certificate where
  obligations :=
    [("P1_each_node_in_one_unit", p.nodesOnce g), ("P2_channel_endpoints_paired", p.endsPaired g)]

end ProgramPlan

end Defs

end Dataflow
