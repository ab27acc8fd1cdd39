import Dataflow.Validation.Containment
import Dataflow.Validation.Leaves
import Dataflow.Validation.Rates
import Dataflow.Validation.Topology

/-!
# Validation

`Graph.validate` looks for everything in a graph that would keep it from being cut into partitions.

**Phases.**  References come first, and nothing else is looked at when one of them is wrong.  Then
come the other rules of structure, and the rules for rates and clock domains only when structure is
sound.  The analysis of the rates goes on to the later passes.
-/

namespace Dataflow

section Defs

/-- What validation finds. -/
structure Validation where
  analysis : DomainAnalysis := {}
  diagnostics : List Diagnostic := []

namespace Graph

/-- Faults of structure other than those of references. -/
def structureFaults (g : Graph) : List Diagnostic :=
  g.containmentFaults ++ g.fanInFaults ++ g.cardinalityFaults ++ g.channelFaults
    ++ g.partitionFaults ++ g.bundleFaults

/-- Faults of structure.  The others are looked for only when every reference is sound. -/
def structuralFaults (g : Graph) : List Diagnostic :=
  let dangling := g.referenceFaults
  if dangling.isEmpty then g.structureFaults else dangling

/-- Validate a graph under a policy. -/
def validate (g : Graph) (policy : ChannelPolicy) : Except Trap Validation := do
  let faults := g.structuralFaults
  if !faults.isEmpty then
    return { diagnostics := faults }
  let rates := g.computeRates
  let blocks ← g.blockFaults policy rates
  return {
    analysis := rates.analysis
    diagnostics := rates.diagnostics ++ g.rateChangeFaults rates.analysis ++ blocks
      ++ g.periodFaults rates ++ g.topologyFaults }

end Graph

end Defs

end Dataflow
