import Dataflow.Diagnostic
import Dataflow.Domain.Crossing

/-!
# Topology of clock domains

Samples enter and leave a clock domain through its boundaries, from and to the domain right around
it.  Between ordinary nodes an arc may stay in a domain, go one level in or out, or go to a sibling.
-/

namespace Dataflow
namespace Graph

section Defs

/-- A domain in the words of a message. -/
def domainLabel (g : Graph) : Option NodeId → String
  | some d => g.label d
  | none => "the base domain"

/-- An error of topology. -/
def topologyError (g : Graph) (code : Code) (subject : NodeId) (message : String)
    (src dst : Option NodeId) : Diagnostic :=
  { code := some code, errorClass := .topology, subject := some subject, message
    causes := [(s!"source runs in {g.domainLabel src}", src),
      (s!"destination runs in {g.domainLabel dst}", dst)]
    hint := some "route the arc through the rate-change boundary of each domain it crosses" }

/-- What is wrong with the domains that an arc connects. -/
def topologyFault? (g : Graph) (id : ArcId) (a : Arc) : Option Diagnostic := do
  let dst ← a.dstPort
  let source ← g.node? a.src.node
  let target ← g.node? dst.node
  let srcDomain := g.outputDomain a.src
  let dstDomain := g.inputDomain dst
  match target.kind, source.kind with
  | .rateInput _, _ =>
      if srcDomain = dstDomain then none
      else some (g.topologyError .rateInputSource dst.node
        (s!"arc {id} enters {g.label dst.node} from {g.label a.src.node}, " ++
          "outside the parent of its clock domain")
        srcDomain dstDomain)
  | _, .rateOutput _ =>
      if srcDomain = dstDomain then none
      else some (g.topologyError .rateOutputTarget a.src.node
        (s!"arc {id} leaves {g.label a.src.node} for {g.label dst.node}, " ++
          "outside the parent of its clock domain")
        srcDomain dstDomain)
  | _, _ =>
      if source.kind.isRateChange || target.kind.isRateChange then none
      else if g.relation srcDomain dstDomain = .distant then
        some (g.topologyError .levelSkipped dst.node
          (s!"arc {id} from {g.label a.src.node} to {g.label dst.node} " ++
            "skips more than one clock-domain level")
          srcDomain dstDomain)
      else none

/-- All arcs that connect domains which they should not. -/
def topologyFaults (g : Graph) : List Diagnostic :=
  g.arcList.filterMap fun a => g.topologyFault? a.1 a.2

end Defs

end Graph
end Dataflow
