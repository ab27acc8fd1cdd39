import Dataflow.Diagnostic
import Dataflow.Domain.Analysis
import Dataflow.Domain.Crossing
import Dataflow.Policy
import Std.Data.ExtTreeSet

/-!
# Rates and blocks

The rules for clock domains of a graph that is structurally sound.

**Rates.**  The rate of a domain is positive, in lowest terms, and only multiplies or only divides.
Composed along the nesting it stays within its word.  A node that changes the rate applies the rate
of its domain on the way in and undoes it on the way out.

**Blocks.**  A domain in which a channel begins or ends carries a whole number of samples for every
block of the policy, at each level of nesting.  The block of a channel that is already there comes
back to a whole number of samples at each level on the way out.

**Periods.**  A declared sample period is that of the domain in which the arc starts.
-/

namespace Dataflow
namespace Graph

section Causes

/-- One entry for each level of nesting around a domain, the base domain first. -/
def nestingCauses (g : Graph) (a : DomainAnalysis) (domain : Option NodeId) :
    List (String × Option NodeId) :=
  ("base domain, rate 1/1", none) :: (g.domainChain domain).map fun d =>
    let rate := (g.domainRate d).getD .base
    match a.baseRates[d]? with
    | some base => (s!"clock domain {g.label d} local rate {rate}, base rate {base}", some d)
    | none => (s!"clock domain {g.label d} local rate {rate}", some d)

/-- An error of rates. -/
def rateError (code : Code) (subject : NodeId) (message : String) : Diagnostic :=
  { code := some code, errorClass := .rate, subject := some subject, message }

end Causes

section Composition

/-- The clock domains of a graph with their local rates. -/
def domains (g : Graph) : List (NodeId × Rate) :=
  g.nodeList.filterMap fun n => n.2.kind.rate?.map fun r => (n.1, r)

/-- Code, message and remedy for a local rate that is not well formed. -/
def rateRule? (g : Graph) (d : NodeId) (r : Rate) : Option (Code × String × String) :=
  if r.up = 0 ∨ r.down = 0 then
    some (.zeroRate, s!"clock domain {g.label d} has a zero rate factor ({r})",
      "rate factors must be positive integers")
  else if !r.isCoprime then
    some (.commonFactor, s!"clock domain {g.label d} rate {r} is not in lowest terms",
      s!"declare the rate as {r.reduced}")
  else if !r.isIntegralHop then
    some (.mixedRate,
      s!"clock domain {g.label d} rate {r} is neither a pure upsample nor a pure downsample",
      s!"nest an upsample-by-{r.up.toNat} domain inside a downsample-by-{r.down.toNat} domain")
  else none

/-- What is known of the rates while domains are gone through. -/
structure RateState where
  analysis : DomainAnalysis := {}
  /-- Domains whose rate, or that of one around them, is not well formed. -/
  broken : Std.ExtTreeSet NodeId := ∅
  diagnostics : List Diagnostic := []

/-- Look at the local rate of a domain. -/
def judgeLocal (g : Graph) (s : RateState) (d : NodeId × Rate) : RateState :=
  match g.rateRule? d.1 d.2 with
  | some (code, message, hint) =>
      let fault := { rateError code d.1 message with
        hint := some hint, causes := g.nestingCauses s.analysis (some d.1) }
      { s with broken := s.broken.insert d.1, diagnostics := s.diagnostics ++ [fault] }
  | none =>
      { s with analysis :=
          { s.analysis with localRates := s.analysis.localRates.insert d.1 d.2 } }

/-- Rate of the innermost of a chain of domains against the base domain. -/
def composeChain (a : DomainAnalysis) (chain : List NodeId) : Option Rate :=
  chain.foldlM (fun r d => r.compose ((a.localRates[d]?).getD .base)) .base

/-- Compose the rate of a domain with those around it. -/
def judgeComposed (g : Graph) (s : RateState) (d : NodeId) : RateState :=
  let chain := g.domainChain (some d)
  if chain.any s.broken.contains then
    { s with broken := s.broken.insert d }
  else
    match composeChain s.analysis chain with
    | none =>
        let fault := { rateError .rateOverflow d
            s!"base-relative rate of clock domain {g.label d} overflows 32 bits" with
          causes := g.nestingCauses s.analysis (some d) }
        { s with broken := s.broken.insert d, diagnostics := s.diagnostics ++ [fault] }
    | some base =>
        { s with analysis :=
            { s.analysis with
              baseRates := s.analysis.baseRates.insert d base
              chains := s.analysis.chains.insert d chain } }

/-- The rates of all clock domains. -/
def computeRates (g : Graph) : RateState :=
  let judged := g.domains.foldl g.judgeLocal {}
  (g.domains.map Prod.fst).foldl g.judgeComposed judged

end Composition

section Changes

/-- A change of rate and whether it stands where samples enter its domain. -/
def changeOf? : NodeKind → Option (RateChange × Bool)
  | .rateInput c => some (c, true)
  | .rateOutput c => some (c, false)
  | _ => none

/-- Nodes whose change of rate is not that of their domain. -/
def rateChangeFaults (g : Graph) (a : DomainAnalysis) : List Diagnostic :=
  g.nodeList.filterMap fun (id, n) => do
    let (change, entering) ← changeOf? n.kind
    let domain ← n.parent
    let rate ← a.localRates[domain]?
    let expected := if entering then rate else rate.period
    if change.ratio = 0 ∨ change.rate.reduced ≠ expected then
      some { rateError .rateMismatch id
          (s!"{n.kind.title} {g.label id} implements {change.text} ({change.rate}), " ++
            s!"but clock domain {g.label domain} requires {expected}") with
        causes := g.nestingCauses a (some domain) }
    else none

end Changes

section Blocks

/-- Faults of the block of a channel that is already there, carried out to the base domain. -/
def channelBlockFaults (g : Graph) (s : RateState) (id : NodeId) (spec : ChannelSpec) :
    Except Trap (List Diagnostic) := do
  if spec.domain.any s.broken.contains then
    return []
  let outward := (s.analysis.localChain spec.domain).reverse.map Rate.period
  match ← scaleAlong spec.blockSize.toNat outward with
  | .ok _ => return []
  | .error fault =>
      return [{ rateError .fractionalBlock id
          (s!"channel {g.label id} block size {spec.blockSize.toNat} is " ++
            s!"{fault.numer}/{fault.denom} elements one level out") with
        causes := g.nestingCauses s.analysis spec.domain }]

/-- The domain that a node alone fixes a block in. -/
def nodeAnchor? (g : Graph) (id : NodeId) (n : Node) : Option NodeId :=
  match n.kind with
  | .externalIo _ => g.enclosingDomain id
  | .channel spec => spec.domain
  | _ => none

/-- The domain on the far side of a change of rate at which an arc ends or starts. -/
def farAnchor? (g : Graph) (id : NodeId) (ends : Bool) : Option NodeId := do
  let n ← g.node? id
  match n.kind with
  | .rateInput _ => if ends then n.parent else none
  | .rateOutput _ => if ends then none else n.parent
  | _ => none

/-- The domains that an arc fixes a block in, each with the node that is to blame. -/
def arcAnchors (g : Graph) (a : Arc) : List (NodeId × NodeId) :=
  match a.dstPort with
  | none => []
  | some dst =>
      if !g.atChannel a && (g.crossing? a).isNone then []
      else
        let near := (g.inputDomain dst).map fun d => (d, dst.node)
        let inner := (g.farAnchor? dst.node true).map fun d => (d, dst.node)
        let outer := (g.farAnchor? a.src.node false).map fun d => (d, a.src.node)
        near.toList ++ inner.toList ++ outer.toList

/-- Every domain that fixes a block, with the first node to blame. -/
def anchors (g : Graph) : Std.ExtTreeMap NodeId NodeId :=
  let fromNodes := g.nodeList.filterMap fun (id, n) => (g.nodeAnchor? id n).map fun d => (d, id)
  let fromArcs := g.arcList.flatMap fun a => g.arcAnchors a.2
  (fromNodes ++ fromArcs).foldl (fun t d => t.insertIfNew d.1 d.2) ∅

/-- Faults of the block of the policy in a domain. -/
def domainBlockFaults (g : Graph) (policy : ChannelPolicy) (s : RateState)
    (anchored : NodeId × NodeId) : Except Trap (List Diagnostic) := do
  let (domain, anchor) := anchored
  if s.broken.contains domain then
    return []
  let block := policy.baseBlockSize.toNat
  match ← s.analysis.blockSize (some domain) block with
  | .ok _ => return []
  | .error fault =>
      let at_ := (g.domainChain (some domain)).getD fault.hop domain
      let divisor := (s.analysis.baseRate (some domain)).down.toNat
      return [{ rateError .fractionalBlock domain
          (s!"block size {block} base elements is {fault.numer}/{fault.denom} elements " ++
            s!"inside clock domain {g.label at_}") with
        related := [(anchor, "channel endpoint anchored here")]
        hint := some s!"use a base block size divisible by {divisor}"
        causes := g.nestingCauses s.analysis (some domain) }]

/-- Blocks that are no whole number of samples: those of channels, then those of the policy. -/
def blockFaults (g : Graph) (policy : ChannelPolicy) (s : RateState) :
    Except Trap (List Diagnostic) := do
  let channels := g.nodeList.filterMap fun n => n.2.kind.channelSpec?.map fun spec => (n.1, spec)
  let ofChannels ← channels.mapM fun c => g.channelBlockFaults s c.1 c.2
  let ofDomains ← g.anchors.toList.mapM (g.domainBlockFaults policy s)
  return ofChannels.flatten ++ ofDomains.flatten

end Blocks

section Periods

/-- Arcs whose declared period is not that of the domain they start in. -/
def periodFaults (g : Graph) (s : RateState) : List Diagnostic :=
  g.arcList.filterMap fun (id, a) => do
    let declared ← a.period
    let domain := g.outputDomain a.src
    if domain.any s.broken.contains then none
    else
      let expected := (s.analysis.baseRate domain).period
      if declared.reduced = expected then none
      else some { rateError .periodMismatch a.src.node
          (s!"arc {id} declares sample period {declared}, " ++
            s!"but {g.label a.src.node} output {a.src.port.toNat} runs at period {expected}") with
        causes := g.nestingCauses s.analysis domain }

end Periods

end Graph
end Dataflow
