import Dataflow.Graph.Basic

/-!
# Nesting of clock domains

Which clock domain a node or a port belongs to, found by following parents.

**Limits.**  A graph read from a document may hold itself, so every walk is bounded: a search for a
domain goes through at most `maxNesting` containers, and a chain of domains has at most `maxNesting`
members and none twice.
-/

namespace Dataflow
namespace Graph

section Defs

/-- Containers that a walk goes through at most. -/
def maxNesting : Nat := 4096

/-- The first clock domain among `id` and its containers, within `steps` of them. -/
def nearestDomain (g : Graph) : Nat → Option NodeId → Option NodeId
  | 0, _ => none
  | _ + 1, none => none
  | steps + 1, some id =>
      match g.node? id with
      | none => none
      | some n => if n.kind.isDomain then some id else g.nearestDomain steps n.parent

/-- The nearest clock domain around a node; `none` is the base domain. -/
def enclosingDomain (g : Graph) (id : NodeId) : Option NodeId := do
  let n ← g.node? id
  g.nearestDomain maxNesting n.parent

/-- Climb from a domain to those around it, putting each before the ones already met, until one
comes back or `steps` have been taken. -/
def climbDomains (g : Graph) : Nat → List NodeId → Option NodeId → List NodeId
  | 0, chain, _ => chain
  | _ + 1, chain, none => chain
  | steps + 1, chain, some d =>
      if d ∈ chain then chain else g.climbDomains steps (d :: chain) (g.enclosingDomain d)

/-- Domains from the outermost down to `domain`.  Empty for the base domain. -/
def domainChain (g : Graph) (domain : Option NodeId) : List NodeId :=
  g.climbDomains maxNesting [] domain

/-- The local rate of a clock domain. -/
def domainRate (g : Graph) (domain : NodeId) : Option Rate := (g.kindOf domain).bind NodeKind.rate?

/-- The domain whose rate governs samples that arrive at a port. -/
def inputDomain (g : Graph) (p : PortRef) : Option NodeId :=
  match g.kindOf p.node with
  | some (.rateInput _) => (g.enclosingDomain p.node).bind g.enclosingDomain
  | _ => g.enclosingDomain p.node

/-- The domain whose rate governs samples that leave a port. -/
def outputDomain (g : Graph) (p : PortRef) : Option NodeId :=
  match g.kindOf p.node with
  | some (.rateOutput _) => (g.enclosingDomain p.node).bind g.enclosingDomain
  | _ => g.enclosingDomain p.node

/-- The container for nodes that run at the rate of an input port. -/
def inputContainer (g : Graph) (p : PortRef) : Option NodeId := do
  let n ← g.node? p.node
  match n.kind with
  | .rateInput _ =>
      let domain ← g.node? (← n.parent)
      domain.parent
  | _ => n.parent

end Defs

end Graph
end Dataflow
