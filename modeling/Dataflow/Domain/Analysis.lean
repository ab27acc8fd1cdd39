import Dataflow.Graph.Nesting

/-!
# Rates of clock domains

What validation finds out about the clock domains of a graph: the local rate of each, its
rate against the base domain, and the domains around it.  Sizing of channels and the layout
of frames read it.
-/

namespace Dataflow

section Defs

/-- Rates of the clock domains of a graph. -/
structure DomainAnalysis where
  /-- Declared rates of the domains whose rate is well formed. -/
  localRates : Std.ExtTreeMap NodeId Rate := ∅
  /-- Rates against the base domain, in lowest terms. -/
  baseRates : Std.ExtTreeMap NodeId Rate := ∅
  /-- The domains from the outermost down to the key. -/
  chains : Std.ExtTreeMap NodeId (List NodeId) := ∅

namespace DomainAnalysis

/-- The rate of a domain against the base domain. -/
def baseRate (a : DomainAnalysis) (domain : Option NodeId) : Rate :=
  (domain.bind fun d => a.baseRates[d]?).getD .base

/-- Local rates from the outermost domain down to `domain`. -/
def localChain (a : DomainAnalysis) (domain : Option NodeId) : List Rate :=
  match domain.bind fun d => a.chains[d]? with
  | some chain => chain.filterMap fun d => a.localRates[d]?
  | none => []

/-- Samples inside a domain for `block` samples of the base domain. -/
def blockSize (a : DomainAnalysis) (domain : Option NodeId) (block : Nat) :
    Except Trap (Except BlockFault Nat) :=
  scaleAlong block (a.localChain domain)

end DomainAnalysis

end Defs

end Dataflow
