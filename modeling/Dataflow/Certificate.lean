/-!
# Certificates

A pass that changes a graph or plans a program hands over evidence that it has done its duty: a list
of named obligations, each checked on the result.
-/

namespace Dataflow

section Defs

/-- Named obligations and whether they hold. -/
structure Certificate where
  obligations : List (String × Bool)
deriving DecidableEq, Repr

namespace Certificate

/-- Whether every obligation holds. -/
def allPass (c : Certificate) : Bool := c.obligations.all Prod.snd

/-- Names of the obligations that do not hold. -/
def failed (c : Certificate) : List String :=
  (c.obligations.filter fun o => !o.2).map Prod.fst

end Certificate

end Defs

end Dataflow
