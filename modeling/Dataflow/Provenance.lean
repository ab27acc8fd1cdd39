import Dataflow.Graph.Document
import Dataflow.Sha256

/-!
# Provenance

What a program was compiled from: digests of the graph and of the policy, each in its compact
written form, which depends on neither the order nor the spacing of the document.
-/

namespace Dataflow

section Defs

/-- Version of the compiler. -/
def version : String := "0.1.0"

/-- Digests of what was compiled, in hexadecimal digits. -/
structure Provenance where
  graphHash : String
  policyFingerprint : String
deriving DecidableEq, Repr

/-- The text whose digest stands for a graph. -/
def Graph.canonicalText (g : Graph) : String := g.toCompact none

/-- Provenance of a graph and a policy. -/
def Graph.provenance (g : Graph) (policy : ChannelPolicy) : Provenance where
  graphHash := Sha256.hex g.canonicalText
  policyFingerprint := Sha256.hex policy.toJson.compact

/-- Written form. -/
def Provenance.text (p : Provenance) : String :=
  (Json.object [("graph_hash", .text p.graphHash),
    ("policy_fingerprint", .text p.policyFingerprint),
    ("compiler_version", .text version)]).pretty ++ "\n"

end Defs

end Dataflow
