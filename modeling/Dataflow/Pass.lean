/-!
# Passes

The passes of a compilation, what each needs and what each makes.
-/

namespace Dataflow

section Defs

/-- A pass. -/
inductive Pass where
  | validate
  | insertChannels
  | synthesize
deriving DecidableEq, Repr

/-- What passes make. -/
inductive Artifact where
  /-- Rates of clock domains. -/
  | analysis
  /-- The graph with all its channels. -/
  | channelized
  | insertionCert
  | plan
  | planCert
deriving DecidableEq, Repr

namespace Pass

/-- All passes. -/
def all : List Pass := [.validate, .insertChannels, .synthesize]

/-- Name of a pass. -/
def name : Pass → String
  | .validate => "validate"
  | .insertChannels => "insert_channels"
  | .synthesize => "synthesize"

/-- The pass with a name. -/
def ofName? (s : String) : Option Pass := all.find? fun p => p.name = s

/-- The passes whose artifacts a pass uses. -/
def inputs : Pass → List Pass
  | .validate => []
  | .insertChannels => [.validate]
  | .synthesize => [.insertChannels]

/-- What a pass makes. -/
def outputs : Pass → List Artifact
  | .validate => [.analysis]
  | .insertChannels => [.channelized, .insertionCert]
  | .synthesize => [.plan, .planCert]

/-- Append a pass to `done`, after all that it needs.  No chain of needs is longer than `depth`. -/
def collect : Nat → List Pass → Pass → List Pass
  | 0, done, _ => done
  | depth + 1, done, p =>
      if done.contains p then done else p.inputs.foldl (collect depth) done ++ [p]

/-- The passes that have to run for a pass, in order, itself last. -/
def required (p : Pass) : List Pass := collect all.length [] p

end Pass

/-- Name of an artifact. -/
def Artifact.name : Artifact → String
  | .analysis => "Analysis"
  | .channelized => "Channelized"
  | .insertionCert => "InsertionCert"
  | .plan => "Plan"
  | .planCert => "PlanCert"

end Defs

end Dataflow
