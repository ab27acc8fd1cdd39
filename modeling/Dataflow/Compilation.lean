import Dataflow.Insertion
import Dataflow.Pass
import Dataflow.Plan.Certificate
import Dataflow.Plan.Synthesis
import Dataflow.Provenance
import Dataflow.Validation

/-!
# Compilation

A compilation runs the passes that a goal needs, one after the other, and stops after the first that
reports an error.  Its state keeps everything that the passes made, also after an error.
-/

namespace Dataflow

section Defs

/-- The state of a compilation. -/
structure Compilation where
  graph : Graph
  policy : ChannelPolicy
  /-- Of the graph as it came in. -/
  provenance : Provenance
  analysis : Option DomainAnalysis := none
  inserted : Option (List InsertedChannel) := none
  insertionCert : Option Certificate := none
  plan : Option ProgramPlan := none
  planCert : Option Certificate := none
  /-- The passes that have run, with what they reported. -/
  passes : List (Pass × List Diagnostic) := []

/-- The diagnostic for a certificate that fails. -/
def Certificate.faults (c : Certificate) (what : String) (code : Code) : List Diagnostic :=
  if c.allPass then []
  else
    let names := ", ".intercalate c.failed
    [{ code := some code, errorClass := .plan, message := s!"{what} verification failed: {names}" }]

namespace Compilation

/-- The compilation of a graph before any pass. -/
def start (g : Graph) (policy : ChannelPolicy) : Compilation where
  graph := g
  policy := policy
  provenance := g.provenance policy

/-- All that was reported. -/
def diagnostics (c : Compilation) : List Diagnostic := c.passes.flatMap Prod.snd

/-- The pass that reported an error. -/
def failing? (c : Compilation) : Option Pass :=
  (c.passes.find? fun p => hasErrors p.2).map Prod.fst

/-- Whether an error was reported. -/
def hasError (c : Compilation) : Bool := c.failing?.isSome

/-- Note that a pass has run. -/
def finish (c : Compilation) (p : Pass) (found : List Diagnostic) : Compilation :=
  { c with passes := c.passes ++ [(p, found)] }

/-- Run the pass that validates. -/
def runValidate (c : Compilation) : Except Trap Compilation := do
  let v ← c.graph.validate c.policy
  return { c with analysis := some v.analysis }.finish .validate v.diagnostics

/-- Run the pass that inserts channels. -/
def runInsert (c : Compilation) : Except Trap Compilation := do
  let s ← c.graph.insertChannels (c.analysis.getD {}) c.policy
  let cert := s.graph.insertionCert
  return { c with graph := s.graph, inserted := some s.inserted, insertionCert := some cert }.finish
    .insertChannels (s.diagnostics ++ cert.faults "insertion" .insertionCert)

/-- Run the pass that plans. -/
def runSynthesize (c : Compilation) : Except Trap Compilation := do
  let s ← c.graph.synthesize (c.analysis.getD {})
  let cert := s.plan.cert c.graph
  return { c with plan := some s.plan, planCert := some cert }.finish
    .synthesize (s.diagnostics ++ cert.faults "plan" .planCert)

/-- Run one pass, unless an earlier one reported an error. -/
def step (c : Compilation) (p : Pass) : Except Trap Compilation :=
  if c.hasError then .ok c
  else
    match p with
    | .validate => c.runValidate
    | .insertChannels => c.runInsert
    | .synthesize => c.runSynthesize

end Compilation

/-- Compile a graph up to a pass. -/
def Graph.compile (g : Graph) (policy : ChannelPolicy) (goal : Pass) : Except Trap Compilation :=
  goal.required.foldlM Compilation.step (Compilation.start g policy)

end Defs

end Dataflow
