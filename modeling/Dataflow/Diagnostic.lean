import Dataflow.Ident

/-!
# Diagnostics

What the passes report about a graph.  A diagnostic points at a node where it can, and may name
related nodes, a chain of causes and a remedy.

**Codes.**  A code has one meaning for good: `E01xx` for structure, `E02xx` for rates, `E03xx` for
the topology of clock domains, `E04xx` for the policy and the sizes of channels, `E05xx` for the
plan, `E06xx` for a certificate that failed, `W…` for warnings.
-/

namespace Dataflow

section Defs

/-- Codes of diagnostics. -/
inductive Code where
  /-- A node that does not exist is referred to. -/
  | danglingNode
  /-- A port that does not exist is referred to. -/
  | danglingPort
  /-- An input port has several incoming arcs. -/
  | fanIn
  /-- A container and a node disagree on containment. -/
  | containment
  /-- The number of ports does not suit the kind. -/
  | cardinality
  /-- A node that changes the rate is no boundary of a clock domain. -/
  | strayRateChange
  /-- A channel cannot hold a block. -/
  | channelSize
  /-- A leaf has no partition. -/
  | noPartition
  /-- A node that talks to the outside is not in the partition for that. -/
  | ioPartition
  /-- A member of a bundle occurs twice. -/
  | duplicateMember
  /-- A container holds itself. -/
  | containmentCycle
  /-- A bundle has members of both directions. -/
  | bundleDirection
  /-- A rate has a factor zero. -/
  | zeroRate
  /-- The factors of a rate have a common divisor. -/
  | commonFactor
  /-- Neither factor of a rate is one. -/
  | mixedRate
  /-- A change of rate disagrees with its clock domain. -/
  | rateMismatch
  /-- A block is no whole number of samples. -/
  | fractionalBlock
  /-- A declared period disagrees with the clock domain. -/
  | periodMismatch
  /-- A composed rate leaves its word. -/
  | rateOverflow
  /-- A connection skips a level of nesting. -/
  | levelSkipped
  /-- Samples enter a clock domain from elsewhere than around it. -/
  | rateInputSource
  /-- Samples leave a clock domain to elsewhere than around it. -/
  | rateOutputTarget
  /-- The policy cannot size a channel. -/
  | badPolicy
  /-- The size of a channel leaves its word. -/
  | channelOverflow
  /-- Channels hold one block only. -/
  | singleBuffer
  /-- An end of a channel is missing. -/
  | channelEnd
  /-- The type of an element is unknown. -/
  | untyped
  /-- A frame cannot be laid out. -/
  | frameLayout
  /-- A partition has a cycle. -/
  | cycle
  /-- The certificate of channel insertion failed. -/
  | insertionCert
  /-- The certificate of the plan failed. -/
  | planCert
deriving DecidableEq, Repr

/-- All codes with their written forms. -/
def Code.table : List (Code × String) :=
  [(.danglingNode, "E0101"), (.danglingPort, "E0102"), (.fanIn, "E0103"),
   (.containment, "E0104"), (.cardinality, "E0105"), (.strayRateChange, "E0106"),
   (.channelSize, "E0107"), (.noPartition, "E0108"), (.ioPartition, "E0109"),
   (.duplicateMember, "E0110"), (.containmentCycle, "E0111"), (.bundleDirection, "E0112"),
   (.zeroRate, "E0201"), (.commonFactor, "E0202"), (.mixedRate, "E0203"),
   (.rateMismatch, "E0204"), (.fractionalBlock, "E0205"), (.periodMismatch, "E0206"),
   (.rateOverflow, "E0207"), (.levelSkipped, "E0301"), (.rateInputSource, "E0302"),
   (.rateOutputTarget, "E0303"), (.badPolicy, "E0401"), (.channelOverflow, "E0402"),
   (.singleBuffer, "W0400"), (.channelEnd, "E0501"), (.untyped, "E0502"),
   (.frameLayout, "E0503"), (.cycle, "W0500"), (.insertionCert, "E0601"), (.planCert, "E0602")]

/-- Written form of a code. -/
def Code.text (c : Code) : String := (table.lookup c).getD ""

/-- The code with a written form. -/
def Code.ofText? (s : String) : Option Code := (table.find? (·.2 = s)).map Prod.fst

/-- How serious a diagnostic is. -/
inductive Level where
  | error
  | warning
deriving DecidableEq, Repr

/-- Name of a level. -/
def Level.text : Level → String
  | .error => "error"
  | .warning => "warning"

/-- What a diagnostic is about. -/
inductive ErrorClass where
  | structural
  | rate
  | topology
  | plan
deriving DecidableEq, Repr

/-- Name of a class. -/
def ErrorClass.text : ErrorClass → String
  | .structural => "structural"
  | .rate => "rate"
  | .topology => "topology"
  | .plan => "plan"

/-- A report of a pass. -/
structure Diagnostic where
  code : Option Code := none
  level : Level := .error
  errorClass : ErrorClass
  /-- The node at fault, when there is one. -/
  subject : Option NodeId := none
  message : String
  /-- A remedy. -/
  hint : Option String := none
  /-- Other nodes and their part in it. -/
  related : List (NodeId × String) := []
  /-- What led to it, one entry for each level of nesting. -/
  causes : List (String × Option NodeId) := []
deriving DecidableEq, Repr

namespace Diagnostic

/-- Whether a diagnostic is an error. -/
def isError (d : Diagnostic) : Bool := d.level = .error

/-- Written form: the message, then causes, related nodes and the remedy on lines of their own. -/
def text (d : Diagnostic) : String :=
  let code := match d.code with
    | some c => "[" ++ c.text ++ "]"
    | none => ""
  d.level.text ++ code ++ ": " ++ d.message
    ++ String.join (d.causes.map fun c => "\n  in: " ++ c.1)
    ++ String.join (d.related.map fun r => "\n  note: " ++ r.2 ++ " (" ++ toString r.1 ++ ")")
    ++ (match d.hint with
      | some h => "\n  hint: " ++ h
      | none => "")

end Diagnostic

/-- Whether one of the diagnostics is an error. -/
def hasErrors (ds : List Diagnostic) : Bool := ds.any Diagnostic.isError

end Defs

end Dataflow
