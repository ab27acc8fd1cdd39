import Dataflow.Compilation
import Dataflow.Graph.Dot
import Dataflow.Plan.Text

/-!
# Command line

`Request.ofArgs?` reads the arguments of a call, `respond` answers it and `Invocation.run`
does the work.  Nothing here touches files: the text of the document comes in, and the text
to write goes out.

**Arguments.**  Options may stand before and after the path of the document and take their value
from the same argument, after `=`, or from the next one, which may not start with `-`.  No option
may be given twice.  After `--` everything is a path.

**Exit status.**  0 when something was emitted, 1 when a pass reported an error, 2 when there is
nothing to compile, 101 when arithmetic left its range.
-/

namespace Dataflow

section Requests

/-- What to emit. -/
inductive Emission where
  /-- Nothing but diagnostics. -/
  | check
  /-- The graph with all its channels, as a document. -/
  | graph
  /-- The same as a drawing. -/
  | dot
  /-- The plan as a listing. -/
  | plan
  /-- The plan as a record. -/
  | planJson
  /-- Digests of what was compiled. -/
  | buildInfo
deriving DecidableEq, Repr

namespace Emission

/-- All emissions. -/
def all : List Emission := [.check, .graph, .dot, .plan, .planJson, .buildInfo]

/-- Name on the command line. -/
def name : Emission → String
  | .check => "check"
  | .graph => "graph"
  | .dot => "dot"
  | .plan => "plan"
  | .planJson => "plan-json"
  | .buildInfo => "build-info"

/-- What it is, for the help text. -/
def about : Emission → String
  | .check => "Validate only; print diagnostics"
  | .graph => "Channelized graph as JSON"
  | .dot => "Channelized graph as Graphviz DOT"
  | .plan => "Per-partition plan, human readable"
  | .planJson => "Per-partition plan as JSON"
  | .buildInfo => "Provenance hashes"

/-- The last pass that it needs. -/
def goal : Emission → Pass
  | .check | .buildInfo => .validate
  | .graph | .dot => .insertChannels
  | .plan | .planJson => .synthesize

end Emission

/-- What a call asks for. -/
structure Invocation where
  /-- Path of the document. -/
  path : String
  /-- Path of the file to write. -/
  output : Option String := none
  emission : Emission := .plan
  policy : PolicyOverride := {}
  verbose : Bool := false
deriving DecidableEq, Repr

/-- A call. -/
inductive Request where
  | compile (call : Invocation)
  | help (long : Bool)
  | version
deriving DecidableEq, Repr

/-- An option that takes a value. -/
inductive ValueOption where
  | output
  | emit
  | blockSize
  | capacityMultiplier
deriving DecidableEq, Repr

/-- An option without a value. -/
inductive FlagOption where
  | shareFanout
  | verbose
  | help
  | version
deriving DecidableEq, Repr

/-- Options and paths as far as the arguments have been read. -/
structure Arguments where
  paths : List String := []
  output : Option String := none
  emission : Option Emission := none
  blockSize : Option UInt32 := none
  capacityMultiplier : Option UInt32 := none
  shareFanout : Bool := false
  verbose : Bool := false
deriving DecidableEq, Repr

end Requests

section Reading

/-- Read a word: digits after at most one sign. -/
def readWord? (s : String) : Option UInt32 :=
  let (negative, digits) : Bool × List Char := match s.toList with
    | '+' :: rest => (false, rest)
    | '-' :: rest => (true, rest)
    | cs => (false, cs)
  if digits.isEmpty || !digits.all Char.isDigit then none
  else
    let n := digits.foldl (fun n c => 10 * n + (c.toNat - '0'.toNat)) 0
    if negative && n ≠ 0 then none else word? n

/-- The option with a long name. -/
def longOption? : String → Option (ValueOption ⊕ FlagOption)
  | "output" => some (.inl .output)
  | "emit" => some (.inl .emit)
  | "block-size" => some (.inl .blockSize)
  | "capacity-multiplier" => some (.inl .capacityMultiplier)
  | "share-fanout" => some (.inr .shareFanout)
  | "verbose" => some (.inr .verbose)
  | "help" => some (.inr .help)
  | "version" => some (.inr .version)
  | _ => none

namespace Arguments

/-- Take the value of an option.  A value of the wrong kind and a second value are refused. -/
def setValue (a : Arguments) (option : ValueOption) (value : String) : Option Arguments :=
  match option with
  | .output =>
      if a.output.isSome || value.isEmpty then none else some { a with output := some value }
  | .emit =>
      match a.emission, Emission.all.find? fun e => e.name = value with
      | none, some e => some { a with emission := some e }
      | _, _ => none
  | .blockSize =>
      match a.blockSize, readWord? value with
      | none, some n => some { a with blockSize := some n }
      | _, _ => none
  | .capacityMultiplier =>
      match a.capacityMultiplier, readWord? value with
      | none, some n => some { a with capacityMultiplier := some n }
      | _, _ => none

/-- Take a path. -/
def addPath (a : Arguments) (path : String) : Option Arguments :=
  if a.paths.isEmpty && !path.isEmpty then some { a with paths := [path] } else none

/-- The request that the arguments make once all have been read. -/
def request? (a : Arguments) : Option Request :=
  match a.paths with
  | [path] =>
      some (.compile {
        path
        output := a.output
        emission := a.emission.getD .plan
        policy :=
          { blockSize := a.blockSize
            capacityMultiplier := a.capacityMultiplier
            shareFanout := if a.shareFanout then some true else none }
        verbose := a.verbose })
  | _ => none

/-- Take an option without a value: a request that needs nothing more, or more arguments. -/
def setFlag (a : Arguments) (option : FlagOption) : Option (Request ⊕ Arguments) :=
  match option with
  | .shareFanout => if a.shareFanout then none else some (.inr { a with shareFanout := true })
  | .verbose => if a.verbose then none else some (.inr { a with verbose := true })
  | .help => some (.inl (.help true))
  | .version => some (.inl .version)

/-- Whether an argument is an option and so cannot be the value of one. -/
def isOption (s : String) : Bool :=
  match s.toList with
  | '-' :: _ :: _ => true
  | _ => false

/-- Read the rest of the arguments.  `pending` is an option that still needs its value. -/
def read (a : Arguments) (pending : Option ValueOption) : List String → Option Request
  | [] => if pending.isSome then none else a.request?
  | arg :: rest =>
      match pending with
      | some option =>
          if isOption arg then none
          else (a.setValue option arg).bind fun a => a.read none rest
      | none =>
          match arg.toList with
          | ['-', '-'] => (rest.foldlM addPath a).bind request?
          | '-' :: '-' :: body =>
              let (name, value) := body.span (· ≠ '=')
              match longOption? (String.ofList name), value with
              | some (.inl option), [] => a.read (some option) rest
              | some (.inl option), _ :: value =>
                  (a.setValue option (String.ofList value)).bind fun a => a.read none rest
              | some (.inr option), [] =>
                  match a.setFlag option with
                  | none => none
                  | some (.inl request) => some request
                  | some (.inr a) => a.read none rest
              | _, _ => none
          | ['-', 'o'] => a.read (some .output) rest
          | '-' :: 'o' :: value =>
              let value := if value.head? = some '=' then value.tail else value
              (a.setValue .output (String.ofList value)).bind fun a => a.read none rest
          | '-' :: 'h' :: _ => some (.help false)
          | '-' :: 'V' :: _ => some .version
          | '-' :: _ :: _ => none
          | _ => (a.addPath arg).bind fun a => a.read none rest

end Arguments

/-- The request that the arguments of a call make, if they make sense. -/
def Request.ofArgs? (args : List String) : Option Request := Arguments.read {} none args

end Reading

section Answers

/-- What a call leaves behind. -/
structure Outcome where
  exit : Nat := 0
  /-- Text for the standard output. -/
  out : String := ""
  /-- Text for the standard error output. -/
  err : String := ""
  /-- Path and text of a file to write. -/
  file : Option (String × String) := none
deriving DecidableEq, Repr

/-- The text that an emission shows of a compilation, if it shows any. -/
def Compilation.emit (c : Compilation) : Emission → Option String
  | .check => none
  | .graph => some (c.graph.toPretty (some c.policy) ++ "\n")
  | .dot => some c.graph.dot
  | .plan => some ((c.plan.map ProgramPlan.text).getD "")
  | .planJson => some ((Json.orNull ProgramPlan.toJson c.plan).pretty ++ "\n")
  | .buildInfo => some c.provenance.text

/-- The lines on which diagnostics are reported. -/
def reportLines (ds : List Diagnostic) : String :=
  String.join (ds.map fun d => "ptc: " ++ d.text ++ "\n")

/-- The outcome of a call that has nothing to compile. -/
def Outcome.unloaded (path message : String) : Outcome :=
  { exit := 2, err := s!"ptc: error: {path}: {message}\n" }

/-- Answer a call, given the text of the document. -/
def Invocation.run (i : Invocation) (text : String) : Outcome :=
  match Graph.ofText text with
  | .error (.exhausted trap) => { exit := 101, err := trap.message ++ "\n" }
  | .error e => .unloaded i.path e.message
  | .ok (g, policy) =>
      match g.compile ((policy.getD {}).override i.policy) i.emission.goal with
      | .error trap => { exit := 101, err := trap.message ++ "\n" }
      | .ok c =>
          let err := reportLines c.diagnostics
          if c.hasError then { exit := 1, err }
          else
            match c.emit i.emission, i.output with
            | none, _ => { err }
            | some out, none => { out, err }
            | some out, some path => { err, file := some (path, out) }

end Answers

section Help

/-- How a call looks. -/
def usage : String := "Usage: ptc [OPTIONS] <GRAPH>"

/-- The program in one sentence. -/
def about : String :=
  "Partitioned Thread Compiler — validates clock domains, inserts channels, " ++
    "and plans one thread per partition"

/-- Options as the help text lists them. -/
def optionHelp : List (String × String) :=
  [("  -o, --output <OUTPUT>", "Output file path (stdout when omitted)"),
    ("      --emit <EMIT>", "Output stage"),
    ("      --block-size <BLOCK_SIZE>",
      "Base-domain block size (overrides the document's policy)"),
    ("      --capacity-multiplier <CAPACITY_MULTIPLIER>",
      "Channel capacity as a multiple of block size"),
    ("      --share-fanout", "Share one channel between fan-out arcs with identical consumers"),
    ("      --verbose", "Log pass timing and inserted channels")]

/-- The remark on the values of the option for emissions. -/
def emissionHelp (long : Bool) : String :=
  if long then
    "\n\n          Possible values:\n"
      ++ String.join (Emission.all.map fun e =>
        let pad := String.ofList (List.replicate (11 - e.name.length) ' ')
        s!"          - {e.name}:{pad}{e.about}\n")
      ++ "          \n          [default: plan]"
  else
    let names := ", ".intercalate (Emission.all.map Emission.name)
    s!" [default: plan] [possible values: {names}]"

/-- The help text, in short or at length. -/
def helpText (long : Bool) : String :=
  let gap := if long then "\n" else ""
  let entry (o : String × String) : String :=
    let more := if o.1.startsWith "      --emit" then emissionHelp long else ""
    s!"{o.1}\n          {o.2}{more}\n{gap}"
  let see := if long then "a summary with '-h'" else "more with '--help'"
  about ++ "\n\n" ++ usage ++ "\n\nArguments:\n"
    ++ (if long then "  <GRAPH>\n          Input graph document (JSON)\n"
      else "  <GRAPH>  Input graph document (JSON)\n")
    ++ "\nOptions:\n" ++ String.join (optionHelp.map entry)
    ++ s!"  -h, --help\n          Print help (see {see})\n{gap}"
    ++ "  -V, --version\n          Print version\n"

/-- The line that names the version. -/
def versionLine : String := s!"ptc {version}\n"

/-- The outcome of a call that makes no sense. -/
def Outcome.misuse : Outcome :=
  { exit := 2, err := "error: invalid arguments\n\n" ++ usage
      ++ "\n\nFor more information, try '--help'.\n" }

/-- Answer a request, given how documents are read: a text, or why there is none. -/
def respond {m : Type → Type} [Monad m] (load : String → m (Except String String)) :
    Option Request → m Outcome
  | none => return .misuse
  | some (.help long) => return { out := helpText long }
  | some .version => return { out := versionLine }
  | some (.compile i) => do
      match ← load i.path with
      | .error message => return .unloaded i.path message
      | .ok text => return i.run text

/-- Answer a call, given the documents that there are. -/
def answer (args : List String) (documents : String → Except String String) : Outcome :=
  Id.run (respond (fun path => pure (documents path)) (Request.ofArgs? args))

end Help

end Dataflow
