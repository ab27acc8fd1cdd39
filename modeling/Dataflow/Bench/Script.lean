import Dataflow.Assembly
import Dataflow.Polling

/-!
# Scripts

Attempts and kernels whose behaviour is laid down in advance, for trying out what waits and
what runs units.

**Kernels.**  A scripted kernel notes the blocks that it gets.  With `S` the sum of the samples at
one position over all inputs, it puts out `S * mul + add` and the number of the output, or adds `S`
and `add` to what it put out before, or copies an input, or counts.
-/

namespace Dataflow

section Attempts

/-- What one attempt of a wait does. -/
inductive ScriptedAttempt where
  | value (n : Int)
  | nothing
  /-- It calls the wait off and finds nothing. -/
  | cancel
  | fail (message : String)
deriving DecidableEq, Repr

/-- How a scripted wait fails. -/
inductive ScriptedFailure where
  | cancelled
  | failed (message : String)
deriving DecidableEq, Repr

/-- A wait with its attempts laid down in advance. -/
structure ScriptedWait where
  script : List ScriptedAttempt
  cancelled : Bool := false
  /-- Attempts made so far. -/
  tries : Nat := 0
deriving DecidableEq, Repr

namespace ScriptedWait

/-- Make the next attempt. -/
def attempt (w : ScriptedWait) : Except ScriptedFailure (Option Int) × ScriptedWait :=
  let next := { w with script := w.script.tail, tries := w.tries + 1 }
  match w.script with
  | [] => (.error (.failed "script end"), next)
  | .value n :: _ => (.ok (some n), next)
  | .nothing :: _ => (.ok none, next)
  | .cancel :: _ => (.ok none, { next with cancelled := true })
  | .fail message :: _ => (.error (.failed message), next)

/-- Wait for a value. -/
def run (w : ScriptedWait) : Option (Except ScriptedFailure Int) × ScriptedWait :=
  pollUntil ScriptedWait.cancelled .cancelled attempt (w.script.map fun _ => id) w

end ScriptedWait

end Attempts

section Kernels

/-- What a scripted kernel computes. -/
inductive KernelMode where
  | sum
  | accumulate
  | copy
  | counter
  /-- It leaves its outputs as they are. -/
  | idle
deriving DecidableEq, Repr

/-- A kernel laid down in advance. -/
structure KernelScript where
  mode : KernelMode := .sum
  mul : Int := 1
  add : Int := 0
  /-- Where counting starts. -/
  start : Int := 0
  /-- The activation after which it has finished. -/
  finishAfter : Option Nat := none
  /-- The activation in which it gives up. -/
  trapAt : Option Nat := none
deriving DecidableEq, Repr

/-- The state of a scripted kernel. -/
structure KernelState (t : SampleType) where
  /-- Activations so far. -/
  firings : Nat := 0
  /-- The next value of the counter. -/
  counter : Int
  /-- Blocks that it got, the latest first. -/
  notes : List (List (List (Sample t))) := []
deriving DecidableEq, Repr

namespace KernelState

variable {t : SampleType}

/-- Blocks that a kernel got, in order. -/
def log (s : KernelState t) : List (List (List (Sample t))) := s.notes.reverse

end KernelState

namespace KernelScript

variable {t : SampleType}

/-- The sample of a block at a position, around its end. -/
def pick (block : List (Sample t)) (k : Nat) : Sample t := block.getD (k % block.length) 0

/-- The sum of the samples at a position over all inputs. -/
def total (ins : List (List (Sample t))) (k : Nat) : Sample t :=
  ins.foldl (fun sum block => sum.add (pick block k)) (Sample.ofInt 0)

/-- Fill a block with values of a counter. -/
def countBlock : List (Sample t) → Int → List (Sample t) × Int
  | [], n => ([], n)
  | _ :: rest, n =>
      let (rest, last) := countBlock rest (n + 1)
      (Sample.ofInt n :: rest, last)

/-- Fill blocks with values of a counter. -/
def countBlocks : List (List (Sample t)) → Int → List (List (Sample t)) × Int
  | [], n => ([], n)
  | block :: rest, n =>
      let (block, n) := countBlock block n
      let (rest, n) := countBlocks rest n
      (block :: rest, n)

/-- The sample that goes to an output at a position, given what was there before. -/
def compute (s : KernelScript) (ins : List (List (Sample t))) (j k : Nat) (before : Sample t) :
    Sample t :=
  match s.mode with
  | .sum =>
      (((total ins k).mul (Sample.ofInt s.mul)).add (Sample.ofInt s.add)).add (Sample.ofInt j)
  | .accumulate => (before.add (total ins k)).add (Sample.ofInt s.add)
  | .copy => if ins.isEmpty then before else pick (ins.getD (j % ins.length) []) k
  | .counter | .idle => before

/-- The outputs of an activation and the counter after it. -/
def outputs (s : KernelScript) (st : KernelState t) (ins outs : List (List (Sample t))) :
    List (List (Sample t)) × Int :=
  if s.mode = .counter then countBlocks outs st.counter
  else
    (outs.mapIdx fun j block => block.mapIdx fun k before => s.compute ins j k before, st.counter)

/-- The kernel of a script. -/
def kernel (s : KernelScript) : Kernel (KernelState t) (Sample t) := fun st ins outs =>
  let n := st.firings + 1
  if s.trapAt = some n then .error .kernelStop
  else
    let (outputs, counter) := s.outputs st ins outs
    .ok {
      status := if s.finishAfter = some n then .finished else .proceed
      outputs
      state := { firings := n, counter, notes := ins :: st.notes } }

/-- The kernel of a script with its first state. -/
def setup (s : KernelScript) : KernelSetup (KernelState t) t where
  kernel := s.kernel
  state := { counter := s.start }

end KernelScript

end Kernels

end Dataflow
