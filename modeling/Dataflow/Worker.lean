import Dataflow.Channel.Table

/-!
# Units at work

A unit runs the nodes of one partition.  It reads some channels, writes others, and has local
channels whose two ends are its own; a kernel does what the nodes of the partition do.

**Activation.**  All or nothing: every output has to have room and every input a block before
anything moves.  Then one block is taken from every input and every local, the kernel turns them
into blocks for every output and local, and these are written.  A local gives back what the
activation before has written, and default samples the first time.

**Startup.**  First all outputs are opened, then all inputs attached, then the readers of all
outputs awaited.  Since opening never waits, units that start together always meet.

**Exit.**  A unit that exits closes all its channels, so that its neighbours learn of it.
-/

namespace Dataflow

section Types

/-- What a kernel says about its future. -/
inductive KernelStatus where
  | proceed
  /-- It has made its last blocks. -/
  | finished
deriving DecidableEq, Repr

/-- What an activation of a kernel leaves behind. -/
structure Firing (σ α : Type) where
  status : KernelStatus
  /-- A block for each output. -/
  outputs : List (List α)
  /-- The state for the next activation. -/
  state : σ

/-- A kernel: from its state, a block of each input and the blocks that it put out before. -/
abbrev Kernel (σ α : Type) := σ → List (List α) → List (List α) → Except Trap (Firing σ α)

/-- Why a unit exits. -/
inductive UnitExit where
  /-- An input was closed and is empty. -/
  | endOfStream
  /-- An output has lost its reader. -/
  | downstreamClosed
  /-- The kernel has finished. -/
  | finished
  | cancelled
  | fault (error : ChannelError)
deriving DecidableEq, Repr

/-- Outcome of an attempt to activate a unit. -/
inductive Activation where
  | fired
  /-- An output had no room or an input no block, and nothing moved. -/
  | idle
  | exit (reason : UnitExit)
deriving DecidableEq, Repr

/-- A unit. -/
structure WorkUnit (σ α : Type) where
  partition : PartitionId
  /-- Channels that it reads. -/
  inputs : List NodeId
  /-- Channels that it writes. -/
  outputs : List NodeId
  /-- Channels that it writes and reads. -/
  locals : List NodeId
  kernel : Kernel σ α
  state : σ
  /-- Blocks of the inputs and the locals. -/
  inBlocks : List (List α)
  /-- Blocks for the outputs and the locals. -/
  outBlocks : List (List α)
  activations : Nat := 0

/-- What a unit has done in its life. -/
structure UnitReport where
  partition : PartitionId
  activations : Nat
  exit : UnitExit
deriving DecidableEq, Repr

end Types

namespace WorkUnit

variable {σ α : Type}

section Construction

/-- A unit with blocks of the sizes of its channels. -/
def create [Inhabited α] (t : ChannelTable α) (partition : PartitionId)
    (inputs outputs locals : List NodeId) (kernel : Kernel σ α) (state : σ) : WorkUnit σ α where
  partition := partition
  inputs := inputs
  outputs := outputs
  locals := locals
  kernel := kernel
  state := state
  inBlocks := (inputs ++ locals).map fun c => List.replicate (t.blockOf c) default
  outBlocks := (outputs ++ locals).map fun c => List.replicate (t.blockOf c) default

/-- The report about a unit that exits. -/
def report (u : WorkUnit σ α) (exit : UnitExit) : UnitReport := ⟨u.partition, u.activations, exit⟩

/-- Channels at whose writing end the unit is. -/
def writes (u : WorkUnit σ α) : List NodeId := u.outputs ++ u.locals

/-- Channels at whose reading end the unit is. -/
def reads (u : WorkUnit σ α) : List NodeId := u.inputs ++ u.locals

/-- Close all channels of a unit. -/
def closeAll (u : WorkUnit σ α) (t : ChannelTable α) : ChannelTable α :=
  t.closeAll (u.outputs ++ u.inputs ++ u.locals)

/-- Let go of all ends that a unit holds. -/
def drop (u : WorkUnit σ α) (t : ChannelTable α) : ChannelTable α :=
  (t.dropReaders u.reads).dropWriters u.writes

end Construction

section Startup

/-- The steps that open the outputs. -/
def openActions (u : WorkUnit σ α) : List StartAction := u.writes.map .openRing

/-- The steps that attach the inputs. -/
def attachActions (u : WorkUnit σ α) : List StartAction := u.reads.map .attach

/-- The steps that wait for the readers of the outputs. -/
def awaitActions (u : WorkUnit σ α) : List StartAction := u.writes.map .await

/-- The steps of starting up. -/
def startActions (u : WorkUnit σ α) : List StartAction :=
  u.openActions ++ u.attachActions ++ u.awaitActions

end Startup

/-- Why a unit exits when a step of its startup fails. -/
def startExit (a : StartAction) : ChannelError → UnitExit
  | .closed =>
      match a with
      | .attach _ => .endOfStream
      | _ => .downstreamClosed
  | .cancelled => .cancelled
  | e => .fault e

/-- Take steps of a startup, up to the first that fails or has to wait. -/
def runActions [Inhabited α] (cancelled : Bool) :
    List StartAction → ChannelTable α → Option (Except UnitExit Unit) × ChannelTable α
  | [], t => (some (.ok ()), t)
  | a :: rest, t =>
      match a.perform cancelled t with
      | (some (.ok ()), t) => runActions cancelled rest t
      | (some (.error e), t) => (some (.error (startExit a e)), t)
      | (none, t) => (none, t)

section Activation

variable [Inhabited α]

/-- Take a block from every input.  The blocks come back with the exit of a fault, if
there is one. -/
def readInputs : List NodeId → List (List α) → ChannelTable α →
    Option Activation × List (List α) × ChannelTable α
  | [], blocks, t => (none, blocks, t)
  | _ :: _, [], t => (none, [], t)
  | c :: rest, block :: blocks, t =>
      match t.tryRead c block with
      | (.ok .done, block, t) =>
          let (r, blocks, t) := readInputs rest blocks t
          (r, block :: blocks, t)
      | (.ok .wouldBlock, block, t) => (some .idle, block :: blocks, t)
      | (.error .closed, block, t) => (some (.exit .endOfStream), block :: blocks, t)
      | (.error e, block, t) => (some (.exit (.fault e)), block :: blocks, t)

/-- Take a block from every local, or default samples where there is none yet. -/
def readLocals : List NodeId → List (List α) → ChannelTable α →
    Option Activation × List (List α) × ChannelTable α
  | [], blocks, t => (none, blocks, t)
  | _ :: _, [], t => (none, [], t)
  | c :: rest, block :: blocks, t =>
      match t.tryRead c block with
      | (.ok .done, block, t) =>
          let (r, blocks, t) := readLocals rest blocks t
          (r, block :: blocks, t)
      | (.ok .wouldBlock, block, t) =>
          let (r, blocks, t) := readLocals rest blocks t
          (r, block.map (fun _ => default) :: blocks, t)
      | (.error e, block, t) => (some (.exit (.fault e)), block :: blocks, t)

/-- Write a block to every channel.  A channel that was closed meanwhile ends the unit
with `closed`. -/
def writeBlocks (closed : UnitExit) :
    List NodeId → List (List α) → ChannelTable α → Option Activation × ChannelTable α
  | c :: rest, block :: blocks, t =>
      match t.tryWrite c block with
      | (.ok .done, t) => writeBlocks closed rest blocks t
      | (.ok .wouldBlock, t) => (some (.exit (.fault .notAttached)), t)
      | (.error .closed, t) => (some (.exit closed), t)
      | (.error e, t) => (some (.exit (.fault e)), t)
  | _, _, t => (none, t)

/-- What a unit does before it touches any block; `none` when everything is ready. -/
def readiness (u : WorkUnit σ α) (t : ChannelTable α) : Option Activation :=
  if u.inputs.isEmpty && u.outputs.isEmpty && u.locals.isEmpty then some (.exit .finished)
  else if u.outputs.any t.isClosed then some (.exit .downstreamClosed)
  else if !u.outputs.all t.hasRoom then some .idle
  else if !u.inputs.all t.hasData then
    if u.inputs.any fun c => t.isClosed c && !t.hasData c then some (.exit .endOfStream)
    else some .idle
  else none

/-- Attempt to activate a unit. -/
def tryActivate (u : WorkUnit σ α) (t : ChannelTable α) :
    Except Trap (Activation × WorkUnit σ α × ChannelTable α) := do
  match u.readiness t with
  | some answer => return (answer, u, t)
  | none =>
      let n := u.inputs.length
      let (stop, ins, t) := readInputs u.inputs (u.inBlocks.take n) t
      let u := { u with inBlocks := ins ++ u.inBlocks.drop n }
      match stop with
      | some answer => return (answer, u, t)
      | none =>
          let (stop, ins, t) := readLocals u.locals (u.inBlocks.drop n) t
          let u := { u with inBlocks := u.inBlocks.take n ++ ins }
          match stop with
          | some answer => return (answer, u, t)
          | none =>
              let f ← u.kernel u.state u.inBlocks u.outBlocks
              let u := { u with outBlocks := f.outputs, state := f.state }
              let m := u.outputs.length
              match writeBlocks .downstreamClosed u.outputs (f.outputs.take m) t with
              | (some answer, t) => return (answer, u, t)
              | (none, t) =>
                  match writeBlocks (.fault .closed) u.locals (f.outputs.drop m) t with
                  | (some answer, t) => return (answer, u, t)
                  | (none, t) =>
                      let u := { u with activations := u.activations + 1 }
                      match f.status with
                      | .proceed => return (.fired, u, t)
                      | .finished => return (.exit .finished, u, t)

/-- Activate a unit until it exits, nobody else doing anything, at most `fuel` times.  Without a
result it is idle for good or the fuel is used up. -/
def activateAll (cancelled : Bool) : Nat → WorkUnit σ α → ChannelTable α →
    Except Trap (Option UnitExit × WorkUnit σ α × ChannelTable α)
  | 0, u, t => .ok (none, u, t)
  | fuel + 1, u, t =>
      if cancelled then .ok (some .cancelled, u, t)
      else do
        match ← u.tryActivate t with
        | (.fired, u, t) => activateAll cancelled fuel u t
        | (.idle, u, t) => return (none, u, t)
        | (.exit reason, u, t) => return (some reason, u, t)

end Activation

section Runs

variable [Inhabited α]

/-- Start a unit and activate it until it exits, nobody else doing anything.  `stuck` is the exit of
a unit that would wait for good. -/
def run (cancelled : Bool) (stuck : UnitExit) (fuel : Nat) (u : WorkUnit σ α)
    (t : ChannelTable α) : Except Trap (UnitExit × WorkUnit σ α × ChannelTable α) := do
  let (exit, u, t) ← match runActions cancelled u.startActions t with
    | (none, t) => pure (stuck, u, t)
    | (some (.error exit), t) => pure (exit, u, t)
    | (some (.ok ()), t) =>
        match ← activateAll cancelled fuel u t with
        | (none, u, t) => pure (stuck, u, t)
        | (some exit, u, t) => pure (exit, u, t)
  return (exit, u, u.closeAll t)

end Runs

end WorkUnit

end Dataflow
