import Dataflow.Assembly
import Dataflow.Transport.Wires

/-!
# Execution

A program runs in threads, one for each unit and one for the bridge.  They share nothing but
channels and a token that calls everything off.

**Turns.**  In a turn a thread takes one step of its startup, attempts one activation, or goes one
round.  In a round of the program every thread has one turn.

**Exit.**  A thread that exits closes everything and lets go of it; so does one that traps.
-/

namespace Dataflow

section Types

/-- Where a thread stands.  `α` is what it has left of its startup, `ε` how it exits. -/
inductive Phase (α ε : Type) where
  | starting (todo : List α)
  | running
  | exited (reason : ε)
  | trapped
deriving DecidableEq, Repr

/-- Whether a thread has come to its end. -/
def Phase.isOver {α ε : Type} : Phase α ε → Bool
  | .exited _ => true
  | .trapped => true
  | _ => false

/-- The thread of a unit. -/
structure UnitThread (σ α : Type) where
  unit : WorkUnit σ α
  phase : Phase StartAction UnitExit

/-- The thread of a bridge. -/
structure BridgeThread (σ : Type) (t : SampleType) where
  bridge : IoBridge σ WireEnd t
  phase : Phase IoBridge.StartGroup BridgeExit

/-- A program at work. -/
structure Execution (σ : Type) (t : SampleType) where
  channels : ChannelTable (Sample t)
  wires : Wires
  units : List (UnitThread σ (Sample t))
  bridge : Option (BridgeThread σ t)

/-- What the threads of a program have done. -/
structure RunReport where
  units : List UnitReport
  io : Option BridgeReport
deriving DecidableEq, Repr

end Types

namespace UnitThread

variable {σ α : Type}

section Turns

/-- End a thread, closing everything and letting go of it. -/
def finish (th : UnitThread σ α) (reason : UnitExit) (ch : ChannelTable α) :
    Bool × UnitThread σ α × ChannelTable α :=
  (true, { th with phase := .exited reason }, th.unit.drop (th.unit.closeAll ch))

variable [Inhabited α]

/-- One turn of a thread; whether anything happened. -/
def turn (cancelled : Bool) (th : UnitThread σ α) (ch : ChannelTable α) :
    Bool × UnitThread σ α × ChannelTable α :=
  match th.phase with
  | .starting [] => (true, { th with phase := .running }, ch)
  | .starting (a :: rest) =>
      match a.perform cancelled ch with
      | (none, ch) => (false, th, ch)
      | (some (.ok ()), ch) => (true, { th with phase := .starting rest }, ch)
      | (some (.error e), ch) => th.finish (WorkUnit.startExit a e) ch
  | .running =>
      if cancelled then th.finish .cancelled ch
      else
        match th.unit.tryActivate ch with
        | .error _ => (true, { th with phase := .trapped }, th.unit.drop ch)
        | .ok (.fired, u, ch) => (true, { th with unit := u }, ch)
        | .ok (.idle, u, ch) => (false, { th with unit := u }, ch)
        | .ok (.exit reason, u, ch) => finish { th with unit := u } reason ch
  | _ => (false, th, ch)

/-- Turns of several threads. -/
def turns (cancelled : Bool) : List (UnitThread σ α) → ChannelTable α →
    Bool × List (UnitThread σ α) × ChannelTable α
  | [], ch => (false, [], ch)
  | th :: rest, ch =>
      let (moved, th, ch) := th.turn cancelled ch
      let (others, rest, ch) := turns cancelled rest ch
      (moved || others, th :: rest, ch)

end Turns

/-- Name of the thread. -/
def name (th : UnitThread σ α) : String := s!"ptc-partition-{th.unit.partition.val.toNat}"

end UnitThread

namespace BridgeThread

variable {σ : Type} {t : SampleType}

section Turns

/-- Let go of everything that a bridge holds. -/
def release (br : IoBridge σ WireEnd t) (ch : ChannelTable (Sample t)) (w : Wires) :
    ChannelTable (Sample t) × Wires :=
  (br.drop ch, br.bundles.foldl (fun w b => w.drop b.1) w)

/-- End a thread, closing everything and letting go of it. -/
def finish (br : IoBridge σ WireEnd t) (reason : BridgeExit) (ch : ChannelTable (Sample t))
    (w : Wires) : Bool × BridgeThread σ t × ChannelTable (Sample t) × Wires :=
  let (ch, w) := release br (br.closeAll ch) w
  (true, { bridge := br, phase := .exited reason }, ch, w)

/-- One turn of the thread; whether anything happened. -/
def turn (cancelled : Bool) (th : BridgeThread σ t) (ch : ChannelTable (Sample t)) (w : Wires) :
    Bool × BridgeThread σ t × ChannelTable (Sample t) × Wires :=
  match th.phase with
  | .starting [] => (true, { th with phase := .running }, ch, w)
  | .starting groups =>
      match th.bridge.startStep cancelled groups ch with
      | (.advanced rest, br, ch) => (true, { bridge := br, phase := .starting rest }, ch, w)
      | (.waiting, br, ch) => (false, { th with bridge := br }, ch, w)
      | (.exit reason, br, ch) => finish br reason ch w
  | .running =>
      match th.bridge.round Wires.transport cancelled ch w with
      | .error _ =>
          let (ch, w) := release th.bridge ch w
          (true, { th with phase := .trapped }, ch, w)
      | .ok (.progress, br, ch, w) => (true, { th with bridge := br }, ch, w)
      | .ok (.idle, br, ch, w) => (false, { th with bridge := br }, ch, w)
      | .ok (.exit reason, br, ch, w) => finish br reason ch w
  | _ => (false, th, ch, w)

end Turns

/-- Name of the thread. -/
def name : String := "ptc-io"

end BridgeThread

namespace Execution

variable {σ : Type} {t : SampleType}

section Runs

/-- A program about to start.  Ends of channels that nobody has taken are let go of. -/
def start (p : Program σ WireEnd t) (wires : Wires) : Execution σ t where
  channels := p.ledger.release p.channels
  wires := wires
  units := p.units.map fun u => { unit := u, phase := .starting u.startActions }
  bridge := p.bridge.map fun b => { bridge := b, phase := .starting b.startGroups }

/-- One turn of every thread; whether anything happened. -/
def round (cancelled : Bool) (x : Execution σ t) : Bool × Execution σ t :=
  let (moved, units, channels) := UnitThread.turns cancelled x.units x.channels
  match x.bridge with
  | none => (moved, { x with units, channels })
  | some b =>
      let (more, b, channels, wires) := b.turn cancelled channels x.wires
      (moved || more, { channels, wires, units, bridge := some b })

/-- Whether every thread has come to its end. -/
def isOver (x : Execution σ t) : Bool :=
  x.units.all (fun u => u.phase.isOver)
    && (match x.bridge with
      | some b => b.phase.isOver
      | none => true)

/-- Rounds in a row in which nothing happens after which nothing is to be expected. -/
def quietLimit (x : Execution σ t) : Nat :=
  match x.bridge with
  | some b => b.bridge.quietLimit x.wires.answers
  | none => 0

/-- Rounds until every thread has come to its end, at most `fuel` of them.  When nothing has
happened in more than `limit` rounds in a row, of which `quiet` are left at first, everything is
called off, if `cancelLater`, or else the program stays as it is. -/
def rounds (cancelLater : Bool) (limit : Nat) : Nat → Nat → Bool → Execution σ t → Execution σ t
  | 0, _, _, x => x
  | fuel + 1, quiet, cancelled, x =>
      if x.isOver then x
      else
        match x.round cancelled with
        | (true, x) => rounds cancelLater limit fuel limit cancelled x
        | (false, x) =>
            if 0 < quiet then rounds cancelLater limit fuel (quiet - 1) cancelled x
            else if cancelLater && !cancelled then rounds cancelLater limit fuel limit true x
            else x

/-- Run a program. -/
def run (cancelled cancelLater : Bool) (fuel : Nat) (x : Execution σ t) : Execution σ t :=
  x.rounds cancelLater x.quietLimit fuel x.quietLimit cancelled

/-- Reports of units, in order, up to the first thread that did not exit by itself. -/
def unitReports : List (UnitThread σ (Sample t)) → Option (Except ProgramError (List UnitReport))
  | [] => some (.ok [])
  | th :: rest =>
      match th.phase with
      | .trapped => some (.error (.trapped th.name))
      | .exited reason =>
          (unitReports rest).map fun r => r.map fun reports => th.unit.report reason :: reports
      | _ => none

/-- What the threads of a program have done, once all have come to their end. -/
def report (x : Execution σ t) : Option (Except ProgramError RunReport) :=
  match unitReports x.units with
  | none => none
  | some (.error e) => some (.error e)
  | some (.ok units) =>
      match x.bridge with
      | none => some (.ok { units, io := none })
      | some b =>
          match b.phase with
          | .trapped => some (.error (.trapped BridgeThread.name))
          | .exited reason => some (.ok { units, io := some (b.bridge.report reason) })
          | _ => none

end Runs

end Execution

end Dataflow
