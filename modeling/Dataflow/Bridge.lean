import Dataflow.Bundle.Input
import Dataflow.Bundle.Output
import Dataflow.Graph.Node
import Dataflow.Worker

/-!
# Bridges

A bridge is what the thread of the partition for the outside does: it drives all bundles and the
unit of that partition, if there is one.

**Startup.**  In three rounds over all bundles and the unit, as for a single unit: open, attach,
await.  A bundle that finds a channel closed ends and lets the others go on; so does the unit.

**Rounds.**  Each round takes a step of every bundle and attempts one activation of the unit.  The
bridge has drained everything when every bundle has ended and the unit has exited.
-/

namespace Dataflow

section Types

/-- A bundle of either direction. -/
inductive Bundle (t : SampleType) where
  | input (b : InputBundle t)
  | output (b : OutputBundle t)
deriving DecidableEq, Repr

/-- What a bundle has done in its life. -/
structure BundleReport where
  name : String
  direction : IoDirection
  frames : Nat
deriving DecidableEq, Repr

/-- Why a bridge exits. -/
inductive BridgeExit where
  /-- Everything has ended. -/
  | drained
  | cancelled
  | failed (error : BridgeError)
deriving DecidableEq, Repr

/-- What a bridge has done in its life. -/
structure BridgeReport where
  bundles : List BundleReport
  unit : Option UnitReport
  exit : BridgeExit
deriving DecidableEq, Repr

/-- A bridge.  Each bundle comes with the end `ε` of its transport. -/
structure IoBridge (σ ε : Type) (t : SampleType) where
  bundles : List (ε × Bundle t) := []
  unit : Option (WorkUnit σ (Sample t)) := none
  /-- Why the unit has exited, once it has. -/
  unitExit : Option UnitExit := none

end Types

namespace Bundle

variable {t : SampleType} {τ : Type}

section Dispatch

/-- Name of a bundle. -/
def name : Bundle t → String
  | .input b => b.name
  | .output b => b.name

/-- What a bundle has done so far. -/
def report : Bundle t → BundleReport
  | .input b => ⟨b.name, .input, b.frames⟩
  | .output b => ⟨b.name, .output, b.frames⟩

/-- One step of a bundle. -/
def step (tr : Transport τ) (b : Bundle t) (ch : ChannelTable (Sample t)) (w : τ) :
    Except BridgeError BundleStep × Bundle t × ChannelTable (Sample t) × τ :=
  match b with
  | .input b =>
      let (r, b, ch, w) := b.step tr ch w
      (r, .input b, ch, w)
  | .output b =>
      let (r, b, ch, w) := b.step tr ch w
      (r, .output b, ch, w)

/-- End a bundle and close its channels. -/
def close (b : Bundle t) (ch : ChannelTable (Sample t)) : Bundle t × ChannelTable (Sample t) :=
  match b with
  | .input b =>
      let (b, ch) := b.close ch
      (.input b, ch)
  | .output b =>
      let (b, ch) := b.close ch
      (.output b, ch)

/-- Let go of all ends of channels that a bundle holds. -/
def drop (b : Bundle t) (ch : ChannelTable (Sample t)) : ChannelTable (Sample t) :=
  match b with
  | .input b => ch.dropWriters b.writes
  | .output b => ch.dropReaders b.reads

/-- The steps that open channels. -/
def openActions : Bundle t → List StartAction
  | .input b => b.openActions
  | .output _ => []

/-- The steps that attach to channels. -/
def attachActions : Bundle t → List StartAction
  | .input _ => []
  | .output b => b.attachActions

/-- The steps that wait for the readers of channels. -/
def awaitActions : Bundle t → List StartAction
  | .input b => b.awaitActions
  | .output _ => []

end Dispatch

end Bundle

namespace IoBridge

variable {σ ε τ : Type} {t : SampleType}

section Startup

/-- Who takes the steps of a group. -/
inductive Owner where
  | bundle (index : Nat)
  | unit
deriving DecidableEq, Repr

/-- Steps that belong together: when one of them fails the rest is left out. -/
structure StartGroup where
  owner : Owner
  actions : List StartAction
deriving DecidableEq, Repr

/-- One round of the startup over all bundles and the unit. -/
def startRound (br : IoBridge σ ε t) (ofBundle : Bundle t → List StartAction)
    (ofUnit : WorkUnit σ (Sample t) → List StartAction) : List StartGroup :=
  br.bundles.mapIdx (fun i b => ⟨.bundle i, ofBundle b.2⟩)
    ++ br.unit.toList.map fun u => ⟨.unit, ofUnit u⟩

/-- The startup of a bridge. -/
def startGroups (br : IoBridge σ ε t) : List StartGroup :=
  br.startRound Bundle.openActions WorkUnit.openActions
    ++ br.startRound Bundle.attachActions WorkUnit.attachActions
    ++ br.startRound Bundle.awaitActions WorkUnit.awaitActions

/-- Outcome of one step of the startup. -/
inductive StartStep where
  /-- The step was taken; these groups are left. -/
  | advanced (groups : List StartGroup)
  /-- The step has to wait. -/
  | waiting
  | exit (reason : BridgeExit)
deriving DecidableEq, Repr

/-- End the bundle at an index. -/
def closeBundle (br : IoBridge σ ε t) (index : Nat) (ch : ChannelTable (Sample t)) :
    IoBridge σ ε t × ChannelTable (Sample t) :=
  match br.bundles[index]? with
  | none => (br, ch)
  | some (e, b) =>
      let (b, ch) := b.close ch
      ({ br with bundles := br.bundles.set index (e, b) }, ch)

/-- Note that the unit has exited. -/
def exitUnit (br : IoBridge σ ε t) (reason : UnitExit) (ch : ChannelTable (Sample t)) :
    IoBridge σ ε t × ChannelTable (Sample t) :=
  ({ br with unitExit := some reason },
    match br.unit with
    | some u => u.closeAll ch
    | none => ch)

/-- What a step that failed means for its group. -/
def settle (br : IoBridge σ ε t) (owner : Owner) (a : StartAction) (e : ChannelError)
    (rest : List StartGroup) (ch : ChannelTable (Sample t)) :
    StartStep × IoBridge σ ε t × ChannelTable (Sample t) :=
  match owner, e with
  | _, .cancelled => (.exit .cancelled, br, ch)
  | .bundle index, .closed =>
      let (br, ch) := br.closeBundle index ch
      (.advanced rest, br, ch)
  | .bundle index, e =>
      let name := ((br.bundles[index]?).map fun b => b.2.name).getD ""
      (.exit (.failed (.channel name e)), br, ch)
  | .unit, e =>
      let (br, ch) := br.exitUnit (WorkUnit.startExit a e) ch
      (.advanced rest, br, ch)

/-- Take the next step of the startup. -/
def startStep (cancelled : Bool) (br : IoBridge σ ε t) (groups : List StartGroup)
    (ch : ChannelTable (Sample t)) : StartStep × IoBridge σ ε t × ChannelTable (Sample t) :=
  match groups with
  | [] => (.advanced [], br, ch)
  | ⟨owner, actions⟩ :: rest =>
      if owner = .unit && br.unitExit.isSome then (.advanced rest, br, ch)
      else
        match actions with
        | [] => (.advanced rest, br, ch)
        | a :: more =>
            match a.perform cancelled ch with
            | (none, ch) => (.waiting, br, ch)
            | (some (.ok ()), ch) => (.advanced (⟨owner, more⟩ :: rest), br, ch)
            | (some (.error e), ch) => br.settle owner a e rest ch

/-- Number of steps that groups take at most. -/
def startSize (groups : List StartGroup) : Nat :=
  (groups.flatMap StartGroup.actions).length + groups.length

/-- Take steps of the startup until it is done, fails or has to wait, at most `fuel` steps. -/
def startAll (cancelled : Bool) : Nat → IoBridge σ ε t → List StartGroup →
    ChannelTable (Sample t) → StartStep × IoBridge σ ε t × ChannelTable (Sample t)
  | 0, br, groups, ch => (.advanced groups, br, ch)
  | fuel + 1, br, groups, ch =>
      match groups with
      | [] => (.advanced [], br, ch)
      | _ =>
          match br.startStep cancelled groups ch with
          | (.advanced groups, br, ch) => startAll cancelled fuel br groups ch
          | stopped => stopped

end Startup

section Rounds

/-- Outcome of a round. -/
inductive Round where
  | progress
  | idle
  | exit (reason : BridgeExit)
deriving DecidableEq, Repr

/-- Take a step of each bundle; whether something moved and whether all have ended. -/
def stepBundles (wire : ε → Transport τ) :
    List (ε × Bundle t) → ChannelTable (Sample t) → τ →
    Except BridgeError (Bool × Bool) × List (ε × Bundle t) × ChannelTable (Sample t) × τ
  | [], ch, w => (.ok (false, true), [], ch, w)
  | (e, b) :: rest, ch, w =>
      match b.step (wire e) ch w with
      | (.error err, b, ch, w) => (.error err, (e, b) :: rest, ch, w)
      | (.ok s, b, ch, w) =>
          let (r, rest, ch, w) := stepBundles wire rest ch w
          (r.map fun (moved, ended) => (moved || s = .progress, ended && s = .ended),
            (e, b) :: rest, ch, w)

/-- Attempt to activate the unit, if it has not exited. -/
def stepUnit (br : IoBridge σ ε t) (ch : ChannelTable (Sample t)) :
    Except Trap (Bool × IoBridge σ ε t × ChannelTable (Sample t)) := do
  match br.unit, br.unitExit with
  | some u, none =>
      match ← u.tryActivate ch with
      | (.fired, u, ch) => return (true, { br with unit := some u }, ch)
      | (.idle, u, ch) => return (false, { br with unit := some u }, ch)
      | (.exit reason, u, ch) =>
          let (br, ch) := { br with unit := some u }.exitUnit reason ch
          return (true, br, ch)
  | _, _ => return (false, br, ch)

/-- One round of a bridge. -/
def round (wire : ε → Transport τ) (cancelled : Bool) (br : IoBridge σ ε t)
    (ch : ChannelTable (Sample t)) (w : τ) :
    Except Trap (Round × IoBridge σ ε t × ChannelTable (Sample t) × τ) := do
  if cancelled then return (.exit .cancelled, br, ch, w)
  match stepBundles wire br.bundles ch w with
  | (.error e, bundles, ch, w) => return (.exit (.failed e), { br with bundles }, ch, w)
  | (.ok (moved, ended), bundles, ch, w) =>
      let (fired, br, ch) ← { br with bundles }.stepUnit ch
      if ended && (br.unit.isNone || br.unitExit.isSome) then
        return (.exit .drained, br, ch, w)
      else return (if moved || fired then .progress else .idle, br, ch, w)

/-- Rounds in a row without progress after which no progress is to be expected: meanwhile each
bundle can learn that its source has ended, and end, and the outside can give the answers that
it has ready. -/
def quietLimit (br : IoBridge σ ε t) (answers : Nat) : Nat := 2 * br.bundles.length + answers + 2

/-- Rounds until the bridge exits, nobody else doing anything, at most `fuel` of them.  Without a
result there were more than `limit` rounds in a row without progress, of which `quiet` are left at
first, or the fuel is used up. -/
def rounds (wire : ε → Transport τ) (cancelled : Bool) (limit : Nat) :
    Nat → Nat → IoBridge σ ε t → ChannelTable (Sample t) → τ →
    Except Trap (Option BridgeExit × IoBridge σ ε t × ChannelTable (Sample t) × τ)
  | 0, _, br, ch, w => .ok (none, br, ch, w)
  | fuel + 1, quiet, br, ch, w => do
      match ← br.round wire cancelled ch w with
      | (.progress, br, ch, w) => rounds wire cancelled limit fuel limit br ch w
      | (.idle, br, ch, w) =>
          if quiet = 0 then return (none, br, ch, w)
          else rounds wire cancelled limit fuel (quiet - 1) br ch w
      | (.exit reason, br, ch, w) => return (some reason, br, ch, w)

end Rounds

section Exit

/-- Close everything that a bridge drives. -/
def closeAll (br : IoBridge σ ε t) (ch : ChannelTable (Sample t)) : ChannelTable (Sample t) :=
  let ch := br.bundles.foldl (fun ch b => (b.2.close ch).2) ch
  match br.unit with
  | some u => u.closeAll ch
  | none => ch

/-- Let go of all ends of channels that a bridge holds. -/
def drop (br : IoBridge σ ε t) (ch : ChannelTable (Sample t)) : ChannelTable (Sample t) :=
  let ch := br.bundles.foldl (fun ch b => b.2.drop ch) ch
  match br.unit with
  | some u => u.drop ch
  | none => ch

/-- The report about a bridge that exits. -/
def report (br : IoBridge σ ε t) (exit : BridgeExit) : BridgeReport where
  bundles := br.bundles.map fun b => b.2.report
  unit := br.unit.map fun u => u.report (br.unitExit.getD .cancelled)
  exit := exit

/-- Start a bridge and go round until it exits, nobody else doing anything.  `stuck` is the exit of
a bridge that would wait for good, the outside having so many `answers` ready. -/
def run (wire : ε → Transport τ) (cancelled : Bool) (stuck : BridgeExit) (answers fuel : Nat)
    (br : IoBridge σ ε t) (ch : ChannelTable (Sample t)) (w : τ) :
    Except Trap (BridgeExit × IoBridge σ ε t × ChannelTable (Sample t) × τ) := do
  let groups := br.startGroups
  let (exit, br, ch, w) ← match startAll cancelled (startSize groups) br groups ch with
    | (.waiting, br, ch) => pure (stuck, br, ch, w)
    | (.exit reason, br, ch) => pure (reason, br, ch, w)
    | (.advanced _, br, ch) =>
        let limit := br.quietLimit answers
        match ← rounds wire cancelled limit fuel limit br ch w with
        | (none, br, ch, w) => pure (stuck, br, ch, w)
        | (some reason, br, ch, w) => pure (reason, br, ch, w)
  return (exit, br, br.closeAll ch, w)

end Exit

end IoBridge

end Dataflow
