import Dataflow.Bundle.Basic
import Dataflow.Channel.Table
import Dataflow.Sample

/-!
# Bundles that read

Frames come in, and blocks go out to channels.  All channels of a member get the same block.

**Step.**  A full frame is decoded when the blocks are empty; otherwise, when the frame is empty and
the transport ready, a frame is read.  Full blocks are then written, when all channels have room.

**End.**  A bundle ends when a channel has lost its reader, or when the transport has ended and both
buffers are empty.
-/

namespace Dataflow

section Types

/-- A member of a bundle that reads. -/
structure InputMember (t : SampleType) where
  /-- Where its block begins in a frame. -/
  offset : Nat
  block : List (Sample t)
  /-- Channels that get the block. -/
  outputs : List NodeId
deriving DecidableEq, Repr

/-- A bundle that reads. -/
structure InputBundle (t : SampleType) where
  name : String
  members : List (InputMember t) := []
  frame : List UInt8 := []
  /-- The frame is full. -/
  externalFilled : Bool := false
  /-- The blocks are full. -/
  internalFilled : Bool := false
  /-- The transport has ended. -/
  sawEnd : Bool := false
  ended : Bool := false
  /-- Frames read so far. -/
  frames : Nat := 0
deriving DecidableEq, Repr

end Types

namespace InputBundle

variable {t : SampleType} {τ : Type}

section Construction

/-- Append a member. -/
def addMember (b : InputBundle t) (blockSize : Nat) (outputs : List NodeId) : InputBundle t :=
  { b with
    frame := b.frame ++ List.replicate (blockSize * t.width) 0
    members := b.members ++
      [{ offset := b.frame.length, block := List.replicate blockSize default, outputs }] }

/-- Bytes of a frame. -/
def frameBytes (b : InputBundle t) : Nat := b.frame.length

/-- Channels that the bundle writes. -/
def writes (b : InputBundle t) : List NodeId := b.members.flatMap InputMember.outputs

/-- The steps that open the channels. -/
def openActions (b : InputBundle t) : List StartAction := b.writes.map .openRing

/-- The steps that wait for the readers of the channels. -/
def awaitActions (b : InputBundle t) : List StartAction := b.writes.map .await

/-- End the bundle and close its channels. -/
def close (b : InputBundle t) (ch : ChannelTable (Sample t)) :
    InputBundle t × ChannelTable (Sample t) :=
  ({ b with ended := true }, ch.closeAll b.writes)

end Construction

section Steps

/-- The blocks of a frame. -/
def decodeFrame (frame : List UInt8) (m : InputMember t) : InputMember t :=
  { m with block := decodeBlock ((frame.drop m.offset).take (m.block.length * t.width)) m.block }

/-- Move data on the side of the transport: decode a full frame, or read one. -/
def fetch (tr : Transport τ) (b : InputBundle t) (w : τ) :
    Except TransportError Bool × InputBundle t × τ :=
  if b.externalFilled && !b.internalFilled then
    (.ok true,
      { b with
        members := b.members.map (decodeFrame b.frame)
        externalFilled := false
        internalFilled := true }, w)
  else if !b.externalFilled && !b.sawEnd then
    match tr.pollReadable w with
    | (.error e, w) => (.error e, b, w)
    | (.ok false, w) => (.ok false, b, w)
    | (.ok true, w) =>
        match tr.readFrame b.frame w with
        | (.ok .frame, frame, w) =>
            (.ok true, { b with frame, externalFilled := true, frames := b.frames + 1 }, w)
        | (.ok .ended, frame, w) => (.ok true, { b with frame, sawEnd := true }, w)
        | (.ok .waiting, frame, w) => (.ok false, { b with frame }, w)
        | (.error e, frame, w) => (.error e, { b with frame }, w)
  else (.ok false, b, w)

/-- Write a block to channels. -/
def writeTo (block : List (Sample t)) :
    List NodeId → ChannelTable (Sample t) → Except ChannelError Unit × ChannelTable (Sample t)
  | [], ch => (.ok (), ch)
  | c :: rest, ch =>
      let (r, ch) := ch.tryWrite c block
      match expectDone r with
      | .ok () => writeTo block rest ch
      | .error e => (.error e, ch)

/-- Write the blocks of members to their channels. -/
def writeMembers : List (InputMember t) → ChannelTable (Sample t) →
    Except ChannelError Unit × ChannelTable (Sample t)
  | [], ch => (.ok (), ch)
  | m :: rest, ch =>
      match writeTo m.block m.outputs ch with
      | (.ok (), ch) => writeMembers rest ch
      | failed => failed

/-- Move data on the side of the channels: write full blocks when all channels have room.  There is
no outcome when a channel has lost its reader. -/
def deliver (b : InputBundle t) (ch : ChannelTable (Sample t)) :
    Except ChannelError (Option Bool) × InputBundle t × ChannelTable (Sample t) :=
  if !b.internalFilled then (.ok (some false), b, ch)
  else if b.writes.any ch.isClosed then (.ok none, b, ch)
  else if b.writes.all ch.hasRoom then
    match writeMembers b.members ch with
    | (.ok (), ch) => (.ok (some true), { b with internalFilled := false }, ch)
    | (.error e, ch) => (.error e, b, ch)
  else (.ok (some false), b, ch)

/-- Whether nothing is left to be moved. -/
def isDrained (b : InputBundle t) : Bool :=
  b.sawEnd && !b.externalFilled && !b.internalFilled

/-- One step of a bundle that reads. -/
def step (tr : Transport τ) (b : InputBundle t) (ch : ChannelTable (Sample t)) (w : τ) :
    Except BridgeError BundleStep × InputBundle t × ChannelTable (Sample t) × τ :=
  if b.ended then (.ok .ended, b, ch, w)
  else
    match b.fetch tr w with
    | (.error e, b, w) => (.error (.transport b.name e), b, ch, w)
    | (.ok fetched, b, w) =>
        match b.deliver ch with
        | (.error e, b, ch) => (.error (.channel b.name e), b, ch, w)
        | (.ok none, b, ch) =>
            let (b, ch) := b.close ch
            (.ok .ended, b, ch, w)
        | (.ok (some delivered), b, ch) =>
            if b.isDrained then
              let (b, ch) := b.close ch
              (.ok .ended, b, ch, w)
            else (.ok (.ofMoved (fetched || delivered)), b, ch, w)

end Steps

end InputBundle

end Dataflow
