import Dataflow.Bundle.Basic
import Dataflow.Channel.Table
import Dataflow.Sample

/-!
# Bundles that write

Blocks come in from channels, one for each member, and frames go out.

**Step.**  Full blocks are encoded when the frame is empty; otherwise, when the frame is full and
the transport ready, it is written.  Empty blocks are then filled, when all channels have a block.

**End.**  When a channel is closed and empty no more blocks are taken.  The bundle ends when both
buffers are empty, and shuts the transport down.
-/

namespace Dataflow

section Types

/-- A member of a bundle that writes. -/
structure OutputMember (t : SampleType) where
  /-- Where its block begins in a frame. -/
  offset : Nat
  block : List (Sample t)
  /-- The channel that gives the block. -/
  input : NodeId
deriving DecidableEq, Repr

/-- A bundle that writes. -/
structure OutputBundle (t : SampleType) where
  name : String
  members : List (OutputMember t) := []
  frame : List UInt8 := []
  /-- The frame is full. -/
  externalFilled : Bool := false
  /-- The blocks are full. -/
  internalFilled : Bool := false
  /-- A channel has ended. -/
  sawEnd : Bool := false
  ended : Bool := false
  /-- Frames written so far. -/
  frames : Nat := 0
deriving DecidableEq, Repr

end Types

namespace OutputBundle

variable {t : SampleType} {τ : Type}

section Construction

/-- Append a member that reads a channel with blocks of a given size. -/
def addMember (b : OutputBundle t) (blockSize : Nat) (input : NodeId) : OutputBundle t :=
  { b with
    frame := b.frame ++ List.replicate (blockSize * t.width) 0
    members := b.members ++
      [{ offset := b.frame.length, block := List.replicate blockSize default, input }] }

/-- Bytes of a frame. -/
def frameBytes (b : OutputBundle t) : Nat := b.frame.length

/-- Channels that the bundle reads. -/
def reads (b : OutputBundle t) : List NodeId := b.members.map OutputMember.input

/-- The steps that attach to the channels. -/
def attachActions (b : OutputBundle t) : List StartAction := b.reads.map .attach

/-- End the bundle and close its channels. -/
def close (b : OutputBundle t) (ch : ChannelTable (Sample t)) :
    OutputBundle t × ChannelTable (Sample t) :=
  ({ b with ended := true }, ch.closeAll b.reads)

end Construction

section Steps

/-- Put the block of a member into a frame. -/
def encodeMember (frame : List UInt8) (m : OutputMember t) : List UInt8 :=
  let bytes := m.block.length * t.width
  frame.take m.offset ++ encodeBlock m.block ((frame.drop m.offset).take bytes)
    ++ frame.drop (m.offset + bytes)

/-- Move data on the side of the transport: encode full blocks, or write a full frame. -/
def send (tr : Transport τ) (b : OutputBundle t) (w : τ) :
    Except TransportError Bool × OutputBundle t × τ :=
  if b.internalFilled && !b.externalFilled then
    (.ok true,
      { b with
        frame := b.members.foldl encodeMember b.frame
        internalFilled := false
        externalFilled := true }, w)
  else if b.externalFilled then
    match tr.pollWritable w with
    | (.error e, w) => (.error e, b, w)
    | (.ok false, w) => (.ok false, b, w)
    | (.ok true, w) =>
        match tr.writeFrame b.frame w with
        | (.error e, w) => (.error e, b, w)
        | (.ok .waiting, w) => (.ok false, b, w)
        | (.ok .sent, w) =>
            (.ok true, { b with externalFilled := false, frames := b.frames + 1 }, w)
  else (.ok false, b, w)

/-- Read a block for each member. -/
def readMembers : List (OutputMember t) → ChannelTable (Sample t) →
    Except ChannelError Unit × List (OutputMember t) × ChannelTable (Sample t)
  | [], ch => (.ok (), [], ch)
  | m :: rest, ch =>
      let (r, block, ch) := ch.tryRead m.input m.block
      let m := { m with block }
      match expectDone r with
      | .ok () =>
          let (r, rest, ch) := readMembers rest ch
          (r, m :: rest, ch)
      | .error e => (.error e, m :: rest, ch)

/-- Move data on the side of the channels: fill empty blocks when all channels have one. -/
def collect (b : OutputBundle t) (ch : ChannelTable (Sample t)) :
    Except ChannelError Bool × OutputBundle t × ChannelTable (Sample t) :=
  if b.internalFilled || b.sawEnd then (.ok false, b, ch)
  else if b.reads.all ch.hasData then
    match readMembers b.members ch with
    | (.ok (), members, ch) => (.ok true, { b with members, internalFilled := true }, ch)
    | (.error e, members, ch) => (.error e, { b with members }, ch)
  else if b.reads.any fun c => ch.isClosed c && !ch.hasData c then
    (.ok false, { b with sawEnd := true }, ch)
  else (.ok false, b, ch)

/-- Whether nothing is left to be moved. -/
def isDrained (b : OutputBundle t) : Bool :=
  b.sawEnd && !b.internalFilled && !b.externalFilled

/-- One step of a bundle that writes. -/
def step (tr : Transport τ) (b : OutputBundle t) (ch : ChannelTable (Sample t)) (w : τ) :
    Except BridgeError BundleStep × OutputBundle t × ChannelTable (Sample t) × τ :=
  if b.ended then (.ok .ended, b, ch, w)
  else
    match b.send tr w with
    | (.error e, b, w) => (.error (.transport b.name e), b, ch, w)
    | (.ok sent, b, w) =>
        match b.collect ch with
        | (.error e, b, ch) => (.error (.channel b.name e), b, ch, w)
        | (.ok collected, b, ch) =>
            if b.isDrained then
              match tr.shutdown w with
              | (.error e, w) => (.error (.transport b.name e), b, ch, w)
              | (.ok (), w) =>
                  let (b, ch) := b.close ch
                  (.ok .ended, b, ch, w)
            else (.ok (.ofMoved (sent || collected)), b, ch, w)

end Steps

end OutputBundle

end Dataflow
