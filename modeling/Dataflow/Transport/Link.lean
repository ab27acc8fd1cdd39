import Dataflow.Transport.Basic

/-!
# Links

A link connects a host and a device inside one program.  Each end has an inbox for a limited number
of frames.

**Looking.**  An end that looks for a frame takes it out of its inbox and keeps it until it is read.

**Ending.**  An end that shuts down sends no more; the other end reads what is in flight
and then the end.  An end that is let go of also receives no more; what is in flight to it
stays in its inbox.
-/

namespace Dataflow

section Defs

/-- One end of a link. -/
structure LinkEnd where
  /-- Frames in flight to this end. -/
  inbox : List (List UInt8) := []
  /-- A frame taken from the inbox and not read yet. -/
  pending : Option (List UInt8) := none
  /-- This end knows that no more frames come. -/
  sawEnd : Bool := false
  /-- This end may still send. -/
  sending : Bool := true
  /-- This end may still receive. -/
  receiving : Bool := true
deriving DecidableEq, Repr

/-- A link. -/
structure Link where
  /-- Frames that may be in flight to each end. -/
  capacity : Nat
  host : LinkEnd := {}
  device : LinkEnd := {}
deriving DecidableEq, Repr

/-- The two sides of a link. -/
inductive Side where
  | host
  | device
deriving DecidableEq, Repr

/-- The other side. -/
def Side.other : Side → Side
  | .host => .device
  | .device => .host

namespace Link

/-- The end at a side. -/
def get (l : Link) : Side → LinkEnd
  | .host => l.host
  | .device => l.device

/-- Replace the end at a side. -/
def put (l : Link) (side : Side) (e : LinkEnd) : Link :=
  match side with
  | .host => { l with host := e }
  | .device => { l with device := e }

/-- Whether a frame or the end can be read. -/
def pollReadable (side : Side) (l : Link) : Except TransportError Bool × Link :=
  let e := l.get side
  if e.pending.isSome || e.sawEnd then (.ok true, l)
  else
    match e.inbox with
    | frame :: rest => (.ok true, l.put side { e with inbox := rest, pending := some frame })
    | [] =>
        if (l.get side.other).sending then (.ok false, l)
        else (.ok true, l.put side { e with sawEnd := true })

/-- Hand a frame over to a buffer of its length. -/
def hand (frame buffer : List UInt8) : Except TransportError FrameRead × List UInt8 :=
  if frame.length = buffer.length then (.ok .frame, frame)
  else (.error (.frameSize buffer.length frame.length), buffer)

/-- Read the pending frame or else the next one. -/
def readFrame (side : Side) (buffer : List UInt8) (l : Link) :
    Except TransportError FrameRead × List UInt8 × Link :=
  let e := l.get side
  match e.pending with
  | some frame =>
      let (r, buffer) := hand frame buffer
      (r, buffer, l.put side { e with pending := none })
  | none =>
      if e.sawEnd then (.ok .ended, buffer, l)
      else
        match e.inbox with
        | frame :: rest =>
            let (r, buffer) := hand frame buffer
            (r, buffer, l.put side { e with inbox := rest })
        | [] =>
            if (l.get side.other).sending then (.ok .waiting, buffer, l)
            else (.ok .ended, buffer, l.put side { e with sawEnd := true })

/-- Whether the inbox of the other end has room. -/
def pollWritable (side : Side) (l : Link) : Except TransportError Bool × Link :=
  if (l.get side).sending then
    (.ok ((l.get side.other).inbox.length < l.capacity), l)
  else (.error .disconnected, l)

/-- Send a frame to the other end. -/
def writeFrame (side : Side) (frame : List UInt8) (l : Link) :
    Except TransportError FrameWrite × Link :=
  let peer := l.get side.other
  if !(l.get side).sending || !peer.receiving then (.error .disconnected, l)
  else if peer.inbox.length < l.capacity then
    (.ok .sent, l.put side.other { peer with inbox := peer.inbox ++ [frame] })
  else (.ok .waiting, l)

/-- Send no more. -/
def shutdown (side : Side) (l : Link) : Except TransportError Unit × Link :=
  (.ok (), l.put side { l.get side with sending := false })

/-- Let go of an end. -/
def drop (side : Side) (l : Link) : Link :=
  l.put side { l.get side with sending := false, receiving := false }

/-- One end of a link as a transport. -/
def transport (side : Side) : Transport Link where
  pollReadable := pollReadable side
  readFrame := readFrame side
  pollWritable := pollWritable side
  writeFrame := writeFrame side
  shutdown := shutdown side

end Link

end Defs

end Dataflow
