import Dataflow.Transport.Basic

/-!
# Byte streams

Frames over a stream of bytes.  A stream is given by what its calls will do: what each read gives,
how much each write takes, how each flush ends.

**Reading.**  A read gives at most as many bytes as were asked for, and keeps the rest of a piece
for the next read.  A frame is filled by as many reads as it takes (`fillFrame`), so how the bytes
are cut into pieces does not matter.  An empty piece and a stream without further pieces mean the
end.  A call that was interrupted is tried again.
-/

namespace Dataflow

section Types

/-- What a read of a stream gives. -/
inductive ReadEvent where
  /-- Some bytes; none at the end. -/
  | piece (bytes : List UInt8)
  | interrupted
  | failure (text : String)
deriving DecidableEq, Repr

/-- What a write to a stream does. -/
inductive WriteEvent where
  /-- It takes at most so many bytes. -/
  | accept (limit : Nat)
  | interrupted
  | failure (text : String)
deriving DecidableEq, Repr

/-- A stream of bytes. -/
structure ByteStream where
  reads : List ReadEvent := []
  /-- After these a write takes everything. -/
  writes : List WriteEvent := []
  /-- How flushes end: with a failure or well.  After these they end well. -/
  flushes : List (Option String) := []
  /-- All bytes written so far. -/
  sink : List UInt8 := []
deriving DecidableEq, Repr

end Types

section Reading

/-- How filling a frame ends when the stream is at its end. -/
def atEnd (length : Nat) (got : List UInt8) : Except TransportError FrameRead :=
  if got.isEmpty then .ok .ended else .error (.truncated length got.length)

/-- What is left of a piece, in front of the later reads. -/
def putBack (bytes : List UInt8) (later : List ReadEvent) : List ReadEvent :=
  if bytes.isEmpty then later else .piece bytes :: later

/-- Fill a frame of a given length, of which the bytes `got` are there, with what the reads give. -/
def fillFrame (length : Nat) (got : List UInt8) :
    List ReadEvent → Except TransportError FrameRead × List UInt8 × List ReadEvent
  | [] =>
      if length ≤ got.length then (.ok .frame, got, []) else (atEnd length got, got, [])
  | e :: later =>
      if length ≤ got.length then (.ok .frame, got, e :: later)
      else
        match e with
        | .piece bytes =>
            let need := length - got.length
            if bytes.isEmpty then (atEnd length got, got, later)
            else if need ≤ bytes.length then
              (.ok .frame, got ++ bytes.take need, putBack (bytes.drop need) later)
            else fillFrame length (got ++ bytes) later
        | .interrupted => fillFrame length got later
        | .failure text => (.error (.failure text), got, later)

end Reading

section Writing

/-- Write all bytes, in as many writes as it takes; the bytes that were written come back. -/
def writeAll (bytes : List UInt8) :
    List WriteEvent → Except TransportError Unit × List UInt8 × List WriteEvent
  | [] => (.ok (), bytes, [])
  | e :: later =>
      if bytes.isEmpty then (.ok (), [], e :: later)
      else
        match e with
        | .accept limit =>
            if limit = 0 then (.error (.failure "failed to write whole buffer"), [], later)
            else
              let (r, written, later) := writeAll (bytes.drop limit) later
              (r, bytes.take limit ++ written, later)
        | .interrupted => writeAll bytes later
        | .failure text => (.error (.failure text), [], later)

end Writing

section Transports

namespace ByteStream

/-- Read a frame.  What was read before a failure stays in the buffer. -/
def readFrame (buffer : List UInt8) (s : ByteStream) :
    Except TransportError FrameRead × List UInt8 × ByteStream :=
  let (r, got, reads) := fillFrame buffer.length [] s.reads
  (r, got ++ buffer.drop got.length, { s with reads })

/-- Write a frame. -/
def writeFrame (frame : List UInt8) (s : ByteStream) :
    Except TransportError FrameWrite × ByteStream :=
  let (r, written, writes) := writeAll frame s.writes
  (r.map fun _ => .sent, { s with writes, sink := s.sink ++ written })

/-- Flush the stream. -/
def shutdown (s : ByteStream) : Except TransportError Unit × ByteStream :=
  match s.flushes with
  | [] => (.ok (), s)
  | none :: later => (.ok (), { s with flushes := later })
  | some text :: later => (.error (.failure text), { s with flushes := later })

/-- A stream as a transport.  It is always taken for ready, since its calls wait by themselves. -/
def transport : Transport ByteStream where
  pollReadable s := (.ok true, s)
  readFrame := readFrame
  pollWritable s := (.ok true, s)
  writeFrame := writeFrame
  shutdown := shutdown

end ByteStream

end Transports

end Dataflow
