import Dataflow.Transport.Basic

/-!
# Gates

A gate is a transport whose every answer is laid down in advance.  It opens and shuts as its lists
say, for trying out how a bundle takes it.
-/

namespace Dataflow

section Defs

/-- An answer laid down in advance: a value or an error. -/
abbrev Planned (β : Type) := Except TransportError β

/-- A gate. -/
structure Gate where
  /-- Answers to looking for a frame; afterwards there is one. -/
  readable : List (Planned Bool) := []
  /-- Answers to looking for room; afterwards there is some. -/
  writable : List (Planned Bool) := []
  /-- Frames to read; afterwards comes the end. -/
  reads : List (Planned (List UInt8)) := []
  /-- Outcomes of writes; afterwards they succeed. -/
  writes : List (Planned Unit) := []
  /-- Outcomes of shutting down; afterwards it succeeds. -/
  shutdowns : List (Planned Unit) := []
  /-- All bytes written so far, and a mark for each shutdown. -/
  sink : List UInt8 := []
deriving Repr

/-- The mark that a shutdown leaves. -/
def Gate.endMark : List UInt8 := "END".toUTF8.toList

namespace Gate

/-- Look for a frame. -/
def pollReadable (g : Gate) : Except TransportError Bool × Gate :=
  match g.readable with
  | [] => (.ok true, g)
  | r :: rest => (r, { g with readable := rest })

/-- Look for room. -/
def pollWritable (g : Gate) : Except TransportError Bool × Gate :=
  match g.writable with
  | [] => (.ok true, g)
  | r :: rest => (r, { g with writable := rest })

/-- Read the next frame over the start of the buffer. -/
def readFrame (buffer : List UInt8) (g : Gate) :
    Except TransportError FrameRead × List UInt8 × Gate :=
  match g.reads with
  | [] => (.ok .ended, buffer, g)
  | .ok bytes :: rest =>
      (.ok .frame, bytes.take buffer.length ++ buffer.drop bytes.length, { g with reads := rest })
  | .error e :: rest => (.error e, buffer, { g with reads := rest })

/-- Write a frame. -/
def writeFrame (frame : List UInt8) (g : Gate) : Except TransportError FrameWrite × Gate :=
  match g.writes with
  | .error e :: rest => (.error e, { g with writes := rest })
  | writes => (.ok .sent, { g with writes := writes.tail, sink := g.sink ++ frame })

/-- Shut down. -/
def shutdown (g : Gate) : Except TransportError Unit × Gate :=
  match g.shutdowns with
  | .error e :: rest => (.error e, { g with shutdowns := rest })
  | shutdowns => (.ok (), { g with shutdowns := shutdowns.tail, sink := g.sink ++ endMark })

/-- A gate as a transport. -/
def transport : Transport Gate where
  pollReadable := pollReadable
  readFrame := readFrame
  pollWritable := pollWritable
  writeFrame := writeFrame
  shutdown := shutdown

end Gate

end Defs

end Dataflow
