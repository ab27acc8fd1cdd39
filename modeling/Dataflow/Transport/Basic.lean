/-!
# Transports

A transport moves whole frames between a bundle and the outside.  One looks first whether a frame
can be read or written, and then reads or writes it.

`Transport τ` is the operations of one transport on the state `τ` of everything outside.
-/

namespace Dataflow

section Defs

/-- What keeps a frame from being moved. -/
inductive TransportError where
  /-- The outside reports a failure, in its own words. -/
  | failure (text : String)
  | disconnected
  | frameSize (expected got : Nat)
  /-- The outside ended inside a frame. -/
  | truncated (expected got : Nat)
deriving DecidableEq, Repr

/-- Wording of an error. -/
def TransportError.message : TransportError → String
  | .failure text => s!"transport I/O failed: {text}"
  | .disconnected => "peer disconnected"
  | .frameSize expected got => s!"frame of {got} bytes, expected {expected}"
  | .truncated expected got => s!"stream ended {got} bytes into a {expected}-byte frame"

/-- Outcome of reading a frame. -/
inductive FrameRead where
  | frame
  /-- There are no more frames. -/
  | ended
  /-- There is no frame yet. -/
  | waiting
deriving DecidableEq, Repr

/-- Outcome of writing a frame. -/
inductive FrameWrite where
  | sent
  /-- There is no room yet. -/
  | waiting
deriving DecidableEq, Repr

/-- The operations of a transport. -/
structure Transport (τ : Type) where
  /-- Whether a frame, or the end, can be read at once. -/
  pollReadable : τ → Except TransportError Bool × τ
  /-- Read a frame into a buffer of its length. -/
  readFrame : List UInt8 → τ → Except TransportError FrameRead × List UInt8 × τ
  /-- Whether a frame can be written at once. -/
  pollWritable : τ → Except TransportError Bool × τ
  writeFrame : List UInt8 → τ → Except TransportError FrameWrite × τ
  /-- Tell the outside that no more frames come. -/
  shutdown : τ → Except TransportError Unit × τ

end Defs

end Dataflow
