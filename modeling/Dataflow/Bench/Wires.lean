import Dataflow.Bench.Basic

/-!
# Transports on the bench
-/

namespace Dataflow

namespace Bench

variable {t : SampleType} {β : Type}

section Making

/-- Let go of the end of a transport by its name; whether it was held. -/
def dropWire (b : Bench t) (name : String) : Bool × Bench t :=
  match b.ends.lookup name with
  | none => (false, b)
  | some e => (true, { b with ends := forget b.ends name, wires := b.wires.drop e })

/-- Hold an end of a transport under a name. -/
def holdWire (b : Bench t) (name : String) (e : WireEnd) : Bench t :=
  let b := (b.dropWire name).2
  { b with ends := assign b.ends name e }

/-- Make a link whose ends are named after it. -/
def makeLink (b : Bench t) (name : String) (capacity : Nat) : Bench t :=
  let n := b.wires.links.length
  let link : Link := { capacity }
  let b := { b with wires := { b.wires with links := b.wires.links ++ [link] } }
  (b.holdWire (name ++ ".host") (.link n .host)).holdWire (name ++ ".dev") (.link n .device)

/-- Make a stream. -/
def makeStream (b : Bench t) (name : String) (s : ByteStream) : Bench t :=
  let e := WireEnd.stream b.wires.streams.length
  let b := { b with wires := { b.wires with streams := b.wires.streams ++ [s] } }
  { b.holdWire name e with sinks := assign b.sinks name e }

/-- Make a gate. -/
def makeGate (b : Bench t) (name : String) (g : Gate) : Bench t :=
  let e := WireEnd.gate b.wires.gates.length
  let b := { b with wires := { b.wires with gates := b.wires.gates ++ [g] } }
  { b.holdWire name e with sinks := assign b.sinks name e }

end Making

section Calls

/-- Call an operation of a transport. -/
def onWire (b : Bench t) (name : String) (f : Transport Wires → Wires → β × Wires) :
    Except Absent β × Bench t :=
  match meaning b.ends name with
  | .error a => (.error a, b)
  | .ok e =>
      let (r, wires) := f (Wires.transport e) b.wires
      (.ok r, { b with wires })

/-- Look for a frame. -/
def pollReadable (b : Bench t) (name : String) :
    Except Absent (Except TransportError Bool) × Bench t :=
  b.onWire name fun tr w => tr.pollReadable w

/-- Look for room. -/
def pollWritable (b : Bench t) (name : String) :
    Except Absent (Except TransportError Bool) × Bench t :=
  b.onWire name fun tr w => tr.pollWritable w

/-- Write a frame. -/
def send (b : Bench t) (name : String) (frame : List UInt8) :
    Except Absent (Except TransportError FrameWrite) × Bench t :=
  b.onWire name fun tr w => tr.writeFrame frame w

/-- Read a frame into a buffer. -/
def receive (b : Bench t) (name : String) (buffer : List UInt8) :
    Except Absent (Except TransportError FrameRead × List UInt8) × Bench t :=
  b.onWire name fun tr w =>
    let (r, buffer, w) := tr.readFrame buffer w
    ((r, buffer), w)

/-- Shut a transport down. -/
def shutdown (b : Bench t) (name : String) :
    Except Absent (Except TransportError Unit) × Bench t :=
  b.onWire name fun tr w => tr.shutdown w

/-- The bytes written to a stream or a gate so far, also after its end has been given away.  Nothing
else keeps what is written to it. -/
def sink? (b : Bench t) (name : String) : Option (List UInt8) :=
  (b.sinks.lookup name).map b.wires.sink

end Calls

end Bench

end Dataflow
