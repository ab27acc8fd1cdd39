import Dataflow.Transport.Gate
import Dataflow.Transport.Link
import Dataflow.Transport.Stream

/-!
# Everything outside

The links, streams and gates that bundles talk to, each by its number.
-/

namespace Dataflow

section Defs

/-- All links, streams and gates. -/
structure Wires where
  links : List Link := []
  streams : List ByteStream := []
  gates : List Gate := []
deriving Repr

/-- Where a transport is attached. -/
inductive WireEnd where
  | link (number : Nat) (side : Side)
  | stream (number : Nat)
  | gate (number : Nat)
deriving DecidableEq, Repr

/-- Operations on one element of a list as operations on the list.  An element that is not there is
disconnected. -/
def Transport.nth {τ : Type} (n : Nat) (t : Transport τ) : Transport (List τ) where
  pollReadable l :=
    match l[n]? with
    | none => (.error .disconnected, l)
    | some s => let (r, s) := t.pollReadable s; (r, l.set n s)
  readFrame buffer l :=
    match l[n]? with
    | none => (.error .disconnected, buffer, l)
    | some s => let (r, buffer, s) := t.readFrame buffer s; (r, buffer, l.set n s)
  pollWritable l :=
    match l[n]? with
    | none => (.error .disconnected, l)
    | some s => let (r, s) := t.pollWritable s; (r, l.set n s)
  writeFrame frame l :=
    match l[n]? with
    | none => (.error .disconnected, l)
    | some s => let (r, s) := t.writeFrame frame s; (r, l.set n s)
  shutdown l :=
    match l[n]? with
    | none => (.error .disconnected, l)
    | some s => let (r, s) := t.shutdown s; (r, l.set n s)

/-- Operations on a part of a state as operations on the state. -/
def Transport.part {σ τ : Type} (get : σ → τ) (put : σ → τ → σ) (t : Transport τ) :
    Transport σ where
  pollReadable s := let (r, p) := t.pollReadable (get s); (r, put s p)
  readFrame buffer s := let (r, buffer, p) := t.readFrame buffer (get s); (r, buffer, put s p)
  pollWritable s := let (r, p) := t.pollWritable (get s); (r, put s p)
  writeFrame frame s := let (r, p) := t.writeFrame frame (get s); (r, put s p)
  shutdown s := let (r, p) := t.shutdown (get s); (r, put s p)

namespace Wires

/-- The transport attached at an end. -/
def transport : WireEnd → Transport Wires
  | .link n side =>
      ((Link.transport side).nth n).part Wires.links fun w links => { w with links }
  | .stream n =>
      (ByteStream.transport.nth n).part Wires.streams fun w streams => { w with streams }
  | .gate n => (Gate.transport.nth n).part Wires.gates fun w gates => { w with gates }

/-- Let go of an end. -/
def drop (w : Wires) : WireEnd → Wires
  | .link n side => { w with links := w.links.modify n (Link.drop side) }
  | .stream _ => w
  | .gate _ => w

/-- Answers of gates that are still to come. -/
def answers (w : Wires) : Nat :=
  (w.gates.flatMap Gate.readable).length + (w.gates.flatMap Gate.writable).length

/-- The bytes written at an end that keeps them. -/
def sink (w : Wires) : WireEnd → List UInt8
  | .link _ _ => []
  | .stream n => ((w.streams[n]?).map ByteStream.sink).getD []
  | .gate n => ((w.gates[n]?).map Gate.sink).getD []

end Wires

end Defs

end Dataflow
