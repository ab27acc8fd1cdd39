import Dataflow.Channel.Waiting
import Dataflow.Ident

/-!
# Tables of channels

The channels of a program by the numbers of their nodes.  Whoever holds an end of a channel holds
its number.  A channel that is not there behaves like one that was closed empty.
-/

namespace Dataflow

section Defs

/-- The channels of a program. -/
abbrev ChannelTable (α : Type) := Std.ExtTreeMap NodeId (Channel α)

namespace ChannelTable

variable {α β : Type}

/-- Whether a channel is closed. -/
def isClosed (t : ChannelTable α) (id : NodeId) : Bool :=
  match t[id]? with
  | some c => c.isClosed
  | none => true

/-- Whether a block can be written to a channel. -/
def hasRoom (t : ChannelTable α) (id : NodeId) : Bool :=
  match t[id]? with
  | some c => c.hasRoom
  | none => false

/-- Whether a block can be read from a channel. -/
def hasData (t : ChannelTable α) (id : NodeId) : Bool :=
  match t[id]? with
  | some c => c.hasData
  | none => false

/-- Samples of a block of a channel. -/
def blockOf (t : ChannelTable α) (id : NodeId) : Nat :=
  match t[id]? with
  | some c => c.block
  | none => 0

/-- Change a channel. -/
def change (t : ChannelTable α) (id : NodeId) (f : Channel α → Channel α) : ChannelTable α :=
  t.modify id f

/-- Call an operation on a channel. -/
def call (t : ChannelTable α) (id : NodeId) (absent : β) (f : Channel α → β × Channel α) :
    β × ChannelTable α :=
  match t[id]? with
  | some c =>
      let (r, c) := f c
      (r, t.insert id c)
  | none => (absent, t)

/-- Close channels. -/
def closeAll (t : ChannelTable α) (ids : List NodeId) : ChannelTable α :=
  ids.foldl (fun t id => t.change id Channel.close) t

/-- Let go of the ends of channels at which one writes. -/
def dropWriters (t : ChannelTable α) (ids : List NodeId) : ChannelTable α :=
  ids.foldl (fun t id => t.change id Channel.dropWriter) t

/-- Let go of the ends of channels at which one reads. -/
def dropReaders (t : ChannelTable α) (ids : List NodeId) : ChannelTable α :=
  ids.foldl (fun t id => t.change id Channel.dropReader) t

variable [Inhabited α]

/-- Write a block to a channel if there is room. -/
def tryWrite (t : ChannelTable α) (id : NodeId) (samples : List α) :
    Except ChannelError Transfer × ChannelTable α :=
  t.call id (.error .closed) fun c => c.tryWrite samples

/-- Read a block of a channel into a buffer if there is one. -/
def tryRead (t : ChannelTable α) (id : NodeId) (out : List α) :
    Except ChannelError Transfer × List α × ChannelTable α :=
  let ((r, out), t) := t.call id (.error .closed, out) fun c =>
    let (r, out, c) := c.tryRead out
    ((r, out), c)
  (r, out, t)

end ChannelTable

end Defs

section Startup

/-- One step of starting up. -/
inductive StartAction where
  /-- The writer opens the channel. -/
  | openRing (channel : NodeId)
  /-- The reader attaches. -/
  | attach (channel : NodeId)
  /-- The writer waits for the reader. -/
  | await (channel : NodeId)
deriving DecidableEq, Repr

namespace StartAction

variable {α : Type} [Inhabited α]

/-- Take a step.  Without a result it has to wait. -/
def perform (cancelled : Bool) (a : StartAction) (t : ChannelTable α) :
    Option (Except ChannelError Unit) × ChannelTable α :=
  match a with
  | .openRing id => t.call id (some (.error .closed)) fun c =>
      let (r, c) := c.openRing
      (some r, c)
  | .attach id => t.call id (some (.error .closed)) fun c => c.attach cancelled
  | .await id => t.call id (some (.error .closed)) fun c => c.awaitAttached cancelled

/-- Take steps one after the other, up to the first that fails or has to wait. -/
def performAll (cancelled : Bool) :
    List StartAction → ChannelTable α → Option (Except ChannelError Unit) × ChannelTable α
  | [], t => (some (.ok ()), t)
  | a :: rest, t =>
      match a.perform cancelled t with
      | (some (.ok ()), t) => performAll cancelled rest t
      | stopped => stopped

end StartAction

end Startup

end Dataflow
