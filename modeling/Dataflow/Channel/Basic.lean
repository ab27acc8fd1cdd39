import Dataflow.Trap

/-!
# Channels

A channel takes samples from one writer to one reader, a block at a time and in order.

**Life.**  A channel starts uninitialized.  The writer opens it, which allocates the ring and
raises the signal `ready`; the reader waits for that signal, makes the channel steady and raises
the signal `attached`, for which the writer waits in turn.  Either side may close the channel at
any time, and letting go of an end closes it too.  A closed channel takes no more blocks, and hands
out those it has.

**Ring.**  `available` samples lie in the ring from the reading cursor on.  The writer only adds to
them and the reader only takes from them.

**Signals.**  A signal is raised once and received once.  A signal that was given up without having
been raised is lost, and one who waits for it learns that the channel is closed.
-/

namespace Dataflow

section Types

/-- Stages in the life of a channel. -/
inductive ChannelState where
  | uninitialized
  | attaching
  | steady
  | closed
deriving DecidableEq, Repr

/-- Name of a stage. -/
def ChannelState.text : ChannelState → String
  | .uninitialized => "uninitialized"
  | .attaching => "attaching"
  | .steady => "steady"
  | .closed => "closed"

/-- A signal that one side sends to the other once. -/
inductive Signal where
  /-- Not raised yet. -/
  | idle
  /-- Raised and not received yet. -/
  | raised
  | received
  /-- Given up without having been raised. -/
  | lost
deriving DecidableEq, Repr

/-- Give a signal up: it is lost unless it was raised before. -/
def Signal.abandon : Signal → Signal
  | .idle => .lost
  | s => s

/-- What keeps a call on a channel from succeeding. -/
inductive ChannelError where
  | closed
  /-- A wait was called off. -/
  | cancelled
  | blockSize (expected got : Nat)
  | notAttached
  | invalidConfig (capacity block : Nat)
deriving DecidableEq, Repr

/-- Wording of an error. -/
def ChannelError.message : ChannelError → String
  | .closed => "channel closed"
  | .cancelled => "wait cancelled"
  | .blockSize expected got => s!"block of {got} elements, channel transfers {expected}"
  | .notAttached => "channel not attached"
  | .invalidConfig capacity block => s!"capacity {capacity} cannot hold a block of {block}"

/-- Outcome of an attempt to move a block. -/
inductive Transfer where
  /-- The block was moved. -/
  | done
  /-- There was no room or no block, and nothing was moved. -/
  | wouldBlock
deriving DecidableEq, Repr

/-- A channel, with what both of its sides know. -/
structure Channel (α : Type) where
  name : String
  /-- Samples that the ring holds. -/
  capacity : Nat
  /-- Samples of one block. -/
  block : Nat
  /-- The ring, once it was allocated. -/
  ring : Option (Array α) := none
  /-- Samples written and not read yet. -/
  available : Nat := 0
  state : ChannelState := .uninitialized
  /-- Where the writer goes on. -/
  writeAt : Nat := 0
  /-- Where the reader goes on. -/
  readAt : Nat := 0
  /-- The writer has allocated the ring. -/
  ready : Signal := .idle
  /-- The reader has attached. -/
  attached : Signal := .idle
deriving DecidableEq, Repr

end Types

section Rings

variable {α : Type}

/-- Write samples into a ring from a position on, around its end. -/
def writeRing (ring : Array α) (start : Nat) : List α → Array α
  | [] => ring
  | x :: rest => writeRing (ring.setIfInBounds (start % ring.size) x) (start + 1) rest

/-- Read samples from a ring from a position on, around its end. -/
def readRing [Inhabited α] (ring : Array α) (start : Nat) : Nat → List α
  | 0 => []
  | n + 1 => ring.getD (start % ring.size) default :: readRing ring (start + 1) n

end Rings

namespace Channel

section Creation

variable {α : Type}

/-- A new channel.  It has to hold a block, and a block must not be empty. -/
def create (name : String) (capacity block : Nat) : Except ChannelError (Channel α) :=
  if block = 0 ∨ capacity < block then .error (.invalidConfig capacity block)
  else .ok { name, capacity, block }

/-- Whether a channel is closed. -/
def isClosed (c : Channel α) : Bool := c.state = .closed

/-- Whether the writer can write a block. -/
def hasRoom (c : Channel α) : Bool := c.state = .steady && c.block ≤ c.capacity - c.available

/-- Whether the reader can read a block, also after the channel was closed. -/
def hasData (c : Channel α) : Bool :=
  (c.state = .steady || c.state = .closed) && c.block ≤ c.available

end Creation

section Writer

variable {α : Type} [Inhabited α]

/-- Allocate the ring and tell the reader.  Later calls do nothing. -/
def openRing (c : Channel α) : Except ChannelError Unit × Channel α :=
  if c.ready = .idle then
    let c := { c with ring := some (c.ring.getD (.replicate c.capacity default)) }
    if c.state = .uninitialized then
      (.ok (), { c with state := .attaching, ready := .raised })
    else
      (.error .closed, { c with ready := .lost })
  else if c.isClosed then (.error .closed, c)
  else (.ok (), c)

/-- Look for the signal that the reader has attached. -/
def seekAttached (c : Channel α) : Except ChannelError (Option Unit) × Channel α :=
  match c.attached with
  | .idle => (.ok none, c)
  | .raised => (.ok (some ()), { c with attached := .received })
  | .received => (.error .closed, c)
  | .lost => (.error .closed, c)

/-- Write a block if there is room. -/
def tryWrite (c : Channel α) (samples : List α) : Except ChannelError Transfer × Channel α :=
  if samples.length ≠ c.block then (.error (.blockSize c.block samples.length), c)
  else
    match c.state with
    | .steady =>
        if c.capacity - c.available < c.block then (.ok .wouldBlock, c)
        else
          match c.ring with
          | none => (.error .notAttached, c)
          | some ring =>
              (.ok .done,
                { c with
                  ring := some (writeRing ring c.writeAt samples)
                  writeAt := (c.writeAt + c.block) % c.capacity
                  available := c.available + c.block })
    | .closed => (.error .closed, c)
    | _ => (.error .notAttached, c)

end Writer

section Reader

variable {α : Type} [Inhabited α]

/-- Look for the signal that the ring is there and, when it is, complete the meeting. -/
def seekReady (c : Channel α) : Except ChannelError (Option Unit) × Channel α :=
  match c.ready with
  | .idle => (.ok none, c)
  | .raised =>
      if c.state = .attaching then
        (.ok (some ()), { c with state := .steady, ready := .received, attached := .raised })
      else
        (.error .closed, { c with ready := .received, attached := .lost })
  | .received => (.error .closed, c)
  | .lost => (.error .closed, c)

/-- Read a block into a buffer if there is one.  Otherwise the buffer keeps what it holds. -/
def tryRead (c : Channel α) (out : List α) : Except ChannelError Transfer × List α × Channel α :=
  if out.length ≠ c.block then (.error (.blockSize c.block out.length), out, c)
  else if c.available < c.block then
    match c.state with
    | .steady => (.ok .wouldBlock, out, c)
    | .closed => (.error .closed, out, c)
    | _ => (.error .notAttached, out, c)
  else
    match c.ring with
    | none => (.error .notAttached, out, c)
    | some ring =>
        (.ok .done, readRing ring c.readAt c.block,
          { c with
            readAt := (c.readAt + c.block) % c.capacity
            available := c.available - c.block })

end Reader

section Endings

variable {α : Type}

/-- Close a channel for good. -/
def close (c : Channel α) : Channel α := { c with state := .closed }

/-- The writer lets go of its end. -/
def dropWriter (c : Channel α) : Channel α := { c.close with ready := c.ready.abandon }

/-- The reader lets go of its end. -/
def dropReader (c : Channel α) : Channel α := { c.close with attached := c.attached.abandon }

end Endings

end Channel

end Dataflow
