import Dataflow.Channel.Basic
import Dataflow.Polling

/-!
# Waiting on channels

Calls that wait for the other side of a channel.  Each is run against the moves that others make
while it waits (`pollUntil`); they see the channel and whether the wait was called off, and so may
change both.  Without a result the call still waits.
-/

namespace Dataflow

section Scenes

/-- A channel and whether waits on it are called off. -/
structure Scene (α : Type) where
  channel : Channel α
  cancelled : Bool := false
deriving DecidableEq, Repr

variable {α β : Type}

namespace Scene

/-- An attempt on the channel of a scene. -/
def attempt (f : Channel α → Except ChannelError (Option β) × Channel α) (s : Scene α) :
    Except ChannelError (Option β) × Scene α :=
  let (r, c) := f s.channel
  (r, { s with channel := c })

/-- Wait for an attempt on the channel to succeed. -/
def await (f : Channel α → Except ChannelError (Option β) × Channel α)
    (moves : List (Scene α → Scene α)) (s : Scene α) : Option (Except ChannelError β) × Scene α :=
  pollUntil Scene.cancelled .cancelled (attempt f) moves s

/-- An attempt on the channel of a scene and on a buffer that only the caller sees. -/
def attemptInto (f : List α → Channel α → Except ChannelError (Option β) × List α × Channel α)
    (held : List α × Scene α) : Except ChannelError (Option β) × List α × Scene α :=
  let (r, out, c) := f held.1 held.2.channel
  (r, out, { held.2 with channel := c })

/-- Wait for an attempt on the channel and a buffer to succeed.  An attempt goes on with the buffer
that the one before has left. -/
def awaitInto (f : List α → Channel α → Except ChannelError (Option β) × List α × Channel α)
    (moves : List (Scene α → Scene α)) (out : List α) (s : Scene α) :
    Option (Except ChannelError β) × List α × Scene α :=
  pollUntil (fun held => held.2.cancelled) .cancelled (attemptInto f)
    (moves.map fun move held => (held.1, move held.2)) (out, s)

end Scene

end Scenes

namespace Channel

variable {α : Type} [Inhabited α]

section Meeting

/-- The reader waits for the ring and completes the meeting.  Once its signal is spent, it only
looks at the stage of the channel. -/
def attachAmong (moves : List (Scene α → Scene α)) (s : Scene α) :
    Option (Except ChannelError Unit) × Scene α :=
  if s.channel.attached = .idle then s.await seekReady moves
  else
    match s.channel.state with
    | .steady | .closed => (some (.ok ()), s)
    | _ => (some (.error .notAttached), s)

/-- The writer waits for the reader to attach. -/
def awaitAttachedAmong (moves : List (Scene α → Scene α)) (s : Scene α) :
    Option (Except ChannelError Unit) × Scene α :=
  if s.channel.attached = .received then (some (.ok ()), s)
  else if s.channel.ready = .idle then (some (.error .notAttached), s)
  else s.await seekAttached moves

/-- The reader attaches, or waits as long as nobody else does anything. -/
def attach (cancelled : Bool) (c : Channel α) : Option (Except ChannelError Unit) × Channel α :=
  let (r, s) := attachAmong [] ⟨c, cancelled⟩
  (r, s.channel)

/-- The writer meets the reader, or waits as long as nobody else does anything. -/
def awaitAttached (cancelled : Bool) (c : Channel α) :
    Option (Except ChannelError Unit) × Channel α :=
  let (r, s) := awaitAttachedAmong [] ⟨c, cancelled⟩
  (r, s.channel)

/-- A new channel whose two sides have met. -/
def createAttached (name : String) (capacity block : Nat) : Except ChannelError (Channel α) := do
  let c ← create name capacity block
  let (_, c) := c.openRing
  let (_, c) := c.attach false
  let (_, c) := c.awaitAttached false
  return c

end Meeting

section Transfers

/-- An attempt to write, as part of a wait. -/
def writeAttempt (samples : List α) (c : Channel α) :
    Except ChannelError (Option Unit) × Channel α :=
  match c.tryWrite samples with
  | (.ok .done, c) => (.ok (some ()), c)
  | (.ok .wouldBlock, c) => (.ok none, c)
  | (.error e, c) => (.error e, c)

/-- An attempt to read into a buffer, as part of a wait. -/
def readAttempt (out : List α) (c : Channel α) :
    Except ChannelError (Option Unit) × List α × Channel α :=
  match c.tryRead out with
  | (.ok .done, out, c) => (.ok (some ()), out, c)
  | (.ok .wouldBlock, out, c) => (.ok none, out, c)
  | (.error e, out, c) => (.error e, out, c)

/-- Write a block, waiting for room. -/
def writeBlocking (samples : List α) (moves : List (Scene α → Scene α)) (s : Scene α) :
    Option (Except ChannelError Unit) × Scene α :=
  s.await (writeAttempt samples) moves

/-- Read a block into a buffer, waiting for one. -/
def readBlocking (out : List α) (moves : List (Scene α → Scene α)) (s : Scene α) :
    Option (Except ChannelError Unit) × List α × Scene α :=
  s.awaitInto readAttempt moves out

end Transfers

end Channel

end Dataflow
