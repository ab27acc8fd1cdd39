import Dataflow.Bench.Script
import Dataflow.Execution

/-!
# A bench

Parts of a program can be tried out on a bench, one call at a time and nobody else doing anything.
The bench holds ends of channels and of transports, units and bundles, all by name.

**Holding.**  What is built into a unit or a bundle, or was run, is no longer held.  What is let go
of closes its channels.  A call on something that is not held is refused with its name (`Absent`).

**Calling off.**  One token calls waits off.  A call with a token of its own, which fires as soon as
the call would wait, is given as `fresh`.
-/

namespace Dataflow

section Types

/-- The name of something that is not held. -/
structure Absent where
  name : String
deriving DecidableEq, Repr

/-- A channel by its number, and which of its ends are held. -/
structure HeldChannel where
  id : NodeId
  writer : Bool := true
  reader : Bool := true
deriving DecidableEq, Repr

/-- The two ends of a channel. -/
inductive EndRole where
  | writer
  | reader
deriving DecidableEq, Repr

/-- A bench. -/
structure Bench (t : SampleType) where
  channels : ChannelTable (Sample t) := ∅
  /-- Channels made so far. -/
  made : Nat := 0
  held : List (String × HeldChannel) := []
  wires : Wires := {}
  /-- Ends of transports that are held. -/
  ends : List (String × WireEnd) := []
  /-- Ends whose written bytes can be looked at, held or not. -/
  sinks : List (String × WireEnd) := []
  units : List (String × WorkUnit (KernelState t) (Sample t)) := []
  /-- What the kernels of units have noted, the units being held or not. -/
  logs : List (String × List (List (List (Sample t)))) := []
  bundles : List (String × WireEnd × Bundle t) := []
  /-- The token was fired. -/
  cancelled : Bool := false

end Types

section Names

variable {α : Type}

/-- Give a name a new meaning. -/
def assign (l : List (String × α)) (name : String) (a : α) : List (String × α) :=
  (name, a) :: l.filter fun e => e.1 ≠ name

/-- Take the meaning from a name. -/
def forget (l : List (String × α)) (name : String) : List (String × α) :=
  l.filter fun e => e.1 ≠ name

/-- The meaning of a name. -/
def meaning (l : List (String × α)) (name : String) : Except Absent α :=
  match l.lookup name with
  | some a => .ok a
  | none => .error ⟨name⟩

end Names

namespace Bench

variable {t : SampleType} {β : Type}

section Tokens

/-- How often units are activated and bridges go round at most. -/
def patience : Nat := 1000000

/-- Whether a call finds its token fired. -/
def token (b : Bench t) (fresh : Bool) : Bool := b.cancelled && !fresh

/-- Fire the token. -/
def cancel (b : Bench t) : Bench t := { b with cancelled := true }

/-- Replace the token by a new one. -/
def newToken (b : Bench t) : Bench t := { b with cancelled := false }

/-- The result of a wait, which is called off when it does not end. -/
def settled (r : Option (Except ChannelError β)) : Except ChannelError β :=
  r.getD (.error .cancelled)

end Tokens

section Channels

/-- The number of a channel one of whose ends is held. -/
def find (b : Bench t) (role : EndRole) (name : String) : Except Absent NodeId :=
  match b.held.lookup name, role with
  | some ⟨id, true, _⟩, .writer => .ok id
  | some ⟨id, _, true⟩, .reader => .ok id
  | _, _ => .error ⟨name⟩

/-- Call an operation on a channel through one of its ends. -/
def onEnd (b : Bench t) (role : EndRole) (name : String)
    (f : Channel (Sample t) → β × Channel (Sample t)) : Except Absent β × Bench t :=
  match b.find role name with
  | .error a => (.error a, b)
  | .ok id =>
      match b.channels[id]? with
      | none => (.error ⟨name⟩, b)
      | some c =>
          let (r, c) := f c
          (.ok r, { b with channels := b.channels.insert id c })

/-- Let go of an end of a channel. -/
def letGo (b : Bench t) (role : EndRole) (id : NodeId) : Bench t :=
  match role with
  | .writer => { b with channels := b.channels.dropWriters [id] }
  | .reader => { b with channels := b.channels.dropReaders [id] }

/-- Take an end of a channel off the bench. -/
def takeEnd (b : Bench t) (role : EndRole) (name : String) : Except Absent NodeId × Bench t :=
  match b.held.lookup name, b.find role name with
  | some h, .ok id =>
      let h := match role with
        | .writer => { h with writer := false }
        | .reader => { h with reader := false }
      (.ok id, { b with held := assign b.held name h })
  | _, _ => (.error ⟨name⟩, b)

/-- Take several ends.  When one is not held those before it are let go of. -/
def takeEnds (b : Bench t) : List (EndRole × String) → Except Absent (List NodeId) × Bench t
  | [] => (.ok [], b)
  | (role, name) :: rest =>
      match b.takeEnd role name with
      | (.error a, b) => (.error a, b)
      | (.ok id, b) =>
          match takeEnds b rest with
          | (.ok ids, b) => (.ok (id :: ids), b)
          | (.error a, b) => (.error a, b.letGo role id)

/-- Let go of an end of a channel by its name; whether it was held. -/
def dropEnd (b : Bench t) (role : EndRole) (name : String) : Bool × Bench t :=
  match b.takeEnd role name with
  | (.ok id, b) => (true, b.letGo role id)
  | (.error _, b) => (false, b)

/-- Make a channel, whose sides have met already if `attached`. -/
def makeChannel (b : Bench t) (name : String) (capacity block : Nat) (attached : Bool) :
    Except ChannelError Unit × Bench t :=
  let made : Except ChannelError (Channel (Sample t)) :=
    if attached then Channel.createAttached name capacity block
    else Channel.create name capacity block
  match made with
  | .error e => (.error e, b)
  | .ok c =>
      let b := (b.dropEnd .writer name).2
      let b := (b.dropEnd .reader name).2
      let id : NodeId := ⟨.ofNat b.made⟩
      (.ok (),
        { b with
          channels := b.channels.insert id c
          made := b.made + 1
          held := assign b.held name { id } })

/-- The channel of a name, with the end through which it is seen: that of the writer if it is
held. -/
def sight (b : Bench t) (name : String) : Option (EndRole × Channel (Sample t)) :=
  match b.held.lookup name with
  | none => none
  | some h =>
      if h.writer then (b.channels[h.id]?).map fun c => (.writer, c)
      else if h.reader then (b.channels[h.id]?).map fun c => (.reader, c)
      else none

/-- The channel of a name, if a given end of it is held. -/
def seen (b : Bench t) (role : EndRole) (name : String) : Option (Channel (Sample t)) :=
  match b.find role name with
  | .ok id => b.channels[id]?
  | .error _ => none

end Channels

section Waits

/-- The reader of a channel attaches. -/
def attach (b : Bench t) (fresh : Bool) (name : String) :
    Except Absent (Except ChannelError Unit) × Bench t :=
  b.onEnd .reader name fun c =>
    let (r, c) := c.attach (b.token fresh)
    (settled r, c)

/-- The writer of a channel waits for the reader. -/
def awaitAttached (b : Bench t) (fresh : Bool) (name : String) :
    Except Absent (Except ChannelError Unit) × Bench t :=
  b.onEnd .writer name fun c =>
    let (r, c) := c.awaitAttached (b.token fresh)
    (settled r, c)

/-- Write a block, waiting for room. -/
def writeBlocking (b : Bench t) (fresh : Bool) (name : String) (samples : List (Sample t)) :
    Except Absent (Except ChannelError Unit) × Bench t :=
  b.onEnd .writer name fun c =>
    let (r, s) := Channel.writeBlocking samples [] ⟨c, b.token fresh⟩
    (settled r, s.channel)

/-- Read a block, waiting for one. -/
def readBlocking (b : Bench t) (fresh : Bool) (name : String) (out : List (Sample t)) :
    Except Absent (Except ChannelError Unit × List (Sample t)) × Bench t :=
  b.onEnd .reader name fun c =>
    let (r, out, s) := Channel.readBlocking out [] ⟨c, b.token fresh⟩
    ((settled r, out), s.channel)

end Waits

end Bench

end Dataflow
