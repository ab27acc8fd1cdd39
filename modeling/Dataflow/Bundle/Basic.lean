import Dataflow.Channel.Basic
import Dataflow.Transport.Basic

/-!
# Bundles

A bundle stands between a transport and some channels.  It keeps two buffers, a frame on the side of
the transport and a block for each member on the side of the channels, each full or empty.  A step
moves data between the two where one is full and the other empty, and between each buffer and its
own side where that side is ready, so that a slow side never holds up the other.
-/

namespace Dataflow

section Defs

/-- Outcome of a step. -/
inductive BundleStep where
  | progress
  | idle
  /-- No more data will move. -/
  | ended
deriving DecidableEq, Repr

/-- The outcome of a step that goes on. -/
def BundleStep.ofMoved (moved : Bool) : BundleStep := if moved then .progress else .idle

/-- What keeps a bundle from going on. -/
inductive BridgeError where
  | transport (bundle : String) (cause : TransportError)
  | channel (bundle : String) (cause : ChannelError)
deriving DecidableEq, Repr

/-- Wording of an error. -/
def BridgeError.message : BridgeError → String
  | .transport bundle cause => s!"bundle '{bundle}': {cause.message}"
  | .channel bundle cause => s!"bundle '{bundle}': {cause.message}"

/-- A transfer that was looked at before and so has to be done. -/
def expectDone : Except ChannelError Transfer → Except ChannelError Unit
  | .ok .done => .ok ()
  | .ok .wouldBlock => .error .notAttached
  | .error e => .error e

end Defs

end Dataflow
