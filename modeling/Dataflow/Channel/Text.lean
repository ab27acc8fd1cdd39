import Dataflow.Channel.Basic
import Dataflow.Text.Quoted

/-!
# Ends of channels in writing

A line about one end of a channel, for people who look for a fault.
-/

namespace Dataflow

section Defs

/-- Name of a stage, with a capital. -/
def ChannelState.title : ChannelState → String
  | .uninitialized => "Uninitialized"
  | .attaching => "Attaching"
  | .steady => "Steady"
  | .closed => "Closed"

/-- The line about the end of a channel. -/
def Channel.endText {α : Type} (role : String) (c : Channel α) : String :=
  s!"{role} \x7b name: {quoted c.name}, state: {c.state.title}, available: {c.available}, "
    ++ s!"capacity: {c.capacity}, block_size: {c.block} \x7d"

end Defs

end Dataflow
