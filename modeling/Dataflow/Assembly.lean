import Dataflow.Bridge
import Dataflow.Plan.Basic

/-!
# Assembly of programs

A plan becomes a program: its channels are made, and each end of a channel is given to the unit or
bundle that the plan names.

**Ledger.**  The ends that nobody has taken yet stand in a ledger.  An end can be taken once.  Those
left over when the program starts are let go of, which closes their channels.

**Equipment.**  Kernels come by partition and transports by bundle, and each is used once.
-/

namespace Dataflow

section Types

/-- What keeps a program from running, or from running to its end. -/
inductive ProgramError where
  | elemMismatch (channel : NodeId) (expected found : ElemType)
  | missingKernel (partition : PartitionId)
  | missingTransport (bundle : String)
  /-- An end of a channel is not there or was taken before. -/
  | endpoint (channel : NodeId)
  /-- A member of a bundle that writes does not read exactly one channel. -/
  | outputFanIn (bundle : String) (member : UInt32)
  | channel (cause : ChannelError)
  /-- A thread gave up. -/
  | trapped (thread : String)
deriving DecidableEq, Repr

/-- Wording of an error. -/
def ProgramError.message : ProgramError → String
  | .elemMismatch id expected found =>
      s!"channel {id} carries {found}, runtime samples are {expected}"
  | .missingKernel partition => s!"no kernel registered for partition {partition}"
  | .missingTransport bundle => s!"no transport registered for bundle '{bundle}'"
  | .endpoint id => s!"channel {id} endpoint is missing or claimed twice"
  | .outputFanIn bundle member =>
      s!"bundle '{bundle}' member {member.toNat} must read exactly one channel"
  | .channel cause => cause.message
  | .trapped thread => s!"thread '{thread}' panicked"

/-- The ends of a channel that nobody has taken yet. -/
structure FreeEnds where
  writer : Bool := true
  reader : Bool := true
deriving DecidableEq, Repr

/-- The free ends of all channels. -/
abbrev Ledger := Std.ExtTreeMap NodeId FreeEnds

/-- A kernel with its first state. -/
structure KernelSetup (σ : Type) (t : SampleType) where
  kernel : Kernel σ (Sample t)
  state : σ

/-- What is at hand for the assembly of a program. -/
structure Stock (σ ε : Type) (t : SampleType) where
  ledger : Ledger := ∅
  kernels : List (PartitionId × KernelSetup σ t) := []
  transports : List (String × ε) := []

/-- A program ready to run. -/
structure Program (σ ε : Type) (t : SampleType) where
  channels : ChannelTable (Sample t)
  units : List (WorkUnit σ (Sample t))
  bridge : Option (IoBridge σ ε t)
  /-- Ends of channels that nobody has taken. -/
  ledger : Ledger

end Types

section Ends

namespace Ledger

/-- Take the end of a channel at which one writes. -/
def takeWriter (l : Ledger) (id : NodeId) : Except ProgramError Ledger :=
  match l[id]? with
  | some ⟨true, reader⟩ => .ok (l.insert id ⟨false, reader⟩)
  | _ => .error (.endpoint id)

/-- Take the end of a channel at which one reads. -/
def takeReader (l : Ledger) (id : NodeId) : Except ProgramError Ledger :=
  match l[id]? with
  | some ⟨writer, true⟩ => .ok (l.insert id ⟨writer, false⟩)
  | _ => .error (.endpoint id)

/-- Take both ends of a channel. -/
def takeBoth (l : Ledger) (id : NodeId) : Except ProgramError Ledger := do
  let l ← l.takeWriter id
  l.takeReader id

/-- Let go of every end that nobody has taken. -/
def release {α : Type} (l : Ledger) (ch : ChannelTable α) : ChannelTable α :=
  let writers := l.toList.filterMap fun e => if e.2.writer then some e.1 else none
  let readers := l.toList.filterMap fun e => if e.2.reader then some e.1 else none
  (ch.dropWriters writers).dropReaders readers

end Ledger

namespace Stock

variable {σ ε : Type} {t : SampleType}

/-- Take the kernel of a partition. -/
def takeKernel (s : Stock σ ε t) (p : PartitionId) :
    Except ProgramError (KernelSetup σ t × Stock σ ε t) :=
  match s.kernels.lookup p with
  | some k => .ok (k, { s with kernels := s.kernels.filter fun e => e.1 ≠ p })
  | none => .error (.missingKernel p)

/-- Take the transport of a bundle. -/
def takeTransport (s : Stock σ ε t) (name : String) : Except ProgramError (ε × Stock σ ε t) :=
  match s.transports.lookup name with
  | some e => .ok (e, { s with transports := s.transports.filter fun e => e.1 ≠ name })
  | none => .error (.missingTransport name)

end Stock

end Ends

section Parts

variable {σ ε : Type} {t : SampleType}

/-- Every channel whose elements are known carries samples of the type of the program. -/
def ProgramPlan.checkTypes (p : ProgramPlan) (t : SampleType) : Except ProgramError Unit :=
  p.channels.forM fun c =>
    match c.elem with
    | some found =>
        if found = t.elem then .ok () else .error (.elemMismatch c.node t.elem found)
    | none => .ok ()

/-- Make the channels of a plan. -/
def makeChannels : List ChannelDescriptor → Except ProgramError (ChannelTable (Sample t) × Ledger)
  | [] => .ok (∅, ∅)
  | c :: rest => do
      let made ← match Channel.create c.name c.capacity.toNat c.blockSize.toNat with
        | .ok made => .ok made
        | .error e => .error (.channel e)
      let (channels, ledger) ← makeChannels rest
      return (channels.insertIfNew c.node made, ledger.insertIfNew c.node {})

/-- Build the unit of a plan. -/
def buildUnit (ch : ChannelTable (Sample t)) (plan : UnitPlan) (s : Stock σ ε t) :
    Except ProgramError (WorkUnit σ (Sample t) × Stock σ ε t) := do
  let (k, s) ← s.takeKernel plan.partition
  let ledger ← plan.inputs.foldlM Ledger.takeReader s.ledger
  let ledger ← plan.outputs.foldlM Ledger.takeWriter ledger
  let ledger ← plan.locals.foldlM Ledger.takeBoth ledger
  return (WorkUnit.create ch plan.partition plan.inputs plan.outputs plan.locals k.kernel k.state,
    { s with ledger })

/-- Build several units. -/
def buildUnits (ch : ChannelTable (Sample t)) : List UnitPlan → Stock σ ε t →
    Except ProgramError (List (WorkUnit σ (Sample t)) × Stock σ ε t)
  | [], s => .ok ([], s)
  | plan :: rest, s => do
      let (u, s) ← buildUnit ch plan s
      let (us, s) ← buildUnits ch rest s
      return (u :: us, s)

/-- Append members to a bundle that reads. -/
def addInputs (b : InputBundle t) : List BundleMember → Ledger →
    Except ProgramError (InputBundle t × Ledger)
  | [], l => .ok (b, l)
  | m :: rest, l => do
      let l ← m.channels.foldlM Ledger.takeWriter l
      addInputs (b.addMember m.blockSize.toNat m.channels) rest l

/-- Append members to a bundle that writes. -/
def addOutputs (ch : ChannelTable (Sample t)) (b : OutputBundle t) :
    List BundleMember → Ledger → Except ProgramError (OutputBundle t × Ledger)
  | [], l => .ok (b, l)
  | m :: rest, l =>
      match m.channels with
      | [c] => do
          let l ← l.takeReader c
          addOutputs ch (b.addMember (ch.blockOf c) c) rest l
      | _ => .error (.outputFanIn b.name m.member)

/-- Build the bundle of a plan. -/
def buildBundle (ch : ChannelTable (Sample t)) (plan : BundlePlan) (s : Stock σ ε t) :
    Except ProgramError ((ε × Bundle t) × Stock σ ε t) := do
  let (e, s) ← s.takeTransport plan.name
  match plan.direction with
  | .input =>
      let (b, ledger) ← addInputs { name := plan.name } plan.members s.ledger
      return ((e, .input b), { s with ledger })
  | .output =>
      let (b, ledger) ← addOutputs ch { name := plan.name } plan.members s.ledger
      return ((e, .output b), { s with ledger })

/-- Build several bundles. -/
def buildBundles (ch : ChannelTable (Sample t)) : List BundlePlan → Stock σ ε t →
    Except ProgramError (List (ε × Bundle t) × Stock σ ε t)
  | [], s => .ok ([], s)
  | plan :: rest, s => do
      let (b, s) ← buildBundle ch plan s
      let (bs, s) ← buildBundles ch rest s
      return (b :: bs, s)

/-- Build the bridge of a plan. -/
def buildBridge (ch : ChannelTable (Sample t)) (plan : IoPlan) (s : Stock σ ε t) :
    Except ProgramError (IoBridge σ ε t × Stock σ ε t) := do
  let (bundles, s) ← buildBundles ch plan.bundles s
  match plan.unit with
  | none => return ({ bundles }, s)
  | some u =>
      let (u, s) ← buildUnit ch u s
      return ({ bundles, unit := some u }, s)

end Parts

section Programs

variable {σ ε : Type} {t : SampleType}

/-- Assemble the program of a plan. -/
def ProgramPlan.assemble (p : ProgramPlan) (kernels : List (PartitionId × KernelSetup σ t))
    (transports : List (String × ε)) : Except ProgramError (Program σ ε t) := do
  p.checkTypes t
  let (channels, ledger) ← makeChannels p.channels
  let (units, s) ← buildUnits channels p.partitions { ledger, kernels, transports }
  match p.io with
  | none => return { channels, units, bridge := none, ledger := s.ledger }
  | some io =>
      let (bridge, s) ← buildBridge channels io s
      return { channels, units, bridge := some bridge, ledger := s.ledger }

end Programs

end Dataflow
