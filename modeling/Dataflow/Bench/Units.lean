import Dataflow.Bench.Wires

/-!
# Units and bundles on the bench
-/

namespace Dataflow

namespace Bench

variable {t : SampleType}

section Units

/-- Let go of a unit by its name; whether it was held. -/
def dropUnit (b : Bench t) (name : String) : Bool × Bench t :=
  match b.units.lookup name with
  | none => (false, b)
  | some u => (true, { b with units := forget b.units name, channels := u.drop b.channels })

/-- Build a unit from ends of channels. -/
def makeUnit (b : Bench t) (name : String) (partition : PartitionId)
    (inputs outputs locals : List String) (script : KernelScript) : Except Absent Unit × Bench t :=
  let roles := inputs.map (fun c => (.reader, c)) ++ outputs.map (fun c => (.writer, c))
    ++ locals.flatMap fun c => [(.writer, c), (.reader, c)]
  let number (c : String) : NodeId := ((b.held.lookup c).map HeldChannel.id).getD ⟨0⟩
  match b.takeEnds roles with
  | (.error a, b) => (.error a, b)
  | (.ok _, b) =>
      let b := (b.dropUnit name).2
      let k : KernelSetup (KernelState t) t := script.setup
      let u := WorkUnit.create b.channels partition (inputs.map number) (outputs.map number)
        (locals.map number) k.kernel k.state
      (.ok (), { b with units := assign b.units name u, logs := assign b.logs name [] })

/-- Take steps of the startup of a unit. -/
def startUnit (b : Bench t) (fresh : Bool) (name : String)
    (actions : WorkUnit (KernelState t) (Sample t) → List StartAction) :
    Except Absent (Except UnitExit Unit) × Bench t :=
  match meaning b.units name with
  | .error a => (.error a, b)
  | .ok u =>
      let (r, channels) := WorkUnit.runActions (b.token fresh) (actions u) b.channels
      (.ok (r.getD (.error .cancelled)), { b with channels })

/-- Attempt to activate a unit. -/
def activate (b : Bench t) (name : String) :
    Except Trap (Except Absent (Activation × Nat × PartitionId) × Bench t) := do
  match meaning b.units name with
  | .error a => return (.error a, b)
  | .ok u =>
      let (r, u, channels) ← u.tryActivate b.channels
      return (.ok (r, u.activations, u.partition),
        { b with
          channels
          units := assign b.units name u
          logs := assign b.logs name u.state.log })

/-- Run a unit to its end. -/
def runUnit (b : Bench t) (fresh : Bool) (name : String) :
    Except Trap (Except Absent UnitReport × Bench t) := do
  match meaning b.units name with
  | .error a => return (.error a, b)
  | .ok u =>
      let (exit, u, channels) ← u.run (b.token fresh) .cancelled patience b.channels
      return (.ok (u.report exit),
        { b with
          channels := u.drop channels
          units := forget b.units name
          logs := assign b.logs name u.state.log })

/-- What the kernel of a unit has noted. -/
def log (b : Bench t) (name : String) : Except Absent (List (List (List (Sample t)))) :=
  meaning b.logs name

end Units

section Bundles

/-- Let go of a bundle by its name; whether it was held. -/
def dropBundle (b : Bench t) (name : String) : Bool × Bench t :=
  match b.bundles.lookup name with
  | none => (false, b)
  | some (e, bundle) =>
      (true,
        { b with
          bundles := forget b.bundles name
          channels := bundle.drop b.channels
          wires := b.wires.drop e })

/-- Build a bundle from the end of a transport and ends of channels. -/
def makeBundle (b : Bench t) (name wire : String) (roles : List (EndRole × String))
    (build : ChannelTable (Sample t) → (String → NodeId) → Bundle t) :
    Except Absent (Bundle t) × Bench t :=
  let number (c : String) : NodeId := ((b.held.lookup c).map HeldChannel.id).getD ⟨0⟩
  match meaning b.ends wire with
  | .error a => (.error a, b)
  | .ok e =>
      let b := { b with ends := forget b.ends wire }
      match b.takeEnds roles with
      | (.error a, b) => (.error a, { b with wires := b.wires.drop e })
      | (.ok _, b) =>
          let b := (b.dropBundle name).2
          let bundle := build b.channels number
          (.ok bundle, { b with bundles := assign b.bundles name (e, bundle) })

/-- Build a bundle that reads.  Each member has a block size and channels. -/
def makeInput (b : Bench t) (name wire : String) (members : List (Nat × List String)) :
    Except Absent (Bundle t) × Bench t :=
  b.makeBundle name wire (members.flatMap fun m => m.2.map fun c => (.writer, c))
    fun _ number => .input
      (members.foldl (fun bundle m => bundle.addMember m.1 (m.2.map number)) { name })

/-- Build a bundle that writes.  Each member has a channel. -/
def makeOutput (b : Bench t) (name wire : String) (members : List String) :
    Except Absent (Bundle t) × Bench t :=
  b.makeBundle name wire (members.map fun c => (.reader, c))
    fun ch number => .output
      (members.foldl (fun bundle c => bundle.addMember (ch.blockOf (number c)) (number c)) { name })

/-- One step of a bundle. -/
def stepBundle (b : Bench t) (name : String) :
    Except Absent (Except BridgeError BundleStep × Bundle t) × Bench t :=
  match meaning b.bundles name with
  | .error a => (.error a, b)
  | .ok (e, bundle) =>
      let (r, bundle, channels, wires) := bundle.step (Wires.transport e) b.channels b.wires
      (.ok (r, bundle), { b with channels, wires, bundles := assign b.bundles name (e, bundle) })

/-- Take steps of the startup of a bundle. -/
def startBundle (b : Bench t) (fresh : Bool) (name : String)
    (actions : Bundle t → List StartAction) :
    Except Absent (Except ChannelError Unit) × Bench t :=
  match meaning b.bundles name with
  | .error a => (.error a, b)
  | .ok (_, bundle) =>
      let (r, channels) := StartAction.performAll (b.token fresh) (actions bundle) b.channels
      (.ok (settled r), { b with channels })

/-- End a bundle. -/
def closeBundle (b : Bench t) (name : String) : Except Absent Unit × Bench t :=
  match meaning b.bundles name with
  | .error a => (.error a, b)
  | .ok (e, bundle) =>
      let (bundle, channels) := bundle.close b.channels
      (.ok (), { b with channels, bundles := assign b.bundles name (e, bundle) })

end Bundles

section Bridges

/-- Take bundles off the bench.  When one is not held those before it are let go of. -/
def takeBundles (b : Bench t) :
    List String → Except Absent (List (WireEnd × Bundle t)) × Bench t
  | [] => (.ok [], b)
  | name :: rest =>
      match meaning b.bundles name with
      | .error a => (.error a, b)
      | .ok bundle =>
          match takeBundles { b with bundles := forget b.bundles name } rest with
          | (.ok bundles, b) => (.ok (bundle :: bundles), b)
          | (.error a, b) =>
              (.error a,
                { b with
                  channels := bundle.2.drop b.channels
                  wires := b.wires.drop bundle.1 })

/-- Let go of everything that a bridge holds. -/
def releaseBridge (b : Bench t) (br : IoBridge (KernelState t) WireEnd t) : Bench t :=
  let (channels, wires) := BridgeThread.release br b.channels b.wires
  { b with channels, wires }

/-- Run bundles and perhaps a unit as a bridge. -/
def runBridge (b : Bench t) (fresh : Bool) (bundles : List String) (unit : Option String) :
    Except Trap (Except Absent BridgeReport × Bench t) := do
  match b.takeBundles bundles with
  | (.error a, b) => return (.error a, b)
  | (.ok bundles, b) =>
      let found : Except Absent (Option (WorkUnit (KernelState t) (Sample t))) :=
        match unit with
        | none => .ok none
        | some name => (meaning b.units name).map some
      match found with
      | .error a => return (.error a, b.releaseBridge { bundles })
      | .ok u =>
          let br : IoBridge (KernelState t) WireEnd t := { bundles, unit := u }
          let (exit, br, channels, wires) ←
            br.run Wires.transport (b.token fresh) .cancelled b.wires.answers patience
              b.channels b.wires
          let b := { b with channels, wires }.releaseBridge br
          let b := match unit, br.unit with
            | some name, some u =>
                { b with units := forget b.units name, logs := assign b.logs name u.state.log }
            | _, _ => b
          return (.ok (br.report exit), b)

end Bridges

end Bench

end Dataflow
