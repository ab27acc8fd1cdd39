import Dataflow.Validation.References

/-!
# Ports, channels, partitions and bundles

The rules for single nodes and ports: one arc at most into an input port, as many ports as the kind
asks for, channels that hold a block, leaves with a partition, and bundles whose members are
distinct and go one way.
-/

namespace Dataflow
namespace Graph

section FanIn

/-- The input ports at which arcs end, in the order of the arcs. -/
def targets (g : Graph) : List PortRef := g.arcList.filterMap fun a => a.2.dstPort

/-- Order of port addresses: by node, then by position. -/
def portLe (p q : PortRef) : Bool :=
  p.node.val < q.node.val || (p.node = q.node && p.port ≤ q.port)

/-- Input ports with more than one incoming arc. -/
def fanInFaults (g : Graph) : List Diagnostic :=
  let ports := (g.targets.mergeSort portLe).eraseReps
  ports.filterMap fun p =>
    let count := g.targets.count p
    if count ≤ 1 then none
    else some (structural .fanIn (some p.node)
      (s!"input port {p.port.toNat} of {g.label p.node} has {count} incoming arcs " ++
        "(at most one allowed)"))

end FanIn

section Ports

/-- What the ports of a node should be, when they are something else. -/
def portRule? (n : Node) : Option String :=
  let ins := n.inputs.length
  let outs := n.outputs.length
  let expect (ok : Bool) (rule : String) : Option String := if ok then none else some rule
  match n.kind with
  | .subsystem _ => expect (ins = 0 && outs = 0) "no ports"
  | .clockDomain .. => expect (ins = 0 && outs = 0) "no ports"
  | .rateInput _ => expect (ins = 1 && outs = 1) "exactly 1 input and 1 output"
  | .channel _ => expect (ins = 1 && outs = 1) "exactly 1 input and 1 output"
  | .rateOutput _ => expect (ins ≠ 0 && outs = 1) "at least 1 input and exactly 1 output"
  | .externalIo ep =>
      match ep.direction with
      | .input => expect (ins = 0 && outs = 1) "0 inputs and 1 output"
      | .output => expect (ins = 1 && outs = 0) "1 input and 0 outputs"
  | .primitive _ => none

/-- Nodes with the wrong number of ports. -/
def cardinalityFaults (g : Graph) : List Diagnostic :=
  g.nodeList.filterMap fun (id, n) =>
    (portRule? n).map fun rule =>
      structural .cardinality (some id)
        (s!"{n.kind.title} {g.label id} has {n.inputs.length} inputs " ++
          s!"and {n.outputs.length} outputs; expected {rule}")

/-- Channels that cannot hold a block, or whose block is empty. -/
def channelFaults (g : Graph) : List Diagnostic :=
  g.nodeList.filterMap fun (id, n) =>
    n.kind.channelSpec?.bind fun spec =>
      if spec.blockSize = 0 ∨ spec.capacity < spec.blockSize then
        some { structural .channelSize (some id)
            (s!"channel {g.label id} has capacity {spec.capacity.toNat} " ++
              s!"and block size {spec.blockSize.toNat}") with
          hint := some "a channel must hold at least one non-empty block" }
      else none

/-- Leaves without a partition, and external ports outside the partition for them. -/
def partitionFaults (g : Graph) : List Diagnostic :=
  g.nodeList.filterMap fun (id, n) =>
    if !n.isLeaf then none
    else
      match n.partition with
      | none =>
          some { structural .noPartition (some id) s!"{g.label id} has no partition label" with
            hint := some "run partition assignment before channel insertion" }
      | some p =>
          if n.kind.isExternalIo && !p.isIo then
            some (structural .ioPartition (some id)
              s!"external I/O node {g.label id} is in partition {p}, not the I/O partition")
          else none

end Ports

section Bundles

/-- The members of bundles, in the order of their nodes. -/
def endpoints (g : Graph) : List (NodeId × IoEndpoint) :=
  g.nodeList.filterMap fun n => n.2.kind.endpoint?.map fun ep => (n.1, ep)

/-- A member that was declared before; `earlier` holds the declarations before it, last first. -/
def duplicateMember (g : Graph) (earlier : List (NodeId × IoEndpoint)) (id : NodeId)
    (ep : IoEndpoint) : List Diagnostic :=
  match earlier.find? fun e => e.2.bundle = ep.bundle && e.2.member = ep.member with
  | none => []
  | some (first, _) =>
      [{ structural .duplicateMember (some id)
          (s!"bundle '{ep.bundle}' member {ep.member.toNat} " ++
            s!"is declared by both {g.label first} and {g.label id}") with
        related := [(first, "first declared here")] }]

/-- A member that goes another way than the first of its bundle. -/
def mixedDirection (g : Graph) (earlier : List (NodeId × IoEndpoint)) (id : NodeId)
    (ep : IoEndpoint) : List Diagnostic :=
  match earlier.reverse.find? fun e => e.2.bundle = ep.bundle with
  | none => []
  | some (first, other) =>
      if other.direction = ep.direction then []
      else [{ structural .bundleDirection (some id)
          (s!"bundle '{ep.bundle}' mixes input and output members " ++
            s!"({g.label first} is {other.direction}, {g.label id} is {ep.direction})") with
        related := [(first, "bundle direction fixed here")] }]

/-- Faults of the declarations that follow those in `earlier`. -/
def bundleFaultsFrom (g : Graph) :
    List (NodeId × IoEndpoint) → List (NodeId × IoEndpoint) → List Diagnostic
  | _, [] => []
  | earlier, (id, ep) :: rest =>
      g.duplicateMember earlier id ep ++ g.mixedDirection earlier id ep
        ++ g.bundleFaultsFrom ((id, ep) :: earlier) rest

/-- Members declared twice and bundles that go both ways. -/
def bundleFaults (g : Graph) : List Diagnostic := g.bundleFaultsFrom [] g.endpoints

end Bundles

end Graph
end Dataflow
