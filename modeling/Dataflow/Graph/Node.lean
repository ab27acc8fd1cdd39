import Dataflow.ElemType
import Dataflow.Ident
import Dataflow.Rate

/-!
# Nodes, ports and arcs

The parts of a hierarchical dataflow graph.  A node is a leaf or a container.  Leaves compute
(primitives), change the rate of samples at the edge of a clock domain, buffer blocks between two
partitions (channels) or talk to the outside.  Containers are plain subsystems and clock domains;
they list what they hold by number.

**Numbers.**  Neither a node nor an arc holds its own number: a graph keeps both in tables by
number.
-/

namespace Dataflow

section Ports

/-- A port of a node. -/
structure Port where
  /-- What its samples are, when known. -/
  ty : Option ElemType := none
deriving DecidableEq, Repr

/-- Address of a port: a node and a position in its list of inputs or outputs. -/
structure PortRef where
  node : NodeId
  port : UInt32
deriving DecidableEq, Repr

/-- Written form of a port address. -/
def PortRef.text (p : PortRef) : String := toString p.node ++ "." ++ toString p.port.toNat

/-- Where an arc ends. -/
inductive ArcSink where
  | port (p : PortRef)
  /-- Nowhere: the source is deliberately not consumed. -/
  | unconnected
deriving DecidableEq, Repr

/-- A connection from an output port. -/
structure Arc where
  src : PortRef
  dst : ArcSink
  ty : Option ElemType := none
  /-- Declared base ticks for one sample. -/
  period : Option Rate := none
deriving DecidableEq, Repr

namespace Arc

/-- The input port at the end of an arc. -/
def dstPort (a : Arc) : Option PortRef :=
  match a.dst with
  | .port p => some p
  | .unconnected => none

/-- The node at the end of an arc. -/
def dstNode (a : Arc) : Option NodeId := a.dstPort.map PortRef.node

/-- Whether an arc starts or ends at a node. -/
def touches (a : Arc) (id : NodeId) : Bool := a.src.node = id || a.dstNode = some id

end Arc

end Ports

section Kinds

/-- Ways to change the rate of samples. -/
inductive RateChangeKind where
  /-- Keep one sample of several. -/
  | downsample
  /-- Insert samples. -/
  | upsample
  /-- Hold every sample for several ticks. -/
  | hold
deriving DecidableEq, Repr

/-- A change of rate at the edge of a clock domain. -/
structure RateChange where
  kind : RateChangeKind
  ratio : UInt32
deriving DecidableEq, Repr

/-- Name of a way to change the rate. -/
def RateChangeKind.text : RateChangeKind → String
  | .downsample => "downsample"
  | .upsample => "upsample"
  | .hold => "repeat"

/-- The rate that a change applies to the samples that cross it. -/
def RateChange.rate (c : RateChange) : Rate :=
  match c.kind with
  | .downsample => .downsample c.ratio
  | .upsample => .upsample c.ratio
  | .hold => .upsample c.ratio

/-- Written form. -/
def RateChange.text (c : RateChange) : String := c.kind.text ++ "-by-" ++ toString c.ratio.toNat

/-- Size and place of a channel. -/
structure ChannelSpec where
  /-- Elements that it holds. -/
  capacity : UInt32
  /-- Elements of one transfer. -/
  blockSize : UInt32
  /-- The clock domain whose rate sizes the block; `none` is the base domain. -/
  domain : Option NodeId := none
deriving DecidableEq, Repr

/-- Which way samples of a bundle go. -/
inductive IoDirection where
  /-- Into the graph. -/
  | input
  /-- Out of the graph. -/
  | output
deriving DecidableEq, Repr

/-- Name of a direction. -/
def IoDirection.text : IoDirection → String
  | .input => "in"
  | .output => "out"

instance : ToString IoDirection := ⟨IoDirection.text⟩

/-- One member of a named bundle of external ports. -/
structure IoEndpoint where
  bundle : String
  direction : IoDirection
  member : UInt32
deriving DecidableEq, Repr

/-- What a node is. -/
inductive NodeKind where
  | primitive (op : String)
  | subsystem (children : List NodeId)
  | clockDomain (rate : Rate) (children boundaries : List NodeId)
  | rateInput (change : RateChange)
  | rateOutput (change : RateChange)
  | channel (spec : ChannelSpec)
  | externalIo (endpoint : IoEndpoint)
deriving DecidableEq, Repr

namespace NodeKind

/-- Whether a node of this kind holds other nodes. -/
def isContainer : NodeKind → Bool
  | subsystem _ => true
  | clockDomain .. => true
  | _ => false

/-- Whether a node of this kind is a clock domain. -/
def isDomain : NodeKind → Bool
  | clockDomain .. => true
  | _ => false

/-- Whether a node of this kind changes the rate of samples. -/
def isRateChange : NodeKind → Bool
  | rateInput _ => true
  | rateOutput _ => true
  | _ => false

/-- Whether a node of this kind is a channel. -/
def isChannel : NodeKind → Bool
  | channel _ => true
  | _ => false

/-- Whether a node of this kind talks to the outside. -/
def isExternalIo : NodeKind → Bool
  | externalIo _ => true
  | _ => false

/-- The size of a channel. -/
def channelSpec? : NodeKind → Option ChannelSpec
  | channel spec => some spec
  | _ => none

/-- The bundle member of a node that talks to the outside. -/
def endpoint? : NodeKind → Option IoEndpoint
  | externalIo endpoint => some endpoint
  | _ => none

/-- The local rate of a clock domain. -/
def rate? : NodeKind → Option Rate
  | clockDomain rate _ _ => some rate
  | _ => none

/-- Name of a kind, as messages use it. -/
def title : NodeKind → String
  | primitive _ => "primitive"
  | subsystem _ => "subsystem"
  | clockDomain .. => "clock domain"
  | rateInput _ => "rate-change input"
  | rateOutput _ => "rate-change output"
  | channel _ => "channel"
  | externalIo _ => "external I/O boundary"

/-- The nodes that a container lists, boundaries last. -/
def members : NodeKind → List NodeId
  | subsystem children => children
  | clockDomain _ children boundaries => children ++ boundaries
  | _ => []

/-- A container that also lists `id`, among its boundaries if it has some and `boundary` holds. -/
def adopt (boundary : Bool) (id : NodeId) : NodeKind → NodeKind
  | subsystem children => subsystem (children ++ [id])
  | clockDomain rate children boundaries =>
      if boundary then clockDomain rate children (boundaries ++ [id])
      else clockDomain rate (children ++ [id]) boundaries
  | kind => kind

/-- A container that no longer lists `id`. -/
def disown (id : NodeId) : NodeKind → NodeKind
  | subsystem children => subsystem (children.filter (· ≠ id))
  | clockDomain rate children boundaries =>
      clockDomain rate (children.filter (· ≠ id)) (boundaries.filter (· ≠ id))
  | kind => kind

end NodeKind

/-- A node. -/
structure Node where
  name : String
  kind : NodeKind
  inputs : List Port := []
  outputs : List Port := []
  partition : Option PartitionId := none
  /-- The container that holds it. -/
  parent : Option NodeId := none
deriving DecidableEq, Repr

/-- Whether a node holds no other nodes. -/
def Node.isLeaf (n : Node) : Bool := !n.kind.isContainer

/-- Whether a node computes inside its partition: a leaf that is no channel and no external port. -/
def Node.isInternal (n : Node) : Bool := n.isLeaf && !n.kind.isChannel && !n.kind.isExternalIo

end Kinds

end Dataflow
