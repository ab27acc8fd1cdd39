import Dataflow.Graph.Nesting

/-!
# Crossings

Which arcs have to ride a channel, and how two clock domains lie to each other.

An arc may stay a direct connection when it ends nowhere, when it already touches a channel, or when
it stays inside one partition and one clock domain.  An arc at a node that changes the rate may also
go from one domain to the next.
-/

namespace Dataflow

section Defs

/-- Why an arc has to ride a channel. -/
inductive Crossing where
  /-- Its ends are in different partitions. -/
  | partition
  /-- Its ends are in different clock domains with nothing between that changes the rate. -/
  | domain
  /-- One of its ends talks to the outside. -/
  | externalIo
deriving DecidableEq, Repr

/-- Name of a reason. -/
def Crossing.text : Crossing → String
  | .partition => "partition"
  | .domain => "domain"
  | .externalIo => "external_io"

/-- Why an arc has to ride a channel, if it has to. -/
def Graph.crossing? (g : Graph) (a : Arc) : Option Crossing := do
  let dst ← a.dstPort
  let src ← g.node? a.src.node
  let target ← g.node? dst.node
  if src.kind.isChannel || target.kind.isChannel then
    none
  else if src.kind.isExternalIo || target.kind.isExternalIo then
    some .externalIo
  else if src.partition ≠ target.partition then
    some .partition
  else if src.kind.isRateChange || target.kind.isRateChange then
    none
  else if g.enclosingDomain a.src.node ≠ g.enclosingDomain dst.node then
    some .domain
  else
    none

/-- Whether an arc starts or ends at a channel. -/
def Graph.atChannel (g : Graph) (a : Arc) : Bool :=
  g.isChannel a.src.node || a.dstNode.any g.isChannel

/-- How two clock domains lie to each other. -/
inductive DomainRelation where
  | same
  | parentChild
  | siblings
  | distant
deriving DecidableEq, Repr

/-- Name of a relation. -/
def DomainRelation.text : DomainRelation → String
  | .same => "same"
  | .parentChild => "parent_child"
  | .siblings => "siblings"
  | .distant => "distant"

/-- How two clock domains lie to each other; `none` is the base domain. -/
def Graph.relation (g : Graph) (a b : Option NodeId) : DomainRelation :=
  let outerA := a.bind g.enclosingDomain
  let outerB := b.bind g.enclosingDomain
  if a = b then .same
  else if (a.isSome && outerA = b) || (b.isSome && outerB = a) then .parentChild
  else if a.isSome && b.isSome && outerA = outerB then .siblings
  else .distant

/-- Partition labels of leaves, in increasing order and each once. -/
def Graph.partitions (g : Graph) : List PartitionId :=
  let labels := g.nodeList.filterMap fun n => if n.2.isLeaf then n.2.partition else none
  (labels.mergeSort fun a b => a.val ≤ b.val).eraseReps

end Defs

end Dataflow
