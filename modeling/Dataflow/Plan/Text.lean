import Dataflow.Graph.Document
import Dataflow.Plan.Basic

/-!
# Written plans

A plan is listed for a reader (`ProgramPlan.text`) or written as a JSON record.
-/

namespace Dataflow

section Listing

/-- A list of node numbers in brackets. -/
def idList (ids : List NodeId) : String := "[" ++ ", ".intercalate (ids.map NodeId.text) ++ "]"

/-- The line of a channel. -/
def ChannelDescriptor.line (c : ChannelDescriptor) : String :=
  let elem := (c.elem.map ElemType.text).getD "?"
  let domain := (c.domain.map NodeId.text).getD "base"
  s!"channel {c.node} '{c.name}' cap={c.capacity.toNat} block={c.blockSize.toNat} elem={elem}"
    ++ s!" domain={domain} rate={c.domainRate} {c.producerPartition} -> {c.consumerPartition}\n"

/-- The line of a unit. -/
def UnitPlan.line (u : UnitPlan) : String :=
  let locals := if u.locals.isEmpty then "" else " local " ++ idList u.locals
  s!"unit {u.partition}: in {idList u.inputs} out {idList u.outputs}" ++ locals
    ++ s!" nodes {idList u.nodes}\n"

/-- The line of a member of a bundle. -/
def BundleMember.line (m : BundleMember) : String :=
  s!"  [{m.member.toNat}] {m.node} {m.elem} x{m.blockSize.toNat} @{m.byteOffset} " ++
    s!"via {idList m.channels}\n"

/-- The lines of a bundle. -/
def BundlePlan.lines (b : BundlePlan) : String :=
  s!"bundle '{b.name}' {b.direction} frame={b.frameBytes}B\n"
    ++ String.join (b.members.map BundleMember.line)

/-- The listing of a plan. -/
def ProgramPlan.text (p : ProgramPlan) : String :=
  String.join (p.channels.map ChannelDescriptor.line) ++ String.join (p.units.map UnitPlan.line)
    ++ String.join (p.bundles.map BundlePlan.lines)

end Listing

section Records

/-- A channel as a record. -/
def ChannelDescriptor.toJson (c : ChannelDescriptor) : Json :=
  .object [("node", wordJson c.node.val), ("name", .text c.name), ("capacity", wordJson c.capacity),
    ("block_size", wordJson c.blockSize), ("elem", Json.orNull ElemType.toJson c.elem),
    ("domain", Json.orNull (fun d => wordJson d.val) c.domain),
    ("domain_rate", c.domainRate.toJson), ("producer", c.producer.toJson),
    ("producer_partition", wordJson c.producerPartition.val),
    ("consumers", .array (c.consumers.map PortRef.toJson)),
    ("consumer_partition", wordJson c.consumerPartition.val)]

/-- A unit as a record. -/
def UnitPlan.toJson (u : UnitPlan) : Json :=
  .object [("partition", wordJson u.partition.val), ("inputs", idsJson u.inputs),
    ("outputs", idsJson u.outputs), ("locals", idsJson u.locals), ("nodes", idsJson u.nodes),
    ("arcs", .array (u.arcs.map fun a => wordJson a.val))]

/-- A member of a bundle as a record. -/
def BundleMember.toJson (m : BundleMember) : Json :=
  .object [("member", wordJson m.member), ("node", wordJson m.node.val),
    ("channels", idsJson m.channels), ("elem", m.elem.toJson), ("block_size", wordJson m.blockSize),
    ("byte_offset", .nat m.byteOffset)]

/-- A bundle as a record. -/
def BundlePlan.toJson (b : BundlePlan) : Json :=
  .object [("name", .text b.name), ("direction", .text b.direction.text),
    ("members", .array (b.members.map BundleMember.toJson)), ("frame_bytes", .nat b.frameBytes)]

/-- The part of a plan that talks to the outside, as a record. -/
def IoPlan.toJson (io : IoPlan) : Json :=
  .object [("bundles", .array (io.bundles.map BundlePlan.toJson)),
    ("unit", Json.orNull UnitPlan.toJson io.unit)]

/-- A plan as a record. -/
def ProgramPlan.toJson (p : ProgramPlan) : Json :=
  .object [("channels", .array (p.channels.map ChannelDescriptor.toJson)),
    ("partitions", .array (p.partitions.map UnitPlan.toJson)),
    ("io", Json.orNull IoPlan.toJson p.io)]

end Records

end Dataflow
