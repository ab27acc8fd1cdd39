import Dataflow.Graph.Basic
import Dataflow.Json.Decode
import Dataflow.Json.Writer
import Dataflow.Policy

/-!
# Graph documents

A graph is exchanged as a JSON document: its nodes, its arcs and, if there is one, the policy
for its channels.

**Writing.**  Nodes and arcs stand in the order of their numbers, members in a fixed order, absent
options as `null`.  The fields of a kind stand beside those of its node, after the name of the kind.

**Reading.**  Members of a record may come in any order and unknown ones are passed over; a record
other than a node may also be an array.  A number that occurs twice is refused.  Counters then move
past the numbers in use.
-/

namespace Dataflow

section Types

/-- The content of a graph document. -/
structure Document where
  nodes : List (NodeId × Node)
  arcs : List (ArcId × Arc)
  policy : Option ChannelPolicy := none
deriving DecidableEq, Repr

/-- Why a document gives no graph. -/
inductive ImportError where
  /-- The text is no graph document. -/
  | malformed (flaw : Flaw)
  | duplicateNode (id : NodeId)
  | duplicateArc (id : ArcId)
  /-- No number is left after those in use. -/
  | exhausted (trap : Trap)
deriving DecidableEq, Repr

/-- Wording of an import error. -/
def ImportError.message : ImportError → String
  | .malformed flaw => "malformed graph document: " ++ flaw.category
  | .duplicateNode id => "duplicate node id " ++ toString id
  | .duplicateArc id => "duplicate arc id " ++ toString id
  | .exhausted trap => trap.message

end Types

section Writing

/-- A 32-bit word as a number. -/
def wordJson (w : UInt32) : Json := .nat w.toNat

/-- Name of a numeric kind. -/
def NumericKind.text : NumericKind → String
  | .bool => "bool"
  | .int => "int"
  | .float => "float"
  | .complex => "complex"

/-- An element type as a record. -/
def ElemType.toJson (t : ElemType) : Json :=
  .object [("kind", .text t.kind.text), ("bits", .nat t.bits.toNat), ("signed", .bool t.signed),
    ("dims", .array (t.dims.map wordJson))]

/-- A rate as a record. -/
def Rate.toJson (r : Rate) : Json := .object [("up", wordJson r.up), ("down", wordJson r.down)]

/-- A port as a record. -/
def Port.toJson (p : Port) : Json := .object [("ty", Json.orNull ElemType.toJson p.ty)]

/-- A port address as a record. -/
def PortRef.toJson (p : PortRef) : Json :=
  .object [("node", wordJson p.node.val), ("port", wordJson p.port)]

/-- The end of an arc as a choice. -/
def ArcSink.toJson : ArcSink → Json
  | .port p => .object [("port", p.toJson)]
  | .unconnected => .text "unconnected"

/-- An arc as a record. -/
def Arc.toJson (id : ArcId) (a : Arc) : Json :=
  .object [("id", wordJson id.val), ("src", a.src.toJson), ("dst", a.dst.toJson),
    ("ty", Json.orNull ElemType.toJson a.ty), ("period", Json.orNull Rate.toJson a.period)]

/-- A list of node numbers. -/
def idsJson (ids : List NodeId) : Json := .array (ids.map fun i => wordJson i.val)

/-- Name of a kind in documents. -/
def NodeKind.tag : NodeKind → String
  | .primitive _ => "primitive"
  | .subsystem _ => "subsystem"
  | .clockDomain .. => "clock_domain"
  | .rateInput _ => "rate_change_input"
  | .rateOutput _ => "rate_change_output"
  | .channel _ => "channel"
  | .externalIo _ => "external_io"

/-- Fields of a kind. -/
def NodeKind.fields : NodeKind → List (String × Json)
  | .primitive op => [("op", .text op)]
  | .subsystem children => [("children", idsJson children)]
  | .clockDomain rate children boundaries =>
      [("rate", rate.toJson), ("children", idsJson children), ("boundaries", idsJson boundaries)]
  | .rateInput change => [("kind", .text change.kind.text), ("ratio", wordJson change.ratio)]
  | .rateOutput change => [("kind", .text change.kind.text), ("ratio", wordJson change.ratio)]
  | .channel spec =>
      [("capacity", wordJson spec.capacity), ("block_size", wordJson spec.blockSize),
        ("domain", Json.orNull (fun d => wordJson d.val) spec.domain)]
  | .externalIo ep =>
      [("bundle", .text ep.bundle), ("direction", .text ep.direction.text),
        ("member", wordJson ep.member)]

/-- A node as a record. -/
def Node.toJson (id : NodeId) (n : Node) : Json :=
  .object ([("id", wordJson id.val), ("name", .text n.name), ("type", .text n.kind.tag)]
    ++ n.kind.fields
    ++ [("inputs", .array (n.inputs.map Port.toJson)),
      ("outputs", .array (n.outputs.map Port.toJson)),
      ("partition", Json.orNull (fun p => wordJson p.val) n.partition),
      ("parent", Json.orNull (fun p => wordJson p.val) n.parent)])

/-- A policy as a record. -/
def ChannelPolicy.toJson (p : ChannelPolicy) : Json :=
  .object [("base_block_size", wordJson p.baseBlockSize),
    ("capacity_multiplier", wordJson p.capacityMultiplier), ("share_fanout", .bool p.shareFanout)]

/-- A graph document as a record. -/
def Document.toJson (d : Document) : Json :=
  .object ([("nodes", .array (d.nodes.map fun n => n.2.toJson n.1)),
      ("arcs", .array (d.arcs.map fun a => a.2.toJson a.1))]
    ++ (d.policy.map fun p => ("policy", p.toJson)).toList)

end Writing

section Reading

/-- A node number. -/
def Json.nodeId (j : Json) : Decoded NodeId := j.word.map NodeId.mk

/-- An arc number. -/
def Json.arcId (j : Json) : Decoded ArcId := j.word.map ArcId.mk

/-- A partition label. -/
def Json.partitionId (j : Json) : Decoded PartitionId := j.word.map PartitionId.mk

/-- A numeric kind. -/
def Json.numericKind (j : Json) : Decoded NumericKind :=
  j.name .text [("bool", .bool), ("int", .int), ("float", .float), ("complex", .complex)]

/-- Fields of an element type met so far. -/
structure ElemTypeFields where
  kind : Option NumericKind := none
  bits : Option UInt16 := none
  signed : Option Bool := none
  dims : Option (List UInt32) := none

/-- An element type. -/
def Json.elemType : Json → Decoded ElemType
  | .obj fields => do
      let step (s : ElemTypeFields) (k : String) (v : Json) : Option (Decoded ElemTypeFields) :=
        match k with
        | "kind" => some do return { s with kind := ← fillOnce s.kind Json.numericKind v }
        | "bits" => some do return { s with bits := ← fillOnce s.bits Json.halfWord v }
        | "signed" => some do return { s with signed := ← fillOnce s.signed Json.flag v }
        | "dims" => some do return { s with dims := ← fillOnce s.dims (Json.list Json.word) v }
        | _ => none
      let s ← fields.visit step {}
      return { kind := ← required s.kind, bits := ← required s.bits,
               signed := s.signed.getD false, dims := s.dims.getD [] }
  | .arr items => do
      let (kind, items) ← items.next Json.numericKind
      let (bits, items) ← items.next Json.halfWord
      let (signed, items) ← items.nextOr false Json.flag
      let (dims, items) ← items.nextOr [] (Json.list Json.word)
      items.close .text
      return { kind, bits, signed, dims }
  | j => .error j.misfit

/-- Fields of a rate met so far. -/
structure RateFields where
  up : Option UInt32 := none
  down : Option UInt32 := none

/-- A rate. -/
def Json.rate (origin : Origin) : Json → Decoded Rate
  | .obj fields => do
      let step (s : RateFields) (k : String) (v : Json) : Option (Decoded RateFields) :=
        match k with
        | "up" => some do return { s with up := ← fillOnce s.up Json.word v }
        | "down" => some do return { s with down := ← fillOnce s.down Json.word v }
        | _ => none
      let s ← fields.visit step {}
      return { up := ← required s.up, down := ← required s.down }
  | .arr items => do
      let (up, items) ← items.next Json.word
      let (down, items) ← items.next Json.word
      items.close origin
      return { up, down }
  | j => .error j.misfit

/-- Field of a port met so far. -/
structure PortFields where
  ty : Option (Option ElemType) := none

/-- A port. -/
def Json.port : Json → Decoded Port
  | .obj fields => do
      let step (s : PortFields) (k : String) (v : Json) : Option (Decoded PortFields) :=
        match k with
        | "ty" => some do return { s with ty := ← fillOnce s.ty (Json.optional Json.elemType) v }
        | _ => none
      let s ← fields.visit step {}
      return { ty := s.ty.getD none }
  | .arr items => do
      let (ty, items) ← items.nextOr none (Json.optional Json.elemType)
      items.close .text
      return { ty }
  | j => .error j.misfit

/-- Fields of a port address met so far. -/
structure PortRefFields where
  node : Option NodeId := none
  port : Option UInt32 := none

/-- A port address. -/
def Json.portRef : Json → Decoded PortRef
  | .obj fields => do
      let step (s : PortRefFields) (k : String) (v : Json) : Option (Decoded PortRefFields) :=
        match k with
        | "node" => some do return { s with node := ← fillOnce s.node Json.nodeId v }
        | "port" => some do return { s with port := ← fillOnce s.port Json.word v }
        | _ => none
      let s ← fields.visit step {}
      return { node := ← required s.node, port := ← required s.port }
  | .arr items => do
      let (node, items) ← items.next Json.nodeId
      let (port, items) ← items.next Json.word
      items.close .text
      return { node, port }
  | j => .error j.misfit

/-- The end of an arc. -/
def Json.arcSink (j : Json) : Decoded ArcSink :=
  j.choice .text
    (fun
      | "unconnected" => .ok .unconnected
      | _ => .error .shape)
    (fun s v =>
      match s with
      | "unconnected" => do
          v.vacant .text
          return .unconnected
      | "port" => v.portRef.map .port
      | _ => .error .shape)

/-- Fields of an arc met so far. -/
structure ArcFields where
  id : Option ArcId := none
  src : Option PortRef := none
  dst : Option ArcSink := none
  ty : Option (Option ElemType) := none
  period : Option (Option Rate) := none

/-- An arc with its number. -/
def Json.arc : Json → Decoded (ArcId × Arc)
  | .obj fields => do
      let step (s : ArcFields) (k : String) (v : Json) : Option (Decoded ArcFields) :=
        match k with
        | "id" => some do return { s with id := ← fillOnce s.id Json.arcId v }
        | "src" => some do return { s with src := ← fillOnce s.src Json.portRef v }
        | "dst" => some do return { s with dst := ← fillOnce s.dst Json.arcSink v }
        | "ty" => some do return { s with ty := ← fillOnce s.ty (Json.optional Json.elemType) v }
        | "period" => some do
            return { s with period := ← fillOnce s.period (Json.optional (Json.rate .text)) v }
        | _ => none
      let s ← fields.visit step {}
      let id ← required s.id
      return (id, { src := ← required s.src, dst := ← required s.dst, ty := s.ty.getD none,
                    period := s.period.getD none })
  | .arr items => do
      let (id, items) ← items.next Json.arcId
      let (src, items) ← items.next Json.portRef
      let (dst, items) ← items.next Json.arcSink
      let (ty, items) ← items.nextOr none (Json.optional Json.elemType)
      let (period, items) ← items.nextOr none (Json.optional (Json.rate .text))
      items.close .text
      return (id, { src, dst, ty, period })
  | j => .error j.misfit

/-- The fields that a node holds beside its own, in the order of the text. -/
abbrev KindBuffer := List (String × Json)

/-- The only member with a key; `none` when there is none, a flaw when there are several. -/
def KindBuffer.find? (buffer : KindBuffer) (key : String) : Decoded (Option Json) :=
  match buffer.filter (·.1 = key) with
  | [] => .ok none
  | [(_, v)] => .ok (some v)
  | _ => .error .shape

/-- A field of a kind that has to be there. -/
def KindBuffer.get {α : Type} (buffer : KindBuffer) (key : String) (decode : Json → Decoded α) :
    Decoded α := do
  match ← buffer.find? key with
  | some v => decode v
  | none => .error .shape

/-- A field of a kind, or a default. -/
def KindBuffer.getOr {α : Type} (buffer : KindBuffer) (key : String) (default : α)
    (decode : Json → Decoded α) : Decoded α := do
  match ← buffer.find? key with
  | some v => decode v
  | none => .ok default

/-- Names of the kinds, in order. -/
def kindTags : List String :=
  ["primitive", "subsystem", "clock_domain", "rate_change_input", "rate_change_output", "channel",
    "external_io"]

/-- The name of a kind, which may also be given by its position. -/
def Json.kindTag : Json → Decoded String
  | .str (some s) => if s ∈ kindTags then .ok s else .error .shape
  | .num (.natural n) =>
      match kindTags[n]? with
      | some s => .ok s
      | none => .error .shape
  | _ => .error .shape

/-- A change of rate, from the fields of a node. -/
def KindBuffer.rateChange (buffer : KindBuffer) : Decoded RateChange := do
  let kind ← buffer.get "kind"
    (Json.name .buffer [("downsample", .downsample), ("upsample", .upsample), ("repeat", .hold)])
  let ratio ← buffer.get "ratio" Json.word
  return { kind, ratio }

/-- A kind, from the fields of a node. -/
def KindBuffer.kind (buffer : KindBuffer) : Decoded NodeKind := do
  let ids := Json.list Json.nodeId
  match ← buffer.get "type" Json.kindTag with
  | "primitive" => return .primitive (← buffer.get "op" Json.string)
  | "subsystem" => return .subsystem (← buffer.getOr "children" [] ids)
  | "clock_domain" =>
      return .clockDomain (← buffer.get "rate" (Json.rate .buffer))
        (← buffer.getOr "children" [] ids) (← buffer.getOr "boundaries" [] ids)
  | "rate_change_input" => return .rateInput (← buffer.rateChange)
  | "rate_change_output" => return .rateOutput (← buffer.rateChange)
  | "channel" =>
      return .channel
        { capacity := ← buffer.get "capacity" Json.word
          blockSize := ← buffer.get "block_size" Json.word
          domain := ← buffer.getOr "domain" none (Json.optional Json.nodeId) }
  | "external_io" =>
      return .externalIo
        { bundle := ← buffer.get "bundle" Json.string
          direction := ← buffer.get "direction"
            (Json.name .buffer [("in", .input), ("out", .output)])
          member := ← buffer.get "member" Json.word }
  | _ => .error .shape

/-- Fields of a node met so far; those of its kind wait until the node is complete. -/
structure NodeFields where
  id : Option NodeId := none
  name : Option String := none
  inputs : Option (List Port) := none
  outputs : Option (List Port) := none
  partition : Option (Option PartitionId) := none
  parent : Option (Option NodeId) := none
  kind : KindBuffer := []

/-- Containers that a field of a kind may nest: a document nests at most 127, three of which are the
document, its list of nodes and the node. -/
def kindRoom : Nat := 124

/-- A node with its number. -/
def Json.node : Json → Decoded (NodeId × Node)
  | .obj fields => do
      let step (s : NodeFields) (k : String) (v : Json) : Option (Decoded NodeFields) :=
        match k with
        | "id" => some do return { s with id := ← fillOnce s.id Json.nodeId v }
        | "name" => some do return { s with name := ← fillOnce s.name Json.string v }
        | "inputs" => some do
            return { s with inputs := ← fillOnce s.inputs (Json.list Json.port) v }
        | "outputs" => some do
            return { s with outputs := ← fillOnce s.outputs (Json.list Json.port) v }
        | "partition" => some do
            return { s with partition := ← fillOnce s.partition (Json.optional Json.partitionId) v }
        | "parent" => some do
            return { s with parent := ← fillOnce s.parent (Json.optional Json.nodeId) v }
        | _ => some do
            v.check kindRoom
            return { s with kind := s.kind ++ [(k, v)] }
      let s ← fields.visit step {}
      let id ← required s.id
      let name ← required s.name
      let kind ← s.kind.kind
      return (id, { name, kind, inputs := s.inputs.getD [], outputs := s.outputs.getD [],
                    partition := s.partition.getD none, parent := s.parent.getD none })
  | j => .error j.misfit

/-- Fields of a policy met so far. -/
structure PolicyFields where
  baseBlockSize : Option UInt32 := none
  capacityMultiplier : Option UInt32 := none
  shareFanout : Option Bool := none

/-- A policy.  Every field has a default. -/
def Json.policy : Json → Decoded ChannelPolicy
  | .obj fields => do
      let step (s : PolicyFields) (k : String) (v : Json) : Option (Decoded PolicyFields) :=
        match k with
        | "base_block_size" => some do
            return { s with baseBlockSize := ← fillOnce s.baseBlockSize Json.word v }
        | "capacity_multiplier" => some do
            return { s with capacityMultiplier := ← fillOnce s.capacityMultiplier Json.word v }
        | "share_fanout" => some do
            return { s with shareFanout := ← fillOnce s.shareFanout Json.flag v }
        | _ => none
      let s ← fields.visit step {}
      return ({} : ChannelPolicy).override
        { blockSize := s.baseBlockSize, capacityMultiplier := s.capacityMultiplier,
          shareFanout := s.shareFanout }
  | .arr items => do
      let default : ChannelPolicy := {}
      let (baseBlockSize, items) ← items.nextOr default.baseBlockSize Json.word
      let (capacityMultiplier, items) ← items.nextOr default.capacityMultiplier Json.word
      let (shareFanout, items) ← items.nextOr default.shareFanout Json.flag
      items.close .text
      return { baseBlockSize, capacityMultiplier, shareFanout }
  | j => .error j.misfit

/-- Fields of a document met so far. -/
structure DocumentFields where
  nodes : Option (List (NodeId × Node)) := none
  arcs : Option (List (ArcId × Arc)) := none
  policy : Option (Option ChannelPolicy) := none

/-- A graph document. -/
def Json.document : Json → Decoded Document
  | .obj fields => do
      let step (s : DocumentFields) (k : String) (v : Json) : Option (Decoded DocumentFields) :=
        match k with
        | "nodes" => some do return { s with nodes := ← fillOnce s.nodes (Json.list Json.node) v }
        | "arcs" => some do return { s with arcs := ← fillOnce s.arcs (Json.list Json.arc) v }
        | "policy" => some do
            return { s with policy := ← fillOnce s.policy (Json.optional Json.policy) v }
        | _ => none
      let s ← fields.visit step {}
      return { nodes := ← required s.nodes, arcs := ← required s.arcs,
               policy := s.policy.getD none }
  | .arr items => do
      let (nodes, items) ← items.next (Json.list Json.node)
      let (arcs, items) ← items.next (Json.list Json.arc)
      let (policy, items) ← items.nextOr none (Json.optional Json.policy)
      items.close .text
      return { nodes, arcs, policy }
  | j => .error j.misfit

end Reading

section Exchange

namespace Graph

/-- The document of a graph. -/
def toDocument (g : Graph) (policy : Option ChannelPolicy) : Document where
  nodes := g.nodeList
  arcs := g.arcList
  policy := policy

/-- A table of the given nodes, unless a number occurs twice. -/
def insertNodes : NodeTable → List (NodeId × Node) → Except ImportError NodeTable
  | table, [] => .ok table
  | table, (id, n) :: rest =>
      if table.contains id then .error (.duplicateNode id) else insertNodes (table.insert id n) rest

/-- A table of the given arcs, unless a number occurs twice. -/
def insertArcs : ArcTable → List (ArcId × Arc) → Except ImportError ArcTable
  | table, [] => .ok table
  | table, (id, a) :: rest =>
      if table.contains id then .error (.duplicateArc id) else insertArcs (table.insert id a) rest

/-- The graph of a document. -/
def ofDocument (d : Document) : Except ImportError Graph := do
  let nodes ← insertNodes ∅ d.nodes
  let arcs ← insertArcs ∅ d.arcs
  match h : ({} : IdSupply).reserve nodes.maxKey? arcs.maxKey? with
  | .ok ids =>
      return {
        nodes, arcs, ids
        node_lt := lt_of_maxKey? NodeId.isLE_compare.mp (IdSupply.reserve_lt h).1
        arc_lt := lt_of_maxKey? ArcId.isLE_compare.mp (IdSupply.reserve_lt h).2 }
  | .error trap => .error (.exhausted trap)

/-- The graph and the policy of a text. -/
def ofText (text : String) : Except ImportError (Graph × Option ChannelPolicy) :=
  match decodeText Json.document text with
  | .error flaw => .error (.malformed flaw)
  | .ok d => do
      let g ← ofDocument d
      return (g, d.policy)

/-- The document of a graph, without blanks. -/
def toCompact (g : Graph) (policy : Option ChannelPolicy) : String :=
  (g.toDocument policy).toJson.compact

/-- The document of a graph, over several lines. -/
def toPretty (g : Graph) (policy : Option ChannelPolicy) : String :=
  (g.toDocument policy).toJson.pretty

end Graph

end Exchange

end Dataflow
