import Dataflow.Plan.Synthesis
import Dataflow.Proofs.Validation.Leaves

/-!
# Descriptions of channels

A channel with one writer and a reader is described by what the graph says of it
(`describeChannel_eq_ok_iff`).  When no description fails, there is one for each channel of the
graph, in the order of their numbers (`map_node_channels`, `exists_descriptor`).
-/

namespace Dataflow

section Results

variable {ε α : Type} {l : List (Except ε α)}

theorem mem_oks {x : α} :
    x ∈ oks l ↔ .ok x ∈ l := by
  unfold oks
  rw [List.mem_filterMap]
  constructor
  · rintro ⟨y, hy, hx⟩
    cases y with
    | ok _ =>
        cases hx
        exact hy
    | error _ => cases hx
  · intro hx
    exact ⟨_, hx, rfl⟩

theorem mem_faults {e : ε} :
    e ∈ faults l ↔ .error e ∈ l := by
  unfold faults
  rw [List.mem_filterMap]
  constructor
  · rintro ⟨x, hx, he⟩
    cases x with
    | ok _ => cases he
    | error _ =>
        cases he
        exact hx
  · intro he
    exact ⟨_, he, rfl⟩

/-- Without a fault all results are values. -/
theorem eq_map_ok_of_faults :
    ∀ {l : List (Except ε α)}, faults l = [] → l = (oks l).map .ok
  | [], _ => rfl
  | .ok a :: l, h => by
      have hl : faults l = [] := h
      have ih := eq_map_ok_of_faults hl
      show Except.ok a :: l = Except.ok a :: (oks l).map .ok
      rw [← ih]
  | .error e :: l, h => by
      cases h

end Results

namespace Graph

section Readers

variable {g : Graph}

/-- The ports that a node feeds. -/
def fedPorts (g : Graph) (c : NodeId) : List PortRef :=
  (g.outgoing c).filterMap fun a => a.2.dstPort

/-- An arc leads from a node to a port. -/
def Feeds (g : Graph) (c : NodeId) (p : PortRef) : Prop :=
  ∃ id a, g.arc? id = some a ∧ a.src.node = c ∧ a.dst = .port p

theorem mem_fedPorts {c : NodeId} {p : PortRef} : p ∈ g.fedPorts c ↔ g.Feeds c p := by
  simp [fedPorts, Feeds, outgoing, Arc.dstPort_eq_some, and_assoc]

/-- No port has two arcs, so none is fed twice. -/
theorem nodup_fedPorts (hg : g.WellFormed) (c : NodeId) : (g.fedPorts c).Nodup := by
  have htargets : g.targets.Nodup := targets_nodup_iff.mpr fun _ _ _ _ _ => hg.fanIn
  exact htargets.sublist (List.filter_sublist.filterMap _)

end Readers

section Descriptions

variable {g : Graph} {a : DomainAnalysis} {id : NodeId} {n : Node} {spec : ChannelSpec}
  {d : ChannelDescriptor}

/-- What a descriptor says of a channel is what the graph says of it. -/
structure Describes (g : Graph) (a : DomainAnalysis) (id : NodeId) (n : Node) (spec : ChannelSpec)
    (d : ChannelDescriptor) : Prop where
  writer : ∃ w arc, g.Writer id w arc ∧ arc.src = d.producer
  producerPartition : g.partitionOf d.producer.node = some d.producerPartition
  consumerPartition : n.partition = some d.consumerPartition
  consumers : d.consumers = g.fedPorts id
  read : d.consumers ≠ []
  node : d.node = id
  name : d.name = n.name
  capacity : d.capacity = spec.capacity
  blockSize : d.blockSize = spec.blockSize
  elem : d.elem = n.inputs.head?.bind Port.ty
  domain : d.domain = spec.domain
  domainRate : d.domainRate = a.baseRate spec.domain

theorem describeChannel_eq_ok_iff :
    g.describeChannel a id n spec = .ok d ↔ g.Describes a id n spec d := by
  constructor
  · intro h
    unfold describeChannel at h
    dsimp only at h
    split at h
    · rename_i w arc hw
      split at h
      · cases h
      · rename_i hread
        split at h
        · rename_i producerPartition consumerPartition hproducer hconsumer
          cases h
          exact {
            writer := ⟨w, arc, incoming_eq_singleton_iff.mp hw, rfl⟩
            producerPartition := hproducer
            consumerPartition := hconsumer
            consumers := rfl
            read := by simpa [List.isEmpty_iff] using hread
            node := rfl
            name := rfl
            capacity := rfl
            blockSize := rfl
            elem := rfl
            domain := rfl
            domainRate := rfl }
        · cases h
    · cases h
  · intro h
    obtain ⟨w, arc, hw, hsrc⟩ := h.writer
    have hread : (g.fedPorts id).isEmpty = false := by
      rw [← h.consumers, List.isEmpty_eq_false_iff]
      exact h.read
    unfold describeChannel
    rw [incoming_eq_singleton_iff.mpr hw]
    dsimp only
    rw [show ((g.outgoing id).filterMap fun a => a.2.dstPort) = g.fedPorts id from rfl, hread,
      hsrc, h.producerPartition, h.consumerPartition, ← h.consumers]
    obtain ⟨⟩ := d
    obtain ⟨-, -, -, -, -, rfl, rfl, rfl, rfl, rfl, rfl, rfl⟩ := h
    rfl

end Descriptions

section Tables

variable {g : Graph} {a : DomainAnalysis}

/-- The channels of a graph, with their numbers. -/
def channelNodes (g : Graph) : List (NodeId × Node) := g.nodeList.filter fun n => n.2.kind.isChannel

@[simp] theorem mem_channelNodes {id : NodeId} {n : Node} :
    (id, n) ∈ g.channelNodes ↔ g.node? id = some n ∧ n.kind.isChannel = true := by
  simp [channelNodes]

theorem isChannel_iff {c : NodeId} :
    g.isChannel c = true ↔ ∃ n, g.node? c = some n ∧ n.kind.isChannel = true := by
  unfold isChannel kindOf
  rw [Option.any_map, Option.any_eq_true]

theorem nodup_channelNodes (g : Graph) : (g.channelNodes.map Prod.fst).Nodup :=
  List.pairwise_map.mpr (g.nodeList_distinct.filter _)

theorem mem_describeChannels {r : Except Diagnostic ChannelDescriptor} :
    r ∈ g.describeChannels a ↔
      ∃ id n spec, g.node? id = some n ∧ n.kind = .channel spec ∧
        g.describeChannel a id n spec = r := by
  simp only [describeChannels, List.mem_filterMap, Prod.exists, mem_nodeList,
    Option.map_eq_some_iff, NodeKind.channelSpec?_eq_some]
  constructor
  · rintro ⟨id, n, hn, spec, hk, hr⟩
    exact ⟨id, n, spec, hn, hk, hr⟩
  · rintro ⟨id, n, spec, hn, hk, hr⟩
    exact ⟨id, n, hn, spec, hk, hr⟩

theorem mem_channels_iff {d : ChannelDescriptor} :
    d ∈ oks (g.describeChannels a) ↔
      ∃ n spec, g.node? d.node = some n ∧ n.kind = .channel spec ∧
      g.Describes a d.node n spec d := by
  rw [mem_oks, mem_describeChannels]
  constructor
  · rintro ⟨id, n, spec, hn, hk, hd⟩
    have hdesc := describeChannel_eq_ok_iff.mp hd
    cases hdesc.node
    exact ⟨n, spec, hn, hk, hdesc⟩
  · rintro ⟨n, spec, hn, hk, hd⟩
    exact ⟨d.node, n, spec, hn, hk, describeChannel_eq_ok_iff.mpr hd⟩

theorem map_node_describe :
    ∀ {l : List (NodeId × Node)},
      faults (l.filterMap fun n => n.2.kind.channelSpec?.map (g.describeChannel a n.1 n.2)) = [] →
        (oks (l.filterMap fun n => n.2.kind.channelSpec?.map (g.describeChannel a n.1 n.2))).map
          ChannelDescriptor.node = (l.filter fun n => n.2.kind.isChannel).map Prod.fst
  | [], _ => rfl
  | (id, n) :: l, h => by
      cases hk : n.kind.channelSpec? with
      | none =>
          have hno : n.kind.isChannel = false := by
            cases hkind : n.kind <;> simp_all [NodeKind.channelSpec?, NodeKind.isChannel]
          simp only [List.filterMap_cons, hk, Option.map_none] at h ⊢
          rw [List.filter_cons_of_neg (by simp [hno])]
          exact map_node_describe h
      | some spec =>
          have hyes : n.kind.isChannel = true := by
            rw [NodeKind.channelSpec?_eq_some.mp hk]
            rfl
          simp only [List.filterMap_cons, hk, Option.map_some] at h ⊢
          rw [List.filter_cons_of_pos (by simp [hyes])]
          cases hd : g.describeChannel a id n spec with
          | error e =>
              rw [hd] at h
              cases h
          | ok d =>
              rw [hd] at h
              have ih := map_node_describe (l := l) h
              rw [List.map_cons, ← ih]
              show d.node :: _ = id :: _
              rw [(describeChannel_eq_ok_iff.mp hd).node]
              rfl

/-- A descriptor for each channel, in the order of their numbers. -/
theorem map_node_channels (h : faults (g.describeChannels a) = []) :
    (oks (g.describeChannels a)).map ChannelDescriptor.node = g.channelNodes.map Prod.fst :=
  map_node_describe h

theorem exists_descriptor (h : faults (g.describeChannels a) = []) {id : NodeId} {n : Node}
    {spec : ChannelSpec} (hn : g.node? id = some n) (hk : n.kind = .channel spec) :
    ∃ d ∈ oks (g.describeChannels a), d.node = id ∧ g.Describes a id n spec d := by
  have hmem : g.describeChannel a id n spec ∈ g.describeChannels a :=
    mem_describeChannels.mpr ⟨id, n, spec, hn, hk, rfl⟩
  cases hr : g.describeChannel a id n spec with
  | error e =>
      rw [hr] at hmem
      have hin := mem_faults.mpr hmem
      rw [h] at hin
      cases hin
  | ok d =>
      rw [hr] at hmem
      have hdesc := describeChannel_eq_ok_iff.mp hr
      exact ⟨d, mem_oks.mpr hmem, hdesc.node, hdesc⟩

end Tables

end Graph
end Dataflow
