import Dataflow.Proofs.Insertion.Certificate
import Dataflow.Proofs.Insertion.Sharing
import Dataflow.Proofs.Insertion.WellFormed
import Dataflow.Proofs.Plan.Certificate

/-!
# Plans for inserted channels

When a graph without channels is given all its channels by insertion, the description of its
channels can be read off the record of insertion: they come in the order of the record, each is
written by the port that its arcs leave, and it has the type of the first of them
(`Records.map_view`).
-/

namespace Dataflow

/-- The type of the samples that an arc carries. -/
def Graph.arcType (g : Graph) (i : ArcId) : Option ElemType :=
  (g.arc? i).bind fun arc => arc.ty.or (g.outputType arc.src)

namespace Insertion

section Members

variable {g : Graph} {a : DomainAnalysis} {p : ChannelPolicy} {s : Insertion}

/-- Insertion adds no member of a bundle. -/
theorem Extends.ioNodes_eq (h : Extends g a p s) : s.graph.ioNodes = g.ioNodes := by
  have hordered : ∀ g : Graph, g.ioNodes.Pairwise fun x y => x.1.val < y.1.val := by
    intro g
    refine g.nodeList_ordered.filterMap _ ?_
    intro x y hxy u hu v hv
    obtain ⟨_, -, rfl⟩ := Option.map_eq_some_iff.mp hu
    obtain ⟨_, -, rfl⟩ := Option.map_eq_some_iff.mp hv
    exact hxy
  refine Graph.eq_of_ordered (fun x => x.1.val) (hordered _) (hordered _) ?_
  rintro ⟨id, ep⟩
  rw [mem_ioNodes, mem_ioNodes]
  constructor
  · rintro ⟨n', hn', hk⟩
    cases hold : g.node? id with
    | some n =>
        obtain ⟨more, hn, -⟩ := h.old hold
        cases hn'.symm.trans hn
        exact ⟨n, rfl, NodeKind.withChildren_eq_externalIo.mp hk⟩
    | none =>
        -- a node that is new is a channel
        obtain ⟨key, hroute⟩ := mem_channels.mp (h.new hn' hold)
        obtain ⟨-, _, _, _, _, -, hnode⟩ := h.channel hroute
        cases hn'.symm.trans hnode
        cases hk
  · rintro ⟨n, hn, hk⟩
    obtain ⟨more, hn', -⟩ := h.old hn
    exact ⟨_, hn', NodeKind.withChildren_eq_externalIo.mpr hk⟩

theorem Extends.bundleGroups_eq (h : Extends g a p s) : s.graph.bundleGroups = g.bundleGroups := by
  unfold Graph.bundleGroups Graph.bundleNames
  rw [h.ioNodes_eq]
  refine List.filterMap_congr ?_
  intro name _
  unfold Graph.bundleGroup?
  rw [h.ioNodes_eq]

theorem Extends.isExternalIo_eq (h : Extends g a p s) {id : NodeId} {n : Node}
    (hn : g.node? id = some n) : s.graph.isExternalIo id = g.isExternalIo id := by
  obtain ⟨more, hn', -⟩ := h.old hn
  simp [Graph.isExternalIo, Graph.kindOf, hn, hn']

end Members

section Entries

variable {g : Graph} {a : DomainAnalysis} {p : ChannelPolicy} {s : Insertion}
  {e : ShareKey × InsertedChannel}

/-- In a graph that had no channels every channel is on record. -/
theorem Extends.exists_entry (h : Extends g a p s) (hfree : ∀ id, g.isChannel id = false)
    {c : NodeId} {n : Node} (hn : s.graph.node? c = some n) (hk : n.kind.isChannel = true) :
    ∃ e ∈ s.entries, e.2.channel = c := by
  have hnew : g.node? c = none := by
    by_contra hold
    obtain ⟨m, hm⟩ := Option.ne_none_iff_exists'.mp hold
    obtain ⟨more, hm', -⟩ := h.old hm
    cases hn.symm.trans hm'
    have hno := hfree c
    simp only [Graph.isChannel, Graph.kindOf, hm, Option.map_some, Option.any_some] at hno
    rw [Node.kind_withChildren, NodeKind.isChannel_withChildren, hno] at hk
    cases hk
  obtain ⟨key, hroute⟩ := mem_channels.mp (h.new hn hnew)
  obtain ⟨e, he, heq⟩ := List.mem_map.mp hroute
  cases heq
  exact ⟨e, he, rfl⟩

/-- A channel on record feeds the ends of the arcs on its record. -/
theorem Records.feeds (h : Records g a p s) (he : e ∈ s.entries) {i : ArcId} (hi : i ∈ e.2.arcs)
    {arc : Arc} {dst : PortRef} {key : ShareKey} {capacity : UInt32}
    (hneeds : g.Needs a p i arc dst key capacity) : s.graph.Feeds e.2.channel dst := by
  obtain ⟨arc', dst', cap', j, hneeds', hj⟩ := h.delivered e he i hi
  obtain ⟨rfl, rfl, -⟩ := needs_unique hneeds hneeds'
  exact ⟨j, _, hj, rfl, hneeds.ends⟩

/-- Whatever a channel on record feeds is the end of an arc with the needs on record. -/
theorem Progress.needs_of_feeds (hrun : Progress g a p g.crossings [] s) (hrec : Records g a p s)
    (hg : g.ReferencesExist) (he : e ∈ s.entries) {q : PortRef}
    (hq : s.graph.Feeds e.2.channel q) :
    ∃ i arc capacity, i ∈ s.carried ∧ g.Needs a p i arc q e.1 capacity := by
  obtain ⟨j, d, hd, hsrc, hdst⟩ := hq
  have hnew := (hrun.trace.channel (mem_routes_of_mem he)).1
  cases hrun.trace.fate hd with
  | kept hold _ =>
      obtain ⟨n, hn, -⟩ := hg.source hold
      rw [hsrc, hnew] at hn
      cases hn
  | enters _ _ hneeds =>
      obtain ⟨n, hn, -⟩ := hg.source hneeds.arc_eq
      rw [show _ = e.2.channel from hsrc, hnew] at hn
      cases hn
  | @leaves arc dst key capacity c i hroute hi hneeds =>
      obtain ⟨f, hf, heq⟩ := List.mem_map.mp hroute
      cases heq
      cases hrec.eq_of_channel hf he hsrc
      cases hneeds.ends.symm.trans hdst
      exact ⟨i, arc, capacity, hi, hneeds⟩

end Entries

section Descriptions

variable {g : Graph} {a : DomainAnalysis} {p : ChannelPolicy} {s : Insertion}
  {e : ShareKey × InsertedChannel}

/-- Every channel on record can be described. -/
theorem Records.describes (h : Records g a p s) (htrace : Extends g a p s) (hg : g.WellFormed)
    (he : e ∈ s.entries) :
    ∃ n spec d, s.graph.node? e.2.channel = some n ∧ n.kind = .channel spec ∧
      s.graph.Describes a e.2.channel n spec d := by
  obtain ⟨i, rest, arc, dst, capacity, harcs, hneeds, hnode⟩ := h.lead e he
  obtain ⟨w, b, hw, hsrc⟩ := htrace.writer (mem_routes_of_mem he)
  obtain ⟨n, hn, hlt⟩ := hg.source hneeds.arc_eq
  obtain ⟨l, hl⟩ := hg.exists_partition hn (by omega)
  have hpartition : s.graph.partitionOf e.1.src.node = some l := by
    rw [hneeds.starts, htrace.keepsNodes.partitionOf_eq hn]
    exact hl
  have hread : s.graph.fedPorts e.2.channel ≠ [] := by
    refine List.ne_nil_of_mem (Graph.mem_fedPorts.mpr (h.feeds he ?_ hneeds))
    rw [harcs]
    exact List.mem_cons_self
  refine ⟨_, _,
    { node := e.2.channel, name := g.channelName arc.src dst, capacity, blockSize := e.1.block
      elem := arc.ty.or (g.outputType arc.src), domain := e.1.domain
      domainRate := a.baseRate e.1.domain, producer := e.1.src, producerPartition := l
      consumers := s.graph.fedPorts e.2.channel, consumerPartition := e.1.partition },
    hnode, rfl, ?_⟩
  exact {
    writer := ⟨w, b, hw, hsrc⟩
    producerPartition := hpartition
    consumerPartition := rfl
    consumers := rfl
    read := hread
    node := rfl
    name := rfl
    capacity := rfl
    blockSize := rfl
    elem := rfl
    domain := rfl
    domainRate := rfl }

variable (h : Records g a p s) (htrace : Extends g a p s) (hg : g.WellFormed)
  (hfree : ∀ id, g.isChannel id = false)
include h htrace hg hfree

theorem Records.described : faults (s.graph.describeChannels a) = [] := by
  rw [List.eq_nil_iff_forall_not_mem]
  intro d hd
  obtain ⟨c, n, spec, hn, hk, hd⟩ := Graph.mem_describeChannels.mp (mem_faults.mp hd)
  obtain ⟨e, he, rfl⟩ := htrace.exists_entry hfree hn (by rw [hk]; rfl)
  obtain ⟨n', spec', d', hn', hk', hdesc⟩ := h.describes htrace hg he
  cases hn.symm.trans hn'
  cases hk.symm.trans hk'
  cases hd.symm.trans (Graph.describeChannel_eq_ok_iff.mpr hdesc)

/-- Channels are described in the order of the record. -/
theorem Records.map_node :
    (oks (s.graph.describeChannels a)).map ChannelDescriptor.node =
      s.entries.map fun e => e.2.channel := by
  rw [Graph.map_node_channels (h.described htrace hg hfree)]
  refine Graph.eq_of_ordered NodeId.val ?_ ?_ ?_
  · exact List.pairwise_map.mpr (s.graph.nodeList_ordered.filter _)
  · exact List.pairwise_map.mpr h.order
  · intro c
    rw [List.mem_map, List.mem_map]
    constructor
    · rintro ⟨⟨_, n⟩, hn, rfl⟩
      obtain ⟨hn, hk⟩ := Graph.mem_channelNodes.mp hn
      exact htrace.exists_entry hfree hn hk
    · rintro ⟨e, he, rfl⟩
      obtain ⟨n, spec, d, hn, hk, -⟩ := h.describes htrace hg he
      exact ⟨(e.2.channel, n), Graph.mem_channelNodes.mpr ⟨hn, by rw [hk]; rfl⟩, rfl⟩

omit hg hfree in
/-- What a description says of a channel is on record. -/
theorem Records.view (he : e ∈ s.entries) {d : ChannelDescriptor}
    (hd : d ∈ oks (s.graph.describeChannels a)) (heq : d.node = e.2.channel) :
    d.producer = e.1.src ∧ d.blockSize = e.1.block ∧ d.elem = e.2.arcs.head?.bind g.arcType := by
  obtain ⟨i, rest, arc, dst, capacity, harcs, hneeds, hnode⟩ := h.lead e he
  obtain ⟨w, b, hw, hsrc⟩ := htrace.writer (mem_routes_of_mem he)
  obtain ⟨n, spec, hn, hk, hdesc⟩ := Graph.mem_channels_iff.mp hd
  rw [heq] at hn hdesc
  cases hn.symm.trans hnode
  cases hk
  obtain ⟨w', b', hw', hsrc'⟩ := hdesc.writer
  cases hw.only hw'.arc_eq hw'.ends
  cases hw.arc_eq.symm.trans hw'.arc_eq
  refine ⟨hsrc'.symm.trans hsrc, hdesc.blockSize, ?_⟩
  rw [hdesc.elem, harcs]
  simp [Graph.arcType, Graph.channelNode, hneeds.arc_eq]

/-- The descriptions of channels, as far as bundles look at them, are on record. -/
theorem Records.map_view :
    ((oks (s.graph.describeChannels a)).map fun d => (d.producer.node, d.blockSize, d.elem)) =
      s.leads.map fun l => (l.1.src.node, l.1.block, l.2.bind g.arcType) := by
  have hpoint : ∀ {ds : List ChannelDescriptor} {es : List (ShareKey × InsertedChannel)},
      (∀ d ∈ ds, d ∈ oks (s.graph.describeChannels a)) → (∀ e ∈ es, e ∈ s.entries) →
      (ds.map ChannelDescriptor.node = es.map fun e => e.2.channel) →
      (ds.map fun d => (d.producer.node, d.blockSize, d.elem)) =
        es.map fun e => (e.1.src.node, e.1.block, e.2.arcs.head?.bind g.arcType) := by
    intro ds
    induction ds with
    | nil =>
        intro es _ _ hnodes
        rw [List.map_nil, eq_comm, List.map_eq_nil_iff] at hnodes
        rw [hnodes]
        rfl
    | cons d ds ih =>
        intro es hds hes hnodes
        cases es with
        | nil => cases hnodes
        | cons e es =>
            rw [List.map_cons, List.map_cons, List.cons.injEq] at hnodes
            obtain ⟨hsrc, hblock, helem⟩ := h.view htrace (hes e List.mem_cons_self)
              (hds d List.mem_cons_self) hnodes.1
            rw [List.map_cons, List.map_cons, hsrc, hblock, helem,
              ih (fun x hx => hds x (List.mem_cons_of_mem _ hx))
                (fun x hx => hes x (List.mem_cons_of_mem _ hx)) hnodes.2]
  rw [hpoint (fun _ hd => hd) (fun _ he => he) (h.map_node htrace hg hfree), leads, List.map_map]
  rfl

end Descriptions

end Insertion
end Dataflow
