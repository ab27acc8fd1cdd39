import Dataflow.Insertion
import Dataflow.Proofs.Insertion.Domains
import Dataflow.Proofs.Plan.Certificate

/-!
# A plan covers the dataflow of its graph

Every connection of a graph is somewhere in its plan, and only once.

**Arcs inside units.**  An arc that touches no channel and does not cross joins two nodes that
compute in one partition (`direct_ends`): a container has no ports, and a node that talks to the
outside is reached through channels only.  So the arcs that a unit takes are those of its partition
(`unit_arcs_eq`), and the units together take each of them once.

**Arcs at channels.**  The only arc that ends at a channel is its producer, and the ports at which
its arcs end are its consumers, none of them twice.

**Edges of units.**  A unit has at most one duty towards a channel (`nodup_mine`), so the channels
that it reads, those that it writes and those that it does both with are different ones, in the
order of their numbers.
-/

namespace Dataflow

section Direct

namespace Graph

variable {g : Graph} {id : ArcId} {a : Arc} {q : PortRef}

/-- The connected arcs that touch no channel. -/
def directArcs (g : Graph) : List (ArcId × Arc) :=
  g.arcList.filter fun a => a.2.dstPort.isSome && !g.atChannel a.2

/-- Both ends of an arc that touches no channel and does not cross compute in one partition. -/
theorem direct_ends (hg : g.WellFormed) (hcross : g.crossing? a = none) (ha : g.arc? id = some a)
    (hq : a.dst = .port q) (hdirect : g.atChannel a = false) :
    ∃ p, a.src.node ∈ g.internalNodes p ∧ q.node ∈ g.internalNodes p := by
  obtain ⟨n, hn, hout⟩ := hg.source ha
  obtain ⟨m, hm, hin⟩ := hg.target ha hq
  have hleafN : n.isLeaf = true := isLeaf_of_ports hg hn (by omega)
  have hleafM : m.isLeaf = true := isLeaf_of_ports hg hm (by omega)
  obtain ⟨⟨hion, hiom⟩, hsame, -⟩ := of_crossing?_eq_none hq hn hm hdirect hcross
  obtain ⟨p, hp⟩ := hg.partition hn hleafN
  have hport : a.dstNode = some q.node := Arc.dstNode_eq_some.mpr ⟨q, hq, rfl⟩
  simp only [atChannel, isChannel, kindOf, hport, hn, hm, Option.map_some, Option.any_some,
    Bool.or_eq_false_iff] at hdirect
  refine ⟨p, mem_internalNodes.mpr ⟨n, hn, ?_, hp⟩, mem_internalNodes.mpr ⟨m, hm, ?_, hsame ▸ hp⟩⟩
  · simp [Node.isInternal, hleafN, hdirect.1, hion]
  · simp [Node.isInternal, hleafM, hdirect.2, hiom]

theorem not_isChannel_of_mem {i : NodeId} {p : PartitionId} (hi : i ∈ g.internalNodes p) :
    g.isChannel i = false := by
  obtain ⟨n, hn, hint, -⟩ := mem_internalNodes.mp hi
  simp only [Node.isInternal, Bool.and_eq_true, Bool.not_eq_true'] at hint
  simp [isChannel, kindOf, hn, hint.1.2]

theorem partitionOf_of_mem {i : NodeId} {p : PartitionId} (hi : i ∈ g.internalNodes p) :
    g.partitionOf i = some p := by
  obtain ⟨n, hn, -, hp⟩ := mem_internalNodes.mp hi
  simp [partitionOf, hn, hp]

/-- An arc whose ends both compute in a partition is a direct one of that partition, and the
other way around. -/
theorem joins_iff (hg : g.WellFormed) (hcross : g.crossing? a = none) (ha : g.arc? id = some a)
    (p : PartitionId) :
    (a.src.node ∈ g.internalNodes p ∧ ∃ q, a.dst = .port q ∧ q.node ∈ g.internalNodes p) ↔
      (∃ q, a.dst = .port q) ∧ g.atChannel a = false ∧ g.partitionOf a.src.node = some p := by
  constructor
  · rintro ⟨hsrc, q, hq, hdst⟩
    have hport : a.dstNode = some q.node := Arc.dstNode_eq_some.mpr ⟨q, hq, rfl⟩
    refine ⟨⟨q, hq⟩, ?_, partitionOf_of_mem hsrc⟩
    simp [atChannel, hport, not_isChannel_of_mem hsrc, not_isChannel_of_mem hdst]
  · rintro ⟨⟨q, hq⟩, hdirect, hpart⟩
    obtain ⟨p', hsrc, hdst⟩ := direct_ends hg hcross ha hq hdirect
    cases (partitionOf_of_mem hsrc).symm.trans hpart
    exact ⟨hsrc, q, hq, hdst⟩

theorem map_fst_arcsAmong (nodes : List NodeId) :
    (g.arcsAmong nodes).map Prod.fst =
      (g.arcList.filter fun a => nodes.contains a.2.src.node && a.2.dstNode.any nodes.contains).map
        Prod.fst := by
  unfold arcsAmong
  rw [List.map_filterMap, ← List.filterMap_eq_map, List.filterMap_filter]
  refine List.filterMap_congr ?_
  rintro ⟨i, b⟩ -
  cases hdst : b.dstNode with
  | none => simp [hdst]
  | some dst =>
      by_cases hs : b.src.node ∈ nodes <;> by_cases hd : dst ∈ nodes <;> simp [hdst, hs, hd]

/-- The arcs of a unit are the direct arcs that leave its partition's nodes. -/
theorem unit_arcs_eq (hg : g.WellFormed)
    (hcross : ∀ id a, g.arc? id = some a → g.crossing? a = none) (p : PartitionId) :
    (g.arcsAmong (g.internalNodes p)).map Prod.fst =
      (g.directArcs.filter fun a => g.partitionOf a.2.src.node = some p).map Prod.fst := by
  rw [map_fst_arcsAmong, directArcs, List.filter_filter]
  congr 1
  refine List.filter_congr ?_
  rintro ⟨i, b⟩ hb
  have ha := mem_arcList.mp hb
  have hjoin := joins_iff hg (hcross i b ha) ha p
  rw [Bool.eq_iff_iff]
  simp only [Bool.and_eq_true, List.contains_iff_mem, Option.any_eq_true, Arc.dstNode_eq_some,
    decide_eq_true_eq, Option.isSome_iff_exists, Arc.dstPort_eq_some, Bool.not_eq_true']
  grind

variable {as : List Assignment}

/-- Together the units take every direct arc once. -/
theorem arcs_units_perm (hg : g.WellFormed)
    (hcross : ∀ id a, g.arc? id = some a → g.crossing? a = none) :
    ((g.unitLabels as).flatMap fun p => (g.unitPlan as p).1.arcs).Perm
      (g.directArcs.map Prod.fst) := by
  have hlabels : ((g.unitLabels as).map some).Nodup :=
    (nodup_unitLabels g as).map fun _ _ => Option.some.inj
  have hcover : ∀ x ∈ g.directArcs, g.partitionOf x.2.src.node ∈ (g.unitLabels as).map some := by
    rintro ⟨i, b⟩ hx
    simp only [directArcs, List.mem_filter, mem_arcList, Bool.and_eq_true, Bool.not_eq_true'] at hx
    obtain ⟨ha, hport, hdirect⟩ := hx
    obtain ⟨q, hq⟩ := Option.isSome_iff_exists.mp hport
    obtain ⟨p, hsrc, -⟩ := direct_ends hg (hcross i b ha) ha (Arc.dstPort_eq_some.mp hq) hdirect
    rw [partitionOf_of_mem hsrc]
    obtain ⟨n, hn, hint, hp⟩ := mem_internalNodes.mp hsrc
    exact List.mem_map_of_mem (mem_unitLabels.mpr (.inl ⟨_, n, hn, hint, hp⟩))
  have hgroups := flatMap_filter_perm (fun x : ArcId × Arc => g.partitionOf x.2.src.node)
    hlabels hcover
  rw [List.flatMap_map] at hgroups
  have hunit : ∀ p, (g.unitPlan as p).1.arcs =
      (g.directArcs.filter fun a => g.partitionOf a.2.src.node = some p).map Prod.fst := by
    intro p
    rw [unitPlan_fst]
    exact unit_arcs_eq hg hcross p
  simp only [hunit]
  rw [← List.map_flatMap]
  exact hgroups.map _

end Graph

end Direct

section Duties

variable {g : Graph} {channels : List ChannelDescriptor} {bundles : List BundlePlan}
  {p : PartitionId}

/-- A channel gives a partition one duty at most. -/
theorem length_duties_filter_le (bundled : Bool) (c : ChannelDescriptor) :
    ((duties g bundled c).filter fun d => d.1 = p).length ≤ 1 := by
  unfold duties
  grind

/-- No channel is given to a partition twice. -/
theorem nodup_mine (hnodup : (channels.map ChannelDescriptor.node).Nodup) :
    (((assignments g channels bundles).filter fun a => a.partition = p).map
      Assignment.channel).Nodup := by
  have hgiven : ((assignments g channels bundles).filter fun a => a.partition = p).map
      Assignment.channel = channels.flatMap fun c =>
        ((duties g ((held bundles).contains c.node) c).filter fun d => d.1 = p).map
          fun _ => c.node := by
    show ((channels.flatMap fun c => (duties g ((held bundles).contains c.node) c).map fun x =>
      (⟨x.1, x.2, c.node⟩ : Assignment)).filter _).map _ = _
    rw [List.filter_flatMap, List.map_flatMap]
    refine List.flatMap_congr ?_
    intro c _
    rw [List.filter_map, List.map_map]
    rfl
  rw [hgiven, List.nodup_iff_count_le_one]
  intro k
  by_cases hk : k ∈ channels.flatMap fun c =>
      ((duties g ((held bundles).contains c.node) c).filter fun d => d.1 = p).map fun _ => c.node
  · obtain ⟨c, hc, hkc⟩ := List.mem_flatMap.mp hk
    obtain ⟨_, _, rfl⟩ := List.mem_map.mp hkc
    rw [count_flatMap_of_nodup hnodup (by simp) hc, List.length_map]
    exact length_duties_filter_le _ _
  · rw [List.count_eq_zero.mpr hk]
    exact Nat.zero_le 1

theorem mem_channelsOf {as : List Assignment} {d : Duty} {c : NodeId} :
    c ∈ channelsOf as p d ↔ ∃ a ∈ as, a.partition = p ∧ a.duty = d ∧ a.channel = c := by
  simp [channelsOf, and_assoc]

/-- The channels of a unit are listed in the order of their numbers. -/
theorem channelsOf_increasing (hnodup : (channels.map ChannelDescriptor.node).Nodup) (d : Duty) :
    (channelsOf (assignments g channels bundles) p d).Pairwise fun a b => a.val < b.val := by
  have hsorted : (channelsOf (assignments g channels bundles) p d).Pairwise fun a b =>
      decide (a.val ≤ b.val) = true := by
    refine List.pairwise_mergeSort ?_ ?_ _
    · intro a b c hab hbc
      simp only [decide_eq_true_eq] at *
      exact UInt32.le_trans hab hbc
    · intro a b
      simpa using UInt32.le_total a.val b.val
  have hdistinct : (channelsOf (assignments g channels bundles) p d).Nodup :=
    (channelsOf_perm _ p d).nodup_iff.mpr
      ((nodup_mine hnodup).sublist ((List.filter_sublist.filter _).map _))
  refine (List.Pairwise.and hsorted hdistinct).imp ?_
  rintro ⟨a⟩ ⟨b⟩ ⟨hle, hne⟩
  exact UInt32.lt_of_le_of_ne (of_decide_eq_true hle) fun he => hne (congrArg NodeId.mk he)

/-- A channel is in one of the lists of a unit only. -/
theorem channelsOf_disjoint (hnodup : (channels.map ChannelDescriptor.node).Nodup) {d d' : Duty}
    (hne : d ≠ d') :
    (channelsOf (assignments g channels bundles) p d).Disjoint
      (channelsOf (assignments g channels bundles) p d') := by
  intro c hc hc'
  obtain ⟨a, ha, hp, rfl, hac⟩ := mem_channelsOf.mp hc
  obtain ⟨b, hb, hp', rfl, hbc⟩ := mem_channelsOf.mp hc'
  have hsame : a = b := List.inj_on_of_nodup_map (nodup_mine (p := p) hnodup)
    (List.mem_filter.mpr ⟨ha, by simpa using hp⟩) (List.mem_filter.mpr ⟨hb, by simpa using hp'⟩)
    (hac.trans hbc.symm)
  exact hne (congrArg Assignment.duty hsame)

end Duties

section Coverage

namespace Graph

variable {g : Graph} {a : DomainAnalysis} {p : ProgramPlan}

/-- The arcs of a graph have different numbers, so a direct one is listed once. -/
theorem count_directArcs (g : Graph) (id : ArcId) :
    (g.directArcs.map Prod.fst).count id =
      if (g.arc? id).any (fun b => b.dstPort.isSome && !g.atChannel b) then 1 else 0 := by
  have hnodup : (g.directArcs.map Prod.fst).Nodup :=
    List.pairwise_map.mpr (g.arcList_distinct.filter _)
  rw [hnodup.count]
  congr 1
  simp [directArcs, Option.any_eq_true]

/-- The units of a plan are those of all labels, for the duties that its channels give. -/
theorem Planned.exists_units (h : g.Planned a p) :
    ∃ bundles, p.units.Perm ((g.unitLabels (assignments g p.channels bundles)).map fun l =>
      (g.unitPlan (assignments g p.channels bundles) l).1) := by
  obtain ⟨-, laid, -, -, rfl⟩ := h
  exact ⟨_, planOf_units⟩

/-- The arcs of all units together are the direct arcs. -/
theorem Planned.arcs_perm (hg : g.WellFormed)
    (hcross : ∀ id a, g.arc? id = some a → g.crossing? a = none) (h : g.Planned a p) :
    (p.units.flatMap UnitPlan.arcs).Perm (g.directArcs.map Prod.fst) := by
  obtain ⟨bundles, hunits⟩ := h.exists_units
  refine (hunits.flatMap_right _).trans ?_
  rw [List.flatMap_map]
  exact arcs_units_perm hg hcross

/-- A unit takes arcs between nodes of its own partition only. -/
theorem Planned.arc_ends (h : g.Planned a p) {u : UnitPlan} (hu : u ∈ p.units) {id : ArcId}
    (hid : id ∈ u.arcs) :
    ∃ b q, g.arc? id = some b ∧ b.dst = .port q ∧ g.partitionOf b.src.node = some u.partition ∧
      g.partitionOf q.node = some u.partition := by
  obtain ⟨bundles, hunits⟩ := h.exists_units
  obtain ⟨l, -, rfl⟩ := List.mem_map.mp (hunits.mem_iff.mp hu)
  rw [unitPlan_fst, map_fst_arcsAmong] at hid
  rw [unitPlan_fst]
  obtain ⟨⟨i, b⟩, hb, rfl⟩ := List.mem_map.mp hid
  simp only [List.mem_filter, mem_arcList, Bool.and_eq_true, List.contains_iff_mem,
    Option.any_eq_true, Arc.dstNode_eq_some] at hb
  obtain ⟨hb, hsrc, _, ⟨q, hq, rfl⟩, hdst⟩ := hb
  exact ⟨b, q, hb, hq, partitionOf_of_mem hsrc, partitionOf_of_mem hdst⟩

/-- What a unit has to do with channels, in order and each channel once. -/
theorem Planned.towards_spec (h : g.Planned a p) {u : UnitPlan} (hu : u ∈ p.units) (duty : Duty) :
    (u.towards duty).Pairwise (fun c d => c.val < d.val) ∧
      (∀ c ∈ u.towards duty, g.isChannel c = true) ∧
      ∀ other, other ≠ duty → (u.towards duty).Disjoint (u.towards other) := by
  obtain ⟨bundles, hunits⟩ := h.exists_units
  obtain ⟨l, -, rfl⟩ := List.mem_map.mp (hunits.mem_iff.mp hu)
  have htowards : ∀ d, ((g.unitPlan (assignments g p.channels bundles) l).1).towards d =
      channelsOf (assignments g p.channels bundles) l d := by
    intro d
    rw [unitPlan_fst]
    cases d <;> rfl
  simp only [htowards]
  refine ⟨channelsOf_increasing h.distinct duty, ?_, ?_⟩
  · intro c hc
    obtain ⟨e, he, -, -, rfl⟩ := mem_channelsOf.mp hc
    obtain ⟨d, hd, hgiven⟩ := List.mem_flatMap.mp he
    obtain ⟨x, -, rfl⟩ := List.mem_map.mp hgiven
    rw [h.channels_eq] at hd
    obtain ⟨n, spec, hn, hk, -⟩ := mem_channels_iff.mp hd
    exact isChannel_iff.mpr ⟨n, hn, by simp [hk, NodeKind.isChannel]⟩
  · intro other hother
    exact channelsOf_disjoint h.distinct hother.symm

/-- A channel has a descriptor, made from the arcs at it. -/
theorem Planned.exists_descriptor (h : g.Planned a p) {c : NodeId} (hc : g.isChannel c = true) :
    ∃ d ∈ p.channels, d.node = c ∧ (∃ w arc, g.Writer c w arc ∧ arc.src = d.producer) ∧
      d.consumers = g.fedPorts c := by
  obtain ⟨n, hn, hk⟩ := isChannel_iff.mp hc
  obtain ⟨spec, hspec⟩ : ∃ spec, n.kind = .channel spec := by
    cases hkind : n.kind <;> simp_all [NodeKind.isChannel]
  obtain ⟨d, hd, hnode, hdesc⟩ := Graph.exists_descriptor h.described hn hspec
  exact ⟨d, h.channels_eq ▸ hd, hnode, hdesc.writer, hdesc.consumers⟩

/-- The arc that ends at a channel is its producer, and nothing else ends there. -/
theorem Planned.producer_eq (h : g.Planned a p) {id : ArcId} {b : Arc} {c : NodeId}
    (hb : g.arc? id = some b) (hdst : b.dstNode = some c) (hc : g.isChannel c = true) :
    ∃ d ∈ p.channels, d.node = c ∧ d.producer = b.src ∧ g.Writer c id b := by
  obtain ⟨d, hd, hnode, ⟨w, arc, hw, hsrc⟩, -⟩ := h.exists_descriptor hc
  cases hw.only hb hdst
  cases hw.arc_eq.symm.trans hb
  exact ⟨d, hd, hnode, hsrc.symm, hw⟩

/-- A port that a channel feeds is one of its consumers, once. -/
theorem Planned.count_consumers (hg : g.WellFormed) (h : g.Planned a p) {id : ArcId} {b : Arc}
    {q : PortRef} (hb : g.arc? id = some b) (hq : b.dst = .port q)
    (hc : g.isChannel b.src.node = true) :
    ∃ d ∈ p.channels, d.node = b.src.node ∧ d.consumers.count q = 1 := by
  obtain ⟨d, hd, hnode, -, hconsumers⟩ := h.exists_descriptor hc
  refine ⟨d, hd, hnode, ?_⟩
  rw [hconsumers, (nodup_fedPorts hg _).count, if_pos (mem_fedPorts.mpr ⟨id, b, hb, rfl, hq⟩)]

/-- A plan without errors loses no connection of its graph.  The arcs that touch no channel are in
the unit of their partition; those at a channel are in its descriptor; and the channels at a unit
are listed in order, each once. -/
theorem synthesize_covers {policy : ChannelPolicy} {s : Synthesis}
    (hvalid : ∀ v, g.validate policy = .ok v → ∀ d ∈ v.diagnostics, d.errorClass ≠ .structural)
    (hcross : g.noDirectCrossing = true) (hs : g.synthesize a = .ok s)
    (hclean : hasErrors s.diagnostics = false) :
    ((∀ id, (s.plan.units.flatMap UnitPlan.arcs).count id =
          if (g.arc? id).any (fun b => b.dstPort.isSome && !g.atChannel b) then 1 else 0) ∧
        (s.plan.units.map UnitPlan.partition).Nodup ∧
        ∀ u ∈ s.plan.units, ∀ id ∈ u.arcs, ∃ b q, g.arc? id = some b ∧ b.dst = .port q ∧
          g.partitionOf b.src.node = some u.partition ∧
          g.partitionOf q.node = some u.partition) ∧
      ((s.plan.channels.map ChannelDescriptor.node).Nodup ∧
        ∀ id b q, g.arc? id = some b → b.dst = .port q →
          (g.isChannel q.node = true → ∃ d ∈ s.plan.channels, d.node = q.node ∧
            d.producer = b.src ∧ ∀ i e, g.arc? i = some e → e.dstNode = some q.node → i = id) ∧
          (g.isChannel b.src.node = true → ∃ d ∈ s.plan.channels, d.node = b.src.node ∧
            d.consumers.count q = 1)) ∧
      ∀ u ∈ s.plan.units, ∀ duty,
        (u.towards duty).Pairwise (fun c d => c.val < d.val) ∧
        (∀ c ∈ u.towards duty, g.isChannel c = true) ∧
        ∀ other, other ≠ duty → (u.towards duty).Disjoint (u.towards other) := by
  have hg := wellFormed_of_forall_ne_structural hvalid
  have hplan : g.Planned a s.plan := planned_iff.mpr ⟨s, hs, hclean, rfl⟩
  refine ⟨⟨?_, hplan.labels, fun u hu id hid => hplan.arc_ends hu hid⟩,
    ⟨hplan.distinct, ?_⟩, fun u hu duty => hplan.towards_spec hu duty⟩
  · intro id
    rw [(hplan.arcs_perm hg (noDirectCrossing_iff.mp hcross)).count_eq, count_directArcs]
  · intro id b q hb hq
    refine ⟨?_, hplan.count_consumers hg hb hq⟩
    intro hc
    obtain ⟨d, hd, hnode, hsrc, hw⟩ :=
      hplan.producer_eq hb (Arc.dstNode_eq_some.mpr ⟨q, hq, rfl⟩) hc
    exact ⟨d, hd, hnode, hsrc, fun i e he hend => hw.only he hend⟩

/-- Two nodes of one partition, a channel that stays with them, one that leads to another partition
and one to a member of a bundle. -/
def threeEdges : Graph :=
  let build : Except Trap Graph := do
    let (a, g) ← empty.addPrimitive none "a" 0 2 ⟨0⟩
    let (b, g) ← g.addPrimitive none "b" 2 2 ⟨0⟩
    let (c, g) ← g.addPrimitive none "c" 1 0 ⟨1⟩
    let (d, g) ← g.addIo none "d" { bundle := "out", direction := .output, member := 0 }
    let (k, g) ← g.addChannel none "k" { capacity := 8, blockSize := 4 } ⟨0⟩ none
    let (m, g) ← g.addChannel none "m" { capacity := 8, blockSize := 4 } ⟨1⟩ none
    let (n, g) ← g.addChannel none "n" { capacity := 8, blockSize := 4 } .io (some .f32)
    let (_, g) ← g.connect ⟨a, 0⟩ ⟨b, 0⟩
    let (_, g) ← g.connect ⟨a, 1⟩ ⟨k, 0⟩
    let (_, g) ← g.connect ⟨k, 0⟩ ⟨b, 1⟩
    let (_, g) ← g.connect ⟨b, 0⟩ ⟨m, 0⟩
    let (_, g) ← g.connect ⟨m, 0⟩ ⟨c, 0⟩
    let (_, g) ← g.connect ⟨b, 1⟩ ⟨n, 0⟩
    let (_, g) ← g.connect ⟨n, 0⟩ ⟨d, 0⟩
    return g
  build.toOption.getD empty

theorem isClean_threeEdges : threeEdges.isClean {} = true := by
  decide

/-- The only direct arc is in one unit; the others are not. -/
theorem synthesize_covers_threeEdges :
    ∃ v s, threeEdges.validate {} = .ok v ∧ v.diagnostics = [] ∧
      threeEdges.noDirectCrossing = true ∧
      threeEdges.synthesize v.analysis = .ok s ∧ hasErrors s.diagnostics = false ∧
      (s.plan.units.flatMap UnitPlan.arcs).count ⟨0⟩ = 1 ∧
      (s.plan.units.flatMap UnitPlan.arcs).count ⟨1⟩ = 0 ∧
      ∃ d ∈ s.plan.channels, d.node = ⟨4⟩ ∧ d.consumers.count ⟨⟨1⟩, 1⟩ = 1 := by
  have hv := validate_of_isClean isClean_threeEdges
  have hcross : threeEdges.noDirectCrossing = true := by decide
  have hplans : threeEdges.plansInOrder threeEdges.computeRates.analysis = true := by
    decide
  obtain ⟨s, hs, hclean⟩ := exists_synthesize_of_plansInOrder hplans
  have hvalid : ∀ v, threeEdges.validate {} = .ok v →
      ∀ d ∈ v.diagnostics, d.errorClass ≠ .structural := by
    intro v hv' d hd
    cases hv.symm.trans hv'
    cases hd
  obtain ⟨⟨hcount, -⟩, ⟨-, hchannels⟩, -⟩ := synthesize_covers hvalid hcross hs hclean
  obtain ⟨i, b, hb, hsrc, hdst⟩ : threeEdges.Feeds ⟨4⟩ ⟨⟨1⟩, 1⟩ := mem_fedPorts.mp (by decide)
  obtain ⟨d, hd, hnode, hone⟩ := (hchannels i b _ hb hdst).2 (hsrc ▸ by decide)
  exact ⟨_, s, hv, rfl, hcross, hs, hclean, (hcount ⟨0⟩).trans (by decide),
    (hcount ⟨1⟩).trans (by decide), d, hd, hnode.trans hsrc, hone⟩

end Graph

end Coverage

end Dataflow
