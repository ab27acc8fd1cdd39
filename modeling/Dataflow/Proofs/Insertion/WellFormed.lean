import Dataflow.Proofs.Insertion.Run
import Dataflow.Proofs.Sizing
import Dataflow.Proofs.Validation.Structure

/-!
# Insertion keeps a graph well-formed

A channel is put beside the port that it feeds, or around it if the port leads into a clock domain.
The container there lists the channel, so containment stays a forest on which both sides agree; the
arc that was led through the channel leaves its end to the second half, so every port keeps one arc.

**Results.**  `Led.wellFormed` for a channel that is made, `wellFormed_share` for one that
is shared, and `wellFormed_insertChannels` for a run, with `wellFormed_of_valid` for one
over a valid graph.
-/

namespace Dataflow

section Containers

namespace NodeKind

variable {container : NodeKind} {id : NodeId} {n : Node}

theorem Lists.isContainer (h : container.Lists id n) : container.isContainer = true := by
  unfold Lists at h
  cases container <;> simp_all [boundaries, children, NodeKind.isContainer]

theorem Lists.withChildren (h : container.Lists id n) (more more' : List NodeId) :
    (container.withChildren more).Lists id (n.withChildren more') := by
  unfold Lists at h ⊢
  simp only [Node.kind_withChildren, isRateChange_withChildren, boundaries_withChildren,
    mem_children_withChildren]
  split
  · rename_i hrate
    rw [if_pos hrate] at h
    exact h
  · rename_i hrate
    rw [if_neg hrate] at h
    exact ⟨.inl h.1, h.2⟩

theorem mem_members_of_mem_boundaries (h : id ∈ container.boundaries) : id ∈ container.members := by
  cases container <;> simp_all [boundaries, members]

end NodeKind

/-- A node that feeds a port is put into a container. -/
theorem Graph.WellFormed.inputContainer_eq_some {g : Graph} (hg : g.WellFormed) {q : PortRef}
    {k : NodeId} (h : g.inputContainer q = some k) :
    ∃ m, g.node? k = some m ∧ m.kind.isContainer = true := by
  have hup : ∀ {i n}, g.node? i = some n → n.parent = some k →
      ∃ m, g.node? k = some m ∧ m.kind.isContainer = true := by
    intro i n hn hp
    obtain ⟨m, hm⟩ := hg.parent ⟨n, hn, hp⟩
    exact ⟨m, hm, (hg.listed hn hp hm).isContainer⟩
  unfold Graph.inputContainer at h
  obtain ⟨n, hn, h⟩ := Option.bind_eq_some_iff.mp h
  split at h
  · obtain ⟨d, hd, h⟩ := Option.bind_eq_some_iff.mp h
    obtain ⟨m, hm, h⟩ := Option.bind_eq_some_iff.mp h
    exact hup hm h
  · exact hup hn h

end Containers

namespace Insertion

section Leading

variable {a : DomainAnalysis} {p : ChannelPolicy} {s s' : Insertion} {id : ArcId} {arc : Arc}
  {dst : PortRef} {crossing : Crossing} {key : ShareKey} {capacity : UInt32} {c : NodeId}
  {next : ArcId}
  (hled : s.Led id arc dst crossing key capacity c next s')

/-- What a container lists in addition once the channel `c` is made. -/
def gained (s : Insertion) (dst : PortRef) (c i : NodeId) : List NodeId :=
  if s.graph.inputContainer dst = some i then [c] else []

theorem mem_gained {i j : NodeId} :
    j ∈ s.gained dst c i ↔ j = c ∧ s.graph.inputContainer dst = some i := by
  unfold gained
  split <;> simp_all

include hled

theorem Led.node_old {i : NodeId} {n : Node} (hn : s.graph.node? i = some n) :
    s'.graph.node? i = some (n.withChildren (s.gained dst c i)) := by
  have hi : i ≠ c := by
    rintro rfl
    cases hled.node_fresh.symm.trans hn
  rw [hled.others i hi, hn, gained]
  split
  · have hadopt := n.kind.adopt_withChildren [] c
    rw [NodeKind.withChildren_nil] at hadopt
    simp only [Option.map_some, hadopt]
    rfl
  · simp

theorem Led.node_cases {i : NodeId} {n' : Node} (hn : s'.graph.node? i = some n') :
    (i = c ∧ n' = s.graph.channelNode arc dst key capacity) ∨
      ∃ n, s.graph.node? i = some n ∧ n' = n.withChildren (s.gained dst c i) := by
  by_cases hi : i = c
  · subst hi
    exact .inl ⟨rfl, Option.some.inj (hn.symm.trans hled.channel)⟩
  · obtain ⟨n, hold⟩ := hled.exists_node? hi hn
    exact .inr ⟨n, hold, Option.some.inj (hn.symm.trans (hled.node_old hold))⟩

theorem Led.arc_cases {i : ArcId} {b : Arc} (hb : s'.graph.arc? i = some b) :
    (i = id ∧ b = { arc with dst := .port ⟨c, 0⟩ }) ∨
      (i = next ∧ b = { arc with src := ⟨c, 0⟩ }) ∨
      (i ≠ id ∧ i ≠ next ∧ s.graph.arc? i = some b) := by
  rw [hled.arcs] at hb
  split at hb
  · rename_i hi
    exact .inl ⟨hi, (Option.some.inj hb).symm⟩
  · rename_i hi
    split at hb
    · rename_i hnext
      exact .inr (.inl ⟨hnext, (Option.some.inj hb).symm⟩)
    · rename_i hnext
      exact .inr (.inr ⟨hi, hnext, hb⟩)

theorem Led.hasOutput {q : PortRef} (h : s.graph.HasOutput q) : s'.graph.HasOutput q := by
  obtain ⟨n, hn, hlt⟩ := h
  exact ⟨_, hled.node_old hn, hlt⟩

theorem Led.hasInput {q : PortRef} (h : s.graph.HasInput q) : s'.graph.HasInput q := by
  obtain ⟨n, hn, hlt⟩ := h
  exact ⟨_, hled.node_old hn, hlt⟩

theorem Led.parent_iff {i k : NodeId} :
    s'.graph.Parent i k ↔
      s.graph.Parent i k ∨ (i = c ∧ s.graph.inputContainer dst = some k) := by
  constructor
  · rintro ⟨n', hn', hp⟩
    rcases hled.node_cases hn' with ⟨rfl, rfl⟩ | ⟨n, hn, rfl⟩
    · exact .inr ⟨rfl, hp⟩
    · exact .inl ⟨n, hn, hp⟩
  · rintro (⟨n, hn, hp⟩ | ⟨rfl, hp⟩)
    · exact ⟨_, hled.node_old hn, hp⟩
    · exact ⟨_, hled.channel, hp⟩

variable (hg : s.graph.WellFormed) (hneeds : s.graph.Needs a p id arc dst key capacity)
include hg hneeds

theorem Led.referencesExist : s'.graph.ReferencesExist := by
  have hsource : s.graph.HasOutput arc.src := hg.source hneeds.arc_eq
  refine ⟨?_, ?_, ?_, ?_, ?_⟩
  · -- an arc is the half that enters the channel, the half that leaves it, or an old arc
    intro i b hb
    rcases hled.arc_cases hb with ⟨-, rfl⟩ | ⟨-, rfl⟩ | ⟨-, -, hold⟩
    · exact hled.hasOutput hsource
    · exact ⟨_, hled.channel, by simp [Graph.channelNode]⟩
    · exact hled.hasOutput (hg.source hold)
  · intro i b q hb hq
    rcases hled.arc_cases hb with ⟨-, rfl⟩ | ⟨-, rfl⟩ | ⟨-, -, hold⟩
    · cases hq
      exact ⟨_, hled.channel, by simp [Graph.channelNode]⟩
    · exact hled.hasInput (hg.target hneeds.arc_eq hq)
    · exact hled.hasInput (hg.target hold hq)
  · intro i k hp
    rcases hled.parent_iff.mp hp with hp | ⟨-, hp⟩
    · obtain ⟨m, hm⟩ := hg.parent hp
      exact ⟨_, hled.node_old hm⟩
    · obtain ⟨m, hm, -⟩ := hg.inputContainer_eq_some hp
      exact ⟨_, hled.node_old hm⟩
  · intro i n' j hn' hj
    rcases hled.node_cases hn' with ⟨rfl, rfl⟩ | ⟨n, hn, rfl⟩
    · cases hj
    · rcases NodeKind.mem_members_withChildren.mp hj with hj | ⟨-, hj⟩
      · obtain ⟨m, hm⟩ := hg.member hn hj
        exact ⟨_, hled.node_old hm⟩
      · rw [(mem_gained.mp hj).1]
        exact ⟨_, hled.channel⟩
  · intro i n' spec d hn' hk hd
    have hold : ∀ {d}, (∃ m, s.graph.node? d = some m ∧ m.kind.isDomain = true) →
        ∃ m, s'.graph.node? d = some m ∧ m.kind.isDomain = true := by
      rintro d ⟨m, hm, hdom⟩
      exact ⟨_, hled.node_old hm, by simpa using hdom⟩
    rcases hled.node_cases hn' with ⟨rfl, rfl⟩ | ⟨n, hn, rfl⟩
    · cases hk
      exact hold (Graph.exists_node_of_inputDomain (hneeds.domain.trans hd))
    · exact hold (hg.anchor hn (NodeKind.withChildren_eq_channel.mp hk) hd)

omit hneeds in
/-- Nothing is in the channel, so a chain of containers that begins elsewhere does not meet it. -/
theorem Led.ne_of_parent {i k : NodeId} (hp : s'.graph.Parent i k) : k ≠ c := by
  have hold : ∃ m, s.graph.node? k = some m := by
    rcases hled.parent_iff.mp hp with hp | ⟨-, hp⟩
    · exact hg.parent hp
    · obtain ⟨m, hm, -⟩ := hg.inputContainer_eq_some hp
      exact ⟨m, hm⟩
  rintro rfl
  obtain ⟨m, hm⟩ := hold
  cases hled.node_fresh.symm.trans hm

omit hneeds in
theorem Led.transGen_parent {i k : NodeId} (h : Relation.TransGen s'.graph.Parent i k)
    (hi : i ≠ c) : Relation.TransGen s.graph.Parent i k := by
  have hstep : ∀ {j l}, j ≠ c → s'.graph.Parent j l → s.graph.Parent j l := by
    intro j l hj hp
    exact (hled.parent_iff.mp hp).resolve_right fun hc => hj hc.1
  induction h with
  | single hp => exact .single (hstep hi hp)
  | tail hchain hp ih =>
      refine .tail ih (hstep ?_ hp)
      cases hchain with
      | single hq => exact hled.ne_of_parent hg hq
      | tail _ hq => exact hled.ne_of_parent hg hq

omit hneeds in
theorem Led.containmentAgrees : s'.graph.ContainmentAgrees := by
  refine ⟨?_, ?_, ?_, ?_⟩
  · intro i h
    have hi : i ≠ c := by
      cases h with
      | single hp => exact hled.ne_of_parent hg hp
      | tail _ hp => exact hled.ne_of_parent hg hp
    exact hg.acyclic i (hled.transGen_parent hg h hi)
  · intro i n' j hn' hj
    rcases hled.node_cases hn' with ⟨rfl, rfl⟩ | ⟨n, hn, rfl⟩
    · cases hj
    · rcases NodeKind.mem_members_withChildren.mp hj with hj | ⟨-, hj⟩
      · exact hled.parent_iff.mpr (.inl (hg.back hn hj))
      · exact hled.parent_iff.mpr (.inr (mem_gained.mp hj))
  · intro i n' k m' hn' hp hm'
    rcases hled.node_cases hm' with ⟨rfl, -⟩ | ⟨m, hm, rfl⟩
    · exact absurd rfl (hled.ne_of_parent hg ⟨n', hn', hp⟩)
    · rcases hled.node_cases hn' with ⟨rfl, rfl⟩ | ⟨n, hn, rfl⟩
      · -- the container of the channel lists it, and not among its boundaries
        obtain ⟨m₁, hm₁, hcontainer⟩ := hg.inputContainer_eq_some hp
        cases hm.symm.trans hm₁
        have hfresh : i ∉ m.kind.boundaries := by
          intro hin
          obtain ⟨x, hx⟩ := hg.member hm (NodeKind.mem_members_of_mem_boundaries hin)
          cases hled.node_fresh.symm.trans hx
        show NodeKind.Lists _ _ _
        unfold NodeKind.Lists
        rw [if_neg (by simp [Graph.channelNode, NodeKind.isRateChange])]
        refine ⟨?_, by simpa using hfresh⟩
        exact NodeKind.mem_children_withChildren.mpr
          (.inr ⟨hcontainer, mem_gained.mpr ⟨rfl, hp⟩⟩)
      · exact (hg.listed hn hp hm).withChildren _ _
  · intro i n' hn' hr
    rcases hled.node_cases hn' with ⟨rfl, rfl⟩ | ⟨n, hn, rfl⟩
    · simp [Graph.channelNode, NodeKind.isRateChange] at hr
    · have hr' : n.kind.isRateChange = true := by simpa using hr
      obtain ⟨k, hk⟩ := hg.rateChange hn hr'
      exact ⟨k, hk⟩

/-- Every port keeps one arc: the first half of an arc ends at the fresh channel, and the second
half takes the end of the arc over. -/
theorem Led.fanIn {i j : ArcId} {b d : Arc} {q : PortRef} (hb : s'.graph.arc? i = some b)
    (hd : s'.graph.arc? j = some d) (hbq : b.dst = .port q) (hdq : d.dst = .port q) : i = j := by
  have hother : ∀ {i b}, s.graph.arc? i = some b → b.dst ≠ .port ⟨c, 0⟩ := by
    intro i b hb he
    obtain ⟨n, hn, -⟩ := hg.target hb he
    cases hled.node_fresh.symm.trans hn
  have hdst : arc.dst ≠ .port ⟨c, 0⟩ := hother hneeds.arc_eq
  rcases hled.arc_cases hb with ⟨rfl, rfl⟩ | ⟨rfl, rfl⟩ | ⟨hi, -, hb⟩
  · rcases hled.arc_cases hd with ⟨rfl, rfl⟩ | ⟨rfl, rfl⟩ | ⟨-, -, hd⟩
    · rfl
    · cases hbq
      exact absurd hdq hdst
    · cases hbq
      exact absurd hdq (hother hd)
  · rcases hled.arc_cases hd with ⟨rfl, rfl⟩ | ⟨rfl, rfl⟩ | ⟨hj, -, hd⟩
    · cases hdq
      exact absurd hbq hdst
    · rfl
    · exact absurd (hg.fanIn hd hneeds.arc_eq hdq hbq) hj
  · rcases hled.arc_cases hd with ⟨rfl, rfl⟩ | ⟨rfl, rfl⟩ | ⟨hj, -, hd⟩
    · cases hdq
      exact absurd hbq (hother hb)
    · exact absurd (hg.fanIn hb hneeds.arc_eq hbq hdq) hi
    · exact hg.fanIn hb hd hbq hdq

omit hneeds hg in
theorem Led.externalIo {i : NodeId} {n' : Node} {ep : IoEndpoint}
    (hn' : s'.graph.node? i = some n') (hk : n'.kind = .externalIo ep) :
    ∃ n, s.graph.node? i = some n ∧ n.kind = .externalIo ep ∧ n'.partition = n.partition := by
  rcases hled.node_cases hn' with ⟨rfl, rfl⟩ | ⟨n, hn, rfl⟩
  · cases hk
  · exact ⟨n, hn, NodeKind.withChildren_eq_externalIo.mp hk, rfl⟩

/-- Leading an arc through a channel that holds a block. -/
theorem Led.wellFormed (hsize : 0 < key.block ∧ key.block ≤ capacity) : s'.graph.WellFormed := by
  refine { hled.referencesExist hg hneeds, hled.containmentAgrees hg with
    fanIn := hled.fanIn hg hneeds
    ports := ?_, channel := ?_, partition := ?_, ioPartition := ?_, member_unique := ?_
    oneDirection := ?_ }
  · intro i n' hn'
    rcases hled.node_cases hn' with ⟨rfl, rfl⟩ | ⟨n, hn, rfl⟩
    · exact ⟨rfl, rfl⟩
    · exact (n.portsSuit_withChildren _).mpr (hg.ports hn)
  · intro i n' spec hn' hk
    rcases hled.node_cases hn' with ⟨rfl, rfl⟩ | ⟨n, hn, rfl⟩
    · cases hk
      exact hsize
    · exact hg.channel hn (NodeKind.withChildren_eq_channel.mp hk)
  · intro i n' hn' hleaf
    rcases hled.node_cases hn' with ⟨rfl, rfl⟩ | ⟨n, hn, rfl⟩
    · exact ⟨_, rfl⟩
    · have hleaf' : n.isLeaf = true := by simpa using hleaf
      obtain ⟨k, hk⟩ := hg.partition hn hleaf'
      exact ⟨k, hk⟩
  · intro i n' ep hn' hk
    obtain ⟨n, hn, hk, hpart⟩ := hled.externalIo hn' hk
    rw [hpart]
    exact hg.ioPartition hn hk
  · intro i j n' m' ep ep' hn' hm' hk hk' hbundle hmember
    obtain ⟨n, hn, hk, -⟩ := hled.externalIo hn' hk
    obtain ⟨m, hm, hk', -⟩ := hled.externalIo hm' hk'
    exact hg.member_unique hn hm hk hk' hbundle hmember
  · intro i j n' m' ep ep' hn' hm' hk hk' hbundle
    obtain ⟨n, hn, hk, -⟩ := hled.externalIo hn' hk
    obtain ⟨m, hm, hk', -⟩ := hled.externalIo hm' hk'
    exact hg.oneDirection hn hm hk hk' hbundle

end Leading

section Runs

variable {g : Graph} {a : DomainAnalysis} {p : ChannelPolicy} {s : Insertion}

/-- Letting an arc start at an inserted channel. -/
theorem Extends.wellFormed_share (h : Extends g a p s) (hg : s.graph.WellFormed) {id : ArcId}
    {arc : Arc} (harc : s.graph.arc? id = some arc) {e : ShareKey × InsertedChannel}
    (he : e ∈ s.entries) : (s.share id e.1 e.2).graph.WellFormed := by
  have hroute : (e.1, e.2.channel) ∈ s.routes := List.mem_map.mpr ⟨e, he, rfl⟩
  obtain ⟨-, _, _, _, _, -, hnode⟩ := h.channel hroute
  have hcases : ∀ {i b}, (s.share id e.1 e.2).graph.arc? i = some b →
      ∃ b', s.graph.arc? i = some b' ∧ b.dst = b'.dst ∧
        (b.src = b'.src ∨ b.src = ⟨e.2.channel, 0⟩) := by
    intro i b hb
    rw [arc?_share e.1 e.2 harc] at hb
    split at hb
    · rename_i hi
      cases hb
      exact ⟨arc, hi ▸ harc, rfl, .inr rfl⟩
    · exact ⟨b, hb, rfl, .inl rfl⟩
  refine { hg with source := ?_, target := ?_, fanIn := ?_ }
  · intro i b hb
    obtain ⟨b', hb', -, hsrc | hsrc⟩ := hcases hb
    · rw [hsrc]
      exact hg.source hb'
    · rw [hsrc]
      exact ⟨_, hnode, by simp [Graph.channelNode]⟩
  · intro i b q hb hq
    obtain ⟨b', hb', hdst, -⟩ := hcases hb
    exact hg.target hb' (hdst.symm.trans hq)
  · intro i j b d q hb hd hbq hdq
    obtain ⟨b', hb', hdst, -⟩ := hcases hb
    obtain ⟨d', hd', hdst', -⟩ := hcases hd
    exact hg.fanIn hb' hd' (hdst.symm.trans hbq) (hdst'.symm.trans hdq)

/-- Insertion keeps a graph well-formed. -/
theorem wellFormed_insertChannels (hg : g.WellFormed) (ha : a.Positive)
    (hp : hasErrors p.faults = false) (h : g.insertChannels a p = .ok s) : s.graph.WellFormed := by
  rw [hasErrors_faults_eq_false_iff] at hp
  refine (insertChannels_induction (P := fun s => s.graph.WellFormed) hg.toReferencesExist hg ?_
    h).2
  intro s s' id crossing arc htrace _ _ hstep hs
  cases hstep with
  | skip _ => exact hs
  | refuse _ => exact hs
  | share hneeds _ he hkey =>
      subst hkey
      exact htrace.wellFormed_share hs hneeds.arc_eq he
  | lead hneeds _ hled =>
      refine hled.wellFormed hs hneeds ?_
      rw [UInt32.lt_iff_toNat_lt, UInt32.le_iff_toNat_le]
      exact ⟨channelBlock_pos ha hp.1 hneeds.block, le_capacity hp.2 hneeds.room⟩

variable {v : Validation}

theorem positive_of_validate (hv : g.validate p = .ok v)
    (hvalid : hasErrors v.diagnostics = false) : v.analysis.Positive := by
  obtain ⟨hg, -⟩ := Graph.wellFormed_of_validate hv hvalid
  obtain ⟨_, -, hanalysis⟩ := (Graph.validate_eq_ok_iff hg).mp hv
  rw [hanalysis]
  exact Graph.positive_computeRates g

theorem wellFormed_of_valid (hv : g.validate p = .ok v) (hvalid : hasErrors v.diagnostics = false)
    (hs : g.insertChannels v.analysis p = .ok s) (hclean : hasErrors s.diagnostics = false) :
    s.graph.WellFormed :=
  wellFormed_insertChannels (Graph.wellFormed_of_validate hv hvalid).1
    (positive_of_validate hv hvalid)
    (hasErrors_faults_of_insertChannels hs hclean) hs

end Runs

end Insertion
end Dataflow
