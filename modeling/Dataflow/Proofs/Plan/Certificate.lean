import Dataflow.Graph.Edit
import Dataflow.Plan.Certificate
import Dataflow.Proofs.Plan.Synthesis
import Dataflow.Proofs.Validation.Structure

/-!
# What the certificate of a plan depends on

**Nodes.**  Every node that computes is scheduled by the unit of its partition, and by no other.

**Ends.**  The ends of a channel are given out at three places: members of bundles, the units at
both sides, and the one unit that has both.  Together they make one writer and one reader for each
channel, unless a channel feeds a member of a bundle and another port (`ends_once_iff`): then every
member at the channel counts as a reader.

**Result.**  `synthesize_cert`: a plan without errors has its nodes in order, and its channels are
in order exactly where a channel that feeds a member of a bundle feeds nothing else.
-/

namespace Dataflow

section Nodes

variable {g : Graph} {a : DomainAnalysis} {p : ProgramPlan}

/-- The units run every node that computes once, and nothing else. -/
theorem Graph.Planned.scheduled_perm (hg : g.WellFormed) (h : g.Planned a p) :
    p.scheduled.Perm (g.internal.map Prod.fst) := by
  obtain ⟨-, laid, -, -, rfl⟩ := h
  refine (planOf_units.flatMap_right _).trans ?_
  rw [List.flatMap_map]
  refine nodes_units_perm ?_
  rintro ⟨id, n⟩ hn
  obtain ⟨hlist, hint⟩ := List.mem_filter.mp hn
  refine hg.partition (Graph.mem_nodeList.mp hlist) ?_
  simp only [Node.isInternal, Bool.and_eq_true] at hint
  exact hint.1.1

theorem nodesOnce_of_perm (h : p.scheduled.Perm (g.internal.map Prod.fst)) :
    p.nodesOnce g = true := by
  have hnodup : p.scheduled.Nodup := h.nodup_iff.mpr (nodup_internal g)
  unfold ProgramPlan.nodesOnce
  rw [Bool.and_eq_true, eraseDups_eq_self hnodup]
  refine ⟨decide_eq_true h.length_eq, ?_⟩
  rw [List.all_eq_true]
  intro n hn
  exact decide_eq_true (List.count_eq_one_of_mem hnodup (h.mem_iff.mpr hn))

theorem count_internal (g : Graph) (id : NodeId) :
    (g.internal.map Prod.fst).count id = if (g.node? id).any Node.isInternal then 1 else 0 := by
  rw [(nodup_internal g).count]
  congr 1
  simp [Graph.internal, Option.any_eq_true]

end Nodes

section Duties

variable {g : Graph} {channels : List ChannelDescriptor} {bundles : List BundlePlan}

/-- The channels of all members of bundles. -/
def held (bundles : List BundlePlan) : List NodeId :=
  bundles.flatMap fun b => b.members.flatMap BundleMember.channels

/-- The sorts of duties towards a channel. -/
def dutySorts (g : Graph) (bundled : Bool) (c : ChannelDescriptor) : List Duty :=
  (duties g bundled c).map Prod.snd

/-- The channels towards which a unit has a duty. -/
def UnitPlan.towards (u : UnitPlan) : Duty → List NodeId
  | .read => u.inputs
  | .write => u.outputs
  | .loop => u.locals

/-- A channel is given out as often as there are duties towards it. -/
theorem count_assignments (hnodup : (channels.map ChannelDescriptor.node).Nodup)
    {d : ChannelDescriptor} (hd : d ∈ channels) (duty : Duty) :
    (((assignments g channels bundles).filter fun a => a.duty = duty).map
        Assignment.channel).count d.node =
      (dutySorts g ((held bundles).contains d.node) d).count duty := by
  have hown : ∀ c ∈ channels, ∀ k ∈ (((duties g ((held bundles).contains c.node) c).map fun x =>
        (⟨x.1, x.2, c.node⟩ : Assignment)).filter fun a => a.duty = duty).map Assignment.channel,
      k = c.node := by
    intro c _ k hk
    obtain ⟨x, hx, rfl⟩ := List.mem_map.mp hk
    obtain ⟨y, -, rfl⟩ := List.mem_map.mp (List.mem_of_mem_filter hx)
    rfl
  show (((channels.flatMap fun c => (duties g ((held bundles).contains c.node) c).map fun x =>
    (⟨x.1, x.2, c.node⟩ : Assignment)).filter _).map _).count _ = _
  rw [List.filter_flatMap, List.map_flatMap, count_flatMap_of_nodup hnodup hown hd, List.length_map,
    List.filter_map, List.length_map, dutySorts, List.count_eq_length_filter, List.filter_map,
    List.length_map]
  rfl

theorem count_units (hnodup : (channels.map ChannelDescriptor.node).Nodup) {d : ChannelDescriptor}
    (hd : d ∈ channels) (duty : Duty) :
    ((g.planOf channels bundles).units.flatMap fun u => u.towards duty).count d.node =
      (dutySorts g ((held bundles).contains d.node) d).count duty := by
  rw [← count_assignments hnodup hd, (planOf_units.flatMap_right _).count_eq, List.flatMap_map,
    ← (channelsOf_units_perm g _ duty).count_eq]
  congr 1
  refine List.flatMap_congr ?_
  intro p _
  rw [unitPlan_fst]
  cases duty <;> rfl

end Duties

section Members

variable {g : Graph} {a : DomainAnalysis} {d : ChannelDescriptor}

/-- The members of bundles of a direction at a channel. -/
def Graph.membersAt (g : Graph) (direction : IoDirection) (d : ChannelDescriptor) : List NodeId :=
  ((g.ioNodes.filter fun n => n.2.direction = direction).filter fun n =>
    attaches direction n.1 d).map Prod.fst

theorem nodup_membersAt (direction : IoDirection) : (g.membersAt direction d).Nodup :=
  (nodup_ioNodes g).sublist ((List.filter_sublist.trans List.filter_sublist).map _)

theorem mem_membersAt {direction : IoDirection} {id : NodeId} :
    id ∈ g.membersAt direction d ↔
      (∃ n ep, g.node? id = some n ∧ n.kind = .externalIo ep ∧ ep.direction = direction) ∧
        attaches direction id d = true := by
  simp only [Graph.membersAt, List.mem_map, List.mem_filter, Prod.exists, mem_ioNodes,
    decide_eq_true_eq]
  constructor
  · rintro ⟨i, ep, ⟨⟨⟨n, hn, hk⟩, hdir⟩, hat⟩, rfl⟩
    exact ⟨⟨n, ep, hn, hk, hdir⟩, hat⟩
  · rintro ⟨⟨n, ep, hn, hk, hdir⟩, hat⟩
    exact ⟨id, ep, ⟨⟨⟨n, hn, hk⟩, hdir⟩, hat⟩, rfl⟩

theorem isExternalIo_iff {id : NodeId} :
    g.isExternalIo id = true ↔ ∃ n ep, g.node? id = some n ∧ n.kind = .externalIo ep := by
  unfold Graph.isExternalIo Graph.kindOf
  rw [Option.any_map, Option.any_eq_true]
  refine exists_congr fun n => ?_
  cases n.kind <;> simp [NodeKind.isExternalIo]

/-- A node with an output talks inwards. -/
theorem direction_of_hasOutput (hg : g.WellFormed) {p : PortRef} (hp : g.HasOutput p) {n : Node}
    {ep : IoEndpoint} (hn : g.node? p.node = some n) (hk : n.kind = .externalIo ep) :
    ep.direction = .input := by
  obtain ⟨m, hm, hlt⟩ := hp
  cases hn.symm.trans hm
  have hports := hg.ports hn
  unfold Node.PortsSuit at hports
  rw [hk] at hports
  cases hdir : ep.direction with
  | input => rfl
  | output =>
      simp only [hdir] at hports
      omega

/-- A node with an input talks outwards, and has no other input. -/
theorem direction_of_hasInput (hg : g.WellFormed) {p : PortRef} (hp : g.HasInput p) {n : Node}
    {ep : IoEndpoint} (hn : g.node? p.node = some n) (hk : n.kind = .externalIo ep) :
    ep.direction = .output ∧ p.port = 0 := by
  obtain ⟨m, hm, hlt⟩ := hp
  cases hn.symm.trans hm
  have hports := hg.ports hn
  unfold Node.PortsSuit at hports
  rw [hk] at hports
  cases hdir : ep.direction with
  | input =>
      simp only [hdir] at hports
      omega
  | output =>
      simp only [hdir] at hports
      refine ⟨rfl, UInt32.toNat_inj.mp ?_⟩
      rw [UInt32.toNat_zero]
      omega

/-- Only the node that writes a channel can be a member that feeds it. -/
theorem membersAt_input_perm (hg : g.WellFormed) (hd : d ∈ oks (g.describeChannels a)) :
    (g.membersAt .input d).Perm
      (if g.isExternalIo d.producer.node then [d.producer.node] else []) := by
  obtain ⟨n, spec, -, -, hdesc⟩ := Graph.mem_channels_iff.mp hd
  obtain ⟨w, arc, hw, hsrc⟩ := hdesc.writer
  have hout : g.HasOutput d.producer := hsrc ▸ hg.source hw.arc_eq
  rw [List.perm_ext_iff_of_nodup (nodup_membersAt .input) (by split <;> simp)]
  intro id
  rw [mem_membersAt]
  constructor
  · rintro ⟨⟨m, ep, hm, hk, -⟩, hat⟩
    cases of_decide_eq_true hat
    rw [if_pos (isExternalIo_iff.mpr ⟨m, ep, hm, hk⟩)]
    exact List.mem_singleton_self _
  · intro hid
    split at hid
    · rename_i hio
      rw [List.mem_singleton] at hid
      subst hid
      obtain ⟨m, ep, hm, hk⟩ := isExternalIo_iff.mp hio
      exact ⟨⟨m, ep, hm, hk, direction_of_hasOutput hg hout hm hk⟩, decide_eq_true rfl⟩
    · cases hid

/-- The members that drain a channel are the external nodes that it feeds, each through one port. -/
theorem membersAt_output_perm (hg : g.WellFormed) (hd : d ∈ oks (g.describeChannels a)) :
    (g.membersAt .output d).Perm
      ((d.consumers.filter fun p => g.isExternalIo p.node).map PortRef.node) := by
  obtain ⟨n, spec, -, -, hdesc⟩ := Graph.mem_channels_iff.mp hd
  have hin : ∀ p ∈ d.consumers, g.HasInput p := by
    intro p hp
    rw [hdesc.consumers, Graph.mem_fedPorts] at hp
    obtain ⟨id, arc, harc, -, hdst⟩ := hp
    exact hg.target harc hdst
  have hport : ∀ p ∈ d.consumers.filter (fun p => g.isExternalIo p.node), p.port = 0 := by
    intro p hp
    obtain ⟨hp, hio⟩ := List.mem_filter.mp hp
    obtain ⟨m, ep, hm, hk⟩ := isExternalIo_iff.mp hio
    exact (direction_of_hasInput hg (hin p hp) hm hk).2
  have hnodup : ((d.consumers.filter fun p => g.isExternalIo p.node).map PortRef.node).Nodup := by
    refine List.Nodup.map_on ?_ (List.Nodup.filter _
      (hdesc.consumers ▸ Graph.nodup_fedPorts hg d.node))
    rintro ⟨i, k⟩ hp ⟨j, l⟩ hq rfl
    cases hport _ hp
    cases hport _ hq
    rfl
  rw [List.perm_ext_iff_of_nodup (nodup_membersAt .output) hnodup]
  intro id
  rw [mem_membersAt]
  simp only [List.mem_map, List.mem_filter, attaches, List.any_eq_true, decide_eq_true_eq]
  constructor
  · rintro ⟨⟨m, ep, hm, hk, -⟩, p, hp, rfl⟩
    exact ⟨p, ⟨hp, isExternalIo_iff.mpr ⟨m, ep, hm, hk⟩⟩, rfl⟩
  · rintro ⟨p, ⟨hp, hio⟩, rfl⟩
    obtain ⟨m, ep, hm, hk⟩ := isExternalIo_iff.mp hio
    exact ⟨⟨m, ep, hm, hk, (direction_of_hasInput hg (hin p hp) hm hk).1⟩, p, hp, rfl⟩

/-- The port of a member has one arc, so one channel is at a member that is fed. -/
theorem attached_output_eq (hg : g.WellFormed) (hdesc : faults (g.describeChannels a) = [])
    (hd : d ∈ oks (g.describeChannels a)) {q : PortRef} (hq : q ∈ d.consumers)
    (hio : g.isExternalIo q.node = true) :
    attached (oks (g.describeChannels a)) .output q.node = [d] := by
  have hnodup : ((oks (g.describeChannels a)).map ChannelDescriptor.node).Nodup := by
    rw [Graph.map_node_channels hdesc]
    exact Graph.nodup_channelNodes g
  have hfeeds : ∀ {d r}, d ∈ oks (g.describeChannels a) → r ∈ d.consumers →
      g.Feeds d.node r := by
    intro d r hd hr
    obtain ⟨n, spec, -, -, hdesc⟩ := Graph.mem_channels_iff.mp hd
    rw [hdesc.consumers] at hr
    exact Graph.mem_fedPorts.mp hr
  obtain ⟨m, ep, hm, hk⟩ := isExternalIo_iff.mp hio
  obtain ⟨j, b, hb, hsrc, hdst⟩ := hfeeds hd hq
  have hport := (direction_of_hasInput hg (hg.target hb hdst) hm hk).2
  rw [attached_eq_filter]
  refine List.Perm.eq_singleton ((List.perm_ext_iff_of_nodup ((hnodup.of_map _).filter _)
    (List.nodup_singleton d)).mpr ?_)
  intro d'
  rw [List.mem_filter, List.mem_singleton]
  constructor
  · rintro ⟨hd', hat⟩
    obtain ⟨r, hr, hrq⟩ := List.any_eq_true.mp hat
    have hrq : r.node = q.node := of_decide_eq_true hrq
    obtain ⟨j', b', hb', hsrc', hdst'⟩ := hfeeds hd' hr
    have hport' := (direction_of_hasInput hg (hg.target hb' hdst') (hrq ▸ hm) hk).2
    have hsame : r = q := by
      obtain ⟨rn, rp⟩ := r
      obtain ⟨qn, qp⟩ := q
      simp_all
    cases hg.fanIn hb hb' hdst (hsame ▸ hdst')
    cases hb.symm.trans hb'
    exact List.inj_on_of_nodup_map hnodup hd' hd (hsrc'.symm.trans hsrc)
  · rintro rfl
    exact ⟨hd, List.any_eq_true.mpr ⟨q, hq, decide_eq_true rfl⟩⟩

end Members

section Ends

variable {g : Graph} {a : DomainAnalysis} {p : ProgramPlan} {d : ChannelDescriptor}

theorem Graph.Planned.nodup_channels (h : g.Planned a p) :
    ((oks (g.describeChannels a)).map ChannelDescriptor.node).Nodup := by
  rw [Graph.map_node_channels h.described]
  exact Graph.nodup_channelNodes g

theorem Graph.Planned.channels_eq (h : g.Planned a p) :
    p.channels = oks (g.describeChannels a) := by
  obtain ⟨-, laid, -, -, rfl⟩ := h
  rfl

theorem Graph.Planned.distinct (h : g.Planned a p) :
    (p.channels.map ChannelDescriptor.node).Nodup := by
  rw [h.channels_eq]
  exact h.nodup_channels

theorem Graph.Planned.labels (h : g.Planned a p) : (p.units.map UnitPlan.partition).Nodup := by
  obtain ⟨-, laid, -, -, rfl⟩ := h
  refine (planOf_units.map UnitPlan.partition).nodup_iff.mpr ?_
  rw [List.map_map]
  simpa [Function.comp_def, unitPlan_fst] using nodup_unitLabels g _

theorem Graph.Planned.count_bundled (hg : g.WellFormed) (h : g.Planned a p)
    (hd : d ∈ oks (g.describeChannels a)) (direction : IoDirection) :
    (p.bundled direction).count d.node = (g.membersAt direction d).length := by
  have hnodup := h.nodup_channels
  obtain ⟨-, laid, hlaid, hnone, rfl⟩ := h
  unfold ProgramPlan.bundled
  rw [planOf_bundles, bundled_groups direction hlaid hnone, (groups_perm hg _ direction).count_eq,
    count_attached hnodup hd, Graph.membersAt, List.length_map, List.countP_eq_length_filter]

/-- Whether a member of a bundle is at a channel. -/
def Graph.atMember (g : Graph) (d : ChannelDescriptor) : Bool :=
  g.isExternalIo d.producer.node || d.consumers.any fun p => g.isExternalIo p.node

theorem mem_held {bundles : List BundlePlan} {c : NodeId} :
    c ∈ held bundles ↔ ∃ direction, c ∈ (bundles.filter fun b => b.direction = direction).flatMap
      fun b => b.members.flatMap BundleMember.channels := by
  unfold held
  simp only [List.mem_flatMap, List.mem_filter, decide_eq_true_eq]
  constructor
  · rintro ⟨b, hb, hc⟩
    exact ⟨b.direction, b, ⟨hb, rfl⟩, hc⟩
  · rintro ⟨_, b, ⟨hb, -⟩, hc⟩
    exact ⟨b, hb, hc⟩

theorem Graph.Planned.mem_bundled_iff (hg : g.WellFormed) (h : g.Planned a p)
    (hd : d ∈ oks (g.describeChannels a)) (direction : IoDirection) :
    d.node ∈ p.bundled direction ↔ g.membersAt direction d ≠ [] := by
  rw [← List.count_pos_iff, h.count_bundled hg hd, List.length_pos_iff]

/-- The bundles hold the channels at their members. -/
theorem Graph.Planned.held_contains (hg : g.WellFormed) (h : g.Planned a p)
    (hd : d ∈ oks (g.describeChannels a)) : (held p.bundles).contains d.node = g.atMember d := by
  have hin : d.node ∈ p.bundled .input ↔ g.isExternalIo d.producer.node = true := by
    rw [h.mem_bundled_iff hg hd, ← List.length_pos_iff, (membersAt_input_perm hg hd).length_eq]
    split <;> simp_all
  have hout : d.node ∈ p.bundled .output ↔
      (d.consumers.any fun p => g.isExternalIo p.node) = true := by
    rw [h.mem_bundled_iff hg hd, ← List.length_pos_iff, (membersAt_output_perm hg hd).length_eq,
      List.length_map, ← List.countP_eq_length_filter, List.countP_pos_iff, List.any_eq_true]
  rw [Bool.eq_iff_iff, List.contains_iff_mem, mem_held, Graph.atMember, Bool.or_eq_true,
    ← hin, ← hout]
  constructor
  · rintro ⟨direction, hc⟩
    cases direction with
    | input => exact .inl hc
    | output => exact .inr hc
  · rintro (hc | hc)
    · exact ⟨.input, hc⟩
    · exact ⟨.output, hc⟩

/-- How often a channel is written: by units, and by a member that feeds it. -/
theorem Graph.Planned.count_writers (hg : g.WellFormed) (h : g.Planned a p)
    (hd : d ∈ oks (g.describeChannels a)) :
    p.writers.count d.node =
      (dutySorts g (g.atMember d) d).count .write + (dutySorts g (g.atMember d) d).count .loop +
        if g.isExternalIo d.producer.node then 1 else 0 := by
  have hbundled := h.count_bundled hg hd .input
  have hheld := h.held_contains hg hd
  have hnodup := h.nodup_channels
  obtain ⟨-, laid, -, -, rfl⟩ := h
  rw [planOf_bundles] at hheld
  unfold ProgramPlan.writers
  rw [List.count_append, hbundled, (membersAt_input_perm hg hd).length_eq,
    ← (List.flatMap_append_perm _ UnitPlan.outputs UnitPlan.locals).count_eq, List.count_append,
    ← hheld, ← count_units hnodup hd .write, ← count_units hnodup hd .loop]
  split <;> rfl

/-- How often a channel is read: by units, and by the members that drain it. -/
theorem Graph.Planned.count_readers (hg : g.WellFormed) (h : g.Planned a p)
    (hd : d ∈ oks (g.describeChannels a)) :
    p.readers.count d.node =
      (dutySorts g (g.atMember d) d).count .read + (dutySorts g (g.atMember d) d).count .loop +
        d.consumers.countP fun p => g.isExternalIo p.node := by
  have hbundled := h.count_bundled hg hd .output
  have hheld := h.held_contains hg hd
  have hnodup := h.nodup_channels
  obtain ⟨-, laid, -, -, rfl⟩ := h
  rw [planOf_bundles] at hheld
  unfold ProgramPlan.readers
  rw [List.count_append, hbundled, (membersAt_output_perm hg hd).length_eq, List.length_map,
    ← List.countP_eq_length_filter,
    ← (List.flatMap_append_perm _ UnitPlan.inputs UnitPlan.locals).count_eq, List.count_append,
    ← hheld, ← count_units hnodup hd .read, ← count_units hnodup hd .loop]
  rfl

/-- The duties towards a channel and the members at it make one writer and one reader, unless a
member shares the channel with another reader. -/
theorem ends_once_iff (hread : d.consumers ≠ []) :
    ((dutySorts g (g.atMember d) d).count .write + (dutySorts g (g.atMember d) d).count .loop +
          (if g.isExternalIo d.producer.node then 1 else 0) = 1 ∧
        (dutySorts g (g.atMember d) d).count .read + (dutySorts g (g.atMember d) d).count .loop +
          (d.consumers.countP fun p => g.isExternalIo p.node) = 1) ↔
      ((d.consumers.any fun p => g.isExternalIo p.node) = true → d.consumers.length = 1) := by
  have hpos : 0 < d.consumers.length := List.length_pos_iff.mpr hread
  have hany : (d.consumers.any fun p => g.isExternalIo p.node) = true ↔
      0 < d.consumers.countP fun p => g.isExternalIo p.node := by
    rw [List.countP_pos_iff, List.any_eq_true]
  have hall : (d.consumers.all fun p => g.isExternalIo p.node) = true ↔
      (d.consumers.countP fun p => g.isExternalIo p.node) = d.consumers.length := by
    rw [List.countP_eq_length, List.all_eq_true]
  have hle := List.countP_le_length (p := fun p => g.isExternalIo p.node) (l := d.consumers)
  rw [hany]
  -- how many members read the channel is all that counts from here on
  generalize (d.consumers.countP fun p => g.isExternalIo p.node) = k at hany hall hle ⊢
  cases hmember : g.atMember d with
  | true =>
      by_cases hreaders : (d.consumers.all fun p => g.isExternalIo p.node) = true
      · have hk := hall.mp hreaders
        by_cases hwriter : g.isExternalIo d.producer.node = true
        · have hds : dutySorts g true d = [] := by
            simp [dutySorts, duties, hreaders, hwriter]
          rw [hds, if_pos hwriter]
          show 0 + 0 + 1 = 1 ∧ 0 + 0 + k = 1 ↔ _
          omega
        · have hds : dutySorts g true d = [.write] := by
            simp [dutySorts, duties, hreaders, hwriter]
          rw [hds, if_neg hwriter]
          show 1 + 0 + 0 = 1 ∧ 0 + 0 + k = 1 ↔ _
          omega
      · have hds : dutySorts g true d = [.read] := by
          simp [dutySorts, duties, hreaders]
        have hlt : k < d.consumers.length := Nat.lt_of_le_of_ne hle (mt hall.mpr hreaders)
        by_cases hwriter : g.isExternalIo d.producer.node = true
        · rw [hds, if_pos hwriter]
          show 0 + 0 + 1 = 1 ∧ 1 + 0 + k = 1 ↔ _
          omega
        · -- a member reads the channel and so does someone else, who alone is asked to
          have hsome : 0 < k := by
            rw [Graph.atMember, Bool.or_eq_true] at hmember
            exact hany.mp (hmember.resolve_left hwriter)
          rw [hds, if_neg hwriter]
          show 0 + 0 + 0 = 1 ∧ 1 + 0 + k = 1 ↔ _
          omega
  | false =>
      rw [Graph.atMember, Bool.or_eq_false_iff, ← Bool.not_eq_true, ← Bool.not_eq_true, hany]
        at hmember
      obtain ⟨hwriter, hk⟩ := hmember
      rw [if_neg hwriter]
      by_cases hsame : d.producerPartition = d.consumerPartition
      · have hds : dutySorts g false d = [.loop] := by
          simp [dutySorts, duties, hsame]
        rw [hds]
        show 0 + 1 + 0 = 1 ∧ 0 + 1 + k = 1 ↔ _
        omega
      · have hds : dutySorts g false d = [.write, .read] := by
          simp [dutySorts, duties, hsame]
        rw [hds]
        show 1 + 0 + 0 = 1 ∧ 1 + 0 + k = 1 ↔ _
        omega

end Ends

section Certificates

namespace Graph

variable {g : Graph} {a : DomainAnalysis} {p : ProgramPlan}

/-- A channel that a member of a bundle drains feeds nothing else. -/
def DrainsAlone (g : Graph) (c : NodeId) : Prop :=
  (∃ p, g.Feeds c p ∧ g.isExternalIo p.node = true) → ∃! p, g.Feeds c p

theorem existsUnique_feeds_iff (hg : g.WellFormed) (c : NodeId) :
    (∃! p, g.Feeds c p) ↔ (g.fedPorts c).length = 1 := by
  simp only [ExistsUnique, ← mem_fedPorts]
  constructor
  · rintro ⟨p, hp, honly⟩
    have hone := List.eq_replicate_of_mem honly
    have hnodup := nodup_fedPorts hg c
    rw [hone, List.nodup_replicate] at hnodup
    have hpos := List.length_pos_of_mem hp
    omega
  · intro h
    obtain ⟨p, hp⟩ := List.length_eq_one_iff.mp h
    rw [hp]
    exact ⟨p, List.mem_singleton_self p, fun q hq => List.mem_singleton.mp hq⟩

theorem drainsAlone_iff (hg : g.WellFormed) (c : NodeId) :
    g.DrainsAlone c ↔
      (((g.fedPorts c).any fun p => g.isExternalIo p.node) = true → (g.fedPorts c).length = 1) := by
  unfold DrainsAlone
  rw [existsUnique_feeds_iff hg]
  simp only [List.any_eq_true, mem_fedPorts]

/-- A channel has one writer and one reader unless a member shares it. -/
theorem Planned.ends_once_iff (hg : g.WellFormed) (h : g.Planned a p) {c : NodeId} {n : Node}
    (hc : (c, n) ∈ g.channelNodes) :
    p.writers.count c = 1 ∧ p.readers.count c = 1 ↔ g.DrainsAlone c := by
  obtain ⟨hn, hk⟩ := mem_channelNodes.mp hc
  obtain ⟨spec, hspec⟩ : ∃ spec, n.kind = .channel spec := by
    cases hkind : n.kind <;> simp_all [NodeKind.isChannel]
  obtain ⟨d, hd, rfl, hdesc⟩ := exists_descriptor h.described hn hspec
  rw [h.count_writers hg hd, h.count_readers hg hd, Dataflow.ends_once_iff hdesc.read,
    drainsAlone_iff hg, hdesc.consumers]

/-- All channels have one writer and one reader where no member shares the channel that it drains,
and only there. -/
theorem Planned.endsPaired_iff (hg : g.WellFormed) (h : g.Planned a p) :
    p.endsPaired g = true ↔ ∀ c, g.isChannel c = true → g.DrainsAlone c := by
  have hnode : p.endsPaired g = true ↔
      ∀ n ∈ g.channelNodes, p.writers.count n.1 = 1 ∧ p.readers.count n.1 = 1 := by
    unfold ProgramPlan.endsPaired
    rw [List.all_eq_true]
    simp only [Bool.and_eq_true, decide_eq_true_eq]
    rfl
  rw [hnode]
  constructor
  · intro hall c hc
    obtain ⟨n, hn, hk⟩ := isChannel_iff.mp hc
    have hmem : (c, n) ∈ g.channelNodes := mem_channelNodes.mpr ⟨hn, hk⟩
    exact (h.ends_once_iff hg hmem).mp (hall _ hmem)
  · rintro hall ⟨c, n⟩ hmem
    obtain ⟨hn, hk⟩ := mem_channelNodes.mp hmem
    exact (h.ends_once_iff hg hmem).mpr (hall c (isChannel_iff.mpr ⟨n, hn, hk⟩))

/-- Which certificate a plan without errors has: its nodes are always in order, and its channels are
unless a channel that feeds a member of a bundle feeds another port too. -/
theorem synthesize_cert {policy : ChannelPolicy} {s : Synthesis}
    (hvalid : ∀ v, g.validate policy = .ok v → ∀ d ∈ v.diagnostics, d.errorClass ≠ .structural)
    (hs : g.synthesize a = .ok s) (hclean : hasErrors s.diagnostics = false) :
    (∀ id, s.plan.scheduled.count id = if (g.node? id).any Node.isInternal then 1 else 0) ∧
      s.plan.nodesOnce g = true ∧
      (s.plan.endsPaired g = true ↔
        ∀ c, g.isChannel c = true →
          (∃ p, g.Feeds c p ∧ g.isExternalIo p.node = true) → ∃! p, g.Feeds c p) ∧
      ((∀ c, g.isChannel c = true → ∃! p, g.Feeds c p) → s.plan.endsPaired g = true) := by
  have hg := wellFormed_of_forall_ne_structural hvalid
  have hplan : g.Planned a s.plan := planned_iff.mpr ⟨s, hs, hclean, rfl⟩
  have hnodes := hplan.scheduled_perm hg
  have hends := hplan.endsPaired_iff hg
  refine ⟨?_, nodesOnce_of_perm hnodes, hends, ?_⟩
  · intro id
    rw [hnodes.count_eq, count_internal]
  · intro hsingle
    exact hends.mpr fun c hc _ => hsingle c hc

/-- A channel between two partitions, and one that two members of a bundle share. -/
def sharedOut : Graph :=
  let build : Except Trap Graph := do
    let (a, g) ← empty.addPrimitive none "a" 0 2 ⟨0⟩
    let (b, g) ← g.addIo none "b" { bundle := "out", direction := .output, member := 0 }
    let (c, g) ← g.addIo none "c" { bundle := "out", direction := .output, member := 1 }
    let (d, g) ← g.addPrimitive none "d" 1 0 ⟨1⟩
    let (k, g) ← g.addChannel none "k" { capacity := 8, blockSize := 4 } .io (some .f32)
    let (m, g) ← g.addChannel none "m" { capacity := 8, blockSize := 4 } ⟨1⟩ none
    let (_, g) ← g.connect ⟨a, 0⟩ ⟨k, 0⟩
    let (_, g) ← g.connect ⟨k, 0⟩ ⟨b, 0⟩
    let (_, g) ← g.connect ⟨k, 0⟩ ⟨c, 0⟩
    let (_, g) ← g.connect ⟨a, 1⟩ ⟨m, 0⟩
    let (_, g) ← g.connect ⟨m, 0⟩ ⟨d, 0⟩
    return g
  build.toOption.getD empty

theorem isClean_sharedOut : sharedOut.isClean {} = true := by
  decide

/-- The plan runs both nodes once, but the shared channel has two readers. -/
theorem synthesize_cert_sharedOut :
    ∃ v s, sharedOut.validate {} = .ok v ∧ v.diagnostics = [] ∧
      sharedOut.synthesize v.analysis = .ok s ∧ hasErrors s.diagnostics = false ∧
      s.plan.scheduled.count ⟨0⟩ = 1 ∧ s.plan.scheduled.count ⟨1⟩ = 0 ∧
      s.plan.nodesOnce sharedOut = true ∧ s.plan.endsPaired sharedOut = false := by
  have hv := validate_of_isClean isClean_sharedOut
  have hplans : sharedOut.plansInOrder sharedOut.computeRates.analysis = true := by
    decide +kernel
  obtain ⟨s, hs, hclean⟩ := exists_synthesize_of_plansInOrder hplans
  have hvalid : ∀ v, sharedOut.validate {} = .ok v →
      ∀ d ∈ v.diagnostics, d.errorClass ≠ .structural := by
    intro v hv' d hd
    cases hv.symm.trans hv'
    cases hd
  obtain ⟨hcount, hnodes, hends, -⟩ := synthesize_cert hvalid hs hclean
  refine ⟨_, s, hv, rfl, hs, hclean, (hcount ⟨0⟩).trans (by decide +kernel),
    (hcount ⟨1⟩).trans (by decide +kernel), hnodes, ?_⟩
  rw [← Bool.not_eq_true, hends]
  intro hall
  have hfirst : sharedOut.Feeds ⟨4⟩ ⟨⟨1⟩, 0⟩ := mem_fedPorts.mp (by decide +kernel)
  have hsecond : sharedOut.Feeds ⟨4⟩ ⟨⟨2⟩, 0⟩ := mem_fedPorts.mp (by decide +kernel)
  obtain ⟨p, -, honly⟩ := hall ⟨4⟩ (by decide +kernel) ⟨_, hfirst, by decide +kernel⟩
  cases (honly _ hfirst).trans (honly _ hsecond).symm

end Graph

end Certificates

end Dataflow
