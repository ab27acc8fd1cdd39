import Dataflow.Proofs.Plan.Coverage

/-!
# Members of bundles and their channels

A plan has a member for every node that talks to the outside, and lays it out by the
channels at the node.

**Sizes.**  All channels at a member have blocks of the size of the member's: another size is
refused.

**Types.**  The type of a member is that of the first of its channels.  A member that is fed has no
other; one that feeds several channels gets no report when they hold elements of different types.
So the types agree exactly where the channels that a node feeds from the outside hold elements of
one type (`typed_iff`).

**Result.**  `synthesize_members`: plans without errors.
-/

namespace Dataflow

/-- A channel takes the blocks of a member as they are: it has a descriptor, blocks of the member's
size and elements of its type. -/
def ProgramPlan.Suits (p : ProgramPlan) (m : BundleMember) (c : NodeId) : Prop :=
  ∃ d, p.channel? c = some d ∧ d.blockSize = m.blockSize ∧ d.elem = some m.elem

namespace Graph

/-- The type of the elements of a channel: the type of its input. -/
def elemOf (g : Graph) (c : NodeId) : Option ElemType :=
  (g.node? c).bind fun n => n.inputs.head?.bind Port.ty

/-- The channels that a node feeds from the outside hold elements of one type. -/
def FeedsAlike (g : Graph) : Prop :=
  ∀ x p q, g.isExternalIo x = true → g.Feeds x p → g.Feeds x q →
    g.isChannel p.node = true → g.isChannel q.node = true → g.elemOf p.node = g.elemOf q.node

theorem feedsAlike_iff {g : Graph} :
    g.FeedsAlike ↔ ∀ n ∈ g.ioNodes, ∀ p ∈ g.fedPorts n.1, ∀ q ∈ g.fedPorts n.1,
      g.isChannel p.node = true → g.isChannel q.node = true →
      g.elemOf p.node = g.elemOf q.node := by
  constructor
  · rintro h ⟨x, ep⟩ hx p hp q hq
    obtain ⟨n, hn, hk⟩ := mem_ioNodes.mp hx
    exact h x p q (isExternalIo_iff.mpr ⟨n, ep, hn, hk⟩) (mem_fedPorts.mp hp) (mem_fedPorts.mp hq)
  · intro h x p q hx hp hq
    obtain ⟨n, ep, hn, hk⟩ := isExternalIo_iff.mp hx
    exact h (x, ep) (mem_ioNodes.mpr ⟨n, hn, hk⟩) p (mem_fedPorts.mpr hp) q (mem_fedPorts.mpr hq)

instance {g : Graph} : Decidable g.FeedsAlike := decidable_of_iff _ feedsAlike_iff.symm

namespace Planned

variable {g : Graph} {a : DomainAnalysis} {p : ProgramPlan} {b : BundlePlan} {m : BundleMember}
  {d : ChannelDescriptor}

section Descriptors

theorem channel?_eq_some_iff (h : g.Planned a p) {c : NodeId} :
    p.channel? c = some d ↔ d ∈ p.channels ∧ d.node = c := by
  have hfound : ∀ {e}, p.channel? c = some e → e ∈ p.channels ∧ e.node = c := by
    intro e he
    have hnode := List.find?_some he
    exact ⟨List.mem_of_find?_eq_some he, of_decide_eq_true hnode⟩
  refine ⟨hfound, ?_⟩
  rintro ⟨hd, rfl⟩
  cases hfind : p.channel? d.node with
  | none =>
      have hno := List.find?_eq_none.mp hfind d hd
      simp at hno
  | some e =>
      obtain ⟨he, hnode⟩ := hfound hfind
      rw [List.inj_on_of_nodup_map h.distinct he hd hnode]

theorem elem_eq (h : g.Planned a p) (hd : d ∈ p.channels) : d.elem = g.elemOf d.node := by
  rw [h.channels_eq] at hd
  obtain ⟨n, spec, hn, -, hdesc⟩ := mem_channels_iff.mp hd
  rw [hdesc.elem, elemOf, hn]
  rfl

theorem isChannel_of_mem (h : g.Planned a p) (hd : d ∈ p.channels) : g.isChannel d.node = true := by
  rw [h.channels_eq] at hd
  obtain ⟨n, spec, hn, hk, -⟩ := mem_channels_iff.mp hd
  exact isChannel_iff.mpr ⟨n, hn, by rw [hk]; rfl⟩

/-- The node that writes a channel feeds it. -/
theorem exists_feeds (h : g.Planned a p) (hd : d ∈ p.channels) :
    ∃ q : PortRef, q.node = d.node ∧ g.Feeds d.producer.node q := by
  rw [h.channels_eq] at hd
  obtain ⟨n, spec, -, -, hdesc⟩ := mem_channels_iff.mp hd
  obtain ⟨w, arc, hw, hsrc⟩ := hdesc.writer
  obtain ⟨q, hq, hnode⟩ := Arc.dstNode_eq_some.mp hw.ends
  exact ⟨q, hnode, w, arc, hw.arc_eq, hsrc ▸ rfl, hq⟩

/-- The channel that a node feeds is written by that node. -/
theorem producer_of_feeds (h : g.Planned a p) {x : NodeId} {q : PortRef} (hfeeds : g.Feeds x q)
    (hq : g.isChannel q.node = true) :
    ∃ d ∈ p.channels, d.node = q.node ∧ d.producer.node = x := by
  obtain ⟨id, arc, harc, hsrc, hdst⟩ := hfeeds
  obtain ⟨d, hd, hnode, hproducer, -⟩ :=
    h.producer_eq harc (Arc.dstNode_eq_some.mpr ⟨q, hdst, rfl⟩) hq
  exact ⟨d, hd, hnode, hproducer ▸ hsrc⟩

end Descriptors

section Layout

/-- A bundle of a plan was laid out for a group of members. -/
theorem exists_layBundle (h : g.Planned a p) (hb : b ∈ p.bundles) :
    ∃ name group ds, g.bundleGroup? name = some group ∧
      layBundle g p.channels group = .ok (some b, ds) := by
  obtain ⟨-, laid, hlaid, -, rfl⟩ := h
  rw [planOf_bundles] at hb
  obtain ⟨⟨_, ds⟩, hr, rfl⟩ := List.mem_filterMap.mp hb
  obtain ⟨group, hgroup, hlay⟩ := exists_of_mem_mapM hlaid _ hr
  obtain ⟨name, -, hname⟩ := List.mem_filterMap.mp hgroup
  exact ⟨name, group, ds, hname, hlay⟩

/-- A member has the type and the blocks of the channels at its node, and lists these. -/
theorem slot_eq (h : g.Planned a p) (hb : b ∈ p.bundles) (hm : m ∈ b.members) :
    slot? p.channels b.direction m.node = some (m.elem, m.blockSize) ∧
      m.channels = reach p.channels b.direction m.node := by
  obtain ⟨name, group, ds, -, hlay⟩ := h.exists_layBundle hb
  obtain ⟨-, hdir, hmembers⟩ := layBundle_some hlay
  obtain ⟨x, -, start, hlaid⟩ := hmembers m hm
  obtain ⟨slot, hslot, rfl⟩ := layMember_eq_ok_iff.mp hlaid
  rw [hdir]
  exact ⟨hslot, rfl⟩

/-- A member has the type of one of its channels, and the size of the blocks of all of them. -/
theorem member_spec (h : g.Planned a p) (hb : b ∈ p.bundles) (hm : m ∈ b.members) :
    (∃ d ∈ p.channels, d.elem = some m.elem) ∧
      ∀ c ∈ m.channels, ∃ d ∈ p.channels, d.node = c ∧ d.blockSize = m.blockSize := by
  obtain ⟨hslot, hchannels⟩ := h.slot_eq hb hm
  obtain ⟨hhead, hsame⟩ := slot?_eq_some_iff.mp hslot
  have hsub : attached p.channels b.direction m.node ⊆ p.channels := by
    rw [attached_eq_filter]
    exact List.filter_sublist.subset
  constructor
  · obtain ⟨d, hd, heq⟩ := List.mem_map.mp (List.mem_of_head? hhead)
    exact ⟨d, hsub hd, (Prod.mk.inj heq).2⟩
  · intro c hc
    rw [hchannels] at hc
    obtain ⟨d, hd, rfl⟩ := List.mem_map.mp hc
    exact ⟨d, hsub hd, rfl, hsame _ (List.mem_map_of_mem hd)⟩

/-- The channels that a member lists are those at its node. -/
theorem mem_channels_iff_attaches (h : g.Planned a p) (hb : b ∈ p.bundles) (hm : m ∈ b.members)
    (hd : d ∈ p.channels) : d.node ∈ m.channels ↔ attaches b.direction m.node d = true := by
  rw [(h.slot_eq hb hm).2, reach, attached_eq_filter, List.mem_map]
  constructor
  · rintro ⟨e, he, hnode⟩
    obtain ⟨he, hat⟩ := List.mem_filter.mp he
    rw [← List.inj_on_of_nodup_map h.distinct he hd hnode]
    exact hat
  · intro hat
    exact ⟨d, List.mem_filter.mpr ⟨hd, hat⟩, rfl⟩

/-- The first of the channels of a member has the type of the member. -/
theorem exists_first (h : g.Planned a p) (hb : b ∈ p.bundles) (hm : m ∈ b.members) :
    ∃ first ∈ p.channels, m.channels.head? = some first.node ∧ first.elem = some m.elem := by
  obtain ⟨hslot, hchannels⟩ := h.slot_eq hb hm
  obtain ⟨hhead, -⟩ := slot?_eq_some_iff.mp hslot
  rw [attached_eq_filter, List.head?_map, Option.map_eq_some_iff] at hhead
  obtain ⟨first, hfirst, heq⟩ := hhead
  refine ⟨first, List.mem_of_mem_filter (List.mem_of_head? hfirst), ?_, (Prod.mk.inj heq).2⟩
  rw [hchannels, reach, attached_eq_filter, List.head?_map, hfirst]
  rfl

theorem isExternalIo_member (h : g.Planned a p) (hg : g.WellFormed) (hb : b ∈ p.bundles)
    (hm : m ∈ b.members) : g.isExternalIo m.node = true := by
  obtain ⟨name, group, ds, hname, hlay⟩ := h.exists_layBundle hb
  obtain ⟨x, hx, start, hlaid⟩ := (layBundle_some hlay).2.2 m hm
  obtain ⟨slot, -, rfl⟩ := layMember_eq_ok_iff.mp hlaid
  have hmem := (bundleGroup?_eq_some hg hname).1.mem_iff.mp (List.mem_map_of_mem hx)
  obtain ⟨⟨id, ep⟩, hn, heq⟩ := List.mem_map.mp hmem
  obtain ⟨n, hn, hk⟩ := mem_ioNodes.mp (List.mem_of_mem_filter hn)
  exact isExternalIo_iff.mpr ⟨n, ep, heq ▸ hn, hk⟩

/-- A plan has a member for every node that talks to the outside. -/
theorem exists_member (h : g.Planned a p) (hg : g.WellFormed) {x : NodeId} {n : Node}
    {ep : IoEndpoint} (hn : g.node? x = some n) (hk : n.kind = .externalIo ep) :
    ∃ b ∈ p.bundles, b.direction = ep.direction ∧ ∃ m ∈ b.members, m.node = x := by
  have hio : (x, ep) ∈ g.ioNodes := mem_ioNodes.mpr ⟨n, hn, hk⟩
  obtain ⟨-, laid, hlaid, hnone, rfl⟩ := h
  cases hgroup : g.bundleGroup? ep.bundle with
  | none =>
      have hempty := bundleGroup?_eq_none hgroup
      have hno := List.filter_eq_nil_iff.mp hempty _ hio
      simp at hno
  | some group =>
      obtain ⟨hmembers, hdir⟩ := bundleGroup?_eq_some hg hgroup
      have hin : x ∈ group.members.map Prod.snd :=
        hmembers.mem_iff.mpr (List.mem_map.mpr ⟨_, List.mem_filter.mpr ⟨hio, by simp⟩, rfl⟩)
      obtain ⟨y, hy, rfl⟩ := List.mem_map.mp hin
      have hlisted : group ∈ g.bundleGroups :=
        List.mem_filterMap.mpr ⟨ep.bundle, mem_bundleNames hio, hgroup⟩
      obtain ⟨⟨_, ds⟩, hr, hlay⟩ := exists_mem_of_mapM hlaid group hlisted
      have hds : ds = [] := List.flatMap_eq_nil_iff.mp hnone _ hr
      obtain ⟨b, rfl, m, hm, start, hlaid⟩ := exists_member_layBundle hlay hds hy
      obtain ⟨slot, -, hmeq⟩ := layMember_eq_ok_iff.mp hlaid
      refine ⟨b, ?_, ?_, m, hm, by rw [hmeq]⟩
      · rw [planOf_bundles]
        exact List.mem_filterMap.mpr ⟨_, hr, rfl⟩
      · rw [(layBundle_some hlay).2.1]
        exact (hdir _ hio rfl).symm

/-- The member of a node that talks to the outside, as the channels of the graph determine it. -/
theorem exists_laid (h : g.Planned a p) (hg : g.WellFormed) {x : NodeId} {n : Node}
    {ep : IoEndpoint} (hn : g.node? x = some n) (hk : n.kind = .externalIo ep) :
    ∃ b ∈ p.bundles, ∃ m ∈ b.members,
      slot? (oks (g.describeChannels a)) ep.direction x = some (m.elem, m.blockSize) ∧
        m.channels = reach (oks (g.describeChannels a)) ep.direction x := by
  obtain ⟨b, hb, hdir, m, hm, rfl⟩ := h.exists_member hg hn hk
  refine ⟨b, hb, m, hm, ?_⟩
  rw [← h.channels_eq, ← hdir]
  exact h.slot_eq hb hm

end Layout

section Types

/-- A member that is fed has one channel. -/
theorem channels_of_output (h : g.Planned a p) (hg : g.WellFormed) (hb : b ∈ p.bundles)
    (hm : m ∈ b.members) (hout : b.direction = .output) (hd : d ∈ p.channels)
    (hlisted : d.node ∈ m.channels) : m.channels = [d.node] := by
  have hat := (h.mem_channels_iff_attaches hb hm hd).mp hlisted
  rw [hout] at hat
  obtain ⟨q, hq, hnode⟩ := List.any_eq_true.mp hat
  have hnode : q.node = m.node := of_decide_eq_true hnode
  have hio := h.isExternalIo_member hg hb hm
  have hone := attached_output_eq hg h.described (h.channels_eq ▸ hd) hq (hnode ▸ hio)
  rw [(h.slot_eq hb hm).2, hout, reach, h.channels_eq, ← hnode, hone]
  rfl

/-- Two channels of a member hold elements of one type if the nodes outside feed channels of one
type. -/
theorem elemOf_eq_of_feedsAlike (h : g.Planned a p) (hg : g.WellFormed) (halike : g.FeedsAlike)
    (hb : b ∈ p.bundles) (hm : m ∈ b.members) {e : ChannelDescriptor} (hd : d ∈ p.channels)
    (he : e ∈ p.channels) (hdm : d.node ∈ m.channels) (hem : e.node ∈ m.channels) :
    g.elemOf d.node = g.elemOf e.node := by
  cases hdir : b.direction with
  | input =>
      rw [h.mem_channels_iff_attaches hb hm hd, hdir] at hdm
      rw [h.mem_channels_iff_attaches hb hm he, hdir] at hem
      have hdm : d.producer.node = m.node := of_decide_eq_true hdm
      have hem : e.producer.node = m.node := of_decide_eq_true hem
      obtain ⟨q, hq, hfeeds⟩ := h.exists_feeds hd
      obtain ⟨r, hr, hfeeds'⟩ := h.exists_feeds he
      have hsame := halike m.node q r (h.isExternalIo_member hg hb hm) (hdm ▸ hfeeds)
        (hem ▸ hfeeds') (hq ▸ h.isChannel_of_mem hd) (hr ▸ h.isChannel_of_mem he)
      rw [hq, hr] at hsame
      exact hsame
  | output =>
      rw [h.channels_of_output hg hb hm hdir hd hdm, List.mem_singleton] at hem
      rw [hem]

/-- A member that feeds a channel lists it. -/
theorem exists_lists (h : g.Planned a p) (hg : g.WellFormed) {x : NodeId}
    (hx : g.isExternalIo x = true) {q : PortRef} (hfeeds : g.Feeds x q) :
    ∃ b ∈ p.bundles, ∃ m ∈ b.members, m.node = x ∧
      ∀ r : PortRef, g.Feeds x r → g.isChannel r.node = true → r.node ∈ m.channels := by
  obtain ⟨n, ep, hn, hk⟩ := isExternalIo_iff.mp hx
  have hdir : ep.direction = .input := by
    obtain ⟨id, arc, harc, rfl, -⟩ := hfeeds
    exact direction_of_hasOutput hg (hg.source harc) hn hk
  obtain ⟨b, hb, hbdir, m, hm, rfl⟩ := h.exists_member hg hn hk
  refine ⟨b, hb, m, hm, rfl, ?_⟩
  intro r hr hc
  obtain ⟨d, hd, hnode, hproducer⟩ := h.producer_of_feeds hr hc
  rw [← hnode, h.mem_channels_iff_attaches hb hm hd, hbdir, hdir]
  exact decide_eq_true hproducer

/-- All channels take the blocks of their members where the nodes outside feed channels of one type,
and only there. -/
theorem typed_iff (h : g.Planned a p) (hg : g.WellFormed) :
    (∀ b ∈ p.bundles, ∀ m ∈ b.members, ∀ c ∈ m.channels, p.Suits m c) ↔ g.FeedsAlike := by
  constructor
  · intro hsuits x q r hx hq hr hqc hrc
    obtain ⟨b, hb, m, hm, -, hlists⟩ := h.exists_lists hg hx hq
    -- the type of the member is that of either channel
    have helem : ∀ c ∈ m.channels, g.elemOf c = some m.elem := by
      intro c hc
      obtain ⟨d, hd, -, helem⟩ := hsuits b hb m hm c hc
      obtain ⟨hmem, rfl⟩ := h.channel?_eq_some_iff.mp hd
      rw [← h.elem_eq hmem, helem]
    rw [helem _ (hlists q hq hqc), helem _ (hlists r hr hrc)]
  · intro halike b hb m hm c hc
    obtain ⟨d, hd, rfl, hblock⟩ := (h.member_spec hb hm).2 c hc
    obtain ⟨first, hfirst, hhead, helem⟩ := h.exists_first hb hm
    refine ⟨d, h.channel?_eq_some_iff.mpr ⟨hd, rfl⟩, hblock, ?_⟩
    rw [h.elem_eq hd, h.elemOf_eq_of_feedsAlike hg halike hb hm hd hfirst hc
      (List.mem_of_head? hhead),
      ← h.elem_eq hfirst, helem]

end Types

end Planned

section Plans

variable {g : Graph} {a : DomainAnalysis}

/-- The members of the bundles of a plan without errors, and their channels.

* Every channel of a member has a descriptor, with blocks of the member's size.
* The first one also holds elements of the member's type.
* All of them do, for every member, exactly where the channels that a node feeds from the outside
  hold elements of one type. -/
theorem synthesize_members {policy : ChannelPolicy} {s : Synthesis}
    (hvalid : ∀ v, g.validate policy = .ok v → ∀ d ∈ v.diagnostics, d.errorClass ≠ .structural)
    (hs : g.synthesize a = .ok s) (hclean : hasErrors s.diagnostics = false) :
    (∀ b ∈ s.plan.bundles, ∀ m ∈ b.members,
      (∀ c ∈ m.channels, ∃ d, s.plan.channel? c = some d ∧ d.blockSize = m.blockSize) ∧
        ∃ c, m.channels.head? = some c ∧ s.plan.Suits m c) ∧
      ((∀ b ∈ s.plan.bundles, ∀ m ∈ b.members, ∀ c ∈ m.channels, s.plan.Suits m c) ↔
        g.FeedsAlike) := by
  have hg := wellFormed_of_forall_ne_structural hvalid
  have hplan : g.Planned a s.plan := planned_iff.mpr ⟨s, hs, hclean, rfl⟩
  have hsize : ∀ b ∈ s.plan.bundles, ∀ m ∈ b.members, ∀ c ∈ m.channels,
      ∃ d, s.plan.channel? c = some d ∧ d.blockSize = m.blockSize := by
    intro b hb m hm c hc
    obtain ⟨d, hd, rfl, hblock⟩ := (hplan.member_spec hb hm).2 c hc
    exact ⟨d, hplan.channel?_eq_some_iff.mpr ⟨hd, rfl⟩, hblock⟩
  refine ⟨fun b hb m hm => ⟨hsize b hb m hm, ?_⟩, hplan.typed_iff hg⟩
  obtain ⟨first, hfirst, hhead, helem⟩ := hplan.exists_first hb hm
  obtain ⟨d, hd, hblock⟩ := hsize b hb m hm _ (List.mem_of_head? hhead)
  cases (hplan.channel?_eq_some_iff.mpr ⟨hfirst, rfl⟩).symm.trans hd
  exact ⟨first.node, hhead, first, hd, hblock, helem⟩

/-- What evaluation can show of a graph: that it is valid, has a plan, and which channels a
member of it has. -/
theorem exists_clean_plan (hclean : g.isClean {} = true)
    (hplans : g.plansInOrder g.computeRates.analysis = true) {x : NodeId} {n : Node}
    {ep : IoEndpoint} (hn : g.node? x = some n) (hk : n.kind = .externalIo ep) :
    (∀ v, g.validate {} = .ok v → ∀ d ∈ v.diagnostics, d.errorClass ≠ .structural) ∧
      ∃ s, g.synthesize g.computeRates.analysis = .ok s ∧ hasErrors s.diagnostics = false ∧
        g.Planned g.computeRates.analysis s.plan ∧ ∃ b ∈ s.plan.bundles, ∃ m ∈ b.members,
          slot? (oks (g.describeChannels g.computeRates.analysis)) ep.direction x =
              some (m.elem, m.blockSize) ∧
            m.channels = reach (oks (g.describeChannels g.computeRates.analysis))
              ep.direction x := by
  have hvalid : ∀ v, g.validate {} = .ok v → ∀ d ∈ v.diagnostics, d.errorClass ≠ .structural := by
    intro v hv d hd
    cases (validate_of_isClean hclean).symm.trans hv
    cases hd
  obtain ⟨s, hs, hnone⟩ := exists_synthesize_of_plansInOrder hplans
  have hplan : g.Planned _ s.plan := planned_iff.mpr ⟨s, hs, hnone, rfl⟩
  exact ⟨hvalid, s, hs, hnone, hplan,
    hplan.exists_laid (wellFormed_of_forall_ne_structural hvalid) hn hk⟩

/-- A member that feeds two channels, in two partitions. -/
def feedsTwo (first second : ElemType) : Graph :=
  let build : Except Trap Graph := do
    let (x, g) ← empty.addIo none "x" { bundle := "in", direction := .input, member := 0 }
    let (a, g) ← g.addPrimitive none "a" 1 0 ⟨0⟩
    let (b, g) ← g.addPrimitive none "b" 1 0 ⟨1⟩
    let (k, g) ← g.addChannel none "k" { capacity := 8, blockSize := 4 } ⟨0⟩ (some first)
    let (m, g) ← g.addChannel none "m" { capacity := 8, blockSize := 4 } ⟨1⟩ (some second)
    let (_, g) ← g.connect ⟨x, 0⟩ ⟨k, 0⟩
    let (_, g) ← g.connect ⟨k, 0⟩ ⟨a, 0⟩
    let (_, g) ← g.connect ⟨x, 0⟩ ⟨m, 0⟩
    let (_, g) ← g.connect ⟨m, 0⟩ ⟨b, 0⟩
    return g
  build.toOption.getD empty

/-- With channels of one type, both take the blocks of the member. -/
theorem synthesize_members_feedsTwo :
    ∃ v s, (feedsTwo .f32 .f32).validate {} = .ok v ∧ v.diagnostics = [] ∧
      (feedsTwo .f32 .f32).synthesize v.analysis = .ok s ∧ hasErrors s.diagnostics = false ∧
      ∃ b ∈ s.plan.bundles, ∃ m ∈ b.members,
        m.channels = [⟨3⟩, ⟨4⟩] ∧ s.plan.Suits m ⟨3⟩ ∧ s.plan.Suits m ⟨4⟩ := by
  have hsound : (feedsTwo .f32 .f32).isClean {} = true := by decide
  obtain ⟨n, hn, hk⟩ : ∃ n, (feedsTwo .f32 .f32).node? ⟨0⟩ = some n ∧
      n.kind = .externalIo { bundle := "in", direction := .input, member := 0 } := by
    decide
  obtain ⟨hvalid, s, hs, hclean, -, b, hb, m, hm, -, hreach⟩ :=
    exists_clean_plan hsound (by decide) hn hk
  have hchannels : m.channels = [⟨3⟩, ⟨4⟩] := hreach.trans (by decide)
  have hsuits := (synthesize_members hvalid hs hclean).2.mpr (by decide) b hb m hm
  rw [hchannels] at hsuits
  exact ⟨_, s, validate_of_isClean hsound, rfl, hs, hclean, b, hb, m, hm, hchannels,
    hsuits _ (by decide), hsuits _ (by decide)⟩

/-- With channels of two types nothing is reported: the member has the type of the first, and its
blocks do not suit the second. -/
theorem feedsTwo_unsuited :
    ∃ v s, (feedsTwo .f32 .i32).validate {} = .ok v ∧ v.diagnostics = [] ∧
      (feedsTwo .f32 .i32).synthesize v.analysis = .ok s ∧ hasErrors s.diagnostics = false ∧
      ∃ b ∈ s.plan.bundles, ∃ m ∈ b.members,
        m.channels = [⟨3⟩, ⟨4⟩] ∧ m.elem = .f32 ∧ ¬ s.plan.Suits m ⟨4⟩ := by
  have hsound : (feedsTwo .f32 .i32).isClean {} = true := by decide
  obtain ⟨n, hn, hk⟩ : ∃ n, (feedsTwo .f32 .i32).node? ⟨0⟩ = some n ∧
      n.kind = .externalIo { bundle := "in", direction := .input, member := 0 } := by
    decide
  obtain ⟨-, s, hs, hclean, hplan, b, hb, m, hm, hslot, hreach⟩ :=
    exists_clean_plan hsound (by decide) hn hk
  have hfirst : (m.elem, m.blockSize) = (.f32, 4) := Option.some.inj (hslot.symm.trans (by decide))
  have helem : m.elem = .f32 := congrArg Prod.fst hfirst
  refine ⟨_, s, validate_of_isClean hsound, rfl, hs, hclean, b, hb, m, hm, hreach.trans (by decide),
    helem, ?_⟩
  rintro ⟨d, hd, -, hsame⟩
  obtain ⟨hmem, hnode⟩ := hplan.channel?_eq_some_iff.mp hd
  rw [hplan.elem_eq hmem, hnode, helem] at hsame
  exact absurd hsame (by decide)

end Plans

end Graph

end Dataflow
