import Dataflow.Proofs.Compilation
import Dataflow.Proofs.Insertion.Report
import Dataflow.Proofs.Plan.Inserted

/-!
# When sharing channels is harmless

A graph without channels that compiles when every crossing has a channel of its own is compiled
again under the same policy, except that crossings with equal needs share a channel.

**Result.**  The second compilation succeeds exactly if no crossing to a member of a bundle has a
companion with the same needs (`compile_sharing_iff`); its plan has no more channels than the first.

**Proof.**  A member that feeds channels has its type from the first of them, which is made for the
same arc in both runs.  A member that is fed has the same channel in both runs as long as its arc
has no companion.  So all frames are laid out as before, and what is left is the certificate of the
plan, which asks that a member share no channel.
-/

namespace Dataflow

section Companions

/-- Two crossings from one port to readers in one partition and at one rate. -/
def Graph.Alike (g : Graph) (i j : ArcId) (p q : PortRef) : Prop :=
  ∃ a b, g.arc? i = some a ∧ g.arc? j = some b ∧ a.src = b.src ∧ a.dst = .port p ∧
    b.dst = .port q ∧ (g.crossing? a).isSome = true ∧ (g.crossing? b).isSome = true ∧
    g.partitionOf p.node = g.partitionOf q.node ∧ g.inputDomain p = g.inputDomain q

/-- No crossing to a member of a bundle has a companion. -/
def Graph.MembersAlone (g : Graph) : Prop :=
  ∀ i j p q, i ≠ j → g.Alike i j p q → g.isExternalIo p.node = false

theorem Graph.membersAlone_iff {g : Graph} :
    g.MembersAlone ↔ ∀ x ∈ g.arcList, ∀ y ∈ g.arcList, ∀ p ∈ x.2.dstPort, ∀ q ∈ y.2.dstPort,
      ¬(x.1 ≠ y.1 ∧ x.2.src = y.2.src ∧ (g.crossing? x.2).isSome = true ∧
        (g.crossing? y.2).isSome = true ∧ g.partitionOf p.node = g.partitionOf q.node ∧
        g.inputDomain p = g.inputDomain q ∧ g.isExternalIo p.node = true) := by
  constructor
  · rintro h ⟨i, a⟩ ha ⟨j, b⟩ hb p hp q hq ⟨hne, hsrc, hk, hk', hpart, hdomain, hio⟩
    exact Bool.eq_false_iff.mp (h i j p q hne ⟨a, b, mem_arcList.mp ha, mem_arcList.mp hb, hsrc,
      Arc.dstPort_eq_some.mp hp, Arc.dstPort_eq_some.mp hq, hk, hk', hpart, hdomain⟩) hio
  · rintro h i j p q hne ⟨a, b, ha, hb, hsrc, hp, hq, hk, hk', hpart, hdomain⟩
    refine Bool.eq_false_iff.mpr fun hio => ?_
    exact h (i, a) (mem_arcList.mpr ha) (j, b) (mem_arcList.mpr hb) p
      (Arc.dstPort_eq_some.mpr hp) q (Arc.dstPort_eq_some.mpr hq)
      ⟨hne, hsrc, hk, hk', hpart, hdomain, hio⟩

instance (g : Graph) : Decidable g.MembersAlone := decidable_of_iff _ Graph.membersAlone_iff.symm

namespace Insertion

/-- A run without an error over a well-formed graph without channels. -/
structure Clean (g : Graph) (a : DomainAnalysis) (p : ChannelPolicy) (s : Insertion) : Prop where
  wellFormed : g.WellFormed
  free : ∀ id, g.isChannel id = false
  rates : a.Positive
  policy : hasErrors p.faults = false
  progress : Progress g a p g.crossings [] s
  records : Records g a p s
  clean : hasErrors s.diagnostics = false
  inserted : s.graph.WellFormed

variable {g : Graph} {a : DomainAnalysis} {p : ChannelPolicy} {s : Insertion} {i j : ArcId}
  {arc arc' : Arc} {dst dst' : PortRef} {key key' : ShareKey} {capacity capacity' : UInt32}

/-- Insertion into a valid graph is such a run. -/
theorem clean_insertChannels {v : Validation} (hfree : ∀ id, g.isChannel id = false)
    (hv : g.validate p = .ok v) (hvalid : hasErrors v.diagnostics = false)
    (hs : g.insertChannels v.analysis p = .ok s) (hclean : hasErrors s.diagnostics = false) :
    Clean g v.analysis p s := by
  obtain ⟨hg, -⟩ := Graph.wellFormed_of_validate hv hvalid
  exact ⟨hg, hfree, positive_of_validate hv hvalid, hasErrors_faults_of_insertChannels hs hclean,
    progress_insertChannels hg.toReferencesExist hs, records_insertChannels hg.toReferencesExist hs,
    hclean, wellFormed_of_valid hv hvalid hs hclean⟩

namespace Clean

theorem trace (h : Clean g a p s) : Extends g a p s := h.progress.trace

/-- The run carries the crossings and nothing else. -/
theorem mem_carried_iff (h : Clean g a p s) :
    i ∈ s.carried ↔ ∃ arc, g.arc? i = some arc ∧ (g.crossing? arc).isSome = true := by
  constructor
  · intro hi
    obtain ⟨x, hx, rfl⟩ := List.mem_map.mp (h.progress.carried i hi)
    obtain ⟨arc, harc, hk⟩ := mem_crossings.mp hx
    exact ⟨arc, harc, by simp [hk]⟩
  · rintro ⟨arc, harc, hk⟩
    obtain ⟨k, hk⟩ := Option.isSome_iff_exists.mp hk
    exact h.progress.clean h.clean (i, k) (mem_crossings.mpr ⟨arc, harc, hk⟩)

/-- Crossings with the same needs are alike. -/
theorem alike (h : Clean g a p s) (hi : i ∈ s.carried) (hj : j ∈ s.carried)
    (hneeds : g.Needs a p i arc dst key capacity)
    (hneeds' : g.Needs a p j arc' dst' key capacity') : g.Alike i j dst dst' := by
  obtain ⟨b, hb, hk⟩ := h.mem_carried_iff.mp hi
  obtain ⟨b', hb', hk'⟩ := h.mem_carried_iff.mp hj
  cases hb.symm.trans hneeds.arc_eq
  cases hb'.symm.trans hneeds'.arc_eq
  exact ⟨arc, arc', hb, hb', hneeds.starts.symm.trans hneeds'.starts, hneeds.ends, hneeds'.ends, hk,
    hk', hneeds.partition.trans hneeds'.partition.symm, hneeds.domain.trans hneeds'.domain.symm⟩

/-- What a channel on record feeds is the end of a crossing that it meets. -/
theorem needs_of_feeds (h : Clean g a p s) {e : ShareKey × InsertedChannel} (he : e ∈ s.entries)
    {q : PortRef} (hq : s.graph.Feeds e.2.channel q) :
    ∃ i arc capacity, i ∈ s.carried ∧ g.Needs a p i arc q e.1 capacity :=
  h.progress.needs_of_feeds h.records h.wellFormed.toReferencesExist he hq

end Clean

/-- Crossings that are alike have the same needs. -/
theorem key_eq_of_alike (h : g.Alike i j dst dst') (hneeds : g.Needs a p i arc dst key capacity)
    (hneeds' : g.Needs a p j arc' dst' key' capacity') : key = key' := by
  obtain ⟨b, b', hb, hb', hsrc, -, -, -, -, hpart, hdomain⟩ := h
  cases hb.symm.trans hneeds.arc_eq
  cases hb'.symm.trans hneeds'.arc_eq
  rw [hneeds.key_eq_iff hneeds', hneeds.fanKey?_eq, hneeds'.fanKey?_eq, hneeds.starts,
    hneeds'.starts, hsrc, ← hneeds.partition, ← hneeds'.partition, hpart, ← hneeds.domain,
    ← hneeds'.domain, hdomain]

end Insertion

end Companions

namespace Insertion

section Drains

variable {g : Graph} {a : DomainAnalysis} {p : ChannelPolicy} {s : Insertion}

/-- Under sharing, the members of bundles share no channel exactly if their crossings have no
companion. -/
theorem Clean.drainsAlone_iff (h : Clean g a p s) (hshare : p.shareFanout = true) :
    (∀ c, s.graph.isChannel c = true → s.graph.DrainsAlone c) ↔ g.MembersAlone := by
  constructor
  · intro hall i j q q' hne halike
    rw [Bool.eq_false_iff]
    intro hio
    obtain ⟨b, b', hb, hb', hsrc, hq, hq', hk, hk', -, -⟩ := id halike
    obtain ⟨e, he, hi⟩ := Insertion.mem_carried_iff.mp (h.mem_carried_iff.mpr ⟨b, hb, hk⟩)
    obtain ⟨f, hf, hj⟩ :=
      Insertion.mem_carried_iff.mp (h.mem_carried_iff.mpr ⟨b', hb', hk'⟩)
    obtain ⟨arc, dst, _, _, hneeds, -⟩ := h.records.delivered e he i hi
    obtain ⟨arc', dst', _, _, hneeds', -⟩ := h.records.delivered f hf j hj
    cases hb.symm.trans hneeds.arc_eq
    cases hb'.symm.trans hneeds'.arc_eq
    cases hq.symm.trans hneeds.ends
    cases hq'.symm.trans hneeds'.ends
    have hkey := key_eq_of_alike halike hneeds hneeds'
    cases List.inj_on_of_nodup_map (h.records.keys hshare) he hf hkey
    have hfeeds := h.records.feeds he hi hneeds
    have hfeeds' := h.records.feeds he hj hneeds'
    obtain ⟨n, hn, -⟩ := h.wellFormed.target hb hq
    have hio' : s.graph.isExternalIo q.node = true := (h.trace.isExternalIo_eq hn).trans hio
    obtain ⟨r, -, honly⟩ := hall e.2.channel (h.trace.isChannel (mem_routes_of_mem he))
      ⟨q, hfeeds, hio'⟩
    have hsame : q = q' := (honly q hfeeds).trans (honly q' hfeeds').symm
    exact hne (h.wellFormed.fanIn hb hb' hq (hsame ▸ hq'))
  · rintro halone c hc ⟨q, hq, hio⟩
    obtain ⟨n, hn, hk⟩ := Graph.isChannel_iff.mp hc
    obtain ⟨e, he, rfl⟩ := h.trace.exists_entry h.free hn hk
    obtain ⟨i, arc, _, hi, hneeds⟩ := h.needs_of_feeds he hq
    refine ⟨q, hq, ?_⟩
    intro q' hq'
    obtain ⟨j, arc', _, hj, hneeds'⟩ := h.needs_of_feeds he hq'
    by_cases hne : i = j
    · subst hne
      exact (needs_unique hneeds' hneeds).2.1
    · have hno := halone i j q q' hne (h.alike hi hj hneeds hneeds')
      obtain ⟨m, hm, -⟩ := h.wellFormed.target hneeds.arc_eq hneeds.ends
      rw [← h.trace.isExternalIo_eq hm, hio] at hno
      cases hno

end Drains

section Slots

variable {g : Graph} {a : DomainAnalysis} {p : ChannelPolicy} {s t : Insertion}

/-- What the channels of a plan look like at a member of a bundle. -/
def blocksAt (s : Insertion) (a : DomainAnalysis) (direction : IoDirection) (node : NodeId) :
    List (UInt32 × Option ElemType) :=
  (attached (oks (s.graph.describeChannels a)) direction node).map fun c => (c.blockSize, c.elem)

/-- The channels that a member feeds are on record. -/
theorem Clean.blocksAt_input (h : Clean g a p s) (node : NodeId) :
    s.blocksAt a .input node =
      (s.leads.filter fun l => l.1.src.node = node).map
        fun l => (l.1.block, l.2.bind g.arcType) := by
  have hview := congrArg
    (fun l : List (NodeId × UInt32 × Option ElemType) =>
      (l.filter fun v => v.1 = node).map Prod.snd)
    (h.records.map_view h.trace h.wellFormed h.free)
  simp only [List.filter_map, List.map_map] at hview
  exact hview

/-- A member feeds channels of the same type and size in both runs. -/
theorem Parallel.slot_input (h : Parallel s t) (hs : Clean g a p s) (ht : Clean g a p.sharing t)
    {node : NodeId} {slot : ElemType × UInt32}
    (hslot : slot? (oks (s.graph.describeChannels a)) .input node = some slot) :
    slot? (oks (t.graph.describeChannels a)) .input node = some slot := by
  rw [slot?_eq_some_iff] at hslot ⊢
  change (s.blocksAt a .input node).head? = _ ∧ ∀ v ∈ s.blocksAt a .input node, _ at hslot
  change (t.blocksAt a .input node).head? = _ ∧ ∀ v ∈ t.blocksAt a .input node, _
  rw [hs.blocksAt_input] at hslot
  rw [ht.blocksAt_input]
  obtain ⟨hhead, hall⟩ := hslot
  rw [List.head?_map, List.head?_filter] at hhead ⊢
  refine ⟨?_, ?_⟩
  · rw [h.first fun k => k.src.node = node]
    exact hhead
  · intro v hv
    obtain ⟨l, hl, rfl⟩ := List.mem_map.mp hv
    obtain ⟨hl, hsrc⟩ := List.mem_filter.mp hl
    obtain ⟨l', hl', hkey⟩ := List.mem_map.mp (h.key_mem.mp (List.mem_map_of_mem hl))
    have hin : l' ∈ s.leads.filter fun l => l.1.src.node = node := by
      rw [List.mem_filter, hkey]
      exact ⟨hl', hsrc⟩
    have hblock := hall _ (List.mem_map_of_mem hin)
    rw [hkey] at hblock
    exact hblock

/-- A member that no companion disturbs drains one channel, which has its type from the arc of the
member. -/
theorem Clean.blocksAt_output (h : Clean g a p s) (halone : g.MembersAlone) {i : ArcId} {arc : Arc}
    {q : PortRef} {key : ShareKey} {capacity : UInt32} (hi : i ∈ s.carried)
    (hneeds : g.Needs a p i arc q key capacity) (hio : g.isExternalIo q.node = true) :
    s.blocksAt a .output q.node = [(key.block, g.arcType i)] := by
  obtain ⟨e, he, hie⟩ := Insertion.mem_carried_iff.mp hi
  obtain ⟨arc', dst', _, _, hneeds', -⟩ := h.records.delivered e he i hie
  obtain ⟨rfl, rfl, rfl⟩ := needs_unique hneeds hneeds'
  have hdesc := h.records.described h.trace h.wellFormed h.free
  obtain ⟨n, spec, _, hn, hk, -⟩ := h.records.describes h.trace h.wellFormed he
  obtain ⟨d, hd, hnode, hdescribes⟩ := Graph.exists_descriptor hdesc hn hk
  have hq : q ∈ d.consumers := by
    rw [hdescribes.consumers, Graph.mem_fedPorts]
    exact h.records.feeds he hie hneeds
  obtain ⟨m, hm, -⟩ := h.wellFormed.target hneeds.arc_eq hneeds.ends
  have honly := attached_output_eq h.inserted hdesc hd hq ((h.trace.isExternalIo_eq hm).trans hio)
  obtain ⟨-, hblock, helem⟩ := h.records.view h.trace he hd hnode
  -- the first arc of the channel has the same needs, so it is the arc of the member
  obtain ⟨i₀, rest, arc₀, dst₀, _, harcs, hneeds₀, -⟩ := h.records.lead e he
  have hi₀ : i₀ ∈ s.carried := Insertion.mem_carried_iff.mpr ⟨e, he, by simp [harcs]⟩
  have hfirst : i₀ = i := by
    by_contra hne
    have hno := halone i i₀ q dst₀ (Ne.symm hne) (h.alike hi hi₀ hneeds hneeds₀)
    rw [hio] at hno
    cases hno
  unfold blocksAt
  rw [honly, List.map_singleton, hblock, helem, harcs, hfirst]
  rfl

/-- A member that no companion disturbs drains a channel of the same type and size in both runs. -/
theorem Clean.slot_output (hs : Clean g a p s) (ht : Clean g a p.sharing t)
    (halone : g.MembersAlone) {node : NodeId} (hio : g.isExternalIo node = true)
    {slot : ElemType × UInt32}
    (hslot : slot? (oks (s.graph.describeChannels a)) .output node = some slot) :
    slot? (oks (t.graph.describeChannels a)) .output node = some slot := by
  rw [slot?_eq_some_iff] at hslot ⊢
  change (s.blocksAt a .output node).head? = _ ∧ ∀ v ∈ s.blocksAt a .output node, _ at hslot
  change (t.blocksAt a .output node).head? = _ ∧ ∀ v ∈ t.blocksAt a .output node, _
  have hsame : t.blocksAt a .output node = s.blocksAt a .output node := by
    -- some channel is at the member, since it had a place
    have hne : attached (oks (s.graph.describeChannels a)) .output node ≠ [] := by
      intro hnil
      simp [blocksAt, hnil] at hslot
    obtain ⟨d, hd⟩ := List.exists_mem_of_ne_nil _ hne
    rw [attached_eq_filter, List.mem_filter] at hd
    obtain ⟨q, hq, hqn⟩ := List.any_eq_true.mp hd.2
    have hqn : q.node = node := of_decide_eq_true hqn
    subst hqn
    obtain ⟨n, spec, hn, hk, hdesc⟩ := Graph.mem_channels_iff.mp hd.1
    rw [hdesc.consumers, Graph.mem_fedPorts] at hq
    obtain ⟨e, he, heq⟩ := hs.trace.exists_entry hs.free hn (by rw [hk]; rfl)
    rw [← heq] at hq
    obtain ⟨i, arc, capacity, hi, hneeds⟩ := hs.needs_of_feeds he hq
    have hi' : i ∈ t.carried := ht.mem_carried_iff.mpr (hs.mem_carried_iff.mp hi)
    rw [hs.blocksAt_output halone hi hneeds hio,
      ht.blocksAt_output halone hi' (needs_sharing_iff.mpr hneeds) hio]
  rw [hsame]
  exact hslot

end Slots

section Plans

variable {g : Graph} {a : DomainAnalysis} {p : ChannelPolicy} {s t : Insertion} {plan : ProgramPlan}

/-- The run meets its certificate. -/
theorem Clean.allPass_insertionCert (h : Clean g a p s) : s.graph.insertionCert.allPass = true := by
  have hnone : g.ChannelsPaired := by
    intro id n hn hk
    have hid := h.free id
    rw [Graph.isChannel_iff.mpr ⟨n, hn, hk⟩] at hid
    cases hid
  have hcross := Graph.noDirectCrossing_iff.mpr
    fun _ _ harc => h.progress.crossing?_eq_none h.wellFormed.toReferencesExist h.clean harc
  have hblock := Graph.channelsHoldBlock_iff.mpr
    fun _ _ _ hn hk => h.trace.holdsBlock h.wellFormed h.rates h.policy hn hk
  have hpairs := Graph.channelsPaired_iff.mpr
    (h.progress.channelsPaired h.wellFormed.toReferencesExist hnone)
  simp [Certificate.allPass, Graph.insertionCert, hcross, hblock, hpairs]

/-- A plan has as many channels as are on record. -/
theorem Clean.length_channels (h : Clean g a p s) (hplan : s.graph.Planned a plan) :
    plan.channels.length = s.entries.length := by
  obtain ⟨-, laid, -, -, rfl⟩ := hplan
  have hnodes := congrArg List.length (h.records.map_node h.trace h.wellFormed h.free)
  rw [List.length_map, List.length_map] at hnodes
  exact hnodes

/-- Where the run without sharing has a plan, so has the run with sharing. -/
theorem Parallel.planned (h : Parallel s t) (hs : Clean g a p s) (ht : Clean g a p.sharing t)
    (halone : g.MembersAlone) (hplan : s.graph.Planned a plan) :
    ∃ plan', t.graph.Planned a plan' := by
  obtain ⟨-, laid, hlaid, hnone, -⟩ := hplan
  have hslots : ∀ group ∈ g.bundleGroups, ∀ m ∈ group.members, ∀ slot,
      slot? (oks (s.graph.describeChannels a)) group.direction m.2 = some slot →
        slot? (oks (t.graph.describeChannels a)) group.direction m.2 = some slot := by
    intro group hgroup m hm slot hslot
    obtain ⟨name, -, hname⟩ := List.mem_filterMap.mp hgroup
    obtain ⟨hperm, -⟩ := bundleGroup?_eq_some hs.wellFormed hname
    obtain ⟨⟨x, ep⟩, hx, hxm⟩ := List.mem_map.mp (hperm.mem_iff.mp (List.mem_map_of_mem hm))
    obtain ⟨n, hn, hk⟩ := mem_ioNodes.mp (List.mem_of_mem_filter hx)
    have hio : g.isExternalIo m.2 = true := isExternalIo_iff.mpr ⟨n, ep, hxm ▸ hn, hk⟩
    cases hdir : group.direction with
    | input =>
        rw [hdir] at hslot
        exact h.slot_input hs ht hslot
    | output =>
        rw [hdir] at hslot
        exact hs.slot_output ht halone hio hslot
  rw [hs.trace.bundleGroups_eq] at hlaid
  obtain ⟨laid', hlaid', hnone'⟩ := exists_layBundles t.graph hslots hlaid hnone
  rw [← ht.trace.bundleGroups_eq] at hlaid'
  exact ⟨_, ht.records.described ht.trace ht.wellFormed ht.free, laid', hlaid', hnone', rfl⟩

end Plans

end Insertion

section Compilations

namespace Graph

variable {g : Graph} {a : DomainAnalysis} {p : ChannelPolicy} {v : Validation} {s : Insertion}
  {c : Compilation} {plan : ProgramPlan}

/-- Validation does not look at sharing. -/
theorem validate_sharing : g.validate p.sharing = g.validate p := rfl

/-- A plan meets its certificate exactly if no member shares a channel. -/
theorem Planned.allPass_cert_iff (h : g.Planned a plan) (hg : g.WellFormed) :
    (plan.cert g).allPass = true ↔ ∀ c, g.isChannel c = true → g.DrainsAlone c := by
  rw [← h.endsPaired_iff hg]
  simp [Certificate.allPass, ProgramPlan.cert, nodesOnce_of_perm (h.scheduled_perm hg)]

/-- A graph without channels compiles if its members share no channel. -/
theorem exists_compile (hv : g.validate p = .ok v) (hvalid : hasErrors v.diagnostics = false)
    (hs : g.insertChannels v.analysis p = .ok s) (h : Insertion.Clean g v.analysis p s)
    (hplan : s.graph.Planned v.analysis plan)
    (halone : ∀ c, s.graph.isChannel c = true → s.graph.DrainsAlone c) :
    ∃ c, g.compile p .synthesize = .ok c ∧ c.Succeeds := by
  obtain ⟨u, hu, hclean, rfl⟩ := planned_iff.mp hplan
  have hcert := (hplan.allPass_cert_iff h.inserted).mpr halone
  have hinsert := h.allPass_insertionCert
  obtain ⟨hcompile, hnone⟩ := Compilation.compile_clean_iff.mpr
    ⟨v, s, u, hv, hvalid, hs, h.clean, hinsert, hu, hclean, hcert, rfl⟩
  exact ⟨_, hcompile, hnone, ⟨_, rfl, hinsert⟩, ⟨_, rfl, hcert⟩⟩

/-- What a successful compilation of a graph without channels went through. -/
theorem clean_of_compile (hfree : ∀ id, g.isChannel id = false)
    (hc : g.compile p .synthesize = .ok c) (hok : c.Succeeds) :
    ∃ v s plan, g.validate p = .ok v ∧ hasErrors v.diagnostics = false ∧
      g.insertChannels v.analysis p = .ok s ∧ Insertion.Clean g v.analysis p s ∧
      s.graph.Planned v.analysis plan ∧ c.plan = some plan ∧
      ∀ c, s.graph.isChannel c = true → s.graph.DrainsAlone c := by
  obtain ⟨v, s, u, hv, hvalid, hs, hclean, -, hu, hcleanu, hcert, rfl⟩ :=
    Compilation.compile_clean_iff.mp ⟨hc, hok.1⟩
  have h := Insertion.clean_insertChannels hfree hv hvalid hs hclean
  have hplan : s.graph.Planned v.analysis u.plan := planned_iff.mpr ⟨u, hu, hcleanu, rfl⟩
  exact ⟨v, s, u.plan, hv, hvalid, hs, h, hplan, rfl, (hplan.allPass_cert_iff h.inserted).mp hcert⟩

/-- Where channels are shared, only crossings to members without companions compile. -/
theorem membersAlone_of_compile (hfree : ∀ id, g.isChannel id = false)
    (hshare : p.shareFanout = true) (hc : g.compile p .synthesize = .ok c) (hok : c.Succeeds) :
    g.MembersAlone := by
  obtain ⟨_, s, _, -, -, -, h, -, -, halone⟩ := clean_of_compile hfree hc hok
  exact (h.drainsAlone_iff hshare).mp halone

/-- Whether the channels of a graph have at most one reader each. -/
def drainsSingly (g : Graph) : Bool :=
  g.channelNodes.all fun c => decide ((g.fedPorts c.1).length ≤ 1)

theorem drainsAlone_of_drainsSingly (h : g.drainsSingly = true) {c : NodeId}
    (hc : g.isChannel c = true) : g.DrainsAlone c := by
  rintro ⟨p, hp, -⟩
  obtain ⟨n, hn, hk⟩ := isChannel_iff.mp hc
  have hshort := of_decide_eq_true (List.all_eq_true.mp h (c, n) (mem_channelNodes.mpr ⟨hn, hk⟩))
  refine ⟨p, hp, ?_⟩
  intro q hq
  have hp := mem_fedPorts.mpr hp
  have hq := mem_fedPorts.mpr hq
  obtain ⟨r, hr⟩ := List.length_eq_one_iff.mp
    (Nat.le_antisymm hshort (List.length_pos_of_mem hp))
  rw [hr, List.mem_singleton] at hp hq
  exact hq.trans hp.symm

/-- Whether a graph without channels compiles into channels with at most one reader each. -/
def compilesSingly (g : Graph) (p : ChannelPolicy) : Bool :=
  g.isClean p && g.channelNodes.isEmpty &&
    (g.insertChannels g.computeRates.analysis p).toOption.any fun s =>
      !hasErrors s.diagnostics && s.graph.plansInOrder g.computeRates.analysis &&
        s.graph.drainsSingly

theorem exists_compile_of_compilesSingly (h : g.compilesSingly p = true) :
    (∀ id, g.isChannel id = false) ∧ ∃ c, g.compile p .synthesize = .ok c ∧ c.Succeeds := by
  unfold compilesSingly at h
  rw [Bool.and_eq_true, Bool.and_eq_true] at h
  obtain ⟨⟨hvalid, hnone⟩, hrun⟩ := h
  obtain ⟨s, hs, htest⟩ := exists_of_toOption_any hrun
  simp only [Bool.and_eq_true, Bool.not_eq_true'] at htest
  obtain ⟨⟨hclean, hplans⟩, hsingly⟩ := htest
  have hfree : ∀ id, g.isChannel id = false := by
    intro id
    rw [Bool.eq_false_iff]
    intro hid
    obtain ⟨n, hn, hk⟩ := isChannel_iff.mp hid
    have hmem := mem_channelNodes.mpr ⟨hn, hk⟩
    rw [List.isEmpty_iff.mp hnone] at hmem
    cases hmem
  have hv := validate_of_isClean hvalid
  obtain ⟨u, hu, hcleanu⟩ := exists_synthesize_of_plansInOrder hplans
  exact ⟨hfree, exists_compile hv rfl hs (Insertion.clean_insertChannels hfree hv rfl hs hclean)
    (planned_iff.mpr ⟨u, hu, hcleanu, rfl⟩) fun _ => drainsAlone_of_drainsSingly hsingly⟩

/-- Sharing channels is harmless exactly if no crossing to a member of a bundle has a
companion: a graph without channels that compiles without sharing then compiles with it, and
into no more channels. -/
theorem compile_sharing_iff (hfree : ∀ id, g.isChannel id = false) (hoff : p.shareFanout = false)
    (hc : g.compile p .synthesize = .ok c) (hok : c.Succeeds) :
    ((∃ c', g.compile p.sharing .synthesize = .ok c' ∧ c'.Succeeds) ↔ g.MembersAlone) ∧
      ∀ c', g.compile p.sharing .synthesize = .ok c' → c'.Succeeds →
        ∃ plan plan', c.plan = some plan ∧ c'.plan = some plan' ∧
          plan'.channels.length ≤ plan.channels.length := by
  obtain ⟨v, s, plan, hv, hvalid, hs, h, hplan, hcplan, -⟩ := clean_of_compile hfree hc hok
  obtain ⟨t, ht, hpar⟩ :=
    Insertion.exists_insertChannels_sharing h.wellFormed.toReferencesExist hoff hs h.clean
  have h' : Insertion.Clean g v.analysis p.sharing t :=
    Insertion.clean_insertChannels hfree (validate_sharing.trans hv) hvalid ht
      (hpar.diagnostics ▸ h.clean)
  refine ⟨⟨?_, ?_⟩, ?_⟩
  · rintro ⟨c', hc', hok'⟩
    exact membersAlone_of_compile hfree rfl hc' hok'
  · intro halone
    obtain ⟨plan', hplan'⟩ := hpar.planned h h' halone hplan
    exact exists_compile (validate_sharing.trans hv) hvalid ht h' hplan'
      ((h'.drainsAlone_iff rfl).mpr halone)
  · intro c' hc' hok'
    obtain ⟨v', t', plan', hv', -, ht', -, hplan', hcplan', -⟩ := clean_of_compile hfree hc' hok'
    cases hv.symm.trans hv'
    cases ht.symm.trans ht'
    refine ⟨plan, plan', hcplan, hcplan', ?_⟩
    rw [h.length_channels hplan, h'.length_channels hplan']
    exact hpar.count

/-- One port that two nodes of a partition read, and another that a member of a bundle reads. -/
def forked : Graph :=
  let build : Except Trap Graph := do
    let (a, g) ← empty.addPrimitive none "a" 0 2 ⟨0⟩
    let (b, g) ← g.addPrimitive none "b" 1 0 ⟨1⟩
    let (c, g) ← g.addPrimitive none "c" 1 0 ⟨1⟩
    let (x, g) ← g.addIo none "x" { bundle := "out", direction := .output, member := 0 }
    let (_, g) ← g.connect ⟨a, 0⟩ ⟨b, 0⟩
    let (_, g) ← g.connect ⟨a, 0⟩ ⟨c, 0⟩
    let (_, g) ← g.connect ⟨a, 1⟩ ⟨x, 0⟩
    return g.setOutputType ⟨a, 1⟩ .f32
  build.toOption.getD empty

/-- With and without sharing, the readers are served. -/
theorem compile_sharing_iff_forked :
    (∀ id, forked.isChannel id = false) ∧ ∃ c c', forked.compile {} .synthesize = .ok c ∧
      c.Succeeds ∧ forked.compile { shareFanout := true } .synthesize = .ok c' ∧ c'.Succeeds ∧
      ∃ plan plan', c.plan = some plan ∧ c'.plan = some plan' ∧
        plan'.channels.length ≤ plan.channels.length := by
  have hcompiles : forked.compilesSingly {} = true := by decide +kernel
  have halone : forked.MembersAlone := by decide +kernel
  obtain ⟨hfree, c, hc, hok⟩ := exists_compile_of_compilesSingly hcompiles
  obtain ⟨hiff, hcount⟩ := compile_sharing_iff hfree rfl hc hok
  obtain ⟨c', hc', hok'⟩ := hiff.mpr halone
  exact ⟨hfree, c, c', hc, hok, hc', hok', hcount c' hc' hok'⟩

/-- One port that two members of a bundle read. -/
def doubled : Graph :=
  let build : Except Trap Graph := do
    let (a, g) ← empty.addPrimitive none "a" 0 1 ⟨0⟩
    let (x, g) ← g.addIo none "x" { bundle := "out", direction := .output, member := 0 }
    let (y, g) ← g.addIo none "y" { bundle := "out", direction := .output, member := 1 }
    let (_, g) ← g.connect ⟨a, 0⟩ ⟨x, 0⟩
    let (_, g) ← g.connect ⟨a, 0⟩ ⟨y, 0⟩
    return g.setOutputType ⟨a, 0⟩ .f32
  build.toOption.getD empty

/-- Sharing breaks a graph that compiles without it. -/
theorem doubled_not_compile_sharing :
    (∀ id, doubled.isChannel id = false) ∧
      (∃ c, doubled.compile {} .synthesize = .ok c ∧ c.Succeeds) ∧
      ¬ ∃ c, doubled.compile { shareFanout := true } .synthesize = .ok c ∧ c.Succeeds := by
  have hcompiles : doubled.compilesSingly {} = true := by decide +kernel
  have hcompanions : ¬ doubled.MembersAlone := by decide +kernel
  obtain ⟨hfree, hcompile⟩ := exists_compile_of_compilesSingly hcompiles
  refine ⟨hfree, hcompile, ?_⟩
  rintro ⟨c, hc, hok⟩
  exact hcompanions (membersAlone_of_compile hfree rfl hc hok)

end Graph

end Compilations

end Dataflow
