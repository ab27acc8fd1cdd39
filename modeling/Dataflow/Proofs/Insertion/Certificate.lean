import Dataflow.Proofs.Compilation
import Dataflow.Proofs.Insertion.Contraction
import Dataflow.Proofs.Sizing

/-!
# The certificate of insertion

After insertion without an error, in a valid graph whose own channels are paired, every obligation
of the certificate holds.

**Proof.**  Everything is read off the description of the result (`Insertion.Extends`).  An arc that
is as it was does not cross, since every crossing is carried; every other arc touches an inserted
channel.  Crossings touch no channel, so the arcs at the channels that were there stay as they are.
-/

namespace Dataflow
namespace Graph

section Obligations

variable {g : Graph}

/-- Every channel has one arc that ends there, and only readers of its own partition. -/
def ChannelsPaired (g : Graph) : Prop :=
  ∀ ⦃id n⦄, g.node? id = some n → n.kind.isChannel →
    (g.incoming id).length = 1 ∧
      ∀ ⦃i a p⦄, g.arc? i = some a → a.src.node = id → a.dst = .port p →
        g.partitionOf p.node = n.partition

theorem incoming_length_eq_one_iff {c : NodeId} :
    (g.incoming c).length = 1 ↔ ∃ id a, g.Writer c id a := by
  rw [List.length_eq_one_iff]
  constructor
  · rintro ⟨⟨id, a⟩, h⟩
    exact ⟨id, a, incoming_eq_singleton_iff.mp h⟩
  · rintro ⟨id, a, h⟩
    exact ⟨(id, a), incoming_eq_singleton_iff.mpr h⟩

theorem noDirectCrossing_iff :
    g.noDirectCrossing = true ↔ ∀ id a, g.arc? id = some a → g.crossing? a = none := by
  simp [noDirectCrossing]

theorem channelsHoldBlock_iff :
    g.channelsHoldBlock = true ↔
      ∀ id n spec, g.node? id = some n → n.kind = .channel spec →
        0 < spec.blockSize ∧ spec.blockSize ≤ spec.capacity := by
  simp only [channelsHoldBlock, List.all_eq_true, Prod.forall, mem_nodeList]
  refine forall_congr' fun id => forall_congr' fun n => ?_
  cases hk : n.kind <;> simp [NodeKind.channelSpec?]

theorem channelsPaired_iff :
    g.channelsPaired = true ↔ g.ChannelsPaired := by
  simp only [channelsPaired, ChannelsPaired, List.all_eq_true, Prod.forall, mem_nodeList,
    Bool.or_eq_true, Bool.not_eq_true', Bool.and_eq_true, decide_eq_true_eq]
  refine forall_congr' fun id => forall_congr' fun n => ?_
  refine imp_congr_right fun hn => ?_
  cases hc : n.kind.isChannel with
  | false => simp
  | true =>
      simp only [Bool.true_eq_false, false_or, forall_const]
      refine and_congr_right fun _ => ?_
      constructor
      · intro h i a p ha hsrc hdst
        have hall := h i a (by simp [outgoing, ha, hsrc])
        simpa [Arc.dstNode, Arc.dstPort, hdst] using hall
      · intro h i a ha
        simp only [outgoing, List.mem_filter, mem_arcList, decide_eq_true_eq] at ha
        cases hd : a.dst with
        | unconnected => simp [Arc.dstNode, Arc.dstPort, hd]
        | port p => simpa [Arc.dstNode, Arc.dstPort, hd] using h ha.1 ha.2 hd

/-- An arc that touches a channel does not cross. -/
theorem crossing?_eq_none_of_atChannel {a : Arc} (h : g.atChannel a = true) :
    g.crossing? a = none := by
  unfold atChannel isChannel kindOf at h
  unfold crossing?
  cases hd : a.dstPort with
  | none => rfl
  | some p =>
      cases hs : g.node? a.src.node with
      | none => rfl
      | some n =>
          cases ht : g.node? p.node with
          | none => simp [ht]
          | some m =>
              simp only [Arc.dstNode, hd, hs, ht, Option.map_some, Option.any_some] at h
              simp only [Option.bind_eq_bind, Option.bind_some, ht]
              rw [if_pos h]

end Obligations

end Graph

namespace Insertion

section Results

variable {g : Graph} {a : DomainAnalysis} {p : ChannelPolicy} {s : Insertion}

theorem Extends.isChannel (h : Extends g a p s) {key : ShareKey} {c : NodeId}
    (hroute : (key, c) ∈ s.routes) : s.graph.isChannel c = true := by
  obtain ⟨-, _, _, _, _, -, hc⟩ := h.channel hroute
  simp [Graph.isChannel, Graph.kindOf, hc, Graph.channelNode, NodeKind.isChannel]

/-- Only crossings are carried. -/
theorem Progress.crosses {done todo : List (ArcId × Crossing)}
    (h : Progress g a p done todo s) {id : ArcId} {arc : Arc} (hid : id ∈ s.carried)
    (harc : g.arc? id = some arc) : g.crossing? arc ≠ none := by
  obtain ⟨x, hx, rfl⟩ := List.mem_map.mp (h.carried id hid)
  have hmem : x ∈ g.crossings := by
    rw [← h.order]
    exact List.mem_append_left _ hx
  obtain ⟨arc', harc', hk⟩ := mem_crossings.mp hmem
  cases harc.symm.trans harc'
  rw [hk]
  exact Option.some_ne_none _

/-- Crossings touch no channel. -/
theorem Progress.not_atChannel {done todo : List (ArcId × Crossing)}
    (h : Progress g a p done todo s) {id : ArcId} {arc : Arc} (hid : id ∈ s.carried)
    (harc : g.arc? id = some arc) : g.atChannel arc = false := by
  rw [Bool.eq_false_iff]
  intro hat
  exact h.crosses hid harc (Graph.crossing?_eq_none_of_atChannel hat)

variable (h : Progress g a p g.crossings [] s)
include h

/-- No arc crosses: an arc without a channel did not cross before. -/
theorem Progress.crossing?_eq_none (hg : g.ReferencesExist)
    (hclean : hasErrors s.diagnostics = false) {id : ArcId} {arc : Arc}
    (harc : s.graph.arc? id = some arc) : s.graph.crossing? arc = none := by
  cases h.trace.fate harc with
  | kept hold hfree =>
      rw [h.trace.keepsNodes.crossing?_eq hg (hg.source hold) fun q hq => hg.target hold hq]
      by_contra hcross
      obtain ⟨k, hk⟩ := Option.ne_none_iff_exists'.mp hcross
      exact hfree (h.clean hclean (id, k) (mem_crossings.mpr ⟨arc, hold, hk⟩))
  | enters hroute _ _ =>
      refine Graph.crossing?_eq_none_of_atChannel ?_
      simp [Graph.atChannel, Arc.dstNode, Arc.dstPort, h.trace.isChannel hroute]
  | leaves hroute _ _ =>
      refine Graph.crossing?_eq_none_of_atChannel ?_
      simp [Graph.atChannel, h.trace.isChannel hroute]

omit h in
/-- Every channel holds a block: those that were there by validation, the others by their size. -/
theorem Extends.holdsBlock (h : Extends g a p s) (hg : g.WellFormed) (ha : a.Positive)
    (hp : hasErrors p.faults = false) {id : NodeId} {n : Node} {spec : ChannelSpec}
    (hn : s.graph.node? id = some n) (hk : n.kind = .channel spec) :
    0 < spec.blockSize ∧ spec.blockSize ≤ spec.capacity := by
  rw [hasErrors_faults_eq_false_iff] at hp
  cases hold : g.node? id with
  | some m =>
      obtain ⟨more, hm, -⟩ := h.old hold
      cases hn.symm.trans hm
      refine hg.channel hold ?_
      rw [← NodeKind.channelSpec?_eq_some, ← NodeKind.channelSpec?_withChildren m.kind more]
      exact NodeKind.channelSpec?_eq_some.mpr hk
  | none =>
      obtain ⟨key, hroute⟩ := mem_channels.mp (h.new hn hold)
      obtain ⟨-, _, _, _, capacity, hneeds, hc⟩ := h.channel hroute
      cases hn.symm.trans hc
      cases hk
      rw [UInt32.lt_iff_toNat_lt, UInt32.le_iff_toNat_le]
      exact ⟨channelBlock_pos ha hp.1 hneeds.block, le_capacity hp.2 hneeds.room⟩

/-- A carried arc has neither end at a channel that was there. -/
theorem Progress.ne_of_carried {id : ArcId} {arc : Arc} (hid : id ∈ s.carried)
    (harc : g.arc? id = some arc) {c : NodeId} (hc : g.isChannel c = true) :
    arc.src.node ≠ c ∧ arc.dstNode ≠ some c := by
  have hat := h.not_atChannel hid harc
  rw [Graph.atChannel, Bool.or_eq_false_iff] at hat
  constructor
  · rintro rfl
    rw [hc] at hat
    cases hat.1
  · intro hend
    rw [hend, Option.any_some, hc] at hat
    cases hat.2

/-- The arc that ends at a channel that was there stays, and no other comes to it. -/
theorem Progress.writer_old {c : NodeId} {n : Node} (hn : g.node? c = some n)
    (hc : g.isChannel c = true) {w : ArcId} {b : Arc} (hw : g.Writer c w b) :
    s.graph.Writer c w b := by
  have hfree : w ∉ s.carried := by
    intro hin
    exact (h.ne_of_carried hin hw.arc_eq hc).2 hw.ends
  refine ⟨h.trace.waiting hw.arc_eq hfree, hw.ends, ?_⟩
  intro i d hd hend
  cases h.trace.fate hd with
  | kept hold _ => exact hw.only hold hend
  | enters hroute _ _ =>
      cases hend
      exact absurd rfl (h.trace.ne_channel hn hroute)
  | leaves _ hin hneeds => exact absurd hend (h.ne_of_carried hin hneeds.arc_eq hc).2

/-- The readers of a channel that was there are those that it had. -/
theorem Progress.arc_of_src_old {c : NodeId} {n : Node} (hn : g.node? c = some n)
    (hc : g.isChannel c = true) {i : ArcId} {d : Arc} (hd : s.graph.arc? i = some d)
    (hsrc : d.src.node = c) : g.arc? i = some d := by
  cases h.trace.fate hd with
  | kept hold _ => exact hold
  | enters _ hin hneeds => exact absurd hsrc (h.ne_of_carried hin hneeds.arc_eq hc).1
  | leaves hroute _ _ => exact absurd hsrc.symm (h.trace.ne_channel hn hroute)

/-- Whatever an inserted channel feeds has the needs that the channel was made for. -/
theorem Progress.needs_of_src_new (hg : g.ReferencesExist) {key : ShareKey} {c : NodeId}
    (hroute : (key, c) ∈ s.routes) {i : ArcId} {d : Arc} {q : PortRef}
    (hd : s.graph.arc? i = some d) (hsrc : d.src.node = c) (hdst : d.dst = .port q) :
    ∃ key' lead arc capacity, (key', c) ∈ s.routes ∧ g.Needs a p lead arc q key' capacity := by
  subst hsrc
  have hnew := (h.trace.channel hroute).1
  cases h.trace.fate hd with
  | kept hold _ =>
      obtain ⟨n, hn, -⟩ := hg.source hold
      cases hnew.symm.trans hn
  | enters _ _ hneeds =>
      obtain ⟨n, hn, -⟩ := hg.source hneeds.arc_eq
      cases hnew.symm.trans hn
  | @leaves arc dst key' capacity c' lead hroute' _ hneeds =>
      cases hneeds.ends.symm.trans hdst
      exact ⟨key', lead, arc, capacity, hroute', hneeds⟩

/-- Channels stay paired, and the inserted ones are. -/
theorem Progress.channelsPaired (hg : g.ReferencesExist) (hpaired : g.ChannelsPaired) :
    s.graph.ChannelsPaired := by
  intro id n hn hc
  cases hold : g.node? id with
  | some m =>
      obtain ⟨more, hm, -⟩ := h.trace.old hold
      cases hn.symm.trans hm
      have hc' : m.kind.isChannel = true := by simpa using hc
      have hat : g.isChannel id = true := by simp [Graph.isChannel, Graph.kindOf, hold, hc']
      obtain ⟨hone, hreaders⟩ := hpaired hold hc'
      obtain ⟨w, b, hw⟩ := Graph.incoming_length_eq_one_iff.mp hone
      refine ⟨Graph.incoming_length_eq_one_iff.mpr ⟨w, b, h.writer_old hold hat hw⟩, ?_⟩
      intro i d q hd hsrc hdst
      have hd' := h.arc_of_src_old hold hat hd hsrc
      obtain ⟨k, hk, -⟩ := hg.target hd' hdst
      rw [h.trace.keepsNodes.partitionOf_eq hk]
      exact hreaders hd' hsrc hdst
  | none =>
      obtain ⟨key, hroute⟩ := mem_channels.mp (h.trace.new hn hold)
      obtain ⟨w, b, hw, -⟩ := h.trace.writer hroute
      refine ⟨Graph.incoming_length_eq_one_iff.mpr ⟨w, b, hw⟩, ?_⟩
      intro i d q hd hsrc hdst
      -- the needs of the reader may be another key, but the channel is the same node
      obtain ⟨key', _, _, _, hroute', hneeds⟩ := h.needs_of_src_new hg hroute hd hsrc hdst
      obtain ⟨-, _, _, _, _, -, hnode⟩ := h.trace.channel hroute'
      cases hn.symm.trans hnode
      obtain ⟨k, hk, -⟩ := hg.target hneeds.arc_eq hneeds.ends
      rw [h.trace.keepsNodes.partitionOf_eq hk]
      exact hneeds.partition

end Results

end Insertion

namespace Graph

/-- Insertion without an error, into a valid graph whose channels are paired, meets every obligation
of its certificate; and no compilation of the graph reports that the certificate failed. -/
theorem insertionCert_allPass (g : Graph) (p : ChannelPolicy) (v : Validation) (s : Insertion)
    (hv : g.validate p = .ok v) (hvalid : hasErrors v.diagnostics = false)
    (hpaired : g.ChannelsPaired)
    (hs : g.insertChannels v.analysis p = .ok s) (hclean : hasErrors s.diagnostics = false) :
    ((∀ id a, s.graph.arc? id = some a → s.graph.crossing? a = none) ∧
      (∀ id n spec, s.graph.node? id = some n → n.kind = .channel spec →
        0 < spec.blockSize ∧ spec.blockSize ≤ spec.capacity) ∧
      s.graph.ChannelsPaired) ∧
    s.graph.insertionCert.allPass = true ∧
    ∀ goal c, g.compile p goal = .ok c → ∀ d ∈ c.diagnostics, d.code ≠ some .insertionCert := by
  obtain ⟨hg, hnone⟩ := wellFormed_of_validate hv hvalid
  obtain ⟨_, -, hanalysis⟩ := (validate_eq_ok_iff hg).mp hv
  have hrates : v.analysis.Positive := by
    rw [hanalysis]
    exact positive_computeRates g
  have hrun := Insertion.progress_insertChannels hg.toReferencesExist hs
  have hpolicy := Insertion.hasErrors_faults_of_insertChannels hs hclean
  have hcross : ∀ id a, s.graph.arc? id = some a → s.graph.crossing? a = none :=
    fun _ _ ha => hrun.crossing?_eq_none hg.toReferencesExist hclean ha
  have hblock : ∀ id n spec, s.graph.node? id = some n → n.kind = .channel spec →
      0 < spec.blockSize ∧ spec.blockSize ≤ spec.capacity :=
    fun _ _ _ hn hk => hrun.trace.holdsBlock hg hrates hpolicy hn hk
  have hpairs := hrun.channelsPaired hg.toReferencesExist hpaired
  have hcert : s.graph.insertionCert.allPass = true := by
    simp [Certificate.allPass, insertionCert, noDirectCrossing_iff.mpr hcross,
      channelsHoldBlock_iff.mpr hblock, channelsPaired_iff.mpr hpairs]
  refine ⟨⟨hcross, hblock, hpairs⟩, hcert, ?_⟩
  intro goal c hc
  exact Compilation.sparesInsertion_compile hg.toReferencesExist hv hnone hs hcert hc

/-- The fan-out has a channel of its own besides the one that is inserted. -/
theorem insertionCert_allPass_fanOut :
    ∃ v s, fanOut.validate { shareFanout := true } = .ok v ∧ hasErrors v.diagnostics = false ∧
      fanOut.ChannelsPaired ∧
      fanOut.insertChannels v.analysis { shareFanout := true } = .ok s ∧
      hasErrors s.diagnostics = false ∧ s.channels.length = 1 ∧
      s.graph.insertionCert.allPass = true := by
  obtain ⟨s, hs, htest⟩ := insertChannels_fanOut
  simp only [Bool.and_eq_true, decide_eq_true_eq, Bool.not_eq_true'] at htest
  have hv := validate_of_isClean isClean_fanOut
  have hpaired : fanOut.ChannelsPaired := channelsPaired_iff.mp (by decide +kernel)
  exact ⟨_, s, hv, rfl, hpaired, hs, htest.2, htest.1.2,
    (insertionCert_allPass fanOut _ _ s hv rfl hpaired hs htest.2).2.1⟩

end Graph
end Dataflow
