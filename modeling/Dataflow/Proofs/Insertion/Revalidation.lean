import Dataflow.Proofs.Insertion.Domains
import Dataflow.Proofs.Insertion.WellFormed
import Dataflow.Proofs.Validation.Rates

/-!
# Validating a graph again after insertion

Insertion without an error keeps a valid graph well-formed and leaves its rates alone, so that a
second validation under the same policy finds the same analysis and nothing against the structure or
the rates (`validate_insertChannels`).

**Rates.**  Insertion adds no clock domain and moves none, so the rates are computed from the same
domains along the same chains (`Extends.computeRates_eq`).

**Blocks.**  A channel is put where its reader gets its samples, so it fixes a block in the domain
in which its arc fixed one before (`Progress.anchored`).  Its own block was scaled into that domain,
and comes back on the way out (`Extends.releases`).
-/

namespace Dataflow

namespace Graph

section Views

variable {g g' : Graph}

theorem changeOf?_withChildren (kind : NodeKind) (more : List NodeId) :
    changeOf? (kind.withChildren more) = changeOf? kind := by
  cases kind <;> rfl

/-- The far side of a boundary is the same in both graphs. -/
theorem KeepsNodes.farAnchor?_eq (h : g.KeepsNodes g') {id : NodeId} {n : Node}
    (hn : g.node? id = some n) (ends : Bool) : g'.farAnchor? id ends = g.farAnchor? id ends := by
  obtain ⟨more, hn'⟩ := h hn
  cases hk : n.kind <;> simp [farAnchor?, hn, hn', hk, NodeKind.withChildren]

theorem KeepsNodes.nestingCauses_eq (h : g.KeepsNodes g') (hg : g.ReferencesExist)
    (a : DomainAnalysis) {d : NodeId} {n : Node} (hn : g.node? d = some n) :
    g'.nestingCauses a (some d) = g.nestingCauses a (some d) := by
  unfold nestingCauses
  rw [h.domainChain_eq hg hn]
  congr 1
  refine List.map_congr_left ?_
  intro e he
  obtain ⟨m, hm⟩ := exists_node_of_mem_climbDomains (fun d hd => ⟨n, by cases hd; exact hn⟩)
    (by simp) he
  rw [h.domainRate_eq hm, h.label_eq hm]

theorem KeepsNodes.judgeLocal_eq (h : g.KeepsNodes g') (hg : g.ReferencesExist) (s : RateState)
    {d : NodeId} (r : Rate) {n : Node} (hn : g.node? d = some n) :
    g'.judgeLocal s (d, r) = g.judgeLocal s (d, r) := by
  have hrule : g'.rateRule? d r = g.rateRule? d r := by
    unfold rateRule?
    rw [h.label_eq hn]
  unfold judgeLocal
  rw [hrule, h.nestingCauses_eq hg _ hn]

theorem KeepsNodes.judgeComposed_eq (h : g.KeepsNodes g') (hg : g.ReferencesExist) (s : RateState)
    {d : NodeId} {n : Node} (hn : g.node? d = some n) :
    g'.judgeComposed s d = g.judgeComposed s d := by
  unfold judgeComposed
  rw [h.domainChain_eq hg hn, h.label_eq hn, h.nestingCauses_eq hg _ hn]

/-- The domain of an input port is the nearest one around a node that feeds the port. -/
theorem WellFormed.inputDomain_eq (hg : g.WellFormed) {q : PortRef} {n : Node}
    (hn : g.node? q.node = some n) :
    g.inputDomain q = g.nearestDomain maxNesting (g.inputContainer q) := by
  by_cases henters : n.kind.entersDomain = true
  · obtain ⟨change, hk⟩ := NodeKind.entersDomain_iff.mp henters
    -- the boundary is listed by a clock domain, which the search from the boundary finds at once
    obtain ⟨p, hp⟩ := hg.rateChange hn (by simp [hk, NodeKind.isRateChange])
    obtain ⟨m, hm⟩ := hg.parent ⟨n, hn, hp⟩
    have hlists := hg.listed hn hp hm
    have hdomain : m.kind.isDomain = true := by
      unfold NodeKind.Lists at hlists
      rw [if_pos (by simp [hk, NodeKind.isRateChange])] at hlists
      cases hmk : m.kind <;> simp_all [NodeKind.boundaries, NodeKind.isDomain]
    have hfirst : g.enclosingDomain q.node = some p := by
      simp [enclosingDomain, hn, hp, maxNesting, nearestDomain, hm, hdomain]
    have hcontainer : g.inputContainer q = m.parent := by
      simp [inputContainer, hn, hk, hp, hm]
    have hdouble : g.inputDomain q = (g.enclosingDomain q.node).bind g.enclosingDomain := by
      simp [inputDomain, kindOf, hn, hk]
    rw [hcontainer, hdouble, hfirst]
    simp [enclosingDomain, hm]
  · have hcontainer : g.inputContainer q = n.parent := by
      cases hk : n.kind <;> simp_all [inputContainer, NodeKind.entersDomain]
    have hdomain : g.inputDomain q = g.enclosingDomain q.node := by
      cases hk : n.kind <;> simp_all [inputDomain, kindOf, NodeKind.entersDomain]
    rw [hcontainer, hdomain]
    simp [enclosingDomain, hn]

end Views

end Graph

namespace Insertion

section Rates

variable {g : Graph} {a : DomainAnalysis} {p : ChannelPolicy} {s : Insertion}

/-- A node after insertion is an old one, up to channels that it lists, or a channel. -/
theorem Extends.node_cases (h : Extends g a p s) {id : NodeId} {n : Node}
    (hn : s.graph.node? id = some n) :
    (∃ m more, g.node? id = some m ∧ n = m.withChildren more) ∨
      ∃ key lead arc dst capacity, (key, id) ∈ s.routes ∧ g.Needs a p lead arc dst key capacity ∧
        n = g.channelNode arc dst key capacity := by
  cases hold : g.node? id with
  | some m =>
      obtain ⟨more, hm, -⟩ := h.old hold
      exact .inl ⟨m, more, rfl, Option.some.inj (hn.symm.trans hm)⟩
  | none =>
      obtain ⟨key, hroute⟩ := mem_channels.mp (h.new hn hold)
      obtain ⟨-, lead, arc, dst, capacity, hneeds, hc⟩ := h.channel hroute
      exact .inr ⟨key, lead, arc, dst, capacity, hroute, hneeds, Option.some.inj (hn.symm.trans hc)⟩

/-- Insertion adds no clock domain. -/
theorem Extends.domains_eq (h : Extends g a p s) : s.graph.domains = g.domains := by
  refine Graph.eq_of_ordered (fun x => x.1.val) s.graph.domains_ordered g.domains_ordered ?_
  rintro ⟨d, r⟩
  rw [Graph.mem_domains, Graph.mem_domains]
  constructor
  · rintro ⟨n, hn, hr⟩
    rcases h.node_cases hn with ⟨m, more, hm, rfl⟩ | ⟨_, _, _, _, _, -, -, rfl⟩
    · exact ⟨m, hm, by simpa using hr⟩
    · cases hr
  · rintro ⟨n, hn, hr⟩
    obtain ⟨more, hn', -⟩ := h.old hn
    exact ⟨_, hn', by simpa using hr⟩

/-- The same domains along the same chains have the same rates. -/
theorem Extends.computeRates_eq (h : Extends g a p s) (hg : g.ReferencesExist) :
    s.graph.computeRates = g.computeRates := by
  have hlocal : g.domains.foldl s.graph.judgeLocal {} = g.domains.foldl g.judgeLocal {} := by
    refine List.foldl_ext _ _ _ ?_
    rintro t ⟨d, r⟩ hd
    obtain ⟨n, hn, -⟩ := Graph.mem_domains.mp hd
    exact h.keepsNodes.judgeLocal_eq hg t r hn
  unfold Graph.computeRates
  rw [h.domains_eq, hlocal]
  refine List.foldl_ext _ _ _ ?_
  intro t d hd
  obtain ⟨⟨_, r⟩, hmem, rfl⟩ := List.mem_map.mp hd
  obtain ⟨n, hn, -⟩ := Graph.mem_domains.mp hmem
  exact h.keepsNodes.judgeComposed_eq hg t hn

theorem Extends.rateChangeFaults_eq_nil (h : Extends g a p s) {b : DomainAnalysis}
    (hnone : g.rateChangeFaults b = []) : s.graph.rateChangeFaults b = [] := by
  rw [Graph.rateChangeFaults_eq_nil_iff] at hnone ⊢
  intro id n hn
  rcases h.node_cases hn with ⟨m, more, hm, rfl⟩ | ⟨_, _, _, _, _, -, -, rfl⟩
  · intro change entering domain rate hchange
    rw [Node.kind_withChildren, Graph.changeOf?_withChildren] at hchange
    exact hnone id m hm change entering domain rate hchange
  · intro change entering domain rate hchange
    cases hchange

end Rates

section Blocks

variable {g : Graph} {a : DomainAnalysis} {p : ChannelPolicy} {s : Insertion}

/-- A channel lies in the domain that sizes its block. -/
theorem Extends.enclosingDomain_channel (h : Extends g a p s) (hg : g.WellFormed) {key : ShareKey}
    {c : NodeId} (hroute : (key, c) ∈ s.routes) : s.graph.enclosingDomain c = key.domain := by
  obtain ⟨-, lead, arc, dst, capacity, hneeds, hc⟩ := h.channel hroute
  obtain ⟨n, hn, -⟩ := hg.target hneeds.arc_eq hneeds.ends
  have hwalk := h.keepsNodes.nearestDomain_eq hg.toReferencesExist Graph.maxNesting
    (g.inputContainer dst) fun k hk => by
      obtain ⟨m, hm, -⟩ := hg.inputContainer_eq_some hk
      exact ⟨m, hm⟩
  rw [← hneeds.domain, hg.inputDomain_eq hn, ← hwalk]
  simp [Graph.enclosingDomain, hc, Graph.channelNode]

/-- Every channel releases its block: those that were there as before, the others because their
block was scaled into their domain. -/
theorem Extends.releases (h : Extends g g.computeRates.analysis p s)
    (hold : ∀ id n spec, g.node? id = some n → n.kind.channelSpec? = some spec →
      g.computeRates.Releases spec)
    {id : NodeId} {n : Node} {spec : ChannelSpec} (hn : s.graph.node? id = some n)
    (hk : n.kind.channelSpec? = some spec) : g.computeRates.Releases spec := by
  rcases h.node_cases hn with ⟨m, more, hm, rfl⟩ | ⟨key, _, _, _, capacity, -, hneeds, rfl⟩
  · exact hold id m spec hm (by simpa using hk)
  · cases hk
    exact .inr ⟨_, scaleFrom_outward (fun r hr => isCoprime_of_mem_localChain hr)
      (blockSize_of_channelBlock hneeds.block) 0⟩

/-- A channel was made for a crossing, whose needs it meets. -/
theorem Extends.exists_carried (h : Extends g a p s) (hg : g.ReferencesExist) {key : ShareKey}
    {c : NodeId} (hroute : (key, c) ∈ s.routes) :
    ∃ lead arc dst key' capacity, lead ∈ s.carried ∧ (key', c) ∈ s.routes ∧
      g.Needs a p lead arc dst key' capacity := by
  obtain ⟨id, arc, hw, -⟩ := h.writer hroute
  have hnew := (h.channel hroute).1
  have hends := hw.ends
  cases h.fate hw.arc_eq with
  | kept hold _ =>
      obtain ⟨q, hq, rfl⟩ := Arc.dstNode_eq_some.mp hends
      obtain ⟨n, hn, -⟩ := hg.target hold hq
      cases hnew.symm.trans hn
  | enters hroute' hid hneeds =>
      cases hends
      exact ⟨_, _, _, _, _, hid, hroute', hneeds⟩
  | leaves _ _ hneeds => exact absurd hends (dstNode_ne_of_needs hg hneeds hnew)

/-- A channel changes no rate, so it has no far side. -/
theorem Extends.farAnchor?_channel (h : Extends g a p s) {key : ShareKey} {c : NodeId}
    (hroute : (key, c) ∈ s.routes) (ends : Bool) : s.graph.farAnchor? c ends = none := by
  obtain ⟨-, _, _, _, _, -, hc⟩ := h.channel hroute
  simp [Graph.farAnchor?, hc, Graph.channelNode]

theorem Extends.inputDomain_channel (h : Extends g a p s) (hg : g.WellFormed) {key : ShareKey}
    {c : NodeId} (hroute : (key, c) ∈ s.routes) (port : UInt32) :
    s.graph.inputDomain ⟨c, port⟩ = key.domain := by
  rw [← h.enclosingDomain_channel hg hroute]
  obtain ⟨-, _, _, _, _, -, hc⟩ := h.channel hroute
  simp [Graph.inputDomain, Graph.kindOf, hc, Graph.channelNode]

/-- No node and no arc fixes a block in a domain in which none was fixed before. -/
theorem Progress.anchored (h : Progress g a p g.crossings [] s) (hg : g.WellFormed) {d : NodeId}
    (hd : s.graph.Anchored d) : g.Anchored d := by
  have hrefs := hg.toReferencesExist
  have hkeeps := h.trace.keepsNodes
  -- a crossing fixes a block in the domain that it needs and beyond the boundaries at its ends
  have hneeded : ∀ {lead arc dst key capacity}, g.Needs a p lead arc dst key capacity →
      lead ∈ s.carried → key.domain = some d ∨ g.farAnchor? dst.node true = some d ∨
        g.farAnchor? arc.src.node false = some d → g.Anchored d := by
    intro lead arc dst key capacity hneeds hlead hdomain
    obtain ⟨blamed, hblamed⟩ := Graph.exists_mem_arcAnchors_iff.mpr ⟨dst, hneeds.ends,
      .inr (h.crosses hlead hneeds.arc_eq), by rwa [hneeds.domain]⟩
    exact .inr ⟨lead, arc, blamed, hneeds.arc_eq, hblamed⟩
  rcases hd with ⟨id, n, hn, hanchor⟩ | ⟨id, arc', blamed, harc, hblamed⟩
  · rcases h.trace.node_cases hn with ⟨m, more, hm, rfl⟩ | ⟨key, _, _, _, _, hroute, -, rfl⟩
    · refine .inl ⟨id, m, hm, ?_⟩
      rw [← hanchor]
      cases hk : m.kind <;>
        simp [Graph.nodeAnchor?, hk, NodeKind.withChildren, hkeeps.enclosingDomain_eq hrefs hm]
    · -- the channel may have been made for another crossing than the one on record
      obtain ⟨lead, arc, dst, key', _, hlead, hroute', hneeds⟩ :=
        h.trace.exists_carried hrefs hroute
      have hsame : key'.domain = key.domain :=
        (h.trace.enclosingDomain_channel hg hroute').symm.trans
          (h.trace.enclosingDomain_channel hg hroute)
      exact hneeded hneeds hlead (.inl (hsame.trans hanchor))
  · obtain ⟨q, hq, hplace, hdomain⟩ := Graph.exists_mem_arcAnchors_iff.mp ⟨blamed, hblamed⟩
    cases h.trace.fate harc with
    | kept hold _ =>
        obtain ⟨n, hn, -⟩ := hrefs.source hold
        obtain ⟨m, hm, -⟩ := hrefs.target hold hq
        rw [hkeeps.atChannel_eq hrefs hold, hkeeps.crossing?_eq hrefs (hrefs.source hold)
          fun q hq => hrefs.target hold hq] at hplace
        rw [hkeeps.inputDomain_eq hrefs hm, hkeeps.farAnchor?_eq hn, hkeeps.farAnchor?_eq hm]
          at hdomain
        obtain ⟨blamed', hblamed'⟩ :=
          Graph.exists_mem_arcAnchors_iff.mpr ⟨q, hq, hplace, hdomain⟩
        exact .inr ⟨id, arc', blamed', hold, hblamed'⟩
    | enters hroute hid hneeds =>
        cases hq
        obtain ⟨n, hn, -⟩ := hrefs.source hneeds.arc_eq
        rw [h.trace.inputDomain_channel hg hroute, h.trace.farAnchor?_channel hroute,
          hkeeps.farAnchor?_eq hn] at hdomain
        simp only [reduceCtorEq, false_or] at hdomain
        exact hneeded hneeds hid (hdomain.imp_right .inr)
    | leaves hroute hid hneeds =>
        cases hneeds.ends.symm.trans hq
        obtain ⟨m, hm, -⟩ := hrefs.target hneeds.arc_eq hneeds.ends
        rw [h.trace.farAnchor?_channel hroute, hkeeps.inputDomain_eq hrefs hm, hneeds.domain,
          hkeeps.farAnchor?_eq hm] at hdomain
        simp only [reduceCtorEq, or_false] at hdomain
        exact hneeded hneeds hid (hdomain.imp_right .inl)

end Blocks

end Insertion

namespace Graph

section Codes

variable {g : Graph} {d : Diagnostic}

theorem code_of_mem_periodFaults {s : RateState} (hd : d ∈ g.periodFaults s) :
    d.code = some .periodMismatch := by
  obtain ⟨a, -, ha⟩ := List.mem_filterMap.mp hd
  simp only [Option.bind_eq_bind, Option.bind_eq_some_iff] at ha
  obtain ⟨declared, -, ha⟩ := ha
  grind [rateError]

theorem code_of_mem_rateChangeFaults {a : DomainAnalysis} (hd : d ∈ g.rateChangeFaults a) :
    d.code = some .rateMismatch := by
  obtain ⟨n, -, hn⟩ := List.mem_filterMap.mp hd
  simp only [Option.bind_eq_bind, Option.bind_eq_some_iff] at hn
  obtain ⟨change, -, domain, -, rate, -, hn⟩ := hn
  grind [rateError]

theorem code_of_mem_topologyFaults (hd : d ∈ g.topologyFaults) :
    d.code = some .levelSkipped ∨ d.code = some .rateInputSource ∨
      d.code = some .rateOutputTarget := by
  obtain ⟨a, -, ha⟩ := List.mem_filterMap.mp hd
  unfold topologyFault? at ha
  simp only [Option.bind_eq_bind, Option.bind_eq_some_iff] at ha
  obtain ⟨dst, -, source, -, target, -, ha⟩ := ha
  grind [topologyError]

end Codes

/-- Validating a graph again, after insertion without an error into a valid graph, gives the same
analysis.  What may be found concerns declared periods and topology only.  Every channel that was
added lies in the domain that sizes it. -/
theorem validate_insertChannels (g : Graph) (p : ChannelPolicy) (v : Validation) (s : Insertion)
    (hv : g.validate p = .ok v) (hvalid : hasErrors v.diagnostics = false)
    (hs : g.insertChannels v.analysis p = .ok s) (hclean : hasErrors s.diagnostics = false) :
    (∃ v', s.graph.validate p = .ok v' ∧ v'.analysis = v.analysis ∧
      ∀ d ∈ v'.diagnostics, d.errorClass ≠ .structural ∧
        d.code ∉ [some .zeroRate, some .commonFactor, some .mixedRate, some .rateMismatch,
          some .fractionalBlock, some .rateOverflow]) ∧
    ∀ id n, s.graph.node? id = some n → g.node? id = none →
      ∃ spec, n.kind = .channel spec ∧ spec.domain = s.graph.enclosingDomain id := by
  obtain ⟨hg, hnone⟩ := wellFormed_of_validate hv hvalid
  have hrefs := hg.toReferencesExist
  have hwell := Insertion.wellFormed_of_valid hv hvalid hs hclean
  obtain ⟨blocks, hblocks, rfl⟩ := (validate_eq_ok_iff hg).mp hv
  simp only [List.append_eq_nil_iff] at hnone
  obtain ⟨⟨⟨⟨hrates, hchanges⟩, rfl⟩, -⟩, -⟩ := hnone
  have hrun := Insertion.progress_insertChannels hrefs hs
  have hsame := hrun.trace.computeRates_eq hrefs
  obtain ⟨hreleases, hadmits⟩ := blockFaults_eq_nil_iff.mp hblocks
  have hblocks' : s.graph.blockFaults p s.graph.computeRates = .ok [] := by
    rw [hsame, blockFaults_eq_nil_iff]
    exact ⟨fun id n spec => hrun.trace.releases hreleases,
      fun d hd => hadmits d (hrun.anchored hg hd)⟩
  refine ⟨⟨_, (validate_eq_ok_iff hwell).mpr ⟨[], hblocks', rfl⟩, by rw [hsame], ?_⟩, ?_⟩
  · rw [hsame, hrates, hrun.trace.rateChangeFaults_eq_nil hchanges]
    intro d hd
    rcases List.mem_append.mp hd with hd | hd
    · rw [(isErrorOf_periodFaults hd).1, code_of_mem_periodFaults hd]
      decide
    · rw [(isErrorOf_topologyFaults hd).1]
      rcases code_of_mem_topologyFaults hd with hcode | hcode | hcode <;> rw [hcode] <;> decide
  · intro id n hn hnew
    obtain ⟨key, hroute⟩ := Insertion.mem_channels.mp (hrun.trace.new hn hnew)
    obtain ⟨-, _, _, _, capacity, -, hc⟩ := hrun.trace.channel hroute
    cases hn.symm.trans hc
    exact ⟨_, rfl, (hrun.trace.enclosingDomain_channel hg hroute).symm⟩

/-- A domain inside another.  Samples enter both through boundaries in different partitions, and are
read in a third. -/
def nested : Graph :=
  let build : Except Trap Graph := do
    let (outer, g) ← empty.addDomain none "outer" (.downsample 2)
    let (inner, g) ← g.addDomain (some outer) "inner" (.downsample 2)
    let (a, g) ← g.addPrimitive none "a" 0 1 ⟨0⟩
    let (q, g) ← g.addRateInput outer "q" ⟨.downsample, 2⟩ ⟨0⟩
    let (r, g) ← g.addRateInput inner "r" ⟨.downsample, 2⟩ ⟨1⟩
    let (b, g) ← g.addPrimitive (some inner) "b" 1 0 ⟨2⟩
    let (_, g) ← g.connect ⟨a, 0⟩ ⟨q, 0⟩
    let (_, g) ← g.connect ⟨q, 0⟩ ⟨r, 0⟩
    let (_, g) ← g.connect ⟨r, 0⟩ ⟨b, 0⟩
    return g
  build.toOption.getD empty

theorem isClean_nested : nested.isClean { baseBlockSize := 4 } = true := by
  decide

theorem insertChannels_nested :
    ∃ s, nested.insertChannels nested.computeRates.analysis { baseBlockSize := 4 } = .ok s ∧
      (!hasErrors s.diagnostics && (nested.node? ⟨6⟩).isNone
        && (s.graph.node? ⟨6⟩).any (fun n => decide (n.parent = some ⟨0⟩))) = true :=
  exists_of_toOption_any (by decide)

/-- The channel into the boundary of the inner domain is put into the outer one and sized by it. -/
theorem validate_insertChannels_nested :
    ∃ v s v', nested.validate { baseBlockSize := 4 } = .ok v ∧ hasErrors v.diagnostics = false ∧
      nested.insertChannels v.analysis { baseBlockSize := 4 } = .ok s ∧
      hasErrors s.diagnostics = false ∧ s.graph.validate { baseBlockSize := 4 } = .ok v' ∧
      v'.analysis = v.analysis ∧ (∀ d ∈ v'.diagnostics, d.errorClass ≠ .structural) ∧
      ∃ n spec, s.graph.node? ⟨6⟩ = some n ∧ n.kind = .channel spec ∧ n.parent = some ⟨0⟩ ∧
        spec.domain = s.graph.enclosingDomain ⟨6⟩ := by
  obtain ⟨s, hs, htest⟩ := insertChannels_nested
  simp only [Bool.and_eq_true, Bool.not_eq_true', Option.any_eq_true, Option.isNone_iff_eq_none,
    decide_eq_true_eq] at htest
  obtain ⟨⟨hclean, hnew⟩, n, hn, hparent⟩ := htest
  have hv := validate_of_isClean isClean_nested
  obtain ⟨⟨v', hv', hsame, hcodes⟩, hanchor⟩ :=
    validate_insertChannels nested _ _ s hv rfl hs hclean
  obtain ⟨spec, hk, hdomain⟩ := hanchor _ n hn hnew
  exact ⟨_, s, v', hv, rfl, hs, hclean, hv', hsame, fun d hd => (hcodes d hd).1,
    n, spec, hn, hk, hparent, hdomain⟩

end Graph
end Dataflow
