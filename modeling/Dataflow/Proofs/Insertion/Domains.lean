import Dataflow.Proofs.Insertion.Certificate

/-!
# Domains of direct arcs

After insertion without an error, in a valid graph, an arc without a channel connects two ports that
are governed by the same clock domain, unless it runs on the inner side of a boundary
(`outputDomain_eq_inputDomain_of_direct`).

**Boundaries.**  Samples enter a domain at the input of one boundary node and leave it at the output
of another.  These two ports are held to the domain around it.  Nothing is asked of the two inner
ports, at which samples that have entered go on and samples that will leave arrive: an arc may join
them to any domain of the same partition (`leaky_direct_arcs`).
-/

namespace Dataflow

section Defs

namespace NodeKind

/-- Whether samples enter a clock domain through a node of this kind. -/
def entersDomain : NodeKind → Bool
  | rateInput _ => true
  | _ => false

/-- Whether samples leave a clock domain through a node of this kind. -/
def leavesDomain : NodeKind → Bool
  | rateOutput _ => true
  | _ => false

theorem entersDomain_iff {k : NodeKind} : k.entersDomain = true ↔ ∃ c, k = .rateInput c := by
  cases k <;> simp [entersDomain]

theorem leavesDomain_iff {k : NodeKind} : k.leavesDomain = true ↔ ∃ c, k = .rateOutput c := by
  cases k <;> simp [leavesDomain]

@[simp] theorem entersDomain_withChildren {k : NodeKind} {new : List NodeId} :
    (k.withChildren new).entersDomain = k.entersDomain := by
  cases k <;> rfl

@[simp] theorem leavesDomain_withChildren {k : NodeKind} {new : List NodeId} :
    (k.withChildren new).leavesDomain = k.leavesDomain := by
  cases k <;> rfl

/-- A boundary is where samples enter or leave. -/
theorem isRateChange_eq {k : NodeKind} : k.isRateChange = (k.entersDomain || k.leavesDomain) := by
  cases k <;> rfl

end NodeKind

namespace Graph

/-- Whether samples enter a clock domain through a node. -/
def entersDomain (g : Graph) (id : NodeId) : Bool := (g.kindOf id).any NodeKind.entersDomain

/-- Whether samples leave a clock domain through a node. -/
def leavesDomain (g : Graph) (id : NodeId) : Bool := (g.kindOf id).any NodeKind.leavesDomain

/-- Whether a connection runs on the inner side of a boundary: it goes on from where samples enter a
domain, other than to enter another, or comes to where they leave one, other than from having left
another. -/
def innerSide (g : Graph) (src dst : NodeId) : Bool :=
  (g.entersDomain src && !g.entersDomain dst) || (g.leavesDomain dst && !g.leavesDomain src)

end Graph

end Defs

namespace Graph

section Checks

variable {g g' : Graph} {id : ArcId} {a : Arc} {dst : PortRef} {n m : Node}

/-- Gaining members does not make a boundary of a node. -/
theorem KeepsNodes.innerSide_eq (h : g.KeepsNodes g') {src dst : NodeId}
    (hn : g.node? src = some n) (hm : g.node? dst = some m) :
    g'.innerSide src dst = g.innerSide src dst := by
  obtain ⟨_, hn'⟩ := h hn
  obtain ⟨_, hm'⟩ := h hm
  simp [innerSide, entersDomain, leavesDomain, kindOf, hn, hn', hm, hm']

/-- The same old arcs touch a channel. -/
theorem KeepsNodes.atChannel_eq (h : g.KeepsNodes g') (hg : g.ReferencesExist)
    (ha : g.arc? id = some a) : g'.atChannel a = g.atChannel a := by
  obtain ⟨n, hn, -⟩ := hg.source ha
  obtain ⟨_, hn'⟩ := h hn
  cases hd : a.dst with
  | unconnected =>
      simp [atChannel, isChannel, kindOf, hn, hn', Arc.dstNode, Arc.dstPort, hd]
  | port q =>
      obtain ⟨m, hm, -⟩ := hg.target ha hd
      obtain ⟨_, hm'⟩ := h hm
      simp [atChannel, isChannel, kindOf, hn, hn', hm, hm', Arc.dstNode, Arc.dstPort, hd]

/-- An arc at the outer port of a boundary stays in the domain of that port. -/
theorem outputDomain_eq_of_boundary (hdst : a.dst = .port dst)
    (hn : g.node? a.src.node = some n) (hm : g.node? dst.node = some m)
    (htop : g.topologyFault? id a = none)
    (hboundary : m.kind.entersDomain = true ∨ n.kind.leavesDomain = true) :
    g.outputDomain a.src = g.inputDomain dst := by
  have hport := Arc.dstPort_eq_some.mpr hdst
  by_contra hne
  unfold topologyFault? at htop
  simp only [hport, hn, hm, Option.bind_eq_bind, Option.bind_some, if_neg hne] at htop
  split at htop
  · cases htop
  · cases htop
  · rename_i hnotIn hnotOut
    rcases hboundary with henters | hleaves
    · obtain ⟨c, hc⟩ := NodeKind.entersDomain_iff.mp henters
      exact hnotIn c hc
    · obtain ⟨c, hc⟩ := NodeKind.leavesDomain_iff.mp hleaves
      exact hnotOut c hc

/-- What is known of an arc that touches no channel and does not cross. -/
theorem of_crossing?_eq_none (hdst : a.dst = .port dst)
    (hn : g.node? a.src.node = some n) (hm : g.node? dst.node = some m)
    (hdirect : g.atChannel a = false) (hcross : g.crossing? a = none) :
    (n.kind.isExternalIo = false ∧ m.kind.isExternalIo = false) ∧ n.partition = m.partition ∧
      (n.kind.isRateChange = true ∨ m.kind.isRateChange = true ∨
        g.enclosingDomain a.src.node = g.enclosingDomain dst.node) := by
  have hport := Arc.dstPort_eq_some.mpr hdst
  unfold atChannel isChannel kindOf at hdirect
  unfold crossing? at hcross
  simp only [Arc.dstNode, hport, hn, hm, Option.map_some, Option.any_some] at hdirect
  simp only [hport, hn, hm, Option.bind_eq_bind, Option.bind_some, hdirect] at hcross
  grind

/-- Between ordinary nodes an arc that does not cross stays in the domain of both. -/
theorem outputDomain_eq_of_ordinary (hdst : a.dst = .port dst)
    (hn : g.node? a.src.node = some n) (hm : g.node? dst.node = some m)
    (hdirect : g.atChannel a = false) (hcross : g.crossing? a = none)
    (hsrc : n.kind.isRateChange = false) (htarget : m.kind.isRateChange = false) :
    g.outputDomain a.src = g.inputDomain dst := by
  have hout : g.outputDomain a.src = g.enclosingDomain a.src.node := by
    unfold outputDomain kindOf
    cases hk : n.kind <;> simp_all [NodeKind.isRateChange]
  have hin : g.inputDomain dst = g.enclosingDomain dst.node := by
    unfold inputDomain kindOf
    cases hk : m.kind <;> simp_all [NodeKind.isRateChange]
  rw [hout, hin]
  obtain ⟨-, -, hrate | hrate | hsame⟩ := of_crossing?_eq_none hdst hn hm hdirect hcross
  · rw [hsrc] at hrate
    cases hrate
  · rw [htarget] at hrate
    cases hrate
  · exact hsame

/-- An arc that passes every check and touches no channel stays in one domain, unless it runs on the
inner side of a boundary. -/
theorem outputDomain_eq_inputDomain (hdst : a.dst = .port dst)
    (hn : g.node? a.src.node = some n) (hm : g.node? dst.node = some m)
    (hdirect : g.atChannel a = false) (hcross : g.crossing? a = none)
    (htop : g.topologyFault? id a = none)
    (hinner : g.innerSide a.src.node dst.node = false) :
    g.outputDomain a.src = g.inputDomain dst := by
  by_cases hboundary : m.kind.entersDomain = true ∨ n.kind.leavesDomain = true
  · exact outputDomain_eq_of_boundary hdst hn hm htop hboundary
  · -- away from the outer ports, only the inner ones are left at a change of rate
    have hplain : n.kind.isRateChange = false ∧ m.kind.isRateChange = false := by
      obtain ⟨henters, hleaves⟩ := not_or.mp hboundary
      simp only [innerSide, entersDomain, leavesDomain, kindOf, hn, hm, Option.map_some,
        Option.any_some]
        at hinner
      rw [NodeKind.isRateChange_eq, NodeKind.isRateChange_eq]
      simp_all
    exact outputDomain_eq_of_ordinary hdst hn hm hdirect hcross hplain.1 hplain.2

end Checks

/-- After insertion without an error, in a valid graph, every arc that touches no channel connects
two ports of the same domain, unless it runs on the inner side of a boundary. -/
theorem outputDomain_eq_inputDomain_of_direct (g : Graph) (p : ChannelPolicy) (v : Validation)
    (s : Insertion) (hv : g.validate p = .ok v) (hvalid : hasErrors v.diagnostics = false)
    (hs : g.insertChannels v.analysis p = .ok s) (hclean : hasErrors s.diagnostics = false)
    (id : ArcId) (a : Arc) (dst : PortRef) (ha : s.graph.arc? id = some a)
    (hdst : a.dst = .port dst) (hdirect : s.graph.atChannel a = false)
    (hinner : s.graph.innerSide a.src.node dst.node = false) :
    s.graph.outputDomain a.src = s.graph.inputDomain dst := by
  obtain ⟨hg, hnone⟩ := wellFormed_of_validate hv hvalid
  have hrefs := hg.toReferencesExist
  have hrun := Insertion.progress_insertChannels hrefs hs
  have hcross := hrun.crossing?_eq_none hrefs hclean ha
  cases hrun.trace.fate ha with
  | kept hold _ =>
      obtain ⟨n, hn, -⟩ := hrefs.source hold
      obtain ⟨m, hm, -⟩ := hrefs.target hold hdst
      have hkeeps := hrun.trace.keepsNodes
      have htop : g.topologyFault? id a = none := by
        obtain ⟨blocks, -, rfl⟩ := (validate_eq_ok_iff hg).mp hv
        have hfaults := (List.append_eq_nil_iff.mp hnone).2
        exact List.filterMap_eq_nil_iff.mp hfaults (id, a) (mem_arcList.mpr hold)
      rw [hkeeps.crossing?_eq hrefs (hrefs.source hold) fun q hq => hrefs.target hold hq] at hcross
      rw [hkeeps.innerSide_eq hn hm] at hinner
      rw [hkeeps.atChannel_eq hrefs hold] at hdirect
      rw [hkeeps.outputDomain_eq hrefs hn, hkeeps.inputDomain_eq hrefs hm]
      exact outputDomain_eq_inputDomain hdst hn hm hdirect hcross htop hinner
  | enters hroute _ _ =>
      simp [atChannel, Arc.dstNode, Arc.dstPort, hrun.trace.isChannel hroute] at hdirect
  | leaves hroute _ _ =>
      simp [atChannel, hrun.trace.isChannel hroute] at hdirect

/-- A clock domain with both boundaries.  What enters it goes on to a node outside, and what leaves
it comes from one.  Besides there is a reader in another partition. -/
def leaky : Graph :=
  let build : Except Trap Graph := do
    let (d, g) ← empty.addDomain none "slow" (.downsample 2)
    let (a, g) ← g.addPrimitive none "a" 0 3 ⟨0⟩
    let (r, g) ← g.addRateInput d "r" ⟨.downsample, 2⟩ ⟨0⟩
    let (q, g) ← g.addRateOutput d "q" ⟨.upsample, 2⟩ 1 ⟨0⟩
    let (b, g) ← g.addPrimitive none "b" 2 0 ⟨0⟩
    let (c, g) ← g.addPrimitive none "c" 1 0 ⟨1⟩
    let (_, g) ← g.connect ⟨a, 0⟩ ⟨r, 0⟩
    let (_, g) ← g.connect ⟨r, 0⟩ ⟨b, 0⟩
    let (_, g) ← g.connect ⟨a, 1⟩ ⟨q, 0⟩
    let (_, g) ← g.connect ⟨q, 0⟩ ⟨b, 1⟩
    let (_, g) ← g.connect ⟨a, 2⟩ ⟨c, 0⟩
    return g
  build.toOption.getD empty

/-- Whether an arc without a channel connects ports of different domains. -/
def leaks (g : Graph) (a : Arc) : Bool :=
  !g.atChannel a && a.dstPort.any fun dst => g.outputDomain a.src ≠ g.inputDomain dst

theorem leaks_iff {g : Graph} {a : Arc} :
    g.leaks a = true ↔
      g.atChannel a = false ∧ ∃ dst, a.dst = .port dst ∧
      g.outputDomain a.src ≠ g.inputDomain dst := by
  simp [leaks, Option.any_eq_true, Arc.dstPort_eq_some]

theorem isClean_leaky : leaky.isClean {} = true := by
  decide

theorem insertChannels_leaky :
    ∃ s, leaky.insertChannels leaky.computeRates.analysis {} = .ok s ∧
      (!hasErrors s.diagnostics && decide (s.channels.length = 1)
        && (s.graph.arc? ⟨1⟩).any (fun a => s.graph.leaks a && s.graph.entersDomain a.src.node)
        && (s.graph.arc? ⟨2⟩).any (fun a => s.graph.leaks a && a.dstNode.any s.graph.leavesDomain)
        && (s.graph.arc? ⟨3⟩).any fun a => decide (a.src = ⟨⟨3⟩, 0⟩ ∧ a.dst = .port ⟨⟨4⟩, 1⟩)
          && !s.graph.atChannel a && !s.graph.innerSide ⟨3⟩ ⟨4⟩) = true :=
  exists_of_toOption_any (by decide)

/-- Both inner ports of the boundaries of a domain can be joined to the domain outside, without a
channel and without an error. -/
theorem leaky_direct_arcs :
    ∃ v s, leaky.validate {} = .ok v ∧ hasErrors v.diagnostics = false ∧
      leaky.insertChannels v.analysis {} = .ok s ∧ hasErrors s.diagnostics = false ∧
      (∃ id a dst, s.graph.arc? id = some a ∧ a.dst = .port dst ∧ s.graph.atChannel a = false ∧
        s.graph.entersDomain a.src.node = true ∧
        s.graph.outputDomain a.src ≠ s.graph.inputDomain dst) ∧
      ∃ id a dst, s.graph.arc? id = some a ∧ a.dst = .port dst ∧ s.graph.atChannel a = false ∧
        s.graph.leavesDomain dst.node = true ∧
        s.graph.outputDomain a.src ≠ s.graph.inputDomain dst := by
  obtain ⟨s, hs, htest⟩ := insertChannels_leaky
  simp only [Bool.and_eq_true, Bool.not_eq_true', Option.any_eq_true, leaks_iff] at htest
  obtain ⟨⟨⟨⟨hclean, -⟩, a, ha, ⟨hfree, dst, hdst, hne⟩, henters⟩,
    b, hb, ⟨hfree', dst', hdst', hne'⟩, hleaves⟩, -⟩ := htest
  obtain ⟨_, hnode, hleaves⟩ := hleaves
  cases hnode.symm.trans (Arc.dstNode_eq_some.mpr ⟨dst', hdst', rfl⟩)
  exact ⟨_, s, validate_of_isClean isClean_leaky, rfl, hs, hclean,
    ⟨_, a, dst, ha, hdst, hfree, henters, hne⟩, _, b, dst', hb, hdst', hfree', hleaves, hne'⟩

/-- The arc by which samples leave the domain stays outside it at both ends. -/
theorem outputDomain_eq_inputDomain_of_direct_leaky :
    ∃ v s a, leaky.validate {} = .ok v ∧ hasErrors v.diagnostics = false ∧
      leaky.insertChannels v.analysis {} = .ok s ∧ hasErrors s.diagnostics = false ∧
      s.channels.length = 1 ∧ s.graph.arc? ⟨3⟩ = some a ∧ a.dst = .port ⟨⟨4⟩, 1⟩ ∧
      s.graph.atChannel a = false ∧ s.graph.innerSide a.src.node ⟨4⟩ = false ∧
      s.graph.outputDomain a.src = s.graph.inputDomain ⟨⟨4⟩, 1⟩ := by
  obtain ⟨s, hs, htest⟩ := insertChannels_leaky
  simp only [Bool.and_eq_true, Bool.not_eq_true', Option.any_eq_true, decide_eq_true_eq] at htest
  obtain ⟨⟨⟨⟨hclean, hone⟩, -⟩, -⟩, a, ha, ⟨⟨hsrc, hdst⟩, hfree⟩, hinner⟩ := htest
  have hv := validate_of_isClean isClean_leaky
  rw [show (⟨3⟩ : NodeId) = a.src.node by rw [hsrc]] at hinner
  exact ⟨_, s, a, hv, rfl, hs, hclean, hone, ha, hdst, hfree, hinner,
    outputDomain_eq_inputDomain_of_direct leaky {} _ s hv rfl hs hclean _ a _ ha hdst hfree hinner⟩

end Graph
end Dataflow
