import Dataflow.Proofs.Assembly.Ledger
import Dataflow.Proofs.Insertion.WellFormed
import Dataflow.Proofs.Plan.Sharing

/-!
# Plans of compilations can be wired up

A compilation that reports no error ends with a plan from which a program can be assembled: nothing
is missing and nothing is left over (`assemble_of_compile`).

**Ends.**  The certificate counts the ends of every channel, and a plan names no channel that the
graph does not have, so the ends are a list of the channels (`Planned.writers_perm`,
`Planned.readers_perm`).

**Members.**  The port of a member has one arc.  So a member that is fed has one channel
(`Planned.single`).
-/

namespace Dataflow

theorem perm_of_count_eq_one {α : Type} [DecidableEq α] {l m : List α} (hm : m.Nodup) (hsub : l ⊆ m)
    (hone : ∀ a ∈ m, l.count a = 1) : l.Perm m := by
  rw [List.perm_iff_count]
  intro a
  by_cases ha : a ∈ m
  · rw [hone a ha, List.count_eq_one_of_mem hm ha]
  · rw [List.count_eq_zero_of_not_mem ha, List.count_eq_zero_of_not_mem fun h => ha (hsub h)]

section Channels

variable {g : Graph} {a : DomainAnalysis} {p : ProgramPlan} {channels : List ChannelDescriptor}
  {bundles : List BundlePlan}

theorem reach_subset (direction : IoDirection) (node : NodeId) :
    reach channels direction node ⊆ channels.map ChannelDescriptor.node := by
  rw [reach, attached_eq_filter]
  exact List.map_subset _ List.filter_sublist.subset

theorem channelsOf_subset (label : PartitionId) (d : Duty) :
    channelsOf (assignments g channels bundles) label d ⊆ channels.map ChannelDescriptor.node := by
  intro c hc
  obtain ⟨x, hx, hxc⟩ := List.mem_filterMap.mp ((List.mergeSort_perm _ _).mem_iff.mp hc)
  obtain ⟨d, hd, hx⟩ := List.mem_flatMap.mp hx
  obtain ⟨_, -, rfl⟩ := List.mem_map.mp hx
  split at hxc
  · cases hxc
    exact List.mem_map_of_mem hd
  · cases hxc

namespace Graph.Planned

theorem mem_units (h : g.Planned a p) {u : UnitPlan} (hu : u ∈ p.units) :
    u.outputs ++ u.locals ⊆ p.channels.map ChannelDescriptor.node ∧
      u.inputs ++ u.locals ⊆ p.channels.map ChannelDescriptor.node := by
  obtain ⟨-, laid, -, -, rfl⟩ := h
  obtain ⟨label, -, rfl⟩ := List.mem_map.mp (planOf_units.mem_iff.mp hu)
  rw [unitPlan_fst]
  exact ⟨List.append_subset.mpr ⟨channelsOf_subset _ _, channelsOf_subset _ _⟩,
    List.append_subset.mpr ⟨channelsOf_subset _ _, channelsOf_subset _ _⟩⟩

theorem bundled_subset (h : g.Planned a p) (direction : IoDirection) :
    p.bundled direction ⊆ p.channels.map ChannelDescriptor.node := by
  obtain ⟨-, laid, hlaid, hnone, rfl⟩ := h
  intro c hc
  rw [ProgramPlan.bundled, planOf_bundles, bundled_groups direction hlaid hnone] at hc
  obtain ⟨group, -, hc⟩ := List.mem_flatMap.mp hc
  obtain ⟨m, -, hc⟩ := List.mem_flatMap.mp hc
  exact reach_subset _ _ hc

theorem writers_subset (h : g.Planned a p) :
    p.writers ⊆ p.channels.map ChannelDescriptor.node := by
  refine List.append_subset.mpr ⟨fun c hc => ?_, h.bundled_subset _⟩
  obtain ⟨u, hu, hc⟩ := List.mem_flatMap.mp hc
  exact (h.mem_units hu).1 hc

theorem readers_subset (h : g.Planned a p) :
    p.readers ⊆ p.channels.map ChannelDescriptor.node := by
  refine List.append_subset.mpr ⟨fun c hc => ?_, h.bundled_subset _⟩
  obtain ⟨u, hu, hc⟩ := List.mem_flatMap.mp hc
  exact (h.mem_units hu).2 hc

theorem ends_of_endsPaired (h : g.Planned a p) (hends : p.endsPaired g = true) {c : NodeId}
    (hc : c ∈ p.channels.map ChannelDescriptor.node) :
    p.writers.count c = 1 ∧ p.readers.count c = 1 := by
  rw [h.channels_eq, Graph.map_node_channels h.described] at hc
  obtain ⟨n, hn, rfl⟩ := List.mem_map.mp hc
  simpa using List.all_eq_true.mp hends n hn

theorem size (h : g.Planned a p) (hg : g.WellFormed) :
    ∀ c ∈ p.channels, 0 < c.blockSize ∧ c.blockSize ≤ c.capacity := by
  intro c hc
  rw [h.channels_eq] at hc
  obtain ⟨n, spec, hn, hk, hdesc⟩ := Graph.mem_channels_iff.mp hc
  rw [hdesc.blockSize, hdesc.capacity]
  exact hg.channel hn hk

end Graph.Planned

end Channels

section Bundles

variable {g : Graph} {a : DomainAnalysis} {p : ProgramPlan} {channels : List ChannelDescriptor}
  {group : BundleGroup}

theorem bundleGroup?_name {name : String} (h : g.bundleGroup? name = some group) :
    group.name = name := by
  unfold Graph.bundleGroup? at h
  split at h
  · cases h
  · cases h
    rfl

theorem names_sublist_groups {groups : List BundleGroup}
    {laid : List (Option BundlePlan × List Diagnostic)}
    (h : groups.mapM (layBundle g channels) = .ok laid) :
    ((laid.filterMap Prod.fst).map BundlePlan.name).Sublist (groups.map BundleGroup.name) := by
  induction groups generalizing laid with
  | nil =>
      cases h
      exact .slnil
  | cons group groups ih =>
      rw [List.mapM_cons, bind_eq_ok_iff] at h
      obtain ⟨⟨b, ds⟩, hb, h⟩ := h
      obtain ⟨rest, hrest, h⟩ := bind_eq_ok_iff.mp h
      cases h
      cases b with
      | none => exact (ih hrest).cons _
      | some b =>
          rw [List.filterMap_cons_some (show (some b, ds).1 = some b from rfl), List.map_cons,
            List.map_cons, (layBundle_some hb).1]
          exact (ih hrest).cons_cons _

theorem names_sublist_labels (g : Graph) (names : List String) :
    ((names.filterMap g.bundleGroup?).map BundleGroup.name).Sublist names := by
  induction names with
  | nil => exact .slnil
  | cons name names ih =>
      cases hgroup : g.bundleGroup? name with
      | none =>
          rw [List.filterMap_cons_none hgroup]
          exact ih.cons _
      | some group =>
          rw [List.filterMap_cons_some hgroup, List.map_cons, bundleGroup?_name hgroup]
          exact ih.cons_cons _

namespace Graph.Planned

theorem names (h : g.Planned a p) : (p.bundles.map BundlePlan.name).Nodup := by
  obtain ⟨-, laid, hlaid, -, rfl⟩ := h
  rw [planOf_bundles]
  exact ((nodup_bundleNames g).sublist (names_sublist_labels g _)).sublist
    (names_sublist_groups hlaid)

theorem single (h : g.Planned a p) (hg : g.WellFormed) : ∀ b ∈ p.bundles, b.Single := by
  have hdesc := h.described
  obtain ⟨-, laid, hlaid, -, rfl⟩ := h
  rw [planOf_bundles]
  intro b hb hout m hm
  obtain ⟨⟨_, ds⟩, hr, rfl⟩ := List.mem_filterMap.mp hb
  obtain ⟨group, hgroup, hlay⟩ := exists_of_mem_mapM hlaid _ hr
  obtain ⟨name, -, hname⟩ := List.mem_filterMap.mp hgroup
  obtain ⟨-, hdir, hmembers⟩ := layBundle_some hlay
  obtain ⟨x, hx, offset, hm⟩ := hmembers m hm
  obtain ⟨slot, hslot, rfl⟩ := layMember_eq_ok_iff.mp hm
  rw [← hdir, hout] at hslot
  -- the member is a node of the outside
  have hio : g.isExternalIo x.2 = true := by
    have hmem := (bundleGroup?_eq_some hg hname).1.mem_iff.mp (List.mem_map_of_mem hx)
    obtain ⟨⟨id, ep⟩, hn, heq⟩ := List.mem_map.mp hmem
    obtain ⟨n, hn, hk⟩ := mem_ioNodes.mp (List.mem_of_mem_filter hn)
    exact isExternalIo_iff.mpr ⟨n, ep, heq ▸ hn, hk⟩
  obtain ⟨d, hd⟩ : ∃ d, d ∈ attached (oks (g.describeChannels a)) .output x.2 := by
    refine List.exists_mem_of_ne_nil _ fun hnil => ?_
    rw [slot?, hnil] at hslot
    cases hslot
  rw [attached_eq_filter, List.mem_filter] at hd
  obtain ⟨q, hq, hnode⟩ := List.any_eq_true.mp hd.2
  have hnode : q.node = x.2 := of_decide_eq_true hnode
  have hone := attached_output_eq hg hdesc hd.1 hq (hnode ▸ hio)
  refine ⟨d.node, ?_⟩
  show (attached _ group.direction x.2).map ChannelDescriptor.node = _
  rw [← hdir, hout, ← hnode, hone]
  rfl

/-- A plan whose certificate passes can be wired up. -/
theorem wirable (h : g.Planned a p) (hg : g.WellFormed) (hends : p.endsPaired g = true) :
    p.Wirable where
  distinct := h.distinct
  size := h.size hg
  writers := perm_of_count_eq_one h.distinct h.writers_subset fun _ hc =>
    (h.ends_of_endsPaired hends hc).1
  readers := perm_of_count_eq_one h.distinct h.readers_subset fun _ hc =>
    (h.ends_of_endsPaired hends hc).2
  labels := h.labels
  names := h.names
  single := h.single hg

end Graph.Planned

end Bundles

section Programs

theorem checkTypes_eq_ok_iff {p : ProgramPlan} {t : SampleType} :
    p.checkTypes t = .ok () ↔ ∀ c ∈ p.channels, ∀ found, c.elem = some found → found = t.elem := by
  rw [ProgramPlan.checkTypes, forM_eq_ok_iff]
  refine forall₂_congr fun c _ => ?_
  cases c.elem <;> simp

namespace Graph

theorem Planned.mem_channels_iff {g : Graph} {a : DomainAnalysis} {p : ProgramPlan}
    (h : g.Planned a p) {id : NodeId} :
    id ∈ p.channels.map ChannelDescriptor.node ↔ g.isChannel id = true := by
  rw [h.channels_eq, Graph.map_node_channels h.described, isChannel_iff]
  simp

/-- A compilation without an error ends with a plan that can be assembled: given a kernel for each
unit and a transport for each bundle, nothing fails as long as the types of samples agree.  In the
program each channel of the graph has one owner at either end, and no end is left over. -/
theorem assemble_of_compile (g : Graph) (p : ChannelPolicy) (c : Compilation)
    (hc : g.compile p .synthesize = .ok c) (hok : c.hasError = false) (σ ε : Type)
    (t : SampleType) :
    ∃ plan, c.plan = some plan ∧
      ∀ (kernels : List (PartitionId × KernelSetup σ t)) (transports : List (String × ε)),
        plan.checkTypes t = .ok () →
        (∀ u ∈ plan.units, ∃ k, kernels.lookup u.partition = some k) →
        (∀ b ∈ plan.bundles, ∃ e, transports.lookup b.name = some e) →
        ∃ prog, plan.assemble kernels transports = .ok prog ∧ ∀ id,
          (id ∈ prog.channels ↔ c.graph.isChannel id = true) ∧
          prog.writers.count id = (if c.graph.isChannel id then 1 else 0) ∧
          prog.readers.count id = (if c.graph.isChannel id then 1 else 0) ∧
          prog.ledger[id]? = if c.graph.isChannel id then some ⟨false, false⟩ else none := by
  obtain ⟨v, s, u, hv, hvalid, hs, hclean, -, hu, hcleanu, hcert, rfl⟩ :=
    Compilation.compile_clean_iff.mp ⟨hc, hok⟩
  have hwell := Insertion.wellFormed_of_valid hv hvalid hs hclean
  have hplan : s.graph.Planned v.analysis u.plan := planned_iff.mpr ⟨u, hu, hcleanu, rfl⟩
  have hends : u.plan.endsPaired s.graph = true := by
    rw [hplan.endsPaired_iff hwell]
    exact (hplan.allPass_cert_iff hwell).mp hcert
  refine ⟨u.plan, rfl, fun kernels transports htypes hkernels htransports => ?_⟩
  obtain ⟨prog, hprog, hchannels, hwriters, hreaders, hledger⟩ :=
    exists_assemble (hplan.wirable hwell hends) htypes hkernels htransports
  refine ⟨prog, hprog, fun id => ?_⟩
  have hgraph : (Compilation.completed g p v s u).graph.isChannel id = s.graph.isChannel id := rfl
  rw [hgraph, hchannels id, hplan.mem_channels_iff, hwriters.count_eq, hreaders.count_eq,
    hplan.distinct.count, hledger.entry id]
  simp only [hplan.mem_channels_iff]
  simp

/-- A bundle on either side of a unit that also feeds another unit and one for the outside. -/
def wired : Graph :=
  let build : Except Trap Graph := do
    let (x, g) ← empty.addIo none "x" { bundle := "in", direction := .input, member := 0 }
    let (a, g) ← g.addPrimitive none "a" 1 3 ⟨0⟩
    let (y, g) ← g.addIo none "y" { bundle := "out", direction := .output, member := 0 }
    let (b, g) ← g.addPrimitive none "b" 1 0 ⟨1⟩
    let (k, g) ← g.addPrimitive none "k" 1 0 .io
    let (_, g) ← g.connect ⟨x, 0⟩ ⟨a, 0⟩
    let (_, g) ← g.connect ⟨a, 0⟩ ⟨y, 0⟩
    let (_, g) ← g.connect ⟨a, 1⟩ ⟨b, 0⟩
    let (_, g) ← g.connect ⟨a, 2⟩ ⟨k, 0⟩
    return [PortRef.mk x 0, ⟨a, 0⟩, ⟨a, 1⟩, ⟨a, 2⟩].foldl (fun g p => g.setOutputType p .f32) g
  build.toOption.getD empty

theorem insertChannels_wired :
    ∃ s, wired.insertChannels wired.computeRates.analysis {} = .ok s ∧
      ((oks (s.graph.describeChannels wired.computeRates.analysis)).all
          (fun c => decide (c.elem = some SampleType.f32.elem))
        && s.graph.isChannel ⟨5⟩) = true :=
  exists_of_toOption_any (by decide)

theorem exists_lookup {α κ β : Type} [BEq κ] [LawfulBEq κ] (l : List α) (f : α → κ) (b : β) :
    ∀ a ∈ l, ∃ v, (l.map fun a => (f a, b)).lookup (f a) = some v := by
  intro a ha
  induction l with
  | nil => cases ha
  | cons x l ih =>
      rw [List.map_cons, List.lookup_cons]
      cases hx : f a == f x with
      | true => exact ⟨b, rfl⟩
      | false =>
          rcases List.mem_cons.mp ha with rfl | ha
          · simp at hx
          · exact ih ha

/-- A kernel that puts out again what it has put out before. -/
def repeating : KernelSetup Unit .f32 := ⟨fun _ _ outs => .ok ⟨.proceed, outs, ()⟩, ()⟩

/-- The four channels are handed out to three units and two bundles. -/
theorem assemble_of_compile_wired :
    ∃ c plan, ∃ prog : Program Unit Unit .f32, wired.compile {} .synthesize = .ok c ∧
      c.hasError = false ∧ c.plan = some plan ∧ plan.checkTypes .f32 = .ok () ∧
      plan.assemble (plan.units.map fun u => (u.partition, repeating))
        (plan.bundles.map fun b => (b.name, ())) = .ok prog ∧
      prog.writers.count ⟨5⟩ = 1 ∧ prog.readers.count ⟨5⟩ = 1 ∧
      prog.ledger[(⟨5⟩ : NodeId)]? = some ⟨false, false⟩ := by
  have hvalid : wired.isClean {} = true := by decide +kernel
  have hcompiles : wired.compilesSingly {} = true := by decide +kernel
  obtain ⟨-, c, hc, hok, -⟩ := exists_compile_of_compilesSingly hcompiles
  obtain ⟨plan, hplan, hall⟩ := assemble_of_compile wired {} c hc hok Unit Unit .f32
  obtain ⟨v, s, u, hv, -, hs, -, -, hu, hclean, -, rfl⟩ :=
    Compilation.compile_clean_iff.mp ⟨hc, hok⟩
  cases hplan
  cases hv.symm.trans (validate_of_isClean hvalid)
  obtain ⟨s', hs', htest⟩ := insertChannels_wired
  cases hs.symm.trans hs'
  rw [Bool.and_eq_true, List.all_eq_true] at htest
  obtain ⟨helems, hchannel⟩ := htest
  have hplanned : s.graph.Planned _ u.plan := planned_iff.mpr ⟨u, hu, hclean, rfl⟩
  have htypes : u.plan.checkTypes .f32 = .ok () := by
    rw [checkTypes_eq_ok_iff, hplanned.channels_eq]
    intro d hd e he
    exact Option.some.inj (he.symm.trans (of_decide_eq_true (helems d hd)))
  obtain ⟨prog, hprog, hends⟩ := hall _ _ htypes
    (exists_lookup u.plan.units UnitPlan.partition repeating)
    (exists_lookup u.plan.bundles BundlePlan.name ())
  obtain ⟨-, hwriters, hreaders, hledger⟩ := hends ⟨5⟩
  exact ⟨_, u.plan, prog, hc, hok, rfl, htypes, hprog, hwriters.trans (if_pos hchannel),
    hreaders.trans (if_pos hchannel), hledger.trans (if_pos hchannel)⟩

end Graph

end Programs
end Dataflow
