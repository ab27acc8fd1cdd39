import Dataflow.Proofs.Plan.Bundles
import Dataflow.Proofs.Plan.Units

/-!
# Answers of synthesis

What a plan consists of when its synthesis reports no error.

**Reports.**  Synthesis refuses a channel or a member of a bundle with an error
(`Diagnostic.Refuses`); a cycle in a partition is a warning.

**Results.**
* `planned_iff`: there is a plan without an error where every channel can be described and every
  bundle laid out, and only there.
* `planOf_units`: the units of a plan are those of all labels.
-/

namespace Dataflow

section Refusals

variable {g : Graph} {a : DomainAnalysis} {d : Diagnostic}

/-- The refusal of a channel or of a member of a bundle. -/
def Diagnostic.Refuses (d : Diagnostic) : Prop :=
  ∃ code subject message, d = planError code subject message ∧
    (code = .channelEnd ∨ code = .untyped ∨ code = .frameLayout)

theorem Diagnostic.Refuses.isError (h : d.Refuses) : d.isError = true := by
  obtain ⟨code, subject, message, rfl, -⟩ := h
  rfl

theorem Diagnostic.Refuses.code_ne_cycle (h : d.Refuses) : d.code ≠ some .cycle := by
  obtain ⟨code, subject, message, rfl, rfl | rfl | rfl⟩ := h <;> simp [planError]

theorem refuses_describeChannel {id : NodeId} {n : Node} {spec : ChannelSpec}
    (h : g.describeChannel a id n spec = .error d) : d.Refuses := by
  unfold Graph.describeChannel at h
  dsimp only at h
  split at h
  · split at h
    · cases h
      exact ⟨_, _, _, rfl, .inl rfl⟩
    · split at h
      · cases h
      · cases h
        exact ⟨_, _, _, rfl, .inl rfl⟩
  · cases h
    exact ⟨_, _, _, rfl, .inl rfl⟩

theorem refuses_describeChannels (h : d ∈ faults (g.describeChannels a)) : d.Refuses := by
  obtain ⟨id, n, spec, -, -, hd⟩ := Graph.mem_describeChannels.mp (mem_faults.mp h)
  exact refuses_describeChannel hd

variable {channels : List ChannelDescriptor} {group : BundleGroup}

theorem refuses_layMember {offset : Nat} {member : UInt32} {node : NodeId}
    (h : layMember g channels group offset member node = .error d) : d.Refuses := by
  unfold layMember at h
  split at h
  · cases h
    exact ⟨_, _, _, rfl, .inl rfl⟩
  · split at h
    · cases h
      exact ⟨_, _, _, rfl, .inr (.inr rfl)⟩
    · split at h
      · cases h
        exact ⟨_, _, _, rfl, .inr (.inl rfl)⟩
      · cases h

theorem refuses_layMembers :
    ∀ {members : List (UInt32 × NodeId)} {offset : Nat}
      {r : List (Except Diagnostic BundleMember) × Nat},
      layMembers g channels group offset members = .ok r →
        ∀ d, .error d ∈ r.1 → d.Refuses
  | [], offset, r, h, d, hd => by
      cases h
      cases hd
  | (member, node) :: members, offset, r, h, d, hd => by
      obtain ⟨next, rest, hrest, heq⟩ := layMembers_cons h
      rw [heq] at hd
      rcases List.mem_cons.mp hd with hd | hd
      · exact refuses_layMember hd.symm
      · exact refuses_layMembers hrest d hd

theorem refuses_layBundle {r : Option BundlePlan × List Diagnostic}
    (h : layBundle g channels group = .ok r) : ∀ d ∈ r.2, d.Refuses := by
  unfold layBundle at h
  obtain ⟨⟨laid, frameBytes⟩, hlaid, h⟩ := bind_eq_ok_iff.mp h
  dsimp only at h
  split at h
  · cases h
    simp
  · cases h
    intro d hd
    exact refuses_layMembers hlaid d (mem_faults.mp hd)

theorem refuses_layBundles {groups : List BundleGroup}
    {laid : List (Option BundlePlan × List Diagnostic)}
    (h : groups.mapM (layBundle g channels) = .ok laid) (hd : d ∈ laid.flatMap Prod.snd) :
    d.Refuses := by
  obtain ⟨r, hr, hd⟩ := List.mem_flatMap.mp hd
  obtain ⟨group, -, hgroup⟩ := exists_of_mem_mapM h r hr
  exact refuses_layBundle hgroup d hd

/-- A unit only warns. -/
theorem unitPlan_snd {as : List Assignment} {p : PartitionId} (h : d ∈ (g.unitPlan as p).2) :
    d.code = some .cycle ∧ d.level = .warning := by
  unfold Graph.unitPlan at h
  dsimp only at h
  split at h
  · cases h
  · rw [List.mem_singleton] at h
    subst h
    exact ⟨rfl, rfl⟩

end Refusals

section Plans

variable {g : Graph} {channels : List ChannelDescriptor} {bundles : List BundlePlan}

/-- The plan for described channels and laid out bundles. -/
def Graph.planOf (g : Graph) (channels : List ChannelDescriptor) (bundles : List BundlePlan) :
    ProgramPlan :=
  let as := assignments g channels bundles
  let plans := ((g.unitLabels as).map (g.unitPlan as)).map Prod.fst
  let ioUnit := plans.find? fun u => u.partition.isIo
  let io := if bundles.isEmpty && ioUnit.isNone then none else some { bundles, unit := ioUnit }
  { channels, partitions := plans.filter (fun u => !u.partition.isIo), io }

@[simp] theorem planOf_channels : (g.planOf channels bundles).channels = channels := rfl

@[simp] theorem planOf_bundles : (g.planOf channels bundles).bundles = bundles := by
  unfold Graph.planOf ProgramPlan.bundles
  dsimp only
  split
  · rename_i hio
    split at hio
    · cases hio
    · cases hio
      rfl
  · rename_i hio
    split at hio
    · rename_i hnone
      rw [Bool.and_eq_true, List.isEmpty_iff] at hnone
      exact hnone.1.symm
    · cases hio

/-- The units of a plan are those of all labels. -/
theorem planOf_units :
    (g.planOf channels bundles).units.Perm
      ((g.unitLabels (assignments g channels bundles)).map fun p =>
        (g.unitPlan (assignments g channels bundles) p).1) := by
  have hlabels : ∀ as, (((g.unitLabels as).map (g.unitPlan as)).map Prod.fst).map
      UnitPlan.partition = g.unitLabels as := by
    intro as
    simp [Function.comp_def, unitPlan_fst]
  have hperm := filter_append_find?_perm
    ((hlabels (assignments g channels bundles)).symm ▸ nodup_unitLabels g _)
  unfold Graph.planOf ProgramPlan.units
  dsimp only
  rw [List.map_map] at hperm ⊢
  split
  · rename_i hnone
    rw [Bool.and_eq_true, Option.isNone_iff_eq_none] at hnone
    rw [hnone.2] at hperm
    exact hperm
  · exact hperm

end Plans

section Answers

variable {g : Graph} {a : DomainAnalysis} {s : Synthesis}

/-- Synthesis has an answer as soon as no bundle leaves its word. -/
theorem synthesize_eq_ok_iff :
    g.synthesize a = .ok s ↔
      ∃ laid, g.bundleGroups.mapM (layBundle g (oks (g.describeChannels a))) = .ok laid ∧
        s.plan = g.planOf (oks (g.describeChannels a)) (laid.filterMap Prod.fst) ∧
        s.diagnostics = faults (g.describeChannels a) ++ laid.flatMap Prod.snd ++
          (let as := assignments g (oks (g.describeChannels a)) (laid.filterMap Prod.fst)
           (g.unitLabels as).flatMap fun p => (g.unitPlan as p).2) := by
  unfold Graph.synthesize
  rw [bind_eq_ok_iff]
  refine exists_congr fun laid => and_congr_right fun _ => ?_
  dsimp only
  rw [List.flatMap_map]
  constructor
  · intro h
    cases h
    exact ⟨rfl, rfl⟩
  · intro h
    obtain ⟨plan, diagnostics⟩ := s
    obtain ⟨rfl, rfl⟩ := h
    rfl

/-- Every report of synthesis is a refusal or the warning of a unit. -/
theorem mem_diagnostics_synthesize (h : g.synthesize a = .ok s) {d : Diagnostic}
    (hd : d ∈ s.diagnostics) : d.Refuses ∨ (d.code = some .cycle ∧ d.level = .warning) := by
  obtain ⟨laid, hlaid, -, hds⟩ := synthesize_eq_ok_iff.mp h
  rw [hds, List.mem_append, List.mem_append] at hd
  rcases hd with (hd | hd) | hd
  · exact .inl (refuses_describeChannels hd)
  · exact .inl (refuses_layBundles hlaid hd)
  · obtain ⟨p, -, hd⟩ := List.mem_flatMap.mp hd
    exact .inr (unitPlan_snd hd)

/-- A plan for which nothing was refused. -/
structure Graph.Planned (g : Graph) (a : DomainAnalysis) (p : ProgramPlan) : Prop where
  described : faults (g.describeChannels a) = []
  laid : ∃ laid, g.bundleGroups.mapM (layBundle g (oks (g.describeChannels a))) = .ok laid ∧
    laid.flatMap Prod.snd = [] ∧
    p = g.planOf (oks (g.describeChannels a)) (laid.filterMap Prod.fst)

/-- Synthesis reports no error where nothing was refused, and only there. -/
theorem planned_iff {p : ProgramPlan} :
    g.Planned a p ↔ ∃ s, g.synthesize a = .ok s ∧ hasErrors s.diagnostics = false ∧ s.plan = p := by
  constructor
  · rintro ⟨hdesc, laid, hlaid, hnone, rfl⟩
    refine ⟨⟨_, _⟩, synthesize_eq_ok_iff.mpr ⟨laid, hlaid, rfl, rfl⟩, ?_, rfl⟩
    rw [hdesc, hnone, hasErrors, List.any_eq_false]
    intro d hd
    obtain ⟨q, -, hd⟩ := List.mem_flatMap.mp hd
    simp [Diagnostic.isError, (unitPlan_snd hd).2]
  · rintro ⟨s, h, hclean, rfl⟩
    obtain ⟨laid, hlaid, hplan, hds⟩ := synthesize_eq_ok_iff.mp h
    have hrefuses : ∀ d ∈ s.diagnostics, ¬ d.Refuses := by
      intro d hd href
      exact List.any_eq_false.mp hclean d hd href.isError
    refine ⟨?_, laid, hlaid, ?_, hplan⟩
    · rw [List.eq_nil_iff_forall_not_mem]
      intro d hd
      exact hrefuses d (by simp [hds, hd]) (refuses_describeChannels hd)
    · rw [List.eq_nil_iff_forall_not_mem]
      intro d hd
      exact hrefuses d (by rw [hds, List.mem_append, List.mem_append]; exact .inl (.inr hd))
        (refuses_layBundles hlaid hd)

/-- Whether all channels and bundles can be planned, the members of bundles being in order. -/
def Graph.plansInOrder (g : Graph) (a : DomainAnalysis) : Bool :=
  g.ioInOrder && (faults (g.describeChannels a)).isEmpty &&
    (((g.ioNodes.map fun n => n.2.bundle).eraseReps.filterMap g.unsortedGroup?).mapM
      (layBundle g (oks (g.describeChannels a)))).toOption.any fun laid =>
        (laid.flatMap Prod.snd).isEmpty

theorem exists_synthesize_of_plansInOrder (h : g.plansInOrder a = true) :
    ∃ s, g.synthesize a = .ok s ∧ hasErrors s.diagnostics = false := by
  unfold Graph.plansInOrder at h
  rw [Bool.and_eq_true, Bool.and_eq_true] at h
  obtain ⟨⟨horder, hdesc⟩, hlaid⟩ := h
  obtain ⟨laid, hlaid, hnone⟩ := exists_of_toOption_any hlaid
  rw [← bundleGroups_of_ioInOrder horder] at hlaid
  obtain ⟨s, hs, hclean, -⟩ := planned_iff.mp
    ⟨List.isEmpty_iff.mp hdesc, laid, hlaid, List.isEmpty_iff.mp hnone, rfl⟩
  exact ⟨s, hs, hclean⟩

end Answers

end Dataflow
