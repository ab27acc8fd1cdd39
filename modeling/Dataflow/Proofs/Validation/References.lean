import Dataflow.Proofs.Validation.WellFormed
import Dataflow.Validation.References

/-!
# Faults of references

No fault of references is found exactly in the graphs whose references exist
(`referenceFaults_eq_nil_iff`), one lemma for each list of faults.
-/

namespace Dataflow
namespace Graph

section Ends

variable {g : Graph}

theorem sourceFaults_eq_nil_iff {id : ArcId} {p : PortRef} :
    g.sourceFaults id p = [] ↔ g.HasOutput p := by
  unfold sourceFaults HasOutput
  cases h : g.node? p.node with
  | none =>
      simp
  | some n =>
      by_cases hp : p.port.toNat < n.outputs.length
      · simp [hp]
      · simp [hp]

theorem targetFaults_eq_nil_iff {id : ArcId} {p : PortRef} :
    g.targetFaults id p = [] ↔ g.HasInput p := by
  unfold targetFaults HasInput
  cases h : g.node? p.node with
  | none =>
      simp
  | some n =>
      by_cases hp : p.port.toNat < n.inputs.length
      · simp [hp]
      · simp [hp]

theorem arcFaults_eq_nil_iff {id : ArcId} {a : Arc} :
    g.arcFaults id a = [] ↔
      g.HasOutput a.src ∧ ∀ p, a.dst = .port p → g.HasInput p := by
  unfold arcFaults
  rw [List.append_eq_nil_iff, sourceFaults_eq_nil_iff]
  cases a.dst with
  | port p =>
      simp [targetFaults_eq_nil_iff]
  | unconnected =>
      simp

end Ends

section Nodes

variable {g : Graph}

theorem parentFaults_eq_nil_iff {id : NodeId} {n : Node} :
    g.parentFaults id n = [] ↔ ∀ p, n.parent = some p → ∃ c, g.node? p = some c := by
  unfold parentFaults
  cases n.parent with
  | none =>
      simp
  | some p =>
      by_cases hp : p ∈ g.nodes
      · simp [hp, mem_nodes_iff.mp hp]
      · simp [hp, mt mem_nodes_iff.mpr hp]

theorem memberFaults_eq_nil_iff {id : NodeId} {n : Node} :
    g.memberFaults id n = [] ↔ ∀ c ∈ n.kind.members, ∃ m, g.node? c = some m := by
  unfold memberFaults
  rw [List.map_eq_nil_iff, List.filter_eq_nil_iff]
  refine forall₂_congr fun c _ => ?_
  rw [← mem_nodes_iff]
  simp

theorem anchorFaults_eq_nil_iff {id : NodeId} {n : Node} :
    g.anchorFaults id n = [] ↔
      ∀ spec d, n.kind = .channel spec → spec.domain = some d →
        ∃ m, g.node? d = some m ∧ m.kind.isDomain := by
  unfold anchorFaults
  cases hs : n.kind.channelSpec?.bind ChannelSpec.domain with
  | none =>
      refine iff_of_true rfl ?_
      intro spec d hk hd
      rw [hk] at hs
      exact absurd (hs.symm.trans hd) (by simp)
  | some d =>
      obtain ⟨spec, hk, hd⟩ := Option.bind_eq_some_iff.mp hs
      rw [NodeKind.channelSpec?_eq_some] at hk
      have hany :
          (g.kindOf d).any NodeKind.isDomain ↔ ∃ m, g.node? d = some m ∧ m.kind.isDomain := by
        cases hm : g.node? d with
        | none =>
            simp [kindOf, hm]
        | some m =>
            simp [kindOf, hm]
      constructor
      · intro h spec' d' hk' hd'
        cases hk.symm.trans hk'
        cases hd.symm.trans hd'
        apply hany.mp
        by_contra hno
        simp [hno] at h
      · intro h
        simp [hany.mpr (h spec d hk hd)]

end Nodes

section Whole

variable {g : Graph}

/-- No fault of references is found exactly if every reference leads somewhere. -/
theorem referenceFaults_eq_nil_iff :
    g.referenceFaults = [] ↔ g.ReferencesExist := by
  unfold referenceFaults
  simp only [List.append_eq_nil_iff, List.flatMap_eq_nil_iff, Prod.forall, mem_arcList,
    mem_nodeList, arcFaults_eq_nil_iff, parentFaults_eq_nil_iff, memberFaults_eq_nil_iff,
    anchorFaults_eq_nil_iff]
  constructor
  · rintro ⟨harcs, hnodes⟩
    refine ⟨?_, ?_, ?_, ?_, ?_⟩
    · intro id a ha
      exact (harcs id a ha).1
    · intro id a p ha hp
      exact (harcs id a ha).2 p hp
    · rintro id p ⟨n, hn, hp⟩
      exact (hnodes id n hn).1.1 p hp
    · intro id n c hn hc
      exact (hnodes id n hn).1.2 c hc
    · intro id n spec d hn hk hd
      exact (hnodes id n hn).2 spec d hk hd
  · intro h
    refine ⟨fun id a ha => ⟨h.source ha, fun p hp => h.target ha hp⟩, ?_⟩
    intro id n hn
    refine ⟨⟨fun p hp => h.parent ⟨n, hn, hp⟩, fun c hc => h.member hn hc⟩, ?_⟩
    intro spec d hk hd
    exact h.anchor hn hk hd

end Whole

end Graph
end Dataflow
