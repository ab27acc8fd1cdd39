import Dataflow.Proofs.Grouping
import Dataflow.Proofs.Validation.WellFormed
import Dataflow.Validation.Leaves

/-!
# Faults of ports, channels, partitions and bundles

One characterisation for each of the remaining rules of structure.

**Fan-in.**  The rule counts arcs for each port at which one ends; it is silent exactly if no two
arcs end at one port (`fanInFaults_eq_nil_iff`).

**Bundles.**  Members are judged in order, each against those before it, and its direction only
against the first of its bundle.  That this is enough is shown along the list
(`bundleFaultsFrom_eq_nil_iff`).
-/

namespace Dataflow

namespace Graph

section FanIn

variable {g : Graph}

/-- No port is named twice at the ends of arcs. -/
theorem fanInFaults_eq_nil_iff_nodup :
    g.fanInFaults = [] ↔ g.targets.Nodup := by
  unfold fanInFaults
  rw [List.filterMap_eq_nil_iff, List.nodup_iff_count_le_one]
  constructor
  · intro h p
    by_cases hp : p ∈ g.targets
    · have hfault := h p (mem_eraseReps.mpr (List.mem_mergeSort.mpr hp))
      by_contra hcount
      simp [hcount] at hfault
    · rw [List.count_eq_zero_of_not_mem hp]
      omega
  · intro h p _
    simp [h p]

theorem targets_nodup_iff :
    g.targets.Nodup ↔
      ∀ id id' a a' p, g.arc? id = some a → g.arc? id' = some a' →
        a.dst = .port p → a'.dst = .port p → id = id' := by
  unfold targets List.Nodup
  rw [List.pairwise_filterMap, ← forall_ne_iff_pairwise g.arcList_distinct
    fun x y hxy p hp q hq he => hxy q hq p hp he.symm]
  simp only [Prod.forall, mem_arcList, Arc.dstPort_eq_some]
  constructor
  · intro h id id' a a' p ha ha' hp hp'
    by_contra hne
    exact h id a ha id' a' ha' hne p hp p hp' rfl
  · intro h id a ha id' a' ha' hne p hp q hq he
    exact hne (h id id' a a' p ha ha' hp (he ▸ hq))

theorem fanInFaults_eq_nil_iff :
    g.fanInFaults = [] ↔
      ∀ id id' a a' p, g.arc? id = some a → g.arc? id' = some a' →
        a.dst = .port p → a'.dst = .port p → id = id' := by
  rw [fanInFaults_eq_nil_iff_nodup, targets_nodup_iff]

end FanIn

section Ports

variable {g : Graph}

theorem portRule?_eq_none_iff {n : Node} :
    portRule? n = none ↔ n.PortsSuit := by
  unfold portRule? Node.PortsSuit
  cases hk : n.kind with
  | externalIo ep =>
      obtain ⟨bundle, direction, member⟩ := ep
      cases direction <;> simp
  | rateOutput c =>
      simp [Nat.one_le_iff_ne_zero, List.length_eq_zero_iff]
  | _ =>
      simp

theorem cardinalityFaults_eq_nil_iff :
    g.cardinalityFaults = [] ↔ ∀ id n, g.node? id = some n → n.PortsSuit := by
  unfold cardinalityFaults
  simp only [List.filterMap_eq_nil_iff, Prod.forall, mem_nodeList, Option.map_eq_none_iff,
    portRule?_eq_none_iff]

theorem channelFaults_eq_nil_iff :
    g.channelFaults = [] ↔
      ∀ id n spec, g.node? id = some n → n.kind = .channel spec →
        0 < spec.blockSize ∧ spec.blockSize ≤ spec.capacity := by
  have hsize : ∀ spec : ChannelSpec,
      (¬ (spec.blockSize = 0 ∨ spec.capacity < spec.blockSize)) ↔
        0 < spec.blockSize ∧ spec.blockSize ≤ spec.capacity := by
    intro spec
    rw [not_or, UInt32.not_lt, UInt32.pos_iff_ne_zero]
  unfold channelFaults
  simp only [List.filterMap_eq_nil_iff, Prod.forall, mem_nodeList, Option.bind_eq_none_iff,
    NodeKind.channelSpec?_eq_some, ite_eq_right_iff, reduceCtorEq, imp_false, hsize]
  exact ⟨fun h id n spec hn => h id n hn spec, fun h id n hn spec => h id n spec hn⟩

theorem partitionFaults_eq_nil_iff :
    g.partitionFaults = [] ↔
      (∀ id n, g.node? id = some n → n.isLeaf → ∃ p, n.partition = some p) ∧
        ∀ id n ep, g.node? id = some n → n.kind = .externalIo ep → n.partition = some .io := by
  unfold partitionFaults
  simp only [List.filterMap_eq_nil_iff, Prod.forall, mem_nodeList]
  constructor
  · intro h
    refine ⟨fun id n hn hleaf => ?_, fun id n ep hn hk => ?_⟩
    · have hfault := h id n hn
      cases hp : n.partition with
      | none =>
          simp [hleaf, hp] at hfault
      | some p =>
          exact ⟨p, rfl⟩
    · have hfault := h id n hn
      have hleaf : n.isLeaf = true := by simp [Node.isLeaf, hk, NodeKind.isContainer]
      cases hp : n.partition with
      | none =>
          simp [hleaf, hp] at hfault
      | some p =>
          simpa [hleaf, hp, hk, NodeKind.isExternalIo, PartitionId.isIo] using hfault
  · rintro ⟨hleaf, hio⟩ id n hn
    by_cases hl : n.isLeaf
    · obtain ⟨p, hp⟩ := hleaf id n hn hl
      cases hk : n.kind with
      | externalIo ep =>
          have hp' := hio id n ep hn hk
          simp [hl, hp', NodeKind.isExternalIo, PartitionId.isIo]
      | _ =>
          simp [hl, hp, NodeKind.isExternalIo]
    · simp [hl]

end Ports

section Bundles

variable {g : Graph}

/-- Two members of bundles do not clash: within one bundle they have different numbers and go
the same way. -/
def Compatible (x y : NodeId × IoEndpoint) : Prop :=
  x.2.bundle = y.2.bundle → x.2.member ≠ y.2.member ∧ x.2.direction = y.2.direction

theorem duplicateMember_eq_nil_iff {earlier : List (NodeId × IoEndpoint)} {id : NodeId}
    {ep : IoEndpoint} :
    g.duplicateMember earlier id ep = [] ↔
      ∀ e ∈ earlier, e.2.bundle = ep.bundle → e.2.member ≠ ep.member := by
  unfold duplicateMember
  cases hfind : earlier.find? fun e => e.2.bundle = ep.bundle && e.2.member = ep.member with
  | none =>
      simpa using hfind
  | some e =>
      have hprop := List.find?_some hfind
      simp only [Bool.and_eq_true, decide_eq_true_eq] at hprop
      refine iff_of_false (by simp) ?_
      intro h
      exact h e (List.mem_of_find?_eq_some hfind) hprop.1 hprop.2

/-- The first member of a bundle stands for all of them, once all earlier members of a bundle go the
same way. -/
theorem mixedDirection_eq_nil_iff {earlier : List (NodeId × IoEndpoint)} {id : NodeId}
    {ep : IoEndpoint}
    (hagree : ∀ e ∈ earlier, ∀ e' ∈ earlier, e.2.bundle = e'.2.bundle →
      e.2.direction = e'.2.direction) :
    g.mixedDirection earlier id ep = [] ↔
      ∀ e ∈ earlier, e.2.bundle = ep.bundle → e.2.direction = ep.direction := by
  unfold mixedDirection
  cases hfind : earlier.reverse.find? fun e => e.2.bundle = ep.bundle with
  | none =>
      simp only [List.find?_eq_none, List.mem_reverse, decide_eq_true_eq] at hfind
      exact iff_of_true rfl fun e he hb => absurd hb (hfind e he)
  | some first =>
      have hmem := List.mem_reverse.mp (List.mem_of_find?_eq_some hfind)
      have hbundle : first.2.bundle = ep.bundle := by
        simpa using List.find?_some hfind
      by_cases hdir : first.2.direction = ep.direction
      · refine iff_of_true (by simp [hdir]) ?_
        intro e he hb
        rw [← hdir]
        exact hagree e he first hmem (hb.trans hbundle.symm)
      · refine iff_of_false (by simp [hdir]) ?_
        intro h
        exact hdir (h first hmem hbundle)

/-- Going through the members finds no fault exactly if no two of them clash, neither among
themselves nor with the earlier ones. -/
theorem bundleFaultsFrom_eq_nil_iff :
    ∀ (rest earlier : List (NodeId × IoEndpoint)),
      (∀ e ∈ earlier, ∀ e' ∈ earlier, e.2.bundle = e'.2.bundle →
        e.2.direction = e'.2.direction) →
      (g.bundleFaultsFrom earlier rest = [] ↔
        (∀ e ∈ earlier, ∀ x ∈ rest, Compatible e x) ∧ rest.Pairwise Compatible)
  | [], earlier, _ => by
      simp [bundleFaultsFrom]
  | (id, ep) :: rest, earlier, hagree => by
      simp only [bundleFaultsFrom, List.append_eq_nil_iff, duplicateMember_eq_nil_iff,
        mixedDirection_eq_nil_iff hagree]
      have hhead :
          ((∀ e ∈ earlier, e.2.bundle = ep.bundle → e.2.member ≠ ep.member) ∧
            ∀ e ∈ earlier, e.2.bundle = ep.bundle → e.2.direction = ep.direction) ↔
          ∀ e ∈ earlier, Compatible e (id, ep) :=
        ⟨fun h e he hb => ⟨h.1 e he hb, h.2 e he hb⟩,
          fun h => ⟨fun e he hb => (h e he hb).1, fun e he hb => (h e he hb).2⟩⟩
      rw [hhead]
      by_cases hclash : ∀ e ∈ earlier, Compatible e (id, ep)
      · -- The new member joins the earlier ones, which then still agree on directions.
        have hagree' : ∀ e ∈ (id, ep) :: earlier, ∀ e' ∈ (id, ep) :: earlier,
            e.2.bundle = e'.2.bundle → e.2.direction = e'.2.direction := by
          intro e he e' he' hb
          rcases List.mem_cons.mp he with rfl | he
          · rcases List.mem_cons.mp he' with rfl | he'
            · rfl
            · exact (hclash e' he' hb.symm).2.symm
          · rcases List.mem_cons.mp he' with rfl | he'
            · exact (hclash e he hb).2
            · exact hagree e he e' he' hb
        rw [bundleFaultsFrom_eq_nil_iff rest _ hagree', List.pairwise_cons]
        simp only [List.mem_cons, forall_eq_or_imp, Prod.forall] at hclash ⊢
        constructor
        · rintro ⟨-, ⟨hnew, hold⟩, hrest⟩
          exact ⟨fun i e he => ⟨hclash i e he, hold i e he⟩, hnew, hrest⟩
        · rintro ⟨hold, hnew, hrest⟩
          exact ⟨hclash, ⟨hnew, fun i e he => (hold i e he).2⟩, hrest⟩
      · refine iff_of_false (fun h => hclash h.1) ?_
        rintro ⟨h, -⟩
        exact hclash fun e he => h e he (id, ep) List.mem_cons_self

theorem bundleFaults_eq_nil_iff :
    g.bundleFaults = [] ↔
      ∀ id id' n n' ep ep', g.node? id = some n → g.node? id' = some n' →
        n.kind = .externalIo ep → n'.kind = .externalIo ep' → ep.bundle = ep'.bundle →
        (ep.member = ep'.member → id = id') ∧ ep.direction = ep'.direction := by
  unfold bundleFaults endpoints
  rw [bundleFaultsFrom_eq_nil_iff _ [] (by simp), List.pairwise_filterMap,
    ← forall_ne_iff_pairwise g.nodeList_distinct]
  · simp only [List.not_mem_nil, false_implies, implies_true, true_and, Prod.forall, mem_nodeList,
      Option.map_eq_some_iff, NodeKind.endpoint?_eq_some]
    constructor
    · intro h id id' n n' ep ep' hn hn' hk hk' hb
      by_cases he : id = id'
      · subst he
        cases hn.symm.trans hn'
        cases hk.symm.trans hk'
        exact ⟨fun _ => rfl, rfl⟩
      · have hc := h id n hn id' n' hn' he id ep ⟨ep, hk, rfl⟩ id' ep' ⟨ep', hk', rfl⟩ hb
        exact ⟨fun hm => absurd hm hc.1, hc.2⟩
    · rintro h id n hn id' n' hn' hne _ ep ⟨_, hk, ⟨⟩⟩ _ ep' ⟨_, hk', ⟨⟩⟩ hb
      have hc := h id id' n n' ep ep' hn hn' hk hk' hb
      exact ⟨fun hm => hne (hc.1 hm), hc.2⟩
  · intro x y hxy p hp q hq hb
    have hc := hxy q hq p hp hb.symm
    exact ⟨hc.1.symm, hc.2.symm⟩

end Bundles

end Graph
end Dataflow
