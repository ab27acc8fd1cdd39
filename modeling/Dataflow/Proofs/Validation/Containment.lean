import Dataflow.Proofs.Validation.WellFormed
import Dataflow.Validation.Containment
import Mathlib.Data.List.Perm.Subperm

/-!
# Faults of containment

Once all references exist, no fault of containment is found exactly in the graphs whose containment
is a forest on which nodes and containers agree (`containmentFaults_eq_nil_iff`).

**Climbing.**  The search for cycles follows parents for as many steps as there are nodes.  A climb
that does not come back has not met its start (`not_reaches_of_climbsTo`).  In a forest it has to
end in time, because all nodes that it meets are different (`climbsTo_eq_false`).
-/

namespace Dataflow
namespace Graph

section Climbing

variable {g : Graph}

theorem parent_iff {id p : NodeId} :
    g.Parent id p ↔ (g.node? id).bind Node.parent = some p := by
  rw [Option.bind_eq_some_iff]
  rfl

/-- A climb that does not come to `self` proves that `self` is not above its start. -/
theorem not_reaches_of_climbsTo {self : NodeId} :
    ∀ (steps : Nat) {p : NodeId},
      g.climbsTo self steps (some p) = false →
      ¬ Relation.ReflTransGen g.Parent p self
  | 0, _, h => by
      -- out of steps, a climb counts as one that came back
      simp [climbsTo] at h
  | steps + 1, p, h => by
      simp only [climbsTo, Bool.or_eq_false_iff, decide_eq_false_iff_not] at h
      obtain ⟨hne, hrest⟩ := h
      intro hreach
      rcases Relation.ReflTransGen.cases_head hreach with he | ⟨q, hq, hup⟩
      · exact hne he
      · rw [parent_iff.mp hq] at hrest
        exact not_reaches_of_climbsTo steps hrest hup

/-- Different nodes of a graph are no more than it has. -/
theorem length_le_size {l : List NodeId}
    (hnodup : l.Nodup)
    (hmem : ∀ id ∈ l, id ∈ g.nodes) :
    l.length ≤ g.nodes.size := by
  have hsub : l ⊆ g.nodes.keys := by
    intro id hid
    rw [Std.ExtTreeMap.mem_keys]
    exact hmem id hid
  have hle := (List.subperm_of_subset hnodup hsub).length_le
  rw [Std.ExtTreeMap.length_keys] at hle
  exact hle

/-- In a forest a climb ends before its steps are used up.  The nodes met so far are `visited`; all
of them lie below the one that comes next. -/
theorem climbsTo_eq_false {self : NodeId}
    (hrefs : ∀ {id p}, g.Parent id p → p ∈ g.nodes)
    (hacyclic : ∀ id, ¬ Relation.TransGen g.Parent id id) :
    ∀ (steps : Nat) (visited : List NodeId) (cur : Option NodeId),
      visited.Nodup →
      (∀ v ∈ visited, v ∈ g.nodes) →
      self ∈ visited →
      (∀ p, cur = some p → p ∈ g.nodes ∧ ∀ v ∈ visited, Relation.TransGen g.Parent v p) →
      g.nodes.size < visited.length + steps →
      g.climbsTo self steps cur = false
  | steps, visited, none, _, _, _, _, _ => by
      cases steps <;> rfl
  | 0, visited, some p, hnodup, hmem, _, _, hsize => by
      -- more nodes would have been met than there are
      have := length_le_size hnodup hmem
      omega
  | steps + 1, visited, some p, hnodup, hmem, hself, hcur, hsize => by
      obtain ⟨hp, hbelow⟩ := hcur p rfl
      have hfresh : p ∉ visited := fun hin => hacyclic p (hbelow p hin)
      have hne : p ≠ self := fun he => hfresh (he ▸ hself)
      have hnodup' : (p :: visited).Nodup := List.nodup_cons.mpr ⟨hfresh, hnodup⟩
      have hmem' : ∀ v ∈ p :: visited, v ∈ g.nodes := by
        intro v hv
        rcases List.mem_cons.mp hv with rfl | hv
        · exact hp
        · exact hmem v hv
      have hcur' : ∀ q, (g.node? p).bind Node.parent = some q →
          q ∈ g.nodes ∧ ∀ v ∈ p :: visited, Relation.TransGen g.Parent v q := by
        intro q hq
        have hpq : g.Parent p q := parent_iff.mpr hq
        refine ⟨hrefs hpq, ?_⟩
        intro v hv
        rcases List.mem_cons.mp hv with rfl | hv
        · exact .single hpq
        · exact (hbelow v hv).tail hpq
      have hrest := climbsTo_eq_false hrefs hacyclic steps (p :: visited) _ hnodup' hmem'
        (List.mem_cons_of_mem p hself) hcur' (by simp only [List.length_cons]; omega)
      simp [climbsTo, hne, hrest]

/-- No climb of a graph comes back exactly if its parents form no cycle. -/
theorem cycleFaults_eq_nil_iff
    (hrefs : ∀ {id p}, g.Parent id p → p ∈ g.nodes) :
    (∀ id n, g.node? id = some n → g.cycleFaults id n = []) ↔
      ∀ id, ¬ Relation.TransGen g.Parent id id := by
  constructor
  · intro h id hcycle
    obtain ⟨p, ⟨n, hn, hp⟩, hup⟩ := Relation.TransGen.head'_iff.mp hcycle
    have hnil := h id n hn
    have hclimb : g.climbsTo id g.nodes.size (some p) = false := by
      by_contra hclimb
      simp [cycleFaults, hp, hclimb] at hnil
    exact not_reaches_of_climbsTo _ hclimb hup
  · intro hacyclic id n hn
    have hclimb : g.climbsTo id g.nodes.size n.parent = false := by
      apply climbsTo_eq_false hrefs hacyclic g.nodes.size [id] n.parent
      · simp
      · simpa using mem_nodes_iff.mpr ⟨n, hn⟩
      · simp
      · intro p hp
        have hparent : g.Parent id p := ⟨n, hn, hp⟩
        refine ⟨hrefs hparent, ?_⟩
        simpa using Relation.TransGen.single hparent
      · simp
    simp [cycleFaults, hclimb]

end Climbing

section Agreement

variable {g : Graph}

theorem membershipFaults_eq_nil_iff {id p : NodeId} {n m : Node} :
    g.membershipFaults id n p m = [] ↔ m.kind.Lists id n := by
  unfold membershipFaults NodeKind.Lists
  cases m.kind <;> by_cases hrate : n.kind.isRateChange <;>
    simp [hrate, NodeKind.children, NodeKind.boundaries, and_comm]

theorem upwardFaults_eq_nil_iff {id : NodeId} {n : Node}
    (hparent : ∀ p, n.parent = some p → ∃ m, g.node? p = some m) :
    g.upwardFaults id n = [] ↔
      (∀ p m, n.parent = some p → g.node? p = some m → m.kind.Lists id n) ∧
        (n.kind.isRateChange → ∃ p, n.parent = some p) := by
  unfold upwardFaults
  cases hp : n.parent with
  | none =>
      by_cases hrate : n.kind.isRateChange
      · simp [hrate]
      · simp [hrate]
  | some p =>
      obtain ⟨m, hm⟩ := hparent p hp
      simp only [Option.bind_some, hm, Option.map_some, membershipFaults_eq_nil_iff]
      constructor
      · intro h
        refine ⟨?_, fun _ => ⟨p, rfl⟩⟩
        rintro p' m' ⟨⟩ hm'
        cases hm.symm.trans hm'
        exact h
      · rintro ⟨h, -⟩
        exact h p m rfl hm

theorem downwardFaults_eq_nil_iff {id : NodeId} {n : Node} :
    g.downwardFaults id n = [] ↔ ∀ c ∈ n.kind.members, g.Parent c id := by
  unfold downwardFaults
  rw [List.filterMap_eq_nil_iff]
  refine forall₂_congr fun c _ => ?_
  rw [parent_iff]
  by_cases hback : (g.node? c).bind Node.parent = some id
  · simp [hback]
  · simp [hback]

end Agreement

section Whole

variable {g : Graph}

/-- No fault of containment is found exactly if containment is a forest on which both sides
agree. -/
theorem containmentFaults_eq_nil_iff
    (hrefs : ∀ {id p}, g.Parent id p → ∃ m, g.node? p = some m) :
    g.containmentFaults = [] ↔ g.ContainmentAgrees := by
  have hmem : ∀ {id p}, g.Parent id p → p ∈ g.nodes :=
    fun hp => mem_nodes_iff.mpr (hrefs hp)
  unfold containmentFaults
  simp only [List.flatMap_eq_nil_iff, List.append_eq_nil_iff, Prod.forall, mem_nodeList]
  constructor
  · intro h
    refine ⟨?_, ?_, ?_, ?_⟩
    · exact (cycleFaults_eq_nil_iff hmem).mp fun id n hn => (h id n hn).1.1
    · intro id n c hn hc
      exact downwardFaults_eq_nil_iff.mp (h id n hn).2 c hc
    · intro id n p m hn hp hm
      have hup := (upwardFaults_eq_nil_iff fun p hp => hrefs ⟨n, hn, hp⟩).mp (h id n hn).1.2
      exact hup.1 p m hp hm
    · intro id n hn hrate
      have hup := (upwardFaults_eq_nil_iff fun p hp => hrefs ⟨n, hn, hp⟩).mp (h id n hn).1.2
      exact hup.2 hrate
  · intro h id n hn
    refine ⟨⟨(cycleFaults_eq_nil_iff hmem).mpr h.acyclic id n hn, ?_⟩, ?_⟩
    · refine (upwardFaults_eq_nil_iff fun p hp => hrefs ⟨n, hn, hp⟩).mpr ⟨?_, ?_⟩
      · intro p m hp hm
        exact h.listed hn hp hm
      · exact h.rateChange hn
    · exact downwardFaults_eq_nil_iff.mpr fun c hc => h.back hn hc

end Whole

end Graph
end Dataflow
