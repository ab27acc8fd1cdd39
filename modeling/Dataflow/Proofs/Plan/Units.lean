import Dataflow.Plan.Synthesis
import Dataflow.Proofs.Graph.Table
import Dataflow.Proofs.Grouping

/-!
# Units

The units of a plan share out the nodes that compute and the duties towards channels.

**Results.**
* `schedule_perm`: a schedule runs every node once.
* `nodes_units_perm`: together the units run every node that computes, once.
* `channelsOf_units_perm`: together the units have every duty once.
-/

namespace Dataflow

section Schedules

theorem orderFrom_subset :
    ∀ {steps : Nat} {nodes : List NodeId} {edges : List Edge},
      ∀ n ∈ orderFrom steps nodes edges, n ∈ nodes
  | 0, _, _, n, h => by
      cases h
  | steps + 1, nodes, edges, n, h => by
      unfold orderFrom at h
      split at h
      · cases h
      · rename_i m hm
        rcases List.mem_cons.mp h with rfl | h
        · exact List.mem_of_find?_eq_some hm
        · exact List.mem_of_mem_erase (orderFrom_subset n h)

theorem nodup_orderFrom :
    ∀ {steps : Nat} {nodes : List NodeId} {edges : List Edge},
      nodes.Nodup → (orderFrom steps nodes edges).Nodup
  | 0, _, _, _ => List.nodup_nil
  | steps + 1, nodes, edges, h => by
      unfold orderFrom
      split
      · exact List.nodup_nil
      · rename_i m hm
        refine List.nodup_cons.mpr ⟨?_, nodup_orderFrom (h.erase m)⟩
        intro hin
        exact h.not_mem_erase (orderFrom_subset m hin)

/-- A schedule runs every node once. -/
theorem schedule_perm {nodes : List NodeId} (h : nodes.Nodup) (edges : List Edge) :
    (schedule nodes edges).order.Perm nodes := by
  have hplaced : (orderFrom nodes.length nodes edges).Perm
      (nodes.filter fun n => (orderFrom nodes.length nodes edges).contains n) := by
    rw [List.perm_ext_iff_of_nodup (nodup_orderFrom h) (h.filter _)]
    intro n
    rw [List.mem_filter, List.contains_iff_mem]
    exact ⟨fun hn => ⟨orderFrom_subset n hn, hn⟩, And.right⟩
  exact (hplaced.append_right _).trans (List.filter_append_perm _ nodes)

end Schedules

section Labels

theorem nodup_unitLabels (g : Graph) (as : List Assignment) : (g.unitLabels as).Nodup := by
  refine nodup_sortedLabels ?_ ?_ ?_ _
  · intro a b c hab hbc
    simp only [decide_eq_true_eq] at *
    exact UInt32.le_trans hab hbc
  · intro a b
    simp only [Bool.or_eq_true, decide_eq_true_eq]
    exact UInt32.le_total a.val b.val
  · rintro ⟨a⟩ ⟨b⟩ hab hba
    simp only [decide_eq_true_eq] at *
    rw [UInt32.le_antisymm hab hba]

theorem mem_unitLabels {g : Graph} {as : List Assignment} {p : PartitionId} :
    p ∈ g.unitLabels as ↔
      (∃ id n, g.node? id = some n ∧ n.isInternal = true ∧ n.partition = some p) ∨
        ∃ a ∈ as, a.partition = p := by
  unfold Graph.unitLabels
  rw [mem_sortedLabels, List.mem_append]
  simp [List.mem_filterMap]

end Labels

section Units

variable {g : Graph} {as : List Assignment}

/-- The plan of a unit is the same whether its nodes have a cycle or not. -/
theorem unitPlan_fst (p : PartitionId) :
    (g.unitPlan as p).1 =
      { partition := p
        inputs := channelsOf as p .read
        outputs := channelsOf as p .write
        locals := channelsOf as p .loop
        nodes := (schedule (g.internalNodes p)
          ((g.arcsAmong (g.internalNodes p)).map Prod.snd)).order
        arcs := (g.arcsAmong (g.internalNodes p)).map Prod.fst } := by
  unfold Graph.unitPlan
  dsimp only
  split <;> rfl

/-- The nodes that compute. -/
def Graph.internal (g : Graph) : List (NodeId × Node) := g.nodeList.filter fun n => n.2.isInternal

theorem nodup_internal (g : Graph) : (g.internal.map Prod.fst).Nodup :=
  List.pairwise_map.mpr (g.nodeList_distinct.filter _)

theorem Graph.mem_internalNodes {id : NodeId} {p : PartitionId} :
    id ∈ g.internalNodes p ↔ ∃ n, g.node? id = some n ∧ n.isInternal = true ∧
      n.partition = some p := by
  simp [Graph.internalNodes, and_assoc]

theorem internalNodes_eq (p : PartitionId) :
    g.internalNodes p = (g.internal.filter fun n => n.2.partition = some p).map Prod.fst := by
  unfold Graph.internalNodes Graph.internal
  rw [List.filter_filter, ← List.filterMap_eq_map, List.filterMap_filter]
  refine List.filterMap_congr ?_
  intro n _
  simp [and_comm]

theorem nodup_internalNodes (p : PartitionId) : (g.internalNodes p).Nodup := by
  rw [internalNodes_eq]
  exact (nodup_internal g).sublist (List.filter_sublist.map _)

/-- Together the units run every node that computes, once. -/
theorem nodes_units_perm (hg : ∀ n ∈ g.internal, ∃ p, n.2.partition = some p) :
    ((g.unitLabels as).flatMap fun p => (g.unitPlan as p).1.nodes).Perm
      (g.internal.map Prod.fst) := by
  have hunit : ∀ p ∈ g.unitLabels as, (g.unitPlan as p).1.nodes.Perm
      ((g.internal.filter fun n => n.2.partition = some p).map Prod.fst) := by
    intro p _
    rw [unitPlan_fst, ← internalNodes_eq]
    exact schedule_perm (nodup_internalNodes p) _
  have hlabels : ((g.unitLabels as).map some).Nodup :=
    (nodup_unitLabels g as).map fun _ _ => Option.some.inj
  have hcover : ∀ n ∈ g.internal, n.2.partition ∈ (g.unitLabels as).map some := by
    rintro ⟨id, n⟩ hn
    obtain ⟨p, hp⟩ := hg _ hn
    obtain ⟨hlist, hint⟩ := List.mem_filter.mp hn
    rw [hp]
    exact List.mem_map_of_mem
      (mem_unitLabels.mpr (.inl ⟨id, n, Graph.mem_nodeList.mp hlist, hint, hp⟩))
  have hgroups := flatMap_filter_perm (fun n : NodeId × Node => n.2.partition) hlabels hcover
  refine (List.Perm.flatMap_left _ hunit).trans ?_
  rw [← List.map_flatMap]
  rw [List.flatMap_map] at hgroups
  exact hgroups.map _

/-- The channels of a unit, in the order in which they were given to it. -/
theorem channelsOf_perm (as : List Assignment) (p : PartitionId) (d : Duty) :
    (channelsOf as p d).Perm
      (((as.filter fun a => a.duty = d).filter fun a => a.partition = p).map
        Assignment.channel) := by
  refine (List.mergeSort_perm _ _).trans (List.Perm.of_eq ?_)
  rw [List.filter_filter, ← List.filterMap_eq_map, List.filterMap_filter]
  refine List.filterMap_congr ?_
  intro a _
  simp

/-- Together the units have every duty of a sort once. -/
theorem channelsOf_units_perm (g : Graph) (as : List Assignment) (d : Duty) :
    ((g.unitLabels as).flatMap fun p => channelsOf as p d).Perm
      ((as.filter fun a => a.duty = d).map Assignment.channel) := by
  have hcover : ∀ a ∈ as.filter fun a => a.duty = d, a.partition ∈ g.unitLabels as := by
    intro a ha
    exact mem_unitLabels.mpr (.inr ⟨a, List.mem_of_mem_filter ha, rfl⟩)
  refine (List.Perm.flatMap_left _ fun p _ => channelsOf_perm as p d).trans ?_
  rw [← List.map_flatMap]
  exact (flatMap_filter_perm Assignment.partition (nodup_unitLabels g as) hcover).map _

end Units

section Outside

/-- The unit for the outside, taken out and put last. -/
theorem filter_append_find?_perm :
    ∀ {us : List UnitPlan}, (us.map UnitPlan.partition).Nodup →
      (us.filter (fun u => !u.partition.isIo) ++
        (us.find? fun u => u.partition.isIo).toList).Perm us
  | [], _ => List.Perm.refl _
  | u :: us, h => by
      obtain ⟨hu, hus⟩ := List.nodup_cons.mp h
      by_cases hio : u.partition.isIo = true
      · have hnone : us.filter (fun u => !u.partition.isIo) = us := by
          rw [List.filter_eq_self]
          intro w hw
          rw [Bool.not_eq_true', Bool.eq_false_iff]
          intro hwio
          have hsame : w.partition = u.partition := by
            rw [of_decide_eq_true hwio, of_decide_eq_true hio]
          exact hu (hsame ▸ List.mem_map_of_mem hw)
        rw [List.find?_cons_of_pos (p := fun u : UnitPlan => u.partition.isIo) hio,
          List.filter_cons_of_neg (by simp [hio]), hnone]
        exact List.perm_append_singleton u us
      · rw [List.find?_cons_of_neg (p := fun u : UnitPlan => u.partition.isIo) hio,
          List.filter_cons_of_pos (by simp [hio])]
        exact (filter_append_find?_perm hus).cons u

end Outside

end Dataflow
