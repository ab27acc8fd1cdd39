import Dataflow.Graph.Basic
import Mathlib.Data.List.Nodup

/-!
# Tables and their lists

A graph is looked into by number (`node?`, `arc?`) and walked through in the order of numbers
(`nodeList`, `arcList`).  Here the two views are joined.

**Results.**
* `mem_nodeList`, `mem_arcList`: a list holds exactly what can be looked up.
* `arcList_perm`: a list of arcs without a number twice that holds exactly what can be looked up is
  the list of the table, up to order.
* `forall_ne_iff_pairwise`: what holds between any two entries of a table, in any order.
-/

namespace Dataflow

section Ends

namespace Arc

variable {a : Arc}

theorem dstPort_eq_some {p : PortRef} : a.dstPort = some p ↔ a.dst = .port p := by
  unfold dstPort
  cases a.dst <;> simp

theorem dstNode_eq_some {id : NodeId} :
    a.dstNode = some id ↔ ∃ p, a.dst = .port p ∧ p.node = id := by
  unfold dstNode
  simp [dstPort_eq_some]

end Arc

end Ends

section Entries

variable {κ α : Type} [Ord κ] [Std.TransOrd κ] {t : Std.ExtTreeMap κ α}

theorem mem_iff_exists_getElem? {id : κ} : id ∈ t ↔ ∃ x, t[id]? = some x := by
  rw [Std.ExtTreeMap.mem_iff_isSome_getElem?, Option.isSome_iff_exists]

theorem toList_distinct : t.toList.Pairwise fun x y => x.1 ≠ y.1 := by
  refine Std.ExtTreeMap.distinct_keys_toList.imp ?_
  intro x y hxy he
  exact hxy (by rw [he]; exact Std.ReflCmp.compare_self)

/-- The number that is next is not in use. -/
theorem getElem?_eq_none_of_next {number : κ → UInt32} {next : UInt32} {id : κ}
    (h : ∀ i ∈ t, number i < next) (hid : number id = next) : t[id]? = none := by
  refine Std.ExtTreeMap.getElem?_eq_none ?_
  intro hmem
  exact UInt32.lt_irrefl next (hid ▸ h id hmem)

variable [Std.LawfulEqOrd κ] [DecidableEq κ]

theorem getElem?_insert_eq (id i : κ) (x : α) :
    (t.insert id x)[i]? = if i = id then some x else t[i]? := by
  simp only [Std.ExtTreeMap.getElem?_insert, Std.compare_eq_iff_eq, eq_comm (a := id)]

theorem getElem?_modify_eq (id i : κ) (f : α → α) :
    (t.modify id f)[i]? = if i = id then t[i]?.map f else t[i]? := by
  simp only [Std.ExtTreeMap.getElem?_modify, Std.compare_eq_iff_eq]
  by_cases hi : i = id
  · subst hi
    simp
  · simp [hi, Ne.symm hi]

end Entries

namespace Graph

section Lookups

variable {g : Graph}

@[simp] theorem mem_nodeList {id : NodeId} {n : Node} :
    (id, n) ∈ g.nodeList ↔ g.node? id = some n :=
  Std.ExtTreeMap.mem_toList_iff_getElem?_eq_some

@[simp] theorem mem_arcList {id : ArcId} {a : Arc} :
    (id, a) ∈ g.arcList ↔ g.arc? id = some a :=
  Std.ExtTreeMap.mem_toList_iff_getElem?_eq_some

theorem mem_nodes_iff {id : NodeId} : id ∈ g.nodes ↔ ∃ n, g.node? id = some n :=
  mem_iff_exists_getElem?

theorem mem_arcs_iff {id : ArcId} : id ∈ g.arcs ↔ ∃ a, g.arc? id = some a :=
  mem_iff_exists_getElem?

/-- No number stands twice in the list of nodes. -/
theorem nodeList_distinct (g : Graph) : g.nodeList.Pairwise fun x y => x.1 ≠ y.1 :=
  toList_distinct

/-- Nodes are listed in the order of their numbers. -/
theorem nodeList_ordered (g : Graph) :
    g.nodeList.Pairwise fun x y => x.1.val < y.1.val := by
  refine Std.ExtTreeMap.ordered_keys_toList.imp ?_
  intro x y hxy
  exact Std.compare_eq_lt.mp hxy

/-- No number stands twice in the list of arcs. -/
theorem arcList_distinct (g : Graph) : g.arcList.Pairwise fun x y => x.1 ≠ y.1 :=
  toList_distinct

/-- Arcs are listed in the order of their numbers. -/
theorem arcList_ordered (g : Graph) :
    g.arcList.Pairwise fun x y => x.1.val < y.1.val := by
  refine Std.ExtTreeMap.ordered_keys_toList.imp ?_
  intro x y hxy
  exact Std.compare_eq_lt.mp hxy

end Lookups

section Lists

variable {ι α : Type}

/-- A list without a key twice has no entry twice. -/
theorem nodup_of_distinct {l : List (ι × α)}
    (h : l.Pairwise fun x y => x.1 ≠ y.1) :
    l.Nodup := by
  refine h.imp ?_
  intro x y hxy he
  exact hxy (by rw [he])

/-- Two lists in the order of their keys that have the same entries are equal. -/
theorem eq_of_ordered (key : α → UInt32) {l m : List α}
    (hl : l.Pairwise fun x y => key x < key y) (hm : m.Pairwise fun x y => key x < key y)
    (hmem : ∀ x, x ∈ l ↔ x ∈ m) : l = m := by
  have hnodup : ∀ {l : List α}, (l.Pairwise fun x y => key x < key y) → l.Nodup := by
    intro l h
    refine h.imp ?_
    rintro x _ hlt rfl
    exact UInt32.lt_irrefl _ hlt
  refine List.Perm.eq_of_pairwise ?_ hl hm
    ((List.perm_ext_iff_of_nodup (hnodup hl) (hnodup hm)).mpr hmem)
  intro x y _ _ hxy hyx
  exact absurd hyx (UInt32.lt_asymm hxy)

/-- For a relation that does not look at the order, all entries with different keys are related
exactly if they are related along the list. -/
theorem forall_ne_iff_pairwise {l : List (ι × α)} {R : ι × α → ι × α → Prop}
    (hl : l.Pairwise fun x y => x.1 ≠ y.1)
    (hR : ∀ x y, R x y → R y x) :
    (∀ x ∈ l, ∀ y ∈ l, x.1 ≠ y.1 → R x y) ↔ l.Pairwise R := by
  induction l with
  | nil =>
      simp
  | cons z l ih =>
      rw [List.pairwise_cons] at hl
      rw [List.pairwise_cons, ← ih hl.2]
      constructor
      · intro h
        refine ⟨fun y hy => ?_, fun x hx y hy => ?_⟩
        · exact h z List.mem_cons_self y (List.mem_cons_of_mem z hy) (hl.1 y hy)
        · exact h x (List.mem_cons_of_mem z hx) y (List.mem_cons_of_mem z hy)
      · rintro ⟨hz, hl'⟩ x hx y hy hne
        rcases List.mem_cons.mp hx with hxz | hxl
        · rcases List.mem_cons.mp hy with hyz | hyl
          · exact absurd (by rw [hxz, hyz]) hne
          · exact hxz ▸ hz y hyl
        · rcases List.mem_cons.mp hy with hyz | hyl
          · exact hyz ▸ hR _ _ (hz x hxl)
          · exact hl' x hxl y hyl hne

end Lists

section Orders

variable {g : Graph}

/-- The arc `id` is the only one that ends at `c`. -/
structure Writer (g : Graph) (c : NodeId) (id : ArcId) (a : Arc) : Prop where
  arc_eq : g.arc? id = some a
  ends : a.dstNode = some c
  only : ∀ {i b}, g.arc? i = some b → b.dstNode = some c → i = id

theorem incoming_eq_singleton_iff {c : NodeId} {id : ArcId} {a : Arc} :
    g.incoming c = [(id, a)] ↔ g.Writer c id a := by
  have hmem : ∀ {i b}, (i, b) ∈ g.incoming c ↔ g.arc? i = some b ∧ b.dstNode = some c := by
    intro i b
    simp [incoming]
  constructor
  · intro h
    have hself : (id, a) ∈ g.incoming c := by simp [h]
    refine ⟨(hmem.mp hself).1, (hmem.mp hself).2, ?_⟩
    intro i b hb hc
    have hin : (i, b) ∈ g.incoming c := hmem.mpr ⟨hb, hc⟩
    simp only [h, List.mem_singleton, Prod.mk.injEq] at hin
    exact hin.1
  · rintro ⟨ha, hc, honly⟩
    have hnodup : (g.incoming c).Nodup := (nodup_of_distinct g.arcList_distinct).filter _
    have hperm : (g.incoming c).Perm [(id, a)] := by
      rw [List.perm_ext_iff_of_nodup hnodup (List.nodup_singleton _)]
      rintro ⟨i, b⟩
      rw [hmem, List.mem_singleton, Prod.mk.injEq]
      constructor
      · rintro ⟨hb, hbc⟩
        have hi := honly hb hbc
        subst hi
        exact ⟨rfl, Option.some.inj (hb.symm.trans ha)⟩
      · rintro ⟨rfl, rfl⟩
        exact ⟨ha, hc⟩
    exact List.perm_singleton.mp hperm

/-- The arcs of a graph, up to order. -/
theorem arcList_perm {l : List (ArcId × Arc)}
    (hl : l.Pairwise fun x y => x.1 ≠ y.1)
    (hmem : ∀ id a, (id, a) ∈ l ↔ g.arc? id = some a) :
    g.arcList.Perm l := by
  rw [List.perm_ext_iff_of_nodup
    (nodup_of_distinct g.arcList_distinct) (nodup_of_distinct hl)]
  rintro ⟨id, a⟩
  rw [mem_arcList, hmem]

/-- The arcs with another number than `id`. -/
def otherArcs (g : Graph) (id : ArcId) : List (ArcId × Arc) := g.arcList.filter fun a => a.1 ≠ id

@[simp] theorem mem_otherArcs {id i : ArcId} {a : Arc} :
    (i, a) ∈ g.otherArcs id ↔ g.arc? i = some a ∧ i ≠ id := by
  simp [otherArcs]

/-- The arcs of a graph that has some fresh ones in place of the arc `id`, up to order. -/
theorem arcList_perm_append {g' : Graph} {id : ArcId} {l : List (ArcId × Arc)}
    (hl : l.Pairwise fun x y => x.1 ≠ y.1)
    (hnew : ∀ x ∈ l, x.1 = id ∨ g.arc? x.1 = none)
    (hmem : ∀ i a, g'.arc? i = some a ↔ (i, a) ∈ l ∨ g.arc? i = some a ∧ i ≠ id) :
    g'.arcList.Perm (l ++ g.otherArcs id) := by
  refine arcList_perm ?_ ?_
  · rw [List.pairwise_append]
    refine ⟨hl, g.arcList_distinct.filter _, ?_⟩
    rintro ⟨i, a⟩ hi ⟨j, b⟩ hj hij
    rw [mem_otherArcs] at hj
    rcases hnew _ hi with hid | hnone
    · exact hj.2 (hij.symm.trans hid)
    · rw [hij, hj.1] at hnone
      cases hnone
  · intro i a
    rw [List.mem_append, mem_otherArcs, hmem]

end Orders

end Graph
end Dataflow
