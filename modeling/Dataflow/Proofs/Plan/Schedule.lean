import Dataflow.Graph.Edit
import Dataflow.Proofs.Plan.Synthesis
import Dataflow.Validation.Rates
import Mathlib.Data.Fintype.Card
import Mathlib.Data.Set.Finite.Basic
import Mathlib.Logic.Relation
import Mathlib.Order.WellFounded

/-!
# The order in which a unit runs its nodes

Scheduling repeats one step: of the nodes to which no remaining edge leads, place the one with the
smallest number and forget the edges that leave it.  What cannot be placed in this way is appended
in the order of the numbers.

**Definitions.**
`OnCycle`, `BehindCycle`: a node lies on a cycle, or on one or behind one.
`Topological`, `LeastTopological`: an order along a relation, and the least such order by numbers.
`Graph.RunsIn`, `Graph.FeedsWithin`: the nodes of a partition, and the arcs between them.
`Graph.cycleWarning`: what is reported for a partition with a cycle.

**Results.**  `Graph.synthesize_schedule`: every unit runs the nodes of its partition in the least
order along their arcs, with the nodes behind cycles at the end, and it warns exactly if there is a
cycle.  `Graph.cycleWarning_onCycle_iff`: the warning names the first node behind a cycle, and when
this node lies on one.
-/

namespace Dataflow

section Defs

/-- A node lies on a cycle. -/
def OnCycle (r : NodeId → NodeId → Prop) (n : NodeId) : Prop := Relation.TransGen r n n

/-- A node lies on a cycle or can be reached from one. -/
def BehindCycle (r : NodeId → NodeId → Prop) (n : NodeId) : Prop :=
  ∃ m, OnCycle r m ∧ Relation.ReflTransGen r m n

/-- An order of nodes in which everything that joins two of them leads forward. -/
structure Topological (r : NodeId → NodeId → Prop) (nodes : NodeId → Prop) (order : List NodeId) :
    Prop where
  nodup : order.Nodup
  mem : ∀ n, n ∈ order ↔ nodes n
  forward : ∀ {a b}, r a b → nodes a → nodes b → [a, b].Sublist order

/-- The least of such orders by the numbers of nodes, compared from the front. -/
structure LeastTopological (r : NodeId → NodeId → Prop) (nodes : NodeId → Prop)
    (order : List NodeId) : Prop extends Topological r nodes order where
  least : ∀ {other}, Topological r nodes other → order.map NodeId.val ≤ other.map NodeId.val

/-- An edge leads from one node to another. -/
def Leads (edges : List Edge) (a b : NodeId) : Prop := (a, b) ∈ edges

/-- Nodes in the order of their numbers, and edges between them. -/
structure Ranked (nodes : List NodeId) (edges : List Edge) : Prop where
  increasing : nodes.Pairwise fun a b => a.val < b.val
  ends : ∀ {a b}, (a, b) ∈ edges → a ∈ nodes ∧ b ∈ nodes

end Defs

section Cycles

variable {r : NodeId → NodeId → Prop} {a b n : NodeId}

theorem OnCycle.behindCycle (h : OnCycle r n) : BehindCycle r n := ⟨n, h, .refl⟩

theorem BehindCycle.step (h : BehindCycle r a) (hab : r a b) : BehindCycle r b := by
  obtain ⟨m, hcycle, hpath⟩ := h
  exact ⟨m, hcycle, hpath.tail hab⟩

/-- Something leads to every node behind a cycle. -/
theorem BehindCycle.exists_lead (h : BehindCycle r n) : ∃ m, r m n := by
  obtain ⟨m, hcycle, hpath⟩ := h
  rcases hpath.cases_tail with rfl | ⟨k, -, hkn⟩
  · obtain ⟨k, -, hkn⟩ := Relation.TransGen.tail'_iff.mp hcycle
    exact ⟨k, hkn⟩
  · exact ⟨k, hkn⟩

/-- Without what leaves a node to which nothing leads, the same nodes are behind cycles. -/
theorem behindCycle_drop (hn : ∀ a, ¬ r a n) {m : NodeId} :
    BehindCycle (fun a b => r a b ∧ a ≠ n) m ↔ BehindCycle r m := by
  constructor
  · rintro ⟨c, hcycle, hpath⟩
    have hle : (fun a b => r a b ∧ a ≠ n) ≤ r := fun _ _ h => h.1
    exact ⟨c, Relation.TransGen.mono hle _ _ hcycle, Relation.ReflTransGen.mono hle _ _ hpath⟩
  · rintro ⟨c, hcycle, hpath⟩
    -- a path that does not begin at the node never comes to it
    have havoid : ∀ {x y}, Relation.ReflTransGen r x y → x ≠ n →
        Relation.ReflTransGen (fun a b => r a b ∧ a ≠ n) x y := by
      intro x y hxy
      induction hxy using Relation.ReflTransGen.head_induction_on with
      | refl => exact fun _ => .refl
      | head hstep _ ih =>
          intro hx
          exact .head ⟨hstep, hx⟩ (ih fun heq => hn _ (heq ▸ hstep))
    obtain ⟨k, -, hkc⟩ := Relation.TransGen.tail'_iff.mp hcycle
    have hc : c ≠ n := fun heq => hn k (heq ▸ hkc)
    obtain ⟨d, hcd, hdc⟩ := Relation.TransGen.head'_iff.mp hcycle
    have hd : d ≠ n := fun heq => hn c (heq ▸ hcd)
    exact ⟨c, .head' ⟨hcd, hc⟩ (havoid hdc hd), havoid hpath hc⟩

/-- Nodes among which something leads to each are all behind cycles: otherwise one of the others
would be minimal. -/
theorem behindCycle_of_forall_lead {nodes : List NodeId}
    (h : ∀ n ∈ nodes, ∃ m ∈ nodes, r m n) : ∀ n ∈ nodes, BehindCycle r n := by
  let Free := { n // n ∈ nodes ∧ ¬ BehindCycle r n }
  have : Finite Free := ((List.finite_toSet nodes).subset fun _ hn => hn.1).to_subtype
  let before : Free → Free → Prop := fun a b => Relation.TransGen r a.1 b.1
  have : IsTrans Free before := ⟨fun _ _ _ hab hbc => hab.trans hbc⟩
  have : Std.Irrefl before := ⟨fun a hcycle => a.2.2 (OnCycle.behindCycle hcycle)⟩
  have hwf : WellFounded before := Finite.wellFounded_of_trans_of_irrefl before
  intro n hn
  by_contra hfree
  obtain ⟨⟨m, hm, hmfree⟩, -, hmin⟩ := hwf.has_min Set.univ ⟨⟨n, hn, hfree⟩, trivial⟩
  obtain ⟨k, hk, hkm⟩ := h m hm
  exact hmin ⟨k, hk, fun hbehind => hmfree (hbehind.step hkm)⟩ trivial (.single hkm)

end Cycles

section Placing

variable {nodes placed other : List NodeId} {edges : List Edge} {n : NodeId}

theorem Ranked.nodup (h : Ranked nodes edges) : nodes.Nodup := by
  refine h.increasing.imp ?_
  rintro a _ hlt rfl
  exact UInt32.lt_irrefl _ hlt

theorem leads_filter :
    Leads (edges.filter fun e => e.1 ≠ n) = fun a b => Leads edges a b ∧ a ≠ n := by
  funext a b
  simp [Leads]

/-- What is left when a node to which no edge leads was placed. -/
theorem Ranked.erase (h : Ranked nodes edges) (hfree : ∀ m, (m, n) ∉ edges) :
    Ranked (nodes.erase n) (edges.filter fun e => e.1 ≠ n) := by
  refine ⟨h.increasing.sublist List.erase_sublist, ?_⟩
  intro a b hab
  obtain ⟨hab, ha⟩ : (a, b) ∈ edges ∧ a ≠ n := by simpa using hab
  have hb : b ≠ n := fun heq => hfree a (heq ▸ hab)
  obtain ⟨hain, hbin⟩ := h.ends hab
  exact ⟨(List.mem_erase_of_ne ha).mpr hain, (List.mem_erase_of_ne hb).mpr hbin⟩

/-- What of nodes and edges was placed. -/
structure Placed (nodes : List NodeId) (edges : List Edge) (placed : List NodeId) : Prop where
  nodup : placed.Nodup
  mem : ∀ n, n ∈ placed ↔ n ∈ nodes ∧ ¬ BehindCycle (Leads edges) n
  forward : ∀ {a b}, (a, b) ∈ edges → b ∈ placed → [a, b].Sublist placed
  least : ∀ {other}, Topological (Leads edges) (· ∈ placed) other →
    placed.map NodeId.val ≤ other.map NodeId.val

/-- Where edges lead to all nodes, none can be placed. -/
theorem placed_nil (h : Ranked nodes edges) (hled : ∀ n ∈ nodes, ∃ m, (m, n) ∈ edges) :
    Placed nodes edges [] := by
  have hbehind := behindCycle_of_forall_lead (r := Leads edges) fun n hn => by
    obtain ⟨m, hm⟩ := hled n hn
    exact ⟨m, (h.ends hm).1, hm⟩
  refine ⟨List.nodup_nil, ?_, ?_, ?_⟩
  · intro n
    simpa using hbehind n
  · intro a b _ hb
    cases hb
  · intro other _
    exact List.nil_le _

/-- The first node of an order along edges is one to which no edge leads that can be placed. -/
theorem Topological.not_leads (h : Topological (Leads edges) (· ∈ placed) (n :: other))
    (hforward : ∀ {a b}, (a, b) ∈ edges → b ∈ placed → [a, b].Sublist placed) :
    ∀ m, (m, n) ∉ edges := by
  intro m hmn
  have hn : n ∈ placed := (h.mem n).mp List.mem_cons_self
  have hm : m ∈ placed := (hforward hmn hn).subset List.mem_cons_self
  have hsub := h.forward hmn hm hn
  obtain ⟨hfirst, -⟩ := List.nodup_cons.mp h.nodup
  rcases List.sublist_cons_iff.mp hsub with hsub | ⟨l, hl, hsub⟩
  · exact hfirst (hsub.subset (by simp))
  · cases hl
    exact hfirst (hsub.subset List.mem_cons_self)

/-- An order that begins with a node is an order of the others along the edges that are left. -/
theorem Topological.tail (h : Topological (Leads edges) (· ∈ n :: placed) (n :: other))
    (hplaced : n ∉ placed) :
    Topological (Leads (edges.filter fun e => e.1 ≠ n)) (· ∈ placed) other := by
  obtain ⟨hn, hother⟩ := List.nodup_cons.mp h.nodup
  refine ⟨hother, ?_, ?_⟩
  · intro m
    have hm := h.mem m
    rw [List.mem_cons, List.mem_cons] at hm
    by_cases heq : m = n
    · subst heq
      exact iff_of_false hn hplaced
    · simpa [heq] using hm
  · intro a b hab ha hb
    obtain ⟨hab, hne⟩ : (a, b) ∈ edges ∧ a ≠ n := by simpa [Leads] using hab
    have hsub := h.forward hab (List.mem_cons_of_mem _ ha) (List.mem_cons_of_mem _ hb)
    rcases List.sublist_cons_iff.mp hsub with hsub | ⟨l, hl, -⟩
    · exact hsub
    · cases hl
      exact absurd rfl hne

/-- A node to which no edge leads can be placed before the others, and it has to be if it is
the first one. -/
theorem Placed.cons (h : Ranked nodes edges) (hn : n ∈ nodes) (hfree : ∀ m, (m, n) ∉ edges)
    (hfirst : ∀ m ∈ nodes, m.val < n.val → ∃ k, (k, m) ∈ edges)
    (hrest : Placed (nodes.erase n) (edges.filter fun e => e.1 ≠ n) placed) :
    Placed nodes edges (n :: placed) := by
  have hnew : n ∉ placed := fun hin => h.nodup.not_mem_erase ((hrest.mem n).mp hin).1
  have hmem : ∀ m, m ∈ n :: placed ↔ m ∈ nodes ∧ ¬ BehindCycle (Leads edges) m := by
    intro m
    rw [List.mem_cons, hrest.mem, leads_filter, behindCycle_drop hfree]
    by_cases heq : m = n
    · subst heq
      have hnot : ¬ BehindCycle (Leads edges) m := by
        intro hbehind
        obtain ⟨k, hk⟩ := hbehind.exists_lead
        exact hfree k hk
      simp [hn, hnot]
    · simp [heq]
  have hforward : ∀ {a b}, (a, b) ∈ edges → b ∈ n :: placed → [a, b].Sublist (n :: placed) := by
    intro a b hab hb
    have hne : b ≠ n := fun heq => hfree a (heq ▸ hab)
    have hlater : b ∈ placed := List.mem_of_ne_of_mem hne hb
    by_cases ha : a = n
    · subst ha
      exact (List.singleton_sublist.mpr hlater).cons_cons a
    · exact (hrest.forward (by simpa [ha] using hab) hlater).cons n
  refine ⟨List.nodup_cons.mpr ⟨hnew, hrest.nodup⟩, hmem, hforward, ?_⟩
  intro other hother
  cases other with
  | nil => cases (hother.mem n).mpr List.mem_cons_self
  | cons m rest =>
      have hm : m ∈ nodes := ((hmem m).mp ((hother.mem m).mp List.mem_cons_self)).1
      -- the other order begins with a node that could be placed first here
      have hle : ¬ m.val < n.val := by
        intro hlt
        obtain ⟨k, hk⟩ := hfirst m hm hlt
        exact hother.not_leads hforward k hk
      rw [List.map_cons, List.map_cons, List.cons_le_cons_iff]
      by_cases heq : n = m
      · subst heq
        exact .inr ⟨rfl, hrest.least (hother.tail hnew)⟩
      · have hval : n.val ≠ m.val := fun hval => heq (by cases n; cases m; cases hval; rfl)
        exact .inl (UInt32.lt_of_le_of_ne (UInt32.not_lt.mp hle) hval)

/-- All nodes that can be placed are placed, and in the least order. -/
theorem placed_orderFrom :
    ∀ {steps : Nat} {nodes : List NodeId} {edges : List Edge}, nodes.length = steps →
      Ranked nodes edges → Placed nodes edges (orderFrom steps nodes edges)
  | 0, nodes, edges, hsteps, h => by
      have hnil : nodes = [] := List.length_eq_zero_iff.mp hsteps
      subst hnil
      exact placed_nil h fun _ hn => nomatch hn
  | steps + 1, nodes, edges, hsteps, h => by
      unfold orderFrom
      split
      · rename_i hnone
        refine placed_nil h ?_
        intro n hn
        simpa using List.find?_eq_none.mp hnone n hn
      · rename_i n hsome
        have hn := List.mem_of_find?_eq_some hsome
        have hothers : ∀ a b, (a, b) ∈ edges → b ≠ n := by simpa using List.find?_some hsome
        have hfree : ∀ m, (m, n) ∉ edges := fun m hm => hothers m n hm rfl
        have hlength : (nodes.erase n).length = steps := by
          rw [List.length_erase_of_mem hn, hsteps, Nat.add_sub_cancel]
        refine Placed.cons h hn hfree ?_ (placed_orderFrom hlength (h.erase hfree))
        -- nodes with smaller numbers come earlier and were passed over
        intro m hm hlt
        obtain ⟨-, before, after, hsplit, hbefore⟩ := List.find?_eq_some_iff_append.mp hsome
        rw [hsplit] at hm
        rcases List.mem_append.mp hm with hm | hm
        · simpa using hbefore m hm
        · have hsorted := h.increasing
          rw [hsplit, List.pairwise_append] at hsorted
          rcases List.mem_cons.mp hm with rfl | hm
          · exact absurd hlt (UInt32.lt_irrefl _)
          · exact absurd ((List.pairwise_cons.mp hsorted.2.1).1 m hm) (UInt32.lt_asymm hlt)

end Placing

section Scheduling

variable {nodes : List NodeId} {edges : List Edge}

/-- The nodes behind cycles come last, in the order of their numbers. -/
theorem cyclic_schedule (h : Ranked nodes edges) :
    (∀ n, n ∈ (schedule nodes edges).cyclic ↔ n ∈ nodes ∧ BehindCycle (Leads edges) n) ∧
      (schedule nodes edges).cyclic.Pairwise fun a b => a.val < b.val := by
  have hplaced := placed_orderFrom rfl h
  refine ⟨?_, h.increasing.filter _⟩
  intro n
  rw [schedule, List.mem_filter, Bool.not_eq_true', List.contains_eq_mem, decide_eq_false_iff_not,
    hplaced.mem, not_and_not_right]
  exact and_congr_right fun hn => ⟨fun himp => himp hn, fun hbehind _ => hbehind⟩

theorem Ranked.mem_of_behindCycle (h : Ranked nodes edges) {n : NodeId}
    (hn : BehindCycle (Leads edges) n) : n ∈ nodes := by
  obtain ⟨m, hm⟩ := hn.exists_lead
  exact (h.ends hm).2

/-- The first node that cannot be placed has the least number of those behind cycles. -/
theorem head_cyclic_schedule (h : Ranked nodes edges) {n : NodeId} :
    (schedule nodes edges).cyclic.head? = some n ↔ BehindCycle (Leads edges) n ∧
      ∀ m, BehindCycle (Leads edges) m → n.val ≤ m.val := by
  obtain ⟨hmem, hsorted⟩ := cyclic_schedule h
  have hbehind : ∀ m, BehindCycle (Leads edges) m ↔ m ∈ (schedule nodes edges).cyclic := fun m =>
    ⟨fun hm => (hmem m).mpr ⟨h.mem_of_behindCycle hm, hm⟩, fun hm => ((hmem m).mp hm).2⟩
  simp only [hbehind]
  cases hcyclic : (schedule nodes edges).cyclic with
  | nil => simp
  | cons first rest =>
      rw [hcyclic] at hsorted
      have hlater := (List.pairwise_cons.mp hsorted).1
      rw [List.head?_cons, Option.some_inj]
      constructor
      · rintro rfl
        refine ⟨List.mem_cons_self, ?_⟩
        intro m hm
        rcases List.mem_cons.mp hm with rfl | hm
        · exact UInt32.le_refl _
        · exact UInt32.le_of_lt (hlater m hm)
      · rintro ⟨hn, hle⟩
        rcases List.mem_cons.mp hn with rfl | hn
        · rfl
        · exact absurd (hle first List.mem_cons_self) (UInt32.not_le.mpr (hlater n hn))

/-- The nodes that are not behind cycles come first, in the least order. -/
theorem leastTopological_orderFrom (h : Ranked nodes edges) :
    LeastTopological (Leads edges) (fun n => n ∈ nodes ∧ ¬ BehindCycle (Leads edges) n)
      (orderFrom nodes.length nodes edges) := by
  have hplaced := placed_orderFrom rfl h
  have hsame : (fun n => n ∈ nodes ∧ ¬ BehindCycle (Leads edges) n) =
      (· ∈ orderFrom nodes.length nodes edges) :=
    funext fun n => propext (hplaced.mem n).symm
  rw [hsame]
  exact ⟨⟨hplaced.nodup, fun _ => Iff.rfl, fun hab _ hb => hplaced.forward hab hb⟩, hplaced.least⟩

/-- Without a cycle all nodes are placed. -/
theorem leastTopological_schedule (h : Ranked nodes edges)
    (hacyclic : ∀ n, ¬ OnCycle (Leads edges) n) :
    LeastTopological (Leads edges) (· ∈ nodes) (schedule nodes edges).order := by
  have hfree : ∀ n, ¬ BehindCycle (Leads edges) n := fun n ⟨c, hc, _⟩ => hacyclic c hc
  have hnone : (schedule nodes edges).cyclic = [] := by
    rw [List.eq_nil_iff_forall_not_mem]
    intro n hn
    exact hfree n (((cyclic_schedule h).1 n).mp hn).2
  have horder : (schedule nodes edges).order = orderFrom nodes.length nodes edges := by
    change orderFrom nodes.length nodes edges ++ (schedule nodes edges).cyclic = _
    rw [hnone, List.append_nil]
  have hleast := leastTopological_orderFrom h
  simp only [hfree, not_false_eq_true, and_true] at hleast
  rwa [horder]

end Scheduling

namespace Graph

section Units

variable {g : Graph} {p : PartitionId}

/-- A node computes in a partition. -/
def RunsIn (g : Graph) (p : PartitionId) (n : NodeId) : Prop :=
  ∃ node, g.node? n = some node ∧ node.isInternal = true ∧ node.partition = some p

/-- An arc leads from one node of a partition to another. -/
def FeedsWithin (g : Graph) (p : PartitionId) (m n : NodeId) : Prop :=
  g.RunsIn p m ∧ g.RunsIn p n ∧ ∃ id a, g.arc? id = some a ∧ a.src.node = m ∧ a.dstNode = some n

/-- The edges along which the nodes of a partition are scheduled. -/
def edgesWithin (g : Graph) (p : PartitionId) : List Edge :=
  (g.arcsAmong (g.internalNodes p)).map Prod.snd

/-- The warning that the nodes of a partition have a cycle. -/
def cycleWarning (g : Graph) (p : PartitionId) (n : NodeId) : Diagnostic :=
  { planError .cycle n s!"partition {p} contains a cycle through {g.label n}; using ID order" with
    level := .warning }

theorem runsIn_iff {n : NodeId} : g.RunsIn p n ↔ n ∈ g.internalNodes p := mem_internalNodes.symm

theorem RunsIn.eq {q : PartitionId} {n : NodeId} (hp : g.RunsIn p n) (hq : g.RunsIn q n) :
    p = q := by
  obtain ⟨node, hnode, -, hp⟩ := hp
  obtain ⟨node', hnode', -, hq⟩ := hq
  cases hnode.symm.trans hnode'
  exact Option.some.inj (hp.symm.trans hq)

theorem leads_edgesWithin : Leads (g.edgesWithin p) = g.FeedsWithin p := by
  funext m n
  rw [eq_iff_iff]
  constructor
  · intro h
    obtain ⟨⟨id, e⟩, he, rfl⟩ := List.mem_map.mp h
    obtain ⟨⟨id', a⟩, ha, h⟩ := List.mem_filterMap.mp he
    obtain ⟨dst, hdst, h⟩ := Option.bind_eq_some_iff.mp h
    split at h
    · rename_i hboth
      cases h
      rw [Bool.and_eq_true, List.contains_iff_mem, List.contains_iff_mem] at hboth
      exact ⟨runsIn_iff.mpr hboth.1, runsIn_iff.mpr hboth.2, id, a, mem_arcList.mp ha, rfl, hdst⟩
    · cases h
  · rintro ⟨hm, hn, id, a, ha, rfl, hdst⟩
    refine List.mem_map.mpr ⟨(id, (a.src.node, n)), ?_, rfl⟩
    refine List.mem_filterMap.mpr ⟨(id, a), mem_arcList.mpr ha, ?_⟩
    simp [hdst, runsIn_iff.mp hm, runsIn_iff.mp hn]

theorem ranked_internalNodes : Ranked (g.internalNodes p) (g.edgesWithin p) := by
  refine ⟨?_, ?_⟩
  · rw [internalNodes_eq]
    exact List.pairwise_map.mpr ((g.nodeList_ordered.filter _).filter _)
  · intro a b hab
    have hab : g.FeedsWithin p a b := leads_edgesWithin ▸ hab
    exact ⟨runsIn_iff.mp hab.1, runsIn_iff.mp hab.2.1⟩

theorem runsIn_of_behindCycle {n : NodeId} (h : BehindCycle (g.FeedsWithin p) n) :
    g.RunsIn p n := by
  obtain ⟨m, hm⟩ := h.exists_lead
  exact hm.2.1

theorem behindCycle_of_head {n : NodeId}
    (h : (schedule (g.internalNodes p) (g.edgesWithin p)).cyclic.head? = some n) :
    BehindCycle (g.FeedsWithin p) n ∧ g.RunsIn p n := by
  have hbehind := ((head_cyclic_schedule ranked_internalNodes).mp h).1
  rw [leads_edgesWithin] at hbehind
  exact ⟨hbehind, runsIn_of_behindCycle hbehind⟩

theorem unitPlan_nodes {as : List Assignment} :
    (g.unitPlan as p).1.nodes = (schedule (g.internalNodes p) (g.edgesWithin p)).order := by
  rw [unitPlan_fst]
  rfl

/-- A unit warns of the first node that cannot be placed. -/
theorem mem_warnings {as : List Assignment} {d : Diagnostic} :
    d ∈ (g.unitPlan as p).2 ↔
      ∃ n, (schedule (g.internalNodes p) (g.edgesWithin p)).cyclic.head? = some n ∧
        d = g.cycleWarning p n := by
  unfold unitPlan
  dsimp only
  rw [show (g.arcsAmong (g.internalNodes p)).map Prod.snd = g.edgesWithin p from rfl]
  cases (schedule (g.internalNodes p) (g.edgesWithin p)).cyclic with
  | nil => simp
  | cons n rest => simp [cycleWarning]

end Units

section Plans

variable {g : Graph} {a : DomainAnalysis} {s : Synthesis}

/-- The units of a plan run the schedules of their partitions, and all warnings of cycles are
theirs. -/
theorem units_of_synthesize (h : g.synthesize a = .ok s) :
    (∀ u ∈ s.plan.units,
      u.nodes = (schedule (g.internalNodes u.partition) (g.edgesWithin u.partition)).order) ∧
    (∀ {p n}, g.RunsIn p n → ∃ u ∈ s.plan.units, u.partition = p) ∧
    ∀ d, d ∈ s.diagnostics ∧ d.code = some .cycle ↔ ∃ u ∈ s.plan.units, ∃ n,
      (schedule (g.internalNodes u.partition) (g.edgesWithin u.partition)).cyclic.head? = some n ∧
        d = g.cycleWarning u.partition n := by
  obtain ⟨laid, hlaid, hplan, hds⟩ := synthesize_eq_ok_iff.mp h
  generalize has : assignments g (oks (g.describeChannels a)) (laid.filterMap Prod.fst) = as at hds
  have hunits : ∀ u, u ∈ s.plan.units ↔ ∃ p ∈ g.unitLabels as, (g.unitPlan as p).1 = u := by
    intro u
    rw [hplan, planOf_units.mem_iff, has, List.mem_map]
  have hpartition : ∀ p, (g.unitPlan as p).1.partition = p := fun p => by rw [unitPlan_fst]
  refine ⟨?_, ?_, ?_⟩
  · intro u hu
    obtain ⟨p, -, rfl⟩ := (hunits u).mp hu
    rw [hpartition, unitPlan_nodes]
  · intro p n hn
    obtain ⟨node, hnode, hint, hp⟩ := hn
    have hlabel : p ∈ g.unitLabels as := mem_unitLabels.mpr (.inl ⟨n, node, hnode, hint, hp⟩)
    exact ⟨_, (hunits _).mpr ⟨p, hlabel, rfl⟩, hpartition p⟩
  · intro d
    rw [hds, List.mem_append, List.mem_append]
    constructor
    · rintro ⟨(hd | hd) | hd, hcode⟩
      · cases (refuses_describeChannels hd).code_ne_cycle hcode
      · cases (refuses_layBundles hlaid hd).code_ne_cycle hcode
      · obtain ⟨p, hp, hd⟩ := List.mem_flatMap.mp hd
        refine ⟨_, (hunits _).mpr ⟨p, hp, rfl⟩, ?_⟩
        rw [hpartition]
        exact mem_warnings.mp hd
    · rintro ⟨u, hu, n, hn, rfl⟩
      obtain ⟨p, hp, rfl⟩ := (hunits u).mp hu
      rw [hpartition] at hn ⊢
      exact ⟨.inr (List.mem_flatMap.mpr ⟨p, hp, mem_warnings.mpr ⟨n, hn, rfl⟩⟩), rfl⟩

/-- A unit runs the nodes that compute in its partition, once each. -/
theorem nodes_of_synthesize (h : g.synthesize a = .ok s) {u : UnitPlan} (hu : u ∈ s.plan.units) :
    u.nodes.Nodup ∧ ∀ n, n ∈ u.nodes ↔ g.RunsIn u.partition n := by
  have hperm : u.nodes.Perm (g.internalNodes u.partition) := by
    rw [(units_of_synthesize h).1 u hu]
    exact schedule_perm (nodup_internalNodes _) _
  exact ⟨hperm.nodup_iff.mpr (nodup_internalNodes _), fun n => hperm.mem_iff.trans runsIn_iff.symm⟩

/-- A unit warns exactly if its nodes have a cycle. -/
theorem exists_cycleWarning_iff (h : g.synthesize a = .ok s) {u : UnitPlan}
    (hu : u ∈ s.plan.units) :
    (∃ n ∈ u.nodes, g.cycleWarning u.partition n ∈ s.diagnostics) ↔
      ∃ n, OnCycle (g.FeedsWithin u.partition) n := by
  obtain ⟨-, -, hwarnings⟩ := units_of_synthesize h
  have hruns := (nodes_of_synthesize h hu).2
  constructor
  · rintro ⟨n, hn, hwarned⟩
    obtain ⟨v, -, m, hm, heq⟩ := (hwarnings _).mp ⟨hwarned, rfl⟩
    -- the node that a warning names computes in one partition only
    have hnm : n = m := Option.some.inj (congrArg Diagnostic.subject heq)
    subst hnm
    obtain ⟨⟨c, hc, -⟩, hin⟩ := behindCycle_of_head hm
    rw [((hruns n).mp hn).eq hin]
    exact ⟨c, hc⟩
  · rintro ⟨c, hc⟩
    have hin : g.RunsIn u.partition c := runsIn_of_behindCycle hc.behindCycle
    have hmem := (cyclic_schedule (ranked_internalNodes (g := g) (p := u.partition))).1
    simp only [leads_edgesWithin, ← runsIn_iff] at hmem
    obtain ⟨n, hn⟩ := Option.isSome_iff_exists.mp
      (List.isSome_head?.mpr (List.ne_nil_of_mem ((hmem c).mpr ⟨hin, hc.behindCycle⟩)))
    exact ⟨n, (hruns n).mpr (behindCycle_of_head hn).2, ((hwarnings _).mpr ⟨u, hu, n, hn, rfl⟩).1⟩

/-- Every unit of a plan runs the nodes that compute in its partition, once each.  It warns exactly
if they have a cycle.  Without one it runs them in the least order in which every arc between them
leads forward; otherwise this is how it runs the nodes that cannot be reached from a cycle, and
those that can follow in the order of their numbers. -/
theorem synthesize_schedule (h : g.synthesize a = .ok s) :
    (∀ d ∈ s.diagnostics, d.code = some .cycle →
      ∃ u ∈ s.plan.units, ∃ n ∈ u.nodes, d = g.cycleWarning u.partition n) ∧
    ∀ u ∈ s.plan.units,
      u.nodes.Nodup ∧ (∀ n, n ∈ u.nodes ↔ g.RunsIn u.partition n) ∧
      ((∃ n ∈ u.nodes, g.cycleWarning u.partition n ∈ s.diagnostics) ↔
        ∃ n, OnCycle (g.FeedsWithin u.partition) n) ∧
      ((∀ n, ¬ OnCycle (g.FeedsWithin u.partition) n) →
        LeastTopological (g.FeedsWithin u.partition) (g.RunsIn u.partition) u.nodes) ∧
      ∃ placed cyclic, u.nodes = placed ++ cyclic ∧
        LeastTopological (g.FeedsWithin u.partition)
          (fun n => g.RunsIn u.partition n ∧ ¬ BehindCycle (g.FeedsWithin u.partition) n) placed ∧
        (∀ n, n ∈ cyclic ↔ g.RunsIn u.partition n ∧ BehindCycle (g.FeedsWithin u.partition) n) ∧
        cyclic.Pairwise fun m n => m.val < n.val := by
  obtain ⟨hnodes, -, hwarnings⟩ := units_of_synthesize h
  refine ⟨?_, ?_⟩
  · intro d hd hcode
    obtain ⟨u, hu, n, hn, rfl⟩ := (hwarnings d).mp ⟨hd, hcode⟩
    exact ⟨u, hu, n, ((nodes_of_synthesize h hu).2 n).mpr (behindCycle_of_head hn).2, rfl⟩
  · intro u hu
    obtain ⟨hnodup, hruns⟩ := nodes_of_synthesize h hu
    obtain ⟨hmem, hsorted⟩ := cyclic_schedule (ranked_internalNodes (g := g) (p := u.partition))
    have hleast := leastTopological_orderFrom (ranked_internalNodes (g := g) (p := u.partition))
    simp only [leads_edgesWithin, ← runsIn_iff] at hmem hleast
    refine ⟨hnodup, hruns, exists_cycleWarning_iff h hu, ?_, _, _, hnodes u hu, hleast,
      hmem, hsorted⟩
    intro hacyclic
    rw [hnodes u hu]
    rw [← leads_edgesWithin] at hacyclic ⊢
    have hall := leastTopological_schedule ranked_internalNodes hacyclic
    simp only [← runsIn_iff] at hall
    exact hall

/-- The node that a warning of a cycle names is the first one, by number, on a cycle or behind one.
So it lies on a cycle exactly if no node that is only behind cycles has a smaller number than all
nodes on them. -/
theorem cycleWarning_onCycle_iff (h : g.synthesize a = .ok s) {d : Diagnostic}
    (hd : d ∈ s.diagnostics) (hcode : d.code = some .cycle) :
    ∃ u ∈ s.plan.units, ∃ n, d = g.cycleWarning u.partition n ∧
      BehindCycle (g.FeedsWithin u.partition) n ∧
      (∀ m, BehindCycle (g.FeedsWithin u.partition) m → n.val ≤ m.val) ∧
      (OnCycle (g.FeedsWithin u.partition) n ↔
        ∀ m, BehindCycle (g.FeedsWithin u.partition) m →
          ∃ c, OnCycle (g.FeedsWithin u.partition) c ∧ c.val ≤ m.val) := by
  obtain ⟨-, -, hwarnings⟩ := units_of_synthesize h
  obtain ⟨u, hu, n, hn, rfl⟩ := (hwarnings d).mp ⟨hd, hcode⟩
  have hfirst := (head_cyclic_schedule ranked_internalNodes).mp hn
  rw [leads_edgesWithin] at hfirst
  obtain ⟨hbehind, hleast⟩ := hfirst
  refine ⟨u, hu, n, rfl, hbehind, hleast, ?_, ?_⟩
  · intro hcycle m hm
    exact ⟨n, hcycle, hleast m hm⟩
  · intro hall
    obtain ⟨⟨c⟩, hc, hle⟩ := hall n hbehind
    have hsame : c = n.val := UInt32.le_antisymm hle (hleast ⟨c⟩ hc.behindCycle)
    subst hsame
    exact hc

/-- Two nodes that feed each other, a third with a smaller number that they feed, and two nodes
apart from them. -/
def trailing : Graph :=
  let build : Except Trap Graph := do
    let (tail, g) ← empty.addPrimitive none "tail" 1 0 ⟨0⟩
    let (left, g) ← g.addPrimitive none "left" 1 1 ⟨0⟩
    let (right, g) ← g.addPrimitive none "right" 1 1 ⟨0⟩
    let (last, g) ← g.addPrimitive none "last" 1 0 ⟨0⟩
    let (first, g) ← g.addPrimitive none "first" 0 1 ⟨0⟩
    let (_, g) ← g.connect ⟨left, 0⟩ ⟨right, 0⟩
    let (_, g) ← g.connect ⟨right, 0⟩ ⟨left, 0⟩
    let (_, g) ← g.connect ⟨left, 0⟩ ⟨tail, 0⟩
    let (_, g) ← g.connect ⟨first, 0⟩ ⟨last, 0⟩
    return g
  build.toOption.getD empty

theorem exists_synthesize_trailing :
    ∃ s u, trailing.synthesize trailing.computeRates.analysis = .ok s ∧
      u ∈ s.plan.units ∧ u.partition = ⟨0⟩ ∧ trailing.cycleWarning ⟨0⟩ ⟨0⟩ ∈ s.diagnostics := by
  obtain ⟨s, hs, -⟩ := exists_synthesize_of_plansInOrder
    (by decide : trailing.plansInOrder trailing.computeRates.analysis = true)
  obtain ⟨-, hunits, hwarnings⟩ := units_of_synthesize hs
  obtain ⟨u, hu, hp⟩ := hunits (runsIn_iff.mpr (by decide : ⟨0⟩ ∈ trailing.internalNodes ⟨0⟩))
  exact ⟨s, u, hs, hu, hp, ((hwarnings _).mpr ⟨u, hu, ⟨0⟩, by rw [hp]; decide, by rw [hp]⟩).1⟩

/-- The unit runs the nodes apart from the cycle first, the one that feeds the other before it. -/
theorem synthesize_schedule_trailing :
    ∃ s, trailing.synthesize trailing.computeRates.analysis = .ok s ∧
      ∃ u ∈ s.plan.units, u.nodes = [⟨4⟩, ⟨3⟩, ⟨0⟩, ⟨1⟩, ⟨2⟩] ∧
        ∃ n, OnCycle (trailing.FeedsWithin u.partition) n := by
  obtain ⟨s, u, hs, hu, hp, hwarned⟩ := exists_synthesize_trailing
  have hnodes : u.nodes = [⟨4⟩, ⟨3⟩, ⟨0⟩, ⟨1⟩, ⟨2⟩] := by
    rw [(units_of_synthesize hs).1 u hu, hp]
    decide
  obtain ⟨-, -, hcycle, -⟩ := (synthesize_schedule hs).2 u hu
  refine ⟨s, hs, u, hu, hnodes, hcycle.mp ⟨⟨0⟩, ?_, hp ▸ hwarned⟩⟩
  rw [hnodes]
  decide

/-- The node that the warning names is only behind the cycle: it leads nowhere. -/
theorem cycleWarning_trailing_not_onCycle :
    ∃ s, trailing.synthesize trailing.computeRates.analysis = .ok s ∧
      ∃ d ∈ s.diagnostics, d.code = some .cycle ∧ d.subject = some ⟨0⟩ ∧
        ∀ p, ¬ OnCycle (trailing.FeedsWithin p) ⟨0⟩ := by
  obtain ⟨s, u, hs, -, -, hwarned⟩ := exists_synthesize_trailing
  refine ⟨s, hs, _, hwarned, rfl, rfl, ?_⟩
  intro p hcycle
  obtain ⟨m, ⟨-, -, id, a, ha, hsrc, -⟩, -⟩ := Relation.TransGen.head'_iff.mp hcycle
  have hleaves : ∀ e ∈ trailing.arcList, e.2.src.node ≠ ⟨0⟩ := by decide
  exact hleaves (id, a) (mem_arcList.mpr ha) hsrc

theorem cycleWarning_onCycle_iff_trailing :
    ∃ s, trailing.synthesize trailing.computeRates.analysis = .ok s ∧
      ∃ d ∈ s.diagnostics, ∃ u ∈ s.plan.units, ∃ n, d = trailing.cycleWarning u.partition n ∧
        BehindCycle (trailing.FeedsWithin u.partition) n := by
  obtain ⟨s, -, hs, -, -, hwarned⟩ := exists_synthesize_trailing
  obtain ⟨u, hu, n, heq, hbehind, -⟩ := cycleWarning_onCycle_iff hs hwarned rfl
  exact ⟨s, hs, _, hwarned, u, hu, n, heq, hbehind⟩

end Plans

end Graph

end Dataflow
