import Dataflow.Proofs.Graph.Consistency

/-!
# Graphs under construction

A graph that is built from nothing and changed by the operations of a builder stays consistent,
however long that goes on, and no number is given twice.

**Edits.**  An edit is one call of a builder, with what it may be called with (`Edit.Allowed`).  A
construction is a graph together with all numbers that were handed out on the way to it.

**Invariant.**  The numbers that were handed out are those from zero to the counter, in that
order (`Sound`).

**Results.**
* `Sound.step`, `Sound.run`: every edit keeps a construction sound, and so does every run of edits.
* `step_eq_error_iff`: an edit traps exactly where it takes a number that the supply no longer has.
-/

namespace Dataflow

section Defs

/-- One call of the builder of a graph. -/
inductive Edit where
  | addPrimitive (parent : Option NodeId) (name : String) (inputs outputs : Nat)
      (partition : PartitionId)
  | addSubsystem (parent : Option NodeId) (name : String)
  | addDomain (parent : Option NodeId) (name : String) (rate : Rate)
  | addRateInput (domain : NodeId) (name : String) (change : RateChange) (partition : PartitionId)
  | addRateOutput (domain : NodeId) (name : String) (change : RateChange) (inputs : Nat)
      (partition : PartitionId)
  | addIo (parent : Option NodeId) (name : String) (endpoint : IoEndpoint)
  | connect (src dst : PortRef)
  | connectNowhere (src : PortRef)
  | setOutputType (p : PortRef) (ty : ElemType)
  | setInputType (p : PortRef) (ty : ElemType)
  | setArcPeriod (id : ArcId) (period : Rate)
  | removeArc (id : ArcId)
  | removeNode (id : NodeId)
  | spliceArc (id : ArcId) (via : NodeId)
  | redirectSource (id : ArcId) (src : PortRef)
deriving DecidableEq, Repr

/-- A node is put into a container or nowhere, ports that are joined exist, and an arc is led
through a node with an input and an output. -/
def Edit.Allowed (g : Graph) : Edit → Prop
  | addPrimitive parent .. => ∀ p ∈ parent, g.IsContainer p
  | addSubsystem parent _ => ∀ p ∈ parent, g.IsContainer p
  | addDomain parent .. => ∀ p ∈ parent, g.IsContainer p
  | addRateInput domain .. => g.IsContainer domain
  | addRateOutput domain .. => g.IsContainer domain
  | addIo parent .. => ∀ p ∈ parent, g.IsContainer p
  | connect src dst => g.HasOutput src ∧ g.HasInput dst
  | connectNowhere src => g.HasOutput src
  | spliceArc _ via => g.HasInput ⟨via, 0⟩ ∧ g.HasOutput ⟨via, 0⟩
  | redirectSource _ src => g.HasOutput src
  | _ => True

instance (g : Graph) (e : Edit) : Decidable (e.Allowed g) := by
  cases e <;> dsimp only [Edit.Allowed] <;> infer_instance

/-- Whether an edit takes a number for a node. -/
def Edit.takesNode : Edit → Bool
  | addPrimitive .. | addSubsystem .. | addDomain .. | addRateInput .. | addRateOutput .. |
      addIo .. => true
  | _ => false

/-- Whether an edit takes a number for an arc.  An arc that does not exist is not led anywhere. -/
def Edit.takesArc (g : Graph) : Edit → Bool
  | connect .. | connectNowhere _ => true
  | spliceArc id _ => (g.arc? id).isSome
  | _ => false

/-- A graph and the numbers that were handed out while it was built, in order. -/
structure Construction where
  graph : Graph := .empty
  nodes : List NodeId := []
  arcs : List ArcId := []

namespace Construction

/-- A node was placed. -/
def placed (s : Construction) (r : NodeId × Graph) : Construction :=
  { s with graph := r.2, nodes := s.nodes ++ [r.1] }

/-- An arc was placed. -/
def joined (s : Construction) (r : ArcId × Graph) : Construction :=
  { s with graph := r.2, arcs := s.arcs ++ [r.1] }

/-- Carry out one edit. -/
def step (s : Construction) : Edit → Except Trap Construction
  | .addPrimitive parent name inputs outputs partition =>
      (s.graph.addPrimitive parent name inputs outputs partition).map s.placed
  | .addSubsystem parent name => (s.graph.addSubsystem parent name).map s.placed
  | .addDomain parent name rate => (s.graph.addDomain parent name rate).map s.placed
  | .addRateInput domain name change partition =>
      (s.graph.addRateInput domain name change partition).map s.placed
  | .addRateOutput domain name change inputs partition =>
      (s.graph.addRateOutput domain name change inputs partition).map s.placed
  | .addIo parent name endpoint => (s.graph.addIo parent name endpoint).map s.placed
  | .connect src dst => (s.graph.connect src dst).map s.joined
  | .connectNowhere src => (s.graph.connectNowhere src).map s.joined
  | .setOutputType p ty => .ok { s with graph := s.graph.setOutputType p ty }
  | .setInputType p ty => .ok { s with graph := s.graph.setInputType p ty }
  | .setArcPeriod id period => .ok { s with graph := s.graph.setArcPeriod id period }
  | .removeArc id => .ok { s with graph := s.graph.removeArc id }
  | .removeNode id => .ok { s with graph := s.graph.removeNode id }
  | .spliceArc id via =>
      (s.graph.spliceArc id via).map fun r =>
        { s with graph := r.2, arcs := s.arcs ++ r.1.toList }
  | .redirectSource id src => .ok { s with graph := s.graph.redirectSource id src }

/-- Carry out edits one after the other. -/
def run (s : Construction) (edits : List Edit) : Except Trap Construction := edits.foldlM step s

/-- Every edit is allowed where it is made.  Edits after a trap are not made. -/
def Allows (s : Construction) : List Edit → Prop
  | [] => True
  | e :: edits =>
      e.Allowed s.graph ∧
        match s.step e with
        | .ok next => next.Allows edits
        | .error _ => True

instance decidableAllows : (s : Construction) → (edits : List Edit) → Decidable (s.Allows edits)
  | _, [] => .isTrue trivial
  | s, e :: edits =>
      have : Decidable (match s.step e with
          | .ok next => next.Allows edits
          | .error _ => True) :=
        match s.step e with
        | .ok next => decidableAllows next edits
        | .error _ => .isTrue trivial
      inferInstanceAs (Decidable (_ ∧ _))

/-- The graph is consistent, and the numbers were handed out one after the other. -/
structure Sound (s : Construction) : Prop where
  consistent : s.graph.Consistent
  nodes_eq : s.nodes.map (·.val.toNat) = List.range s.graph.ids.nextNode.toNat
  arcs_eq : s.arcs.map (·.val.toNat) = List.range s.graph.ids.nextArc.toNat

end Construction

end Defs

section Exhaustion

variable {g : Graph} {t : Trap}

namespace Graph

theorem addNode_eq_error_iff {parent : Option NodeId} {name : String} {kind : NodeKind}
    {inputs outputs : Nat} {partition : Option PartitionId} :
    g.addNode parent name kind inputs outputs partition = .error t ↔
      t = .addOverflow ∧ g.ids.nextNode.toNat + 1 = wordLimit := by
  refine (bind_eq_error_iff ?_).trans placeNode_eq_error_iff
  rintro ⟨id, mid⟩
  cases parent with
  | none => exact ⟨_, rfl⟩
  | some p => exact ⟨_, rfl⟩

theorem spliceArc_eq_error_iff {id : ArcId} {via : NodeId} :
    g.spliceArc id via = .error t ↔
      t = .addOverflow ∧ (g.arc? id).isSome = true ∧ g.ids.nextArc.toNat + 1 = wordLimit := by
  cases ha : g.arc? id with
  | none =>
      simp [spliceArc, ha]
  | some a =>
      simp only [spliceArc, ha, Option.isSome_some, true_and]
      exact (bind_eq_error_iff fun _ => ⟨_, rfl⟩).trans placeArc_eq_error_iff

end Graph

end Exhaustion

namespace Construction

variable {s next : Construction} {e : Edit} {t : Trap}

section Steps

/-- A step traps where it takes a number that the supply no longer has, and only there. -/
theorem step_eq_error_iff :
    s.step e = .error t ↔ t = .addOverflow ∧
      (e.takesNode = true ∧ s.graph.ids.nextNode.toNat + 1 = wordLimit ∨
        e.takesArc s.graph = true ∧ s.graph.ids.nextArc.toNat + 1 = wordLimit) := by
  cases e with
  | addIo parent name endpoint =>
      simp only [step, map_eq_error_iff, Graph.addIo, Edit.takesNode, Edit.takesArc]
      cases endpoint.direction <;> simp [Graph.addNode_eq_error_iff]
  | addPrimitive | addSubsystem | addDomain | addRateInput | addRateOutput =>
      exact map_eq_error_iff.trans (Graph.addNode_eq_error_iff.trans
        (by simp [Edit.takesNode, Edit.takesArc]))
  | connect | connectNowhere =>
      exact map_eq_error_iff.trans (Graph.placeArc_eq_error_iff.trans
        (by simp [Edit.takesNode, Edit.takesArc]))
  | spliceArc id via =>
      exact map_eq_error_iff.trans (Graph.spliceArc_eq_error_iff.trans
        (by simp [Edit.takesNode, Edit.takesArc]))
  | setOutputType | setInputType | setArcPeriod | removeArc | removeNode | redirectSource =>
      simp [step, Edit.takesNode, Edit.takesArc]

theorem sound_start : Sound {} := ⟨Graph.consistent_empty, rfl, rfl⟩

/-- A change of the graph that takes no number. -/
theorem Sound.changed (h : s.Sound) {g : Graph} (hg : g.Consistent) (hids : g.ids = s.graph.ids) :
    Sound { s with graph := g } :=
  ⟨hg, hids ▸ h.nodes_eq, hids ▸ h.arcs_eq⟩

theorem Sound.addNode {parent : Option NodeId} {name : String} {kind : NodeKind}
    {inputs outputs : Nat} {partition : Option PartitionId} (h : s.Sound)
    (hparent : ∀ p ∈ parent, s.graph.IsContainer p) (hempty : kind.members = [])
    (hstep : (s.graph.addNode parent name kind inputs outputs partition).map s.placed = .ok next) :
    next.Sound := by
  obtain ⟨⟨id, g⟩, hadd, rfl⟩ := map_eq_ok_iff.mp hstep
  obtain ⟨rfl, hnode, harc⟩ := Graph.addNode_ids hadd
  refine ⟨h.consistent.addNode hparent hempty hadd, ?_, ?_⟩
  · simp [placed, hnode, List.range_succ, h.nodes_eq]
  · simp [placed, harc, h.arcs_eq]

theorem Sound.addArc {src : PortRef} {dst : ArcSink} (h : s.Sound) (hsrc : s.graph.HasOutput src)
    (hdst : ∀ p, dst = .port p → s.graph.HasInput p)
    (hstep : (s.graph.addArc src dst).map s.joined = .ok next) : next.Sound := by
  obtain ⟨⟨id, g⟩, hadd, rfl⟩ := map_eq_ok_iff.mp hstep
  obtain ⟨rfl, harc, hnode⟩ := Graph.placeArc_ids hadd
  refine ⟨h.consistent.addArc hsrc hdst hadd, ?_, ?_⟩
  · simp [joined, hnode, h.nodes_eq]
  · simp [joined, harc, List.range_succ, h.arcs_eq]

theorem Sound.spliceArc {id : ArcId} {via : NodeId} (h : s.Sound)
    (hin : s.graph.HasInput ⟨via, 0⟩) (hout : s.graph.HasOutput ⟨via, 0⟩)
    (hstep : s.step (.spliceArc id via) = .ok next) : next.Sound := by
  obtain ⟨⟨r, g⟩, hsplice, rfl⟩ := map_eq_ok_iff.mp hstep
  have hg := h.consistent.spliceArc hin hout hsplice
  cases ha : s.graph.arc? id with
  | none =>
      simp only [Graph.spliceArc, ha] at hsplice
      cases hsplice
      exact ⟨hg, h.nodes_eq, by simp [h.arcs_eq]⟩
  | some a =>
      simp only [Graph.spliceArc, ha] at hsplice
      obtain ⟨⟨made, mid⟩, hplace, hrest⟩ := bind_eq_ok_iff.mp hsplice
      cases hrest
      obtain ⟨rfl, harc, hnode⟩ := Graph.placeArc_ids hplace
      refine ⟨hg, ?_, ?_⟩
      · simp [Graph.modifyArc, hnode, h.nodes_eq]
      · simp [Graph.modifyArc, harc, List.range_succ, h.arcs_eq]

/-- Every edit that is allowed keeps a construction sound. -/
theorem Sound.step (h : s.Sound) (hallowed : e.Allowed s.graph) (hstep : s.step e = .ok next) :
    next.Sound := by
  cases e with
  | addPrimitive | addSubsystem | addDomain => exact h.addNode hallowed rfl hstep
  | addRateInput | addRateOutput =>
      refine h.addNode ?_ rfl hstep
      rintro p ⟨⟩
      exact hallowed
  | addIo parent name endpoint =>
      simp only [Construction.step, Graph.addIo] at hstep
      split at hstep
      · exact h.addNode hallowed rfl hstep
      · exact h.addNode hallowed rfl hstep
  | connect src dst =>
      refine h.addArc hallowed.1 ?_ hstep
      rintro p ⟨⟩
      exact hallowed.2
  | connectNowhere src =>
      refine h.addArc hallowed ?_ hstep
      rintro p ⟨⟩
  | setOutputType p ty | setInputType p ty =>
      cases hstep
      exact h.changed (h.consistent.modifyNode _ fun n => ⟨rfl, rfl, by simp, by simp⟩) rfl
  | setArcPeriod id period =>
      cases hstep
      exact h.changed (h.consistent.modifyArc id (fun _ => .inl rfl) fun _ => rfl) rfl
  | removeArc id =>
      cases hstep
      exact h.changed (h.consistent.removeArc id) rfl
  | removeNode id =>
      cases hstep
      exact h.changed (h.consistent.removeNode id) Graph.ids_removeNode
  | spliceArc id via => exact h.spliceArc hallowed.1 hallowed.2 hstep
  | redirectSource id src =>
      cases hstep
      exact h.changed (h.consistent.modifyArc id (fun _ => .inr hallowed) fun _ => rfl) rfl

end Steps

section Runs

theorem Sound.run {edits : List Edit} (h : s.Sound) (hallowed : s.Allows edits)
    (hrun : s.run edits = .ok next) : next.Sound := by
  induction edits generalizing s with
  | nil =>
      cases hrun
      exact h
  | cons e edits ih =>
      obtain ⟨mid, hmid, hrest⟩ := bind_eq_ok_iff.mp hrun
      obtain ⟨hfirst, hthen⟩ := hallowed
      rw [hmid] at hthen
      exact ih (h.step hfirst hmid) hthen hrest

end Runs

section Numbers

variable {α : Type} {l : List α} {f : α → Nat} {n : Nat} {x : α}

theorem nodup_of_map_eq_range (h : l.map f = List.range n) : l.Nodup :=
  List.Nodup.of_map f (h ▸ List.nodup_range)

theorem mem_iff_of_map_eq_range (hf : Function.Injective f) (h : l.map f = List.range n) :
    x ∈ l ↔ f x < n := by
  rw [← List.mem_map_of_injective hf, h, List.mem_range]

theorem injective_nodeNumber : Function.Injective fun id : NodeId => id.val.toNat := by
  rintro ⟨a⟩ ⟨b⟩ h
  exact congrArg NodeId.mk (UInt32.toNat_inj.mp h)

theorem injective_arcNumber : Function.Injective fun id : ArcId => id.val.toNat := by
  rintro ⟨a⟩ ⟨b⟩ h
  exact congrArg ArcId.mk (UInt32.toNat_inj.mp h)

/-- What was handed out is what the counter has passed. -/
theorem Sound.mem_nodes_iff (h : s.Sound) {id : NodeId} :
    id ∈ s.nodes ↔ id.val < s.graph.ids.nextNode :=
  mem_iff_of_map_eq_range injective_nodeNumber h.nodes_eq

theorem Sound.mem_arcs_iff (h : s.Sound) {id : ArcId} :
    id ∈ s.arcs ↔ id.val < s.graph.ids.nextArc :=
  mem_iff_of_map_eq_range injective_arcNumber h.arcs_eq

end Numbers

section Results

/-- A graph that was built from nothing is consistent, and so is every graph on the way to it.
Containment has no cycle, the numbers in use and the numbers that were handed out are below the
counters, and no number was handed out twice.  Only a counter at its end stops the next edit. -/
theorem consistent_of_run {edits : List Edit} (hallowed : Allows {} edits)
    (hrun : run {} edits = .ok s) :
    s.graph.Consistent ∧ (∀ id, ¬Relation.TransGen s.graph.Parent id id) ∧
      (∀ id n, s.graph.node? id = some n → id ∈ s.nodes) ∧
      (∀ id a, s.graph.arc? id = some a → id ∈ s.arcs) ∧
      (∀ id ∈ s.nodes, id.val < s.graph.ids.nextNode) ∧
      (∀ id ∈ s.arcs, id.val < s.graph.ids.nextArc) ∧
      s.nodes.Nodup ∧ s.arcs.Nodup ∧
      ∀ e t, s.step e = .error t ↔ t = .addOverflow ∧
        (e.takesNode = true ∧ s.graph.ids.nextNode.toNat + 1 = wordLimit ∨
          e.takesArc s.graph = true ∧ s.graph.ids.nextArc.toNat + 1 = wordLimit) := by
  have hsound : s.Sound := sound_start.run hallowed hrun
  refine ⟨hsound.consistent, hsound.consistent.acyclic, ?_, ?_,
    fun _ => hsound.mem_nodes_iff.mp, fun _ => hsound.mem_arcs_iff.mp,
    nodup_of_map_eq_range hsound.nodes_eq, nodup_of_map_eq_range hsound.arcs_eq,
    fun _ _ => step_eq_error_iff⟩
  · intro id n hn
    exact hsound.mem_nodes_iff.mpr (s.graph.node_lt id (Graph.mem_nodes_iff.mpr ⟨n, hn⟩))
  · intro id a ha
    exact hsound.mem_arcs_iff.mpr (s.graph.arc_lt id (Graph.mem_arcs_iff.mpr ⟨a, ha⟩))

/-- Nodes in containers and outside, an arc that is led through a node, a container that is taken
out with what is in it, and a node that takes its place. -/
def rebuild : List Edit :=
  [.addDomain none "outer" ⟨1, 2⟩,
   .addSubsystem (some ⟨0⟩) "inner",
   .addPrimitive (some ⟨1⟩) "source" 1 1 ⟨0⟩,
   .addPrimitive none "sink" 1 1 ⟨0⟩,
   .addRateInput ⟨0⟩ "gate" ⟨.downsample, 2⟩ ⟨0⟩,
   .connect ⟨⟨2⟩, 0⟩ ⟨⟨3⟩, 0⟩,
   .connectNowhere ⟨⟨3⟩, 0⟩,
   .spliceArc ⟨0⟩ ⟨4⟩,
   .removeNode ⟨1⟩,
   .addPrimitive (some ⟨0⟩) "source" 1 1 ⟨0⟩,
   .connect ⟨⟨5⟩, 0⟩ ⟨⟨4⟩, 0⟩]

/-- The numbers of what was taken out are not given again. -/
theorem consistent_of_run_rebuild :
    Allows {} rebuild ∧ ∃ s, run {} rebuild = .ok s ∧
      s.nodes = [⟨0⟩, ⟨1⟩, ⟨2⟩, ⟨3⟩, ⟨4⟩, ⟨5⟩] ∧ s.arcs = [⟨0⟩, ⟨1⟩, ⟨2⟩, ⟨3⟩] ∧
      s.graph.nodeList.map Prod.fst = [⟨0⟩, ⟨3⟩, ⟨4⟩, ⟨5⟩] ∧
      s.graph.arcList.map Prod.fst = [⟨1⟩, ⟨2⟩, ⟨3⟩] ∧ s.graph.Consistent ∧
      ∀ id, ¬Relation.TransGen s.graph.Parent id id := by
  have hallowed : Allows {} rebuild := by decide +kernel
  obtain ⟨s, hrun, htest⟩ := exists_of_toOption_any (x := run {} rebuild)
    (q := fun s => decide (s.nodes = [⟨0⟩, ⟨1⟩, ⟨2⟩, ⟨3⟩, ⟨4⟩, ⟨5⟩] ∧
      s.arcs = [⟨0⟩, ⟨1⟩, ⟨2⟩, ⟨3⟩] ∧ s.graph.nodeList.map Prod.fst = [⟨0⟩, ⟨3⟩, ⟨4⟩, ⟨5⟩] ∧
      s.graph.arcList.map Prod.fst = [⟨1⟩, ⟨2⟩, ⟨3⟩])) (by decide +kernel)
  obtain ⟨hnodes, harcs, hnodeList, harcList⟩ := of_decide_eq_true htest
  obtain ⟨hconsistent, hacyclic, -⟩ := consistent_of_run hallowed hrun
  exact ⟨hallowed, s, hrun, hnodes, harcs, hnodeList, harcList, hconsistent, hacyclic⟩

end Results

end Construction
end Dataflow
