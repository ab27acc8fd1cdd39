import Dataflow.Domain.Crossing
import Dataflow.Proofs.Validation.WellFormed

/-!
# Graphs that gained nodes

A graph extends another when it still has all nodes of the other, where containers may list further
members (`KeepsNodes`).  As long as every parent of the smaller graph exists, its nodes are seen in
the larger graph as before: same kind, same partition, same clock domain, and the same arcs cross.
-/

namespace Dataflow

section Nodes

/-- A container with further ordinary members. -/
def NodeKind.withChildren (more : List NodeId) : NodeKind → NodeKind
  | subsystem children => subsystem (children ++ more)
  | clockDomain rate children boundaries => clockDomain rate (children ++ more) boundaries
  | kind => kind

/-- A node with further ordinary members, if it is a container. -/
def Node.withChildren (n : Node) (more : List NodeId) : Node :=
  { n with kind := n.kind.withChildren more }

namespace NodeKind

variable (kind : NodeKind) (more : List NodeId)

@[simp] theorem withChildren_nil : kind.withChildren [] = kind := by
  cases kind <;> simp [withChildren]

@[simp] theorem isDomain_withChildren : (kind.withChildren more).isDomain = kind.isDomain := by
  cases kind <;> rfl

@[simp] theorem isChannel_withChildren : (kind.withChildren more).isChannel = kind.isChannel := by
  cases kind <;> rfl

@[simp] theorem isExternalIo_withChildren :
    (kind.withChildren more).isExternalIo = kind.isExternalIo := by
  cases kind <;> rfl

@[simp] theorem isRateChange_withChildren :
    (kind.withChildren more).isRateChange = kind.isRateChange := by
  cases kind <;> rfl

@[simp] theorem channelSpec?_withChildren :
    (kind.withChildren more).channelSpec? = kind.channelSpec? := by
  cases kind <;> rfl

@[simp] theorem isContainer_withChildren :
    (kind.withChildren more).isContainer = kind.isContainer := by
  cases kind <;> rfl

@[simp] theorem rate?_withChildren : (kind.withChildren more).rate? = kind.rate? := by
  cases kind <;> rfl

@[simp] theorem endpoint?_withChildren : (kind.withChildren more).endpoint? = kind.endpoint? := by
  cases kind <;> rfl

variable {kind more} in
theorem withChildren_eq_channel {spec : ChannelSpec} :
    kind.withChildren more = .channel spec ↔ kind = .channel spec := by
  rw [← channelSpec?_eq_some, channelSpec?_withChildren, channelSpec?_eq_some]

variable {kind more} in
theorem withChildren_eq_externalIo {ep : IoEndpoint} :
    kind.withChildren more = .externalIo ep ↔ kind = .externalIo ep := by
  rw [← endpoint?_eq_some, endpoint?_withChildren, endpoint?_eq_some]

@[simp] theorem boundaries_withChildren :
    (kind.withChildren more).boundaries = kind.boundaries := by
  cases kind <;> rfl

variable {kind more} in
theorem mem_children_withChildren {c : NodeId} :
    c ∈ (kind.withChildren more).children ↔
      c ∈ kind.children ∨ kind.isContainer = true ∧ c ∈ more := by
  cases kind <;> simp [withChildren, children, isContainer]

variable {kind more} in
theorem mem_members_withChildren {c : NodeId} :
    c ∈ (kind.withChildren more).members ↔
      c ∈ kind.members ∨ kind.isContainer = true ∧ c ∈ more := by
  cases kind with
  | clockDomain rate children boundaries =>
      simp only [withChildren, members, isContainer, List.mem_append, true_and]
      exact or_right_comm
  | _ => simp [withChildren, members, isContainer]

/-- A container that adopts one ordinary member after having gained others. -/
theorem adopt_withChildren (c : NodeId) :
    (kind.withChildren more).adopt false c = kind.withChildren (more ++ [c]) := by
  cases kind <;> simp [withChildren, adopt]

end NodeKind

namespace Node

variable (n : Node) (more : List NodeId)

@[simp] theorem withChildren_nil : n.withChildren [] = n := by
  simp [withChildren]

@[simp] theorem kind_withChildren : (n.withChildren more).kind = n.kind.withChildren more := rfl

@[simp] theorem partition_withChildren : (n.withChildren more).partition = n.partition := rfl

@[simp] theorem parent_withChildren : (n.withChildren more).parent = n.parent := rfl

@[simp] theorem name_withChildren : (n.withChildren more).name = n.name := rfl

@[simp] theorem inputs_withChildren : (n.withChildren more).inputs = n.inputs := rfl

@[simp] theorem outputs_withChildren : (n.withChildren more).outputs = n.outputs := rfl

@[simp] theorem isLeaf_withChildren : (n.withChildren more).isLeaf = n.isLeaf := by
  simp [isLeaf]

/-- Ports do not depend on what a container lists. -/
@[simp] theorem portsSuit_withChildren : (n.withChildren more).PortsSuit ↔ n.PortsSuit := by
  unfold PortsSuit
  cases hk : n.kind <;> simp [hk, NodeKind.withChildren]

end Node

end Nodes

namespace Graph

/-- Every node of `g` is in `g'`, where a container may list further members. -/
def KeepsNodes (g g' : Graph) : Prop :=
  ∀ ⦃id n⦄, g.node? id = some n → ∃ more, g'.node? id = some (n.withChildren more)

section Views

variable {g g' : Graph} {id : NodeId}

theorem KeepsNodes.partitionOf_eq (h : g.KeepsNodes g') {n : Node} (hn : g.node? id = some n) :
    g'.partitionOf id = g.partitionOf id := by
  obtain ⟨more, hn'⟩ := h hn
  simp [partitionOf, hn, hn']

/-- Parents exist, so a walk upwards meets the same nodes in both graphs. -/
theorem KeepsNodes.nearestDomain_eq (h : g.KeepsNodes g') (hg : g.ReferencesExist) :
    ∀ (steps : Nat) (cur : Option NodeId), (∀ i, cur = some i → ∃ n, g.node? i = some n) →
      g'.nearestDomain steps cur = g.nearestDomain steps cur
  | 0, _, _ => rfl
  | _ + 1, none, _ => rfl
  | steps + 1, some i, hcur => by
      obtain ⟨n, hn⟩ := hcur i rfl
      obtain ⟨more, hn'⟩ := h hn
      have ih := h.nearestDomain_eq hg steps n.parent fun p hp => hg.parent ⟨n, hn, hp⟩
      simp [nearestDomain, hn, hn', ih]

theorem KeepsNodes.enclosingDomain_eq (h : g.KeepsNodes g') (hg : g.ReferencesExist)
    {n : Node} (hn : g.node? id = some n) :
    g'.enclosingDomain id = g.enclosingDomain id := by
  obtain ⟨more, hn'⟩ := h hn
  have hwalk := h.nearestDomain_eq hg maxNesting n.parent fun p hp => hg.parent ⟨n, hn, hp⟩
  simp [enclosingDomain, hn, hn', hwalk]

/-- A clock domain that a walk upwards finds is a node of the graph. -/
theorem exists_node_of_nearestDomain {d : NodeId} :
    ∀ {steps : Nat} {cur : Option NodeId}, g.nearestDomain steps cur = some d →
      ∃ n, g.node? d = some n ∧ n.kind.isDomain
  | 0, _, h => by cases h
  | _ + 1, none, h => by cases h
  | steps + 1, some i, h => by
      unfold nearestDomain at h
      split at h
      · cases h
      · rename_i n hn
        split at h
        · rename_i hd
          cases h
          exact ⟨n, hn, hd⟩
        · exact exists_node_of_nearestDomain h

theorem exists_node_of_enclosingDomain {d : NodeId} (h : g.enclosingDomain id = some d) :
    ∃ n, g.node? d = some n ∧ n.kind.isDomain := by
  unfold enclosingDomain at h
  obtain ⟨n, -, hwalk⟩ := Option.bind_eq_some_iff.mp h
  exact exists_node_of_nearestDomain hwalk

theorem exists_node_of_inputDomain {p : PortRef} {d : NodeId} (h : g.inputDomain p = some d) :
    ∃ n, g.node? d = some n ∧ n.kind.isDomain := by
  unfold inputDomain at h
  split at h
  · obtain ⟨_, -, h⟩ := Option.bind_eq_some_iff.mp h
    exact exists_node_of_enclosingDomain h
  · exact exists_node_of_enclosingDomain h

/-- The domain around the domain of an old node is the same in both graphs. -/
theorem KeepsNodes.outerDomain_eq (h : g.KeepsNodes g') (hg : g.ReferencesExist)
    {n : Node} (hn : g.node? id = some n) :
    (g'.enclosingDomain id).bind g'.enclosingDomain =
      (g.enclosingDomain id).bind g.enclosingDomain := by
  rw [h.enclosingDomain_eq hg hn]
  cases hd : g.enclosingDomain id with
  | none => rfl
  | some d =>
      obtain ⟨m, hm, -⟩ := exists_node_of_enclosingDomain hd
      exact h.enclosingDomain_eq hg hm

theorem KeepsNodes.label_eq (h : g.KeepsNodes g') {n : Node} (hn : g.node? id = some n) :
    g'.label id = g.label id := by
  obtain ⟨more, hn'⟩ := h hn
  simp [label, hn, hn']

theorem KeepsNodes.domainRate_eq (h : g.KeepsNodes g') {n : Node} (hn : g.node? id = some n) :
    g'.domainRate id = g.domainRate id := by
  obtain ⟨more, hn'⟩ := h hn
  simp [domainRate, kindOf, hn, hn']

/-- A climb starts at an old node and goes on to the domain around it, which is one too. -/
theorem KeepsNodes.climbDomains_eq (h : g.KeepsNodes g') (hg : g.ReferencesExist) {steps : Nat}
    {chain : List NodeId} {cur : Option NodeId}
    (hcur : ∀ d, cur = some d → ∃ n, g.node? d = some n) :
    g'.climbDomains steps chain cur = g.climbDomains steps chain cur := by
  induction steps generalizing chain cur with
  | zero => rfl
  | succ steps ih =>
      cases cur with
      | none => rfl
      | some d =>
          obtain ⟨n, hn⟩ := hcur d rfl
          have hnext : ∀ e, g.enclosingDomain d = some e → ∃ n, g.node? e = some n := by
            intro e he
            obtain ⟨m, hm, -⟩ := exists_node_of_enclosingDomain he
            exact ⟨m, hm⟩
          simp only [climbDomains, h.enclosingDomain_eq hg hn, ih hnext]

theorem KeepsNodes.domainChain_eq (h : g.KeepsNodes g') (hg : g.ReferencesExist)
    {n : Node} (hn : g.node? id = some n) :
    g'.domainChain (some id) = g.domainChain (some id) := by
  refine h.climbDomains_eq hg ?_
  rintro _ ⟨⟩
  exact ⟨n, hn⟩

/-- Every member of a chain of domains is a node of the graph. -/
theorem exists_node_of_mem_climbDomains {steps : Nat} {chain : List NodeId} {cur : Option NodeId}
    (hcur : ∀ d, cur = some d → ∃ n, g.node? d = some n)
    (hchain : ∀ d ∈ chain, ∃ n, g.node? d = some n) {d : NodeId}
    (hd : d ∈ g.climbDomains steps chain cur) : ∃ n, g.node? d = some n := by
  induction steps generalizing chain cur with
  | zero => exact hchain d hd
  | succ steps ih =>
      cases cur with
      | none => exact hchain d hd
      | some e =>
          unfold climbDomains at hd
          split at hd
          · exact hchain d hd
          · refine ih ?_ ?_ hd
            · intro f hf
              obtain ⟨m, hm, -⟩ := exists_node_of_enclosingDomain hf
              exact ⟨m, hm⟩
            · exact List.forall_mem_cons.mpr ⟨hcur e rfl, hchain⟩

/-- Samples arrive at a port at the same rate in both graphs. -/
theorem KeepsNodes.inputDomain_eq (h : g.KeepsNodes g') (hg : g.ReferencesExist)
    {p : PortRef} {n : Node} (hn : g.node? p.node = some n) :
    g'.inputDomain p = g.inputDomain p := by
  obtain ⟨more, hn'⟩ := h hn
  unfold inputDomain
  rw [h.outerDomain_eq hg hn, h.enclosingDomain_eq hg hn]
  cases hk : n.kind <;> simp [kindOf, hn, hn', hk, NodeKind.withChildren]

/-- Samples leave a port at the same rate in both graphs. -/
theorem KeepsNodes.outputDomain_eq (h : g.KeepsNodes g') (hg : g.ReferencesExist)
    {p : PortRef} {n : Node} (hn : g.node? p.node = some n) :
    g'.outputDomain p = g.outputDomain p := by
  obtain ⟨more, hn'⟩ := h hn
  unfold outputDomain
  rw [h.outerDomain_eq hg hn, h.enclosingDomain_eq hg hn]
  cases hk : n.kind <;> simp [kindOf, hn, hn', hk, NodeKind.withChildren]

theorem KeepsNodes.outputType_eq (h : g.KeepsNodes g') {p : PortRef} {n : Node}
    (hn : g.node? p.node = some n) :
    g'.outputType p = g.outputType p := by
  obtain ⟨more, hn'⟩ := h hn
  simp [outputType, hn, hn']

/-- Parents exist, so a node that feeds an old port is put into the same container. -/
theorem KeepsNodes.inputContainer_eq (h : g.KeepsNodes g') (hg : g.ReferencesExist)
    {p : PortRef} {n : Node} (hn : g.node? p.node = some n) :
    g'.inputContainer p = g.inputContainer p := by
  obtain ⟨more, hn'⟩ := h hn
  have hup : ((n.parent.bind g'.node?).bind Node.parent) =
      ((n.parent.bind g.node?).bind Node.parent) := by
    cases hp : n.parent with
    | none => rfl
    | some d =>
        obtain ⟨m, hm⟩ := hg.parent ⟨n, hn, hp⟩
        obtain ⟨_, hm'⟩ := h hm
        simp [hm, hm']
  rw [Option.bind_assoc, Option.bind_assoc] at hup
  cases hk : n.kind <;> simp [inputContainer, hn, hn', hk, NodeKind.withChildren, hup]

/-- The same arcs between old nodes cross. -/
theorem KeepsNodes.crossing?_eq (h : g.KeepsNodes g') (hg : g.ReferencesExist) {a : Arc}
    (hsrc : g.HasOutput a.src) (hdst : ∀ p, a.dst = .port p → g.HasInput p) :
    g'.crossing? a = g.crossing? a := by
  obtain ⟨src, hs, -⟩ := hsrc
  obtain ⟨_, hs'⟩ := h hs
  cases hd : a.dst with
  | unconnected => simp [crossing?, Arc.dstPort, hd]
  | port p =>
      obtain ⟨dst, ht, -⟩ := hdst p hd
      obtain ⟨_, ht'⟩ := h ht
      simp [crossing?, Arc.dstPort, hd, hs, hs', ht, ht',
        h.enclosingDomain_eq hg hs, h.enclosingDomain_eq hg ht]

end Views

end Graph
end Dataflow
