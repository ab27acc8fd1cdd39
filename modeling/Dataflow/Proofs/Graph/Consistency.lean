import Dataflow.Proofs.Graph.Subtree
import Dataflow.Proofs.Validation.WellFormed

/-!
# Consistent graphs

In a consistent graph arcs end at ports, and nodes and containers agree on containment.  Each way to
change the tables of a graph keeps it consistent.

**Containment.**  What makes containment a forest is age: a container has to exist before a node can
be put into it, so its number is smaller (`Consistent.older`).

**Results.**
* `Consistent.addNode`, `Consistent.removeNode`, `Consistent.modifyNode`: nodes come, go and
  change their ports.
* `Consistent.addArc`, `Consistent.removeArc`, `Consistent.modifyArc`,
  `Consistent.spliceArc`: so do arcs.
* `Consistent.acyclic`: no node contains itself, however far down.
-/

namespace Dataflow

section Defs

namespace Graph

/-- The number of a container. -/
def IsContainer (g : Graph) (p : NodeId) : Prop :=
  ∃ n, g.node? p = some n ∧ n.kind.isContainer = true

instance (g : Graph) (p : PortRef) : Decidable (g.HasOutput p) :=
  decidable_of_iff ((g.node? p.node).any fun n => p.port.toNat < n.outputs.length)
    (by simp [HasOutput, Option.any_eq_true])

instance (g : Graph) (p : PortRef) : Decidable (g.HasInput p) :=
  decidable_of_iff ((g.node? p.node).any fun n => p.port.toNat < n.inputs.length)
    (by simp [HasInput, Option.any_eq_true])

instance (g : Graph) (p : NodeId) : Decidable (g.IsContainer p) :=
  decidable_of_iff ((g.node? p).any fun n => n.kind.isContainer)
    (by simp [IsContainer, Option.any_eq_true])

/-- Arcs end at ports, and nodes and containers agree on containment. -/
structure Consistent (g : Graph) : Prop where
  source : ∀ {id a}, g.arc? id = some a → g.HasOutput a.src
  target : ∀ {id a p}, g.arc? id = some a → a.dst = .port p → g.HasInput p
  /-- A node with a parent is listed by it once. -/
  listed : ∀ {id p}, g.Parent id p → ∃ m, g.node? p = some m ∧ m.kind.members.count id = 1
  /-- A member names the container that lists it. -/
  back : ∀ {id n c}, g.node? id = some n → c ∈ n.kind.members → g.Parent c id
  /-- A container is older than its members. -/
  older : ∀ {id p}, g.Parent id p → p.val < id.val

end Graph

end Defs

section Members

namespace NodeKind

variable {kind : NodeKind} {id c : NodeId}

theorem count_members_adopt (hk : kind.isContainer = true) (boundary : Bool) :
    (kind.adopt boundary id).members.count c = kind.members.count c + if c = id then 1 else 0 := by
  have hsingle : [id].count c = if c = id then 1 else 0 := by
    rw [List.count_singleton]
    simp only [beq_iff_eq, eq_comm (a := id)]
  cases kind with
  | subsystem children => simp [adopt, members, hsingle]
  | clockDomain rate children boundaries =>
      cases boundary
      · simp only [adopt, members, Bool.false_eq_true, if_false, List.count_append, hsingle]
        omega
      · simp only [adopt, members, if_true, List.count_append, hsingle]
        omega
  | _ => simp [isContainer] at hk

theorem count_members_disown :
    (kind.disown id).members.count c = if c = id then 0 else kind.members.count c := by
  have hfilter :
      ∀ l : List NodeId, (l.filter (· ≠ id)).count c = if c = id then 0 else l.count c := by
    intro l
    by_cases hc : c = id
    · subst hc
      simp [List.count_eq_zero]
    · rw [if_neg hc, List.count_filter (by simpa using hc)]
  cases kind with
  | subsystem children => exact hfilter children
  | clockDomain rate children boundaries =>
      simp only [disown, members, List.count_append, hfilter]
      split <;> rfl
  | _ => simp [disown, members]

end NodeKind

end Members

namespace Graph

variable {g g' : Graph}

section Frames

theorem hasOutput_congr (h : g'.nodes = g.nodes) {p : PortRef} :
    g'.HasOutput p ↔ g.HasOutput p := by
  simp only [HasOutput, node?, h]

theorem hasInput_congr (h : g'.nodes = g.nodes) {p : PortRef} : g'.HasInput p ↔ g.HasInput p := by
  simp only [HasInput, node?, h]

theorem parent_congr (h : g'.nodes = g.nodes) {id p : NodeId} : g'.Parent id p ↔ g.Parent id p := by
  simp only [Parent, node?, h]

/-- A change of arcs alone has to see to their ends only. -/
theorem Consistent.of_arcs (h : g.Consistent) (hnodes : g'.nodes = g.nodes)
    (harcs : ∀ {i a}, g'.arc? i = some a →
      g.HasOutput a.src ∧ ∀ p, a.dst = .port p → g.HasInput p) : g'.Consistent := by
  refine ⟨?_, ?_, ?_, ?_, ?_⟩
  · intro id a ha
    exact (hasOutput_congr hnodes).mpr (harcs ha).1
  · intro id a p ha hp
    exact (hasInput_congr hnodes).mpr ((harcs ha).2 p hp)
  · intro id p hp
    simpa only [node?, hnodes] using h.listed ((parent_congr hnodes).mp hp)
  · intro id n c hn hc
    rw [node?, hnodes] at hn
    exact (parent_congr hnodes).mpr (h.back hn hc)
  · intro id p hp
    exact h.older ((parent_congr hnodes).mp hp)

/-- Every node of the first graph is in the second, with the same kind, parent and number of
ports. -/
def KeepsShapes (g g' : Graph) : Prop :=
  ∀ {i n}, g.node? i = some n → ∃ n', g'.node? i = some n' ∧ n'.kind = n.kind ∧
    n'.parent = n.parent ∧ n'.inputs.length = n.inputs.length ∧ n'.outputs.length = n.outputs.length

/-- A change of nodes that keeps their shapes keeps a graph consistent. -/
theorem Consistent.of_shapes (h : g.Consistent) (harcs : g'.arcs = g.arcs)
    (hkeeps : g.KeepsShapes g') (hback : g'.KeepsShapes g) : g'.Consistent := by
  have hparent : ∀ {id p}, g'.Parent id p → g.Parent id p := by
    rintro id p ⟨n', hn', hp⟩
    obtain ⟨n, hn, -, hparent, -⟩ := hback hn'
    exact ⟨n, hn, hparent.trans hp⟩
  refine ⟨?_, ?_, ?_, ?_, ?_⟩
  · intro id a ha
    rw [arc?, harcs] at ha
    obtain ⟨n, hn, hlt⟩ := h.source ha
    obtain ⟨n', hn', -, -, -, hout⟩ := hkeeps hn
    exact ⟨n', hn', hout ▸ hlt⟩
  · intro id a p ha hp
    rw [arc?, harcs] at ha
    obtain ⟨n, hn, hlt⟩ := h.target ha hp
    obtain ⟨n', hn', -, -, hin, -⟩ := hkeeps hn
    exact ⟨n', hn', hin ▸ hlt⟩
  · intro id p hp
    obtain ⟨m, hm, hcount⟩ := h.listed (hparent hp)
    obtain ⟨m', hm', hkind, -⟩ := hkeeps hm
    exact ⟨m', hm', hkind ▸ hcount⟩
  · intro id n' c hn' hc
    obtain ⟨n, hn, hkind, -⟩ := hback hn'
    obtain ⟨m, hm, hp⟩ := h.back hn (hkind ▸ hc)
    obtain ⟨m', hm', -, hp', -⟩ := hkeeps hm
    exact ⟨m', hm', hp'.trans hp⟩
  · intro id p hp
    exact h.older (hparent hp)

theorem Consistent.modifyNode (h : g.Consistent) (id : NodeId) {f : Node → Node}
    (hf : ∀ n, (f n).kind = n.kind ∧ (f n).parent = n.parent ∧
      (f n).inputs.length = n.inputs.length ∧ (f n).outputs.length = n.outputs.length) :
    (g.modifyNode id f).Consistent := by
  refine h.of_shapes rfl ?_ ?_
  · intro i n hn
    by_cases hi : i = id
    · exact ⟨f n, by simp [node?_modifyNode, hi, hi ▸ hn], hf n⟩
    · exact ⟨n, by simp [node?_modifyNode, hi, hn], rfl, rfl, rfl, rfl⟩
  · intro i n' hn'
    rw [node?_modifyNode] at hn'
    split at hn'
    · obtain ⟨n, hn, rfl⟩ := Option.map_eq_some_iff.mp hn'
      obtain ⟨hkind, hparent, hin, hout⟩ := hf n
      exact ⟨n, hn, hkind.symm, hparent.symm, hin.symm, hout.symm⟩
    · exact ⟨n', hn', rfl, rfl, rfl, rfl⟩

end Frames

section Additions

variable {parent : Option NodeId} {name : String} {kind : NodeKind} {inputs outputs : Nat}
  {partition : Option PartitionId} {id : NodeId}

/-- A node that was added has a fresh number.  Its container lists it, and nothing else has
changed. -/
theorem addNode_spec (hparent : ∀ p ∈ parent, g.IsContainer p)
    (h : g.addNode parent name kind inputs outputs partition = .ok (id, g')) :
    g.node? id = none ∧ g'.arcs = g.arcs ∧
      g'.node? id = some
        { name, kind, inputs := List.replicate inputs {}, outputs := List.replicate outputs {},
          partition, parent } ∧
      ∀ i, i ≠ id → g'.node? i =
        if parent = some i then
          (g.node? i).map fun n => { n with kind := n.kind.adopt kind.isRateChange id }
        else g.node? i := by
  obtain ⟨⟨_, start⟩, hplace, h⟩ := bind_eq_ok_iff.mp h
  obtain ⟨hfresh, hnodes, harcs⟩ := placeNode_spec hplace
  cases parent with
  | none =>
      cases h
      exact ⟨hfresh, harcs, by simp [hnodes], fun i hi => by simp [hnodes, hi]⟩
  | some p =>
      cases h
      obtain ⟨m, hm, -⟩ := hparent p rfl
      have hne : id ≠ p := by
        rintro rfl
        rw [hfresh] at hm
        cases hm
      refine ⟨hfresh, harcs, by simp [node?_modifyNode, hnodes, hne], ?_⟩
      intro i hi
      by_cases hp : i = p
      · subst hp
        simp [node?_modifyNode, hnodes, hi]
      · simp [node?_modifyNode, hnodes, hi, hp, Ne.symm hp]

theorem addNode_ids (h : g.addNode parent name kind inputs outputs partition = .ok (id, g')) :
    id = ⟨g.ids.nextNode⟩ ∧ g'.ids.nextNode.toNat = g.ids.nextNode.toNat + 1 ∧
      g'.ids.nextArc = g.ids.nextArc := by
  obtain ⟨⟨_, start⟩, hplace, h⟩ := bind_eq_ok_iff.mp h
  have hids := placeNode_ids hplace
  cases parent with
  | none =>
      cases h
      exact hids
  | some p =>
      cases h
      exact hids

/-- Putting a new node into a container keeps a graph consistent. -/
theorem Consistent.addNode (h : g.Consistent) (hparent : ∀ p ∈ parent, g.IsContainer p)
    (hempty : kind.members = [])
    (hadd : g.addNode parent name kind inputs outputs partition = .ok (id, g')) :
    g'.Consistent := by
  obtain ⟨hfresh, harcs, hnew, hold⟩ := addNode_spec hparent hadd
  have hne : ∀ {i n}, g.node? i = some n → i ≠ id := by
    rintro i n hn rfl
    rw [hfresh] at hn
    cases hn
  -- an old node keeps its parent and its ports, and lists the new node if it is its container
  have hkeeps : ∀ {i n}, g.node? i = some n → ∃ n', g'.node? i = some n' ∧ n'.parent = n.parent ∧
      n'.inputs = n.inputs ∧ n'.outputs = n.outputs ∧
      ∀ c, n'.kind.members.count c =
        n.kind.members.count c + if parent = some i ∧ c = id then 1 else 0 := by
    intro i n hn
    rw [hold i (hne hn)]
    by_cases hp : parent = some i
    · obtain ⟨m, hm, hcontainer⟩ := hparent i hp
      cases hn.symm.trans hm
      refine ⟨{ n with kind := n.kind.adopt kind.isRateChange id }, by rw [if_pos hp, hn]; rfl,
        rfl, rfl, rfl, fun c => ?_⟩
      simp [NodeKind.count_members_adopt hcontainer, hp]
    · exact ⟨n, by rw [if_neg hp, hn], rfl, rfl, rfl, fun c => by simp [hp]⟩
  have hcases : ∀ {i n'}, g'.node? i = some n' → i = id ∧ n'.parent = parent ∧ n'.kind = kind ∨
      ∃ n, g.node? i = some n := by
    intro i n' hn'
    by_cases hi : i = id
    · subst hi
      cases hnew.symm.trans hn'
      exact .inl ⟨rfl, rfl, rfl⟩
    · rw [hold i hi] at hn'
      split at hn'
      · obtain ⟨n, hn, -⟩ := Option.map_eq_some_iff.mp hn'
        exact .inr ⟨n, hn⟩
      · exact .inr ⟨n', hn'⟩
  have hparents : ∀ {i p}, g'.Parent i p → i = id ∧ parent = some p ∨ g.Parent i p := by
    rintro i p ⟨n', hn', hp⟩
    rcases hcases hn' with ⟨rfl, hparent, -⟩ | ⟨n, hn⟩
    · exact .inl ⟨rfl, hparent.symm.trans hp⟩
    · obtain ⟨m, hm, hsame, -⟩ := hkeeps hn
      cases hn'.symm.trans hm
      exact .inr ⟨n, hn, hsame.symm.trans hp⟩
  have hparent' : ∀ {i p}, g.Parent i p → g'.Parent i p := by
    rintro i p ⟨n, hn, hp⟩
    obtain ⟨n', hn', hsame, -⟩ := hkeeps hn
    exact ⟨n', hn', hsame.trans hp⟩
  have hunlisted : ∀ {i n}, g.node? i = some n → n.kind.members.count id = 0 := by
    intro i n hn
    rw [List.count_eq_zero]
    intro hin
    obtain ⟨m, hm, -⟩ := h.back hn hin
    exact hne hm rfl
  refine ⟨?_, ?_, ?_, ?_, ?_⟩
  · intro i a ha
    rw [arc?, harcs] at ha
    obtain ⟨n, hn, hlt⟩ := h.source ha
    obtain ⟨n', hn', -, -, hout, -⟩ := hkeeps hn
    exact ⟨n', hn', hout ▸ hlt⟩
  · intro i a p ha hp
    rw [arc?, harcs] at ha
    obtain ⟨n, hn, hlt⟩ := h.target ha hp
    obtain ⟨n', hn', -, hin, -⟩ := hkeeps hn
    exact ⟨n', hn', hin ▸ hlt⟩
  · intro i p hp
    rcases hparents hp with ⟨rfl, hp⟩ | hp
    · obtain ⟨m, hm, -⟩ := hparent p hp
      obtain ⟨m', hm', -, -, -, hcount⟩ := hkeeps hm
      exact ⟨m', hm', by simp [hcount, hunlisted hm, hp]⟩
    · obtain ⟨m, hm, hone⟩ := h.listed hp
      obtain ⟨m', hm', -, -, -, hcount⟩ := hkeeps hm
      obtain ⟨n, hn, -⟩ := hp
      exact ⟨m', hm', by simp [hcount, hone, hne hn]⟩
  · intro i n' c hn' hc
    rcases hcases hn' with ⟨-, -, hkind⟩ | ⟨n, hn⟩
    · rw [hkind, hempty] at hc
      cases hc
    · obtain ⟨m, hm, -, -, -, hcount⟩ := hkeeps hn
      cases hn'.symm.trans hm
      by_cases hadopted : parent = some i ∧ c = id
      · exact ⟨_, hadopted.2 ▸ hnew, hadopted.1⟩
      · have hpos := List.count_pos_iff.mpr hc
        rw [hcount, if_neg hadopted, Nat.add_zero] at hpos
        exact hparent' (h.back hn (List.count_pos_iff.mp hpos))
  · intro i p hp
    rcases hparents hp with ⟨rfl, hp⟩ | hp
    · obtain ⟨m, hm, -⟩ := hparent p hp
      rw [(addNode_ids hadd).1]
      exact g.node_lt p (mem_nodes_iff.mpr ⟨m, hm⟩)
    · exact h.older hp

end Additions

section Removal

variable {id : NodeId}

/-- What is below a node is in a container that is below it as well, the node itself apart. -/
theorem Consistent.below_parent (h : g.Consistent) {c p : NodeId} (hp : g.Parent c p) :
    g.Below id c ↔ c = id ∨ g.Below id p := by
  constructor
  · intro hbelow
    rcases Relation.ReflTransGen.cases_tail hbelow with rfl | ⟨q, hq, m, hm, hc⟩
    · exact .inl rfl
    · exact .inr (hp.unique (h.back hm hc) ▸ hq)
  · rintro (rfl | hbelow)
    · exact .refl
    · obtain ⟨m, hm, hone⟩ := h.listed hp
      exact hbelow.tail ⟨m, hm, List.count_pos_iff.mp (by omega)⟩

/-- Taking out a node with everything below it keeps a graph consistent. -/
theorem Consistent.removeNode (h : g.Consistent) (id : NodeId) : (g.removeNode id).Consistent := by
  cases hn : g.node? id with
  | none =>
      have hsame : g.removeNode id = g := by simp only [Graph.removeNode, hn]
      rw [hsame]
      exact h
  | some n =>
      have hgone : ∀ {i}, (g.subtree id).contains i = false ↔ ¬g.Below id i := by
        intro i
        rw [← contains_subtree_iff, Bool.not_eq_true]
      -- a node that stays keeps its parent, its ports and its members, the node that goes apart
      have hstays : ∀ {i m}, g.node? i = some m → ¬g.Below id i →
          ∃ m', (g.removeNode id).node? i = some m' ∧ m'.parent = m.parent ∧
            m'.inputs = m.inputs ∧ m'.outputs = m.outputs ∧
            ∀ c, m'.kind.members.count c =
              if n.parent = some i ∧ c = id then 0 else m.kind.members.count c := by
        intro i m hm hi
        rw [node?_removeNode hn, hgone.mpr hi]
        by_cases hp : n.parent = some i
        · refine ⟨{ m with kind := m.kind.disown id }, by simp [hp, hm], rfl, rfl, rfl, fun c => ?_⟩
          simp [NodeKind.count_members_disown, hp]
        · exact ⟨m, by simp [hp, hm], rfl, rfl, rfl, fun c => by simp [hp]⟩
      have hcases : ∀ {i m'}, (g.removeNode id).node? i = some m' →
          ¬g.Below id i ∧ ∃ m, g.node? i = some m := by
        intro i m' hm'
        rw [node?_removeNode hn] at hm'
        cases hi : (g.subtree id).contains i with
        | true => simp [hi] at hm'
        | false =>
            refine ⟨hgone.mp hi, ?_⟩
            by_cases hp : n.parent = some i
            · obtain ⟨m, hm, -⟩ := Option.map_eq_some_iff.mp (by simpa [hi, hp] using hm')
              exact ⟨m, hm⟩
            · exact ⟨m', by simpa [hi, hp] using hm'⟩
      have hparents : ∀ {i p}, (g.removeNode id).Parent i p ↔ ¬g.Below id i ∧ g.Parent i p := by
        intro i p
        constructor
        · rintro ⟨m', hm', hp⟩
          obtain ⟨hi, m, hm⟩ := hcases hm'
          obtain ⟨m'', hm'', hsame, -⟩ := hstays hm hi
          cases hm'.symm.trans hm''
          exact ⟨hi, m, hm, hsame.symm.trans hp⟩
        · rintro ⟨hi, m, hm, hp⟩
          obtain ⟨m', hm', hsame, -⟩ := hstays hm hi
          exact ⟨m', hm', hsame.trans hp⟩
      refine ⟨?_, ?_, ?_, ?_, ?_⟩
      · intro i a ha
        obtain ⟨ha, hsrc, -⟩ := (arc?_removeNode hn).mp ha
        obtain ⟨m, hm, hlt⟩ := h.source ha
        obtain ⟨m', hm', -, -, hout, -⟩ := hstays hm (hgone.mp hsrc)
        exact ⟨m', hm', hout ▸ hlt⟩
      · intro i a p ha hp
        obtain ⟨ha, -, hdst⟩ := (arc?_removeNode hn).mp ha
        obtain ⟨m, hm, hlt⟩ := h.target ha hp
        have hp : a.dstNode = some p.node := by simp [Arc.dstNode, Arc.dstPort, hp]
        obtain ⟨m', hm', -, hin, -⟩ := hstays hm (hgone.mp (hdst _ hp))
        exact ⟨m', hm', hin ▸ hlt⟩
      · intro i p hp
        obtain ⟨hi, hp⟩ := hparents.mp hp
        obtain ⟨hne, hpstays⟩ := not_or.mp (mt (h.below_parent hp).mpr hi)
        obtain ⟨m, hm, hone⟩ := h.listed hp
        obtain ⟨m', hm', -, -, -, hcount⟩ := hstays hm hpstays
        exact ⟨m', hm', by simp [hcount, hne, hone]⟩
      · intro i m' c hm' hc
        obtain ⟨hi, m, hm⟩ := hcases hm'
        obtain ⟨m'', hm'', -, -, -, hcount⟩ := hstays hm hi
        cases hm'.symm.trans hm''
        have hpos := List.count_pos_iff.mpr hc
        rw [hcount] at hpos
        split at hpos
        · exact absurd hpos (Nat.lt_irrefl 0)
        · rename_i hother
          have hp := h.back hm (List.count_pos_iff.mp hpos)
          refine hparents.mpr ⟨?_, hp⟩
          rw [h.below_parent hp, not_or]
          refine ⟨?_, hi⟩
          rintro rfl
          obtain ⟨n', hn', hp⟩ := hp
          cases hn.symm.trans hn'
          exact hother ⟨hp, rfl⟩
      · intro i p hp
        exact h.older (hparents.mp hp).2

end Removal

section Arcs

variable {src : PortRef} {dst : ArcSink} {id : ArcId}

/-- The ends of an arc that is there are ports. -/
theorem Consistent.ends (h : g.Consistent) {a : Arc} (ha : g.arc? id = some a) :
    g.HasOutput a.src ∧ ∀ p, a.dst = .port p → g.HasInput p :=
  ⟨h.source ha, fun _ => h.target ha⟩

theorem Consistent.addArc (h : g.Consistent) (hsrc : g.HasOutput src)
    (hdst : ∀ p, dst = .port p → g.HasInput p) (hadd : g.addArc src dst = .ok (id, g')) :
    g'.Consistent := by
  obtain ⟨-, harcs, hnodes⟩ := placeArc_spec hadd
  refine h.of_arcs hnodes ?_
  intro i a ha
  rw [harcs] at ha
  split at ha
  · cases ha
    exact ⟨hsrc, hdst⟩
  · exact h.ends ha

theorem Consistent.modifyArc (h : g.Consistent) (id : ArcId) {f : Arc → Arc}
    (hsrc : ∀ a, (f a).src = a.src ∨ g.HasOutput (f a).src) (hdst : ∀ a, (f a).dst = a.dst) :
    (g.modifyArc id f).Consistent := by
  refine h.of_arcs rfl ?_
  intro i a ha
  rw [arc?_modifyArc] at ha
  split at ha
  · obtain ⟨old, hold, rfl⟩ := Option.map_eq_some_iff.mp ha
    obtain ⟨hstart, hend⟩ := h.ends hold
    refine ⟨?_, fun p hp => hend p (hdst old ▸ hp)⟩
    rcases hsrc old with hsame | hport
    · exact hsame ▸ hstart
    · exact hport
  · exact h.ends ha

theorem Consistent.removeArc (h : g.Consistent) (id : ArcId) : (g.removeArc id).Consistent := by
  refine h.of_arcs rfl ?_
  intro i a ha
  have ha : (g.arcs.erase id)[i]? = some a := ha
  rw [Std.ExtTreeMap.getElem?_erase] at ha
  split at ha
  · cases ha
  · exact h.ends ha

theorem Consistent.spliceArc {via : NodeId} {r : Option ArcId} (h : g.Consistent)
    (hin : g.HasInput ⟨via, 0⟩) (hout : g.HasOutput ⟨via, 0⟩)
    (hsplice : g.spliceArc id via = .ok (r, g')) : g'.Consistent := by
  cases ha : g.arc? id with
  | none =>
      simp only [Graph.spliceArc, ha] at hsplice
      cases hsplice
      exact h
  | some old =>
      obtain ⟨next, -, hnodes, harcs⟩ := spliceArc_spec ha hsplice
      obtain ⟨hstart, hend⟩ := h.ends ha
      refine h.of_arcs hnodes ?_
      intro i a hi
      rw [harcs] at hi
      split at hi
      · cases hi
        refine ⟨hstart, ?_⟩
        rintro p ⟨⟩
        exact hin
      · split at hi
        · cases hi
          exact ⟨hout, hend⟩
        · exact h.ends hi

end Arcs

section Acyclic

/-- A container of a container is older still, so no node contains itself. -/
theorem Consistent.acyclic (h : g.Consistent) (id : NodeId) :
    ¬Relation.TransGen g.Parent id id := by
  have holder : ∀ {i p}, Relation.TransGen g.Parent i p → p.val < i.val := by
    intro i p hchain
    induction hchain with
    | single hp => exact h.older hp
    | tail _ hp ih => exact UInt32.lt_trans (h.older hp) ih
  intro hloop
  exact UInt32.lt_irrefl _ (holder hloop)

theorem consistent_empty : empty.Consistent := by
  have hnode : ∀ i, empty.node? i = none := fun i => Std.ExtTreeMap.getElem?_empty
  have harc : ∀ i, empty.arc? i = none := fun i => Std.ExtTreeMap.getElem?_empty
  have hparent : ∀ {i p}, ¬empty.Parent i p := by
    rintro i p ⟨n, hn, -⟩
    rw [hnode] at hn
    cases hn
  refine ⟨?_, ?_, fun hp => absurd hp hparent, ?_, fun hp => absurd hp hparent⟩
  · intro id a ha
    rw [harc] at ha
    cases ha
  · intro id a p ha
    rw [harc] at ha
    cases ha
  · intro id n c hn
    rw [hnode] at hn
    cases hn

end Acyclic

end Graph
end Dataflow
