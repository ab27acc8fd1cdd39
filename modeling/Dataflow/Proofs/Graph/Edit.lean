import Dataflow.Graph.Edit
import Dataflow.Proofs.Graph.Table
import Dataflow.Proofs.Trap

/-!
# Look-ups after a change

What can be looked up in a graph after it was changed, in terms of what could be looked up before.
Later proofs use these equations and do not open the changes.
-/

namespace Dataflow
namespace Graph

section Tables

variable {g g' : Graph}

/-- A node that was placed has a fresh number, and nothing else has changed. -/
theorem placeNode_spec {n : Node} {id : NodeId} (h : g.placeNode n = .ok (id, g')) :
    g.node? id = none ∧ (∀ i, g'.node? i = if i = id then some n else g.node? i) ∧
      g'.arcs = g.arcs := by
  obtain ⟨_, htake, ⟨⟩⟩ := withValue_eq_ok_iff.mp h
  obtain ⟨hid, -⟩ := IdSupply.takeNode_eq_ok_iff.mp htake
  refine ⟨getElem?_eq_none_of_next g.node_lt (congrArg NodeId.val hid), ?_, rfl⟩
  exact fun i => getElem?_insert_eq _ i n

/-- An arc that was placed has a fresh number, and nothing else has changed. -/
theorem placeArc_spec {a : Arc} {id : ArcId} (h : g.placeArc a = .ok (id, g')) :
    g.arc? id = none ∧ (∀ i, g'.arc? i = if i = id then some a else g.arc? i) ∧
      g'.nodes = g.nodes := by
  obtain ⟨_, htake, ⟨⟩⟩ := withValue_eq_ok_iff.mp h
  obtain ⟨hid, -⟩ := IdSupply.takeArc_eq_ok_iff.mp htake
  refine ⟨getElem?_eq_none_of_next g.arc_lt (congrArg ArcId.val hid), ?_, rfl⟩
  exact fun i => getElem?_insert_eq _ i a

theorem node?_modifyNode (id i : NodeId) (f : Node → Node) :
    (g.modifyNode id f).node? i = if i = id then (g.node? i).map f else g.node? i :=
  getElem?_modify_eq id i f

theorem arc?_modifyArc (id i : ArcId) (f : Arc → Arc) :
    (g.modifyArc id f).arc? i = if i = id then (g.arc? i).map f else g.arc? i :=
  getElem?_modify_eq id i f

end Tables

section Channels

variable {g g' : Graph}

/-- A channel that was added has a fresh number.  Its container lists it, and nothing else has
changed. -/
theorem addChannel_spec {parent : Option NodeId} {name : String} {spec : ChannelSpec}
    {partition : PartitionId} {ty : Option ElemType} {c : NodeId}
    (h : g.addChannel parent name spec partition ty = .ok (c, g')) :
    g.node? c = none ∧ g'.arcs = g.arcs ∧
      g'.node? c = some
        { name, kind := .channel spec, inputs := [{ ty }], outputs := [{ ty }],
          partition := some partition, parent } ∧
      ∀ i, i ≠ c → g'.node? i =
        if parent = some i then (g.node? i).map fun n => { n with kind := n.kind.adopt false c }
        else g.node? i := by
  unfold addChannel at h
  obtain ⟨⟨_, mid⟩, hadd, h⟩ := bind_eq_ok_iff.mp h
  cases h
  unfold addNode at hadd
  obtain ⟨⟨_, start⟩, hplace, hadd⟩ := bind_eq_ok_iff.mp hadd
  obtain ⟨hfresh, hnodes, harcs⟩ := placeNode_spec hplace
  cases parent with
  | none =>
      cases hadd
      refine ⟨hfresh, harcs, ?_, ?_⟩
      · simp [node?_modifyNode, hnodes]
      · intro i hi
        simp [node?_modifyNode, hnodes, hi]
  | some p =>
      cases hadd
      refine ⟨hfresh, harcs, ?_, ?_⟩
      · by_cases hp : c = p
        · simp [node?_modifyNode, hnodes, ← hp, NodeKind.adopt]
        · simp [node?_modifyNode, hnodes, hp]
      · intro i hi
        by_cases hp : i = p
        · subst hp
          simp [node?_modifyNode, hnodes, hi, NodeKind.isRateChange]
        · simp [node?_modifyNode, hnodes, hi, hp, Ne.symm hp]

end Channels

section Arcs

variable {g g' : Graph}

/-- An arc that was led through a node ends there, and a fresh arc leads on. -/
theorem spliceArc_spec {id : ArcId} {via : NodeId} {a : Arc} {r : Option ArcId}
    (ha : g.arc? id = some a) (h : g.spliceArc id via = .ok (r, g')) :
    ∃ next, g.arc? next = none ∧ g'.nodes = g.nodes ∧
      ∀ i, g'.arc? i =
        if i = id then some { a with dst := .port ⟨via, 0⟩ }
        else if i = next then some { a with src := ⟨via, 0⟩ }
        else g.arc? i := by
  unfold spliceArc at h
  rw [ha] at h
  obtain ⟨⟨next, mid⟩, hplace, h⟩ := bind_eq_ok_iff.mp h
  cases h
  obtain ⟨hfresh, harcs, hnodes⟩ := placeArc_spec hplace
  refine ⟨next, hfresh, hnodes, ?_⟩
  intro i
  rw [arc?_modifyArc, harcs]
  by_cases hi : i = id
  · subst hi
    have hne : i ≠ next := by
      intro he
      rw [he, hfresh] at ha
      cases ha
    simp [hne, ha]
  · simp [hi]

/-- Moving the start of an arc changes nothing else. -/
theorem arc?_redirectSource {id : ArcId} {src : PortRef} (i : ArcId) :
    (g.redirectSource id src).arc? i =
      if i = id then (g.arc? i).map fun a => { a with src } else g.arc? i :=
  arc?_modifyArc id i _

end Arcs

end Graph

section Supply

/-- The number after the last one is not in the word. -/
theorem addWord_one_eq_error_iff {a : UInt32} {t : Trap} :
    addWord a 1 = .error t ↔ t = .addOverflow ∧ a.toNat + 1 = wordLimit := by
  have hlt : a.toNat < wordLimit := a.toNat_lt_size
  have hone : (1 : UInt32).toNat = 1 := rfl
  unfold addWord
  rw [hone]
  split
  · exact iff_of_false nofun fun h => by omega
  · rw [Except.error.injEq, eq_comm]
    exact ⟨fun h => ⟨h, by omega⟩, And.left⟩

theorem IdSupply.takeNode_eq_error_iff {ids : IdSupply} {t : Trap} :
    ids.takeNode = .error t ↔ t = .addOverflow ∧ ids.nextNode.toNat + 1 = wordLimit :=
  (bind_eq_error_iff fun _ => ⟨_, rfl⟩).trans addWord_one_eq_error_iff

theorem IdSupply.takeArc_eq_error_iff {ids : IdSupply} {t : Trap} :
    ids.takeArc = .error t ↔ t = .addOverflow ∧ ids.nextArc.toNat + 1 = wordLimit :=
  (bind_eq_error_iff fun _ => ⟨_, rfl⟩).trans addWord_one_eq_error_iff

namespace Graph

variable {g g' : Graph}

/-- Placing a node takes the next number for nodes, and no number for arcs. -/
theorem placeNode_ids {n : Node} {id : NodeId} (h : g.placeNode n = .ok (id, g')) :
    id = ⟨g.ids.nextNode⟩ ∧ g'.ids.nextNode.toNat = g.ids.nextNode.toNat + 1 ∧
      g'.ids.nextArc = g.ids.nextArc := by
  obtain ⟨_, htake, ⟨⟩⟩ := withValue_eq_ok_iff.mp h
  exact IdSupply.takeNode_eq_ok_iff.mp htake

/-- Placing an arc takes the next number for arcs, and no number for nodes. -/
theorem placeArc_ids {a : Arc} {id : ArcId} (h : g.placeArc a = .ok (id, g')) :
    id = ⟨g.ids.nextArc⟩ ∧ g'.ids.nextArc.toNat = g.ids.nextArc.toNat + 1 ∧
      g'.ids.nextNode = g.ids.nextNode := by
  obtain ⟨_, htake, ⟨⟩⟩ := withValue_eq_ok_iff.mp h
  exact IdSupply.takeArc_eq_ok_iff.mp htake

theorem addChannel_ids {parent : Option NodeId} {name : String} {spec : ChannelSpec}
    {partition : PartitionId} {ty : Option ElemType} {c : NodeId}
    (h : g.addChannel parent name spec partition ty = .ok (c, g')) :
    c = ⟨g.ids.nextNode⟩ ∧ g'.ids.nextNode.toNat = g.ids.nextNode.toNat + 1 ∧
      g'.ids.nextArc = g.ids.nextArc := by
  unfold addChannel addNode at h
  obtain ⟨⟨_, mid⟩, hadd, h⟩ := bind_eq_ok_iff.mp h
  cases h
  obtain ⟨⟨_, start⟩, hplace, hadd⟩ := bind_eq_ok_iff.mp hadd
  have hids := placeNode_ids hplace
  cases parent with
  | none =>
      cases hadd
      exact hids
  | some p =>
      cases hadd
      exact hids

theorem spliceArc_ids {id : ArcId} {via : NodeId} {a : Arc} {r : Option ArcId}
    (ha : g.arc? id = some a) (h : g.spliceArc id via = .ok (r, g')) :
    g'.ids.nextArc.toNat = g.ids.nextArc.toNat + 1 ∧ g'.ids.nextNode = g.ids.nextNode := by
  unfold spliceArc at h
  rw [ha] at h
  obtain ⟨⟨next, mid⟩, hplace, h⟩ := bind_eq_ok_iff.mp h
  cases h
  exact (placeArc_ids hplace).2

theorem placeNode_eq_error_iff {n : Node} {t : Trap} :
    g.placeNode n = .error t ↔ t = .addOverflow ∧ g.ids.nextNode.toNat + 1 = wordLimit :=
  withValue_eq_error_iff.trans IdSupply.takeNode_eq_error_iff

theorem placeArc_eq_error_iff {a : Arc} {t : Trap} :
    g.placeArc a = .error t ↔ t = .addOverflow ∧ g.ids.nextArc.toNat + 1 = wordLimit :=
  withValue_eq_error_iff.trans IdSupply.takeArc_eq_error_iff

/-- A node can be placed as long as the supply has another number for nodes. -/
theorem exists_placeNode (h : g.ids.nextNode.toNat + 1 < wordLimit) (n : Node) :
    ∃ id g', g.placeNode n = .ok (id, g') :=
  Prod.exists.mp <| exists_eq_ok fun _ he => Nat.ne_of_lt h (placeNode_eq_error_iff.mp he).2

/-- An arc can be placed as long as the supply has another number for arcs. -/
theorem exists_placeArc (h : g.ids.nextArc.toNat + 1 < wordLimit) (a : Arc) :
    ∃ id g', g.placeArc a = .ok (id, g') :=
  Prod.exists.mp <| exists_eq_ok fun _ he => Nat.ne_of_lt h (placeArc_eq_error_iff.mp he).2

theorem exists_addChannel (h : g.ids.nextNode.toNat + 1 < wordLimit) (parent : Option NodeId)
    (name : String) (spec : ChannelSpec) (partition : PartitionId) (ty : Option ElemType) :
    ∃ c g', g.addChannel parent name spec partition ty = .ok (c, g') := by
  unfold addChannel addNode
  obtain ⟨c, mid, hplace⟩ := exists_placeNode h
    { name, kind := .channel spec, inputs := List.replicate 1 {}, outputs := List.replicate 1 {},
      partition := some partition, parent }
  rw [hplace]
  cases parent with
  | none => exact ⟨_, _, rfl⟩
  | some p => exact ⟨_, _, rfl⟩

theorem exists_spliceArc {id : ArcId} {a : Arc} (h : g.ids.nextArc.toNat + 1 < wordLimit)
    (ha : g.arc? id = some a) (via : NodeId) : ∃ r g', g.spliceArc id via = .ok (r, g') := by
  unfold spliceArc
  rw [ha]
  obtain ⟨next, mid, hplace⟩ := exists_placeArc h { a with src := ⟨via, 0⟩ }
  dsimp only
  rw [hplace]
  exact ⟨_, _, rfl⟩

end Graph

end Supply

end Dataflow
