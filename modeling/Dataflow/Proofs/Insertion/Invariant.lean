import Dataflow.Proofs.Graph.Extension
import Dataflow.Proofs.Insertion.Step

/-!
# What insertion keeps

A graph on its way to having all its channels is described by the graph that it came from and by the
routes chosen so far: which channel stands for which needs.

* A node of the old graph is still there, a container perhaps with channels added; every other node
  is a channel that was made for an arc of the old graph.
* An arc is an old one as it was, or an old one that now ends at a channel, or one that leads from a
  channel to where an old arc ended (`Insertion.Fate`).
* Every channel has one arc that ends there, and it starts where the arcs of the channel started.

All of this is kept by every step (`Insertion.Extends.step`), for any analysis and any policy.
-/

namespace Dataflow
namespace Insertion

section Defs

/-- Which channel stands for which needs. -/
def routes (s : Insertion) : List (ShareKey × NodeId) := s.entries.map fun e => (e.1, e.2.channel)

/-- The channels that were inserted. -/
def channels (s : Insertion) : List NodeId := s.routes.map Prod.snd

/-- The arcs that ride an inserted channel. -/
def carried (s : Insertion) : List ArcId := s.entries.flatMap fun e => e.2.arcs

/-- What has become of the arcs of `g`: an arc that now has the number `id`. -/
inductive Fate (g : Graph) (a : DomainAnalysis) (p : ChannelPolicy) (s : Insertion) (id : ArcId) :
    Arc → Prop
  | kept {arc : Arc} : g.arc? id = some arc → id ∉ s.carried → Fate g a p s id arc
  | enters {arc : Arc} {dst : PortRef} {key : ShareKey} {capacity : UInt32} {c : NodeId} :
      (key, c) ∈ s.routes → id ∈ s.carried → g.Needs a p id arc dst key capacity →
      Fate g a p s id { arc with dst := .port ⟨c, 0⟩ }
  | leaves {arc : Arc} {dst : PortRef} {key : ShareKey} {capacity : UInt32} {c : NodeId}
      {lead : ArcId} :
      (key, c) ∈ s.routes → lead ∈ s.carried → g.Needs a p lead arc dst key capacity →
      Fate g a p s id { arc with src := ⟨c, 0⟩ }

/-- The graph of `s` came from `g` by leading arcs through the channels of `s`. -/
structure Extends (g : Graph) (a : DomainAnalysis) (p : ChannelPolicy) (s : Insertion) :
    Prop where
  old : ∀ {id n}, g.node? id = some n →
    ∃ more, s.graph.node? id = some (n.withChildren more) ∧ ∀ c ∈ more, c ∈ s.channels
  new : ∀ {id n}, s.graph.node? id = some n → g.node? id = none → id ∈ s.channels
  channel : ∀ {key c}, (key, c) ∈ s.routes → g.node? c = none ∧
    ∃ lead arc dst capacity, g.Needs a p lead arc dst key capacity ∧
      s.graph.node? c = some (g.channelNode arc dst key capacity)
  fate : ∀ {id arc}, s.graph.arc? id = some arc → Fate g a p s id arc
  waiting : ∀ {id arc}, g.arc? id = some arc → id ∉ s.carried → s.graph.arc? id = some arc
  writer : ∀ {key c}, (key, c) ∈ s.routes → ∃ id arc, s.graph.Writer c id arc ∧ arc.src = key.src

end Defs

section Routes

variable {s s' : Insertion} {id : ArcId}

@[simp] theorem mem_channels {c : NodeId} : c ∈ s.channels ↔ ∃ key, (key, c) ∈ s.routes := by
  simp [channels]

/-- Sharing a channel opens no route. -/
@[simp] theorem routes_share (key : ShareKey) (entry : InsertedChannel) :
    (s.share id key entry).routes = s.routes := by
  simp only [routes, share, List.map_map]
  refine List.map_congr_left ?_
  intro e _
  by_cases he : e.1 = key <;> simp [he]

theorem mem_carried_share {e : ShareKey × InsertedChannel} (he : e ∈ s.entries) {i : ArcId} :
    i ∈ (s.share id e.1 e.2).carried ↔ i = id ∨ i ∈ s.carried := by
  simp only [carried, share, List.mem_flatMap, List.mem_map]
  constructor
  · rintro ⟨_, ⟨d, hd, rfl⟩, hi⟩
    by_cases hkey : d.1 = e.1
    · rw [if_pos hkey, List.mem_append, List.mem_singleton] at hi
      exact hi.symm.imp_right fun hi => ⟨d, hd, hi⟩
    · rw [if_neg hkey] at hi
      exact .inr ⟨d, hd, hi⟩
  · rintro (rfl | ⟨d, hd, hi⟩)
    · exact ⟨_, ⟨e, he, rfl⟩, by simp⟩
    · refine ⟨_, ⟨d, hd, rfl⟩, ?_⟩
      by_cases hkey : d.1 = e.1 <;> simp [hkey, hi]

variable {arc : Arc} {dst : PortRef} {crossing : Crossing} {key : ShareKey} {capacity : UInt32}
  {c : NodeId} {next : ArcId}

theorem Led.mem_routes (h : s.Led id arc dst crossing key capacity c next s')
    {x : ShareKey × NodeId} : x ∈ s'.routes ↔ x ∈ s.routes ∨ x = (key, c) := by
  simp [routes, h.entries]

theorem Led.mem_carried (h : s.Led id arc dst crossing key capacity c next s') {i : ArcId} :
    i ∈ s'.carried ↔ i ∈ s.carried ∨ i = id := by
  simp [carried, h.entries]

/-- Of the old nodes only the container of the channel may change. -/
theorem Led.node?_eq (h : s.Led id arc dst crossing key capacity c next s') {i : NodeId} {n : Node}
    (hn : s.graph.node? i = some n) :
    s'.graph.node? i = some n ∨
      s'.graph.node? i = some { n with kind := n.kind.adopt false c } := by
  have hi : i ≠ c := by
    rintro rfl
    cases h.node_fresh.symm.trans hn
  rw [h.others i hi, hn]
  split
  · exact .inr rfl
  · exact .inl rfl

theorem Led.exists_node? (h : s.Led id arc dst crossing key capacity c next s') {i : NodeId}
    {n : Node} (hi : i ≠ c) (hn : s'.graph.node? i = some n) :
    ∃ m, s.graph.node? i = some m := by
  rw [h.others i hi] at hn
  cases hold : s.graph.node? i with
  | none => simp [hold] at hn
  | some m => exact ⟨m, rfl⟩

end Routes

section Views

variable {g : Graph} {a : DomainAnalysis} {p : ChannelPolicy} {s : Insertion}

theorem Extends.keepsNodes (h : Extends g a p s) : g.KeepsNodes s.graph := by
  intro id n hn
  obtain ⟨more, hn', -⟩ := h.old hn
  exact ⟨more, hn'⟩

/-- A number that is free is no number of an old node. -/
theorem Extends.fresh (h : Extends g a p s) {c : NodeId} (hc : s.graph.node? c = none) :
    g.node? c = none := by
  by_contra hold
  obtain ⟨n, hn⟩ := Option.ne_none_iff_exists'.mp hold
  obtain ⟨more, hn', -⟩ := h.old hn
  rw [hc] at hn'
  cases hn'

/-- An old node is no inserted channel. -/
theorem Extends.ne_channel (h : Extends g a p s) {id : NodeId} {n : Node}
    (hn : g.node? id = some n) {key : ShareKey} {c : NodeId} (hc : (key, c) ∈ s.routes) :
    id ≠ c := by
  rintro rfl
  rw [(h.channel hc).1] at hn
  cases hn

theorem Fate.mono {s' : Insertion} {id : ArcId} {arc : Arc}
    (hroutes : ∀ {x}, x ∈ s.routes → x ∈ s'.routes)
    (hcarried : ∀ {i}, i ∈ s.carried → i ∈ s'.carried)
    (hfree : id ∉ s.carried → id ∉ s'.carried) (h : Fate g a p s id arc) :
    Fate g a p s' id arc := by
  cases h with
  | kept harc hid => exact .kept harc (hfree hid)
  | enters hroute hid hneeds => exact .enters (hroutes hroute) (hcarried hid) hneeds
  | leaves hroute hid hneeds => exact .leaves (hroutes hroute) (hcarried hid) hneeds

variable (hg : g.ReferencesExist)
include hg

theorem Extends.exists_node (h : Extends g a p s) {id : ArcId} {arc : Arc} {dst : PortRef}
    {key : ShareKey} {capacity : UInt32} (hneeds : g.Needs a p id arc dst key capacity) :
    (∃ n, s.graph.node? arc.src.node = some n) ∧ ∃ n, s.graph.node? dst.node = some n := by
  obtain ⟨n, hn, -⟩ := hg.source hneeds.arc_eq
  obtain ⟨m, hm, -⟩ := hg.target hneeds.arc_eq hneeds.ends
  obtain ⟨_, hn', -⟩ := h.old hn
  obtain ⟨_, hm', -⟩ := h.old hm
  exact ⟨⟨_, hn'⟩, ⟨_, hm'⟩⟩

omit s in
/-- An arc that needs a channel ends at an old node. -/
theorem dstNode_ne_of_needs {id : ArcId} {arc : Arc} {dst : PortRef} {key : ShareKey}
    {capacity : UInt32} (hneeds : g.Needs a p id arc dst key capacity) {c : NodeId}
    (hc : g.node? c = none) : arc.dstNode ≠ some c := by
  intro hend
  obtain ⟨q, hq, rfl⟩ := Arc.dstNode_eq_some.mp hend
  obtain ⟨n, hn, -⟩ := hg.target hneeds.arc_eq hq
  cases hc.symm.trans hn

/-- No arc starts or ends at a number that is free. -/
theorem Extends.ends (h : Extends g a p s) {id : ArcId} {arc : Arc}
    (harc : s.graph.arc? id = some arc) :
    (∃ n, s.graph.node? arc.src.node = some n) ∧
      ∀ q, arc.dst = .port q → ∃ n, s.graph.node? q.node = some n := by
  cases h.fate harc with
  | kept hold _ =>
      obtain ⟨n, hn, -⟩ := hg.source hold
      obtain ⟨_, hn', -⟩ := h.old hn
      refine ⟨⟨_, hn'⟩, ?_⟩
      intro q hq
      obtain ⟨m, hm, -⟩ := hg.target hold hq
      obtain ⟨_, hm', -⟩ := h.old hm
      exact ⟨_, hm'⟩
  | enters hroute _ hneeds =>
      obtain ⟨-, _, _, _, _, -, hc⟩ := h.channel hroute
      refine ⟨(h.exists_node hg hneeds).1, ?_⟩
      rintro q ⟨⟩
      exact ⟨_, hc⟩
  | leaves hroute _ hneeds =>
      obtain ⟨-, _, _, _, _, -, hc⟩ := h.channel hroute
      refine ⟨⟨_, hc⟩, ?_⟩
      intro q hq
      cases hneeds.ends.symm.trans hq
      exact (h.exists_node hg hneeds).2

/-- An arc that waits needs the same in the graph of `s` as in `g`. -/
theorem Extends.needs (h : Extends g a p s) {id : ArcId} {arc arc' : Arc} {dst : PortRef}
    {key : ShareKey} {capacity : UInt32} (harc : g.arc? id = some arc) (hwait : id ∉ s.carried)
    (hneeds : s.graph.Needs a p id arc' dst key capacity) :
    g.Needs a p id arc' dst key capacity := by
  have heq : arc = arc' := Option.some.inj ((h.waiting harc hwait).symm.trans hneeds.arc_eq)
  subst heq
  obtain ⟨n, hn, -⟩ := hg.target harc hneeds.ends
  refine ⟨harc, hneeds.ends, hneeds.starts, ?_, ?_, hneeds.block, hneeds.room⟩
  · rw [← h.keepsNodes.partitionOf_eq hn]
    exact hneeds.partition
  · rw [← h.keepsNodes.inputDomain_eq hg hn]
    exact hneeds.domain

/-- The channel for an arc is the same, whether it is made in the graph of `s` or in `g`. -/
theorem Extends.channelNode_eq (h : Extends g a p s) {id : ArcId} {arc : Arc} {dst : PortRef}
    {key : ShareKey} {capacity : UInt32} (hneeds : g.Needs a p id arc dst key capacity) :
    s.graph.channelNode arc dst key capacity = g.channelNode arc dst key capacity := by
  obtain ⟨n, hn, -⟩ := hg.source hneeds.arc_eq
  obtain ⟨m, hm, -⟩ := hg.target hneeds.arc_eq hneeds.ends
  obtain ⟨_, hn', -⟩ := h.old hn
  obtain ⟨_, hm', -⟩ := h.old hm
  simp [Graph.channelNode, Graph.channelName, hn, hn', hm, hm', h.keepsNodes.outputType_eq hn,
    h.keepsNodes.inputContainer_eq hg hm]

end Views

section Steps

variable {g : Graph} {a : DomainAnalysis} {p : ChannelPolicy} {s s' : Insertion}
  {id : ArcId} {arc : Arc} {dst : PortRef} {capacity : UInt32}

@[simp] theorem node?_share (key : ShareKey) (entry : InsertedChannel) (i : NodeId) :
    (s.share id key entry).graph.node? i = s.graph.node? i := rfl

theorem arc?_share (key : ShareKey) (entry : InsertedChannel)
    (harc : s.graph.arc? id = some arc) (i : ArcId) :
    (s.share id key entry).graph.arc? i =
      if i = id then some { arc with src := ⟨entry.channel, 0⟩ } else s.graph.arc? i := by
  show (s.graph.redirectSource id ⟨entry.channel, 0⟩).arc? i = _
  rw [Graph.arc?_redirectSource]
  by_cases hi : i = id
  · subst hi
    simp [harc]
  · simp [hi]

/-- The arc that shares a channel ends at none, so every channel keeps its writer. -/
theorem Extends.writer_share (h : Extends g a p s) (hg : g.ReferencesExist)
    {e : ShareKey × InsertedChannel} (hneeds : g.Needs a p id arc dst e.1 capacity)
    (harc : s.graph.arc? id = some arc) {key : ShareKey} {c : NodeId} (hc : (key, c) ∈ s.routes)
    {w : ArcId} {b : Arc} (hw : s.graph.Writer c w b) :
    (s.share id e.1 e.2).graph.Writer c w b := by
  have hlook := arc?_share e.1 e.2 harc
  have haway : arc.dstNode ≠ some c := dstNode_ne_of_needs hg hneeds (h.channel hc).1
  have hne : w ≠ id := by
    rintro rfl
    cases harc.symm.trans hw.arc_eq
    exact haway hw.ends
  refine ⟨?_, hw.ends, ?_⟩
  · rw [hlook, if_neg hne]
    exact hw.arc_eq
  · intro i d hd hend
    rw [hlook] at hd
    by_cases hi : i = id
    · rw [if_pos hi] at hd
      cases hd
      exact absurd hend haway
    · rw [if_neg hi] at hd
      exact hw.only hd hend

/-- Sharing a channel: one arc moves its start, and no arc moves its end. -/
theorem Extends.share (h : Extends g a p s) (hg : g.ReferencesExist)
    {e : ShareKey × InsertedChannel} (he : e ∈ s.entries)
    (hneeds : g.Needs a p id arc dst e.1 capacity) (hwait : id ∉ s.carried) :
    Extends g a p (s.share id e.1 e.2) := by
  have hroute : (e.1, e.2.channel) ∈ s.routes := List.mem_map.mpr ⟨e, he, rfl⟩
  have harc := h.waiting hneeds.arc_eq hwait
  have hlook := arc?_share e.1 e.2 harc
  refine ⟨?_, ?_, ?_, ?_, ?_, ?_⟩
  · intro i n hn
    simpa using h.old hn
  · intro i n hn hnew
    simpa using h.new hn hnew
  · intro key c hc
    exact h.channel (by simpa using hc)
  · intro i b hb
    rw [hlook] at hb
    by_cases hi : i = id
    · rw [if_pos hi] at hb
      cases hb
      exact .leaves (by simpa using hroute) ((mem_carried_share he).mpr (.inl rfl)) hneeds
    · rw [if_neg hi] at hb
      refine (h.fate hb).mono (by simp) (fun hx => (mem_carried_share he).mpr (.inr hx)) ?_
      intro hfree
      rw [mem_carried_share he, not_or]
      exact ⟨hi, hfree⟩
  · intro i b hb hfree
    rw [mem_carried_share he, not_or] at hfree
    rw [hlook, if_neg hfree.1]
    exact h.waiting hb hfree.2
  · intro key c hc
    rw [routes_share] at hc
    obtain ⟨w, b, hw, hsrc⟩ := h.writer hc
    exact ⟨w, b, h.writer_share hg hneeds harc hc hw, hsrc⟩

end Steps

section Leading

variable {g : Graph} {a : DomainAnalysis} {p : ChannelPolicy} {s s' : Insertion}
  {id : ArcId} {arc : Arc} {dst : PortRef} {capacity : UInt32} {crossing : Crossing}
  {key : ShareKey} {c : NodeId} {next : ArcId}
  (h : Extends g a p s) (hled : s.Led id arc dst crossing key capacity c next s')
include h hled

theorem Extends.old_lead {i : NodeId} {n : Node} (hn : g.node? i = some n) :
    ∃ more, s'.graph.node? i = some (n.withChildren more) ∧ ∀ d ∈ more, d ∈ s'.channels := by
  obtain ⟨more, hold, hmore⟩ := h.old hn
  have hkeep : ∀ d ∈ more, d ∈ s'.channels := by
    intro d hd
    obtain ⟨k, hk⟩ := mem_channels.mp (hmore d hd)
    exact mem_channels.mpr ⟨k, hled.mem_routes.mpr (.inl hk)⟩
  rcases hled.node?_eq hold with heq | heq
  · exact ⟨more, heq, hkeep⟩
  · refine ⟨more ++ [c], ?_, ?_⟩
    · rw [heq, Node.kind_withChildren, NodeKind.adopt_withChildren]
      rfl
    · intro d hd
      rcases List.mem_append.mp hd with hd | hd
      · exact hkeep d hd
      · rw [List.mem_singleton.mp hd]
        exact mem_channels.mpr ⟨key, hled.mem_routes.mpr (.inr rfl)⟩

theorem Extends.new_lead {i : NodeId} {n : Node} (hn : s'.graph.node? i = some n)
    (hnew : g.node? i = none) : i ∈ s'.channels := by
  by_cases hi : i = c
  · exact mem_channels.mpr ⟨key, hled.mem_routes.mpr (.inr (by rw [hi]))⟩
  · obtain ⟨m, hm⟩ := hled.exists_node? hi hn
    obtain ⟨k, hk⟩ := mem_channels.mp (h.new hm hnew)
    exact mem_channels.mpr ⟨k, hled.mem_routes.mpr (.inl hk)⟩

variable (hg : g.ReferencesExist) (hneeds : g.Needs a p id arc dst key capacity)
include hg hneeds

/-- Channels are no containers, so the earlier ones stay as they are. -/
theorem Extends.channel_lead {k : ShareKey} {d : NodeId} (hd : (k, d) ∈ s'.routes) :
    g.node? d = none ∧ ∃ lead arc dst capacity, g.Needs a p lead arc dst k capacity ∧
      s'.graph.node? d = some (g.channelNode arc dst k capacity) := by
  rcases hled.mem_routes.mp hd with hd | hd
  · obtain ⟨hnew, lead, b, q, cap, hb, hnode⟩ := h.channel hd
    refine ⟨hnew, lead, b, q, cap, hb, ?_⟩
    -- adopting a child does nothing to a channel, so both cases give the same node
    rcases hled.node?_eq hnode with heq | heq
    · exact heq
    · exact heq
  · cases hd
    refine ⟨h.fresh hled.node_fresh, id, arc, dst, capacity, hneeds, ?_⟩
    rw [hled.channel, h.channelNode_eq hg hneeds]

omit hg in
theorem Extends.fate_lead {i : ArcId} {b : Arc} (hb : s'.graph.arc? i = some b) :
    Fate g a p s' i b := by
  rw [hled.arcs] at hb
  by_cases hi : i = id
  · rw [if_pos hi] at hb
    cases hb
    rw [hi]
    exact .enters (hled.mem_routes.mpr (.inr rfl)) (hled.mem_carried.mpr (.inr rfl)) hneeds
  · rw [if_neg hi] at hb
    by_cases hnext : i = next
    · rw [if_pos hnext] at hb
      cases hb
      exact .leaves (hled.mem_routes.mpr (.inr rfl)) (hled.mem_carried.mpr (.inr rfl)) hneeds
    · rw [if_neg hnext] at hb
      refine (h.fate hb).mono (fun hx => hled.mem_routes.mpr (.inl hx))
        (fun hx => hled.mem_carried.mpr (.inl hx)) ?_
      intro hfree
      rw [hled.mem_carried, not_or]
      exact ⟨hfree, hi⟩

/-- The arc that was led is the only one that ends at the fresh channel. -/
theorem Extends.writer_fresh :
    s'.graph.Writer c id { arc with dst := .port ⟨c, 0⟩ } := by
  refine ⟨?_, rfl, ?_⟩
  · rw [hled.arcs, if_pos rfl]
  · intro i b hb hend
    rw [hled.arcs] at hb
    split at hb
    · assumption
    · split at hb
      · cases hb
        exact absurd hend (dstNode_ne_of_needs hg hneeds (h.fresh hled.node_fresh))
      · -- an arc from before the step ends at a node from before the step
        obtain ⟨q, hq, rfl⟩ := Arc.dstNode_eq_some.mp hend
        obtain ⟨n, hn⟩ := (h.ends hg hb).2 q hq
        cases hled.node_fresh.symm.trans hn

/-- Neither half of the arc that was led ends at an earlier channel. -/
theorem Extends.writer_lead (harc : s.graph.arc? id = some arc) {k : ShareKey} {d : NodeId}
    (hd : (k, d) ∈ s.routes) {w : ArcId} {b : Arc} (hw : s.graph.Writer d w b) :
    s'.graph.Writer d w b := by
  obtain ⟨hnew, _, _, _, _, -, hnode⟩ := h.channel hd
  have haway : arc.dstNode ≠ some d := dstNode_ne_of_needs hg hneeds hnew
  have hid : w ≠ id := by
    rintro rfl
    cases harc.symm.trans hw.arc_eq
    exact haway hw.ends
  have hnext : w ≠ next := by
    rintro rfl
    cases hled.arc_fresh.symm.trans hw.arc_eq
  refine ⟨?_, hw.ends, ?_⟩
  · rw [hled.arcs, if_neg hid, if_neg hnext]
    exact hw.arc_eq
  · intro i b' hb' hend
    rw [hled.arcs] at hb'
    split at hb'
    · cases hb'
      cases hend
      cases hled.node_fresh.symm.trans hnode
    · split at hb'
      · cases hb'
        exact absurd hend haway
      · exact hw.only hb' hend

/-- Leading an arc through a channel of its own. -/
theorem Extends.lead (hwait : id ∉ s.carried) : Extends g a p s' := by
  have harc := h.waiting hneeds.arc_eq hwait
  refine ⟨h.old_lead hled, h.new_lead hled, h.channel_lead hled hg hneeds,
    h.fate_lead hled hneeds, ?_, ?_⟩
  · intro i b hb hfree
    rw [hled.mem_carried, not_or] at hfree
    have hold := h.waiting hb hfree.1
    have hnext : i ≠ next := by
      rintro rfl
      cases hled.arc_fresh.symm.trans hold
    rw [hled.arcs, if_neg hfree.2, if_neg hnext]
    exact hold
  · intro k d hd
    rcases hled.mem_routes.mp hd with hd | hd
    · obtain ⟨w, b, hw, hsrc⟩ := h.writer hd
      exact ⟨w, b, h.writer_lead hled hg hneeds harc hd hw, hsrc⟩
    · cases hd
      exact ⟨id, _, h.writer_fresh hled hg hneeds, hneeds.starts.symm⟩

end Leading

section Stepping

variable {g : Graph} {a : DomainAnalysis} {p : ChannelPolicy} {s s' : Insertion}
  {i : ArcId} {crossing : Crossing}

/-- Every step keeps the description, for an arc of `g` that still waits. -/
theorem Extends.step (h : Extends g a p s) (hg : g.ReferencesExist) {arc : Arc}
    (harc : g.arc? i = some arc) (hwait : i ∉ s.carried) (hstep : Step a p s i crossing s') :
    Extends g a p s' := by
  cases hstep with
  | skip _ => exact h
  | @refuse d _ =>
      have hfate : ∀ {i b}, s.graph.arc? i = some b → Fate g a p (s.report d) i b := by
        intro i b hb
        exact Fate.mono (s := s) (fun hx => hx) (fun hx => hx) (fun hx => hx) (h.fate hb)
      exact ⟨h.old, h.new, h.channel, hfate, h.waiting, h.writer⟩
  | share hneeds _ he hkey =>
      subst hkey
      exact h.share hg he (h.needs hg harc hwait hneeds) hwait
  | lead hneeds _ hled => exact h.lead hled hg (h.needs hg harc hwait hneeds) hwait

theorem extends_start {ds : List Diagnostic} :
    Extends g a p { graph := g, diagnostics := ds } := by
  refine ⟨?_, ?_, ?_, ?_, ?_, ?_⟩
  · intro id n hn
    exact ⟨[], by simpa using hn, by simp⟩
  · intro id n hn hnew
    cases hnew.symm.trans hn
  · simp [routes]
  · intro id arc harc
    exact .kept harc (by simp [carried])
  · intro id arc harc _
    exact harc
  · simp [routes]

end Stepping

end Insertion
end Dataflow
