import Dataflow.Proofs.Insertion.Run
import Dataflow.Proofs.Validation.Structure

/-!
# Insertion keeps the connections

Leaving out the inserted channels again, so that what is written to a channel goes straight to its
readers, gives back the connections of the graph before insertion, each as often as before
(`insertChannels_connections`).

**Proof.**  A step changes one or two arcs.  All other arcs contribute to the contraction what they
contributed before, since a channel never loses its writer; and the changed arcs contribute together
what the arc that was led contributed.
-/

namespace Dataflow

namespace Graph

section Defs

/-- The connections of a graph: where each arc starts and where it ends. -/
def connections (g : Graph) : List (PortRef × ArcSink) := g.arcList.map fun a => (a.2.src, a.2.dst)

/-- What an arc contributes when the nodes in `via` are left out: nothing if it ends at one, and the
connections from the writers of that node if it starts at one. -/
def through (g : Graph) (via : NodeId → Bool) (arc : Arc) : List (PortRef × ArcSink) :=
  if arc.dstNode.any via then []
  else if via arc.src.node then
    (g.incoming arc.src.node).map fun b => (b.2.src, arc.dst)
  else [(arc.src, arc.dst)]

/-- The connections of a graph without the nodes in `via`. -/
def contract (g : Graph) (via : NodeId → Bool) : List (PortRef × ArcSink) :=
  g.arcList.flatMap fun a => g.through via a.2

/-- Whether a number belongs to a channel of `g'` that `g` does not have. -/
def isNewChannel (g g' : Graph) (c : NodeId) : Bool := (g.node? c).isNone && g'.isChannel c

end Defs

section Contraction

variable {g g' : Graph} {via via' : NodeId → Bool}

theorem contract_none (g : Graph) : g.contract (fun _ => false) = g.connections := by
  simp [contract, through, connections, List.map_eq_flatMap]

/-- A step that replaces one arc keeps the contraction, if the new arcs stand for the old one and
the other arcs contribute what they did. -/
theorem contract_perm {id : ArcId} {arc : Arc} {l : List (ArcId × Arc)}
    (harc : g.arc? id = some arc)
    (hl : g'.arcList.Perm (l ++ g.otherArcs id))
    (hnew : l.flatMap (fun a => g'.through via' a.2) = g.through via arc)
    (hold : ∀ {i a}, g.arc? i = some a → i ≠ id → g'.through via' a = g.through via a) :
    (g'.contract via').Perm (g.contract via) := by
  have hg : g.arcList.Perm ([(id, arc)] ++ g.otherArcs id) := by
    refine arcList_perm_append (List.pairwise_singleton _ _) (by simp) ?_
    intro i a
    rw [List.mem_singleton, Prod.mk.injEq]
    constructor
    · intro ha
      by_cases hi : i = id
      · subst hi
        exact .inl ⟨rfl, Option.some.inj (ha.symm.trans harc)⟩
      · exact .inr ⟨ha, hi⟩
    · rintro (⟨rfl, rfl⟩ | ⟨ha, -⟩)
      · exact harc
      · exact ha
  have hrest : (g.otherArcs id).flatMap (fun a => g'.through via' a.2) =
      (g.otherArcs id).flatMap (fun a => g.through via a.2) := by
    refine List.flatMap_congr ?_
    rintro ⟨i, a⟩ ha
    rw [mem_otherArcs] at ha
    exact hold ha.1 ha.2
  have hboth : (l ++ g.otherArcs id).flatMap (fun a => g'.through via' a.2) =
      ([(id, arc)] ++ g.otherArcs id).flatMap (fun a => g.through via a.2) := by
    rw [List.flatMap_append, List.flatMap_append, hnew, hrest]
    simp
  have hfirst : (g'.contract via').Perm
      ((l ++ g.otherArcs id).flatMap fun a => g'.through via' a.2) := hl.flatMap_right _
  rw [hboth] at hfirst
  exact hfirst.trans (hg.symm.flatMap_right _)

end Contraction

end Graph

namespace Insertion

section Steps

variable {g : Graph} {a : DomainAnalysis} {p : ChannelPolicy} {s s' : Insertion}
  {id : ArcId} {arc : Arc} {crossing : Crossing}

/-- The inserted channels as a test. -/
def inChannels (s : Insertion) (c : NodeId) : Bool := decide (c ∈ s.channels)

theorem inChannels_iff {c : NodeId} : s.inChannels c = true ↔ ∃ key, (key, c) ∈ s.routes := by
  rw [inChannels, decide_eq_true_eq, mem_channels]

/-- An arc from a channel stands for one from where the arcs of the channel started. -/
theorem Extends.through_eq (h : Extends g a p s) {key : ShareKey} {c : NodeId}
    (hroute : (key, c) ∈ s.routes) (hsrc : arc.src.node = c)
    (hdst : arc.dstNode.any s.inChannels = false) :
    s.graph.through s.inChannels arc = [(key.src, arc.dst)] := by
  obtain ⟨w, b, hw, hb⟩ := h.writer hroute
  have hin : s.inChannels c = true := inChannels_iff.mpr ⟨key, hroute⟩
  simp [Graph.through, hdst, hin, hsrc, Graph.incoming_eq_singleton_iff.mpr hw, hb]

/-- An arc contributes the same after a step that kept all routes and opened others only through
fresh channels. -/
theorem Extends.through_congr (h : Extends g a p s) (h' : Extends g a p s')
    (hg : g.ReferencesExist)
    (hkeep : ∀ {x}, x ∈ s.routes → x ∈ s'.routes)
    (hfresh : ∀ {key c}, (key, c) ∈ s'.routes → (key, c) ∈ s.routes ∨ s.graph.node? c = none)
    (harc : s.graph.arc? id = some arc) :
    s'.graph.through s'.inChannels arc = s.graph.through s.inChannels arc := by
  obtain ⟨⟨n, hn⟩, hdst⟩ := h.ends hg harc
  -- a fresh channel is no end of an arc from before the step
  have hsame : ∀ {i n}, s.graph.node? i = some n → s'.inChannels i = s.inChannels i := by
    intro i n hi
    rw [Bool.eq_iff_iff, inChannels_iff, inChannels_iff]
    constructor
    · rintro ⟨key, hkey⟩
      rcases hfresh hkey with hold | hnone
      · exact ⟨key, hold⟩
      · cases hnone.symm.trans hi
    · rintro ⟨key, hkey⟩
      exact ⟨key, hkeep hkey⟩
  have hend : arc.dstNode.any s'.inChannels = arc.dstNode.any s.inChannels := by
    cases hd : arc.dstNode with
    | none => rfl
    | some d =>
        obtain ⟨q, hq, rfl⟩ := Arc.dstNode_eq_some.mp hd
        obtain ⟨m, hm⟩ := hdst q hq
        exact hsame hm
  by_cases hin : arc.dstNode.any s.inChannels = true
  · simp [Graph.through, hend, hin]
  · rw [Bool.not_eq_true] at hin
    by_cases hvia : s.inChannels arc.src.node = true
    · obtain ⟨key, hkey⟩ := inChannels_iff.mp hvia
      rw [h.through_eq hkey rfl hin, h'.through_eq (hkeep hkey) rfl (hend.trans hin)]
    · simp [Graph.through, hend, hin, hsame hn, hvia]

/-- A waiting arc touches no channel. -/
theorem Extends.through_needs (h : Extends g a p s) (hg : g.ReferencesExist) {dst : PortRef}
    {key : ShareKey} {capacity : UInt32} (hneeds : g.Needs a p id arc dst key capacity) :
    arc.dstNode.any s.inChannels = false ∧
      s.graph.through s.inChannels arc = [(arc.src, arc.dst)] := by
  have hout : ∀ {i n}, g.node? i = some n → s.inChannels i = false := by
    intro i n hi
    rw [Bool.eq_false_iff]
    intro hin
    obtain ⟨k, hk⟩ := inChannels_iff.mp hin
    exact h.ne_channel hi hk rfl
  obtain ⟨n, hn, -⟩ := hg.source hneeds.arc_eq
  obtain ⟨m, hm, -⟩ := hg.target hneeds.arc_eq hneeds.ends
  have hend : arc.dstNode = some dst.node := Arc.dstNode_eq_some.mpr ⟨dst, hneeds.ends, rfl⟩
  simp [Graph.through, hend, hout hn, hout hm]

/-- The arc that shares a channel stands for itself. -/
theorem Extends.contract_share (h : Extends g a p s) (hg : g.ReferencesExist) {dst : PortRef}
    {capacity : UInt32} {e : ShareKey × InsertedChannel} (he : e ∈ s.entries)
    (hneeds : g.Needs a p id arc dst e.1 capacity) (hwait : id ∉ s.carried) :
    ((s.share id e.1 e.2).graph.contract (s.share id e.1 e.2).inChannels).Perm
      (s.graph.contract s.inChannels) := by
  have h' := h.share hg he hneeds hwait
  have harc := h.waiting hneeds.arc_eq hwait
  have hlook := arc?_share e.1 e.2 harc
  have hroute : (e.1, e.2.channel) ∈ (s.share id e.1 e.2).routes := by
    rw [routes_share]
    exact List.mem_map.mpr ⟨e, he, rfl⟩
  refine Graph.contract_perm (l := [(id, { arc with src := ⟨e.2.channel, 0⟩ })]) harc ?_ ?_ ?_
  · refine Graph.arcList_perm_append (List.pairwise_singleton _ _) (by simp) ?_
    intro i b
    rw [hlook]
    by_cases hi : i = id <;> simp [hi, eq_comm]
  · rw [List.flatMap_singleton, (h.through_needs hg hneeds).2, ← hneeds.starts]
    exact h'.through_eq hroute rfl (h'.through_needs hg hneeds).1
  · intro i b hb _
    exact h.through_congr h' hg (by simp) (fun hx => .inl (by simpa using hx)) hb

/-- The two halves of an arc that was led stand for the arc: the first for nothing and the second
for all of it. -/
theorem Extends.contract_lead (h : Extends g a p s) (hg : g.ReferencesExist) {dst : PortRef}
    {key : ShareKey} {capacity : UInt32} {c : NodeId} {next : ArcId}
    (hneeds : g.Needs a p id arc dst key capacity) (hwait : id ∉ s.carried)
    (hled : s.Led id arc dst crossing key capacity c next s') :
    (s'.graph.contract s'.inChannels).Perm (s.graph.contract s.inChannels) := by
  have h' := h.lead hled hg hneeds hwait
  have harc := h.waiting hneeds.arc_eq hwait
  have hroute : (key, c) ∈ s'.routes := hled.mem_routes.mpr (.inr rfl)
  have hne : id ≠ next := by
    rintro rfl
    cases hled.arc_fresh.symm.trans harc
  refine Graph.contract_perm
    (l := [(id, { arc with dst := .port ⟨c, 0⟩ }), (next, { arc with src := ⟨c, 0⟩ })])
    harc ?_ ?_ ?_
  · refine Graph.arcList_perm_append (by simp [hne]) (by simp [hled.arc_fresh]) ?_
    intro i b
    rw [hled.arcs]
    by_cases hi : i = id
    · simp [hi, hne, eq_comm]
    · by_cases hnext : i = next <;> simp [hi, hnext, hne.symm, hled.arc_fresh, eq_comm]
  · have hfirst : s'.graph.through s'.inChannels { arc with dst := .port ⟨c, 0⟩ } = [] := by
      have hin : s'.inChannels c = true := inChannels_iff.mpr ⟨key, hroute⟩
      simp [Graph.through, Arc.dstNode, Arc.dstPort, hin]
    have hsecond : s'.graph.through s'.inChannels { arc with src := ⟨c, 0⟩ } =
        [(key.src, arc.dst)] := h'.through_eq hroute rfl (h'.through_needs hg hneeds).1
    rw [(h.through_needs hg hneeds).2, List.flatMap_cons, List.flatMap_singleton, hfirst, hsecond,
      hneeds.starts, List.nil_append]
  · intro i b hb _
    refine h.through_congr h' hg (fun hx => hled.mem_routes.mpr (.inl hx)) ?_ hb
    intro k d hd
    rcases hled.mem_routes.mp hd with hd | hd
    · exact .inl hd
    · cases hd
      exact .inr hled.node_fresh

theorem Extends.contract_step (h : Extends g a p s) (hg : g.ReferencesExist)
    (harc : g.arc? id = some arc) (hwait : id ∉ s.carried) (hstep : Step a p s id crossing s') :
    (s'.graph.contract s'.inChannels).Perm (s.graph.contract s.inChannels) := by
  cases hstep with
  | skip _ => exact .refl _
  | refuse _ => exact .refl _
  | share hneeds _ he hkey =>
      subst hkey
      exact h.contract_share hg he (h.needs hg harc hwait hneeds) hwait
  | lead hneeds _ hled => exact h.contract_lead hg (h.needs hg harc hwait hneeds) hwait hled

/-- The inserted channels are the channels that the graph did not have. -/
theorem Extends.isNewChannel_eq (h : Extends g a p s) :
    g.isNewChannel s.graph = s.inChannels := by
  funext c
  rw [Bool.eq_iff_iff, inChannels_iff]
  unfold Graph.isNewChannel Graph.isChannel Graph.kindOf
  rw [Bool.and_eq_true, Option.isNone_iff_eq_none]
  constructor
  · rintro ⟨hnew, hchannel⟩
    cases hc : s.graph.node? c with
    | none => simp [hc] at hchannel
    | some n => exact mem_channels.mp (h.new hc hnew)
  · rintro ⟨key, hkey⟩
    obtain ⟨hnew, _, _, _, _, -, hnode⟩ := h.channel hkey
    exact ⟨hnew, by simp [hnode, Graph.channelNode, NodeKind.isChannel]⟩

end Steps

end Insertion

namespace Graph

/-- Insertion into a valid graph keeps every connection, and every node up to channels that its
containers list besides.  Nothing but channels is added. -/
theorem insertChannels_connections (g : Graph) (p : ChannelPolicy) (v : Validation) (s : Insertion)
    (hv : g.validate p = .ok v) (hvalid : hasErrors v.diagnostics = false)
    (hs : g.insertChannels v.analysis p = .ok s) :
    (s.graph.contract (g.isNewChannel s.graph)).Perm g.connections ∧
    (∀ id n, g.node? id = some n →
      ∃ more, s.graph.node? id = some (n.withChildren more) ∧
        ∀ c ∈ more, g.isNewChannel s.graph c) ∧
    ∀ id n, s.graph.node? id = some n → g.node? id = none → g.isNewChannel s.graph id := by
  have hg := (wellFormed_of_validate hv hvalid).1.toReferencesExist
  obtain ⟨hrun, hperm⟩ := Insertion.insertChannels_induction
    (P := fun s => (s.graph.contract s.inChannels).Perm g.connections) hg
    (by rw [← contract_none]; exact .refl _)
    (fun h harc hwait hstep hP => (h.contract_step hg harc hwait hstep).trans hP) hs
  have hnew := hrun.trace.isNewChannel_eq
  have hmem : ∀ {c}, c ∈ s.channels → g.isNewChannel s.graph c = true := by
    intro c hc
    rw [hnew, Insertion.inChannels_iff]
    exact Insertion.mem_channels.mp hc
  refine ⟨hnew ▸ hperm, ?_, ?_⟩
  · intro id n hn
    obtain ⟨more, hmore, hall⟩ := hrun.trace.old hn
    exact ⟨more, hmore, fun c hc => hmem (hall c hc)⟩
  · intro id n hn hfree
    exact hmem (hrun.trace.new hn hfree)

/-- A port with two readers in another partition, a third reader there behind a channel, and a port
that nobody reads. -/
def fanOut : Graph :=
  let build : Except Trap Graph := do
    let (a, g) ← empty.addPrimitive none "a" 0 2 ⟨0⟩
    let (b, g) ← g.addPrimitive none "b" 1 0 ⟨1⟩
    let (c, g) ← g.addPrimitive none "c" 1 0 ⟨1⟩
    let (d, g) ← g.addPrimitive none "d" 1 0 ⟨1⟩
    let (k, g) ← g.addChannel none "k" { capacity := 8, blockSize := 4 } ⟨1⟩ none
    let (_, g) ← g.connect ⟨a, 0⟩ ⟨b, 0⟩
    let (_, g) ← g.connect ⟨a, 0⟩ ⟨c, 0⟩
    let (_, g) ← g.connect ⟨a, 0⟩ ⟨k, 0⟩
    let (_, g) ← g.connect ⟨k, 0⟩ ⟨d, 0⟩
    let (_, g) ← g.connectNowhere ⟨a, 1⟩
    return g
  build.toOption.getD empty

theorem isClean_fanOut : fanOut.isClean { shareFanout := true } = true := by
  decide

theorem insertChannels_fanOut :
    ∃ s, fanOut.insertChannels fanOut.computeRates.analysis { shareFanout := true } = .ok s ∧
      (decide (s.carried.length = 2 ∧ s.channels.length = 1) && !hasErrors s.diagnostics) = true :=
  exists_of_toOption_any (by decide)

/-- Two arcs of the fan-out ride one channel, and all five connections are kept. -/
theorem insertChannels_connections_fanOut :
    ∃ v s, fanOut.validate { shareFanout := true } = .ok v ∧ hasErrors v.diagnostics = false ∧
      fanOut.insertChannels v.analysis { shareFanout := true } = .ok s ∧
      hasErrors s.diagnostics = false ∧ s.carried.length = 2 ∧ s.channels.length = 1 ∧
      (s.graph.contract (fanOut.isNewChannel s.graph)).Perm fanOut.connections := by
  obtain ⟨s, hs, htest⟩ := insertChannels_fanOut
  simp only [Bool.and_eq_true, decide_eq_true_eq, Bool.not_eq_true'] at htest
  have hv := validate_of_isClean isClean_fanOut
  exact ⟨_, s, hv, rfl, hs, htest.2, htest.1.1, htest.1.2,
    (insertChannels_connections fanOut _ _ s hv rfl hs).1⟩

end Graph
end Dataflow
