import Dataflow.Proofs.Insertion.Run

/-!
# What insertion keeps on record

An insertion notes for every channel what its first arc needed and which arcs it carries.  The
record is true of the graph: the channel was made for the first of its arcs, and every arc on record
is delivered from the channel to where it ended before.  Channels are on record in the order of
their numbers, and under a policy that shares no two of them meet the same needs.
-/

namespace Dataflow
namespace Insertion

section Defs

/-- The record of `s` is true of its graph, which came from `g`. -/
structure Records (g : Graph) (a : DomainAnalysis) (p : ChannelPolicy) (s : Insertion) : Prop where
  lead : ∀ e ∈ s.entries, ∃ i rest arc dst capacity, e.2.arcs = i :: rest ∧
    g.Needs a p i arc dst e.1 capacity ∧
    s.graph.node? e.2.channel = some (g.channelNode arc dst e.1 capacity)
  delivered : ∀ e ∈ s.entries, ∀ i ∈ e.2.arcs, ∃ arc dst capacity j,
    g.Needs a p i arc dst e.1 capacity ∧
    s.graph.arc? j = some { arc with src := ⟨e.2.channel, 0⟩ }
  order : s.entries.Pairwise fun e f => e.2.channel.val < f.2.channel.val
  keys : p.shareFanout = true → (s.entries.map Prod.fst).Nodup

end Defs

section Entries

variable {g : Graph} {a : DomainAnalysis} {p : ChannelPolicy} {s : Insertion}
  {e f : ShareKey × InsertedChannel}

theorem mem_routes_of_mem (he : e ∈ s.entries) : (e.1, e.2.channel) ∈ s.routes :=
  List.mem_map.mpr ⟨e, he, rfl⟩

theorem mem_inserted {c : InsertedChannel} : c ∈ s.inserted ↔ ∃ key, (key, c) ∈ s.entries := by
  simp [inserted]

theorem mem_carried_iff {i : ArcId} : i ∈ s.carried ↔ ∃ e ∈ s.entries, i ∈ e.2.arcs := by
  simp [carried]

/-- No two channels on record have the same number. -/
theorem Records.eq_of_channel (h : Records g a p s) (he : e ∈ s.entries) (hf : f ∈ s.entries)
    (heq : e.2.channel = f.2.channel) : e = f := by
  have hnodup : (s.entries.map fun e => e.2.channel).Nodup := by
    refine List.pairwise_map.mpr (h.order.imp ?_)
    intro x y hlt hxy
    rw [hxy] at hlt
    exact UInt32.lt_irrefl _ hlt
  exact List.inj_on_of_nodup_map hnodup he hf heq

/-- An arc has one set of needs. -/
theorem needs_unique {i : ArcId} {arc arc' : Arc} {dst dst' : PortRef} {key key' : ShareKey}
    {capacity capacity' : UInt32} (h : g.Needs a p i arc dst key capacity)
    (h' : g.Needs a p i arc' dst' key' capacity') : arc = arc' ∧ dst = dst' ∧ key = key' := by
  obtain ⟨harc, hends, hstarts, hpart, hdomain, hblock, -⟩ := h
  obtain ⟨harc', hends', hstarts', hpart', hdomain', hblock', -⟩ := h'
  obtain ⟨src, partition, domain, block⟩ := key
  obtain ⟨src', partition', domain', block'⟩ := key'
  dsimp only at *
  cases harc.symm.trans harc'
  cases hends.symm.trans hends'
  cases hpart.symm.trans hpart'
  subst hstarts hstarts' hdomain hdomain'
  cases hblock.symm.trans hblock'
  exact ⟨rfl, rfl, rfl⟩

end Entries

section Steps

variable {g : Graph} {a : DomainAnalysis} {p : ChannelPolicy} {s s' : Insertion} {id : ArcId}
  {arc : Arc} {dst : PortRef} {capacity : UInt32}

/-- An arc that waits does not start at an inserted channel. -/
theorem Extends.ne_of_delivered (h : Extends g a p s) (hg : g.ReferencesExist)
    (harc : g.arc? id = some arc) (hwait : id ∉ s.carried) {e : ShareKey × InsertedChannel}
    (he : e ∈ s.entries) {j : ArcId} {b : Arc}
    (hj : s.graph.arc? j = some { b with src := ⟨e.2.channel, 0⟩ }) : j ≠ id := by
  rintro rfl
  cases (h.waiting harc hwait).symm.trans hj
  obtain ⟨n, hn, -⟩ := hg.source harc
  have hroute : (e.1, e.2.channel) ∈ s.routes := List.mem_map.mpr ⟨e, he, rfl⟩
  cases (h.channel hroute).1.symm.trans hn

/-- Keys are distinct where channels are shared, so one entry has the new arc and the rest
is as it was. -/
theorem Records.entry_share (h : Records g a p s) (hshare : p.shareFanout = true)
    {e f : ShareKey × InsertedChannel} (he : e ∈ s.entries)
    (hf : f ∈ (s.share id e.1 e.2).entries) :
    ∃ f₀ ∈ s.entries, f.1 = f₀.1 ∧ f.2.channel = f₀.2.channel ∧
      (f₀ ≠ e ∧ f.2.arcs = f₀.2.arcs ∨ f₀ = e ∧ f.2.arcs = f₀.2.arcs ++ [id]) := by
  obtain ⟨f₀, hf₀, rfl⟩ := List.mem_map.mp hf
  by_cases hkey : f₀.1 = e.1
  · have hsame := List.inj_on_of_nodup_map (h.keys hshare) hf₀ he hkey
    exact ⟨f₀, hf₀, by simp [hkey], by simp [hkey], .inr ⟨hsame, by simp [hkey]⟩⟩
  · refine ⟨f₀, hf₀, by simp [hkey], by simp [hkey], .inl ⟨?_, by simp [hkey]⟩⟩
    rintro rfl
    exact hkey rfl

/-- Sharing notes one more arc for the only channel that meets its needs. -/
theorem Records.share (h : Records g a p s) (htrace : Extends g a p s) (hg : g.ReferencesExist)
    (hshare : p.shareFanout = true) {e : ShareKey × InsertedChannel} (he : e ∈ s.entries)
    (hneeds : g.Needs a p id arc dst e.1 capacity) (hwait : id ∉ s.carried) :
    Records g a p (s.share id e.1 e.2) := by
  have hlook := arc?_share (s := s) e.1 e.2 (htrace.waiting hneeds.arc_eq hwait)
  have hkept : ∀ {f : ShareKey × InsertedChannel} {b : Arc} {j : ArcId}, f ∈ s.entries →
      s.graph.arc? j = some { b with src := ⟨f.2.channel, 0⟩ } →
      (s.share id e.1 e.2).graph.arc? j = some { b with src := ⟨f.2.channel, 0⟩ } := by
    intro f b j hf hj
    rw [hlook, if_neg (htrace.ne_of_delivered hg hneeds.arc_eq hwait hf hj), hj]
  refine ⟨?_, ?_, ?_, ?_⟩
  · intro f hf
    obtain ⟨f₀, hf₀, hkey, hchannel, harcs⟩ := h.entry_share hshare he hf
    obtain ⟨i, rest, b, q, cap, hhead, hb, hnode⟩ := h.lead f₀ hf₀
    rw [hkey, hchannel]
    rcases harcs with ⟨-, harcs⟩ | ⟨-, harcs⟩
    · exact ⟨i, rest, b, q, cap, harcs.trans hhead, hb, hnode⟩
    · exact ⟨i, rest ++ [id], b, q, cap, by rw [harcs, hhead]; rfl, hb, hnode⟩
  · intro f hf i hi
    obtain ⟨f₀, hf₀, hkey, hchannel, harcs⟩ := h.entry_share hshare he hf
    rw [hkey, hchannel]
    have hold : i ∈ f₀.2.arcs → ∃ arc dst capacity j, g.Needs a p i arc dst f₀.1 capacity ∧
        (s.share id e.1 e.2).graph.arc? j = some { arc with src := ⟨f₀.2.channel, 0⟩ } := by
      intro hi
      obtain ⟨b, q, cap, j, hb, hj⟩ := h.delivered f₀ hf₀ i hi
      exact ⟨b, q, cap, j, hb, hkept hf₀ hj⟩
    rcases harcs with ⟨-, harcs⟩ | ⟨rfl, harcs⟩
    · exact hold (harcs ▸ hi)
    · rw [harcs, List.mem_append, List.mem_singleton] at hi
      rcases hi with hi | rfl
      · exact hold hi
      · exact ⟨arc, dst, capacity, i, hneeds, by rw [hlook, if_pos rfl]⟩
  · refine List.pairwise_map.mpr (h.order.imp ?_)
    intro x y hxy
    by_cases hx : x.1 = e.1 <;> by_cases hy : y.1 = e.1 <;> simpa [hx, hy] using hxy
  · intro _
    have hsame : (s.share id e.1 e.2).entries.map Prod.fst = s.entries.map Prod.fst := by
      show (s.entries.map _).map Prod.fst = _
      rw [List.map_map]
      refine List.map_congr_left ?_
      intro x _
      by_cases hx : x.1 = e.1 <;> simp [hx]
    rw [hsame]
    exact h.keys hshare

variable {crossing : Crossing} {key : ShareKey} {c : NodeId} {next : ArcId}

/-- A channel of its own is put on record last. -/
theorem Records.led (h : Records g a p s) (htrace : Extends g a p s) (hg : g.ReferencesExist)
    (hneeds : g.Needs a p id arc dst key capacity) (hwait : id ∉ s.carried)
    (hfree : p.shareFanout = true → ∀ e ∈ s.entries, e.1 ≠ key)
    (hled : s.Led id arc dst crossing key capacity c next s') : Records g a p s' := by
  have hmem : ∀ {f}, f ∈ s'.entries ↔
      f ∈ s.entries ∨ f = (key, { channel := c, crossing, arcs := [id] }) := by
    intro f
    rw [hled.entries, List.mem_append, List.mem_singleton]
  refine ⟨?_, ?_, ?_, ?_⟩
  · intro f hf
    rcases hmem.mp hf with hf | rfl
    · obtain ⟨i, rest, b, q, cap, hhead, hb, hnode⟩ := h.lead f hf
      refine ⟨i, rest, b, q, cap, hhead, hb, ?_⟩
      rcases hled.node?_eq hnode with heq | heq
      · exact heq
      · exact heq
    · refine ⟨id, [], arc, dst, capacity, rfl, hneeds, ?_⟩
      rw [hled.channel, htrace.channelNode_eq hg hneeds]
  · intro f hf i hi
    rcases hmem.mp hf with hf | rfl
    · obtain ⟨b, q, cap, j, hb, hj⟩ := h.delivered f hf i hi
      refine ⟨b, q, cap, j, hb, ?_⟩
      have hnext : j ≠ next := by
        rintro rfl
        cases hled.arc_fresh.symm.trans hj
      rw [hled.arcs, if_neg (htrace.ne_of_delivered hg hneeds.arc_eq hwait hf hj), if_neg hnext, hj]
    · cases List.mem_singleton.mp hi
      have hne : next ≠ id := by
        rintro rfl
        cases hled.arc_fresh.symm.trans (htrace.waiting hneeds.arc_eq hwait)
      exact ⟨arc, dst, capacity, next, hneeds, by rw [hled.arcs, if_neg hne, if_pos rfl]⟩
  · rw [hled.entries, List.pairwise_append]
    refine ⟨h.order, List.pairwise_singleton _ _, ?_⟩
    intro f hf x hx
    cases List.mem_singleton.mp hx
    obtain ⟨_, _, _, _, _, -, -, hnode⟩ := h.lead f hf
    show f.2.channel.val < c.val
    rw [hled.number]
    exact s.graph.node_lt _ (Graph.mem_nodes_iff.mpr ⟨_, hnode⟩)
  · intro hshare
    rw [hled.entries, List.map_append, List.nodup_append]
    refine ⟨h.keys hshare, List.nodup_singleton _, ?_⟩
    intro k hk x hx
    obtain ⟨f, hf, rfl⟩ := List.mem_map.mp hk
    rw [List.map_singleton, List.mem_singleton] at hx
    rw [hx]
    exact hfree hshare f hf

/-- Every step keeps the record true, for an arc that waits. -/
theorem Records.step (h : Records g a p s) (htrace : Extends g a p s) (hg : g.ReferencesExist)
    (harc : g.arc? id = some arc) (hwait : id ∉ s.carried) (hstep : Step a p s id crossing s') :
    Records g a p s' := by
  cases hstep with
  | skip _ => exact h
  | refuse _ => exact ⟨h.lead, h.delivered, h.order, h.keys⟩
  | share hneeds hshare he hkey =>
      subst hkey
      exact h.share htrace hg hshare he (htrace.needs hg harc hwait hneeds) hwait
  | lead hneeds hfree hled =>
      exact h.led htrace hg (htrace.needs hg harc hwait hneeds) hwait hfree hled

theorem records_start {ds : List Diagnostic} : Records g a p { graph := g, diagnostics := ds } := by
  refine ⟨?_, ?_, ?_, ?_⟩ <;> simp

/-- The record of a run is true. -/
theorem records_insertChannels (hg : g.ReferencesExist) (h : g.insertChannels a p = .ok s) :
    Records g a p s :=
  (insertChannels_induction (P := Records g a p) hg records_start
    (fun htrace harc hwait hstep hs => hs.step htrace hg harc hwait hstep) h).2

end Steps

end Insertion
end Dataflow
