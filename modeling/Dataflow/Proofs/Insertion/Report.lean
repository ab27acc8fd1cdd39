import Dataflow.Proofs.Grouping
import Dataflow.Proofs.Insertion.Certificate
import Dataflow.Proofs.Insertion.Records
import Mathlib.Data.Finset.Card

/-!
# The report of insertion

Insertion reports every channel that it made, together with the arcs that ride it.

**Groups.**  A run without an error reports every crossing once.  Under a policy that shares,
two crossings ride one channel exactly if they start at one port and feed ports of one partition
and one clock domain; otherwise every crossing has a channel of its own
(`insertChannels_grouping`).  That the block is part of what channels are shared by changes
nothing, since the clock domain decides on it.

**A second run.**  Nothing crosses any more, so there is nothing to do
(`insertChannels_idempotent`).
-/

namespace Dataflow

namespace Graph

section Defs

/-- What crossings have in common that ride a shared channel: the port where they start, and the
partition and the clock domain of the port that they feed. -/
def fanKey? (g : Graph) (id : ArcId) : Option (PortRef × Option PartitionId × Option NodeId) := do
  let arc ← g.arc? id
  let dst ← arc.dstPort
  return (arc.src, g.partitionOf dst.node, g.inputDomain dst)

/-- How many channels the crossings `ids` take: one for all that agree if channels are shared, and
otherwise one for each. -/
def demand (g : Graph) (p : ChannelPolicy) (ids : List ArcId) : Nat :=
  if p.shareFanout then (ids.map g.fanKey?).toFinset.card else ids.length

/-- The channels of `g'` that `g` does not have, in the order of their numbers. -/
def newChannels (g g' : Graph) : List NodeId :=
  (g'.nodeList.map Prod.fst).filter (g.isNewChannel g')

end Defs

section Keys

variable {g : Graph} {a : DomainAnalysis} {p : ChannelPolicy} {i j : ArcId} {arc arc' : Arc}
  {dst dst' : PortRef} {key key' : ShareKey} {capacity capacity' : UInt32}

theorem Needs.fanKey?_eq (h : g.Needs a p i arc dst key capacity) :
    g.fanKey? i = some (key.src, some key.partition, key.domain) := by
  simp [fanKey?, h.arc_eq, Arc.dstPort_eq_some.mpr h.ends, h.starts, h.partition, h.domain]

/-- The clock domain decides on the block, so needs are the same where the rest of them is. -/
theorem Needs.key_eq_iff (h : g.Needs a p i arc dst key capacity)
    (h' : g.Needs a p j arc' dst' key' capacity') : key = key' ↔ g.fanKey? i = g.fanKey? j := by
  rw [h.fanKey?_eq, h'.fanKey?_eq]
  obtain ⟨src, partition, domain, block⟩ := key
  obtain ⟨src', partition', domain', block'⟩ := key'
  constructor
  · rintro ⟨⟩
    rfl
  · rintro ⟨⟩
    have hblock : some block = some block' := Except.ok.inj (h.block.symm.trans h'.block)
    cases hblock
    rfl

theorem demand_perm (g : Graph) (p : ChannelPolicy) {ids ids' : List ArcId} (h : ids.Perm ids') :
    g.demand p ids = g.demand p ids' := by
  unfold demand
  rw [h.length_eq, List.toFinset_eq_of_perm _ _ (h.map g.fanKey?)]

end Keys

end Graph

namespace Insertion

section Groups

variable {g : Graph} {a : DomainAnalysis} {p : ChannelPolicy} {s s' : Insertion} {id : ArcId}
  {crossing : Crossing} {e f : ShareKey × InsertedChannel}

/-- No arc is on record twice, and without sharing no channel has two arcs. -/
structure Grouped (p : ChannelPolicy) (s : Insertion) : Prop where
  once : s.carried.Nodup
  alone : p.shareFanout = false → ∀ e ∈ s.entries, e.2.arcs.length = 1

/-- Where channels are shared, one of them meets given needs, so an arc that shares it is put
on record once. -/
theorem Records.carried_share (h : Records g a p s) (hshare : p.shareFanout = true)
    (he : e ∈ s.entries) : (s.share id e.1 e.2).carried.Perm (s.carried ++ [id]) := by
  have hown : (s.entries.flatMap fun f => if e.1 = f.1 then [id] else []) = [id] := by
    rw [← List.flatMap_map Prod.fst fun k => if e.1 = k then [id] else []]
    exact flatMap_own_label id (h.keys hshare) (List.mem_map_of_mem he)
  have hsplit : (s.share id e.1 e.2).carried =
      s.entries.flatMap fun f => f.2.arcs ++ if e.1 = f.1 then [id] else [] := by
    show (s.entries.map _).flatMap _ = _
    rw [List.flatMap_map]
    refine List.flatMap_congr ?_
    intro f _
    by_cases hkey : f.1 = e.1
    · simp [hkey]
    · simp [hkey, Ne.symm hkey]
  have hperm := (List.flatMap_append_perm s.entries (fun f => f.2.arcs)
    fun f => if e.1 = f.1 then [id] else []).symm
  rw [hown] at hperm
  rw [hsplit]
  exact hperm

theorem Grouped.step (h : Grouped p s) (hrec : Records g a p s) (hwait : id ∉ s.carried)
    (hstep : Step a p s id crossing s') : Grouped p s' := by
  have hlonger : (s.carried ++ [id]).Nodup := by
    rw [List.nodup_append]
    refine ⟨h.once, List.nodup_singleton id, ?_⟩
    rintro i hi _ hid rfl
    exact hwait (List.mem_singleton.mp hid ▸ hi)
  cases hstep with
  | skip _ => exact h
  | refuse _ => exact ⟨h.once, h.alone⟩
  | share _ hshare he hkey =>
      subst hkey
      refine ⟨(hrec.carried_share hshare he).nodup_iff.mpr hlonger, ?_⟩
      intro hoff
      cases hshare.symm.trans hoff
  | lead _ _ hled =>
      constructor
      · rw [carried, hled.entries, List.flatMap_append, List.flatMap_singleton]
        exact hlonger
      · intro hoff e he
        rw [hled.entries, List.mem_append, List.mem_singleton] at he
        rcases he with he | rfl
        · exact h.alone hoff e he
        · rfl

theorem grouped_start {ds : List Diagnostic} : Grouped p { graph := g, diagnostics := ds } := by
  refine ⟨?_, ?_⟩ <;> simp [carried]

theorem grouped_insertChannels (hg : g.ReferencesExist) (h : g.insertChannels a p = .ok s) :
    Grouped p s := by
  refine (insertChannels_induction (P := fun s => Records g a p s ∧ Grouped p s) hg
    ⟨records_start, grouped_start⟩ ?_ h).2.2
  intro s s' id crossing arc htrace harc hwait hstep hs
  exact ⟨hs.1.step htrace hg harc hwait hstep, hs.2.step hs.1 hwait hstep⟩

end Groups

section Counts

variable {g : Graph} {a : DomainAnalysis} {p : ChannelPolicy} {s : Insertion}
  {e f : ShareKey × InsertedChannel} (h : Records g a p s)
include h

/-- The arcs of a channel have in common what the channel was made for. -/
theorem Records.fanKey?_eq (he : e ∈ s.entries) {i : ArcId} (hi : i ∈ e.2.arcs) :
    g.fanKey? i = some (e.1.src, some e.1.partition, e.1.domain) := by
  obtain ⟨_, _, _, _, hneeds, -⟩ := h.delivered e he i hi
  exact hneeds.fanKey?_eq

/-- Where channels are shared, arcs are in one group exactly if they agree. -/
theorem Records.eq_iff_fanKey? (hshare : p.shareFanout = true) (he : e ∈ s.entries)
    (hf : f ∈ s.entries) {i j : ArcId} (hi : i ∈ e.2.arcs) (hj : j ∈ f.2.arcs) :
    e = f ↔ g.fanKey? i = g.fanKey? j := by
  obtain ⟨_, _, _, _, hneeds, -⟩ := h.delivered e he i hi
  obtain ⟨_, _, _, _, hneeds', -⟩ := h.delivered f hf j hj
  rw [← hneeds.key_eq_iff hneeds']
  constructor
  · rintro rfl
    rfl
  · intro hkey
    exact List.inj_on_of_nodup_map (h.keys hshare) he hf hkey

/-- The same as it is reported, without what the channels were made for. -/
theorem Records.inserted_eq_iff_fanKey? (hshare : p.shareFanout = true) {c c' : InsertedChannel}
    (hc : c ∈ s.inserted) (hc' : c' ∈ s.inserted) {i j : ArcId} (hi : i ∈ c.arcs)
    (hj : j ∈ c'.arcs) : c = c' ↔ g.fanKey? i = g.fanKey? j := by
  obtain ⟨key, he⟩ := mem_inserted.mp hc
  obtain ⟨key', hf⟩ := mem_inserted.mp hc'
  rw [← h.eq_iff_fanKey? hshare he hf hi hj]
  constructor
  · rintro rfl
    exact h.eq_of_channel he hf rfl
  · exact congrArg Prod.snd

/-- There are as many channels as the arcs that ride them take. -/
theorem Records.length_entries (hgroup : Grouped p s) :
    s.entries.length = g.demand p s.carried := by
  unfold Graph.demand
  cases hshare : p.shareFanout with
  | false =>
      have hones : s.entries.map (fun e => e.2.arcs.length) = s.entries.map fun _ => 1 :=
        List.map_congr_left (hgroup.alone hshare)
      simp [carried, List.length_flatMap, hones]
  | true =>
      -- the channels and what they were made for correspond to each other
      have hnodup : (s.entries.map fun e =>
          some (e.1.src, some e.1.partition, e.1.domain)).Nodup := by
        refine List.Nodup.map_on ?_ (List.Nodup.of_map Prod.fst (h.keys hshare))
        intro e he f hf heq
        obtain ⟨i, _, _, _, _, harcs, -, -⟩ := h.lead e he
        obtain ⟨j, _, _, _, _, harcs', -, -⟩ := h.lead f hf
        have hi : i ∈ e.2.arcs := by simp [harcs]
        have hj : j ∈ f.2.arcs := by simp [harcs']
        rw [h.eq_iff_fanKey? hshare he hf hi hj, h.fanKey?_eq he hi, h.fanKey?_eq hf hj]
        exact heq
      have hsame : (s.carried.map g.fanKey?).toFinset =
          (s.entries.map fun e => some (e.1.src, some e.1.partition, e.1.domain)).toFinset := by
        ext x
        simp only [List.mem_toFinset, List.mem_map, mem_carried_iff]
        constructor
        · rintro ⟨i, ⟨e, he, hi⟩, rfl⟩
          exact ⟨e, he, (h.fanKey?_eq he hi).symm⟩
        · rintro ⟨e, he, rfl⟩
          obtain ⟨i, _, _, _, _, harcs, -, -⟩ := h.lead e he
          have hi : i ∈ e.2.arcs := by simp [harcs]
          exact ⟨i, ⟨e, he, hi⟩, h.fanKey?_eq he hi⟩
      rw [if_pos rfl, hsame, List.toFinset_card_of_nodup hnodup, List.length_map]

/-- The report lists the new channels in order. -/
theorem Records.map_channel (htrace : Extends g a p s) :
    s.inserted.map InsertedChannel.channel = g.newChannels s.graph := by
  unfold inserted Graph.newChannels
  rw [List.map_map]
  have hordered : (s.graph.nodeList.map Prod.fst).Pairwise fun c d => c.val < d.val :=
    List.pairwise_map.mpr s.graph.nodeList_ordered
  refine Graph.eq_of_ordered NodeId.val (List.pairwise_map.mpr h.order) (hordered.filter _) ?_
  intro c
  rw [List.mem_filter, htrace.isNewChannel_eq, inChannels_iff, List.mem_map]
  constructor
  · rintro ⟨e, he, rfl⟩
    have hroute := mem_routes_of_mem he
    obtain ⟨-, _, _, _, _, -, hnode⟩ := htrace.channel hroute
    exact ⟨List.mem_map.mpr ⟨_, Graph.mem_nodeList.mpr hnode, rfl⟩, e.1, hroute⟩
  · rintro ⟨-, key, hroute⟩
    obtain ⟨e, he, heq⟩ := List.mem_map.mp hroute
    cases heq
    exact ⟨e, he, rfl⟩

theorem Records.length_newChannels (htrace : Extends g a p s) (hgroup : Grouped p s) :
    (g.newChannels s.graph).length = g.demand p s.carried := by
  rw [← h.map_channel htrace, List.length_map, inserted, List.length_map, h.length_entries hgroup]

omit h in
/-- A run without an error reports every crossing once. -/
theorem Progress.carried_perm (h : Progress g a p g.crossings [] s) (hgroup : Grouped p s)
    (hclean : hasErrors s.diagnostics = false) : s.carried.Perm (g.crossings.map Prod.fst) := by
  rw [List.perm_ext_iff_of_nodup hgroup.once (crossings_nodup g)]
  intro i
  constructor
  · exact h.carried i
  · intro hi
    obtain ⟨x, hx, rfl⟩ := List.mem_map.mp hi
    exact h.clean hclean x hx

end Counts

end Insertion

namespace Graph

/-- Without crossings there is nothing to insert. -/
theorem insertChannels_of_crossings_eq_nil {g : Graph} (h : g.crossings = []) (a : DomainAnalysis)
    (p : ChannelPolicy) : g.insertChannels a p = .ok { graph := g, diagnostics := p.faults } := by
  unfold insertChannels
  rw [h]
  exact ite_self _

/-- The report of an insertion without an error, into a valid graph, groups the crossings of the
graph.

* Every crossing is in one group, and no group is empty.
* The groups are those of the new channels, each of which is reported once.
* Where channels are shared, two crossings are in one group exactly if they start at one port and
  feed ports of one partition and one clock domain, so there are as many new channels as such
  combinations.  Otherwise every group has one crossing. -/
theorem insertChannels_grouping (g : Graph) (p : ChannelPolicy) (v : Validation) (s : Insertion)
    (hv : g.validate p = .ok v) (hvalid : hasErrors v.diagnostics = false)
    (hs : g.insertChannels v.analysis p = .ok s) (hclean : hasErrors s.diagnostics = false) :
    (s.inserted.flatMap InsertedChannel.arcs).Perm (g.crossings.map Prod.fst) ∧
    (g.crossings.map Prod.fst).Nodup ∧ (∀ e ∈ s.inserted, e.arcs ≠ []) ∧
    s.inserted.map InsertedChannel.channel = g.newChannels s.graph ∧
    (g.newChannels s.graph).Nodup ∧
    (p.shareFanout = true →
      (∀ e ∈ s.inserted, ∀ f ∈ s.inserted, ∀ i ∈ e.arcs, ∀ j ∈ f.arcs,
        e = f ↔ g.fanKey? i = g.fanKey? j) ∧
      (g.newChannels s.graph).length = (g.crossings.map fun x => g.fanKey? x.1).toFinset.card) ∧
    (p.shareFanout = false →
      (∀ e ∈ s.inserted, e.arcs.length = 1) ∧
      (g.newChannels s.graph).length = g.crossings.length) := by
  have hrefs := (wellFormed_of_validate hv hvalid).1.toReferencesExist
  have hrun := Insertion.progress_insertChannels hrefs hs
  have hrec := Insertion.records_insertChannels hrefs hs
  have hgroup := Insertion.grouped_insertChannels hrefs hs
  have hperm := hrun.carried_perm hgroup hclean
  have hlength : (g.newChannels s.graph).length = g.demand p (g.crossings.map Prod.fst) :=
    (hrec.length_newChannels hrun.trace hgroup).trans (g.demand_perm p hperm)
  have hdistinct : (s.graph.nodeList.map Prod.fst).Nodup :=
    List.pairwise_map.mpr s.graph.nodeList_distinct
  refine ⟨?_, Insertion.crossings_nodup g, ?_, hrec.map_channel hrun.trace, hdistinct.filter _,
    ?_, ?_⟩
  · rw [Insertion.inserted, List.flatMap_map]
    exact hperm
  · intro e he
    obtain ⟨key, hin⟩ := Insertion.mem_inserted.mp he
    obtain ⟨i, rest, _, _, _, harcs, -, -⟩ := hrec.lead _ hin
    rw [harcs]
    exact List.cons_ne_nil i rest
  · intro hshare
    refine ⟨?_, ?_⟩
    · intro e he f hf i hi j hj
      exact hrec.inserted_eq_iff_fanKey? hshare he hf hi hj
    · rw [hlength, demand, if_pos hshare, List.map_map]
      rfl
  · intro hoff
    refine ⟨?_, ?_⟩
    · intro e he
      obtain ⟨key, hin⟩ := Insertion.mem_inserted.mp he
      exact hgroup.alone hoff _ hin
    · rw [hlength, demand, if_neg (by simp [hoff]), List.length_map]

/-- A port with two readers in one partition and a third in another. -/
def spread : Graph :=
  let build : Except Trap Graph := do
    let (a, g) ← empty.addPrimitive none "a" 0 1 ⟨0⟩
    let (b, g) ← g.addPrimitive none "b" 1 0 ⟨1⟩
    let (c, g) ← g.addPrimitive none "c" 1 0 ⟨2⟩
    let (d, g) ← g.addPrimitive none "d" 1 0 ⟨1⟩
    let (_, g) ← g.connect ⟨a, 0⟩ ⟨b, 0⟩
    let (_, g) ← g.connect ⟨a, 0⟩ ⟨c, 0⟩
    let (_, g) ← g.connect ⟨a, 0⟩ ⟨d, 0⟩
    return g
  build.toOption.getD empty

theorem isClean_spread : spread.isClean { shareFanout := true } = true := by
  decide

theorem insertChannels_spread :
    ∃ s, spread.insertChannels spread.computeRates.analysis { shareFanout := true } = .ok s ∧
      (!hasErrors s.diagnostics
        && decide (s.inserted.map InsertedChannel.arcs = [[⟨0⟩, ⟨2⟩], [⟨1⟩]])) = true :=
  exists_of_toOption_any (by decide)

/-- The two readers in one partition are in one group, and the third is alone. -/
theorem insertChannels_grouping_spread :
    ∃ v s, spread.validate { shareFanout := true } = .ok v ∧ hasErrors v.diagnostics = false ∧
      spread.insertChannels v.analysis { shareFanout := true } = .ok s ∧
      hasErrors s.diagnostics = false ∧
      s.inserted.map InsertedChannel.arcs = [[⟨0⟩, ⟨2⟩], [⟨1⟩]] ∧
      (s.inserted.flatMap InsertedChannel.arcs).Perm (spread.crossings.map Prod.fst) ∧
      (spread.newChannels s.graph).length =
        (spread.crossings.map fun x => spread.fanKey? x.1).toFinset.card := by
  obtain ⟨s, hs, htest⟩ := insertChannels_spread
  simp only [Bool.and_eq_true, Bool.not_eq_true', decide_eq_true_eq] at htest
  have hv := validate_of_isClean isClean_spread
  obtain ⟨hperm, -, -, -, -, hshared, -⟩ :=
    insertChannels_grouping spread _ _ s hv rfl hs htest.1
  exact ⟨_, s, hv, rfl, hs, htest.1, htest.2, hperm, (hshared rfl).2⟩

/-- After insertion without an error, into a valid graph, a second insertion changes nothing,
whatever is known of the rates and whatever the policy. -/
theorem insertChannels_idempotent (g : Graph) (p : ChannelPolicy) (v : Validation) (s : Insertion)
    (hv : g.validate p = .ok v) (hvalid : hasErrors v.diagnostics = false)
    (hs : g.insertChannels v.analysis p = .ok s) (hclean : hasErrors s.diagnostics = false)
    (a' : DomainAnalysis) (p' : ChannelPolicy) :
    s.graph.insertChannels a' p' =
      .ok { graph := s.graph, entries := [], diagnostics := p'.faults } := by
  have hrefs := (wellFormed_of_validate hv hvalid).1.toReferencesExist
  have hrun := Insertion.progress_insertChannels hrefs hs
  refine insertChannels_of_crossings_eq_nil ?_ a' p'
  rw [List.eq_nil_iff_forall_not_mem]
  intro x hx
  obtain ⟨arc, harc, hk⟩ := Insertion.mem_crossings.mp hx
  cases hk.symm.trans (hrun.crossing?_eq_none hrefs hclean harc)

/-- The second insertion may share channels, size them otherwise and know no rates. -/
theorem insertChannels_idempotent_spread :
    ∃ v s, spread.validate { shareFanout := true } = .ok v ∧ hasErrors v.diagnostics = false ∧
      spread.insertChannels v.analysis { shareFanout := true } = .ok s ∧
      hasErrors s.diagnostics = false ∧ s.inserted.length = 2 ∧
      s.graph.insertChannels {} { baseBlockSize := 3 } = .ok { graph := s.graph } := by
  obtain ⟨s, hs, htest⟩ := insertChannels_spread
  simp only [Bool.and_eq_true, Bool.not_eq_true', decide_eq_true_eq] at htest
  have hv := validate_of_isClean isClean_spread
  have htwo : s.inserted.length = 2 := by
    rw [← List.length_map InsertedChannel.arcs, htest.2]
    rfl
  exact ⟨_, s, hv, rfl, hs, htest.1, htwo,
    insertChannels_idempotent spread _ _ s hv rfl hs htest.1 {} { baseBlockSize := 3 }⟩

end Graph
end Dataflow
