import Dataflow.Proofs.Domain.Scaling
import Dataflow.Proofs.Insertion.Report
import Dataflow.Proofs.Insertion.Sharing

/-!
# The limits of insertion

Validation looks for the domains in which a block is fixed, and insertion later sizes a channel for
every crossing.  Every domain that insertion comes to is one of those that validation has looked at,
so in a valid graph only the width of a word can stand in the way of a channel
(`insertChannels_sizes`).

**Sizes.**  The block of a reader is a whole number, which the base rate of its domain gives
(`Valid.sizable`).  A crossing is refused if the block or the capacity for it leaves 32 bits, and
otherwise rides a channel with exactly these sizes.

**Numbers.**  Every channel takes a number for a node and one for an arc.  Insertion has an answer
exactly if the supply has enough of them for all channels (`exists_insertChannels_iff`).
-/

namespace Dataflow

namespace Graph

section Defs

variable (g : Graph) (a : DomainAnalysis) (p : ChannelPolicy)

/-- The block that a port reads at a time: the block of the policy at the base rate of its
domain. -/
def readerBlock (q : PortRef) : Nat :=
  p.baseBlockSize.toNat * (a.baseRate (g.inputDomain q)).up.toNat /
    (a.baseRate (g.inputDomain q)).down.toNat

/-- The block and the capacity of a channel for a port stay within their words. -/
def Fits (q : PortRef) : Prop :=
  g.readerBlock a p q < wordLimit ∧ g.readerBlock a p q * p.capacityMultiplier.toNat < wordLimit

/-- The complaint about a channel for a port, if it is too large. -/
def sizeFault? (q : PortRef) : Option Diagnostic :=
  let block := g.readerBlock a p q
  if wordLimit ≤ block then
    some { code := some .channelOverflow, errorClass := .rate, subject := some q.node
           message := s!"no integral 32-bit block size for the channel feeding {g.label q.node}" }
  else if wordLimit ≤ block * p.capacityMultiplier.toNat then
    some { code := some .channelOverflow, errorClass := .rate, subject := some q.node
           message := s!"channel capacity {block} x {p.capacityMultiplier.toNat} overflows" }
  else none

/-- The complaint about an arc, if a channel for it is too large. -/
def oversize? (id : ArcId) : Option Diagnostic :=
  (g.arc? id).bind fun arc => arc.dstPort.bind (g.sizeFault? a p)

/-- The crossings whose channels are not too large. -/
def fitting : List ArcId := (g.crossings.map Prod.fst).filter fun id => (g.oversize? a p id).isNone

/-- The reader at a port has a partition, and its block is a whole number. -/
structure Sizable (q : PortRef) : Prop where
  partition : ∃ l, g.partitionOf q.node = some l
  block : a.blockSize (g.inputDomain q) p.baseBlockSize.toNat = .ok (.ok (g.readerBlock a p q))
  exact : g.readerBlock a p q * (a.baseRate (g.inputDomain q)).down.toNat =
    p.baseBlockSize.toNat * (a.baseRate (g.inputDomain q)).up.toNat
  pos : 0 < g.readerBlock a p q

/-- Every crossing ends where a reader has a whole block. -/
def CrossingsSizable : Prop :=
  ∀ ⦃id arc dst⦄, g.arc? id = some arc → arc.dst = .port dst → g.crossing? arc ≠ none →
    g.Sizable a p dst

/-- The arc `arc` of `g`, which ended at `dst`, has been led through the channel `c` of `g'`, which
has the size, the domain and the partition of its reader. -/
structure Rides (arc : Arc) (dst : PortRef) (g' : Graph) (c : NodeId) : Prop where
  channel : ∃ n spec, g'.node? c = some n ∧ n.kind = .channel spec ∧
    spec.blockSize.toNat = g.readerBlock a p dst ∧
    spec.capacity.toNat = g.readerBlock a p dst * p.capacityMultiplier.toNat ∧
    spec.domain = g.inputDomain dst ∧ n.partition = g.partitionOf dst.node
  written : ∃ id writer, g'.Writer c id writer ∧ writer.src = arc.src
  delivered : ∃ id, g'.arc? id = some { arc with src := ⟨c, 0⟩ }

end Defs

section Sizes

variable {g : Graph} {a : DomainAnalysis} {p : ChannelPolicy} {q : PortRef} {d : Diagnostic}

theorem sizeFault?_eq_none_iff : g.sizeFault? a p q = none ↔ g.Fits a p q := by
  unfold sizeFault? Fits
  grind

theorem of_sizeFault?_eq_some (h : g.sizeFault? a p q = some d) :
    d.isError = true ∧ d.code = some .channelOverflow ∧ d.subject = some q.node := by
  unfold sizeFault? at h
  dsimp only at h
  split at h
  · cases h
    exact ⟨rfl, rfl, rfl⟩
  · split at h
    · cases h
      exact ⟨rfl, rfl, rfl⟩
    · cases h

/-- All ports of a node read blocks of one size. -/
theorem fits_congr {q' : PortRef} (h : q.node = q'.node) : g.Fits a p q ↔ g.Fits a p q' := by
  unfold Fits readerBlock inputDomain
  rw [h]

theorem oversize?_eq {id : ArcId} {arc : Arc} (harc : g.arc? id = some arc)
    (hends : arc.dst = .port q) : g.oversize? a p id = g.sizeFault? a p q := by
  simp [oversize?, harc, Arc.dstPort_eq_some.mpr hends]

theorem mem_fitting {id : ArcId} :
    id ∈ g.fitting a p ↔ id ∈ g.crossings.map Prod.fst ∧ g.oversize? a p id = none := by
  rw [fitting, List.mem_filter, Option.isNone_iff_eq_none]

/-- A crossing ends in a domain that validation has looked at, so the block there is a
whole number. -/
theorem Valid.exists_blockSize (h : g.Valid p) {id : ArcId} {arc : Arc}
    (harc : g.arc? id = some arc) (hends : arc.dst = .port q) (hcross : g.crossing? arc ≠ none) :
    ∃ n, g.computeRates.analysis.blockSize (g.inputDomain q) p.baseBlockSize.toNat = .ok (.ok n) ∧
      n * (g.computeRates.analysis.baseRate (g.inputDomain q)).down.toNat =
        p.baseBlockSize.toNat * (g.computeRates.analysis.baseRate (g.inputDomain q)).up.toNat := by
  cases hd : g.inputDomain q with
  | none => exact ⟨p.baseBlockSize.toNat, rfl, rfl⟩
  | some d =>
      -- the crossing itself fixes a block in the domain
      obtain ⟨blamed, hblamed⟩ := exists_mem_arcAnchors_iff.mpr ⟨q, hends, .inr hcross, .inl hd⟩
      rcases (blockFaults_eq_nil_iff.mp h.blocks).2 d (.inr ⟨id, arc, blamed, harc, hblamed⟩) with
        hbroken | ⟨n, hn⟩
      · simp [broken_computeRates h.rates] at hbroken
      · obtain ⟨r, hr⟩ := exists_domainRate_of_inputDomain hd
        obtain ⟨rates, hcharted⟩ := exists_charted h.rates hr
        exact ⟨n, hn, hcharted.mul_down_eq hn⟩

/-- In a valid graph every crossing ends where a reader has a whole block. -/
theorem Valid.sizable (h : g.Valid p) (hp : p.baseBlockSize ≠ 0) :
    g.CrossingsSizable g.computeRates.analysis p := by
  intro id arc dst harc hends hcross
  obtain ⟨n, hn, hexact⟩ := h.exists_blockSize harc hends hcross
  have hcoprime := isCoprime_baseRate h.rates fun d (hd : g.inputDomain dst = some d) =>
    exists_domainRate_of_inputDomain hd
  have hdown := (Rate.isCoprime_iff.mp hcoprime).1.2
  have hblock : g.readerBlock g.computeRates.analysis p dst = n := by
    unfold readerBlock
    rw [← hexact]
    exact Nat.mul_div_cancel n hdown
  obtain ⟨m, hm, hlt⟩ := h.wellFormed.target harc hends
  refine ⟨h.wellFormed.exists_partition hm (by omega), by rw [hblock, hn], by rw [hblock, hexact],
    ?_⟩
  rw [hblock]
  exact scaleFrom_pos (fun r hr => ((positive_computeRates g).of_mem_localChain hr).1)
    (toNat_pos_of_ne_zero hp) hn

theorem Sizable.channelBlock_eq (h : g.Sizable a p q) :
    a.channelBlock p (g.inputDomain q) = .ok (word? (g.readerBlock a p q)) := by
  unfold DomainAnalysis.channelBlock
  rw [h.block]
  rfl

/-- What a crossing needs is a channel of the block of its reader, with room for as many blocks as
the policy asks for. -/
theorem Sizable.block_eq (h : g.Sizable a p q) {id : ArcId} {arc : Arc} {key : ShareKey}
    {capacity : UInt32} (hneeds : g.Needs a p id arc q key capacity) :
    key.block.toNat = g.readerBlock a p q ∧
      ∀ {room}, p.capacity key.block = some room →
        room.toNat = g.readerBlock a p q * p.capacityMultiplier.toNat := by
  have hword : word? (g.readerBlock a p q) = some key.block := by
    have hblock := hneeds.block
    rw [← hneeds.domain, h.channelBlock_eq] at hblock
    exact Except.ok.inj hblock
  have hsame := word?_eq_some_iff.mp hword
  refine ⟨hsame, ?_⟩
  intro room hroom
  rw [word?_eq_some_iff.mp hroom, hsame]

theorem Sizable.exists_needs (h : g.Sizable a p q) (hfits : g.Fits a p q) {id : ArcId} {arc : Arc}
    (harc : g.arc? id = some arc) (hends : arc.dst = .port q) :
    ∃ key capacity, g.Needs a p id arc q key capacity := by
  obtain ⟨l, hl⟩ := h.partition
  obtain ⟨block, hblock⟩ := exists_word? hfits.1
  obtain ⟨room, hroom⟩ := exists_word? hfits.2
  refine ⟨⟨arc.src, l, g.inputDomain q, block⟩, room, harc, hends, rfl, hl, rfl, ?_, ?_⟩
  · rw [h.channelBlock_eq, hblock]
  · rw [ChannelPolicy.capacity, word?_eq_some_iff.mp hblock, hroom]

end Sizes

section Demand

variable {g : Graph} {p : ChannelPolicy}

/-- Fewer crossings take no more channels. -/
theorem demand_mono {ids ids' : List ArcId} (h : ids.Sublist ids') :
    g.demand p ids ≤ g.demand p ids' := by
  unfold demand
  split
  · refine Finset.card_le_card ?_
    intro key hkey
    exact List.mem_toFinset.mpr ((h.map g.fanKey?).subset (List.mem_toFinset.mp hkey))
  · exact h.length_le

end Demand

end Graph

namespace Insertion

section Steps

variable {g : Graph} {a : DomainAnalysis} {p : ChannelPolicy} {s s' : Insertion} {id : ArcId}
  {arc : Arc} {dst : PortRef} {crossing : Crossing}

/-- An arc that waits is refused if its channel is too large. -/
theorem Extends.step_of_sizeFault? (h : Extends g a p s) (hg : g.ReferencesExist)
    (harc : g.arc? id = some arc) (hends : arc.dst = .port dst) (hwait : id ∉ s.carried)
    (hsize : g.Sizable a p dst) {d : Diagnostic} (hd : g.sizeFault? a p dst = some d) :
    s.step a p (id, crossing) = .ok (s.report d) := by
  obtain ⟨n, hn, -⟩ := hg.target harc hends
  obtain ⟨l, hl⟩ := hsize.partition
  have hsome : ((s.graph.arc? id).bind fun arc => arc.dstPort.map fun dst => (arc, dst)) =
      some (arc, dst) := by
    simp [h.waiting harc hwait, Arc.dstPort_eq_some.mpr hends]
  unfold Insertion.step
  dsimp only
  rw [hsome]
  dsimp only
  rw [h.keepsNodes.partitionOf_eq hn, hl]
  dsimp only
  rw [h.keepsNodes.inputDomain_eq hg hn, hsize.channelBlock_eq, h.keepsNodes.label_eq hn]
  dsimp only [bind, Except.bind]
  unfold Graph.sizeFault? at hd
  dsimp only at hd
  split at hd
  · rename_i hblock
    rw [word?_eq_none_iff.mpr hblock]
    cases hd
    rfl
  · rename_i hblock
    obtain ⟨block, hword⟩ := exists_word? (Nat.not_le.mp hblock)
    rw [hword]
    dsimp only
    rw [← word?_eq_some_iff.mp hword] at hd
    split at hd
    · rename_i hroom
      unfold ChannelPolicy.capacity
      rw [word?_eq_none_iff.mpr hroom]
      cases hd
      rfl
    · cases hd

/-- An arc whose needs no channel on record meets takes one more channel. -/
theorem Records.demand_append (h : Records g a p s) (hgroup : Grouped p s) {key : ShareKey}
    {capacity : UInt32} (hneeds : g.Needs a p id arc dst key capacity)
    (hfree : p.shareFanout = true → ∀ e ∈ s.entries, e.1 ≠ key) :
    g.demand p (s.carried ++ [id]) = s.entries.length + 1 := by
  rw [h.length_entries hgroup]
  unfold Graph.demand
  split
  · rename_i hshare
    have hnew : g.fanKey? id ∉ (s.carried.map g.fanKey?).toFinset := by
      intro hmem
      obtain ⟨i, hi, heq⟩ := List.mem_map.mp (List.mem_toFinset.mp hmem)
      obtain ⟨e, he, hie⟩ := mem_carried_iff.mp hi
      obtain ⟨_, _, _, _, hneeds', -⟩ := h.delivered e he i hie
      exact hfree hshare e he ((hneeds'.key_eq_iff hneeds).mpr heq)
    have hinsert : ((s.carried ++ [id]).map g.fanKey?).toFinset =
        insert (g.fanKey? id) (s.carried.map g.fanKey?).toFinset := by
      ext key
      simp
    rw [hinsert, Finset.card_insert_of_notMem hnew]
  · simp

end Steps

section Accounts

/-- The crossings in `done` that fit ride a channel, the others have been refused, and every channel
has taken a number for a node and one for an arc. -/
structure Account (g : Graph) (a : DomainAnalysis) (p : ChannelPolicy)
    (done todo : List (ArcId × Crossing)) (s : Insertion) : Prop where
  run : Progress g a p done todo s
  records : Records g a p s
  grouped : Grouped p s
  diagnostics : s.diagnostics = p.faults ++ done.filterMap fun x => g.oversize? a p x.1
  carried : s.carried.Perm ((done.map Prod.fst).filter fun id => (g.oversize? a p id).isNone)
  nodes : s.graph.ids.nextNode.toNat = g.ids.nextNode.toNat + s.entries.length
  arcs : s.graph.ids.nextArc.toNat = g.ids.nextArc.toNat + s.entries.length

variable {g : Graph} {a : DomainAnalysis} {p : ChannelPolicy} {s s' : Insertion} {id : ArcId}
  {arc : Arc} {dst : PortRef} {crossing : Crossing} {done todo : List (ArcId × Crossing)}

theorem account_start : Account g a p [] g.crossings { graph := g, diagnostics := p.faults } where
  run := progress_start
  records := records_start
  grouped := grouped_start
  diagnostics := by simp
  carried := by simp [Insertion.carried]
  nodes := rfl
  arcs := rfl

/-- What the next crossing meets: it is refused if its channel is too large, and otherwise its
needs can be met. -/
theorem Progress.next_cases (h : Progress g a p done ((id, crossing) :: todo) s)
    (hg : g.ReferencesExist) (hsize : g.CrossingsSizable a p) :
    (∃ d, g.oversize? a p id = some d ∧ s.step a p (id, crossing) = .ok (s.report d)) ∨
      g.oversize? a p id = none ∧ ∃ arc dst key capacity,
        g.Needs a p id arc dst key capacity ∧ s.graph.Needs a p id arc dst key capacity := by
  obtain ⟨⟨arc, dst, harc, hends, hk⟩, hwait⟩ := h.waits
  have hsizable := hsize harc hends (by simp [hk])
  rw [Graph.oversize?_eq harc hends]
  cases hfault : g.sizeFault? a p dst with
  | some d => exact .inl ⟨d, rfl, h.trace.step_of_sizeFault? hg harc hends hwait hsizable hfault⟩
  | none =>
      obtain ⟨key, capacity, hneeds⟩ :=
        hsizable.exists_needs (Graph.sizeFault?_eq_none_iff.mp hfault) harc hends
      exact .inr ⟨rfl, arc, dst, key, capacity, hneeds, h.trace.needs_waiting hg hwait hneeds⟩

theorem Account.step (h : Account g a p done ((id, crossing) :: todo) s) (hg : g.ReferencesExist)
    (hsize : g.CrossingsSizable a p) (hok : s.step a p (id, crossing) = .ok s') :
    Account g a p (done ++ [(id, crossing)]) todo s' := by
  obtain ⟨⟨arc, -, harc, -, -⟩, hwait⟩ := h.run.waits
  have hone := step_of_ok hok
  have hrun := h.run.step hg hone
  have hrecords := h.records.step h.run.trace hg harc hwait hone
  have hgrouped := h.grouped.step h.records hwait hone
  rcases h.run.next_cases hg hsize with ⟨d, hover, hrefused⟩ | ⟨hover, arc, dst, _, _, -, hneeds⟩
  · cases hrefused.symm.trans hok
    refine ⟨hrun, hrecords, hgrouped, ?_, ?_, h.nodes, h.arcs⟩
    · simp [report, h.diagnostics, hover]
    · show s.carried.Perm _
      simpa [hover] using h.carried
  · have hdone : s.diagnostics =
        p.faults ++ (done ++ [(id, crossing)]).filterMap fun x => g.oversize? a p x.1 := by
      simp [h.diagnostics, hover]
    have hrides : (s.carried ++ [id]).Perm
        (((done ++ [(id, crossing)]).map Prod.fst).filter
          fun id => (g.oversize? a p id).isNone) := by
      simpa [hover] using h.carried.append_right [id]
    cases hone with
    | skip hnone => exact absurd hneeds.ends (hnone hneeds.arc_eq)
    | refuse href => exact absurd hneeds href.not_needs
    | @share _ _ _ _ e _ hshare he hkey =>
        subst hkey
        have hlength : (s.share id e.1 e.2).entries.length = s.entries.length := List.length_map _
        refine ⟨hrun, hrecords, hgrouped, hdone, (h.records.carried_share hshare he).trans hrides,
          ?_, ?_⟩
        · rw [hlength]
          exact h.nodes
        · rw [hlength]
          exact h.arcs
    | lead _ _ hled =>
        have hlength : s'.entries.length = s.entries.length + 1 := by
          rw [hled.entries, List.length_append, List.length_singleton]
        refine ⟨hrun, hrecords, hgrouped, hled.diagnostics.trans hdone, ?_, ?_, ?_⟩
        · rw [Insertion.carried, hled.entries, List.flatMap_append, List.flatMap_singleton]
          exact hrides
        · rw [hled.nextNode, h.nodes, hlength, Nat.add_assoc]
        · rw [hled.nextArc, h.arcs, hlength, Nat.add_assoc]

/-- As long as there are numbers for all channels, the next crossing is dealt with. -/
theorem Account.exists_step (h : Account g a p done ((id, crossing) :: todo) s)
    (hg : g.ReferencesExist) (hsize : g.CrossingsSizable a p)
    (hnodes : g.ids.nextNode.toNat + g.demand p (g.fitting a p) < wordLimit)
    (harcs : g.ids.nextArc.toNat + g.demand p (g.fitting a p) < wordLimit) :
    ∃ s', s.step a p (id, crossing) = .ok s' := by
  rcases h.run.next_cases hg hsize with
    ⟨d, -, hrefused⟩ | ⟨hover, arc, dst, key, capacity, hneeds, hwaiting⟩
  · exact ⟨_, hrefused⟩
  · rw [step_eq_of_needs hwaiting]
    split
    · exact ⟨_, rfl⟩
    · rename_i hfind
      have hfree : p.shareFanout = true → ∀ e ∈ s.entries, e.1 ≠ key := by
        intro hshare e he hkey
        rw [if_pos hshare, List.find?_eq_none] at hfind
        exact hfind e he (by simpa using hkey)
      -- the channel is one of those that all crossings take together
      have hnext :
          (((done.map Prod.fst).filter fun id => (g.oversize? a p id).isNone) ++ [id]).Sublist
          (g.fitting a p) := by
        rw [Graph.fitting, ← h.run.order]
        simp [hover]
      have hle : s.entries.length + 1 ≤ g.demand p (g.fitting a p) := by
        rw [← h.records.demand_append h.grouped hneeds hfree,
          g.demand_perm p (h.carried.append_right [id])]
        exact Graph.demand_mono hnext
      refine exists_lead ?_ ?_ hwaiting.arc_eq dst crossing key capacity
      · rw [h.nodes]
        omega
      · rw [h.arcs]
        omega

/-- In the end all that fits rides a channel, so there are as many channels as that takes. -/
theorem Account.length_entries (h : Account g a p g.crossings [] s) :
    s.entries.length = g.demand p (g.fitting a p) := by
  rw [h.records.length_entries h.grouped, g.demand_perm p h.carried]
  rfl

/-- All errors are about channels that are too large. -/
theorem Account.exists_sizeFault? (h : Account g a p g.crossings [] s)
    (hsound : hasErrors p.faults = false) {d : Diagnostic} (hd : d ∈ s.diagnostics)
    (herror : d.isError = true) : ∃ q, g.sizeFault? a p q = some d := by
  rw [h.diagnostics] at hd
  rcases List.mem_append.mp hd with hd | hd
  · exact absurd herror (List.any_eq_false.mp hsound d hd)
  · obtain ⟨x, -, hx⟩ := List.mem_filterMap.mp hd
    obtain ⟨arc, -, hx⟩ := Option.bind_eq_some_iff.mp hx
    obtain ⟨q, -, hq⟩ := Option.bind_eq_some_iff.mp hx
    exact ⟨q, hq⟩

/-- Errors name readers whose channels are too large. -/
theorem Account.exists_error_iff (h : Account g a p g.crossings [] s)
    (hsound : hasErrors p.faults = false) (harc : g.arc? id = some arc)
    (hends : arc.dst = .port dst) (hcross : g.crossing? arc ≠ none) :
    (∃ d ∈ s.diagnostics, d.isError = true ∧ d.code = some .channelOverflow ∧
      d.subject = some dst.node) ↔ ¬ g.Fits a p dst := by
  constructor
  · rintro ⟨d, hd, herror, -, hsubject⟩
    obtain ⟨q, hq⟩ := h.exists_sizeFault? hsound hd herror
    -- the complaint may come from another arc to the same reader, which takes the same block
    have hnode : q.node = dst.node :=
      Option.some.inj ((Graph.of_sizeFault?_eq_some hq).2.2.symm.trans hsubject)
    rw [← Graph.fits_congr hnode, ← Graph.sizeFault?_eq_none_iff, hq]
    exact Option.some_ne_none d
  · intro hfits
    rw [← Graph.sizeFault?_eq_none_iff] at hfits
    obtain ⟨d, hd⟩ := Option.ne_none_iff_exists'.mp hfits
    obtain ⟨crossing, hk⟩ := Option.ne_none_iff_exists'.mp hcross
    refine ⟨d, ?_, Graph.of_sizeFault?_eq_some hd⟩
    rw [h.diagnostics]
    refine List.mem_append_right _ (List.mem_filterMap.mpr ?_)
    exact ⟨(id, crossing), mem_crossings.mpr ⟨arc, harc, hk⟩,
      (Graph.oversize?_eq harc hends).trans hd⟩

/-- A crossing that fits rides a channel of the size of its reader. -/
theorem Account.rides (h : Account g a p g.crossings [] s) (hsizable : g.Sizable a p dst)
    (harc : g.arc? id = some arc) (hends : arc.dst = .port dst) (hcross : g.crossing? arc ≠ none)
    (hfits : g.Fits a p dst) :
    ∃ e ∈ s.inserted, id ∈ e.arcs ∧ g.Rides a p arc dst s.graph e.channel := by
  obtain ⟨crossing, hk⟩ := Option.ne_none_iff_exists'.mp hcross
  have hid : id ∈ g.fitting a p := by
    rw [Graph.mem_fitting, Graph.oversize?_eq harc hends, Graph.sizeFault?_eq_none_iff]
    exact ⟨List.mem_map.mpr ⟨(id, crossing), mem_crossings.mpr ⟨arc, harc, hk⟩, rfl⟩, hfits⟩
  obtain ⟨e, he, hmem⟩ := Insertion.mem_carried_iff.mp (h.carried.mem_iff.mpr hid)
  obtain ⟨arc', dst', _, j, hneeds, hj⟩ := h.records.delivered e he id hmem
  cases harc.symm.trans hneeds.arc_eq
  cases hends.symm.trans hneeds.ends
  obtain ⟨i, rest, lead, q, capacity, -, hlead, hnode⟩ := h.records.lead e he
  obtain ⟨hblock, hroom⟩ := hsizable.block_eq hneeds
  obtain ⟨w, b, hwriter, hsrc⟩ := h.run.trace.writer (mem_routes_of_mem he)
  refine ⟨e.2, mem_inserted.mpr ⟨e.1, he⟩, hmem,
    ⟨_, _, hnode, rfl, hblock, hroom hlead.room, ?_, ?_⟩, ⟨w, b, hwriter, hsrc.trans hneeds.starts⟩,
    j, hj⟩
  · exact hneeds.domain.symm
  · exact hneeds.partition.symm

end Accounts

section Answers

variable {g : Graph} {a : DomainAnalysis} {p : ChannelPolicy} {s : Insertion}
  (hg : g.ReferencesExist) (hsize : g.CrossingsSizable a p) (hsound : hasErrors p.faults = false)
include hg hsize hsound

theorem account_insertChannels (h : g.insertChannels a p = .ok s) :
    Account g a p g.crossings [] s := by
  rw [insertChannels_eq_foldlM hsound] at h
  refine foldlM_invariant (P := Account g a p) ?_ account_start h
  rintro done ⟨id, crossing⟩ todo s s' hs hok
  exact hs.step hg hsize hok

/-- Insertion has an answer exactly if there are numbers for the nodes and arcs of all channels. -/
theorem exists_insertChannels_iff :
    (∃ s, g.insertChannels a p = .ok s) ↔
      g.ids.nextNode.toNat + g.demand p (g.fitting a p) < wordLimit ∧
        g.ids.nextArc.toNat + g.demand p (g.fitting a p) < wordLimit := by
  constructor
  · rintro ⟨s, hs⟩
    have haccount := account_insertChannels hg hsize hsound hs
    rw [← haccount.length_entries, ← haccount.nodes, ← haccount.arcs]
    exact ⟨s.graph.ids.nextNode.toNat_lt, s.graph.ids.nextArc.toNat_lt⟩
  · rintro ⟨hnodes, harcs⟩
    have hstep : ∀ {x : ArcId × Crossing} {todo : List (ArcId × Crossing)} {s : Insertion},
        (∃ done, Account g a p done (x :: todo) s) →
          ∃ s', s.step a p x = .ok s' ∧ ∃ done, Account g a p done todo s' := by
      rintro ⟨id, crossing⟩ todo s ⟨done, hs⟩
      obtain ⟨s', hs'⟩ := hs.exists_step hg hsize hnodes harcs
      exact ⟨s', hs', _, hs.step hg hsize hs'⟩
    have hstart : ∃ done,
        Account g a p done (g.crossings ++ []) { graph := g, diagnostics := p.faults } := by
      rw [List.append_nil]
      exact ⟨[], account_start⟩
    obtain ⟨s, hs, -⟩ :=
      exists_foldlM (P := fun todo s => ∃ done, Account g a p done todo s) hstep hstart
    exact ⟨s, (insertChannels_eq_foldlM hsound).trans hs⟩

end Answers

end Insertion

namespace Graph

section Limits

/-- In a valid graph, under a policy with blocks and room for them, insertion fails at 32-bit limits
only, and sizes channels exactly.

* The block of every reader behind a crossing is a whole number that is not zero.
* There is an answer exactly if the supply has numbers for the channels of all crossings that fit.
* The errors are those about crossings whose block or capacity leaves 32 bits, one for each of them.
* Every other crossing rides a channel of exactly the size, in the domain and in the partition
  of its reader. -/
theorem insertChannels_sizes (g : Graph) (p : ChannelPolicy) (v : Validation)
    (hblock : 1 ≤ p.baseBlockSize) (hroom : 1 ≤ p.capacityMultiplier)
    (hv : g.validate p = .ok v) (hvalid : hasErrors v.diagnostics = false) :
    (∀ id arc dst, g.arc? id = some arc → arc.dst = .port dst → g.crossing? arc ≠ none →
      0 < g.readerBlock v.analysis p dst ∧
        g.readerBlock v.analysis p dst * (v.analysis.baseRate (g.inputDomain dst)).down.toNat =
          p.baseBlockSize.toNat * (v.analysis.baseRate (g.inputDomain dst)).up.toNat) ∧
    ((∃ s, g.insertChannels v.analysis p = .ok s) ↔
      g.ids.nextNode.toNat + g.demand p (g.fitting v.analysis p) < wordLimit ∧
        g.ids.nextArc.toNat + g.demand p (g.fitting v.analysis p) < wordLimit) ∧
    ∀ s, g.insertChannels v.analysis p = .ok s →
      hasErrors p.faults = false ∧
      s.diagnostics = p.faults ++ g.crossings.filterMap (fun x => g.oversize? v.analysis p x.1) ∧
      (∀ d ∈ s.diagnostics, d.isError = true → d.code = some .channelOverflow) ∧
      ∀ id arc dst, g.arc? id = some arc → arc.dst = .port dst → g.crossing? arc ≠ none →
        ((∃ d ∈ s.diagnostics, d.isError = true ∧ d.code = some .channelOverflow ∧
            d.subject = some dst.node) ↔
          wordLimit ≤ g.readerBlock v.analysis p dst ∨
            wordLimit ≤ g.readerBlock v.analysis p dst * p.capacityMultiplier.toNat) ∧
        (g.readerBlock v.analysis p dst < wordLimit →
          g.readerBlock v.analysis p dst * p.capacityMultiplier.toNat < wordLimit →
          ∃ e ∈ s.inserted, id ∈ e.arcs ∧ g.Rides v.analysis p arc dst s.graph e.channel) := by
  obtain ⟨hg, hanalysis⟩ := valid_of_validate hv hvalid
  rw [hanalysis]
  have hrefs := hg.wellFormed.toReferencesExist
  have hne : ∀ {w : UInt32}, 1 ≤ w → w ≠ 0 := by
    rintro w hw rfl
    exact absurd hw (by decide)
  have hsound : hasErrors p.faults = false :=
    hasErrors_faults_eq_false_iff.mpr ⟨hne hblock, hne hroom⟩
  have hsize := hg.sizable (hne hblock)
  refine ⟨?_, Insertion.exists_insertChannels_iff hrefs hsize hsound, ?_⟩
  · intro id arc dst harc hends hcross
    exact ⟨(hsize harc hends hcross).pos, (hsize harc hends hcross).exact⟩
  · intro s hs
    have haccount := Insertion.account_insertChannels hrefs hsize hsound hs
    refine ⟨hsound, haccount.diagnostics, ?_, ?_⟩
    · intro d hd herror
      obtain ⟨q, hq⟩ := haccount.exists_sizeFault? hsound hd herror
      exact (of_sizeFault?_eq_some hq).2.1
    · intro id arc dst harc hends hcross
      refine ⟨?_, ?_⟩
      · rw [haccount.exists_error_iff hsound harc hends hcross, Fits, not_and_or, Nat.not_lt,
          Nat.not_lt]
      · intro hword hcapacity
        exact haccount.rides (hsize harc hends hcross) harc hends hcross ⟨hword, hcapacity⟩

/-- A port with a reader in a clock domain that runs 2147483648 times as fast, and a port with a
reader in another partition. -/
def wide : Graph :=
  let build : Except Trap Graph := do
    let (fast, g) ← empty.addDomain none "fast" (.upsample 2147483648)
    let (a, g) ← g.addPrimitive none "a" 0 2 ⟨0⟩
    let (b, g) ← g.addPrimitive (some fast) "b" 1 0 ⟨0⟩
    let (c, g) ← g.addPrimitive none "c" 1 0 ⟨1⟩
    let (_, g) ← g.connect ⟨a, 0⟩ ⟨b, 0⟩
    let (_, g) ← g.connect ⟨a, 1⟩ ⟨c, 0⟩
    return g
  build.toOption.getD empty

theorem isClean_wide : wide.isClean {} = true := by
  decide

/-- The block of the fast reader is a word, but two of them are not.  The other crossing
gets its channel. -/
theorem insertChannels_sizes_wide :
    ∃ v s, wide.validate {} = .ok v ∧ hasErrors v.diagnostics = false ∧
      wide.insertChannels v.analysis {} = .ok s ∧
      (∃ d ∈ s.diagnostics, d.isError = true ∧ d.code = some .channelOverflow ∧
        d.subject = some ⟨2⟩) ∧
      ∃ arc, wide.arc? ⟨1⟩ = some arc ∧ ∃ e ∈ s.inserted, ⟨1⟩ ∈ e.arcs ∧
        wide.Rides v.analysis {} arc ⟨⟨3⟩, 0⟩ s.graph e.channel := by
  have hv := validate_of_isClean isClean_wide
  have hfast : ((wide.arc? ⟨0⟩).any fun arc => decide (arc.dst = .port ⟨⟨2⟩, 0⟩)
      && (wide.crossing? arc).isSome) = true := by
    decide
  have hother : ((wide.arc? ⟨1⟩).any fun arc => decide (arc.dst = .port ⟨⟨3⟩, 0⟩)
      && (wide.crossing? arc).isSome) = true := by
    decide
  have hsupply :
      wide.ids.nextNode.toNat + wide.demand {} (wide.fitting wide.computeRates.analysis {})
        < wordLimit ∧
      wide.ids.nextArc.toNat + wide.demand {} (wide.fitting wide.computeRates.analysis {})
        < wordLimit := by
    decide
  have hblocks : wordLimit ≤ wide.readerBlock wide.computeRates.analysis {} ⟨⟨2⟩, 0⟩ * 2 ∧
      wide.readerBlock wide.computeRates.analysis {} ⟨⟨3⟩, 0⟩ = 1 := by
    decide
  simp only [Option.any_eq_true, Bool.and_eq_true, decide_eq_true_eq] at hfast hother
  obtain ⟨arc, harc, hends, hcross⟩ := hfast
  obtain ⟨arc', harc', hends', hcross'⟩ := hother
  obtain ⟨-, hanswer, hresult⟩ := insertChannels_sizes wide {} _ (by decide) (by decide) hv rfl
  obtain ⟨s, hs⟩ := hanswer.mpr hsupply
  obtain ⟨-, -, -, hsizes⟩ := hresult s hs
  refine ⟨_, s, hv, rfl, hs, ?_, arc', harc', ?_⟩
  · exact (hsizes _ arc _ harc hends (Option.isSome_iff_ne_none.mp hcross)).1.mpr (.inr hblocks.1)
  · refine (hsizes _ arc' _ harc' hends' (Option.isSome_iff_ne_none.mp hcross')).2 ?_ ?_
    · rw [hblocks.2]
      decide
    · rw [hblocks.2]
      decide

end Limits

end Graph
end Dataflow
