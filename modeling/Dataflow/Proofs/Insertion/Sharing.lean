import Dataflow.Proofs.Insertion.Records

/-!
# Insertion with and without sharing

Two insertions into one graph go through the same crossings, one of them giving every crossing a
channel of its own and the other letting crossings with the same needs share one.  Where the first
has an answer and refuses nothing, so does the second: it sizes the same channels, and takes no more
numbers from the supply (`exists_insertChannels_sharing`).

**Relation.**  Among the channels for given needs, the first was made for the same arc in both runs
(`Parallel.first`).
-/

namespace Dataflow

/-- The same policy, except that readers with equal needs share a channel. -/
def ChannelPolicy.sharing (p : ChannelPolicy) : ChannelPolicy := { p with shareFanout := true }

namespace Insertion

section Leads

/-- The needs that channels were made for, and the arc that had them first. -/
def leads (s : Insertion) : List (ShareKey × Option ArcId) :=
  s.entries.map fun e => (e.1, e.2.arcs.head?)

variable {s s' : Insertion} {id : ArcId} {arc : Arc} {dst : PortRef} {crossing : Crossing}
  {key : ShareKey} {capacity : UInt32} {c : NodeId} {next : ArcId}

theorem Led.leads (h : s.Led id arc dst crossing key capacity c next s') :
    s'.leads = s.leads ++ [(key, some id)] := by
  simp [Insertion.leads, h.entries]

/-- An arc that shares a channel is not the first one there. -/
theorem Records.leads_share {g : Graph} {a : DomainAnalysis} {p : ChannelPolicy}
    (h : Records g a p s) (key : ShareKey) (entry : InsertedChannel) :
    (s.share id key entry).leads = s.leads := by
  show (s.entries.map _).map _ = s.entries.map _
  rw [List.map_map]
  refine List.map_congr_left ?_
  intro e he
  obtain ⟨i, rest, _, _, _, hhead, -, -⟩ := h.lead e he
  by_cases hkey : e.1 = key <;> simp [hkey, hhead]

end Leads

section Parallel

/-- The insertion `t`, in which channels are shared, beside the insertion `s`, in which none is. -/
structure Parallel (s t : Insertion) : Prop where
  nodes : t.graph.ids.nextNode.toNat ≤ s.graph.ids.nextNode.toNat
  arcs : t.graph.ids.nextArc.toNat ≤ s.graph.ids.nextArc.toNat
  count : t.entries.length ≤ s.entries.length
  first : ∀ q : ShareKey → Bool,
    (t.leads.find? fun e => q e.1) = s.leads.find? fun e => q e.1
  diagnostics : t.diagnostics = s.diagnostics

variable {g : Graph} {a : DomainAnalysis} {p : ChannelPolicy} {s s' t t' : Insertion} {id : ArcId}
  {arc : Arc} {dst : PortRef} {crossing : Crossing} {key : ShareKey} {capacity : UInt32}

/-- What an arc needs does not depend on sharing. -/
theorem needs_sharing_iff :
    g.Needs a p.sharing id arc dst key capacity ↔ g.Needs a p id arc dst key capacity :=
  ⟨fun h => ⟨h.arc_eq, h.ends, h.starts, h.partition, h.domain, h.block, h.room⟩,
    fun h => ⟨h.arc_eq, h.ends, h.starts, h.partition, h.domain, h.block, h.room⟩⟩

/-- An arc of `g` that waits has its needs in the graph of `s` too. -/
theorem Extends.needs_waiting (h : Extends g a p s) (hg : g.ReferencesExist)
    (hwait : id ∉ s.carried) (hneeds : g.Needs a p id arc dst key capacity) :
    s.graph.Needs a p id arc dst key capacity := by
  obtain ⟨n, hn, -⟩ := hg.target hneeds.arc_eq hneeds.ends
  refine ⟨h.waiting hneeds.arc_eq hwait, hneeds.ends, hneeds.starts, ?_, ?_, hneeds.block,
    hneeds.room⟩
  · rw [h.keepsNodes.partitionOf_eq hn]
    exact hneeds.partition
  · rw [h.keepsNodes.inputDomain_eq hg hn]
    exact hneeds.domain

theorem Parallel.key_mem (h : Parallel s t) {key : ShareKey} :
    key ∈ t.leads.map Prod.fst ↔ key ∈ s.leads.map Prod.fst := by
  have hfirst := h.first fun k => k = key
  have hiff : ∀ l : List (ShareKey × Option ArcId),
      key ∈ l.map Prod.fst ↔ (l.find? fun e => decide (e.1 = key)).isSome = true := by
    intro l
    rw [List.find?_isSome]
    simp
  rw [hiff, hiff, hfirst]

/-- One run makes a channel and the other shares one that is there. -/
theorem Parallel.shared {c : NodeId} {next : ArcId} (h : Parallel s t)
    (hrec : Records g a p.sharing t) (hled : s.Led id arc dst crossing key capacity c next s')
    {e : ShareKey × InsertedChannel} (he : e ∈ t.entries) (hkey : e.1 = key) :
    Parallel s' (t.share id key e.2) := by
  have hmem : key ∈ s.leads.map Prod.fst := by
    rw [← h.key_mem]
    exact List.mem_map.mpr ⟨_, List.mem_map.mpr ⟨e, he, rfl⟩, hkey⟩
  refine ⟨?_, ?_, ?_, ?_, ?_⟩
  · rw [hled.nextNode]
    exact Nat.le_succ_of_le h.nodes
  · rw [hled.nextArc]
    exact Nat.le_succ_of_le h.arcs
  · rw [hled.entries, List.length_append]
    show (t.entries.map _).length ≤ _
    rw [List.length_map]
    exact Nat.le_add_right_of_le h.count
  · intro q
    rw [hrec.leads_share, hled.leads, List.find?_append, h.first q]
    cases hs : s.leads.find? fun e => q e.1 with
    | some x => rfl
    | none =>
        -- needs that a channel was made for before are found among the earlier ones
        obtain ⟨x, hx, rfl⟩ := List.mem_map.mp hmem
        have hno := List.find?_eq_none.mp hs x hx
        simp [hno]
  · rw [hled.diagnostics]
    exact h.diagnostics

/-- Both runs make a channel for the same arc. -/
theorem Parallel.led {c c' : NodeId} {next next' : ArcId} (h : Parallel s t)
    (hs : s.Led id arc dst crossing key capacity c next s')
    (ht : t.Led id arc dst crossing key capacity c' next' t') : Parallel s' t' := by
  refine ⟨?_, ?_, ?_, ?_, ?_⟩
  · rw [hs.nextNode, ht.nextNode]
    exact Nat.succ_le_succ h.nodes
  · rw [hs.nextArc, ht.nextArc]
    exact Nat.succ_le_succ h.arcs
  · rw [hs.entries, ht.entries, List.length_append, List.length_append]
    exact Nat.add_le_add_right h.count 1
  · intro q
    rw [hs.leads, ht.leads, List.find?_append, List.find?_append, h.first q]
  · rw [hs.diagnostics, ht.diagnostics]
    exact h.diagnostics

variable {done todo : List (ArcId × Crossing)}

/-- Where one run has an answer and refuses nothing, so has the other. -/
theorem Parallel.step (h : Parallel s t) (hg : g.ReferencesExist) (hoff : p.shareFanout = false)
    (hs : Progress g a p done ((id, crossing) :: todo) s)
    (ht : Progress g a p.sharing done ((id, crossing) :: todo) t)
    (hrec : Records g a p.sharing t) (hok : s.step a p (id, crossing) = .ok s')
    (hclean : hasErrors s'.diagnostics = false) :
    ∃ t', t.step a p.sharing (id, crossing) = .ok t' ∧ Parallel s' t' := by
  obtain ⟨⟨b, q, hb, hq, -⟩, hwait⟩ := hs.waits
  cases step_of_ok hok with
  | skip hnone => exact absurd hq (hnone (hs.trace.waiting hb hwait))
  | refuse href => simp [report, hasErrors, href.error] at hclean
  | share _ hshare _ _ => cases hoff.symm.trans hshare
  | @lead arc dst key capacity c next _ hneeds _ hled =>
      have hneeds' := ht.trace.needs_waiting hg ht.waits.2
        (needs_sharing_iff.mpr (hs.trace.needs hg hb hwait hneeds))
      rw [step_eq_of_needs hneeds', if_pos (show p.sharing.shareFanout = true from rfl)]
      cases hfind : t.entries.find? fun e => e.1 = key with
      | some e =>
          exact ⟨_, rfl, h.shared hrec hled (List.mem_of_find?_eq_some hfind)
            (by simpa using List.find?_some hfind)⟩
      | none =>
          have hnode := hled.nextNode ▸ s'.graph.ids.nextNode.toNat_lt
          have harc := hled.nextArc ▸ s'.graph.ids.nextArc.toNat_lt
          obtain ⟨t', hlead⟩ := exists_lead
            (Nat.lt_of_le_of_lt (Nat.succ_le_succ h.nodes) hnode)
            (Nat.lt_of_le_of_lt (Nat.succ_le_succ h.arcs) harc) hneeds'.arc_eq dst crossing
              key capacity
          obtain ⟨c', next', hled'⟩ := led_of_ok hneeds'.arc_eq hlead
          exact ⟨t', hlead, h.led hled hled'⟩

/-- Errors stay on record. -/
theorem hasErrors_step (hstep : Step a p s id crossing s')
    (hclean : hasErrors s'.diagnostics = false) : hasErrors s.diagnostics = false := by
  cases hstep with
  | skip _ => exact hclean
  | refuse href => simp [report, hasErrors, href.error] at hclean
  | share _ _ _ _ => exact hclean
  | lead _ _ hled => exact hled.diagnostics ▸ hclean

theorem hasErrors_foldlM :
    ∀ {todo : List (ArcId × Crossing)} {s s' : Insertion},
      todo.foldlM (step a p) s = .ok s' → hasErrors s'.diagnostics = false →
        hasErrors s.diagnostics = false
  | [], s, s', h, hclean => by
      cases h
      exact hclean
  | x :: todo, s, s', h, hclean => by
      rw [List.foldlM_cons, bind_eq_ok_iff] at h
      obtain ⟨mid, hmid, h⟩ := h
      exact hasErrors_step (step_of_ok hmid) (hasErrors_foldlM h hclean)

theorem Parallel.foldlM (hg : g.ReferencesExist) (hoff : p.shareFanout = false) :
    ∀ {todo done : List (ArcId × Crossing)} {s s' t : Insertion}, Parallel s t →
      Progress g a p done todo s → Progress g a p.sharing done todo t → Records g a p.sharing t →
        todo.foldlM (Insertion.step a p) s = .ok s' → hasErrors s'.diagnostics = false →
          ∃ t', todo.foldlM (Insertion.step a p.sharing) t = .ok t' ∧ Parallel s' t'
  | [], _, s, s', t, h, _, _, _, hok, _ => by
      cases hok
      exact ⟨t, rfl, h⟩
  | (id, crossing) :: todo, done, s, s', t, h, hs, ht, hrec, hok, hclean => by
      rw [List.foldlM_cons, bind_eq_ok_iff] at hok
      obtain ⟨mid, hmid, hok⟩ := hok
      obtain ⟨mid', hmid', hpar⟩ :=
        h.step hg hoff hs ht hrec hmid (hasErrors_foldlM hok hclean)
      have hone := step_of_ok hmid
      have hone' := step_of_ok hmid'
      obtain ⟨⟨b, -, hb, -, -⟩, hwait⟩ := ht.waits
      obtain ⟨t', ht', hend⟩ := hpar.foldlM hg hoff (hs.step hg hone) (ht.step hg hone')
        (hrec.step ht.trace hg hb hwait hone') hok hclean
      exact ⟨t', by rw [List.foldlM_cons, hmid']; exact ht', hend⟩

/-- Where every crossing can have a channel of its own, channels can be shared. -/
theorem exists_insertChannels_sharing (hg : g.ReferencesExist) (hoff : p.shareFanout = false)
    (h : g.insertChannels a p = .ok s) (hclean : hasErrors s.diagnostics = false) :
    ∃ t, g.insertChannels a p.sharing = .ok t ∧ Parallel s t := by
  have hpolicy := hasErrors_faults_of_insertChannels h hclean
  have hpolicy' : hasErrors p.sharing.faults = false := hpolicy
  rw [insertChannels_eq_foldlM hpolicy] at h
  rw [insertChannels_eq_foldlM hpolicy']
  exact Parallel.foldlM hg hoff ⟨Nat.le_refl _, Nat.le_refl _, Nat.le_refl _, fun _ => rfl, rfl⟩
    progress_start progress_start records_start h hclean

end Parallel

end Insertion
end Dataflow
