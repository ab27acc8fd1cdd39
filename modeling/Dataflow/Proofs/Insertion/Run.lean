import Dataflow.Proofs.Insertion.Invariant

/-!
# Runs of insertion

Insertion takes the crossings of a graph one after the other.  A crossing that was not refused is
carried by a channel from then on, and a crossing that is still to come is as it was.

**Results.**  `insertChannels_run`, `insertChannels_induction`: what every step keeps holds of the
result, together with the description of the result (`Insertion.Extends`) and, if no error was
reported, a channel for every crossing.
-/

namespace Dataflow
namespace Insertion

section Crossings

variable {g : Graph}

theorem mem_crossings {x : ArcId × Crossing} :
    x ∈ g.crossings ↔ ∃ arc, g.arc? x.1 = some arc ∧ g.crossing? arc = some x.2 := by
  obtain ⟨id, k⟩ := x
  simp only [Graph.crossings, List.mem_filterMap, Option.map_eq_some_iff, Prod.exists,
    Graph.mem_arcList, Prod.mk.injEq]
  constructor
  · rintro ⟨_, arc, harc, _, hk, rfl, rfl⟩
    exact ⟨arc, harc, hk⟩
  · rintro ⟨arc, harc, hk⟩
    exact ⟨id, arc, harc, k, hk, rfl, rfl⟩

theorem crossings_nodup (g : Graph) : (g.crossings.map Prod.fst).Nodup := by
  unfold List.Nodup Graph.crossings
  rw [List.pairwise_map, List.pairwise_filterMap]
  refine g.arcList_distinct.imp ?_
  intro x y hxy u hu v hv
  obtain ⟨_, -, rfl⟩ := Option.map_eq_some_iff.mp hu
  obtain ⟨_, -, rfl⟩ := Option.map_eq_some_iff.mp hv
  exact hxy

/-- Crossings come in the order of their numbers. -/
theorem crossings_ordered (g : Graph) : g.crossings.Pairwise fun x y => x.1.val < y.1.val := by
  unfold Graph.crossings
  rw [List.pairwise_filterMap]
  refine g.arcList_ordered.imp ?_
  intro x y hxy u hu v hv
  obtain ⟨_, -, rfl⟩ := Option.map_eq_some_iff.mp hu
  obtain ⟨_, -, rfl⟩ := Option.map_eq_some_iff.mp hv
  exact hxy

end Crossings

section Runs

variable {g : Graph} {a : DomainAnalysis} {p : ChannelPolicy} {s s' : Insertion}
  {id : ArcId} {crossing : Crossing}

/-- The crossings in `done` have been looked at, and those in `todo` have not. -/
structure Progress (g : Graph) (a : DomainAnalysis) (p : ChannelPolicy)
    (done todo : List (ArcId × Crossing)) (s : Insertion) : Prop where
  trace : Extends g a p s
  order : done ++ todo = g.crossings
  carried : ∀ i ∈ s.carried, i ∈ done.map Prod.fst
  clean : hasErrors s.diagnostics = false → ∀ x ∈ done, x.1 ∈ s.carried

theorem progress_start : Progress g a p [] g.crossings { graph := g, diagnostics := p.faults } :=
  ⟨extends_start, rfl, by simp [carried], by simp⟩

/-- The next crossing waits for its channel. -/
theorem Progress.waits {done todo : List (ArcId × Crossing)}
    (h : Progress g a p done ((id, crossing) :: todo) s) :
    (∃ arc dst, g.arc? id = some arc ∧ arc.dst = .port dst ∧ g.crossing? arc = some crossing) ∧
      id ∉ s.carried := by
  have hmem : (id, crossing) ∈ g.crossings := by
    rw [← h.order]
    simp
  obtain ⟨arc, harc, hk⟩ := mem_crossings.mp hmem
  obtain ⟨dst, hdst, -⟩ := Option.bind_eq_some_iff.mp hk
  refine ⟨⟨arc, dst, harc, Arc.dstPort_eq_some.mp hdst, hk⟩, ?_⟩
  intro hin
  have hnodup := crossings_nodup g
  rw [← h.order, List.map_append, List.nodup_append] at hnodup
  exact hnodup.2.2 id (h.carried id hin) id (by simp) rfl

/-- What is carried so far comes before the next crossing. -/
theorem Progress.carried_lt {done todo : List (ArcId × Crossing)}
    (h : Progress g a p done ((id, crossing) :: todo) s) {i : ArcId} (hi : i ∈ s.carried) :
    i.val < id.val := by
  have hordered := crossings_ordered g
  rw [← h.order, List.pairwise_append] at hordered
  obtain ⟨x, hx, rfl⟩ := List.mem_map.mp (h.carried i hi)
  exact hordered.2.2 x hx _ List.mem_cons_self

/-- A crossing that is not refused is carried from then on. -/
theorem Progress.step {done todo : List (ArcId × Crossing)}
    (h : Progress g a p done ((id, crossing) :: todo) s) (hg : g.ReferencesExist)
    (hstep : Step a p s id crossing s') :
    Progress g a p (done ++ [(id, crossing)]) todo s' := by
  obtain ⟨⟨arc, dst, harc, hdst, -⟩, hwait⟩ := h.waits
  have htrace := h.trace.step hg harc hwait hstep
  have horder : (done ++ [(id, crossing)]) ++ todo = g.crossings := by
    rw [List.append_assoc]
    exact h.order
  -- sharing and leading differ only in how they give the arc its channel
  have hgrow : (∀ i, i ∈ s'.carried ↔ i ∈ s.carried ∨ i = id) →
      s'.diagnostics = s.diagnostics → Progress g a p (done ++ [(id, crossing)]) todo s' := by
    intro hcarried hds
    refine ⟨htrace, horder, ?_, ?_⟩
    · intro i hi
      rw [List.map_append, List.mem_append]
      rcases (hcarried i).mp hi with hi | rfl
      · exact .inl (h.carried i hi)
      · exact .inr (by simp)
    · intro hclean x hx
      rw [hds] at hclean
      rw [hcarried]
      rcases List.mem_append.mp hx with hx | hx
      · exact .inl (h.clean hclean x hx)
      · exact .inr (by rw [List.mem_singleton.mp hx])
  cases hstep with
  | skip hnone => exact absurd hdst (hnone (h.trace.waiting harc hwait))
  | refuse hd =>
      refine ⟨htrace, horder, ?_, ?_⟩
      · intro i hi
        rw [List.map_append, List.mem_append]
        exact .inl (h.carried i hi)
      · intro hclean
        simp [report, hasErrors, hd.error] at hclean
  | share _ _ he hkey =>
      subst hkey
      refine hgrow (fun i => ?_) rfl
      rw [mem_carried_share he, or_comm]
  | lead _ _ hled => exact hgrow (fun i => hled.mem_carried) hled.diagnostics

/-- Under a sound policy insertion goes through the crossings. -/
theorem insertChannels_eq_foldlM (h : hasErrors p.faults = false) :
    g.insertChannels a p =
      g.crossings.foldlM (Insertion.step a p) { graph := g, diagnostics := p.faults } := by
  unfold Graph.insertChannels
  rw [if_neg (Bool.eq_false_iff.mp h)]

/-- What every step of a run keeps holds of the result of insertion. -/
theorem insertChannels_run {P : Insertion → Prop} (hg : g.ReferencesExist)
    (hstart : P { graph := g, diagnostics := p.faults })
    (hstep : ∀ {done todo s s' id crossing}, Progress g a p done ((id, crossing) :: todo) s →
      Step a p s id crossing s' → P s → P s')
    (h : g.insertChannels a p = .ok s) :
    Progress g a p g.crossings [] s ∧ P s := by
  cases hfaults : hasErrors p.faults with
  | true =>
      unfold Graph.insertChannels at h
      rw [if_pos hfaults] at h
      cases h
      refine ⟨⟨extends_start, by simp, by simp [carried], ?_⟩, hstart⟩
      intro hclean
      cases hfaults.symm.trans hclean
  | false =>
      rw [insertChannels_eq_foldlM hfaults] at h
      refine foldlM_invariant
        (P := fun done todo s => Progress g a p done todo s ∧ P s) ?_ ⟨progress_start, hstart⟩ h
      rintro done ⟨id, crossing⟩ todo s s' ⟨hs, hP⟩ hok
      have hone := step_of_ok hok
      exact ⟨hs.step hg hone, hstep hs hone hP⟩

/-- What every step keeps, for a crossing that waits, holds of the result of insertion. -/
theorem insertChannels_induction {P : Insertion → Prop} (hg : g.ReferencesExist)
    (hstart : P { graph := g, diagnostics := p.faults })
    (hstep : ∀ {s s' id crossing arc}, Extends g a p s → g.arc? id = some arc →
      id ∉ s.carried → Step a p s id crossing s' → P s → P s')
    (h : g.insertChannels a p = .ok s) :
    Progress g a p g.crossings [] s ∧ P s := by
  refine insertChannels_run hg hstart ?_ h
  intro done todo s s' id crossing hs hone hP
  obtain ⟨⟨arc, -, harc, -, -⟩, hwait⟩ := hs.waits
  exact hstep hs.trace harc hwait hone hP

/-- The description of what insertion makes. -/
theorem progress_insertChannels (hg : g.ReferencesExist) (h : g.insertChannels a p = .ok s) :
    Progress g a p g.crossings [] s :=
  (insertChannels_induction (P := fun _ => True) hg trivial (fun _ _ _ _ _ => trivial) h).1

/-- A policy with an error is reported, so a run without an error had a sound policy. -/
theorem hasErrors_faults_of_insertChannels (h : g.insertChannels a p = .ok s)
    (hclean : hasErrors s.diagnostics = false) : hasErrors p.faults = false := by
  unfold Graph.insertChannels at h
  dsimp only at h
  split at h
  · cases h
    exact hclean
  · rename_i hfaults
    exact Bool.eq_false_iff.mpr hfaults

end Runs

end Insertion
end Dataflow
