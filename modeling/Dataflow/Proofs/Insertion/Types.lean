import Dataflow.Proofs.Insertion.Report

/-!
# Types after insertion

An arc may declare the type of its samples, and so may the port where it starts.  A channel has the
type of the arc that it was made for, or else of the port where that arc started.

**Riders.**  The arcs that leave an inserted channel are those on its record, which come in the
order of their numbers (`Riders`).  So the channel was made for the first of them.

**Types.**  An arc that has a channel of its own agrees with it.  Arcs that share a channel are not
compared: where the port declares nothing, the first of them decides on the type of the channel, and
a later one may declare another type.

**Result.**  `typesMatch_insertChannels_iff`: declared types still match after insertion exactly if
channels are not shared or no first of the crossings that share one declares another type than a
later one.  A valid graph may have such crossings (`fanned`).
-/

namespace Dataflow

namespace Graph

/-- An arc that declares a type, and leaves a port that declares one, declares the type of the
port. -/
def TypesMatch (g : Graph) : Prop :=
  ∀ id arc t u, g.arc? id = some arc → arc.ty = some t → g.outputType arc.src = some u → t = u

theorem typesMatch_iff {g : Graph} :
    g.TypesMatch ↔ ∀ a ∈ g.arcList, ∀ t ∈ a.2.ty, ∀ u ∈ g.outputType a.2.src, t = u := by
  constructor
  · rintro h ⟨id, arc⟩ ha t ht u hu
    exact h id arc t u (mem_arcList.mp ha) ht hu
  · intro h id arc t u harc ht hu
    exact h (id, arc) (mem_arcList.mpr harc) t ht u hu

instance {g : Graph} : Decidable g.TypesMatch := decidable_of_iff _ typesMatch_iff.symm

/-- The type that an arc declares. -/
def declaredType (g : Graph) (id : ArcId) : Option ElemType := (g.arc? id).bind Arc.ty

/-- A crossing comes before all others that would share its channel. -/
def LeadsFan (g : Graph) (id : ArcId) : Prop :=
  ∀ x ∈ g.crossings, g.fanKey? x.1 = g.fanKey? id → id.val ≤ x.1.val

instance {g : Graph} {id : ArcId} : Decidable (g.LeadsFan id) :=
  inferInstanceAs (Decidable (∀ x ∈ g.crossings, g.fanKey? x.1 = g.fanKey? id → id.val ≤ x.1.val))

/-- The first of the crossings that would share a channel declares no other type than the
rest of them. -/
def FansAgree (g : Graph) : Prop :=
  ∀ x ∈ g.crossings, g.LeadsFan x.1 → ∀ y ∈ g.crossings, g.fanKey? y.1 = g.fanKey? x.1 →
    ∀ t ∈ g.declaredType x.1, ∀ u ∈ g.declaredType y.1, t = u

instance {g : Graph} : Decidable g.FansAgree :=
  inferInstanceAs (Decidable (∀ x ∈ g.crossings, g.LeadsFan x.1 → ∀ y ∈ g.crossings,
    g.fanKey? y.1 = g.fanKey? x.1 → ∀ t ∈ g.declaredType x.1, ∀ u ∈ g.declaredType y.1, t = u))

end Graph

namespace Insertion

section Riders

variable {g : Graph} {a : DomainAnalysis} {p : ChannelPolicy} {s s' : Insertion} {id : ArcId}
  {arc : Arc} {dst : PortRef} {crossing : Crossing} {key : ShareKey} {capacity : UInt32}
  {c : NodeId} {next : ArcId} {e : ShareKey × InsertedChannel}

/-- The arcs that leave an inserted channel are on its record, and the record is in order. -/
structure Riders (g : Graph) (s : Insertion) : Prop where
  ordered : ∀ e ∈ s.entries, e.2.arcs.Pairwise fun i j => i.val < j.val
  leave : ∀ e ∈ s.entries, ∀ {j b}, s.graph.arc? j = some b → b.src.node = e.2.channel →
    ∃ i ∈ e.2.arcs, ∃ arc, g.arc? i = some arc ∧ b = { arc with src := ⟨e.2.channel, 0⟩ }

/-- The arc that shares a channel is put on its record last, and leaves it. -/
theorem Riders.share (h : Riders g s) (hrec : Records g a p s) (htrace : Extends g a p s)
    (hshare : p.shareFanout = true) (he : e ∈ s.entries) (harc : g.arc? id = some arc)
    (hwait : id ∉ s.carried) (hlast : ∀ i ∈ s.carried, i.val < id.val) :
    Riders g (s.share id e.1 e.2) := by
  refine ⟨?_, ?_⟩
  · intro f hf
    obtain ⟨f₀, hf₀, -, -, ⟨-, harcs⟩ | ⟨-, harcs⟩⟩ := hrec.entry_share hshare he hf
    · exact harcs ▸ h.ordered f₀ hf₀
    · rw [harcs, List.pairwise_append]
      refine ⟨h.ordered f₀ hf₀, List.pairwise_singleton _ _, ?_⟩
      intro i hi j hj
      rw [List.mem_singleton.mp hj]
      exact hlast i (mem_carried_iff.mpr ⟨f₀, hf₀, hi⟩)
  · intro f hf j b hb hsrc
    obtain ⟨f₀, hf₀, -, hchannel, harcs⟩ := hrec.entry_share hshare he hf
    rw [hchannel] at hsrc ⊢
    rw [arc?_share e.1 e.2 (htrace.waiting harc hwait)] at hb
    split at hb
    · -- the arc that moved leaves the channel that it shares, and no other
      cases hb
      have hsame : e = f₀ := hrec.eq_of_channel he hf₀ hsrc
      obtain ⟨hne, -⟩ | ⟨-, harcs⟩ := harcs
      · exact absurd hsame.symm hne
      · exact ⟨id, by simp [harcs], arc, harc, by rw [hsame]⟩
    · obtain ⟨i, hi, hrides⟩ := h.leave f₀ hf₀ hb hsrc
      refine ⟨i, ?_, hrides⟩
      obtain ⟨-, harcs⟩ | ⟨-, harcs⟩ := harcs
      · exact harcs ▸ hi
      · rw [harcs]
        exact List.mem_append_left _ hi

/-- Only the second half of an arc that is led through a channel leaves it. -/
theorem Riders.led (h : Riders g s) (hrec : Records g a p s) (htrace : Extends g a p s)
    (htrace' : Extends g a p s') (hg : g.ReferencesExist) (harc : g.arc? id = some arc)
    (hled : s.Led id arc dst crossing key capacity c next s') : Riders g s' := by
  have hmem : ∀ {f}, f ∈ s'.entries ↔
      f ∈ s.entries ∨ f = (key, { channel := c, crossing, arcs := [id] }) := by
    intro f
    rw [hled.entries, List.mem_append, List.mem_singleton]
  refine ⟨?_, ?_⟩
  · intro f hf
    rcases hmem.mp hf with hf | rfl
    · exact h.ordered f hf
    · exact List.pairwise_singleton _ _
  · intro f hf j b hb hsrc
    rw [hled.arcs] at hb
    split at hb
    · -- the first half starts at a node of the old graph
      cases hb
      obtain ⟨n, hn, -⟩ := hg.source harc
      have hnew := (htrace'.channel (mem_routes_of_mem hf)).1
      cases hnew.symm.trans ((congrArg g.node? hsrc).symm.trans hn)
    · split at hb
      · cases hb
        rcases hmem.mp hf with hf | rfl
        · obtain ⟨_, _, _, _, _, -, -, hnode⟩ := hrec.lead f hf
          cases hled.node_fresh.symm.trans ((congrArg s.graph.node? hsrc).trans hnode)
        · exact ⟨id, List.mem_singleton_self id, arc, harc, rfl⟩
      · rcases hmem.mp hf with hf | rfl
        · exact h.leave f hf hb hsrc
        · obtain ⟨n, hn⟩ := (htrace.ends hg hb).1
          cases hled.node_fresh.symm.trans ((congrArg s.graph.node? hsrc).symm.trans hn)

/-- Every step keeps the riders on record. -/
theorem Riders.step {done todo : List (ArcId × Crossing)} (h : Riders g s) (hrec : Records g a p s)
    (hrun : Progress g a p done ((id, crossing) :: todo) s) (hg : g.ReferencesExist)
    (hstep : Step a p s id crossing s') : Riders g s' := by
  obtain ⟨⟨arc, dst, harc, -, -⟩, hwait⟩ := hrun.waits
  have htrace' := hrun.trace.step hg harc hwait hstep
  cases hstep with
  | skip _ => exact h
  | refuse _ => exact ⟨h.ordered, h.leave⟩
  | share _ hshare he hkey =>
      subst hkey
      exact h.share hrec hrun.trace hshare he harc hwait fun _ => hrun.carried_lt
  | lead hneeds _ hled =>
      cases (hrun.trace.waiting harc hwait).symm.trans hneeds.arc_eq
      exact h.led hrec hrun.trace htrace' hg harc hled

/-- The riders of a run are on record. -/
theorem riders_insertChannels (hg : g.ReferencesExist) (h : g.insertChannels a p = .ok s) :
    Riders g s := by
  refine (insertChannels_run (P := fun s => Records g a p s ∧ Riders g s) hg
    ⟨records_start, by simp, by simp⟩ ?_ h).2.2
  intro done todo s s' id crossing hrun hstep hs
  obtain ⟨⟨arc, dst, harc, -, -⟩, hwait⟩ := hrun.waits
  exact ⟨hs.1.step hrun.trace hg harc hwait hstep, hs.2.step hs.1 hrun hg hstep⟩

end Riders

section Types

variable {g : Graph} {a : DomainAnalysis} {p : ChannelPolicy} {s : Insertion}
  {e : ShareKey × InsertedChannel}

/-- An arc that starts at a node of the old graph declares the type of the port there. -/
theorem Extends.type_eq (h : Extends g a p s) (htypes : g.TypesMatch) {id : ArcId} {arc : Arc}
    {t u : ElemType} (harc : s.graph.arc? id = some arc) (hold : g.node? arc.src.node ≠ none)
    (ht : arc.ty = some t) (hu : s.graph.outputType arc.src = some u) : t = u := by
  obtain ⟨n, hn⟩ := Option.ne_none_iff_exists'.mp hold
  rw [h.keepsNodes.outputType_eq hn] at hu
  cases h.fate harc with
  | kept hid _ => exact htypes id arc t u hid ht hu
  | enters _ _ hneeds => exact htypes id _ t u hneeds.arc_eq ht hu
  | leaves hroute _ _ => exact absurd (h.channel hroute).1 hold

/-- A channel has the type of the first arc on its record, or else of the port where its
arcs started. -/
theorem Records.outputType_channel (h : Records g a p s) (he : e ∈ s.entries) :
    ∃ i rest, e.2.arcs = i :: rest ∧
      s.graph.outputType ⟨e.2.channel, 0⟩ = (g.declaredType i).or (g.outputType e.1.src) := by
  obtain ⟨i, rest, arc, dst, capacity, harcs, hneeds, hnode⟩ := h.lead e he
  refine ⟨i, rest, harcs, ?_⟩
  simp [Graph.outputType, Graph.declaredType, hnode, hneeds.arc_eq, hneeds.starts,
    Graph.channelNode]

/-- Where channels are shared, the first arc on a record comes before all others that
could share it. -/
theorem Riders.leadsFan (h : Riders g s) (hrec : Records g a p s)
    (hrun : Progress g a p g.crossings [] s) (hclean : hasErrors s.diagnostics = false)
    (hshare : p.shareFanout = true) (he : e ∈ s.entries) {i : ArcId} {rest : List ArcId}
    (harcs : e.2.arcs = i :: rest) : g.LeadsFan i := by
  intro x hx hkey
  obtain ⟨f, hf, hmem⟩ := mem_carried_iff.mp (hrun.clean hclean x hx)
  have hhead : i ∈ e.2.arcs := by simp [harcs]
  cases (hrec.eq_iff_fanKey? hshare hf he hmem hhead).mpr hkey
  have hordered := h.ordered e he
  rw [harcs, List.pairwise_cons] at hordered
  rw [harcs, List.mem_cons] at hmem
  rcases hmem with heq | hmem
  · rw [heq]
    exact UInt32.le_refl _
  · exact UInt32.le_of_lt (hordered.1 _ hmem)

/-- An arc on record is a crossing. -/
theorem Progress.exists_crossing (h : Progress g a p g.crossings [] s) (he : e ∈ s.entries)
    {i : ArcId} (hi : i ∈ e.2.arcs) : ∃ x ∈ g.crossings, x.1 = i :=
  List.mem_map.mp (h.carried i (mem_carried_iff.mpr ⟨e, he, hi⟩))

/-- An arc that leaves a channel declares the type of the channel, if crossings that share one
agree. -/
theorem Riders.type_eq (h : Riders g s) (hrec : Records g a p s)
    (hrun : Progress g a p g.crossings [] s) (hgroup : Grouped p s)
    (hclean : hasErrors s.diagnostics = false) (htypes : g.TypesMatch)
    (hagree : p.shareFanout = true → g.FansAgree) (he : e ∈ s.entries) {id : ArcId} {arc : Arc}
    {t u : ElemType} (harc : s.graph.arc? id = some arc) (hsrc : arc.src.node = e.2.channel)
    (ht : arc.ty = some t) (hu : s.graph.outputType arc.src = some u) : t = u := by
  obtain ⟨i, hi, b, hb, rfl⟩ := h.leave e he harc hsrc
  have ht : b.ty = some t := ht
  obtain ⟨lead, rest, harcs, hout⟩ := hrec.outputType_channel he
  have hlead : lead ∈ e.2.arcs := by simp [harcs]
  replace hu := hout.symm.trans hu
  cases hdeclared : g.declaredType lead with
  | none =>
      -- the channel has the type of the port where the arc started
      obtain ⟨_, _, _, _, hneeds, -⟩ := hrec.delivered e he i hi
      cases hb.symm.trans hneeds.arc_eq
      rw [hdeclared, Option.none_or, hneeds.starts] at hu
      exact htypes i b t u hb ht hu
  | some w =>
      rw [hdeclared, Option.some_or, Option.some.injEq] at hu
      subst hu
      have hown : g.declaredType i = some t := by
        rw [Graph.declaredType, hb]
        exact ht
      cases hshare : p.shareFanout with
      | true =>
          obtain ⟨x, hx, rfl⟩ := hrun.exists_crossing he hlead
          obtain ⟨y, hy, rfl⟩ := hrun.exists_crossing he hi
          have hkey : g.fanKey? y.1 = g.fanKey? x.1 :=
            (hrec.fanKey?_eq he hi).trans (hrec.fanKey?_eq he hlead).symm
          have hfan := h.leadsFan hrec hrun hclean hshare he harcs
          exact (hagree hshare x hx hfan y hy hkey w hdeclared t hown).symm
      | false =>
          -- the arc has the channel for itself
          obtain ⟨only, honly⟩ := List.length_eq_one_iff.mp (hgroup.alone hshare e he)
          rw [honly, List.mem_singleton] at hi hlead
          rw [hi, ← hlead, hdeclared] at hown
          exact (Option.some.inj hown).symm

/-- Where types match after insertion, crossings that share a channel agree with the first of
them. -/
theorem Riders.fansAgree (h : Riders g s) (hrec : Records g a p s)
    (hrun : Progress g a p g.crossings [] s) (hclean : hasErrors s.diagnostics = false)
    (hshare : p.shareFanout = true) (hafter : s.graph.TypesMatch) : g.FansAgree := by
  intro x hx hfan y hy hkey t ht u hu
  obtain ⟨e, he, hxe⟩ := mem_carried_iff.mp (hrun.clean hclean x hx)
  obtain ⟨f, hf, hye⟩ := mem_carried_iff.mp (hrun.clean hclean y hy)
  cases (hrec.eq_iff_fanKey? hshare hf he hye hxe).mpr hkey
  obtain ⟨lead, rest, harcs, hout⟩ := hrec.outputType_channel he
  have hlead : lead ∈ e.2.arcs := by simp [harcs]
  -- the channel was made for the crossing that comes first
  have hsame : lead = x.1 := by
    obtain ⟨z, hz, rfl⟩ := hrun.exists_crossing he hlead
    have hzx : g.fanKey? z.1 = g.fanKey? x.1 :=
      (hrec.fanKey?_eq he hlead).trans (hrec.fanKey?_eq he hxe).symm
    have hle := h.leadsFan hrec hrun hclean hshare he harcs x hx hzx.symm
    exact congrArg ArcId.mk (UInt32.le_antisymm hle (hfan z hz hzx))
  obtain ⟨arc, dst, capacity, j, hneeds, hj⟩ := hrec.delivered e he y.1 hye
  have hdeclared : arc.ty = some u := by
    rw [Graph.declaredType, hneeds.arc_eq] at hu
    exact hu
  refine (hafter j _ u t hj hdeclared ?_).symm
  rw [hout, hsame, ht]
  rfl

/-- Types match after insertion if channels are not shared, or only by crossings that agree. -/
theorem Progress.typesMatch_iff (hrun : Progress g a p g.crossings [] s) (hrec : Records g a p s)
    (hgroup : Grouped p s) (hriders : Riders g s) (hclean : hasErrors s.diagnostics = false)
    (hg : g.ReferencesExist) (htypes : g.TypesMatch) :
    s.graph.TypesMatch ↔ (p.shareFanout = true → g.FansAgree) := by
  constructor
  · intro hafter hshare
    exact hriders.fansAgree hrec hrun hclean hshare hafter
  · intro hagree id arc t u harc ht hu
    by_cases hold : g.node? arc.src.node = none
    · obtain ⟨n, hn⟩ := (hrun.trace.ends hg harc).1
      obtain ⟨key, hroute⟩ := mem_channels.mp (hrun.trace.new hn hold)
      obtain ⟨e, he, heq⟩ := List.mem_map.mp hroute
      have hsrc : arc.src.node = e.2.channel := (congrArg Prod.snd heq).symm
      exact hriders.type_eq hrec hrun hgroup hclean htypes hagree he harc hsrc ht hu
    · exact hrun.trace.type_eq htypes harc hold ht hu

end Types

end Insertion

namespace Graph

/-- Insertion without an error into a valid graph whose declared types match keeps the types of
all arcs that start where they did.  All declared types match afterwards exactly if channels
are not shared, or the first of the crossings that share one declares no other type than the
rest of them. -/
theorem typesMatch_insertChannels_iff (g : Graph) (p : ChannelPolicy) (v : Validation)
    (s : Insertion) (htypes : g.TypesMatch) (hv : g.validate p = .ok v)
    (hvalid : hasErrors v.diagnostics = false) (hs : g.insertChannels v.analysis p = .ok s)
    (hclean : hasErrors s.diagnostics = false) :
    (∀ id arc t u, s.graph.arc? id = some arc → g.node? arc.src.node ≠ none → arc.ty = some t →
      s.graph.outputType arc.src = some u → t = u) ∧
    (s.graph.TypesMatch ↔ (p.shareFanout = true → g.FansAgree)) := by
  have hrefs := (wellFormed_of_validate hv hvalid).1.toReferencesExist
  have hrun := Insertion.progress_insertChannels hrefs hs
  refine ⟨?_, ?_⟩
  · intro id arc t u harc hold ht hu
    exact hrun.trace.type_eq htypes harc hold ht hu
  · exact hrun.typesMatch_iff (Insertion.records_insertChannels hrefs hs)
      (Insertion.grouped_insertChannels hrefs hs)
      (Insertion.riders_insertChannels hrefs hs) hclean hrefs htypes

/-- A port that declares nothing, with two readers in one partition.  The arcs to them
declare types. -/
def fanned (first second : ElemType) : Graph :=
  let build : Except Trap Graph := do
    let (a, g) ← empty.addPrimitive none "a" 0 1 ⟨0⟩
    let (b, g) ← g.addPrimitive none "b" 1 0 ⟨1⟩
    let (c, g) ← g.addPrimitive none "c" 1 0 ⟨1⟩
    let (_, g) ← g.placeArc { src := ⟨a, 0⟩, dst := .port ⟨b, 0⟩, ty := some first }
    let (_, g) ← g.placeArc { src := ⟨a, 0⟩, dst := .port ⟨c, 0⟩, ty := some second }
    return g
  build.toOption.getD empty

theorem insertChannels_fanned :
    ∃ s, (fanned .f32 .f32).insertChannels (fanned .f32 .f32).computeRates.analysis
        { shareFanout := true } = .ok s ∧
      (!hasErrors s.diagnostics && decide (s.inserted.map InsertedChannel.arcs = [[⟨0⟩, ⟨1⟩]])) =
        true :=
  exists_of_toOption_any (by decide)

/-- Arcs of one type share a channel, and both match it. -/
theorem typesMatch_insertChannels_iff_fanned :
    ∃ v s, (fanned .f32 .f32).TypesMatch ∧
      (fanned .f32 .f32).validate { shareFanout := true } = .ok v ∧
      hasErrors v.diagnostics = false ∧
      (fanned .f32 .f32).insertChannels v.analysis { shareFanout := true } = .ok s ∧
      hasErrors s.diagnostics = false ∧ s.inserted.map InsertedChannel.arcs = [[⟨0⟩, ⟨1⟩]] ∧
      (fanned .f32 .f32).FansAgree ∧ s.graph.TypesMatch := by
  obtain ⟨s, hs, htest⟩ := insertChannels_fanned
  simp only [Bool.and_eq_true, Bool.not_eq_true', decide_eq_true_eq] at htest
  have hv :=
    validate_of_isClean (by decide : (fanned .f32 .f32).isClean { shareFanout := true } = true)
  have htypes : (fanned .f32 .f32).TypesMatch := by decide
  have hagree : (fanned .f32 .f32).FansAgree := by decide
  obtain ⟨-, hiff⟩ := typesMatch_insertChannels_iff _ _ _ s htypes hv rfl hs htest.1
  exact ⟨_, s, htypes, hv, rfl, hs, htest.1, htest.2, hagree, hiff.mpr fun _ => hagree⟩

theorem insertChannels_fanned_mixed :
    ∃ s, (fanned .f32 .i32).insertChannels (fanned .f32 .i32).computeRates.analysis
        { shareFanout := true } = .ok s ∧
      (!hasErrors s.diagnostics && decide (s.inserted.map InsertedChannel.arcs = [[⟨0⟩, ⟨1⟩]])
        && !decide s.graph.TypesMatch) = true :=
  exists_of_toOption_any (by decide)

/-- Arcs of two types share a channel, and the second one does not match it. -/
theorem fanned_not_typesMatch :
    ∃ v s, (fanned .f32 .i32).TypesMatch ∧
      (fanned .f32 .i32).validate { shareFanout := true } = .ok v ∧
      hasErrors v.diagnostics = false ∧
      (fanned .f32 .i32).insertChannels v.analysis { shareFanout := true } = .ok s ∧
      hasErrors s.diagnostics = false ∧ s.inserted.map InsertedChannel.arcs = [[⟨0⟩, ⟨1⟩]] ∧
      ¬ s.graph.TypesMatch := by
  obtain ⟨s, hs, htest⟩ := insertChannels_fanned_mixed
  simp only [Bool.and_eq_true, Bool.not_eq_true', decide_eq_true_eq, decide_eq_false_iff_not]
    at htest
  obtain ⟨⟨hclean, harcs⟩, hmixed⟩ := htest
  have hv :=
    validate_of_isClean (by decide : (fanned .f32 .i32).isClean { shareFanout := true } = true)
  exact ⟨_, s, by decide, hv, rfl, hs, hclean, harcs, hmixed⟩

end Graph

end Dataflow
