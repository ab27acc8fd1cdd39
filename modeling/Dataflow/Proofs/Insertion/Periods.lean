import Dataflow.Proofs.Domain.Composition
import Dataflow.Proofs.Insertion.Records
import Dataflow.Proofs.Insertion.Revalidation

/-!
# Declared periods after insertion

An arc may declare the period of its samples, and validation compares it with the rate of the port
where the arc starts.  When a crossing is led through a channel, both of its halves keep the
declaration.  The first half starts where the crossing did.  The second one starts at the channel,
which runs at the rate of the reader.

So declarations stay true exactly if no crossing that has one leads to another rate, and otherwise a
second validation complains (`periodsHold_insertChannels_iff`).  A valid graph may have such a
crossing (`slowed`): an arc may lead into a clock domain without a boundary.
-/

namespace Dataflow

namespace Graph

/-- No crossing that declares a period leads from one rate to another. -/
def PeriodsCarry (g : Graph) (a : DomainAnalysis) : Prop :=
  ∀ id arc dst, g.arc? id = some arc → arc.dst = .port dst → g.crossing? arc ≠ none →
    arc.period ≠ none → a.baseRate (g.inputDomain dst) = a.baseRate (g.outputDomain arc.src)

end Graph

namespace Insertion

section Arcs

variable {g : Graph} {a : DomainAnalysis} {p : ChannelPolicy} {s : Insertion}

theorem Extends.outputDomain_channel (h : Extends g a p s) (hg : g.WellFormed) {key : ShareKey}
    {c : NodeId} (hroute : (key, c) ∈ s.routes) (port : UInt32) :
    s.graph.outputDomain ⟨c, port⟩ = key.domain := by
  rw [← h.enclosingDomain_channel hg hroute]
  obtain ⟨-, _, _, _, _, -, hc⟩ := h.channel hroute
  simp [Graph.outputDomain, Graph.kindOf, hc, Graph.channelNode]

/-- An arc that starts at a node of the old graph started there before, with the same
declaration. -/
theorem Extends.exists_old (h : Extends g a p s) {id : ArcId} {arc : Arc}
    (harc : s.graph.arc? id = some arc) (hold : g.node? arc.src.node ≠ none) :
    ∃ old, g.arc? id = some old ∧ old.src = arc.src ∧ old.period = arc.period := by
  cases h.fate harc with
  | kept harc' _ => exact ⟨_, harc', rfl, rfl⟩
  | enters _ _ hneeds => exact ⟨_, hneeds.arc_eq, rfl, rfl⟩
  | leaves hroute _ _ => exact absurd (h.channel hroute).1 hold

/-- An arc that starts where it did keeps its period. -/
theorem Extends.period_eq (h : Extends g a p s) (hg : g.ReferencesExist) {b : DomainAnalysis}
    (hperiods : g.PeriodsHold b) {id : ArcId} {arc : Arc} {declared : Rate}
    (harc : s.graph.arc? id = some arc) (hdeclared : arc.period = some declared)
    (hold : g.node? arc.src.node ≠ none) :
    declared.reduced = (b.baseRate (s.graph.outputDomain arc.src)).period := by
  obtain ⟨old, hid, hsrc, hperiod⟩ := h.exists_old harc hold
  obtain ⟨n, hn⟩ := Option.ne_none_iff_exists'.mp hold
  rw [h.keepsNodes.outputDomain_eq hg hn, ← hsrc]
  exact hperiods id old declared hid (hperiod.trans hdeclared)

/-- What a crossing declares is true of its channel exactly if the rates before and behind it
agree. -/
theorem Extends.period_channel_iff (h : Extends g a p s) (hg : g.WellFormed)
    (hrates : g.computeRates.diagnostics = []) (hperiods : g.PeriodsHold g.computeRates.analysis)
    {id : ArcId} {arc : Arc} {dst : PortRef} {key : ShareKey} {capacity : UInt32} {c : NodeId}
    (hroute : (key, c) ∈ s.routes) (hneeds : g.Needs a p id arc dst key capacity) {declared : Rate}
    (hdeclared : arc.period = some declared) :
    declared.reduced =
        (g.computeRates.analysis.baseRate (s.graph.outputDomain ⟨c, 0⟩)).period ↔
      g.computeRates.analysis.baseRate (g.inputDomain dst) =
        g.computeRates.analysis.baseRate (g.outputDomain arc.src) := by
  have hin := Graph.isCoprime_baseRate hrates fun d (hd : g.inputDomain dst = some d) =>
    Graph.exists_domainRate_of_inputDomain hd
  have hout := Graph.isCoprime_baseRate hrates fun d (hd : g.outputDomain arc.src = some d) =>
    Graph.exists_domainRate_of_outputDomain hd
  rw [h.outputDomain_channel hg hroute, ← hneeds.domain,
    hperiods id arc declared hneeds.arc_eq hdeclared, Rate.period_inj hout hin]
  exact eq_comm

/-- All declarations are true after insertion if no crossing with one leads to another rate. -/
theorem Progress.periodsHold_iff (h : Progress g a p g.crossings [] s) (hrec : Records g a p s)
    (hclean : hasErrors s.diagnostics = false) (hg : g.WellFormed)
    (hrates : g.computeRates.diagnostics = []) (hperiods : g.PeriodsHold g.computeRates.analysis) :
    s.graph.PeriodsHold g.computeRates.analysis ↔ g.PeriodsCarry g.computeRates.analysis := by
  constructor
  · intro hafter id arc dst harc hends hcross hperiod
    obtain ⟨declared, hdeclared⟩ := Option.ne_none_iff_exists'.mp hperiod
    obtain ⟨crossing, hk⟩ := Option.ne_none_iff_exists'.mp hcross
    -- the crossing rides a channel, and so there is an arc that goes on from the channel
    have hid := h.clean hclean (id, crossing) (mem_crossings.mpr ⟨arc, harc, hk⟩)
    obtain ⟨e, he, hmem⟩ := mem_carried_iff.mp hid
    obtain ⟨arc', dst', capacity, j, hneeds, hj⟩ := hrec.delivered e he id hmem
    cases harc.symm.trans hneeds.arc_eq
    cases hends.symm.trans hneeds.ends
    have hbehind := hafter j _ declared hj hdeclared
    exact (h.trace.period_channel_iff hg hrates hperiods (mem_routes_of_mem he) hneeds hdeclared).mp
      hbehind
  · intro hcarry id arc' declared harc hdeclared
    by_cases hold : g.node? arc'.src.node = none
    · cases h.trace.fate harc with
      | kept hid _ =>
          obtain ⟨n, hn, -⟩ := hg.source hid
          cases hold.symm.trans hn
      | enters _ _ hneeds =>
          obtain ⟨n, hn, -⟩ := hg.source hneeds.arc_eq
          cases hold.symm.trans hn
      | @leaves arc _ _ _ _ _ hroute hlead hneeds =>
          have hdeclared : arc.period = some declared := hdeclared
          refine (h.trace.period_channel_iff hg hrates hperiods hroute hneeds hdeclared).mpr ?_
          refine hcarry _ arc _ hneeds.arc_eq hneeds.ends (h.crosses hlead hneeds.arc_eq) ?_
          rw [hdeclared]
          exact Option.some_ne_none declared
    · exact h.trace.period_eq hg.toReferencesExist hperiods harc hdeclared hold

end Arcs

end Insertion

namespace Graph

section Validation

variable {g : Graph} {p : ChannelPolicy} {v : Validation} {s : Insertion}

/-- A second validation repeats the first one, and may add complaints about periods and topology. -/
theorem validate_eq_of_insertChannels (hv : g.validate p = .ok v)
    (hvalid : hasErrors v.diagnostics = false) (hs : g.insertChannels v.analysis p = .ok s)
    (hclean : hasErrors s.diagnostics = false) :
    s.graph.validate p = .ok {
      analysis := v.analysis
      diagnostics := s.graph.periodFaults g.computeRates ++ s.graph.topologyFaults } := by
  have hwell := Insertion.wellFormed_of_valid hv hvalid hs hclean
  obtain ⟨hg, hanalysis⟩ := valid_of_validate hv hvalid
  rw [hanalysis] at hs ⊢
  have hrefs := hg.wellFormed.toReferencesExist
  have hrun := Insertion.progress_insertChannels hrefs hs
  have hsame := hrun.trace.computeRates_eq hrefs
  obtain ⟨hreleases, hadmits⟩ := blockFaults_eq_nil_iff.mp hg.blocks
  have hblocks : s.graph.blockFaults p g.computeRates = .ok [] := blockFaults_eq_nil_iff.mpr
    ⟨fun id n spec => hrun.trace.releases hreleases,
      fun d hd => hadmits d (hrun.anchored hg.wellFormed hd)⟩
  refine (validate_eq_ok_iff hwell).mpr ⟨[], hsame ▸ hblocks, ?_⟩
  rw [hsame, hg.rates, hrun.trace.rateChangeFaults_eq_nil hg.changes]
  rfl

/-- Insertion without an error into a valid graph keeps the period of every arc that starts where it
did.  All declared periods are true of the new graph exactly if no crossing that declares one leads
from one base rate to another, and exactly then a second validation finds no period at fault. -/
theorem periodsHold_insertChannels_iff (g : Graph) (p : ChannelPolicy) (v : Validation)
    (s : Insertion) (hv : g.validate p = .ok v) (hvalid : hasErrors v.diagnostics = false)
    (hs : g.insertChannels v.analysis p = .ok s) (hclean : hasErrors s.diagnostics = false) :
    (∀ id arc declared, s.graph.arc? id = some arc → arc.period = some declared →
      g.node? arc.src.node ≠ none →
        declared.reduced = (v.analysis.baseRate (s.graph.outputDomain arc.src)).period) ∧
    (s.graph.PeriodsHold v.analysis ↔ g.PeriodsCarry v.analysis) ∧
    ∃ v', s.graph.validate p = .ok v' ∧ v'.analysis = v.analysis ∧
      ((∀ d ∈ v'.diagnostics, d.code ≠ some .periodMismatch) ↔
        s.graph.PeriodsHold v.analysis) := by
  have hagain := validate_eq_of_insertChannels hv hvalid hs hclean
  obtain ⟨hg, hanalysis⟩ := valid_of_validate hv hvalid
  rw [hanalysis] at hs hagain ⊢
  have hbroken := broken_computeRates hg.rates
  have hperiods := (periodFaults_eq_nil_iff hbroken).mp hg.periods
  have hrefs := hg.wellFormed.toReferencesExist
  have hrun := Insertion.progress_insertChannels hrefs hs
  refine ⟨?_, ?_, _, hagain, rfl, ?_⟩
  · intro id arc declared harc hdeclared hold
    exact hrun.trace.period_eq hrefs hperiods harc hdeclared hold
  · exact hrun.periodsHold_iff (Insertion.records_insertChannels hrefs hs) hclean hg.wellFormed
      hg.rates hperiods
  · rw [← periodFaults_eq_nil_iff hbroken, List.eq_nil_iff_forall_not_mem]
    constructor
    · intro hcodes d hd
      exact hcodes d (List.mem_append_left _ hd) (code_of_mem_periodFaults hd)
    · intro hnone d hd
      rcases List.mem_append.mp hd with hd | hd
      · exact absurd hd (hnone d)
      · rcases code_of_mem_topologyFaults hd with hcode | hcode | hcode <;> rw [hcode] <;> decide

/-- Two clock domains of one rate.  An arc from one into the other declares the period of both.  An
arc from outside leads into one of them and declares nothing. -/
def level : Graph :=
  let build : Except Trap Graph := do
    let (left, g) ← empty.addDomain none "left" (.downsample 2)
    let (right, g) ← g.addDomain none "right" (.downsample 2)
    let (a, g) ← g.addPrimitive (some left) "a" 0 1 ⟨0⟩
    let (b, g) ← g.addPrimitive (some right) "b" 2 0 ⟨0⟩
    let (c, g) ← g.addPrimitive none "c" 0 1 ⟨0⟩
    let (declaring, g) ← g.connect ⟨a, 0⟩ ⟨b, 0⟩
    let (_, g) ← g.connect ⟨c, 0⟩ ⟨b, 1⟩
    return g.setArcPeriod declaring ⟨4, 2⟩
  build.toOption.getD empty

theorem isClean_level : level.isClean { baseBlockSize := 2 } = true := by
  decide

theorem insertChannels_level :
    ∃ s, level.insertChannels level.computeRates.analysis { baseBlockSize := 2 } = .ok s ∧
      (!hasErrors s.diagnostics && decide (s.carried.length = 2)
        && (s.graph.periodFaults level.computeRates).isEmpty) = true :=
  exists_of_toOption_any (by decide)

/-- The declared period goes through the channel between the two domains. -/
theorem periodsHold_insertChannels_iff_level :
    ∃ v s v', level.validate { baseBlockSize := 2 } = .ok v ∧ hasErrors v.diagnostics = false ∧
      level.insertChannels v.analysis { baseBlockSize := 2 } = .ok s ∧
      hasErrors s.diagnostics = false ∧ s.carried.length = 2 ∧ level.PeriodsCarry v.analysis ∧
      s.graph.PeriodsHold v.analysis ∧ s.graph.validate { baseBlockSize := 2 } = .ok v' ∧
      ∀ d ∈ v'.diagnostics, d.code ≠ some .periodMismatch := by
  obtain ⟨s, hs, htest⟩ := insertChannels_level
  simp only [Bool.and_eq_true, Bool.not_eq_true', decide_eq_true_eq, List.isEmpty_iff] at htest
  obtain ⟨⟨hclean, hlength⟩, hnone⟩ := htest
  have hv := validate_of_isClean isClean_level
  have hbroken := broken_computeRates (valid_of_validate hv rfl).1.rates
  have hperiods := (periodFaults_eq_nil_iff hbroken).mp hnone
  obtain ⟨-, hcarry, v', hv', -, hcodes⟩ :=
    periodsHold_insertChannels_iff level _ _ s hv rfl hs hclean
  exact ⟨_, s, v', hv, rfl, hs, hclean, hlength, hcarry.mp hperiods, hperiods, hv',
    hcodes.mpr hperiods⟩

/-- An arc that declares the period of the base leads into a clock domain of half the rate. -/
def slowed : Graph :=
  let build : Except Trap Graph := do
    let (slow, g) ← empty.addDomain none "slow" (.downsample 2)
    let (a, g) ← g.addPrimitive none "a" 0 1 ⟨0⟩
    let (b, g) ← g.addPrimitive (some slow) "b" 1 0 ⟨0⟩
    let (declaring, g) ← g.connect ⟨a, 0⟩ ⟨b, 0⟩
    return g.setArcPeriod declaring ⟨1, 1⟩
  build.toOption.getD empty

theorem isClean_slowed : slowed.isClean { baseBlockSize := 2 } = true := by
  decide

theorem insertChannels_slowed :
    ∃ s, slowed.insertChannels slowed.computeRates.analysis { baseBlockSize := 2 } = .ok s ∧
      (!hasErrors s.diagnostics && !(s.graph.periodFaults slowed.computeRates).isEmpty) = true :=
  exists_of_toOption_any (by decide)

/-- Behind the channel the declaration is false, and a second validation says so. -/
theorem slowed_not_periodsHold :
    ∃ v s v', slowed.validate { baseBlockSize := 2 } = .ok v ∧ hasErrors v.diagnostics = false ∧
      slowed.insertChannels v.analysis { baseBlockSize := 2 } = .ok s ∧
      hasErrors s.diagnostics = false ∧ ¬ s.graph.PeriodsHold v.analysis ∧
      s.graph.validate { baseBlockSize := 2 } = .ok v' ∧
      ∃ d ∈ v'.diagnostics, d.code = some .periodMismatch := by
  obtain ⟨s, hs, htest⟩ := insertChannels_slowed
  simp only [Bool.and_eq_true, Bool.not_eq_true', List.isEmpty_eq_false_iff] at htest
  obtain ⟨hclean, hsome⟩ := htest
  have hv := validate_of_isClean isClean_slowed
  have hbroken := broken_computeRates (valid_of_validate hv rfl).1.rates
  obtain ⟨d, hd⟩ := List.exists_mem_of_ne_nil _ hsome
  exact ⟨_, s, _, hv, rfl, hs, hclean, mt (periodFaults_eq_nil_iff hbroken).mpr hsome,
    validate_eq_of_insertChannels hv rfl hs hclean, d, List.mem_append_left _ hd,
    code_of_mem_periodFaults hd⟩

end Validation

end Graph
end Dataflow
