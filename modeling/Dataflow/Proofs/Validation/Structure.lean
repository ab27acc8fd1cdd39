import Dataflow.Proofs.Trap
import Dataflow.Proofs.Validation.Containment
import Dataflow.Proofs.Validation.Leaves
import Dataflow.Proofs.Validation.Rates
import Dataflow.Proofs.Validation.References
import Dataflow.Validation

/-!
# What validation accepts

**Structure.**  No fault of structure is found exactly in the well-formed graphs
(`structuralFaults_eq_nil_iff`).

**Classes.**  Every fault is an error.  Faults of structure are of the class for structure, with
codes of their own, and those that are found afterwards are not, so what validation reports tells
whether a graph is well-formed (`validate_structural_iff`).
-/

namespace Dataflow

section Classes

/-- An error of a given class. -/
def Diagnostic.IsErrorOf (d : Diagnostic) (c : ErrorClass) : Prop :=
  d.errorClass = c ∧ d.level = .error

/-- A code for faults of structure. -/
def Code.isStructural : Code → Bool
  | danglingNode | danglingPort | fanIn | containment | cardinality | strayRateChange => true
  | channelSize | noPartition | ioPartition | duplicateMember | containmentCycle |
      bundleDirection => true
  | _ => false

/-- A fault of structure: an error of that class with one of its codes. -/
def Diagnostic.IsStructural (d : Diagnostic) : Prop :=
  d.IsErrorOf .structural ∧ d.code.any Code.isStructural = true

namespace Graph

theorem isStructural_structural {code : Code} (h : code.isStructural = true)
    (subject : Option NodeId) (message : String) : (structural code subject message).IsStructural :=
  ⟨⟨rfl, rfl⟩, h⟩

end Graph

end Classes

namespace Graph

section Acceptance

variable {g : Graph}

/-- The other rules of structure, once all references exist. -/
theorem structureFaults_eq_nil_iff (hrefs : g.ReferencesExist) :
    g.structureFaults = [] ↔ g.WellFormed := by
  unfold structureFaults
  simp only [List.append_eq_nil_iff, containmentFaults_eq_nil_iff hrefs.parent,
    fanInFaults_eq_nil_iff, cardinalityFaults_eq_nil_iff, channelFaults_eq_nil_iff,
    partitionFaults_eq_nil_iff, bundleFaults_eq_nil_iff]
  constructor
  · rintro ⟨⟨⟨⟨⟨hcontain, hfan⟩, hports⟩, hchannel⟩, hleaf, hio⟩, hbundle⟩
    exact {
      toReferencesExist := hrefs
      toContainmentAgrees := hcontain
      fanIn := hfan _ _ _ _ _
      ports := hports _ _
      channel := hchannel _ _ _
      partition := hleaf _ _
      ioPartition := hio _ _ _
      member_unique := fun hn hn' hk hk' hb => (hbundle _ _ _ _ _ _ hn hn' hk hk' hb).1
      oneDirection := fun hn hn' hk hk' hb => (hbundle _ _ _ _ _ _ hn hn' hk hk' hb).2 }
  · intro h
    refine ⟨⟨⟨⟨⟨h.toContainmentAgrees, ?_⟩, ?_⟩, ?_⟩, ?_, ?_⟩, ?_⟩
    · exact fun _ _ _ _ _ => h.fanIn
    · exact fun _ _ => h.ports
    · exact fun _ _ _ => h.channel
    · exact fun _ _ => h.partition
    · exact fun _ _ _ => h.ioPartition
    · intro id id' n n' ep ep' hn hn' hk hk' hb
      exact ⟨h.member_unique hn hn' hk hk' hb, h.oneDirection hn hn' hk hk' hb⟩

/-- No fault of structure is found exactly in the well-formed graphs. -/
theorem structuralFaults_eq_nil_iff :
    g.structuralFaults = [] ↔ g.WellFormed := by
  unfold structuralFaults
  by_cases hrefs : g.referenceFaults = []
  · simp only [hrefs, List.isEmpty_nil, if_true]
    exact structureFaults_eq_nil_iff (referenceFaults_eq_nil_iff.mp hrefs)
  · -- faulty references end the check, and no graph with them is well-formed
    simp only [List.isEmpty_iff, hrefs, if_false, false_iff]
    intro h
    exact hrefs (referenceFaults_eq_nil_iff.mpr h.toReferencesExist)

end Acceptance

section StructuralClass

variable {g : Graph} {d : Diagnostic}

theorem isStructural_arcFaults {id : ArcId} {a : Arc} (hd : d ∈ g.arcFaults id a) :
    d.IsStructural := by
  unfold arcFaults sourceFaults targetFaults at hd
  grind [isStructural_structural, Code.isStructural]

theorem isStructural_referenceFaults (hd : d ∈ g.referenceFaults) :
    d.IsStructural := by
  simp only [referenceFaults, List.mem_append, List.mem_flatMap] at hd
  rcases hd with ⟨a, -, hd⟩ | ⟨n, -, (hd | hd) | hd⟩
  · exact isStructural_arcFaults hd
  · unfold parentFaults at hd
    grind [isStructural_structural, Code.isStructural]
  · obtain ⟨c, -, rfl⟩ := List.mem_map.mp hd
    exact isStructural_structural rfl ..
  · unfold anchorFaults at hd
    grind [isStructural_structural, Code.isStructural]

theorem isStructural_upwardFaults {id : NodeId} {n : Node} (hd : d ∈ g.upwardFaults id n) :
    d.IsStructural := by
  unfold upwardFaults membershipFaults at hd
  grind [structural, Diagnostic.IsStructural, Diagnostic.IsErrorOf, Code.isStructural]

theorem isStructural_containmentFaults (hd : d ∈ g.containmentFaults) :
    d.IsStructural := by
  simp only [containmentFaults, List.mem_append, List.mem_flatMap] at hd
  obtain ⟨n, -, (hd | hd) | hd⟩ := hd
  · unfold cycleFaults at hd
    grind [isStructural_structural, Code.isStructural]
  · exact isStructural_upwardFaults hd
  · obtain ⟨c, -, hd⟩ := List.mem_filterMap.mp hd
    grind [isStructural_structural, Code.isStructural]

theorem isStructural_bundleFaultsFrom :
    ∀ (rest earlier : List (NodeId × IoEndpoint)),
      d ∈ g.bundleFaultsFrom earlier rest → d.IsStructural
  | [], _, hd => by
      simp [bundleFaultsFrom] at hd
  | (id, ep) :: rest, earlier, hd => by
      simp only [bundleFaultsFrom, List.mem_append] at hd
      rcases hd with (hd | hd) | hd
      · unfold duplicateMember at hd
        grind [structural, Diagnostic.IsStructural, Diagnostic.IsErrorOf, Code.isStructural]
      · unfold mixedDirection at hd
        grind [structural, Diagnostic.IsStructural, Diagnostic.IsErrorOf, Code.isStructural]
      · exact isStructural_bundleFaultsFrom rest _ hd

theorem isStructural_structureFaults (hd : d ∈ g.structureFaults) :
    d.IsStructural := by
  simp only [structureFaults, List.mem_append] at hd
  rcases hd with ((((hd | hd) | hd) | hd) | hd) | hd
  · exact isStructural_containmentFaults hd
  · obtain ⟨p, -, hp⟩ := List.mem_filterMap.mp hd
    grind [isStructural_structural, Code.isStructural]
  · obtain ⟨n, -, hn⟩ := List.mem_filterMap.mp hd
    obtain ⟨rule, -, rfl⟩ := Option.map_eq_some_iff.mp hn
    exact isStructural_structural rfl ..
  · obtain ⟨n, -, hn⟩ := List.mem_filterMap.mp hd
    obtain ⟨spec, -, hspec⟩ := Option.bind_eq_some_iff.mp hn
    grind [structural, Diagnostic.IsStructural, Diagnostic.IsErrorOf, Code.isStructural]
  · obtain ⟨n, -, hn⟩ := List.mem_filterMap.mp hd
    grind [structural, Diagnostic.IsStructural, Diagnostic.IsErrorOf, Code.isStructural]
  · exact isStructural_bundleFaultsFrom _ _ hd

theorem isStructural_structuralFaults (hd : d ∈ g.structuralFaults) :
    d.IsStructural := by
  unfold structuralFaults at hd
  dsimp only at hd
  split at hd
  · exact isStructural_structureFaults hd
  · exact isStructural_referenceFaults hd

theorem isErrorOf_structuralFaults (hd : d ∈ g.structuralFaults) : d.IsErrorOf .structural :=
  (isStructural_structuralFaults hd).1

end StructuralClass

section RateClass

variable {g : Graph} {d : Diagnostic}

theorem isErrorOf_judgeLocal {s : RateState} {x : NodeId × Rate}
    (hs : ∀ d ∈ s.diagnostics, d.IsErrorOf .rate) :
    ∀ d ∈ (g.judgeLocal s x).diagnostics, d.IsErrorOf .rate := by
  intro d hd
  unfold judgeLocal at hd
  split at hd
  · rcases List.mem_append.mp hd with hd | hd
    · exact hs d hd
    · cases List.mem_singleton.mp hd
      exact ⟨rfl, rfl⟩
  · exact hs d hd

theorem isErrorOf_judgeComposed {s : RateState} {x : NodeId}
    (hs : ∀ d ∈ s.diagnostics, d.IsErrorOf .rate) :
    ∀ d ∈ (g.judgeComposed s x).diagnostics, d.IsErrorOf .rate := by
  intro d hd
  unfold judgeComposed at hd
  dsimp only at hd
  split at hd
  · exact hs d hd
  · split at hd
    · rcases List.mem_append.mp hd with hd | hd
      · exact hs d hd
      · cases List.mem_singleton.mp hd
        exact ⟨rfl, rfl⟩
    · exact hs d hd

theorem isErrorOf_computeRates (hd : d ∈ g.computeRates.diagnostics) :
    d.IsErrorOf .rate := by
  have hlocal : ∀ d ∈ (g.domains.foldl g.judgeLocal {}).diagnostics, d.IsErrorOf .rate := by
    refine List.foldlRecOn (motive := fun s : RateState => ∀ d ∈ s.diagnostics, d.IsErrorOf .rate)
      g.domains g.judgeLocal (by simp) ?_
    intro s hs x _
    exact isErrorOf_judgeLocal hs
  refine List.foldlRecOn (motive := fun s : RateState => ∀ d ∈ s.diagnostics, d.IsErrorOf .rate)
    (g.domains.map Prod.fst) g.judgeComposed hlocal ?_ d hd
  intro s hs x _
  exact isErrorOf_judgeComposed hs

theorem isErrorOf_rateChangeFaults {a : DomainAnalysis} (hd : d ∈ g.rateChangeFaults a) :
    d.IsErrorOf .rate := by
  obtain ⟨n, -, hn⟩ := List.mem_filterMap.mp hd
  simp only [Option.bind_eq_bind, Option.bind_eq_some_iff] at hn
  obtain ⟨change, -, domain, -, rate, -, hn⟩ := hn
  grind [rateError, Diagnostic.IsErrorOf]

theorem isErrorOf_periodFaults {s : RateState} (hd : d ∈ g.periodFaults s) :
    d.IsErrorOf .rate := by
  obtain ⟨a, -, ha⟩ := List.mem_filterMap.mp hd
  simp only [Option.bind_eq_bind, Option.bind_eq_some_iff] at ha
  obtain ⟨declared, -, ha⟩ := ha
  grind [rateError, Diagnostic.IsErrorOf]

theorem isErrorOf_topologyFaults (hd : d ∈ g.topologyFaults) :
    d.IsErrorOf .topology := by
  obtain ⟨a, -, ha⟩ := List.mem_filterMap.mp hd
  unfold topologyFault? at ha
  simp only [Option.bind_eq_bind, Option.bind_eq_some_iff] at ha
  obtain ⟨dst, -, source, -, target, -, ha⟩ := ha
  grind [topologyError, Diagnostic.IsErrorOf]

theorem of_mem_channelBlockFaults {s : RateState} {id : NodeId} {spec : ChannelSpec}
    {ds : List Diagnostic} (h : g.channelBlockFaults s id spec = .ok ds) (hd : d ∈ ds) :
    d.IsErrorOf .rate ∧ d.code = some .fractionalBlock ∧ d.hint = none := by
  unfold channelBlockFaults at h
  split at h
  · cases h
    simp at hd
  · obtain ⟨scaled, -, h⟩ := bind_eq_ok_iff.mp h
    cases scaled with
    | ok block =>
        cases h
        simp at hd
    | error fault =>
        cases h
        cases List.mem_singleton.mp hd
        exact ⟨⟨rfl, rfl⟩, rfl, rfl⟩

/-- A block that is a fraction in a domain is reported with a remedy, which names the lower factor
of the rate of the domain. -/
theorem of_mem_domainBlockFaults {p : ChannelPolicy} {s : RateState} {domain blamed : NodeId}
    {ds : List Diagnostic} (h : g.domainBlockFaults p s (domain, blamed) = .ok ds) (hd : d ∈ ds) :
    d.IsErrorOf .rate ∧ d.code = some .fractionalBlock ∧ domain ∉ s.broken ∧
    d.subject = some domain ∧ d.hint = some
      s!"use a base block size divisible by {(s.analysis.baseRate (some domain)).down.toNat}" := by
  unfold domainBlockFaults at h
  dsimp only at h
  split at h
  · cases h
    simp at hd
  · rename_i hwhole
    obtain ⟨scaled, -, h⟩ := bind_eq_ok_iff.mp h
    cases scaled with
    | ok block =>
        cases h
        simp at hd
    | error fault =>
        cases h
        cases List.mem_singleton.mp hd
        exact ⟨⟨rfl, rfl⟩, rfl, mt Std.ExtTreeSet.mem_iff_contains.mp hwhole, rfl, rfl⟩

/-- What is found of blocks are errors with one code.  Those with a remedy are about a domain in
which a block is fixed. -/
theorem of_mem_blockFaults {p : ChannelPolicy} {s : RateState} {ds : List Diagnostic}
    (h : g.blockFaults p s = .ok ds) (hd : d ∈ ds) :
    d.IsErrorOf .rate ∧ d.code = some .fractionalBlock ∧
    (d.hint ≠ none → ∃ domain, g.Anchored domain ∧ domain ∉ s.broken ∧
    d.subject = some domain ∧ d.hint = some
      s!"use a base block size divisible by {(s.analysis.baseRate (some domain)).down.toNat}") := by
  unfold blockFaults at h
  obtain ⟨ofChannels, hchannels, h⟩ := bind_eq_ok_iff.mp h
  obtain ⟨ofDomains, hdomains, h⟩ := bind_eq_ok_iff.mp h
  cases h
  rcases List.mem_append.mp hd with hd | hd
  · obtain ⟨ds, hds, hd⟩ := List.mem_flatten.mp hd
    obtain ⟨c, -, hc⟩ := exists_of_mem_mapM hchannels ds hds
    obtain ⟨hclass, hcode, hnone⟩ := of_mem_channelBlockFaults hc hd
    exact ⟨hclass, hcode, fun hhint => absurd hnone hhint⟩
  · obtain ⟨ds, hds, hd⟩ := List.mem_flatten.mp hd
    obtain ⟨⟨domain, blamed⟩, hlisted, hx⟩ := exists_of_mem_mapM hdomains ds hds
    obtain ⟨hclass, hcode, hremedy⟩ := of_mem_domainBlockFaults hx hd
    have hanchored := exists_mem_toList_anchors.mp ⟨blamed, hlisted⟩
    exact ⟨hclass, hcode, fun _ => ⟨domain, hanchored, hremedy⟩⟩

end RateClass

section Validation

variable {g : Graph} {p : ChannelPolicy} {v : Validation}

/-- A graph that is not well-formed gets its faults of structure reported, and nothing else. -/
theorem validate_of_not_wellFormed (hg : ¬ g.WellFormed) :
    g.validate p = .ok { diagnostics := g.structuralFaults } := by
  have hne : g.structuralFaults ≠ [] := mt structuralFaults_eq_nil_iff.mp hg
  unfold validate
  simp [hne]
  rfl

/-- A well-formed graph has its rates analysed. -/
theorem validate_eq_ok_iff (hg : g.WellFormed) :
    g.validate p = .ok v ↔
      ∃ blocks, g.blockFaults p g.computeRates = .ok blocks ∧
        v = {
          analysis := g.computeRates.analysis
          diagnostics := g.computeRates.diagnostics
            ++ g.rateChangeFaults g.computeRates.analysis ++ blocks
            ++ g.periodFaults g.computeRates ++ g.topologyFaults } := by
  unfold validate
  simp only [structuralFaults_eq_nil_iff.mpr hg, List.isEmpty_nil, Bool.not_true,
    Bool.false_eq_true, if_false]
  rw [bind_eq_ok_iff]
  refine exists_congr fun blocks => and_congr_right fun _ => ?_
  exact ⟨fun h => by cases h; rfl, fun h => by rw [h]; rfl⟩

theorem exists_validate_eq_ok_iff (hg : g.WellFormed) :
    (∃ v, g.validate p = .ok v) ↔ ∃ blocks, g.blockFaults p g.computeRates = .ok blocks := by
  simp only [validate_eq_ok_iff hg]
  constructor
  · rintro ⟨_, blocks, hblocks, -⟩
    exact ⟨blocks, hblocks⟩
  · rintro ⟨blocks, hblocks⟩
    exact ⟨_, blocks, hblocks, rfl⟩

/-- A well-formed graph has no answer only where scaling its blocks has none. -/
theorem validate_eq_error_iff (hg : g.WellFormed) {t : Trap} :
    g.validate p = .error t ↔ g.blockFaults p g.computeRates = .error t := by
  unfold validate
  simp only [structuralFaults_eq_nil_iff.mpr hg, List.isEmpty_nil, Bool.not_true,
    Bool.false_eq_true, if_false]
  exact bind_eq_error_iff fun _ => ⟨_, rfl⟩

/-- What is found in a well-formed graph is not about structure. -/
theorem isErrorOf_validate_of_wellFormed (hg : g.WellFormed) (h : g.validate p = .ok v)
    {d : Diagnostic} (hd : d ∈ v.diagnostics) :
    d.IsErrorOf .rate ∨ d.IsErrorOf .topology := by
  obtain ⟨blocks, hblocks, rfl⟩ := (validate_eq_ok_iff hg).mp h
  simp only [List.mem_append] at hd
  rcases hd with (((hd | hd) | hd) | hd) | hd
  · exact .inl (isErrorOf_computeRates hd)
  · exact .inl (isErrorOf_rateChangeFaults hd)
  · exact .inl (of_mem_blockFaults hblocks hd).1
  · exact .inl (isErrorOf_periodFaults hd)
  · exact .inr (isErrorOf_topologyFaults hd)

/-- Everything that validation reports is an error. -/
theorem level_of_validate (h : g.validate p = .ok v)
    {d : Diagnostic} (hd : d ∈ v.diagnostics) :
    d.level = .error := by
  by_cases hg : g.WellFormed
  · rcases isErrorOf_validate_of_wellFormed hg h hd with hr | ht
    · exact hr.2
    · exact ht.2
  · rw [validate_of_not_wellFormed hg] at h
    cases h
    exact (isErrorOf_structuralFaults hd).2

/-- A validation without errors has nothing to report, and the graph is well-formed. -/
theorem wellFormed_of_validate (h : g.validate p = .ok v) (hv : hasErrors v.diagnostics = false) :
    g.WellFormed ∧ v.diagnostics = [] := by
  have hnil : v.diagnostics = [] := by
    rw [List.eq_nil_iff_forall_not_mem]
    intro d hd
    have hclean := List.any_eq_false.mp hv d hd
    simp [Diagnostic.isError, level_of_validate h hd] at hclean
  refine ⟨?_, hnil⟩
  by_contra hg
  rw [validate_of_not_wellFormed hg] at h
  cases h
  exact hg (structuralFaults_eq_nil_iff.mp hnil)

/-- Every rule of validation holds. -/
structure Valid (g : Graph) (p : ChannelPolicy) : Prop where
  wellFormed : g.WellFormed
  rates : g.computeRates.diagnostics = []
  changes : g.rateChangeFaults g.computeRates.analysis = []
  blocks : g.blockFaults p g.computeRates = .ok []
  periods : g.periodFaults g.computeRates = []
  topology : g.topologyFaults = []

theorem valid_of_validate (h : g.validate p = .ok v) (hv : hasErrors v.diagnostics = false) :
    g.Valid p ∧ v.analysis = g.computeRates.analysis := by
  obtain ⟨hg, hnil⟩ := wellFormed_of_validate h hv
  obtain ⟨blocks, hblocks, rfl⟩ := (validate_eq_ok_iff hg).mp h
  simp only [List.append_eq_nil_iff] at hnil
  obtain ⟨⟨⟨⟨hrates, hchanges⟩, rfl⟩, hperiods⟩, htopology⟩ := hnil
  exact ⟨⟨hg, hrates, hchanges, hblocks, hperiods, htopology⟩, rfl⟩

/-- A graph of which validation reports nothing structural is well-formed. -/
theorem wellFormed_of_forall_ne_structural
    (h : ∀ v, g.validate p = .ok v → ∀ d ∈ v.diagnostics, d.errorClass ≠ .structural) :
    g.WellFormed := by
  by_contra hg
  obtain ⟨d, hd⟩ := List.exists_mem_of_ne_nil _ (mt structuralFaults_eq_nil_iff.mp hg)
  exact h _ (validate_of_not_wellFormed hg) d hd (isErrorOf_structuralFaults hd).1

/-- Whether structure is sound.  Ports are compared with each other and not sorted, so that this can
be evaluated by the kernel. -/
def isSound (g : Graph) : Bool :=
  (g.referenceFaults ++ g.containmentFaults ++ g.cardinalityFaults ++ g.channelFaults
    ++ g.partitionFaults ++ g.bundleFaults).isEmpty
  && decide g.targets.Nodup

theorem wellFormed_of_isSound (h : g.isSound = true) : g.WellFormed := by
  simp only [isSound, Bool.and_eq_true, List.isEmpty_iff, List.append_eq_nil_iff,
    decide_eq_true_eq] at h
  obtain ⟨⟨⟨⟨⟨⟨hrefs, hcontain⟩, hports⟩, hchannels⟩, hpartitions⟩, hbundles⟩, htargets⟩ := h
  rw [← structureFaults_eq_nil_iff (referenceFaults_eq_nil_iff.mp hrefs)]
  simp [structureFaults, hcontain, hports, hchannels, hpartitions, hbundles,
    fanInFaults_eq_nil_iff_nodup.mpr htargets]

/-- Whether validation finds nothing.  Ports are compared with each other and not sorted, so that
this can be evaluated by the kernel. -/
def isClean (g : Graph) (p : ChannelPolicy) : Bool :=
  (g.referenceFaults ++ g.containmentFaults ++ g.cardinalityFaults ++ g.channelFaults
    ++ g.partitionFaults ++ g.bundleFaults).isEmpty
  && decide g.targets.Nodup
  && (g.blockFaults p g.computeRates).toOption.any fun blocks =>
    (g.computeRates.diagnostics ++ g.rateChangeFaults g.computeRates.analysis ++ blocks
      ++ g.periodFaults g.computeRates ++ g.topologyFaults).isEmpty

theorem validate_of_isClean (h : g.isClean p = true) :
    g.validate p = .ok { analysis := g.computeRates.analysis } := by
  obtain ⟨hsound, hrates⟩ := Bool.and_eq_true_iff.mp h
  obtain ⟨blocks, hblocks, hnone⟩ := exists_of_toOption_any hrates
  rw [List.isEmpty_iff] at hnone
  exact (validate_eq_ok_iff (wellFormed_of_isSound hsound)).mpr ⟨blocks, hblocks, by rw [hnone]⟩

/-- Validation reports something about structure exactly if the graph is not well-formed.  It then
reports nothing else, and hands on an empty analysis. -/
theorem validate_structural_iff (g : Graph) (p : ChannelPolicy) :
    (g.WellFormed ↔
      ∀ v, g.validate p = .ok v → ∀ d ∈ v.diagnostics, d.errorClass ≠ .structural) ∧
    (¬ g.WellFormed →
      ∃ v, g.validate p = .ok v ∧ v.diagnostics ≠ [] ∧
        (∀ d ∈ v.diagnostics, d.errorClass = .structural) ∧ v.analysis = {}) := by
  have hbad : ¬ g.WellFormed →
      ∃ v, g.validate p = .ok v ∧ v.diagnostics ≠ [] ∧
        (∀ d ∈ v.diagnostics, d.errorClass = .structural) ∧ v.analysis = {} := by
    intro hg
    refine ⟨_, validate_of_not_wellFormed hg, mt structuralFaults_eq_nil_iff.mp hg, ?_, rfl⟩
    intro d hd
    exact (isErrorOf_structuralFaults hd).1
  refine ⟨⟨?_, ?_⟩, hbad⟩
  · intro hg v hv d hd
    rcases isErrorOf_validate_of_wellFormed hg hv hd with hr | ht
    · rw [hr.1]
      simp
    · rw [ht.1]
      simp
  · intro h
    by_contra hg
    obtain ⟨v, hv, hne, hall, -⟩ := hbad hg
    obtain ⟨d, hd⟩ := List.exists_mem_of_ne_nil _ hne
    exact h v hv d hd (hall d hd)

end Validation

end Graph
end Dataflow
