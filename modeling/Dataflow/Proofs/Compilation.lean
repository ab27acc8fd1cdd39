import Dataflow.Compilation
import Dataflow.Proofs.Insertion.Run
import Dataflow.Proofs.Plan.Synthesis

/-!
# What a compilation reports

The code that says that the certificate of insertion failed is used by nothing else.  So a
compilation reports it only where the certificate fails.
-/

namespace Dataflow

/-- A diagnostic that does not speak of the certificate of insertion. -/
def Diagnostic.SparesInsertion (d : Diagnostic) : Prop := d.code ≠ some .insertionCert

section Insertion

variable {g : Graph} {a : DomainAnalysis} {p : ChannelPolicy} {s : Insertion}

theorem sparesInsertion_faults {d : Diagnostic} (hd : d ∈ p.faults) : d.SparesInsertion := by
  unfold ChannelPolicy.faults at hd
  rcases List.mem_append.mp hd with hd | hd
  · split at hd
    · rw [List.mem_singleton] at hd
      subst hd
      simp [Diagnostic.SparesInsertion]
    · cases hd
  · split at hd
    · rw [List.mem_singleton] at hd
      subst hd
      simp [Diagnostic.SparesInsertion]
    · split at hd
      · rw [List.mem_singleton] at hd
        subst hd
        simp [Diagnostic.SparesInsertion]
      · cases hd

/-- Insertion itself refuses arcs for other reasons. -/
theorem sparesInsertion_insertChannels (hg : g.ReferencesExist)
    (h : g.insertChannels a p = .ok s) : ∀ d ∈ s.diagnostics, d.SparesInsertion := by
  refine (Insertion.insertChannels_induction
    (P := fun s => ∀ d ∈ s.diagnostics, d.SparesInsertion) hg ?_ ?_ h).2
  · intro d hd
    exact sparesInsertion_faults hd
  · intro s s' id crossing arc _ _ _ hstep hs
    cases hstep with
    | skip _ => exact hs
    | refuse href =>
        intro d hd
        rcases List.mem_append.mp hd with hd | hd
        · exact hs d hd
        · rw [List.mem_singleton.mp hd]
          rcases href.code with hcode | hcode
          · simp [Diagnostic.SparesInsertion, hcode]
          · simp [Diagnostic.SparesInsertion, hcode]
    | share _ _ _ _ => exact hs
    | lead _ _ hled =>
        rw [hled.diagnostics]
        exact hs

end Insertion

section Synthesis

variable {g : Graph} {a : DomainAnalysis}

/-- Planning reports missing ends, types, layouts and cycles. -/
theorem sparesInsertion_synthesize {s : Synthesis} (h : g.synthesize a = .ok s) :
    ∀ d ∈ s.diagnostics, d.SparesInsertion := by
  intro d hd
  unfold Diagnostic.SparesInsertion
  rcases mem_diagnostics_synthesize h hd with ⟨code, subject, message, rfl, hcode⟩ | ⟨hcode, -⟩
  · rcases hcode with rfl | rfl | rfl <;> simp [planError]
  · simp [hcode]

end Synthesis

section Passes

namespace Compilation

variable {c c' : Compilation}

theorem sparesInsertion_finish {pass : Pass} {ds : List Diagnostic}
    (hc : ∀ d ∈ c.diagnostics, d.SparesInsertion) (hds : ∀ d ∈ ds, d.SparesInsertion) :
    ∀ d ∈ (c.finish pass ds).diagnostics, d.SparesInsertion := by
  intro d hd
  simp only [diagnostics, finish, List.flatMap_append, List.flatMap_singleton,
    List.mem_append] at hd
  rcases hd with hd | hd
  · exact hc d hd
  · exact hds d hd

theorem sparesInsertion_runSynthesize (hc : ∀ d ∈ c.diagnostics, d.SparesInsertion)
    (h : c.runSynthesize = .ok c') : ∀ d ∈ c'.diagnostics, d.SparesInsertion := by
  unfold runSynthesize at h
  obtain ⟨s, hs, h⟩ := bind_eq_ok_iff.mp h
  cases h
  refine sparesInsertion_finish hc ?_
  intro d hd
  rcases List.mem_append.mp hd with hd | hd
  · exact sparesInsertion_synthesize hs d hd
  · unfold Certificate.faults at hd
    split at hd
    · cases hd
    · rw [List.mem_singleton] at hd
      subst hd
      simp [Diagnostic.SparesInsertion]

end Compilation

namespace Compilation

variable {g : Graph} {p : ChannelPolicy} {v : Validation} {s : Insertion}

/-- The state of a compilation after a validation. -/
def validated (g : Graph) (p : ChannelPolicy) (v : Validation) : Compilation :=
  { start g p with analysis := some v.analysis }.finish .validate v.diagnostics

/-- The state of a compilation after a validation and an insertion. -/
def channelled (g : Graph) (p : ChannelPolicy) (v : Validation) (s : Insertion) : Compilation :=
  { validated g p v with
    graph := s.graph
    inserted := some s.inserted
    insertionCert := some s.graph.insertionCert }.finish .insertChannels
      (s.diagnostics ++ s.graph.insertionCert.faults "insertion" .insertionCert)

theorem step_validate (hv : g.validate p = .ok v) :
    (start g p).step .validate = .ok (validated g p v) :=
  bind_eq_ok_iff.mpr ⟨v, hv, rfl⟩

theorem step_insertChannels (hnone : v.diagnostics = [])
    (hs : g.insertChannels v.analysis p = .ok s) :
    (validated g p v).step .insertChannels = .ok (channelled g p v s) := by
  have hclean : (validated g p v).hasError = false := by
    simp [validated, hasError, failing?, finish, start, hnone, hasErrors]
  unfold step
  rw [hclean]
  exact bind_eq_ok_iff.mpr ⟨s, hs, rfl⟩

/-- The states in which a compilation of a valid graph can end. -/
theorem compile_cases (hv : g.validate p = .ok v) (hnone : v.diagnostics = [])
    (hs : g.insertChannels v.analysis p = .ok s) {goal : Pass} {c : Compilation}
    (h : g.compile p goal = .ok c) :
    c = validated g p v ∨ c = channelled g p v s ∨ (channelled g p v s).runSynthesize = .ok c := by
  have hfirst := step_validate hv
  have hsecond := step_insertChannels hnone hs
  cases goal with
  | validate =>
      obtain ⟨c1, h1, h⟩ := bind_eq_ok_iff.mp h
      cases hfirst.symm.trans h1
      cases h
      exact .inl rfl
  | insertChannels =>
      obtain ⟨c1, h1, h⟩ := bind_eq_ok_iff.mp h
      cases hfirst.symm.trans h1
      obtain ⟨c2, h2, h⟩ := bind_eq_ok_iff.mp h
      cases hsecond.symm.trans h2
      cases h
      exact .inr (.inl rfl)
  | synthesize =>
      obtain ⟨c1, h1, h⟩ := bind_eq_ok_iff.mp h
      cases hfirst.symm.trans h1
      obtain ⟨c2, h2, h⟩ := bind_eq_ok_iff.mp h
      cases hsecond.symm.trans h2
      obtain ⟨c3, h3, h⟩ := bind_eq_ok_iff.mp h
      cases h
      unfold step at h3
      split at h3
      · cases h3
        exact .inr (.inl rfl)
      · exact .inr (.inr h3)

/-- A compilation of a valid graph whose insertion passes its certificate does not report that the
certificate failed. -/
theorem sparesInsertion_compile (hg : g.ReferencesExist) (hv : g.validate p = .ok v)
    (hnone : v.diagnostics = []) (hs : g.insertChannels v.analysis p = .ok s)
    (hcert : s.graph.insertionCert.allPass = true) {goal : Pass} {c : Compilation}
    (h : g.compile p goal = .ok c) : ∀ d ∈ c.diagnostics, d.SparesInsertion := by
  have hfirst : ∀ d ∈ (validated g p v).diagnostics, d.SparesInsertion := by
    refine sparesInsertion_finish ?_ ?_
    · simp [diagnostics, start]
    · simp [hnone]
  have hsecond : ∀ d ∈ (channelled g p v s).diagnostics, d.SparesInsertion := by
    refine sparesInsertion_finish hfirst ?_
    rw [Certificate.faults, if_pos hcert, List.append_nil]
    exact sparesInsertion_insertChannels hg hs
  rcases compile_cases hv hnone hs h with rfl | rfl | hlast
  · exact hfirst
  · exact hsecond
  · exact sparesInsertion_runSynthesize hsecond hlast

/-- The state of a compilation after all passes. -/
def completed (g : Graph) (p : ChannelPolicy) (v : Validation) (s : Insertion) (t : Synthesis) :
    Compilation :=
  { channelled g p v s with
    plan := some t.plan
    planCert := some (t.plan.cert s.graph) }.finish .synthesize
      (t.diagnostics ++ (t.plan.cert s.graph).faults "plan" .planCert)

/-- A compilation that reported no error and whose certificates pass. -/
def Succeeds (c : Compilation) : Prop :=
  c.hasError = false ∧ (∃ cert, c.insertionCert = some cert ∧ cert.allPass = true) ∧
    ∃ cert, c.planCert = some cert ∧ cert.allPass = true

theorem hasError_finish (c : Compilation) (pass : Pass) (ds : List Diagnostic) :
    (c.finish pass ds).hasError = (c.hasError || hasErrors ds) := by
  simp only [hasError, failing?, finish, Option.isSome_map, List.find?_append, Option.isSome_or]
  by_cases h : hasErrors ds = true <;> simp [h]

theorem hasErrors_append {ds es : List Diagnostic} :
    hasErrors (ds ++ es) = (hasErrors ds || hasErrors es) :=
  List.any_append

theorem hasErrors_faults {cert : Certificate} {what : String} {code : Code} :
    hasErrors (cert.faults what code) = !cert.allPass := by
  unfold Certificate.faults
  cases cert.allPass <;> rfl

variable {c : Compilation} {t : Synthesis}

theorem hasError_validated (v : Validation) :
    (validated g p v).hasError = hasErrors v.diagnostics := by
  rw [validated, hasError_finish]
  exact Bool.false_or _

theorem hasError_channelled (v : Validation) (s : Insertion) :
    (channelled g p v s).hasError =
      (hasErrors v.diagnostics || (hasErrors s.diagnostics || !s.graph.insertionCert.allPass)) := by
  rw [channelled, hasError_finish, hasErrors_append, hasErrors_faults]
  exact congrArg (· || _) (hasError_validated v)

theorem hasError_completed (v : Validation) (s : Insertion) (t : Synthesis) :
    (completed g p v s t).hasError =
      ((channelled g p v s).hasError ||
        (hasErrors t.diagnostics || !(t.plan.cert s.graph).allPass)) := by
  rw [completed, hasError_finish, hasErrors_append, hasErrors_faults]
  rfl

/-- A pass after an error keeps the state, so a state without an error comes from one. -/
theorem hasError_of_step {c' : Compilation} {pass : Pass} (h : c.step pass = .ok c')
    (hc' : c'.hasError = false) : c.hasError = false := by
  by_contra herr
  unfold step at h
  rw [if_pos (by simpa using herr)] at h
  cases h
  exact herr hc'

/-- A compilation that reported no error ran all its passes without one. -/
theorem compile_clean_iff :
    g.compile p .synthesize = .ok c ∧ c.hasError = false ↔
      ∃ v s t, g.validate p = .ok v ∧ hasErrors v.diagnostics = false ∧
        g.insertChannels v.analysis p = .ok s ∧ hasErrors s.diagnostics = false ∧
        s.graph.insertionCert.allPass = true ∧
        s.graph.synthesize v.analysis = .ok t ∧ hasErrors t.diagnostics = false ∧
        (t.plan.cert s.graph).allPass = true ∧ c = completed g p v s t := by
  have hstart : (start g p).hasError = false := rfl
  constructor
  · rintro ⟨h, hclean⟩
    obtain ⟨c₁, h₁, h⟩ := bind_eq_ok_iff.mp h
    obtain ⟨c₂, h₂, h⟩ := bind_eq_ok_iff.mp h
    obtain ⟨c₃, h₃, h⟩ := bind_eq_ok_iff.mp h
    cases h
    have hc₂ := hasError_of_step h₃ hclean
    have hc₁ := hasError_of_step h₂ hc₂
    unfold step at h₁ h₂ h₃
    rw [hstart] at h₁
    rw [hc₁] at h₂
    rw [hc₂] at h₃
    obtain ⟨v, hv, h₁⟩ := bind_eq_ok_iff.mp h₁
    cases h₁
    obtain ⟨s, hs, h₂⟩ := bind_eq_ok_iff.mp h₂
    cases h₂
    obtain ⟨t, ht, h₃⟩ := bind_eq_ok_iff.mp h₃
    cases h₃
    have hall := hclean
    change (completed g p v s t).hasError = false at hall
    simp only [hasError_completed, hasError_channelled, Bool.or_eq_false_iff, Bool.not_eq_false']
      at hall
    exact ⟨v, s, t, hv, hall.1.1, hs, hall.1.2.1, hall.1.2.2, ht, hall.2.1, hall.2.2, rfl⟩
  · rintro ⟨v, s, t, hv, hvc, hs, hsc, hcert, ht, htc, hplan, rfl⟩
    have hc₁ : (validated g p v).hasError = false :=
      (hasError_validated v).trans hvc
    have hc₂ : (channelled g p v s).hasError = false := by
      simp [hasError_channelled, hvc, hsc, hcert]
    have hc₃ : (completed g p v s t).hasError = false := by
      simp [hasError_completed, hc₂, htc, hplan]
    refine ⟨?_, hc₃⟩
    refine bind_eq_ok_iff.mpr ⟨validated g p v, step_validate hv,
      bind_eq_ok_iff.mpr ⟨channelled g p v s, ?_,
        bind_eq_ok_iff.mpr ⟨completed g p v s t, ?_, rfl⟩⟩⟩
    · unfold step
      rw [hc₁]
      exact bind_eq_ok_iff.mpr ⟨s, hs, rfl⟩
    · unfold step
      rw [hc₂]
      exact bind_eq_ok_iff.mpr ⟨t, ht, rfl⟩

end Compilation

end Passes

end Dataflow
