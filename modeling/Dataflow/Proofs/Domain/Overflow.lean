import Dataflow.Proofs.Domain.Blocks
import Dataflow.Proofs.Domain.Nesting

/-!
# Rates that leave their words

Where the rates around a clock domain do not compose within 32 bits, that is to be reported once, at
the outermost domain concerned.  Domains are gone through in the order of their numbers, and a
domain is passed over in silence when one around it is known to be broken.  So it matters which of
the domains around it come first.

**Nesting.**  In a well-formed graph no climb comes back to where it was.  As long as a climb is not
cut off, the chain of a domain is the chain of the domain around it, and the domain itself
(`domainChain_eq_append`).

**Reports.**  An overflow is reported exactly where no domain around with a smaller number is
spoiled (`Exposed`, kept along the loop by `Traced`).  It is reported at the outermost domain alone
only as far as the domains around it come first (`overflow_reported_iff`).
-/

namespace Dataflow
namespace Graph

section Defs

/-- The rates that a graph declares along a chain of domains do not compose within their words. -/
def Overflows (g : Graph) (chain : List NodeId) : Prop :=
  Rate.base.composeAll (chain.filterMap g.domainRate) = none

instance (g : Graph) (chain : List NodeId) : Decidable (g.Overflows chain) :=
  inferInstanceAs (Decidable (_ = none))

/-- A domain that has no composed rate: its rates overflow, or a domain around it that comes
before it has none. -/
inductive Spoiled (g : Graph) : NodeId → Prop
  | overflows {d : NodeId} :
      g.Overflows (g.domainChain (some d)) →
      Spoiled g d
  | around {d e : NodeId} :
      e ∈ g.domainChain (some d) →
      e.val < d.val →
      Spoiled g e →
      Spoiled g d

/-- The overflow of a domain is reported. -/
def ReportsOverflow (diagnostics : List Diagnostic) (d : NodeId) : Prop :=
  ∃ x ∈ diagnostics, x.code = some .rateOverflow ∧ x.subject = some d

instance (diagnostics : List Diagnostic) (d : NodeId) : Decidable (ReportsOverflow diagnostics d) :=
  inferInstanceAs (Decidable (∃ x ∈ diagnostics, _))

/-- The overflow of a domain is reported when no domain around it that comes before it is
spoiled. -/
def Exposed (g : Graph) (d : NodeId) : Prop :=
  g.Overflows (g.domainChain (some d)) ∧ ∀ e ∈ g.domainChain (some d), e.val < d.val → ¬ g.Spoiled e

end Defs

section Loop

variable {g : Graph}

/-- What does not compose does not compose inside either. -/
theorem Overflows.mono {xs ys : List NodeId} (h : g.Overflows xs) (hxs : xs <+: ys) :
    g.Overflows ys := by
  obtain ⟨rest, rfl⟩ := hxs
  unfold Overflows Rate.composeAll at h ⊢
  rw [List.filterMap_append, List.foldlM_append, h]
  rfl

/-- Composing along a chain of clock domains fails where their rates overflow. -/
theorem composeChain_eq_none_iff {a : DomainAnalysis} {chain : List NodeId}
    (hlocal : ∀ e, a.localRates[e]? = g.domainRate e)
    (hchain : ∀ e ∈ chain, ∃ r, g.domainRate e = some r) :
    composeChain a chain = none ↔ g.Overflows chain := by
  obtain ⟨rates, hrates⟩ := exists_map_domainRate hchain
  have hcompose : composeChain a chain = Rate.base.composeAll rates := by
    refine composeChain_eq .base ?_
    rw [← hrates]
    exact List.map_congr_left fun e _ => hlocal e
  have hdeclared : chain.filterMap g.domainRate = rates := by
    simpa [List.filterMap_map] using congrArg (List.filterMap id) hrates
  rw [hcompose, Overflows, hdeclared]

/-- What is known once the rates of the domains `done` were composed, when every local
rate is in order. -/
structure Traced (g : Graph) (done : List NodeId) (s : RateState) : Prop where
  localRates : ∀ e, s.analysis.localRates[e]? = g.domainRate e
  broken : ∀ {d}, d ∈ s.broken ↔ d ∈ done ∧ g.Spoiled d
  reported : ∀ {d}, ReportsOverflow s.diagnostics d ↔ d ∈ done ∧ g.Exposed d

theorem Traced.step {done : List NodeId} {s : RateState} (h : g.Traced done s)
    {x : NodeId} {r : Rate} (hx : g.domainRate x = some r)
    (hdone : ∀ e q, g.domainRate e = some q → (e ∈ done ↔ e.val < x.val)) :
    g.Traced (done ++ [x]) (g.judgeComposed s x) := by
  have hchain := exists_domainRate_of_mem_domainChain hx
  -- of the domains around `x`, those are broken by now that come before it and are spoiled
  have hbefore : ∀ e ∈ g.domainChain (some x), (e ∈ s.broken ↔ e.val < x.val ∧ g.Spoiled e) := by
    intro e he
    obtain ⟨q, hq⟩ := hchain e he
    rw [h.broken, hdone e q hq]
  have hclear : (∀ e ∈ g.domainChain (some x), e ∉ s.broken) →
      ∀ e ∈ g.domainChain (some x), e.val < x.val → ¬ g.Spoiled e :=
    fun hwhole e he hlt hspoiled => hwhole e he ((hbefore e he).mpr ⟨hlt, hspoiled⟩)
  have hover := composeChain_eq_none_iff h.localRates hchain
  have hbreaks : g.Spoiled x → ∀ {d}, d ∈ s.broken.insert x ↔ d ∈ done ++ [x] ∧ g.Spoiled d := by
    intro hspoiled d
    rw [Std.ExtTreeSet.mem_insert, Std.compare_eq_iff_eq, h.broken, List.mem_append,
      List.mem_singleton]
    grind
  have hsilent : ¬ g.Exposed x →
      ∀ {d}, ReportsOverflow s.diagnostics d ↔ d ∈ done ++ [x] ∧ g.Exposed d := by
    intro hhidden d
    rw [h.reported, List.mem_append, List.mem_singleton]
    grind
  rcases judgeComposed_cases s x with
    ⟨⟨e, he, hbroken⟩, heq⟩ | ⟨hwhole, hnone, fault, hcode, hsubject, heq⟩ |
      ⟨hwhole, base, hbase, heq⟩
  · obtain ⟨hlt, hspoiled⟩ := (hbefore e he).mp hbroken
    rw [heq]
    exact ⟨h.localRates, hbreaks (.around he hlt hspoiled),
      hsilent fun hx => hx.2 e he hlt hspoiled⟩
  · have hexposed : g.Exposed x := ⟨hover.mp hnone, hclear hwhole⟩
    rw [heq]
    refine ⟨h.localRates, hbreaks (.overflows hexposed.1), ?_⟩
    intro d
    have hnew : ReportsOverflow (s.diagnostics ++ [fault]) d ↔
        ReportsOverflow s.diagnostics d ∨ d = x := by
      simp [ReportsOverflow, or_and_right, exists_or, hcode, hsubject, eq_comm]
    rw [hnew, h.reported, List.mem_append, List.mem_singleton]
    grind
  · have hfits : ¬ g.Overflows (g.domainChain (some x)) := by
      rw [← hover, hbase]
      simp
    have hsound : ¬ g.Spoiled x := by
      intro hspoiled
      cases hspoiled with
      | overflows hspoiled => exact hfits hspoiled
      | around he hlt hspoiled => exact hclear hwhole _ he hlt hspoiled
    rw [heq]
    refine ⟨h.localRates, ?_, hsilent fun hx => hfits hx.1⟩
    intro d
    rw [h.broken, List.mem_append, List.mem_singleton]
    grind

/-- In a list in order, what stands before a member is what is smaller. -/
theorem mem_iff_val_lt {done todo : List NodeId} {x e : NodeId}
    (hordered : (done ++ x :: todo).Pairwise fun a b => a.val < b.val)
    (he : e ∈ done ++ x :: todo) : e ∈ done ↔ e.val < x.val := by
  obtain ⟨-, hrest, hcross⟩ := List.pairwise_append.mp hordered
  constructor
  · intro hin
    exact hcross e hin x List.mem_cons_self
  · intro hlt
    rcases List.mem_append.mp he with hin | hin
    · exact hin
    · rcases List.mem_cons.mp hin with rfl | hin
      · exact absurd hlt (UInt32.lt_irrefl _)
      · exact absurd ((List.pairwise_cons.mp hrest).1 e hin) (UInt32.lt_asymm hlt)

/-- Going through clock domains in order keeps track of what is broken and reported. -/
theorem Traced.run {ids : List NodeId} (hordered : ids.Pairwise fun a b => a.val < b.val)
    (hids : ∀ e, e ∈ ids ↔ ∃ r, g.domainRate e = some r) :
    ∀ {todo done : List NodeId} {s : RateState}, ids = done ++ todo → g.Traced done s →
      g.Traced ids (todo.foldl g.judgeComposed s)
  | [], done, s, hsplit, h => by
      rw [hsplit, List.append_nil]
      exact h
  | x :: todo, done, s, hsplit, h => by
      obtain ⟨r, hx⟩ := (hids x).mp (by simp [hsplit])
      have hnext : ids = (done ++ [x]) ++ todo := by
        simp [hsplit]
      rw [List.foldl_cons]
      refine Traced.run hordered hids hnext (h.step hx ?_)
      intro e q hq
      exact mem_iff_val_lt (hsplit ▸ hordered) (hsplit ▸ (hids e).mpr ⟨q, hq⟩)

theorem rateRule?_eq_none {d : NodeId} {r : Rate} (hcoprime : r.isCoprime = true)
    (hhop : r.isIntegralHop = true) : g.rateRule? d r = none := by
  obtain ⟨⟨hup, hdown⟩, -⟩ := Rate.isCoprime_iff.mp hcoprime
  have hzero : ¬ (r.up = 0 ∨ r.down = 0) := by
    rintro (hzero | hzero)
    · simp [hzero] at hup
    · simp [hzero] at hdown
  simp [rateRule?, hzero, hcoprime, hhop]

/-- Where every local rate is in order, the overflow of a domain is reported when it is exposed. -/
theorem traced_computeRates
    (hrates : ∀ d r, g.domainRate d = some r → r.isCoprime = true ∧ r.isIntegralHop = true) :
    g.Traced (g.domains.map Prod.fst) g.computeRates := by
  have hrule : ∀ x ∈ g.domains, g.rateRule? x.1 x.2 = none := by
    intro x hx
    obtain ⟨hcoprime, hhop⟩ := hrates x.1 x.2 (domainRate_eq_some.mpr hx)
    exact rateRule?_eq_none hcoprime hhop
  have hlocals := g.locals_judged_domains
  have hstart : g.Traced [] (g.domains.foldl g.judgeLocal {}) := by
    refine ⟨?_, ?_, ?_⟩
    · intro e
      ext r
      rw [hlocals.known, domainRate_eq_some]
      exact and_iff_left_of_imp (hrule (e, r))
    · intro d
      rw [hlocals.broken]
      refine iff_of_false ?_ (by simp)
      rintro ⟨r, hr, hbad⟩
      exact hbad (hrule _ hr)
    · simp [ReportsOverflow, hlocals.silent.mpr hrule]
  refine Traced.run (List.pairwise_map.mpr g.domains_ordered) ?_ rfl hstart
  intro e
  simp [domainRate_eq_some]

end Loop

section Results

variable {g : Graph}

theorem ne_of_val_lt {d e : NodeId} (h : e.val < d.val) : e ≠ d := by
  rintro rfl
  exact UInt32.lt_irrefl _ h

/-- On a chain that is not cut off, a domain is spoiled where its own rates overflow. -/
theorem spoiled_iff (hg : g.WellFormed) {d : NodeId}
    (h : (g.domainChain (some d)).length < maxNesting) :
    g.Spoiled d ↔ g.Overflows (g.domainChain (some d)) := by
  refine ⟨?_, .overflows⟩
  intro hspoiled
  induction hspoiled with
  | overflows hover => exact hover
  | @around d e he hlt _ ih =>
      obtain ⟨houter, hshort⟩ := domainChain_outer_of_ne hg.acyclic h he (ne_of_val_lt hlt)
      rw [domainChain_eq_append hg.acyclic h]
      exact (ih hshort).mono (houter.trans (List.prefix_append _ _))

theorem spoiled_iff_of_mem (hg : g.WellFormed) {d e : NodeId}
    (h : (g.domainChain (some d)).length < maxNesting) (he : e ∈ g.domainChain (some d)) :
    g.Spoiled e ↔ g.Overflows (g.domainChain (some e)) := by
  by_cases hne : e = d
  · rw [hne]
    exact spoiled_iff hg h
  · exact spoiled_iff hg (domainChain_outer_of_ne hg.acyclic h he hne).2

/-- On a chain that is not cut off, an exposed domain is the outermost one that overflows exactly if
an overflow around it is always one of a domain around it with a smaller number. -/
theorem exposed_outermost_iff (hg : g.WellFormed) {d : NodeId}
    (h : (g.domainChain (some d)).length < maxNesting) :
    (g.Exposed d ↔ g.Overflows (g.domainChain (some d)) ∧
        ¬ g.Overflows (g.domainChain (g.enclosingDomain d))) ↔
      (g.Overflows (g.domainChain (g.enclosingDomain d)) →
        ∃ e ∈ g.domainChain (some d), e.val < d.val ∧ g.Overflows (g.domainChain (some e))) := by
  have hinside : g.Overflows (g.domainChain (g.enclosingDomain d)) →
      g.Overflows (g.domainChain (some d)) := by
    intro hover
    rw [domainChain_eq_append hg.acyclic h]
    exact hover.mono (List.prefix_append _ _)
  constructor
  · intro hiff haround
    by_contra hnone
    have hexposed : g.Exposed d := by
      refine ⟨hinside haround, ?_⟩
      intro e he hlt hspoiled
      exact hnone ⟨e, he, hlt, (spoiled_iff_of_mem hg h he).mp hspoiled⟩
    exact (hiff.mp hexposed).2 haround
  · intro hearlier
    constructor
    · rintro ⟨hover, hclear⟩
      refine ⟨hover, fun haround => ?_⟩
      obtain ⟨e, he, hlt, hbad⟩ := hearlier haround
      exact hclear e he hlt ((spoiled_iff_of_mem hg h he).mpr hbad)
    · rintro ⟨hover, hfits⟩
      refine ⟨hover, fun e he hlt hspoiled => hfits ?_⟩
      -- what overflows further out overflows around `d`
      have hbad := (spoiled_iff_of_mem hg h he).mp hspoiled
      exact hbad.mono (domainChain_outer_of_ne hg.acyclic h he (ne_of_val_lt hlt)).1

/-- Of what validation finds in a well-formed graph, only the composition of rates reports
overflows. -/
theorem reportsOverflow_validate_iff {p : ChannelPolicy} {v : Validation} (hg : g.WellFormed)
    (hv : g.validate p = .ok v) {d : NodeId} :
    ReportsOverflow v.diagnostics d ↔ ReportsOverflow g.computeRates.diagnostics d := by
  obtain ⟨blocks, hblocks, rfl⟩ := (validate_eq_ok_iff hg).mp hv
  constructor
  · rintro ⟨x, hx, hcode, hsubject⟩
    refine ⟨x, ?_, hcode, hsubject⟩
    simp only [List.mem_append] at hx
    rcases hx with (((hx | hx) | hx) | hx) | hx
    · exact hx
    · cases hcode.symm.trans (code_of_mem_rateChangeFaults hx)
    · cases hcode.symm.trans (of_mem_blockFaults hblocks hx).2.1
    · cases hcode.symm.trans (code_of_mem_periodFaults hx)
    · rcases code_of_mem_topologyFaults hx with htopology | htopology | htopology <;>
        cases hcode.symm.trans htopology
  · rintro ⟨x, hx, hreport⟩
    exact ⟨x, by simp [hx], hreport⟩

/-- Where the overflow of rates is reported, in a graph of sound structure with every
local rate in order.

* It is reported at a domain exactly if the rates along its chain overflow and no domain around it
  with a smaller number is spoiled.
* On a chain that is not cut off, spoiled domains are those whose own rates overflow.  There the
  report is right, made where the rates overflow and those around the domain do not, exactly if an
  overflow around the domain is always one of a domain around it with a smaller number. -/
theorem overflow_reported_iff {p : ChannelPolicy} {v : Validation} (hv : g.validate p = .ok v)
    (hstructure : ∀ x ∈ v.diagnostics, x.errorClass ≠ .structural)
    (hrates : ∀ d r, g.domainRate d = some r → r.isCoprime = true ∧ r.isIntegralHop = true)
    {d : NodeId} {r : Rate} (hd : g.domainRate d = some r) :
    (ReportsOverflow v.diagnostics d ↔ g.Overflows (g.domainChain (some d)) ∧
      ∀ e ∈ g.domainChain (some d), e.val < d.val → ¬ g.Spoiled e) ∧
    ((g.domainChain (some d)).length < maxNesting →
      (∀ e ∈ g.domainChain (some d), g.Spoiled e ↔ g.Overflows (g.domainChain (some e))) ∧
      ((ReportsOverflow v.diagnostics d ↔ g.Overflows (g.domainChain (some d)) ∧
          ¬ g.Overflows (g.domainChain (g.enclosingDomain d))) ↔
        (g.Overflows (g.domainChain (g.enclosingDomain d)) →
          ∃ e ∈ g.domainChain (some d), e.val < d.val ∧
          g.Overflows (g.domainChain (some e))))) := by
  have hg : g.WellFormed := by
    refine wellFormed_of_forall_ne_structural (p := p) ?_
    intro v' hv'
    cases hv.symm.trans hv'
    exact hstructure
  have hreported : ReportsOverflow v.diagnostics d ↔ g.Exposed d := by
    rw [reportsOverflow_validate_iff hg hv, (traced_computeRates hrates).reported]
    exact and_iff_right (List.mem_map_of_mem (domainRate_eq_some.mp hd))
  refine ⟨hreported, fun hshort => ⟨fun e he => spoiled_iff_of_mem hg hshort he, ?_⟩⟩
  rw [hreported]
  exact exposed_outermost_iff hg hshort

/-- A graph of sound structure whose blocks are in order is validated, and nothing is found of its
structure. -/
theorem exists_validate_of_isSound {p : ChannelPolicy} (hsound : g.isSound = true)
    (hblocks : g.blockFaults p g.computeRates = .ok []) :
    ∃ v, g.validate p = .ok v ∧ ∀ x ∈ v.diagnostics, x.errorClass ≠ .structural := by
  have hg := wellFormed_of_isSound hsound
  have hv := (validate_eq_ok_iff hg).mpr ⟨[], hblocks, rfl⟩
  refine ⟨_, hv, ?_⟩
  intro x hx
  rcases isErrorOf_validate_of_wellFormed hg hv hx with hrate | htopology
  · rw [hrate.1]
    decide
  · rw [htopology.1]
    decide

theorem rates_of_forall_domains
    (h : ∀ x ∈ g.domains, x.2.isCoprime = true ∧ x.2.isIntegralHop = true) (d : NodeId) (r : Rate)
    (hd : g.domainRate d = some r) : r.isCoprime = true ∧ r.isIntegralHop = true :=
  h (d, r) (domainRate_eq_some.mp hd)

/-- Three domains inside each other, numbered from the outermost on.  The two outer ones overflow
together. -/
def stacked : Graph :=
  let build : Except Trap Graph := do
    let (outer, g) ← empty.addDomain none "outer" (.upsample 65536)
    let (middle, g) ← g.addDomain (some outer) "middle" (.upsample 65536)
    let (_, g) ← g.addDomain (some middle) "inner" .base
    return g
  build.toOption.getD empty

/-- The overflow is reported at the middle domain and not at the inner one. -/
theorem overflow_reported_iff_stacked :
    ∃ v, stacked.validate {} = .ok v ∧ (∀ x ∈ v.diagnostics, x.errorClass ≠ .structural) ∧
      (∀ x ∈ stacked.domains, x.2.isCoprime = true ∧ x.2.isIntegralHop = true) ∧
      ReportsOverflow v.diagnostics ⟨1⟩ ∧ ¬ ReportsOverflow v.diagnostics ⟨2⟩ := by
  have hdomains : ∀ x ∈ stacked.domains, x.2.isCoprime = true ∧ x.2.isIntegralHop = true := by
    decide
  obtain ⟨v, hv, hstructure⟩ := exists_validate_of_isSound (g := stacked) (p := {}) (by decide) rfl
  have hmiddle := (overflow_reported_iff hv hstructure (rates_of_forall_domains hdomains)
    (d := ⟨1⟩) (r := .upsample 65536) (by decide)).2 (by decide)
  have hinner := (overflow_reported_iff hv hstructure (rates_of_forall_domains hdomains)
    (d := ⟨2⟩) (r := .base) (by decide)).2 (by decide)
  refine ⟨v, hv, hstructure, hdomains, ?_, ?_⟩
  · exact (hmiddle.2.mpr (by decide)).mpr (by decide)
  · exact mt (hinner.2.mpr fun _ => ⟨⟨1⟩, by decide⟩).mp (by decide)

/-- The same domains, numbered from the innermost on. -/
def inverted : Graph :=
  let build : Except Trap Graph := do
    let (_, g) ← empty.placeNode
      { name := "inner", kind := .clockDomain .base [] [], parent := some ⟨1⟩ }
    let (_, g) ← g.placeNode
      { name := "middle", kind := .clockDomain (.upsample 65536) [⟨0⟩] [], parent := some ⟨2⟩ }
    let (_, g) ← g.placeNode { name := "outer", kind := .clockDomain (.upsample 65536) [⟨1⟩] [] }
    return g
  build.toOption.getD empty

/-- The overflow of the middle domain is reported at the inner one as well. -/
theorem overflow_inverted_repeated :
    ∃ v, inverted.validate {} = .ok v ∧ (∀ x ∈ v.diagnostics, x.errorClass ≠ .structural) ∧
      (∀ x ∈ inverted.domains, x.2.isCoprime = true ∧ x.2.isIntegralHop = true) ∧
      inverted.Overflows (inverted.domainChain (inverted.enclosingDomain ⟨0⟩)) ∧
      ReportsOverflow v.diagnostics ⟨1⟩ ∧ ReportsOverflow v.diagnostics ⟨0⟩ := by
  have hsound : inverted.isSound = true := by
    decide
  obtain ⟨v, hv, hstructure⟩ := exists_validate_of_isSound (p := {}) hsound rfl
  refine ⟨v, hv, hstructure, by decide, by decide, ?_⟩
  rw [reportsOverflow_validate_iff (wellFormed_of_isSound hsound) hv,
    reportsOverflow_validate_iff (wellFormed_of_isSound hsound) hv]
  decide

end Results

end Graph
end Dataflow
