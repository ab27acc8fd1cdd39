import Dataflow.Proofs.Sizing
import Dataflow.Proofs.Validation.Rates
import Mathlib.Algebra.BigOperators.Group.List.Basic
import Mathlib.Algebra.Order.Field.Basic
import Mathlib.Algebra.Order.Field.Rat
import Mathlib.Data.List.Induction
import Mathlib.Data.Nat.Cast.Field

/-!
# Composed rates

A rate stands for a fraction (`Rate.value`).  Composing two rates multiplies their fractions and
keeps them in lowest terms, so the base rate of a domain is the product of the local rates on
the way into it.

**Results.**
* `Rate.composeAll_eq_some`: rates composed one after the other multiply.
* `Graph.judgeComposed_cases`: what composing the rate of one more domain does.
* `Graph.exists_charted_of_not_mem_broken`: the analysis of a graph knows every clock domain that is
  not broken: the chain of domains around it, their local rates, and the rate composed from these.
  When the rates are in order, that is every clock domain (`exists_charted`).
-/

namespace Dataflow

section Fractions

namespace Rate

/-- The fraction that a rate stands for. -/
def value (r : Rate) : ℚ := r.up.toNat / r.down.toNat

@[simp] theorem value_base : base.value = 1 := by
  simp [value, base]

/-- The product of rates. -/
def product (rates : List Rate) : ℚ := (rates.map value).prod

@[simp] theorem product_nil : product [] = 1 := rfl

@[simp] theorem product_cons (r : Rate) (rates : List Rate) :
    product (r :: rates) = r.value * product rates := by
  simp [product]

theorem isCoprime_iff {r : Rate} :
    r.isCoprime = true ↔ r.Positive ∧ Nat.Coprime r.up.toNat r.down.toNat := by
  simp [isCoprime, Positive, Nat.Coprime, UInt32.lt_iff_toNat_lt]

theorem value_mul_down {r : Rate} (h : r.Positive) : r.value * r.down.toNat = r.up.toNat := by
  have hdown : (r.down.toNat : ℚ) ≠ 0 := Nat.cast_ne_zero.mpr (Nat.ne_of_gt h.2)
  exact div_mul_cancel₀ _ hdown

/-- A block is scaled to at most its multiple by the upper factor. -/
theorem value_le_up {r : Rate} (h : r.Positive) : r.value ≤ r.up.toNat := by
  refine div_le_self (Nat.cast_nonneg _) ?_
  exact_mod_cast h.2

end Rate

/-- Dividing out the greatest common divisor leaves the fraction as it is. -/
theorem reduceRatio_pos {num den : Nat} (hnum : 0 < num) (hden : 0 < den) :
    Nat.Coprime (reduceRatio num den).1 (reduceRatio num den).2 ∧
      0 < (reduceRatio num den).1 ∧ 0 < (reduceRatio num den).2 ∧
      ((reduceRatio num den).1 : ℚ) / (reduceRatio num den).2 = num / den := by
  have hgcd : 0 < num.gcd den := Nat.gcd_pos_of_pos_left den hnum
  have hne : ¬ (num = 0 ∨ den = 0) := by omega
  have hcast : ((num.gcd den : ℕ) : ℚ) ≠ 0 := Nat.cast_ne_zero.mpr (Nat.ne_of_gt hgcd)
  simp only [reduceRatio, if_neg hne]
  refine ⟨Nat.coprime_div_gcd_div_gcd hgcd, ?_, ?_, ?_⟩
  · exact Nat.div_pos (Nat.le_of_dvd hnum (Nat.gcd_dvd_left num den)) hgcd
  · exact Nat.div_pos (Nat.le_of_dvd hden (Nat.gcd_dvd_right num den)) hgcd
  · rw [Nat.cast_div (Nat.gcd_dvd_left num den) hcast,
      Nat.cast_div (Nat.gcd_dvd_right num den) hcast]
    exact div_div_div_cancel_right₀ hcast _ _

end Fractions

section Composition

namespace Rate

variable {outer inner r : Rate}

theorem compose_eq_some_iff :
    outer.compose inner = some r ↔
      (r.up.toNat, r.down.toNat) =
        reduceRatio (outer.up.toNat * inner.up.toNat) (outer.down.toNat * inner.down.toNat) := by
  unfold compose
  generalize reduceRatio (outer.up.toNat * inner.up.toNat) (outer.down.toNat * inner.down.toNat) = q
  obtain ⟨up, down⟩ := q
  simp only [Option.bind_eq_bind, Option.bind_eq_some_iff, word?_eq_some_iff, Prod.mk.injEq]
  constructor
  · rintro ⟨u, hu, d, hd, h⟩
    cases h
    exact ⟨hu, hd⟩
  · rintro ⟨hu, hd⟩
    exact ⟨r.up, hu, r.down, hd, rfl⟩

/-- Composing multiplies, and the result is in lowest terms. -/
theorem compose_eq_some (houter : outer.Positive) (hinner : inner.Positive)
    (h : outer.compose inner = some r) :
    r.isCoprime = true ∧ r.value = outer.value * inner.value := by
  have hnum : 0 < outer.up.toNat * inner.up.toNat := Nat.mul_pos houter.1 hinner.1
  have hden : 0 < outer.down.toNat * inner.down.toNat := Nat.mul_pos houter.2 hinner.2
  obtain ⟨hcoprime, hup, hdown, hvalue⟩ := reduceRatio_pos hnum hden
  rw [← compose_eq_some_iff.mp h] at hcoprime hup hdown hvalue
  refine ⟨isCoprime_iff.mpr ⟨⟨hup, hdown⟩, hcoprime⟩, ?_⟩
  calc r.value =
        (outer.up.toNat * inner.up.toNat : ℕ) / (outer.down.toNat * inner.down.toNat : ℕ) :=
        hvalue
    _ = outer.value * inner.value := by
        rw [Nat.cast_mul, Nat.cast_mul, value, value, div_mul_div_comm]

/-- Compose rates from the outermost to the innermost. -/
def composeAll (outer : Rate) (rates : List Rate) : Option Rate := rates.foldlM compose outer

theorem composeAll_cons_eq_some {rates : List Rate} :
    outer.composeAll (inner :: rates) = some r ↔
      ∃ next, outer.compose inner = some next ∧ next.composeAll rates = some r := by
  simp [composeAll, Option.bind_eq_some_iff]

/-- Rates composed one after the other multiply. -/
theorem composeAll_eq_some {rates : List Rate} (houter : outer.isCoprime = true)
    (hrates : ∀ r ∈ rates, r.Positive) (h : outer.composeAll rates = some r) :
    r.isCoprime = true ∧ r.value = outer.value * product rates := by
  induction rates generalizing outer with
  | nil =>
      cases h
      simpa using houter
  | cons inner rates ih =>
      obtain ⟨next, hnext, h⟩ := composeAll_cons_eq_some.mp h
      have hpos := (isCoprime_iff.mp houter).1
      obtain ⟨hcoprime, hvalue⟩ := compose_eq_some hpos (hrates inner List.mem_cons_self) hnext
      obtain ⟨hr, hproduct⟩ := ih hcoprime (fun r hr => hrates r (List.mem_cons_of_mem _ hr)) h
      refine ⟨hr, ?_⟩
      rw [hproduct, hvalue, product_cons, mul_assoc]

end Rate

end Composition

namespace Graph

section Chains

variable {g : Graph}

theorem domainRate_eq_some {d : NodeId} {r : Rate} :
    g.domainRate d = some r ↔ (d, r) ∈ g.domains := by
  rw [mem_domains, domainRate, kindOf, Option.bind_map, Option.bind_eq_some_iff]
  rfl

theorem exists_domainRate_of_isDomain {d : NodeId} {n : Node} (hn : g.node? d = some n)
    (hd : n.kind.isDomain = true) : ∃ r, g.domainRate d = some r := by
  cases hk : n.kind <;> simp_all [NodeKind.isDomain, domainRate, kindOf, NodeKind.rate?]

/-- What a search for a domain finds is a clock domain. -/
theorem exists_domainRate_of_nearestDomain :
    ∀ {steps : Nat} {id : Option NodeId} {d : NodeId},
      g.nearestDomain steps id = some d → ∃ r, g.domainRate d = some r
  | 0, _, _, h => by
      cases h
  | _ + 1, none, _, h => by
      cases h
  | steps + 1, some id, d, h => by
      simp only [nearestDomain] at h
      split at h
      · cases h
      · rename_i n hn
        split at h
        · rename_i hdomain
          cases h
          exact exists_domainRate_of_isDomain hn hdomain
        · exact exists_domainRate_of_nearestDomain h

theorem exists_domainRate_of_enclosingDomain {id d : NodeId} (h : g.enclosingDomain id = some d) :
    ∃ r, g.domainRate d = some r := by
  obtain ⟨n, -, hd⟩ := Option.bind_eq_some_iff.mp h
  exact exists_domainRate_of_nearestDomain hd

/-- Climbing from a clock domain meets clock domains only. -/
theorem exists_domainRate_of_mem_climbDomains :
    ∀ {steps : Nat} {chain : List NodeId} {start : Option NodeId},
      (∀ d ∈ start, ∃ r, g.domainRate d = some r) → (∀ d ∈ chain, ∃ r, g.domainRate d = some r) →
        ∀ d ∈ g.climbDomains steps chain start, ∃ r, g.domainRate d = some r
  | 0, _, _, _, hchain => hchain
  | _ + 1, _, none, _, hchain => hchain
  | steps + 1, chain, some d, hstart, hchain => by
      unfold climbDomains
      split
      · exact hchain
      · refine exists_domainRate_of_mem_climbDomains ?_ ?_
        · intro e he
          exact exists_domainRate_of_enclosingDomain he
        · intro e he
          rcases List.mem_cons.mp he with rfl | he
          · exact hstart e rfl
          · exact hchain e he

/-- Around a clock domain there are clock domains only. -/
theorem exists_domainRate_of_mem_domainChain {d : NodeId} {r : Rate}
    (hd : g.domainRate d = some r) : ∀ e ∈ g.domainChain (some d), ∃ r, g.domainRate e = some r :=
  exists_domainRate_of_mem_climbDomains (by rintro _ ⟨⟩; exact ⟨r, hd⟩) (by simp)

theorem exists_map_domainRate {chain : List NodeId}
    (hall : ∀ e ∈ chain, ∃ r, g.domainRate e = some r) :
    ∃ rates : List Rate, chain.map g.domainRate = rates.map some := by
  induction chain with
  | nil => exact ⟨[], rfl⟩
  | cons e chain ih =>
      obtain ⟨r, hr⟩ := hall e List.mem_cons_self
      obtain ⟨rates, hrates⟩ := ih fun e he => hall e (List.mem_cons_of_mem _ he)
      exact ⟨r :: rates, by simp [hr, hrates]⟩

/-- The local rates of the domains around a clock domain and of the domain itself,
outermost first. -/
theorem exists_rates {d : NodeId} {r : Rate} (hd : g.domainRate d = some r) :
    ∃ rates : List Rate, (g.domainChain (some d)).map g.domainRate = rates.map some :=
  exists_map_domainRate (exists_domainRate_of_mem_domainChain hd)

end Chains

section Locals

variable {g : Graph}

/-- What is known once the local rates of the domains `done` were looked at. -/
structure LocalsJudged (g : Graph) (done : List (NodeId × Rate)) (s : RateState) : Prop where
  known : ∀ {d r}, s.analysis.localRates[d]? = some r ↔ (d, r) ∈ done ∧ g.rateRule? d r = none
  broken : ∀ {d}, d ∈ s.broken ↔ ∃ r, (d, r) ∈ done ∧ g.rateRule? d r ≠ none
  silent : s.diagnostics = [] ↔ ∀ x ∈ done, g.rateRule? x.1 x.2 = none

theorem LocalsJudged.step {done : List (NodeId × Rate)} {s : RateState} (h : g.LocalsJudged done s)
    {x : NodeId × Rate} (hnew : ∀ r, (x.1, r) ∉ done) :
    g.LocalsJudged (done ++ [x]) (g.judgeLocal s x) := by
  obtain ⟨e, q⟩ := x
  have hlist : ∀ {d r}, (d, r) ∈ done ++ [(e, q)] ↔ (d, r) ∈ done ∨ d = e ∧ r = q := by
    simp
  unfold judgeLocal
  split
  · rename_i code message hint hrule
    -- the domain is broken, and nothing becomes known of its rate
    refine ⟨?_, ?_, ?_⟩
    · intro d r
      rw [h.known, hlist, or_and_right]
      refine ⟨.inl, fun hor => hor.resolve_right ?_⟩
      rintro ⟨⟨rfl, rfl⟩, hnone⟩
      cases hrule.symm.trans hnone
    · intro d
      simp only [Std.ExtTreeSet.mem_insert, Std.compare_eq_iff_eq, h.broken, hlist, or_and_right,
        exists_or]
      rw [or_comm]
      refine or_congr_right ⟨?_, ?_⟩
      · rintro rfl
        exact ⟨q, ⟨rfl, rfl⟩, by simp [hrule]⟩
      · rintro ⟨r, ⟨rfl, -⟩, -⟩
        rfl
    · refine iff_of_false (by simp) ?_
      intro hall
      cases hrule.symm.trans (hall (e, q) (by simp))
  · rename_i hrule
    refine ⟨?_, ?_, ?_⟩
    · intro d r
      dsimp only
      rw [Std.ExtTreeMap.getElem?_insert, hlist]
      by_cases hd : e = d
      · subst hd
        rw [if_pos Std.ReflCmp.compare_self]
        constructor
        · rintro ⟨⟩
          exact ⟨.inr ⟨rfl, rfl⟩, hrule⟩
        · rintro ⟨hold | ⟨-, rfl⟩, -⟩
          · exact absurd hold (hnew r)
          · rfl
      · rw [if_neg (by simpa using hd), h.known]
        simp [Ne.symm hd]
    · intro d
      rw [h.broken]
      simp only [hlist, or_and_right, exists_or]
      refine ⟨.inl, fun hor => hor.resolve_right ?_⟩
      rintro ⟨r, ⟨rfl, rfl⟩, hbad⟩
      exact hbad hrule
    · rw [h.silent, List.forall_mem_append]
      simp [hrule]

theorem locals_judged {domains : List (NodeId × Rate)}
    (hdistinct : domains.Pairwise fun x y => x.1 ≠ y.1) :
    g.LocalsJudged domains (domains.foldl g.judgeLocal {}) := by
  induction domains using List.reverseRecOn with
  | nil => exact ⟨by simp, by simp, by simp⟩
  | append_singleton domains x ih =>
      obtain ⟨hbefore, -, hnew⟩ := List.pairwise_append.mp hdistinct
      rw [List.foldl_concat]
      exact (ih hbefore).step fun r hr => hnew _ hr x (List.mem_singleton_self x) rfl

/-- The local rates of all clock domains are looked at first. -/
theorem locals_judged_domains (g : Graph) :
    g.LocalsJudged g.domains (g.domains.foldl g.judgeLocal {}) := by
  refine locals_judged (g.domains_ordered.imp ?_)
  intro x y hlt heq
  rw [heq] at hlt
  exact UInt32.lt_irrefl _ hlt

end Locals

section Analysis

variable {g : Graph}

/-- What is composed along a chain depends on the local rates alone. -/
theorem composeChain_congr {a a' : DomainAnalysis} (h : a.localRates = a'.localRates)
    (chain : List NodeId) : composeChain a chain = composeChain a' chain := by
  unfold composeChain
  rw [h]

/-- What composing the rate of a domain does: where a domain around it is broken, or the domain
itself, it is broken without a report; where the composed rate leaves its word, it is reported;
otherwise it gets its rate. -/
theorem judgeComposed_cases (s : RateState) (d : NodeId) :
    ((∃ e ∈ g.domainChain (some d), e ∈ s.broken) ∧
      g.judgeComposed s d = { s with broken := s.broken.insert d }) ∨
    ((∀ e ∈ g.domainChain (some d), e ∉ s.broken) ∧
      composeChain s.analysis (g.domainChain (some d)) = none ∧
      ∃ fault : Diagnostic, fault.code = some .rateOverflow ∧ fault.subject = some d ∧
        g.judgeComposed s d =
          { s with broken := s.broken.insert d, diagnostics := s.diagnostics ++ [fault] }) ∨
    ((∀ e ∈ g.domainChain (some d), e ∉ s.broken) ∧
      ∃ base, composeChain s.analysis (g.domainChain (some d)) = some base ∧
        g.judgeComposed s d = { s with
          analysis := { s.analysis with
            baseRates := s.analysis.baseRates.insert d base
            chains := s.analysis.chains.insert d (g.domainChain (some d)) } }) := by
  unfold judgeComposed
  dsimp only
  split
  · rename_i hany
    obtain ⟨e, he, hbroken⟩ := List.any_eq_true.mp hany
    exact .inl ⟨⟨e, he, Std.ExtTreeSet.mem_iff_contains.mpr hbroken⟩, rfl⟩
  · rename_i hany
    have hwhole : ∀ e ∈ g.domainChain (some d), e ∉ s.broken := by
      intro e he hbroken
      exact hany (List.any_eq_true.mpr ⟨e, he, Std.ExtTreeSet.mem_iff_contains.mp hbroken⟩)
    split
    · rename_i hover
      exact .inr (.inl ⟨hwhole, hover, _, rfl, rfl, rfl⟩)
    · rename_i base hbase
      exact .inr (.inr ⟨hwhole, base, hbase, rfl⟩)

/-- The codes that are reported while rates are gone through. -/
def rateCodes : List (Option Code) :=
  [some .zeroRate, some .commonFactor, some .mixedRate, some .rateOverflow]

theorem code_judgeLocal {s : RateState} (hs : ∀ x ∈ s.diagnostics, x.code ∈ rateCodes)
    (e : NodeId × Rate) : ∀ x ∈ (g.judgeLocal s e).diagnostics, x.code ∈ rateCodes := by
  intro x hx
  unfold judgeLocal at hx
  split at hx
  · rename_i code message hint hrule
    rcases List.mem_append.mp hx with hx | hx
    · exact hs x hx
    · rw [List.mem_singleton.mp hx]
      unfold rateRule? at hrule
      simp only [rateError, rateCodes]
      grind
  · exact hs x hx

theorem code_judgeComposed {s : RateState} (hs : ∀ x ∈ s.diagnostics, x.code ∈ rateCodes)
    (d : NodeId) : ∀ x ∈ (g.judgeComposed s d).diagnostics, x.code ∈ rateCodes := by
  rcases judgeComposed_cases s d with ⟨-, heq⟩ | ⟨-, -, fault, hcode, -, heq⟩ | ⟨-, base, -, heq⟩
  · rw [heq]
    exact hs
  · rw [heq]
    refine List.forall_mem_append.mpr ⟨hs, ?_⟩
    simp [hcode, rateCodes]
  · rw [heq]
    exact hs

theorem code_of_mem_computeRates {x : Diagnostic} (hx : x ∈ g.computeRates.diagnostics) :
    x.code ∈ rateCodes := by
  refine List.foldlRecOn (motive := fun s : RateState => ∀ x ∈ s.diagnostics, x.code ∈ rateCodes)
    (g.domains.map Prod.fst) g.judgeComposed ?_ (fun s hs d _ => code_judgeComposed hs d) x hx
  exact List.foldlRecOn (motive := fun s : RateState => ∀ x ∈ s.diagnostics, x.code ∈ rateCodes)
    g.domains g.judgeLocal (by simp) fun s hs d _ => code_judgeLocal hs d

/-- What is known once the rates of the domains `done` were composed, from a state `s₀` in which all
local rates were looked at. -/
structure Surveyed (g : Graph) (s₀ : RateState) (done : List NodeId) (s : RateState) : Prop where
  localRates : s.analysis.localRates = s₀.analysis.localRates
  spreads : ∀ {d}, d ∈ s₀.broken → d ∈ s.broken
  charted : ∀ d ∈ done, d ∉ s.broken → (∀ e ∈ g.domainChain (some d), e ∉ s₀.broken) ∧
    ∃ base, composeChain s₀.analysis (g.domainChain (some d)) = some base ∧
      s.analysis.baseRates[d]? = some base ∧ s.analysis.chains[d]? = some (g.domainChain (some d))
  silent : s.diagnostics = [] → s₀.diagnostics = [] ∧ ((∀ d, d ∉ s₀.broken) → ∀ d, d ∉ s.broken)

theorem Surveyed.step {s₀ s : RateState} {done : List NodeId} (h : g.Surveyed s₀ done s)
    (x : NodeId) : g.Surveyed s₀ (done ++ [x]) (g.judgeComposed s x) := by
  -- a domain that becomes broken has nothing to show
  have hspread : ∀ {diagnostics : List Diagnostic},
      (diagnostics = [] → s.diagnostics = [] ∧ ∃ e ∈ g.domainChain (some x), e ∈ s.broken) →
      g.Surveyed s₀ (done ++ [x]) { s with broken := s.broken.insert x, diagnostics } := by
    intro diagnostics hsilent
    have hinsert : ∀ {d}, d ∉ s.broken.insert x → d ≠ x ∧ d ∉ s.broken := by
      intro d hd
      simp only [Std.ExtTreeSet.mem_insert, Std.compare_eq_iff_eq, not_or] at hd
      exact ⟨fun heq => hd.1 heq.symm, hd.2⟩
    refine ⟨h.localRates, fun hd => ?_, fun d hd hwhole => ?_, fun hnil => ?_⟩
    · exact Std.ExtTreeSet.mem_insert.mpr (.inr (h.spreads hd))
    · obtain ⟨hne, hwhole⟩ := hinsert hwhole
      exact h.charted d ((List.mem_append.mp hd).resolve_right (by simpa using hne)) hwhole
    · obtain ⟨hbefore, e, -, he⟩ := hsilent hnil
      obtain ⟨hstart, hwhole⟩ := h.silent hbefore
      exact ⟨hstart, fun hnone => absurd he (hwhole hnone e)⟩
  rcases judgeComposed_cases s x with
    ⟨hbroken, heq⟩ | ⟨-, -, fault, -, -, heq⟩ | ⟨hwhole, base, hbase, heq⟩
  · rw [heq]
    exact hspread fun hnil => ⟨hnil, hbroken⟩
  · rw [heq]
    exact hspread fun hnil => by simp at hnil
  · rw [heq]
    refine ⟨h.localRates, h.spreads, ?_, h.silent⟩
    intro d hd hd'
    dsimp only
    by_cases hx : x = d
    · subst hx
      refine ⟨fun e he hbroken => hwhole e he (h.spreads hbroken), base, ?_, by simp, by simp⟩
      rw [← hbase]
      exact composeChain_congr h.localRates.symm _
    · obtain ⟨hwhole', base', hbase', hget, hchain⟩ := h.charted d
        ((List.mem_append.mp hd).resolve_right (by simpa using Ne.symm hx)) hd'
      refine ⟨hwhole', base', hbase', ?_, ?_⟩
      · simp only [Std.ExtTreeMap.getElem?_insert, Std.compare_eq_iff_eq, if_neg hx, hget]
      · simp only [Std.ExtTreeMap.getElem?_insert, Std.compare_eq_iff_eq, if_neg hx, hchain]

theorem surveyed_foldl (s₀ : RateState) (domains : List NodeId) :
    g.Surveyed s₀ domains (domains.foldl g.judgeComposed s₀) := by
  induction domains using List.reverseRecOn with
  | nil => exact ⟨rfl, id, by simp, fun h => ⟨h, id⟩⟩
  | append_singleton domains x ih =>
      rw [List.foldl_concat]
      exact ih.step x

/-- What is known of the rates once all domains were gone through. -/
theorem surveyed_computeRates (g : Graph) :
    g.Surveyed (g.domains.foldl g.judgeLocal {}) (g.domains.map Prod.fst) g.computeRates :=
  surveyed_foldl _ _

/-- What an analysis knows of a clock domain: the chain of domains around it, their local rates,
which keep the rules for rates, and the rate composed from them. -/
structure Charted (g : Graph) (a : DomainAnalysis) (d : NodeId) (rates : List Rate) : Prop where
  chain : a.chains[d]? = some (g.domainChain (some d))
  declared : (g.domainChain (some d)).map g.domainRate = rates.map some
  localChain : a.localChain (some d) = rates
  coprime : ∀ r ∈ rates, r.isCoprime = true
  integral : ∀ r ∈ rates, r.isIntegralHop = true
  composed : Rate.base.composeAll rates = some (a.baseRate (some d))

theorem isIntegralHop_of_rateRule? {d : NodeId} {r : Rate} (h : g.rateRule? d r = none) :
    r.isIntegralHop = true := by
  unfold rateRule? at h
  split at h
  · cases h
  · split at h
    · cases h
    · split at h
      · cases h
      · rename_i hhop
        simpa using hhop

/-- Composing along a chain of domains is composing their local rates. -/
theorem composeChain_eq {a : DomainAnalysis} :
    ∀ {chain : List NodeId} {rates : List Rate} (outer : Rate),
      chain.map (fun d => a.localRates[d]?) = rates.map some →
      chain.foldlM (fun r d => r.compose ((a.localRates[d]?).getD .base)) outer =
        outer.composeAll rates
  | [], [], _, _ => rfl
  | [], _ :: _, _, h => by
      cases h
  | _ :: _, [], _, h => by
      cases h
  | d :: chain, r :: rates, outer, h => by
      simp only [List.map_cons, List.cons.injEq] at h
      simp only [Rate.composeAll, List.foldlM_cons, h.1, Option.getD_some]
      congr 1
      funext next
      exact composeChain_eq next h.2

/-- Rates that are in order break no domain. -/
theorem broken_computeRates (hnone : g.computeRates.diagnostics = []) :
    g.computeRates.broken = ∅ := by
  obtain ⟨hsilent, hwhole⟩ := g.surveyed_computeRates.silent hnone
  rw [Std.ExtTreeSet.eq_empty_iff_forall_not_mem]
  refine hwhole fun d hd => ?_
  obtain ⟨r, hr, hbad⟩ := g.locals_judged_domains.broken.mp hd
  exact hbad (g.locals_judged_domains.silent.mp hsilent _ hr)

/-- Every clock domain that is not broken is charted. -/
theorem exists_charted_of_not_mem_broken {d : NodeId} {r : Rate} (hd : g.domainRate d = some r)
    (hwhole : d ∉ g.computeRates.broken) : ∃ rates, g.Charted g.computeRates.analysis d rates := by
  obtain ⟨rates, hdeclared⟩ := exists_rates hd
  have hlocals := g.locals_judged_domains
  have hmem : d ∈ g.domains.map Prod.fst := List.mem_map_of_mem (domainRate_eq_some.mp hd)
  obtain ⟨hsound, base, hbase, hget, hchain⟩ := g.surveyed_computeRates.charted d hmem hwhole
  -- on the chain, what is declared is sound and so is known
  have hrule : ∀ e ∈ g.domainChain (some d), ∀ q, g.domainRate e = some q →
      g.rateRule? e q = none ∧
        (g.domains.foldl g.judgeLocal {}).analysis.localRates[e]? = some q := by
    intro e he q hq
    have hin := domainRate_eq_some.mp hq
    have hgood : g.rateRule? e q = none := by
      by_contra hbad
      exact hsound e he (hlocals.broken.mpr ⟨q, hin, hbad⟩)
    exact ⟨hgood, hlocals.known.mpr ⟨hin, hgood⟩⟩
  have hof : ∀ q ∈ rates, ∃ e ∈ g.domainChain (some d), g.domainRate e = some q := by
    intro q hq
    have hin : some q ∈ (g.domainChain (some d)).map g.domainRate :=
      hdeclared ▸ List.mem_map_of_mem hq
    exact List.mem_map.mp hin
  have hrates : (g.domainChain (some d)).map
      (fun e => (g.domains.foldl g.judgeLocal {}).analysis.localRates[e]?) = rates.map some := by
    rw [← hdeclared]
    refine List.map_congr_left ?_
    intro e he
    have hin : g.domainRate e ∈ rates.map some := hdeclared ▸ List.mem_map_of_mem he
    obtain ⟨q, -, hq⟩ := List.mem_map.mp hin
    rw [← hq]
    exact (hrule e he q hq.symm).2
  refine ⟨rates, hchain, hdeclared, ?_, ?_, ?_, ?_⟩
  · simp only [DomainAnalysis.localChain, Option.bind_some, hchain]
    rw [g.surveyed_computeRates.localRates]
    simpa [List.filterMap_map, Function.comp_def] using congrArg (List.filterMap id) hrates
  · intro q hq
    obtain ⟨e, he, hrate⟩ := hof q hq
    exact isCoprime_of_rateRule? (hrule e he q hrate).1
  · intro q hq
    obtain ⟨e, he, hrate⟩ := hof q hq
    exact isIntegralHop_of_rateRule? (hrule e he q hrate).1
  · simp only [DomainAnalysis.baseRate, Option.bind_some, hget, Option.getD_some]
    rw [← composeChain_eq .base hrates, ← hbase]
    rfl

/-- When the rates of a graph are in order, every clock domain is charted. -/
theorem exists_charted (hnone : g.computeRates.diagnostics = []) {d : NodeId} {r : Rate}
    (hd : g.domainRate d = some r) : ∃ rates, g.Charted g.computeRates.analysis d rates :=
  exists_charted_of_not_mem_broken hd (by simp [broken_computeRates hnone])

/-- The rate of a charted domain is in lowest terms, and is the product of the local rates. -/
theorem Charted.baseRate_eq {a : DomainAnalysis} {d : NodeId} {rates : List Rate}
    (h : g.Charted a d rates) :
    (a.baseRate (some d)).isCoprime = true ∧ (a.baseRate (some d)).value = Rate.product rates := by
  have hpositive : ∀ r ∈ rates, r.Positive := fun r hr => (Rate.isCoprime_iff.mp (h.coprime r hr)).1
  simpa using Rate.composeAll_eq_some (by decide) hpositive h.composed

end Analysis

section Ports

variable {g : Graph} {q : PortRef} {d : NodeId}

theorem exists_domainRate_of_inputDomain (h : g.inputDomain q = some d) :
    ∃ r, g.domainRate d = some r := by
  unfold inputDomain at h
  split at h
  · obtain ⟨_, -, h⟩ := Option.bind_eq_some_iff.mp h
    exact exists_domainRate_of_enclosingDomain h
  · exact exists_domainRate_of_enclosingDomain h

theorem exists_domainRate_of_outputDomain (h : g.outputDomain q = some d) :
    ∃ r, g.domainRate d = some r := by
  unfold outputDomain at h
  split at h
  · obtain ⟨_, -, h⟩ := Option.bind_eq_some_iff.mp h
    exact exists_domainRate_of_enclosingDomain h
  · exact exists_domainRate_of_enclosingDomain h

/-- When the rates of a graph are in order, every base rate is in lowest terms. -/
theorem isCoprime_baseRate (hnone : g.computeRates.diagnostics = []) {d : Option NodeId}
    (hd : ∀ e, d = some e → ∃ r, g.domainRate e = some r) :
    (g.computeRates.analysis.baseRate d).isCoprime = true := by
  cases d with
  | none => exact (by decide : Rate.base.isCoprime = true)
  | some e =>
      obtain ⟨r, hr⟩ := hd e rfl
      obtain ⟨rates, hcharted⟩ := exists_charted hnone hr
      exact hcharted.baseRate_eq.1

end Ports

end Graph
end Dataflow
