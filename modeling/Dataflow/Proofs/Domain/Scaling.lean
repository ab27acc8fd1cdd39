import Dataflow.Proofs.Domain.Composition
import Dataflow.Proofs.Insertion.Revalidation
import Mathlib.Algebra.Order.Ring.Cast

/-!
# Blocks scaled hop by hop

A block of the base domain is scaled into a clock domain one hop at a time, in 64 bits and without
reducing, while the rate of the domain is composed in 32 bits and in lowest terms.  Both lead to the
same number (`blockSize_of_validate`).

**Whole numbers.**  After each hop the size is the base block times the product of the rates so far.
A hop can be made where that is a whole number (`Rate.Whole`).

**Words.**  A local rate only multiplies or only divides.  So the one product that a hop forms is at
most the base block times the upper factor of a composed rate, a product of two 32-bit words
(`mul_up_lt_longLimit`).
-/

namespace Dataflow

section Whole

namespace Rate

/-- A block scaled by rates is a whole number of samples. -/
def Whole (block : Nat) (rates : List Rate) : Prop := ∃ n : Nat, (block : ℚ) * product rates = n

@[simp] theorem whole_nil (block : Nat) : Whole block [] := ⟨block, by simp⟩

/-- After a first hop to `next` the other rates decide. -/
theorem whole_cons_iff {block next : Nat} {r : Rate} {rates : List Rate}
    (h : (next : ℚ) = block * r.value) : Whole block (r :: rates) ↔ Whole next rates := by
  simp only [Whole, product_cons, h, mul_assoc]

/-- A single hop leads to a whole number where the division leaves no rest. -/
theorem whole_singleton_iff {block : Nat} {r : Rate} (hr : r.Positive) :
    Whole block [r] ↔ block * r.up.toNat % r.down.toNat = 0 := by
  have hdown : (r.down.toNat : ℚ) ≠ 0 := Nat.cast_ne_zero.mpr (Nat.ne_of_gt hr.2)
  have hvalue : (block : ℚ) * product [r] = (block * r.up.toNat : ℕ) / r.down.toNat := by
    simp [value, mul_div_assoc]
  rw [← Nat.dvd_iff_mod_eq_zero]
  constructor
  · rintro ⟨n, hn⟩
    rw [hvalue, div_eq_iff hdown] at hn
    exact ⟨n, by rw [Nat.mul_comm _ n]; exact_mod_cast hn⟩
  · rintro ⟨n, hn⟩
    refine ⟨n, ?_⟩
    rw [hvalue, div_eq_iff hdown, hn, Nat.mul_comm, Nat.cast_mul]

end Rate

end Whole

section Hops

variable {outer next r : Rate} {b block : Nat}

/-- The product that a hop forms stays in its word. -/
theorem mul_up_lt_longLimit (hb : b < wordLimit) (hblock : (block : ℚ) = b * outer.value)
    (houter : outer.isCoprime = true) (hr : r.isCoprime = true) (hhop : r.isIntegralHop = true)
    (hnext : outer.compose r = some next) : block * r.up.toNat < longLimit := by
  have hposOuter := (Rate.isCoprime_iff.mp houter).1
  obtain ⟨hcoprime, hvalue⟩ := Rate.compose_eq_some hposOuter (Rate.isCoprime_iff.mp hr).1 hnext
  have hposNext := (Rate.isCoprime_iff.mp hcoprime).1
  -- whatever a positive rate does to the base block stays below a product of two words
  have hbound : ∀ {q : Rate} {n : Nat}, q.Positive → (n : ℚ) = b * q.value → n < longLimit := by
    intro q n hq hn
    have hle : (n : ℚ) ≤ (b * q.up.toNat : ℕ) := by
      rw [hn, Nat.cast_mul]
      exact mul_le_mul_of_nonneg_left (Rate.value_le_up hq) (Nat.cast_nonneg b)
    have hup : q.up.toNat < wordLimit := q.up.toNat_lt
    have hlong : wordLimit * wordLimit = longLimit := by decide
    calc n ≤ b * q.up.toNat := by exact_mod_cast hle
      _ < wordLimit * wordLimit := Nat.mul_lt_mul'' hb hup
      _ = longLimit := hlong
  simp only [Rate.isIntegralHop, Bool.or_eq_true, decide_eq_true_eq] at hhop
  rcases hhop with hup | hdown
  · rw [hup, show (1 : UInt32).toNat = 1 from rfl, Nat.mul_one]
    exact hbound hposOuter hblock
  · refine hbound hposNext ?_
    rw [hvalue, ← mul_assoc, ← hblock, Nat.cast_mul]
    simp [Rate.value, hdown]

/-- A hop that leaves no rest multiplies by its rate. -/
theorem Rate.cast_div_down (hr : r.Positive) (hmod : block * r.up.toNat % r.down.toNat = 0) :
    ((block * r.up.toNat / r.down.toNat : ℕ) : ℚ) = block * r.value := by
  have hdown : (r.down.toNat : ℚ) ≠ 0 := Nat.cast_ne_zero.mpr (Nat.ne_of_gt hr.2)
  rw [Nat.cast_div (Nat.dvd_of_mod_eq_zero hmod) hdown, Nat.cast_mul, value, mul_div_assoc]

/-- A hop that leaves no rest is made, and the other rates go on from its result. -/
theorem scaleFrom_cons_of_mod_eq_zero {rates : List Rate} (hr : r.Positive)
    (hlt : block * r.up.toNat < longLimit) (hmod : block * r.up.toNat % r.down.toNat = 0)
    (hop : Nat) :
    scaleFrom hop block (r :: rates) =
      scaleFrom (hop + 1) (block * r.up.toNat / r.down.toNat) rates := by
  have hmul : mulLong block r.up.toNat = .ok (block * r.up.toNat) :=
    mulLong_eq_ok_iff.mpr ⟨rfl, hlt⟩
  rw [scaleFrom, hmul]
  simp [Nat.ne_of_gt hr.2, hmod, bind, Except.bind]

/-- A hop that leaves a rest is where a block stops. -/
theorem scaleFrom_cons_of_mod_ne_zero {rates : List Rate} (hlt : block * r.up.toNat < longLimit)
    (hmod : block * r.up.toNat % r.down.toNat ≠ 0) (hop : Nat) :
    scaleFrom hop block (r :: rates) = .ok (.error ⟨hop, block * r.up.toNat, r.down.toNat⟩) := by
  have hmul : mulLong block r.up.toNat = .ok (block * r.up.toNat) :=
    mulLong_eq_ok_iff.mpr ⟨rfl, hlt⟩
  rw [scaleFrom, hmul]
  simp [hmod, bind, Except.bind]
  rfl

/-- How scaling along a chain of well-formed rates ends, when the rates compose within their
words: at the whole number that the product of all rates gives, or at the first hop that leads
to a fraction. -/
theorem scaleFrom_cases {rates : List Rate} (hb : b < wordLimit) (hop : Nat)
    (hblock : (block : ℚ) = b * outer.value) (houter : outer.isCoprime = true)
    (hcoprime : ∀ r ∈ rates, r.isCoprime = true) (hhops : ∀ r ∈ rates, r.isIntegralHop = true)
    (hfits : ∃ final, outer.composeAll rates = some final) :
    (∃ n, scaleFrom hop block rates = .ok (.ok n) ∧ (n : ℚ) = block * Rate.product rates ∧
      ∀ k, Rate.Whole block (rates.take k)) ∨
    ∃ fault i, scaleFrom hop block rates = .ok (.error fault) ∧ fault.hop = hop + i ∧
      i < rates.length ∧ (∀ k ≤ i, Rate.Whole block (rates.take k)) ∧
      ¬ Rate.Whole block (rates.take (i + 1)) := by
  induction rates generalizing hop block outer with
  | nil => exact .inl ⟨block, rfl, by simp, by simp⟩
  | cons r rates ih =>
      obtain ⟨final, hfinal⟩ := hfits
      obtain ⟨next, hnext, hfinal⟩ := Rate.composeAll_cons_eq_some.mp hfinal
      have hr := hcoprime r List.mem_cons_self
      have hpos := (Rate.isCoprime_iff.mp hr).1
      obtain ⟨hnextCoprime, hvalue⟩ :=
        Rate.compose_eq_some (Rate.isCoprime_iff.mp houter).1 hpos hnext
      have hlt := mul_up_lt_longLimit hb hblock houter hr (hhops r List.mem_cons_self) hnext
      by_cases hmod : block * r.up.toNat % r.down.toNat = 0
      · -- the hop is made, and the rest of the chain goes on from its result
        have hquotient := Rate.cast_div_down hpos hmod
        have hbase : ((block * r.up.toNat / r.down.toNat : ℕ) : ℚ) = b * next.value := by
          rw [hquotient, hblock, hvalue, mul_assoc]
        have hwhole : ∀ k, Rate.Whole block ((r :: rates).take (k + 1)) ↔
            Rate.Whole (block * r.up.toNat / r.down.toNat) (rates.take k) :=
          fun k => Rate.whole_cons_iff hquotient
        rw [scaleFrom_cons_of_mod_eq_zero hpos hlt hmod]
        rcases ih (hop + 1) hbase hnextCoprime (fun q hq => hcoprime q (List.mem_cons_of_mem _ hq))
          (fun q hq => hhops q (List.mem_cons_of_mem _ hq)) ⟨final, hfinal⟩ with
          ⟨n, hn, hproduct, hall⟩ | ⟨fault, i, hfault, hi, hlength, hbefore, hfirst⟩
        · refine .inl ⟨n, hn, ?_, ?_⟩
          · rw [hproduct, hquotient, Rate.product_cons, mul_assoc]
          · intro k
            cases k with
            | zero => exact Rate.whole_nil block
            | succ k => exact (hwhole k).mpr (hall k)
        · refine .inr ⟨fault, i + 1, hfault, by omega, by simpa using hlength, ?_, ?_⟩
          · intro k hk
            cases k with
            | zero => exact Rate.whole_nil block
            | succ k => exact (hwhole k).mpr (hbefore k (by omega))
          · exact mt (hwhole (i + 1)).mp hfirst
      · refine .inr ⟨_, 0, scaleFrom_cons_of_mod_ne_zero hlt hmod hop, rfl, by simp, ?_, ?_⟩
        · intro k hk
          rw [Nat.le_zero.mp hk]
          exact Rate.whole_nil block
        · simpa using mt (Rate.whole_singleton_iff hpos).mp hmod

end Hops

namespace Graph

section Validation

/-- A block that gets through to a charted domain is scaled by the base rate of the domain. -/
theorem Charted.mul_down_eq {g : Graph} {a : DomainAnalysis} {d : NodeId} {rates : List Rate}
    (h : g.Charted a d rates) {b : UInt32} {n : Nat}
    (hn : a.blockSize (some d) b.toNat = .ok (.ok n)) :
    n * (a.baseRate (some d)).down.toNat = b.toNat * (a.baseRate (some d)).up.toNat := by
  obtain ⟨hcoprime, hvalue⟩ := h.baseRate_eq
  have hstart : (b.toNat : ℚ) = b.toNat * Rate.base.value := by simp
  rw [DomainAnalysis.blockSize, h.localChain, scaleAlong] at hn
  rcases scaleFrom_cases b.toNat_lt 0 hstart (by decide) h.coprime h.integral ⟨_, h.composed⟩ with
    ⟨m, hm, hproduct, -⟩ | ⟨_, _, hfault, -⟩
  · cases hm.symm.trans hn
    have hcast : (n : ℚ) * (a.baseRate (some d)).down.toNat =
        b.toNat * (a.baseRate (some d)).up.toNat := by
      rw [hproduct, ← hvalue, mul_assoc, Rate.value_mul_down (Rate.isCoprime_iff.mp hcoprime).1]
    exact_mod_cast hcast
  · cases hfault.symm.trans hn

/-- In a valid graph, scaling a block hop by hop into a clock domain agrees with the rate of the
domain.

* The base rate of the domain is in lowest terms, and is the product of the local rates that the
  graph declares along the chain of the domain.
* For every block of 32 bits the block of the domain is found without leaving 64 bits.  It is a
  whole number exactly if the base block times the product of the rates so far is one after every
  hop, and then it is the base block times the base rate.  Otherwise the fault names the first hop
  that leads to a fraction. -/
theorem blockSize_of_validate {g : Graph} {p : ChannelPolicy} {v : Validation}
    (hv : g.validate p = .ok v) (hclean : hasErrors v.diagnostics = false) {d : NodeId} {n : Node}
    (hn : g.node? d = some n) (hd : n.kind.isDomain = true) (b : UInt32) :
    ∃ chain rates, v.analysis.chains[d]? = some chain ∧ chain.map g.domainRate = rates.map some ∧
      (v.analysis.baseRate (some d)).isCoprime = true ∧
      (v.analysis.baseRate (some d)).value = Rate.product rates ∧
      (∃ outcome, v.analysis.blockSize (some d) b.toNat = .ok outcome) ∧
      ((∃ size, v.analysis.blockSize (some d) b.toNat = .ok (.ok size)) ↔
        ∀ k ≤ rates.length, Rate.Whole b.toNat (rates.take k)) ∧
      (∀ size, v.analysis.blockSize (some d) b.toNat = .ok (.ok size) →
        size * (v.analysis.baseRate (some d)).down.toNat =
          b.toNat * (v.analysis.baseRate (some d)).up.toNat) ∧
      ∀ fault, v.analysis.blockSize (some d) b.toNat = .ok (.error fault) →
        fault.hop < rates.length ∧ (∀ k ≤ fault.hop, Rate.Whole b.toNat (rates.take k)) ∧
          ¬ Rate.Whole b.toNat (rates.take (fault.hop + 1)) := by
  obtain ⟨hg, hnone⟩ := wellFormed_of_validate hv hclean
  obtain ⟨blocks, -, rfl⟩ := (validate_eq_ok_iff hg).mp hv
  simp only [List.append_eq_nil_iff] at hnone
  obtain ⟨r, hr⟩ : ∃ r, g.domainRate d = some r := by
    cases hk : n.kind <;> simp_all [NodeKind.isDomain, domainRate, kindOf, NodeKind.rate?]
  obtain ⟨rates, hcharted⟩ := exists_charted hnone.1.1.1.1 hr
  have hpositive : ∀ r ∈ rates, r.Positive :=
    fun r hr => (Rate.isCoprime_iff.mp (hcharted.coprime r hr)).1
  obtain ⟨hcoprime, hvalue⟩ := Rate.composeAll_eq_some (by decide) hpositive hcharted.composed
  rw [Rate.value_base, one_mul] at hvalue
  refine ⟨_, rates, hcharted.chain, hcharted.declared, hcoprime, hvalue, ?_⟩
  rw [show g.computeRates.analysis.blockSize (some d) b.toNat = scaleFrom 0 b.toNat rates by
    rw [DomainAnalysis.blockSize, hcharted.localChain, scaleAlong]]
  have hstart : (b.toNat : ℚ) = b.toNat * Rate.base.value := by simp
  rcases scaleFrom_cases b.toNat_lt 0 hstart (by decide) hcharted.coprime hcharted.integral
    ⟨_, hcharted.composed⟩ with
    ⟨size, hsize, hproduct, hwhole⟩ | ⟨fault, i, hfault, hi, hlength, hbefore, hfirst⟩
  · rw [hsize]
    refine ⟨⟨_, rfl⟩, iff_of_true ⟨size, rfl⟩ fun k _ => hwhole k, ?_, ?_⟩
    · rintro _ ⟨⟩
      have hpos := (Rate.isCoprime_iff.mp hcoprime).1
      have hcast : (size : ℚ) * (g.computeRates.analysis.baseRate (some d)).down.toNat =
          b.toNat * (g.computeRates.analysis.baseRate (some d)).up.toNat := by
        rw [hproduct, ← hvalue, mul_assoc, Rate.value_mul_down hpos]
      exact_mod_cast hcast
    · rintro _ ⟨⟩
  · rw [Nat.zero_add] at hi
    rw [hfault]
    refine ⟨⟨_, rfl⟩, iff_of_false ?_ ?_, ?_, ?_⟩
    · rintro ⟨_, ⟨⟩⟩
    · intro hall
      exact hfirst (hall (i + 1) (by omega))
    · rintro _ ⟨⟩
    · rintro _ ⟨⟩
      rw [hi]
      exact ⟨hlength, hbefore, hfirst⟩

/-- Two domains that each keep one sample of two: a block of six gets through the outer one and
stops at the inner one, a block of four gets through both. -/
theorem blockSize_of_validate_nested :
    ∃ v chain rates, nested.validate { baseBlockSize := 4 } = .ok v ∧
      hasErrors v.diagnostics = false ∧
      (nested.node? ⟨1⟩).any (fun n => n.kind.isDomain) = true ∧
      v.analysis.chains[(⟨1⟩ : NodeId)]? = some chain ∧
      chain.map nested.domainRate = rates.map some ∧
      (v.analysis.baseRate (some ⟨1⟩)).value = Rate.product rates ∧
      Rate.Whole 6 (rates.take 1) ∧ ¬ Rate.Whole 6 (rates.take 2) ∧
      (∀ k ≤ rates.length, Rate.Whole 4 (rates.take k)) ∧
      1 * (v.analysis.baseRate (some ⟨1⟩)).down.toNat =
        4 * (v.analysis.baseRate (some ⟨1⟩)).up.toNat := by
  have hv := validate_of_isClean isClean_nested
  have htest : (nested.node? ⟨1⟩).any (fun n => n.kind.isDomain) = true := by
    decide
  obtain ⟨n, hn, hd⟩ := Option.any_eq_true _ _ |>.mp htest
  have hsix : nested.computeRates.analysis.blockSize (some ⟨1⟩) 6 = .ok (.error ⟨1, 3, 2⟩) := by
    rfl
  have hfour : nested.computeRates.analysis.blockSize (some ⟨1⟩) 4 = .ok (.ok 1) := by
    rfl
  obtain ⟨chain, rates, hchain, hrates, -, hvalue, -, -, -, hfault⟩ :=
    blockSize_of_validate hv rfl hn hd 6
  obtain ⟨-, hbefore, hfirst⟩ := hfault _ hsix
  obtain ⟨chain', rates', hchain', hrates', -, -, -, hwhole, hsize, -⟩ :=
    blockSize_of_validate hv rfl hn hd 4
  cases hchain.symm.trans hchain'
  cases List.map_injective_iff.mpr (Option.some_injective _) (hrates.symm.trans hrates')
  exact ⟨_, chain, rates, hv, rfl, htest, hchain, hrates, hvalue, hbefore 1 (by decide), hfirst,
    hwhole.mp ⟨1, hfour⟩, hsize 1 hfour⟩

end Validation

end Graph
end Dataflow
