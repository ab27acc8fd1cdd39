import Dataflow.Proofs.Domain.Scaling
import Mathlib.Data.Rat.Lemmas
import Mathlib.Tactic.NormNum
import Mathlib.Tactic.Ring

/-!
# Blocks in validation

Validation scales two kinds of blocks.  The block of the policy goes inward, from the base domain
into each domain in which a block is fixed; the block of a channel that is already there goes
outward, from its domain to the base domain.

**Words.**  Inward, the rates of the domains were composed before, and no product leaves 64 bits.
Outward, nothing was composed: a product leaves its word as soon as a whole size on the way does
(`Rate.Fits`), and then validation has no answer (`exists_validate_iff`).

**Remedies.**  Where the block of the policy is a fraction in a domain, the remedy names the lower
factor of the composed rate.  Every block that works is a multiple of it.  Every multiple works only
if the factor is also a multiple of the lower factor at each level of nesting on the way
(`blockHint_suffices_iff`).
-/

namespace Dataflow

section Fitting

namespace Rate

variable {block next : Nat} {r : Rate} {rates : List Rate}

/-- No whole size that a block takes on the way through rates leaves its word. -/
def Fits (block : Nat) (rates : List Rate) : Prop :=
  ∀ k ≤ rates.length, (∀ j ≤ k, Whole block (rates.take j)) →
    (block : ℚ) * product (rates.take k) < longLimit

theorem Fits.lt_longLimit (h : Fits block rates) : block < longLimit := by
  have hstart := h 0 (Nat.zero_le _) fun j hj => by
    rw [Nat.le_zero.mp hj]
    exact whole_nil block
  rw [List.take_zero, product_nil, mul_one] at hstart
  exact_mod_cast hstart

/-- After a first hop to `next` the other rates decide. -/
theorem fits_cons_iff (hblock : block < longLimit) (hnext : (next : ℚ) = block * r.value) :
    Fits block (r :: rates) ↔ Fits next rates := by
  have hsize : ∀ k,
      (block : ℚ) * product ((r :: rates).take (k + 1)) = next * product (rates.take k) := by
    intro k
    rw [List.take_succ_cons, product_cons, hnext, mul_assoc]
  constructor
  · intro h k hk hwhole
    rw [← hsize]
    refine h (k + 1) (Nat.succ_le_succ hk) ?_
    intro j hj
    cases j with
    | zero => exact whole_nil block
    | succ j => exact (whole_cons_iff hnext).mpr (hwhole j (Nat.le_of_succ_le_succ hj))
  · intro h k hk hwhole
    cases k with
    | zero =>
        rw [List.take_zero, product_nil, mul_one]
        exact_mod_cast hblock
    | succ k =>
        rw [hsize]
        refine h k (Nat.le_of_succ_le_succ hk) ?_
        intro j hj
        exact (whole_cons_iff hnext).mp (hwhole (j + 1) (Nat.succ_le_succ hj))

/-- A block that the first hop makes a fraction takes no other size. -/
theorem fits_cons_of_not_whole (hblock : block < longLimit) (h : ¬ Whole block [r]) :
    Fits block (r :: rates) := by
  intro k _ hwhole
  cases k with
  | zero =>
      rw [List.take_zero, product_nil, mul_one]
      exact_mod_cast hblock
  | succ k => exact absurd (hwhole 1 (Nat.succ_le_succ (Nat.zero_le k))) h

/-- A rate that only multiplies or only divides does so the other way round on the way out. -/
theorem isIntegralHop_period (hcoprime : r.isCoprime = true) (hhop : r.isIntegralHop = true) :
    r.period.isIntegralHop = true := by
  rw [period_eq hcoprime]
  simp only [isIntegralHop, Bool.or_eq_true, decide_eq_true_eq] at hhop ⊢
  exact hhop.symm

theorem positive_period (hcoprime : r.isCoprime = true) : r.period.Positive := by
  rw [period_eq hcoprime]
  exact (isCoprime_iff.mp hcoprime).1.symm

end Rate

/-- Scaling a block through rates that only multiply or only divide has an answer exactly if no
whole size on the way leaves its word. -/
theorem exists_scaleFrom_iff {rates : List Rate} (hpos : ∀ r ∈ rates, r.Positive)
    (hhops : ∀ r ∈ rates, r.isIntegralHop = true) {block : Nat} (hblock : block < longLimit)
    (hop : Nat) : (∃ outcome, scaleFrom hop block rates = .ok outcome) ↔ Rate.Fits block rates := by
  induction rates generalizing hop block with
  | nil =>
      refine iff_of_true ⟨_, rfl⟩ ?_
      intro k hk _
      rw [List.take_nil, Rate.product_nil, mul_one]
      exact_mod_cast hblock
  | cons r rates ih =>
      have hr := hpos r List.mem_cons_self
      have hhop : r.up.toNat = 1 ∨ r.down.toNat = 1 := by
        have h := hhops r List.mem_cons_self
        simpa [Rate.isIntegralHop, ← UInt32.toNat_inj] using h
      by_cases hmod : block * r.up.toNat % r.down.toNat = 0
      · rw [Rate.fits_cons_iff hblock (Rate.cast_div_down hr hmod)]
        by_cases hlt : block * r.up.toNat < longLimit
        · rw [scaleFrom_cons_of_mod_eq_zero hr hlt hmod]
          exact ih (fun q hq => hpos q (List.mem_cons_of_mem _ hq))
            (fun q hq => hhops q (List.mem_cons_of_mem _ hq))
            (Nat.lt_of_le_of_lt (Nat.div_le_self _ _) hlt) (hop + 1)
        · -- the product leaves its word, and it is the next size itself
          refine iff_of_false ?_ ?_
          · rintro ⟨outcome, houtcome⟩
            rw [scaleFrom] at houtcome
            obtain ⟨numer, hnumer, -⟩ := bind_eq_ok_iff.mp houtcome
            obtain ⟨rfl, hnumer⟩ := mulLong_eq_ok_iff.mp hnumer
            exact hlt hnumer
          · intro hfits
            rcases hhop with hup | hdown
            · rw [hup, Nat.mul_one] at hlt
              exact hlt hblock
            · have hnext := hfits.lt_longLimit
              rw [hdown, Nat.div_one] at hnext
              exact hlt hnext
      · -- only a rate that divides leaves a rest
        have hup : r.up.toNat = 1 := by
          refine hhop.resolve_right ?_
          intro hdown
          rw [hdown] at hmod
          exact hmod (Nat.mod_one _)
        have hlt : block * r.up.toNat < longLimit := by
          rw [hup, Nat.mul_one]
          exact hblock
        refine iff_of_true ⟨_, scaleFrom_cons_of_mod_ne_zero hlt hmod hop⟩ ?_
        exact Rate.fits_cons_of_not_whole hblock (mt (Rate.whole_singleton_iff hr).mp hmod)

end Fitting

section Denominators

namespace Rate

theorem product_nonneg (rates : List Rate) : 0 ≤ product rates := by
  induction rates with
  | nil => exact zero_le_one
  | cons r rates ih =>
      rw [product_cons]
      exact mul_nonneg (div_nonneg (Nat.cast_nonneg _) (Nat.cast_nonneg _)) ih

/-- A block is whole where it is a multiple of the denominator. -/
theorem whole_iff_den_dvd {block : Nat} {rates : List Rate} :
    Whole block rates ↔ (product rates).den ∣ block := by
  have hnum : ((product rates).num.natAbs : ℚ) = product rates * (product rates).den := by
    rw [Rat.mul_den_eq_num, ← Int.cast_natCast,
      Int.natAbs_of_nonneg (Rat.num_nonneg.mpr (product_nonneg rates))]
  constructor
  · rintro ⟨n, hn⟩
    have hmul : block * (product rates).num.natAbs = n * (product rates).den := by
      have hcast : (block : ℚ) * (product rates).num.natAbs = n * (product rates).den := by
        rw [hnum, ← mul_assoc, hn]
      exact_mod_cast hcast
    exact (product rates).reduced.symm.dvd_of_dvd_mul_right ⟨n, by rw [hmul, Nat.mul_comm]⟩
  · rintro ⟨m, rfl⟩
    refine ⟨m * (product rates).num.natAbs, ?_⟩
    rw [Nat.cast_mul, Nat.cast_mul, hnum]
    ring

/-- The denominator of a rate in lowest terms is its lower factor. -/
theorem den_value {r : Rate} (h : r.isCoprime = true) : r.value.den = r.down.toNat := by
  obtain ⟨hpos, hcoprime⟩ := isCoprime_iff.mp h
  have hden := Rat.den_div_eq_of_coprime (a := r.up.toNat) (b := r.down.toNat)
    (Int.natCast_pos.mpr hpos.2) (by simpa using hcoprime)
  rw [Int.cast_natCast, Int.cast_natCast] at hden
  exact Int.natCast_inj.mp hden

end Rate

end Denominators

namespace Graph

section Inward

variable {g : Graph} {a : DomainAnalysis} {d : NodeId} {rates : List Rate}

/-- A block of 32 bits is scaled into a charted domain without leaving 64 bits, up to the first hop
that leads to a fraction. -/
theorem Charted.blockSize_cases (h : g.Charted a d rates) (b : UInt32) :
    (∃ n, a.blockSize (some d) b.toNat = .ok (.ok n) ∧ ∀ k, Rate.Whole b.toNat (rates.take k)) ∨
    ∃ fault i, a.blockSize (some d) b.toNat = .ok (.error fault) ∧ i < rates.length ∧
      ¬ Rate.Whole b.toNat (rates.take (i + 1)) := by
  have hstart : (b.toNat : ℚ) = b.toNat * Rate.base.value := by simp
  rw [DomainAnalysis.blockSize, h.localChain, scaleAlong]
  rcases scaleFrom_cases b.toNat_lt 0 hstart (by decide) h.coprime h.integral ⟨_, h.composed⟩ with
    ⟨n, hn, -, hwhole⟩ | ⟨fault, i, hfault, -, hi, -, hfirst⟩
  · exact .inl ⟨n, hn, hwhole⟩
  · exact .inr ⟨fault, i, hfault, hi, hfirst⟩

theorem Charted.exists_outcome (h : g.Charted a d rates) (b : UInt32) :
    ∃ outcome, a.blockSize (some d) b.toNat = .ok outcome := by
  rcases h.blockSize_cases b with ⟨n, hn, -⟩ | ⟨fault, -, hfault, -⟩
  · exact ⟨_, hn⟩
  · exact ⟨_, hfault⟩

/-- A block gets through to a charted domain if it is a multiple of the denominator at every
level. -/
theorem Charted.exists_blockSize_iff (h : g.Charted a d rates) {b : UInt32} :
    (∃ n, a.blockSize (some d) b.toNat = .ok (.ok n)) ↔
      ∀ k ≤ rates.length, (Rate.product (rates.take k)).den ∣ b.toNat := by
  rcases h.blockSize_cases b with ⟨n, hn, hwhole⟩ | ⟨fault, i, hfault, hi, hfirst⟩
  · exact iff_of_true ⟨n, hn⟩ fun k _ => Rate.whole_iff_den_dvd.mp (hwhole k)
  · refine iff_of_false ?_ ?_
    · rintro ⟨n, hn⟩
      cases hfault.symm.trans hn
    · intro hall
      exact hfirst (Rate.whole_iff_den_dvd.mpr (hall (i + 1) hi))

/-- The lower factor of the rate of a charted domain is the denominator of the product of the local
rates. -/
theorem Charted.down_eq_den (h : g.Charted a d rates) :
    (a.baseRate (some d)).down.toNat = (Rate.product rates).den := by
  obtain ⟨hcoprime, hvalue⟩ := h.baseRate_eq
  rw [← Rate.den_value hcoprime, hvalue]

end Inward

section Anchors

variable {g : Graph} {d : NodeId}

/-- The container of a node that changes the rate is a clock domain. -/
theorem exists_domainRate_of_farAnchor? (hg : g.WellFormed) {id : NodeId} {ends : Bool}
    (h : g.farAnchor? id ends = some d) : ∃ r, g.domainRate d = some r := by
  obtain ⟨n, hn, h⟩ := Option.bind_eq_some_iff.mp h
  obtain ⟨hchange, hparent⟩ : n.kind.isRateChange = true ∧ n.parent = some d := by
    cases hk : n.kind <;> cases ends <;> simp_all [NodeKind.isRateChange]
  obtain ⟨m, hm⟩ := hg.parent ⟨n, hn, hparent⟩
  have hlists := hg.listed hn hparent hm
  rw [NodeKind.Lists, if_pos hchange] at hlists
  refine exists_domainRate_of_isDomain hm ?_
  cases hk : m.kind <;> simp_all [NodeKind.boundaries, NodeKind.isDomain]

/-- In a well-formed graph a block is fixed in clock domains only. -/
theorem exists_domainRate_of_anchored (hg : g.WellFormed) (h : g.Anchored d) :
    ∃ r, g.domainRate d = some r := by
  rcases h with ⟨id, n, hn, hanchor⟩ | ⟨id, a, blamed, -, hmem⟩
  · unfold nodeAnchor? at hanchor
    split at hanchor
    · exact exists_domainRate_of_enclosingDomain hanchor
    · rename_i spec hk
      obtain ⟨m, hm, hdomain⟩ := hg.anchor hn hk hanchor
      exact exists_domainRate_of_isDomain hm hdomain
    · cases hanchor
  · obtain ⟨q, -, -, hinput | hfar | hfar⟩ := exists_mem_arcAnchors_iff.mp ⟨blamed, hmem⟩
    · exact exists_domainRate_of_inputDomain hinput
    · exact exists_domainRate_of_farAnchor? hg hfar
    · exact exists_domainRate_of_farAnchor? hg hfar

end Anchors

section Outcomes

variable {g : Graph} {p : ChannelPolicy} {s : RateState}

theorem exists_channelBlockFaults_iff {id : NodeId} {spec : ChannelSpec} :
    (∃ ds, g.channelBlockFaults s id spec = .ok ds) ↔ spec.domain.any s.broken.contains = true ∨
      ∃ outcome, scaleAlong spec.blockSize.toNat
        ((s.analysis.localChain spec.domain).reverse.map Rate.period) = .ok outcome := by
  unfold channelBlockFaults
  split
  · rename_i hbroken
    exact iff_of_true ⟨_, rfl⟩ (.inl hbroken)
  · rename_i hbroken
    rw [or_iff_right hbroken]
    refine exists_bind_iff fun outcome => ?_
    cases outcome <;> exact ⟨_, rfl⟩

theorem exists_domainBlockFaults_iff {d blamed : NodeId} :
    (∃ ds, g.domainBlockFaults p s (d, blamed) = .ok ds) ↔ s.broken.contains d = true ∨
      ∃ outcome, s.analysis.blockSize (some d) p.baseBlockSize.toNat = .ok outcome := by
  unfold domainBlockFaults
  dsimp only
  split
  · rename_i hbroken
    exact iff_of_true ⟨_, rfl⟩ (.inl hbroken)
  · rename_i hbroken
    rw [or_iff_right hbroken]
    refine exists_bind_iff fun outcome => ?_
    cases outcome <;> exact ⟨_, rfl⟩

/-- The blocks of a graph have an outcome if every channel and every domain in which a block is
fixed has one. -/
theorem exists_blockFaults_iff :
    (∃ ds, g.blockFaults p s = .ok ds) ↔
      (∀ id n spec, g.node? id = some n → n.kind = .channel spec →
        spec.domain.any s.broken.contains = true ∨
          ∃ outcome, scaleAlong spec.blockSize.toNat
            ((s.analysis.localChain spec.domain).reverse.map Rate.period) = .ok outcome) ∧
      ∀ d, g.Anchored d → s.broken.contains d = true ∨
        ∃ outcome, s.analysis.blockSize (some d) p.baseBlockSize.toNat = .ok outcome := by
  have hsplit : (∃ ds, g.blockFaults p s = .ok ds) ↔
      (∃ r, g.channelSpecs.mapM (fun c => g.channelBlockFaults s c.1 c.2) = .ok r) ∧
        ∃ r, g.anchors.toList.mapM (g.domainBlockFaults p s) = .ok r := by
    unfold blockFaults
    simp only [bind_eq_ok_iff]
    constructor
    · rintro ⟨_, xs, hxs, ys, hys, -⟩
      exact ⟨⟨xs, hxs⟩, ys, hys⟩
    · rintro ⟨⟨xs, hxs⟩, ys, hys⟩
      exact ⟨_, xs, hxs, ys, hys, rfl⟩
  rw [hsplit, exists_mapM_iff, exists_mapM_iff]
  simp only [Prod.forall, exists_channelBlockFaults_iff, exists_domainBlockFaults_iff,
    ← exists_mem_toList_anchors, ← NodeKind.channelSpec?_eq_some]
  exact and_congr forall_mem_channelSpecs (forall_congr' fun d => exists_imp.symm)

end Outcomes

section Results

variable {g : Graph} {p : ChannelPolicy} {domain : Option NodeId} {rates : List Rate}

/-- The rates that a graph declares around a clock domain, or around the base domain. -/
theorem exists_declared (hdomain : ∀ d ∈ domain, ∃ r, g.domainRate d = some r) :
    ∃ rates : List Rate, (g.domainChain domain).map g.domainRate = rates.map some := by
  cases domain with
  | none => exact ⟨[], rfl⟩
  | some d =>
      obtain ⟨r, hr⟩ := hdomain d rfl
      exact exists_rates hr

/-- The local rates around a domain that is not broken are those that the graph declares. -/
theorem localChain_eq (hdomain : ∀ d ∈ domain, ∃ r, g.domainRate d = some r)
    (hwhole : ∀ d ∈ domain, d ∉ g.computeRates.broken)
    (hrates : (g.domainChain domain).map g.domainRate = rates.map some) :
    g.computeRates.analysis.localChain domain = rates := by
  cases domain with
  | none =>
      have hnil : rates.map some = [] := hrates.symm
      rw [List.map_eq_nil_iff.mp hnil]
      rfl
  | some d =>
      obtain ⟨r, hr⟩ := hdomain d rfl
      obtain ⟨declared, hcharted⟩ := exists_charted_of_not_mem_broken hr (hwhole d rfl)
      rw [hcharted.localChain]
      exact List.map_injective_iff.mpr (Option.some_injective _)
        (hcharted.declared.symm.trans hrates)

/-- A block of 32 bits is scaled into a domain that is not broken. -/
theorem exists_inward {d : NodeId} {r : Rate} (hd : g.domainRate d = some r)
    (hwhole : d ∉ g.computeRates.broken) (b : UInt32) :
    ∃ outcome, g.computeRates.analysis.blockSize (some d) b.toNat = .ok outcome := by
  obtain ⟨rates, hcharted⟩ := exists_charted_of_not_mem_broken hd hwhole
  exact hcharted.exists_outcome b

/-- A block of 32 bits is carried out of a domain if no whole size on the way leaves its word. -/
theorem exists_scaleAlong_outward_iff (b : UInt32) :
    (∃ outcome, scaleAlong b.toNat
      ((g.computeRates.analysis.localChain domain).reverse.map Rate.period) = .ok outcome) ↔
      Rate.Fits b.toNat ((g.computeRates.analysis.localChain domain).reverse.map Rate.period) := by
  have hof : ∀ q ∈ (g.computeRates.analysis.localChain domain).reverse.map Rate.period,
      ∃ r ∈ g.computeRates.analysis.localChain domain, r.period = q := by
    intro q hq
    obtain ⟨r, hr, hperiod⟩ := List.mem_map.mp hq
    exact ⟨r, List.mem_reverse.mp hr, hperiod⟩
  refine exists_scaleFrom_iff ?_ ?_ ?_ 0
  · intro q hq
    obtain ⟨r, hr, rfl⟩ := hof q hq
    exact Rate.positive_period (isCoprime_of_mem_localChain hr)
  · intro q hq
    obtain ⟨r, hr, rfl⟩ := hof q hq
    obtain ⟨d, hrule⟩ := exists_rateRule?_of_mem_localChain hr
    exact Rate.isIntegralHop_period (isCoprime_of_rateRule? hrule)
      (isIntegralHop_of_rateRule? hrule)
  · have hword : b.toNat < UInt32.size := b.toNat_lt
    exact Nat.lt_trans hword (by decide)

/-- The block of a channel has an outcome where its domain is broken, or where the block fits on the
way out through the rates that the graph declares. -/
theorem exists_outward_iff (hdomain : ∀ d ∈ domain, ∃ r, g.domainRate d = some r) (b : UInt32) :
    (domain.any g.computeRates.broken.contains = true ∨ ∃ outcome, scaleAlong b.toNat
      ((g.computeRates.analysis.localChain domain).reverse.map Rate.period) = .ok outcome) ↔
    ∀ rates : List Rate, (∀ d ∈ domain, d ∉ g.computeRates.broken) →
      (g.domainChain domain).map g.domainRate = rates.map some →
      Rate.Fits b.toNat (rates.reverse.map Rate.period) := by
  have hbroken : domain.any g.computeRates.broken.contains = true ↔
      ¬ ∀ d ∈ domain, d ∉ g.computeRates.broken := by
    simp [Option.any_eq_true]
  rw [hbroken, exists_scaleAlong_outward_iff, ← imp_iff_not_or]
  constructor
  · intro h rates hwhole hrates
    rw [← localChain_eq hdomain hwhole hrates]
    exact h hwhole
  · intro h hwhole
    obtain ⟨rates, hrates⟩ := exists_declared hdomain
    rw [localChain_eq hdomain hwhole hrates]
    exact h rates hwhole hrates

/-- When validation has an answer.

* The block of the policy is scaled into every clock domain that is not broken without
  leaving 64 bits.
* Validation answers exactly if the graph is not well-formed, or if no whole size that the block
  of a channel takes on the way out of its domain, through the rates that the graph declares,
  leaves 64 bits. -/
theorem exists_validate_iff (g : Graph) (p : ChannelPolicy) :
    (∀ d r, g.domainRate d = some r → d ∉ g.computeRates.broken →
      ∃ outcome, g.computeRates.analysis.blockSize (some d) p.baseBlockSize.toNat = .ok outcome) ∧
    ((∃ v, g.validate p = .ok v) ↔
      (g.WellFormed → ∀ id n spec (rates : List Rate), g.node? id = some n →
        n.kind = .channel spec →
        (∀ d ∈ spec.domain, d ∉ g.computeRates.broken) →
        (g.domainChain spec.domain).map g.domainRate = rates.map some →
        Rate.Fits spec.blockSize.toNat (rates.reverse.map Rate.period))) := by
  refine ⟨fun d r hr hwhole => exists_inward hr hwhole p.baseBlockSize, ?_⟩
  by_cases hg : g.WellFormed
  · have hanchors : ∀ d, g.Anchored d → g.computeRates.broken.contains d = true ∨
        ∃ outcome, g.computeRates.analysis.blockSize (some d) p.baseBlockSize.toNat =
          .ok outcome := by
      intro d hd
      obtain ⟨r, hr⟩ := exists_domainRate_of_anchored hg hd
      refine or_iff_not_imp_left.mpr fun hwhole => exists_inward hr ?_ p.baseBlockSize
      exact mt Std.ExtTreeSet.mem_iff_contains.mp hwhole
    have hdomain : ∀ {id n spec}, g.node? id = some n → n.kind = .channel spec →
        ∀ d ∈ spec.domain, ∃ r, g.domainRate d = some r := by
      intro id n spec hn hk d hd
      obtain ⟨m, hm, hkind⟩ := hg.anchor hn hk hd
      exact exists_domainRate_of_isDomain hm hkind
    rw [exists_validate_eq_ok_iff hg, exists_blockFaults_iff, and_iff_left hanchors]
    constructor
    · intro h _ id n spec rates hn hk
      exact (exists_outward_iff (hdomain hn hk) spec.blockSize).mp (h id n spec hn hk) rates
    · intro h id n spec hn hk
      refine (exists_outward_iff (hdomain hn hk) spec.blockSize).mpr fun rates => ?_
      exact h hg id n spec rates hn hk
  · exact iff_of_true ⟨_, validate_of_not_wellFormed hg⟩ fun h => absurd h hg

/-- A domain that multiplies and two inside each other that divide, by half a word each.  Their
composed rates are small; a channel in the innermost one carries four samples. -/
def steep : Graph :=
  let build : Except Trap Graph := do
    let (up, g) ← empty.addDomain none "up" (.upsample 2147483648)
    let (level, g) ← g.addDomain (some up) "level" (.downsample 2147483648)
    let (down, g) ← g.addDomain (some level) "down" (.downsample 2147483648)
    let (_, g) ← g.addChannel (some down) "c"
      { capacity := 4, blockSize := 4, domain := some down } ⟨0⟩ none
    return g
  build.toOption.getD empty

/-- Nothing is wrong with the structure and the rates of the graph, but its validation has no
answer: two levels out, the block of the channel is a whole number that leaves 64 bits. -/
theorem validate_steep_overflow :
    steep.isSound = true ∧ steep.computeRates.diagnostics = [] ∧
      steep.validate { baseBlockSize := 2147483648 } = .error .mulOverflow := by
  have hsound : steep.isSound = true := by
    decide
  exact ⟨hsound, by decide, (validate_eq_error_iff (wellFormed_of_isSound hsound)).mpr rfl⟩

end Results

section Remedies

variable {g : Graph} {p : ChannelPolicy}

/-- The wording of the remedy tells its divisor. -/
theorem divisor_inj {m n : Nat}
    (h : s!"use a base block size divisible by {m}" = s!"use a base block size divisible by {n}") :
    m = n := by
  have hdigits : Nat.toDigits 10 m = Nat.toDigits 10 n := by
    simpa using congrArg String.toList h
  calc m = Nat.ofDigitChars 10 (Nat.toDigits 10 m) 0 := Nat.ofDigitChars_ten_toDigits.symm
    _ = n := by rw [hdigits, Nat.ofDigitChars_ten_toDigits]

/-- Only the scaling of blocks reports that a block is a fraction. -/
theorem mem_blockFaults_of_fractionalBlock {v : Validation} (hv : g.validate p = .ok v)
    {x : Diagnostic} (hx : x ∈ v.diagnostics) (hcode : x.code = some .fractionalBlock) :
    g.WellFormed ∧ v.analysis = g.computeRates.analysis ∧
      ∃ blocks, g.blockFaults p g.computeRates = .ok blocks ∧ x ∈ blocks := by
  by_cases hg : g.WellFormed
  · obtain ⟨blocks, hblocks, rfl⟩ := (validate_eq_ok_iff hg).mp hv
    refine ⟨hg, rfl, blocks, hblocks, ?_⟩
    simp only [List.mem_append] at hx
    rcases hx with (((hx | hx) | hx) | hx) | hx
    · have hrates := code_of_mem_computeRates hx
      simp [hcode, rateCodes] at hrates
    · cases hcode.symm.trans (code_of_mem_rateChangeFaults hx)
    · exact hx
    · cases hcode.symm.trans (code_of_mem_periodFaults hx)
    · rcases code_of_mem_topologyFaults hx with htopology | htopology | htopology <;>
        cases hcode.symm.trans htopology
  · rw [validate_of_not_wellFormed hg] at hv
    cases hv
    have hstructural := (isStructural_structuralFaults hx).2
    rw [hcode] at hstructural
    cases hstructural

/-- What the remedy for a fraction is worth.  Where validation reports that the block of the policy
is a fraction in a domain, and to use a block divisible by `k`, then `k` is the denominator of the
product of the rates around the domain.  Every block that gets through to the domain is a multiple
of `k`.  Every multiple of `k` gets through exactly if `k` is also a multiple of the denominator at
each level on the way. -/
theorem blockHint_suffices_iff {v : Validation} (hv : g.validate p = .ok v) {x : Diagnostic}
    (hx : x ∈ v.diagnostics) (hcode : x.code = some .fractionalBlock) {d : NodeId}
    (hsubject : x.subject = some d) {k : Nat}
    (hhint : x.hint = some s!"use a base block size divisible by {k}") :
    ∃ rates, (g.domainChain (some d)).map g.domainRate = rates.map some ∧
      k = (Rate.product rates).den ∧
      (∀ (b : UInt32) n, v.analysis.blockSize (some d) b.toNat = .ok (.ok n) → k ∣ b.toNat) ∧
      ((∀ b : UInt32, k ∣ b.toNat → ∃ n, v.analysis.blockSize (some d) b.toNat = .ok (.ok n)) ↔
        ∀ j ≤ rates.length, (Rate.product (rates.take j)).den ∣ k) := by
  obtain ⟨hg, hanalysis, blocks, hblocks, hx⟩ := mem_blockFaults_of_fractionalBlock hv hx hcode
  obtain ⟨e, hanchored, hwhole, hsubject', hhint'⟩ :=
    (of_mem_blockFaults hblocks hx).2.2 (by rw [hhint]; simp)
  obtain rfl : d = e := Option.some_inj.mp (hsubject.symm.trans hsubject')
  obtain ⟨r, hr⟩ := exists_domainRate_of_anchored hg hanchored
  obtain ⟨rates, hcharted⟩ := exists_charted_of_not_mem_broken hr hwhole
  obtain rfl := divisor_inj (Option.some_inj.mp (hhint.symm.trans hhint'))
  rw [hanalysis]
  refine ⟨rates, hcharted.declared, hcharted.down_eq_den, ?_, ?_⟩
  · intro b n hn
    rw [hcharted.down_eq_den]
    have hall := hcharted.exists_blockSize_iff.mp ⟨n, hn⟩ rates.length le_rfl
    rwa [List.take_length] at hall
  · constructor
    · intro h
      -- the divisor itself is one of the blocks
      exact hcharted.exists_blockSize_iff.mp (h _ dvd_rfl)
    · intro h b hb
      exact hcharted.exists_blockSize_iff.mpr fun j hj => (h j hj).trans hb

/-- A domain inside another, and an external port in the inner one. -/
def tapped (outer inner : Rate) : Graph :=
  let build : Except Trap Graph := do
    let (d, g) ← empty.addDomain none "outer" outer
    let (e, g) ← g.addDomain (some d) "inner" inner
    let (_, g) ← g.addIo (some e) "x" { bundle := "in", direction := .input, member := 0 }
    return g
  build.toOption.getD empty

/-- A remedy that scaling the blocks of a sound graph gives is one that validation reports. -/
theorem exists_blockHint (d : NodeId) (hint : String) (hsound : g.isSound = true)
    (htest : (g.blockFaults p g.computeRates).toOption.any (fun blocks => blocks.any fun x =>
      x.code = some .fractionalBlock && x.subject = some d && x.hint = some hint) = true) :
    ∃ v x, g.validate p = .ok v ∧ v.analysis = g.computeRates.analysis ∧ x ∈ v.diagnostics ∧
      x.code = some .fractionalBlock ∧ x.subject = some d ∧ x.hint = some hint := by
  obtain ⟨blocks, hblocks, hany⟩ := exists_of_toOption_any htest
  obtain ⟨x, hx, hfound⟩ := List.any_eq_true.mp hany
  simp only [Bool.and_eq_true, decide_eq_true_eq] at hfound
  refine ⟨_, x, (validate_eq_ok_iff (wellFormed_of_isSound hsound)).mpr ⟨blocks, hblocks, rfl⟩, rfl,
    ?_, hfound.1.1, hfound.1.2, hfound.2⟩
  simp [hx]

/-- Two domains that each keep one sample of two: every multiple of four gets through. -/
theorem blockHint_suffices_iff_halved :
    ∃ v x, (tapped (.downsample 2) (.downsample 2)).validate { baseBlockSize := 2 } = .ok v ∧
      x ∈ v.diagnostics ∧ x.code = some .fractionalBlock ∧ x.subject = some ⟨1⟩ ∧
      x.hint = some "use a base block size divisible by 4" ∧
      ∀ b : UInt32, 4 ∣ b.toNat → ∃ n, v.analysis.blockSize (some ⟨1⟩) b.toNat = .ok (.ok n) := by
  obtain ⟨v, x, hv, -, hx, hcode, hsubject, hhint⟩ := exists_blockHint
    (g := tapped (.downsample 2) (.downsample 2)) (p := { baseBlockSize := 2 }) ⟨1⟩
    "use a base block size divisible by 4" (by decide) (by decide)
  refine ⟨v, x, hv, hx, hcode, hsubject, hhint, ?_⟩
  obtain ⟨rates, hrates, -, -, hsuffices⟩ :=
    blockHint_suffices_iff (k := 4) hv hx hcode hsubject hhint
  have hchain : ((tapped (.downsample 2) (.downsample 2)).domainChain (some ⟨1⟩)).map
      (tapped (.downsample 2) (.downsample 2)).domainRate = [some ⟨1, 2⟩, some ⟨1, 2⟩] := by
    decide
  obtain rfl : rates = [⟨1, 2⟩, ⟨1, 2⟩] :=
    List.map_injective_iff.mpr (Option.some_injective _) (hrates.symm.trans hchain)
  have hhalf : (⟨1, 2⟩ : Rate).value = (1 : ℕ) / (2 : ℕ) := rfl
  refine hsuffices.mpr ?_
  intro j hj
  rw [← Rate.whole_iff_den_dvd]
  have hcases : j = 0 ∨ j = 1 ∨ j = 2 := by
    simp only [List.length_cons, List.length_nil] at hj
    omega
  rcases hcases with rfl | rfl | rfl
  · exact Rate.whole_nil 4
  · exact ⟨2, by norm_num [hhalf]⟩
  · exact ⟨1, by norm_num [hhalf]⟩

/-- Inside a domain that keeps one sample of four, one that doubles: the composed rate is one half,
but a block of two is a fraction one level before. -/
theorem blockHint_tapped_insufficient :
    ∃ v x, (tapped (.downsample 4) (.upsample 2)).validate {} = .ok v ∧
      x ∈ v.diagnostics ∧ x.code = some .fractionalBlock ∧ x.subject = some ⟨1⟩ ∧
      x.hint = some "use a base block size divisible by 2" ∧
      v.analysis.blockSize (some ⟨1⟩) 2 = .ok (.error ⟨0, 2, 4⟩) := by
  obtain ⟨v, x, hv, hanalysis, hx, hcode, hsubject, hhint⟩ := exists_blockHint
    (g := tapped (.downsample 4) (.upsample 2)) (p := {}) ⟨1⟩
    "use a base block size divisible by 2" (by decide) (by decide)
  refine ⟨v, x, hv, hx, hcode, hsubject, hhint, ?_⟩
  rw [hanalysis]
  rfl

end Remedies

end Graph
end Dataflow
