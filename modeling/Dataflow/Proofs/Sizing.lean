import Dataflow.Insertion
import Dataflow.Proofs.Trap
import Dataflow.Validation.Rates
import Mathlib.Logic.Basic

/-!
# Sizes of channels

The block of a channel is the block of the policy, scaled by the rates of the domains around the
reader.  Validation lets only positive rates in lowest terms into its analysis.  So a block never
becomes empty on the way, a channel of at least one block holds a block, and a block that was scaled
into a domain comes back on the way out (`scaleFrom_outward`).
-/

namespace Dataflow

section Scaling

/-- A block that stays whole through positive rates does not become empty. -/
theorem scaleFrom_pos :
    ∀ {hop block n : Nat} {chain : List Rate},
      (∀ r ∈ chain, 0 < r.up.toNat) → 0 < block →
      scaleFrom hop block chain = .ok (.ok n) → 0 < n
  | hop, block, n, [], _, hblock, h => by
      cases h
      exact hblock
  | hop, block, n, r :: chain, hpos, hblock, h => by
      unfold scaleFrom at h
      obtain ⟨numer, hnumer, h⟩ := bind_eq_ok_iff.mp h
      obtain ⟨rfl, -⟩ := mulLong_eq_ok_iff.mp hnumer
      dsimp only at h
      split at h
      · cases h
      · rename_i hwhole
        -- the division leaves no rest, so a positive product has a positive quotient
        rw [not_or, not_not] at hwhole
        have hup : 0 < block * r.up.toNat := Nat.mul_pos hblock (hpos r List.mem_cons_self)
        have hle : r.down.toNat ≤ block * r.up.toNat :=
          Nat.le_of_dvd hup (Nat.dvd_of_mod_eq_zero hwhole.2)
        have hdiv : 0 < block * r.up.toNat / r.down.toNat :=
          Nat.div_pos hle (Nat.pos_of_ne_zero hwhole.1)
        exact scaleFrom_pos (fun r hr => hpos r (List.mem_cons_of_mem _ hr)) hdiv h

/-- The period of a rate in lowest terms swaps its factors. -/
theorem Rate.period_eq {r : Rate} (h : r.isCoprime = true) : r.period = ⟨r.down, r.up⟩ := by
  simp only [isCoprime, Bool.and_eq_true, decide_eq_true_eq, UInt32.lt_iff_toNat_lt,
    UInt32.toNat_zero] at h
  obtain ⟨⟨hup, hdown⟩, hgcd⟩ := h
  have hne : ¬ (r.down.toNat = 0 ∨ r.up.toNat = 0) := by omega
  simp [period, reduced, reduceRatio, hne, Nat.gcd_comm r.down.toNat, hgcd]

theorem Rate.period_inj {r q : Rate} (hr : r.isCoprime = true) (hq : q.isCoprime = true) :
    r.period = q.period ↔ r = q := by
  obtain ⟨up, down⟩ := r
  obtain ⟨up', down'⟩ := q
  rw [period_eq hr, period_eq hq, Rate.mk.injEq, Rate.mk.injEq]
  exact and_comm

/-- A block that stays whole through a chain goes on from there. -/
theorem scaleFrom_append {xs ys : List Rate} {hop block n : Nat}
    (h : scaleFrom hop block xs = .ok (.ok n)) :
    scaleFrom hop block (xs ++ ys) = scaleFrom (hop + xs.length) n ys := by
  induction xs generalizing hop block with
  | nil =>
      cases h
      rfl
  | cons r xs ih =>
      unfold scaleFrom at h
      obtain ⟨numer, hnumer, h⟩ := bind_eq_ok_iff.mp h
      dsimp only at h
      split at h
      · cases h
      · rename_i hwhole
        rw [List.cons_append, scaleFrom, hnumer]
        dsimp only [bind, Except.bind]
        rw [if_neg hwhole, ih h, List.length_cons]
        congr 1
        omega

/-- A block that stays whole on the way into a chain of domains comes back on the way out. -/
theorem scaleFrom_outward {chain : List Rate} (hchain : ∀ r ∈ chain, r.isCoprime = true)
    {hop block n : Nat} (h : scaleFrom hop block chain = .ok (.ok n)) (start : Nat) :
    scaleFrom start n (chain.reverse.map Rate.period) = .ok (.ok block) := by
  induction chain generalizing hop block with
  | nil =>
      cases h
      rfl
  | cons r chain ih =>
      unfold scaleFrom at h
      obtain ⟨numer, hnumer, h⟩ := bind_eq_ok_iff.mp h
      obtain ⟨hmul, hlt⟩ := mulLong_eq_ok_iff.mp hnumer
      dsimp only at h
      split at h
      · cases h
      · rename_i hwhole
        rw [not_or, not_not] at hwhole
        have hout := ih (fun r hr => hchain r (List.mem_cons_of_mem _ hr)) h
        have hr := hchain r List.mem_cons_self
        -- the last hop out undoes the first hop in
        have hback : mulLong (numer / r.down.toNat) r.down.toNat = .ok numer :=
          mulLong_eq_ok_iff.mpr ⟨Nat.div_mul_cancel (Nat.dvd_of_mod_eq_zero hwhole.2), hlt⟩
        have hup : 0 < r.up.toNat := by
          simp only [Rate.isCoprime, Bool.and_eq_true, decide_eq_true_eq,
            UInt32.lt_iff_toNat_lt, UInt32.toNat_zero] at hr
          exact hr.1.1
        have hzero : ¬ (r.up.toNat = 0 ∨ numer % r.up.toNat ≠ 0) := by
          rw [not_or, not_not, ← hmul]
          exact ⟨Nat.ne_of_gt hup, Nat.mul_mod_left block r.up.toNat⟩
        rw [List.reverse_cons, List.map_append, scaleFrom_append hout, List.map_singleton,
          Rate.period_eq hr, scaleFrom, hback]
        dsimp only [bind, Except.bind]
        rw [if_neg hzero, ← hmul, Nat.mul_div_cancel block hup]
        rfl

end Scaling

section Rates

/-- Both factors of a rate are positive. -/
def Rate.Positive (r : Rate) : Prop := 0 < r.up.toNat ∧ 0 < r.down.toNat

/-- Every local rate that an analysis knows is positive. -/
def DomainAnalysis.Positive (a : DomainAnalysis) : Prop :=
  ∀ ⦃d : NodeId⦄ ⦃r : Rate⦄, a.localRates[d]? = some r → r.Positive

namespace Graph

variable {g : Graph}

theorem positive_of_rateRule? {d : NodeId} {r : Rate} (h : g.rateRule? d r = none) :
    r.Positive := by
  unfold rateRule? at h
  split at h
  · cases h
  · rename_i hzero
    rw [not_or, ← UInt32.toNat_inj, ← UInt32.toNat_inj] at hzero
    exact ⟨Nat.pos_of_ne_zero hzero.1, Nat.pos_of_ne_zero hzero.2⟩

theorem isCoprime_of_rateRule? {d : NodeId} {r : Rate} (h : g.rateRule? d r = none) :
    r.isCoprime = true := by
  unfold rateRule? at h
  split at h
  · cases h
  · split at h
    · cases h
    · rename_i hcoprime
      simpa using hcoprime

theorem rateRule?_judgeLocal {s : RateState}
    (hs : ∀ {d r}, s.analysis.localRates[d]? = some r → g.rateRule? d r = none) (x : NodeId × Rate)
    {d : NodeId} {r : Rate} (h : (g.judgeLocal s x).analysis.localRates[d]? = some r) :
    g.rateRule? d r = none := by
  unfold judgeLocal at h
  split at h
  · exact hs h
  · rename_i hrule
    dsimp only at h
    rw [Std.ExtTreeMap.getElem?_insert] at h
    split at h
    · rename_i hd
      cases Std.LawfulEqOrd.eq_of_compare hd
      cases h
      exact hrule
    · exact hs h

/-- Composing rates leaves the local ones alone. -/
theorem localRates_judgeComposed (s : RateState) (d : NodeId) :
    (g.judgeComposed s d).analysis.localRates = s.analysis.localRates := by
  unfold judgeComposed
  dsimp only
  split
  · rfl
  · split
    · rfl
    · rfl

/-- The local rates of an analysis keep the rules for rates, whatever the graph. -/
theorem rateRule?_computeRates {d : NodeId} {r : Rate}
    (h : g.computeRates.analysis.localRates[d]? = some r) : g.rateRule? d r = none := by
  have hlocal : ∀ {d r}, (g.domains.foldl g.judgeLocal {}).analysis.localRates[d]? = some r →
      g.rateRule? d r = none := by
    refine List.foldlRecOn _ _ (motive := fun s : RateState => ∀ {d r},
      s.analysis.localRates[d]? = some r → g.rateRule? d r = none) ?_ ?_
    · intro d r hr
      simp at hr
    · intro s hs x _ d r hr
      exact rateRule?_judgeLocal hs x hr
  have hcomposed : g.computeRates.analysis.localRates =
      (g.domains.foldl g.judgeLocal {}).analysis.localRates := by
    refine List.foldlRecOn _ _ (motive := fun s : RateState => s.analysis.localRates = _) rfl ?_
    intro s hs x _
    rw [localRates_judgeComposed, hs]
  rw [hcomposed] at h
  exact hlocal h

theorem positive_computeRates (g : Graph) : g.computeRates.analysis.Positive := by
  intro d r h
  exact positive_of_rateRule? (rateRule?_computeRates h)

end Graph

end Rates

section Blocks

variable {a : DomainAnalysis} {p : ChannelPolicy} {domain : Option NodeId} {block : UInt32}

theorem DomainAnalysis.Positive.of_mem_localChain (ha : a.Positive) {r : Rate}
    (hr : r ∈ a.localChain domain) : r.Positive := by
  unfold DomainAnalysis.localChain at hr
  split at hr
  · obtain ⟨d, -, hd⟩ := List.mem_filterMap.mp hr
    exact ha hd
  · cases hr

/-- The rates around a domain keep the rules for rates. -/
theorem exists_rateRule?_of_mem_localChain {g : Graph} {r : Rate}
    (hr : r ∈ g.computeRates.analysis.localChain domain) : ∃ d, g.rateRule? d r = none := by
  unfold DomainAnalysis.localChain at hr
  split at hr
  · obtain ⟨d, -, hd⟩ := List.mem_filterMap.mp hr
    exact ⟨d, Graph.rateRule?_computeRates hd⟩
  · cases hr

theorem isCoprime_of_mem_localChain {g : Graph} {r : Rate}
    (hr : r ∈ g.computeRates.analysis.localChain domain) : r.isCoprime = true := by
  obtain ⟨d, hd⟩ := exists_rateRule?_of_mem_localChain hr
  exact Graph.isCoprime_of_rateRule? hd

/-- The block of a channel is the block of the policy, scaled into the domain of the reader. -/
theorem blockSize_of_channelBlock (h : a.channelBlock p domain = .ok (some block)) :
    a.blockSize domain p.baseBlockSize.toNat = .ok (.ok block.toNat) := by
  unfold DomainAnalysis.channelBlock at h
  obtain ⟨result, hresult, h⟩ := bind_eq_ok_iff.mp h
  cases result with
  | error _ => cases h
  | ok n =>
      have hword : word? n = some block := Except.ok.inj h
      rw [hresult, word?_eq_some_iff.mp hword]

theorem toNat_pos_of_ne_zero {w : UInt32} (h : w ≠ 0) : 0 < w.toNat := by
  rw [Nat.pos_iff_ne_zero]
  intro hzero
  exact h (UInt32.toNat_inj.mp hzero)

/-- The block of a channel is not empty. -/
theorem channelBlock_pos (ha : a.Positive) (hp : p.baseBlockSize ≠ 0)
    (h : a.channelBlock p domain = .ok (some block)) :
    0 < block.toNat :=
  scaleFrom_pos (fun _ hr => (ha.of_mem_localChain hr).1) (toNat_pos_of_ne_zero hp)
    (blockSize_of_channelBlock h)

/-- A channel holds a block. -/
theorem le_capacity {capacity : UInt32} (hp : p.capacityMultiplier ≠ 0)
    (h : p.capacity block = some capacity) :
    block.toNat ≤ capacity.toNat := by
  rw [word?_eq_some_iff.mp h]
  exact Nat.le_mul_of_pos_right _ (toNat_pos_of_ne_zero hp)

/-- A policy without an error has blocks, and room for at least one of them. -/
theorem hasErrors_faults_eq_false_iff :
    hasErrors p.faults = false ↔ p.baseBlockSize ≠ 0 ∧ p.capacityMultiplier ≠ 0 := by
  unfold ChannelPolicy.faults hasErrors
  by_cases hbase : p.baseBlockSize = 0
  · simp [hbase, Diagnostic.isError]
  · by_cases hzero : p.capacityMultiplier = 0
    · simp [hbase, hzero, Diagnostic.isError]
    · by_cases hone : p.capacityMultiplier = 1
      · simp [hbase, hone, Diagnostic.isError]
      · simp [hbase, hzero, hone]

end Blocks

end Dataflow
