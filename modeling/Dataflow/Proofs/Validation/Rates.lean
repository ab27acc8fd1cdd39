import Dataflow.Proofs.Graph.Table
import Dataflow.Proofs.Trap
import Dataflow.Validation.Rates

/-!
# Faults of rates and blocks

When the rules for changes of rate, for blocks and for declared periods have nothing to report.

**Changes.**  Every boundary applies the rate of its domain on the way in and undoes it on the way
out (`rateChangeFaults_eq_nil_iff`).

**Blocks.**  Which node is to blame does not decide whether a block is whole: what counts is the set
of domains in which a block is fixed (`Anchored`), and that the block of the policy stays whole on
the way into each of them (`blockFaults_eq_nil_iff`).

**Periods.**  A period that an arc declares is the one at which the port where the arc starts gives
out its samples (`periodFaults_eq_nil_iff`).
-/

namespace Dataflow
namespace Graph

section Domains

variable {g : Graph}

theorem mem_domains {d : NodeId} {r : Rate} :
    (d, r) ∈ g.domains ↔ ∃ n, g.node? d = some n ∧ n.kind.rate? = some r := by
  simp [domains]

/-- Clock domains are listed in the order of their numbers. -/
theorem domains_ordered (g : Graph) : g.domains.Pairwise fun x y => x.1.val < y.1.val := by
  refine g.nodeList_ordered.filterMap _ ?_
  intro x y hxy u hu v hv
  obtain ⟨_, -, rfl⟩ := Option.map_eq_some_iff.mp hu
  obtain ⟨_, -, rfl⟩ := Option.map_eq_some_iff.mp hv
  exact hxy

end Domains

section Changes

variable {g : Graph} {a : DomainAnalysis}

/-- A node that changes the rate does so as its domain asks. -/
def ChangeSuits (a : DomainAnalysis) (n : Node) : Prop :=
  ∀ change entering domain rate, changeOf? n.kind = some (change, entering) →
    n.parent = some domain → a.localRates[domain]? = some rate →
    change.ratio ≠ 0 ∧ change.rate.reduced = if entering then rate else rate.period

theorem rateChangeFaults_eq_nil_iff :
    g.rateChangeFaults a = [] ↔ ∀ id n, g.node? id = some n → ChangeSuits a n := by
  unfold rateChangeFaults ChangeSuits
  rw [List.filterMap_eq_nil_iff]
  simp only [Prod.forall, mem_nodeList, Option.bind_eq_bind, Option.bind_eq_none_iff]
  refine forall_congr' fun id => forall_congr' fun n => forall_congr' fun hn => ?_
  constructor
  · intro h change entering domain rate hchange hparent hrate
    have hnone := h change entering hchange domain hparent rate hrate
    by_contra hbad
    rw [not_and_or, not_not] at hbad
    simp [hbad] at hnone
  · intro h change entering hchange domain hparent rate hrate
    obtain ⟨hratio, hreduced⟩ := h change entering domain rate hchange hparent hrate
    exact if_neg (not_or.mpr ⟨hratio, not_not.mpr hreduced⟩)

end Changes

section Anchors

variable {g : Graph} {d : NodeId}

/-- A node or an arc fixes the size of a block in a domain. -/
def Anchored (g : Graph) (d : NodeId) : Prop :=
  (∃ id n, g.node? id = some n ∧ g.nodeAnchor? id n = some d) ∨
    ∃ id a blamed, g.arc? id = some a ∧ (d, blamed) ∈ g.arcAnchors a

/-- An arc at a channel, or one that needs a channel, fixes a block in the domain of the port where
it ends, and on the far side of a boundary at either end. -/
theorem exists_mem_arcAnchors_iff {a : Arc} :
    (∃ blamed, (d, blamed) ∈ g.arcAnchors a) ↔
      ∃ q, a.dst = .port q ∧ (g.atChannel a = true ∨ g.crossing? a ≠ none) ∧
        (g.inputDomain q = some d ∨ g.farAnchor? q.node true = some d ∨
          g.farAnchor? a.src.node false = some d) := by
  unfold arcAnchors
  cases hdst : a.dst with
  | unconnected => simp [Arc.dstPort, hdst]
  | port q =>
      simp only [Arc.dstPort, hdst, ArcSink.port.injEq, exists_eq_left', Bool.and_eq_true,
        Bool.not_eq_true', Option.isNone_iff_eq_none]
      split
      · rename_i hfree
        simp [hfree]
      · rename_i hfree
        rw [not_and_or, Bool.not_eq_false] at hfree
        simp only [hfree, true_and, List.mem_append, Option.mem_toList, Option.map_eq_some_iff,
          Prod.mk.injEq, exists_or, or_assoc]
        simp

theorem mem_foldl_insertIfNew {l : List (NodeId × NodeId)} {t : Std.ExtTreeMap NodeId NodeId} :
    d ∈ l.foldl (fun t e => t.insertIfNew e.1 e.2) t ↔ d ∈ t ∨ ∃ blamed, (d, blamed) ∈ l := by
  induction l generalizing t with
  | nil => simp
  | cons e l ih =>
      obtain ⟨k, b⟩ := e
      have hkey : compare k d = .eq ↔ d = k := by
        rw [Std.LawfulEqOrd.compare_eq_iff_eq, eq_comm]
      simp only [List.foldl_cons, ih, Std.ExtTreeMap.mem_insertIfNew, hkey, List.mem_cons,
        Prod.mk.injEq, exists_or, exists_and_left, exists_eq, and_true]
      rw [or_assoc, or_left_comm]

theorem mem_anchors : d ∈ g.anchors ↔ g.Anchored d := by
  unfold anchors Anchored
  dsimp only
  rw [mem_foldl_insertIfNew]
  simp only [Std.ExtTreeMap.not_mem_empty, false_or, List.mem_append, exists_or, List.mem_filterMap,
    List.mem_flatMap, Prod.exists, mem_nodeList, mem_arcList, Option.map_eq_some_iff,
    Prod.mk.injEq]
  refine or_congr ?_ ?_
  · constructor
    · rintro ⟨_, id, n, hn, _, hd, rfl, rfl⟩
      exact ⟨id, n, hn, hd⟩
    · rintro ⟨id, n, hn, hd⟩
      exact ⟨id, id, n, hn, d, hd, rfl, rfl⟩
  · constructor
    · rintro ⟨blamed, id, a, ha, hd⟩
      exact ⟨id, a, blamed, ha, hd⟩
    · rintro ⟨id, a, blamed, ha, hd⟩
      exact ⟨blamed, id, a, ha, hd⟩

/-- The domains that are listed are those in which a block is fixed. -/
theorem exists_mem_toList_anchors : (∃ blamed, (d, blamed) ∈ g.anchors.toList) ↔ g.Anchored d := by
  rw [← mem_anchors, Std.ExtTreeMap.mem_iff_isSome_getElem?, Option.isSome_iff_exists]
  exact exists_congr fun _ => Std.ExtTreeMap.mem_toList_iff_getElem?_eq_some

end Anchors

section Blocks

variable {g : Graph} {p : ChannelPolicy} {s : RateState}

/-- The block of a policy stays whole on the way into a domain, as far as its rate is known. -/
def RateState.Admits (s : RateState) (p : ChannelPolicy) (d : NodeId) : Prop :=
  s.broken.contains d = true ∨
    ∃ n, s.analysis.blockSize (some d) p.baseBlockSize.toNat = .ok (.ok n)

/-- The block of a channel stays whole on the way out of its domain, as far as its rate is known. -/
def RateState.Releases (s : RateState) (spec : ChannelSpec) : Prop :=
  spec.domain.any s.broken.contains = true ∨
    ∃ n, scaleAlong spec.blockSize.toNat
      ((s.analysis.localChain spec.domain).reverse.map Rate.period) = .ok (.ok n)

/-- The channels that are already there. -/
def channelSpecs (g : Graph) : List (NodeId × ChannelSpec) :=
  g.nodeList.filterMap fun n => n.2.kind.channelSpec?.map fun spec => (n.1, spec)

theorem forall_mem_channelSpecs {q : ChannelSpec → Prop} :
    (∀ id spec, (id, spec) ∈ g.channelSpecs → q spec) ↔
      ∀ id n spec, g.node? id = some n → n.kind.channelSpec? = some spec → q spec := by
  simp only [channelSpecs, List.mem_filterMap, Prod.exists, mem_nodeList, Option.map_eq_some_iff,
    Prod.mk.injEq]
  constructor
  · intro h id n spec hn hk
    exact h id spec ⟨id, n, hn, spec, hk, rfl, rfl⟩
  · rintro h _ _ ⟨id, n, hn, spec, hk, rfl, rfl⟩
    exact h id n spec hn hk

theorem domainBlockFaults_eq_nil_iff {d blamed : NodeId} :
    g.domainBlockFaults p s (d, blamed) = .ok [] ↔ s.Admits p d := by
  unfold domainBlockFaults RateState.Admits
  dsimp only
  split
  · rename_i hbroken
    exact iff_of_true rfl (.inl hbroken)
  · rename_i hbroken
    rw [bind_eq_ok_iff, or_iff_right hbroken]
    constructor
    · rintro ⟨r, hr, h⟩
      cases r with
      | ok n => exact ⟨n, hr⟩
      | error fault => cases h
    · rintro ⟨n, hn⟩
      exact ⟨.ok n, hn, rfl⟩

theorem channelBlockFaults_eq_nil_iff {id : NodeId} {spec : ChannelSpec} :
    g.channelBlockFaults s id spec = .ok [] ↔ s.Releases spec := by
  unfold channelBlockFaults RateState.Releases
  dsimp only
  split
  · rename_i hbroken
    exact iff_of_true rfl (.inl hbroken)
  · rename_i hbroken
    rw [bind_eq_ok_iff, or_iff_right hbroken]
    constructor
    · rintro ⟨r, hr, h⟩
      cases r with
      | ok n => exact ⟨n, hr⟩
      | error fault => cases h
    · rintro ⟨n, hn⟩
      exact ⟨.ok n, hn, rfl⟩

/-- No block is at fault when every channel releases its block and every domain in which a block is
fixed admits the block of the policy. -/
theorem blockFaults_eq_nil_iff :
    g.blockFaults p s = .ok [] ↔
      (∀ id n spec, g.node? id = some n → n.kind.channelSpec? = some spec → s.Releases spec) ∧
        ∀ d, g.Anchored d → s.Admits p d := by
  have hsplit : g.blockFaults p s = .ok [] ↔
      (∃ r, g.channelSpecs.mapM (fun c => g.channelBlockFaults s c.1 c.2) = .ok r ∧
        r.flatten = []) ∧
        ∃ r, g.anchors.toList.mapM (g.domainBlockFaults p s) = .ok r ∧ r.flatten = [] := by
    unfold blockFaults
    dsimp only
    simp only [bind_eq_ok_iff]
    constructor
    · rintro ⟨xs, hxs, ys, hys, h⟩
      have hnil := List.append_eq_nil_iff.mp (Except.ok.inj h)
      exact ⟨⟨xs, hxs, hnil.1⟩, ys, hys, hnil.2⟩
    · rintro ⟨⟨xs, hxs, hx⟩, ys, hys, hy⟩
      refine ⟨xs, hxs, ys, hys, ?_⟩
      rw [hx, hy]
      rfl
  rw [hsplit, mapM_flatten_eq_nil_iff, mapM_flatten_eq_nil_iff]
  simp only [Prod.forall, domainBlockFaults_eq_nil_iff, channelBlockFaults_eq_nil_iff,
    ← exists_mem_toList_anchors]
  exact and_congr forall_mem_channelSpecs (forall_congr' fun d => exists_imp.symm)

end Blocks

section Periods

variable {g : Graph} {s : RateState}

/-- Every period that an arc declares is that of the port where the arc starts. -/
def PeriodsHold (g : Graph) (a : DomainAnalysis) : Prop :=
  ∀ id arc declared, g.arc? id = some arc → arc.period = some declared →
    declared.reduced = (a.baseRate (g.outputDomain arc.src)).period

theorem periodFaults_eq_nil_iff (hbroken : s.broken = ∅) :
    g.periodFaults s = [] ↔ g.PeriodsHold s.analysis := by
  unfold periodFaults PeriodsHold
  rw [List.filterMap_eq_nil_iff]
  simp only [Prod.forall, mem_arcList, Option.bind_eq_bind, Option.bind_eq_none_iff]
  refine forall_congr' fun id => forall_congr' fun arc => ?_
  have hknown : ¬ (g.outputDomain arc.src).any s.broken.contains = true := by
    rw [hbroken]
    cases g.outputDomain arc.src <;> simp
  simp only [if_neg hknown, ite_eq_left_iff, reduceCtorEq, imp_false, not_not]
  exact forall_comm

end Periods

end Graph
end Dataflow
