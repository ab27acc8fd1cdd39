import Dataflow.Assembly
import Dataflow.Plan.Certificate
import Dataflow.Proofs.Trap
import Mathlib.Data.List.Perm.Basic
import Mathlib.Data.List.Nodup

/-!
# Plans that can be wired up

The assembly of a program takes ends of channels out of a ledger, and a kernel or a transport for
each unit and each bundle.  Nothing is missing on the way where the plan has one writing and one
reading end for each of its channels (`ProgramPlan.Wirable`), and in the end nothing is left over
(`exists_assemble`).

**Ledger.**  `Ledger.Offers` says which ends are still free.  Taking the first of them
leaves the others.

**Stock.**  `Stock.Supplies` adds the partitions and the bundles that are still to come, for which
there has to be a kernel or a transport.
-/

namespace Dataflow

section Entries

/-- The entries under other keys stay. -/
theorem lookup_filter_ne {κ β : Type} [BEq κ] [LawfulBEq κ] [DecidableEq κ] {k k' : κ} (h : k ≠ k')
    (l : List (κ × β)) : (l.filter fun e => e.1 ≠ k').lookup k = l.lookup k := by
  induction l with
  | nil => rfl
  | cons e rest ih =>
      obtain ⟨x, v⟩ := e
      by_cases hx : x = k'
      · subst hx
        rw [List.filter_cons_of_neg (by simp), ih, List.lookup_cons, beq_false_of_ne h]
      · rw [List.filter_cons_of_pos (by simpa using hx), List.lookup_cons, List.lookup_cons, ih]

end Entries

namespace Ledger

variable {l : Ledger} {ids ws rs : List NodeId} {c : NodeId}

/-- The ledger is about the channels `ids`, of which the writing ends of `ws` and the reading ends
of `rs` are free. -/
structure Offers (l : Ledger) (ids ws rs : List NodeId) : Prop where
  entry : ∀ id, l[id]? =
    if id ∈ ids then some ⟨decide (id ∈ ws), decide (id ∈ rs)⟩ else none
  writers : ws.Nodup
  readers : rs.Nodup
  writers_subset : ws ⊆ ids
  readers_subset : rs ⊆ ids

namespace Offers

theorem perm (h : l.Offers ids ws rs) {ws' rs' : List NodeId} (hw : ws.Perm ws')
    (hr : rs.Perm rs') : l.Offers ids ws' rs' where
  entry id := by
    rw [h.entry id]
    simp only [hw.mem_iff, hr.mem_iff]
  writers := hw.nodup_iff.mp h.writers
  readers := hr.nodup_iff.mp h.readers
  writers_subset := fun _ hid => h.writers_subset (hw.symm.subset hid)
  readers_subset := fun _ hid => h.readers_subset (hr.symm.subset hid)

theorem takeWriter (h : l.Offers ids (c :: ws) rs) :
    ∃ l', l.takeWriter c = .ok l' ∧ l'.Offers ids ws rs := by
  obtain ⟨hc, hws⟩ := List.nodup_cons.mp h.writers
  obtain ⟨hin, hsub⟩ := List.cons_subset.mp h.writers_subset
  refine ⟨l.insert c ⟨false, decide (c ∈ rs)⟩, ?_, ?_, hws, h.readers, hsub, h.readers_subset⟩
  · simp [Ledger.takeWriter, h.entry c, hin]
  · intro id
    rw [Std.ExtTreeMap.getElem?_insert, h.entry id]
    simp only [Std.compare_eq_iff_eq]
    by_cases hid : c = id
    · subst hid
      simp [hin, hc]
    · simp [hid, Ne.symm hid]

theorem takeReader (h : l.Offers ids ws (c :: rs)) :
    ∃ l', l.takeReader c = .ok l' ∧ l'.Offers ids ws rs := by
  obtain ⟨hc, hrs⟩ := List.nodup_cons.mp h.readers
  obtain ⟨hin, hsub⟩ := List.cons_subset.mp h.readers_subset
  refine ⟨l.insert c ⟨decide (c ∈ ws), false⟩, ?_, ?_, h.writers, hrs, h.writers_subset, hsub⟩
  · simp [Ledger.takeReader, h.entry c, hin]
  · intro id
    rw [Std.ExtTreeMap.getElem?_insert, h.entry id]
    simp only [Std.compare_eq_iff_eq]
    by_cases hid : c = id
    · subst hid
      simp [hin, hc]
    · simp [hid, Ne.symm hid]

theorem takeBoth (h : l.Offers ids (c :: ws) (c :: rs)) :
    ∃ l', l.takeBoth c = .ok l' ∧ l'.Offers ids ws rs := by
  obtain ⟨l₁, hl₁, h₁⟩ := h.takeWriter
  obtain ⟨l₂, hl₂, h₂⟩ := h₁.takeReader
  exact ⟨l₂, bind_eq_ok_iff.mpr ⟨l₁, hl₁, hl₂⟩, h₂⟩

theorem takeWriters {cs : List NodeId} (h : l.Offers ids (cs ++ ws) rs) :
    ∃ l', cs.foldlM Ledger.takeWriter l = .ok l' ∧ l'.Offers ids ws rs :=
  exists_foldlM (P := fun ws (l : Ledger) => l.Offers ids ws rs) takeWriter h

theorem takeReaders {cs : List NodeId} (h : l.Offers ids ws (cs ++ rs)) :
    ∃ l', cs.foldlM Ledger.takeReader l = .ok l' ∧ l'.Offers ids ws rs :=
  exists_foldlM (P := fun rs (l : Ledger) => l.Offers ids ws rs) takeReader h

theorem takePairs {cs : List NodeId} (h : l.Offers ids (cs ++ ws) (cs ++ rs)) :
    ∃ l', cs.foldlM Ledger.takeBoth l = .ok l' ∧ l'.Offers ids ws rs := by
  rw [← List.append_nil cs] at h
  obtain ⟨l', hl', h'⟩ := exists_foldlM
    (P := fun cs (l : Ledger) => l.Offers ids (cs ++ ws) (cs ++ rs)) takeBoth h
  exact ⟨l', hl', h'⟩

end Offers

end Ledger

section Owners

variable {σ ε : Type} {t : SampleType}

/-- Channels that a bundle writes. -/
def Bundle.writes : Bundle t → List NodeId
  | .input b => b.writes
  | .output _ => []

/-- Channels that a bundle reads. -/
def Bundle.reads : Bundle t → List NodeId
  | .input _ => []
  | .output b => b.reads

/-- Channels that a bridge writes, once for each owner of an end. -/
def IoBridge.writers (b : IoBridge σ ε t) : List NodeId :=
  (b.bundles.flatMap fun x => x.2.writes) ++ b.unit.toList.flatMap WorkUnit.writes

/-- Channels that a bridge reads, once for each owner of an end. -/
def IoBridge.readers (b : IoBridge σ ε t) : List NodeId :=
  (b.bundles.flatMap fun x => x.2.reads) ++ b.unit.toList.flatMap WorkUnit.reads

/-- Channels that are written, once for each owner of an end. -/
def Program.writers (p : Program σ ε t) : List NodeId :=
  p.units.flatMap WorkUnit.writes ++ p.bridge.toList.flatMap IoBridge.writers

/-- Channels that are read, once for each owner of an end. -/
def Program.readers (p : Program σ ε t) : List NodeId :=
  p.units.flatMap WorkUnit.reads ++ p.bridge.toList.flatMap IoBridge.readers

/-- The channels of a bundle if it goes in a given direction. -/
def BundlePlan.ends (b : BundlePlan) (direction : IoDirection) : List NodeId :=
  if b.direction = direction then b.members.flatMap BundleMember.channels else []

/-- Every member of a bundle that writes reads one channel. -/
def BundlePlan.Single (b : BundlePlan) : Prop :=
  b.direction = .output → ∀ m ∈ b.members, ∃ c, m.channels = [c]

theorem ProgramPlan.bundled_eq (p : ProgramPlan) (direction : IoDirection) :
    p.bundled direction = p.bundles.flatMap fun b => b.ends direction := by
  unfold ProgramPlan.bundled
  induction p.bundles with
  | nil => rfl
  | cons b rest ih =>
      rw [List.flatMap_cons, ← ih]
      by_cases hb : b.direction = direction <;> simp [hb, BundlePlan.ends]

/-- A plan with one writing and one reading end for each of its channels, in which no partition and
no bundle comes twice. -/
structure ProgramPlan.Wirable (p : ProgramPlan) : Prop where
  distinct : (p.channels.map ChannelDescriptor.node).Nodup
  size : ∀ c ∈ p.channels, 0 < c.blockSize ∧ c.blockSize ≤ c.capacity
  writers : p.writers.Perm (p.channels.map ChannelDescriptor.node)
  readers : p.readers.Perm (p.channels.map ChannelDescriptor.node)
  labels : (p.units.map UnitPlan.partition).Nodup
  names : (p.bundles.map BundlePlan.name).Nodup
  single : ∀ b ∈ p.bundles, b.Single

end Owners

section Stocks

variable {σ ε : Type} {t : SampleType} {s : Stock σ ε t} {ids ws rs : List NodeId}
  {labels : List PartitionId} {names : List String}

/-- There is enough at hand for units with the given labels and bundles with the given names. -/
structure Stock.Supplies (s : Stock σ ε t) (ids ws rs : List NodeId) (labels : List PartitionId)
    (names : List String) : Prop where
  ledger : s.ledger.Offers ids ws rs
  distinctLabels : labels.Nodup
  distinctNames : names.Nodup
  kernel : ∀ p ∈ labels, ∃ k, s.kernels.lookup p = some k
  transport : ∀ b ∈ names, ∃ e, s.transports.lookup b = some e

namespace Stock.Supplies

theorem buildUnit {u : UnitPlan} (ch : ChannelTable (Sample t))
    (h : s.Supplies ids (u.outputs ++ u.locals ++ ws) (u.inputs ++ u.locals ++ rs)
      (u.partition :: labels) names) :
    ∃ w s', Dataflow.buildUnit ch u s = .ok (w, s') ∧ w.writes = u.outputs ++ u.locals ∧
      w.reads = u.inputs ++ u.locals ∧ s'.Supplies ids ws rs labels names := by
  obtain ⟨hp, hlabels⟩ := List.nodup_cons.mp h.distinctLabels
  obtain ⟨k, hk⟩ := h.kernel u.partition List.mem_cons_self
  have hledger := h.ledger
  rw [List.append_assoc, List.append_assoc] at hledger
  obtain ⟨l₁, hl₁, h₁⟩ := hledger.takeReaders
  obtain ⟨l₂, hl₂, h₂⟩ := h₁.takeWriters
  obtain ⟨l₃, hl₃, h₃⟩ := h₂.takePairs
  let left : Stock σ ε t :=
    { s with kernels := s.kernels.filter fun e => e.1 ≠ u.partition, ledger := l₃ }
  refine ⟨WorkUnit.create ch u.partition u.inputs u.outputs u.locals k.kernel k.state,
    left, ?_, rfl, rfl, h₃, hlabels, h.distinctNames, ?_, h.transport⟩
  · refine bind_eq_ok_iff.mpr ⟨(k, { left with ledger := s.ledger }), ?_, ?_⟩
    · simp [Stock.takeKernel, hk, left]
    · exact bind_eq_ok_iff.mpr ⟨l₁, hl₁, bind_eq_ok_iff.mpr ⟨l₂, hl₂,
        bind_eq_ok_iff.mpr ⟨l₃, hl₃, rfl⟩⟩⟩
  · intro q hq
    have hne : q ≠ u.partition := fun heq => hp (heq ▸ hq)
    obtain ⟨k', hk'⟩ := h.kernel q (List.mem_cons_of_mem _ hq)
    exact ⟨k', (lookup_filter_ne hne s.kernels).trans hk'⟩

theorem buildUnits (ch : ChannelTable (Sample t)) {us : List UnitPlan}
    (h : s.Supplies ids (us.flatMap (fun u => u.outputs ++ u.locals) ++ ws)
      (us.flatMap (fun u => u.inputs ++ u.locals) ++ rs)
      (us.map UnitPlan.partition ++ labels) names) :
    ∃ built s', Dataflow.buildUnits ch us s = .ok (built, s') ∧
      built.flatMap WorkUnit.writes = us.flatMap (fun u => u.outputs ++ u.locals) ∧
      built.flatMap WorkUnit.reads = us.flatMap (fun u => u.inputs ++ u.locals) ∧
      s'.Supplies ids ws rs labels names := by
  induction us generalizing s with
  | nil => exact ⟨[], s, rfl, rfl, rfl, h⟩
  | cons u us ih =>
      rw [List.flatMap_cons, List.flatMap_cons, List.append_assoc (u.outputs ++ u.locals),
        List.append_assoc (u.inputs ++ u.locals)] at h
      obtain ⟨w, s₁, hw, hwrites, hreads, h₁⟩ := h.buildUnit ch
      obtain ⟨built, s₂, hbuilt, hallWrites, hallReads, h₂⟩ := ih h₁
      refine ⟨w :: built, s₂, ?_, ?_, ?_, h₂⟩
      · exact bind_eq_ok_iff.mpr ⟨(w, s₁), hw, bind_eq_ok_iff.mpr ⟨(built, s₂), hbuilt, rfl⟩⟩
      · rw [List.flatMap_cons, List.flatMap_cons, hwrites, hallWrites]
      · rw [List.flatMap_cons, List.flatMap_cons, hreads, hallReads]

end Stock.Supplies

/-- The members of a bundle that reads take the ends at which it writes. -/
theorem exists_addInputs {ms : List BundleMember} {b : InputBundle t} {l : Ledger}
    (h : l.Offers ids (ms.flatMap BundleMember.channels ++ ws) rs) :
    ∃ b' l', addInputs b ms l = .ok (b', l') ∧
      b'.writes = b.writes ++ ms.flatMap BundleMember.channels ∧ l'.Offers ids ws rs := by
  induction ms generalizing b l with
  | nil => exact ⟨b, l, rfl, by simp, h⟩
  | cons m ms ih =>
      rw [List.flatMap_cons, List.append_assoc] at h
      obtain ⟨l₁, hl₁, h₁⟩ := h.takeWriters
      obtain ⟨b', l₂, hl₂, hwrites, h₂⟩ := ih (b := b.addMember m.blockSize.toNat m.channels) h₁
      refine ⟨b', l₂, bind_eq_ok_iff.mpr ⟨l₁, hl₁, hl₂⟩, ?_, h₂⟩
      rw [hwrites, List.flatMap_cons, ← List.append_assoc]
      simp [InputBundle.writes, InputBundle.addMember]

/-- The members of a bundle that writes take the ends at which it reads. -/
theorem exists_addOutputs (ch : ChannelTable (Sample t)) {ms : List BundleMember}
    (hms : ∀ m ∈ ms, ∃ c, m.channels = [c]) {b : OutputBundle t} {l : Ledger}
    (h : l.Offers ids ws (ms.flatMap BundleMember.channels ++ rs)) :
    ∃ b' l', addOutputs ch b ms l = .ok (b', l') ∧
      b'.reads = b.reads ++ ms.flatMap BundleMember.channels ∧ l'.Offers ids ws rs := by
  induction ms generalizing b l with
  | nil => exact ⟨b, l, rfl, by simp, h⟩
  | cons m ms ih =>
      obtain ⟨c, hc⟩ := hms m List.mem_cons_self
      rw [List.flatMap_cons, hc, List.append_assoc] at h
      obtain ⟨l₁, hl₁, h₁⟩ := h.takeReader
      obtain ⟨b', l₂, hl₂, hreads, h₂⟩ := ih (fun x hx => hms x (List.mem_cons_of_mem _ hx))
        (b := b.addMember (ch.blockOf c) c) h₁
      refine ⟨b', l₂, ?_, ?_, h₂⟩
      · rw [addOutputs, hc]
        exact bind_eq_ok_iff.mpr ⟨l₁, hl₁, hl₂⟩
      · rw [hreads, List.flatMap_cons, hc, ← List.append_assoc]
        simp [OutputBundle.reads, OutputBundle.addMember]

namespace Stock.Supplies

theorem buildBundle {b : BundlePlan} (hb : b.Single) (ch : ChannelTable (Sample t))
    (h : s.Supplies ids (b.ends .input ++ ws) (b.ends .output ++ rs) labels (b.name :: names)) :
    ∃ built s', Dataflow.buildBundle ch b s = .ok (built, s') ∧ built.2.writes = b.ends .input ∧
      built.2.reads = b.ends .output ∧ s'.Supplies ids ws rs labels names := by
  obtain ⟨hname, hnames⟩ := List.nodup_cons.mp h.distinctNames
  obtain ⟨e, he⟩ := h.transport b.name List.mem_cons_self
  let left : Stock σ ε t := { s with transports := s.transports.filter fun e => e.1 ≠ b.name }
  have htake : s.takeTransport b.name = .ok (e, left) := by
    simp [Stock.takeTransport, he, left]
  have hleft : ∀ {l : Ledger}, l.Offers ids ws rs →
      ({ left with ledger := l } : Stock σ ε t).Supplies ids ws rs labels names := by
    intro l hl
    refine ⟨hl, h.distinctLabels, hnames, h.kernel, fun n hn => ?_⟩
    have hne : n ≠ b.name := fun heq => hname (heq ▸ hn)
    obtain ⟨e', he'⟩ := h.transport n (List.mem_cons_of_mem _ hn)
    exact ⟨e', (lookup_filter_ne hne s.transports).trans he'⟩
  have hledger := h.ledger
  cases hdir : b.direction with
  | input =>
      simp only [BundlePlan.ends, hdir, reduceCtorEq, if_true, if_false, List.nil_append]
        at hledger ⊢
      obtain ⟨b', l, hl, hwrites, hoffers⟩ := exists_addInputs (b := { name := b.name }) hledger
      refine ⟨(e, .input b'), _, ?_, hwrites, rfl, hleft hoffers⟩
      rw [Dataflow.buildBundle, hdir]
      exact bind_eq_ok_iff.mpr ⟨(e, left), htake, bind_eq_ok_iff.mpr ⟨(b', l), hl, rfl⟩⟩
  | output =>
      simp only [BundlePlan.ends, hdir, reduceCtorEq, if_true, if_false, List.nil_append]
        at hledger ⊢
      obtain ⟨b', l, hl, hreads, hoffers⟩ :=
        exists_addOutputs ch (hb hdir) (b := { name := b.name }) hledger
      refine ⟨(e, .output b'), _, ?_, rfl, hreads, hleft hoffers⟩
      rw [Dataflow.buildBundle, hdir]
      exact bind_eq_ok_iff.mpr ⟨(e, left), htake, bind_eq_ok_iff.mpr ⟨(b', l), hl, rfl⟩⟩

theorem buildBundles (ch : ChannelTable (Sample t)) {bs : List BundlePlan}
    (hbs : ∀ b ∈ bs, b.Single)
    (h : s.Supplies ids (bs.flatMap (fun b => b.ends .input) ++ ws)
      (bs.flatMap (fun b => b.ends .output) ++ rs) labels (bs.map BundlePlan.name ++ names)) :
    ∃ built s', Dataflow.buildBundles ch bs s = .ok (built, s') ∧
      (built.flatMap fun x => x.2.writes) = bs.flatMap (fun b => b.ends .input) ∧
      (built.flatMap fun x => x.2.reads) = bs.flatMap (fun b => b.ends .output) ∧
      s'.Supplies ids ws rs labels names := by
  induction bs generalizing s with
  | nil => exact ⟨[], s, rfl, rfl, rfl, h⟩
  | cons b bs ih =>
      rw [List.flatMap_cons, List.flatMap_cons, List.append_assoc, List.append_assoc] at h
      obtain ⟨x, s₁, hx, hwrites, hreads, h₁⟩ := h.buildBundle (hbs b List.mem_cons_self) ch
      obtain ⟨built, s₂, hbuilt, hallWrites, hallReads, h₂⟩ :=
        ih (fun y hy => hbs y (List.mem_cons_of_mem _ hy)) h₁
      refine ⟨x :: built, s₂, ?_, ?_, ?_, h₂⟩
      · exact bind_eq_ok_iff.mpr ⟨(x, s₁), hx, bind_eq_ok_iff.mpr ⟨(built, s₂), hbuilt, rfl⟩⟩
      · rw [List.flatMap_cons, List.flatMap_cons, hwrites, hallWrites]
      · rw [List.flatMap_cons, List.flatMap_cons, hreads, hallReads]

theorem buildBridge (ch : ChannelTable (Sample t)) {io : IoPlan} (hio : ∀ b ∈ io.bundles, b.Single)
    (h : s.Supplies ids
      (io.bundles.flatMap (fun b => b.ends .input) ++
        (io.unit.toList.flatMap (fun u => u.outputs ++ u.locals) ++ ws))
      (io.bundles.flatMap (fun b => b.ends .output) ++
        (io.unit.toList.flatMap (fun u => u.inputs ++ u.locals) ++ rs))
      (io.unit.toList.map UnitPlan.partition ++ labels) (io.bundles.map BundlePlan.name ++ names)) :
    ∃ br s', Dataflow.buildBridge ch io s = .ok (br, s') ∧
      br.writers = io.bundles.flatMap (fun b => b.ends .input) ++
        io.unit.toList.flatMap (fun u => u.outputs ++ u.locals) ∧
      br.readers = io.bundles.flatMap (fun b => b.ends .output) ++
        io.unit.toList.flatMap (fun u => u.inputs ++ u.locals) ∧
      s'.Supplies ids ws rs labels names := by
  obtain ⟨bundles, s₁, hs₁, hwrites, hreads, h₁⟩ := h.buildBundles ch hio
  cases hunit : io.unit with
  | none =>
      rw [hunit] at h₁
      refine ⟨{ bundles }, s₁, ?_, ?_, ?_, h₁⟩
      · rw [Dataflow.buildBridge, hunit]
        exact bind_eq_ok_iff.mpr ⟨(bundles, s₁), hs₁, rfl⟩
      · simp [IoBridge.writers, hwrites]
      · simp [IoBridge.readers, hreads]
  | some u =>
      simp only [hunit, Option.toList_some, List.flatMap_singleton, List.map_cons, List.map_nil,
        List.cons_append, List.nil_append] at h₁
      obtain ⟨w, s₂, hs₂, hunitWrites, hunitReads, h₂⟩ := h₁.buildUnit ch
      refine ⟨{ bundles, unit := some w }, s₂, ?_, ?_, ?_, h₂⟩
      · rw [Dataflow.buildBridge, hunit]
        exact bind_eq_ok_iff.mpr ⟨(bundles, s₁), hs₁, bind_eq_ok_iff.mpr ⟨(w, s₂), hs₂, rfl⟩⟩
      · simp [IoBridge.writers, hwrites, hunitWrites]
      · simp [IoBridge.readers, hreads, hunitReads]

end Stock.Supplies

end Stocks

section Programs

variable {σ ε : Type} {t : SampleType}

/-- Channels that hold a block can be made, and then all their ends are free. -/
theorem exists_makeChannels {cs : List ChannelDescriptor}
    (hsize : ∀ c ∈ cs, 0 < c.blockSize ∧ c.blockSize ≤ c.capacity)
    (hnodup : (cs.map ChannelDescriptor.node).Nodup) :
    ∃ (table : ChannelTable (Sample t)) (l : Ledger), makeChannels cs = .ok (table, l) ∧
      (∀ id, id ∈ table ↔ id ∈ cs.map ChannelDescriptor.node) ∧
      l.Offers (cs.map ChannelDescriptor.node) (cs.map ChannelDescriptor.node)
        (cs.map ChannelDescriptor.node) := by
  induction cs with
  | nil =>
      exact ⟨∅, ∅, rfl, by simp, fun id => by simp, hnodup, hnodup, fun _ h => h, fun _ h => h⟩
  | cons c cs ih =>
      obtain ⟨hnew, hrest⟩ := List.nodup_cons.mp hnodup
      obtain ⟨table, l, hmade, htable, hoffers⟩ :=
        ih (fun x hx => hsize x (List.mem_cons_of_mem _ hx)) hrest
      obtain ⟨hpos, hle⟩ := hsize c List.mem_cons_self
      let made : Channel (Sample t) :=
        { name := c.name, capacity := c.capacity.toNat, block := c.blockSize.toNat }
      have hcreate : Channel.create c.name c.capacity.toNat c.blockSize.toNat = .ok made := by
        rw [UInt32.lt_iff_toNat_lt] at hpos
        rw [UInt32.le_iff_toNat_le] at hle
        rw [Channel.create, if_neg]
        rintro (hzero | hshort)
        · rw [hzero] at hpos
          exact Nat.lt_irrefl _ hpos
        · omega
      refine ⟨table.insertIfNew c.node made, l.insertIfNew c.node {}, ?_, fun id => ?_,
        fun id => ?_, hnodup, hnodup, fun _ h => h, fun _ h => h⟩
      · rw [makeChannels, hcreate]
        exact bind_eq_ok_iff.mpr ⟨_, rfl, bind_eq_ok_iff.mpr ⟨(table, l), hmade, rfl⟩⟩
      · rw [Std.ExtTreeMap.mem_insertIfNew, Std.compare_eq_iff_eq, htable id, List.map_cons,
          List.mem_cons, @eq_comm _ c.node]
      · have habsent : c.node ∉ l := by
          rw [Std.ExtTreeMap.mem_iff_isSome_getElem?, hoffers.entry, if_neg hnew]
          decide
        rw [Std.ExtTreeMap.getElem?_insertIfNew, hoffers.entry id]
        by_cases hid : c.node = id
        · subst hid
          simp [habsent]
        · have hne : id ≠ c.node := fun heq => hid heq.symm
          simp [hid, hne]

/-- A plan with one writing and one reading end for each of its channels becomes a program, given a
kernel for each unit and a transport for each bundle.  Every end of a channel has one owner then,
and none is left in the ledger. -/
theorem exists_assemble {p : ProgramPlan} (hp : p.Wirable) (htypes : p.checkTypes t = .ok ())
    {kernels : List (PartitionId × KernelSetup σ t)}
    (hkernels : ∀ u ∈ p.units, ∃ k, kernels.lookup u.partition = some k)
    {transports : List (String × ε)}
    (htransports : ∀ b ∈ p.bundles, ∃ e, transports.lookup b.name = some e) :
    ∃ prog, p.assemble kernels transports = .ok prog ∧
      (∀ id, id ∈ prog.channels ↔ id ∈ p.channels.map ChannelDescriptor.node) ∧
      prog.writers.Perm (p.channels.map ChannelDescriptor.node) ∧
      prog.readers.Perm (p.channels.map ChannelDescriptor.node) ∧
      prog.ledger.Offers (p.channels.map ChannelDescriptor.node) [] [] := by
  obtain ⟨table, ledger, hmade, htable, hoffers⟩ :=
    exists_makeChannels (t := t) hp.size hp.distinct
  have hwriters := hp.writers
  have hreaders := hp.readers
  have hlabels := hp.labels
  have hnames := hp.names
  have hsingle := hp.single
  simp only [ProgramPlan.writers, ProgramPlan.readers, ProgramPlan.bundled_eq] at hwriters hreaders
  cases hio : p.io with
  | none =>
      have hunits : p.units = p.partitions := by simp [ProgramPlan.units, hio]
      have hbundles : p.bundles = [] := by simp [ProgramPlan.bundles, hio]
      simp only [hunits, hbundles, List.flatMap_nil, List.append_nil]
        at hwriters hreaders hlabels hkernels
      have hstock : ({ ledger, kernels, transports } : Stock σ ε t).Supplies
          (p.channels.map ChannelDescriptor.node)
          (p.partitions.flatMap (fun u => u.outputs ++ u.locals) ++ [])
          (p.partitions.flatMap (fun u => u.inputs ++ u.locals) ++ [])
          (p.partitions.map UnitPlan.partition ++ []) [] := by
        simp only [List.append_nil]
        exact ⟨hoffers.perm hwriters.symm hreaders.symm, hlabels, List.nodup_nil,
          by simpa using hkernels, by simp⟩
      obtain ⟨units, s, hs, hwrites, hreads, hleft⟩ := hstock.buildUnits table
      refine ⟨{ channels := table, units, bridge := none, ledger := s.ledger }, ?_, htable, ?_, ?_,
        hleft.ledger⟩
      · rw [ProgramPlan.assemble, hio]
        exact bind_eq_ok_iff.mpr ⟨(), htypes, bind_eq_ok_iff.mpr ⟨(table, ledger), hmade,
          bind_eq_ok_iff.mpr ⟨(units, s), hs, rfl⟩⟩⟩
      · simpa [Program.writers, hwrites] using hwriters
      · simpa [Program.readers, hreads] using hreaders
  | some io =>
      have hunits : p.units = p.partitions ++ io.unit.toList := by simp [ProgramPlan.units, hio]
      have hbundles : p.bundles = io.bundles := by simp [ProgramPlan.bundles, hio]
      rw [hunits, hbundles, List.flatMap_append, List.append_assoc] at hwriters hreaders
      rw [hunits, List.map_append] at hlabels
      rw [hbundles] at hnames hsingle htransports
      have hstock : ({ ledger, kernels, transports } : Stock σ ε t).Supplies
          (p.channels.map ChannelDescriptor.node)
          (p.partitions.flatMap (fun u => u.outputs ++ u.locals) ++
            (io.bundles.flatMap (fun b => b.ends .input) ++
              (io.unit.toList.flatMap (fun u => u.outputs ++ u.locals) ++ [])))
          (p.partitions.flatMap (fun u => u.inputs ++ u.locals) ++
            (io.bundles.flatMap (fun b => b.ends .output) ++
              (io.unit.toList.flatMap (fun u => u.inputs ++ u.locals) ++ [])))
          (p.partitions.map UnitPlan.partition ++ (io.unit.toList.map UnitPlan.partition ++ []))
          (io.bundles.map BundlePlan.name ++ []) := by
        simp only [List.append_nil]
        refine ⟨hoffers.perm ?_ ?_, hlabels, hnames, ?_, ?_⟩
        · exact hwriters.symm.trans (List.perm_append_comm.append_left _)
        · exact hreaders.symm.trans (List.perm_append_comm.append_left _)
        · rw [← List.map_append, ← hunits]
          simpa using hkernels
        · simpa using htransports
      obtain ⟨units, s, hs, hwrites, hreads, hmid⟩ := hstock.buildUnits table
      obtain ⟨bridge, s', hs', hbridgeWrites, hbridgeReads, hleft⟩ := hmid.buildBridge table hsingle
      refine ⟨{ channels := table, units, bridge := some bridge, ledger := s'.ledger }, ?_, htable,
        ?_, ?_, hleft.ledger⟩
      · rw [ProgramPlan.assemble, hio]
        exact bind_eq_ok_iff.mpr ⟨(), htypes, bind_eq_ok_iff.mpr ⟨(table, ledger), hmade,
          bind_eq_ok_iff.mpr ⟨(units, s), hs, bind_eq_ok_iff.mpr ⟨(bridge, s'), hs', rfl⟩⟩⟩⟩
      · refine .trans ?_ hwriters
        simpa [Program.writers, hwrites, hbridgeWrites] using
          List.perm_append_comm.append_left _
      · refine .trans ?_ hreaders
        simpa [Program.readers, hreads, hbridgeReads] using
          List.perm_append_comm.append_left _

end Programs
end Dataflow
