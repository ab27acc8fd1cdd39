import Dataflow.Proofs.Assembly.Wiring
import Dataflow.Proofs.Bundle.Codec
import Dataflow.Proofs.Channel.Sides
import Dataflow.Proofs.Plan.Members

/-!
# Frames of plans and of programs

A plan says where the block of every member of a bundle lies in a frame, in bytes of the type of its
elements.  The assembly of a program lays the members out again, in samples of its own type and in
blocks as large as those of its channels.  Where the types agree the two layouts are the same.

**Plans.**  The members of a bundle come by position, and their blocks lie one behind the other
(`Planned.increasing`, `Planned.tiles`).

**Programs.**  The members of an assembled bundle lie one behind the other too (`addInputs_spec`,
`addOutputs_spec`).  Blocks of the same lengths that do so are the same parts of a frame
(`Tiles.unique`).

**Results.**
* `assemble_matches`: the bundles of an assembled program match those of its plan.
* `bundles_laid_as_planned`: plans of compilations, and the programs that are assembled from them.
-/

namespace Dataflow

section Defs

variable {σ ε : Type} {t : SampleType}

/-- The part of a frame that a plan gives to a member: where it begins and how long it is. -/
def BundleMember.range (m : BundleMember) : Except Trap (Nat × Nat) :=
  m.blockBytes.map (m.byteOffset, ·)

/-- The parts of a frame that a plan gives to the members of a bundle. -/
def BundlePlan.ranges (b : BundlePlan) : Except Trap (List (Nat × Nat)) :=
  b.members.mapM BundleMember.range

namespace Bundle

/-- Which way a bundle goes. -/
def direction : Bundle t → IoDirection
  | .input _ => .input
  | .output _ => .output

/-- The channels of the members of a bundle. -/
def channels : Bundle t → List (List NodeId)
  | .input b => b.members.map InputMember.outputs
  | .output b => b.members.map fun m => [m.input]

/-- The parts of a frame that belong to the members of a bundle. -/
def parts : Bundle t → List (Nat × Nat)
  | .input b => b.members.map InputMember.part
  | .output b => b.members.map OutputMember.part

/-- Bytes of a frame. -/
def frameBytes : Bundle t → Nat
  | .input b => b.frameBytes
  | .output b => b.frameBytes

end Bundle

/-- The bundles of a program. -/
def Program.bundles (p : Program σ ε t) : List (Bundle t) :=
  p.bridge.toList.flatMap fun b => b.bundles.map Prod.snd

/-- A bundle is the one of the plan: it has the same members, at the same places in frames of
the same length. -/
structure BundlePlan.Matches (plan : BundlePlan) (b : Bundle t) : Prop where
  name : b.name = plan.name
  direction : b.direction = plan.direction
  channels : b.channels = plan.members.map BundleMember.channels
  parts : plan.ranges = .ok b.parts
  frameBytes : b.frameBytes = plan.frameBytes

end Defs

section Parts

/-- Parts that lie one behind the other are known by their lengths. -/
theorem Tiles.unique {start stop stop' : Nat} {parts parts' : List (Nat × Nat)}
    (h : Tiles start parts stop) (h' : Tiles start parts' stop')
    (hlengths : parts.map Prod.snd = parts'.map Prod.snd) : parts = parts' ∧ stop = stop' := by
  induction parts generalizing start parts' with
  | nil =>
      cases List.map_eq_nil_iff.mp hlengths.symm
      exact ⟨rfl, h.symm.trans h'⟩
  | cons part rest ih =>
      obtain ⟨offset, length⟩ := part
      obtain ⟨⟨offset', length'⟩, rest', rfl, hlength, hrest⟩ :=
        List.map_eq_cons_iff.mp hlengths.symm
      obtain ⟨rfl, htiles⟩ := h
      obtain ⟨rfl, htiles'⟩ := h'
      cases hlength
      obtain ⟨rfl, hstop⟩ := ih htiles htiles' hrest.symm
      exact ⟨rfl, hstop⟩

/-- An element that is a sample takes the bytes of a sample. -/
theorem byteWidth_elem (t : SampleType) : t.elem.byteWidth = .ok t.width := by
  cases t <;> rfl

end Parts

section Plans

variable {g : Graph} {a : DomainAnalysis} {p : ProgramPlan} {channels : List ChannelDescriptor}
  {group : BundleGroup}

/-- Members are sorted by their positions. -/
theorem pairwise_sortMembers (members : List (UInt32 × NodeId)) :
    (members.mergeSort fun m n => m.1 < n.1 || (m.1 = n.1 && m.2.val ≤ n.2.val)).Pairwise
      fun m n => m.1 ≤ n.1 := by
  refine (List.pairwise_mergeSort ?_ ?_ members).imp ?_
  · intro m n o hmn hno
    simp only [Bool.or_eq_true, Bool.and_eq_true, decide_eq_true_eq, UInt32.lt_iff_toNat_lt,
      UInt32.le_iff_toNat_le, ← UInt32.toNat_inj] at *
    omega
  · intro m n
    simp only [Bool.or_eq_true, Bool.and_eq_true, decide_eq_true_eq, UInt32.lt_iff_toNat_lt,
      UInt32.le_iff_toNat_le, ← UInt32.toNat_inj]
    omega
  · intro m n hle
    simp only [Bool.or_eq_true, Bool.and_eq_true, decide_eq_true_eq, UInt32.lt_iff_toNat_lt,
      ← UInt32.toNat_inj] at hle
    rw [UInt32.le_iff_toNat_le]
    omega

/-- The members of a bundle come by position, no two at the same. -/
theorem bundleGroup?_increasing (hg : g.WellFormed) {name : String}
    (h : g.bundleGroup? name = some group) : group.members.Pairwise fun m n => m.1 < n.1 := by
  have hdistinct :
      ((g.ioNodes.filter fun n => n.2.bundle = name).map fun n => (n.2.member, n.1)).Pairwise
      fun m n => m.1 ≠ n.1 := by
    refine List.pairwise_map.mpr (((List.pairwise_map.mp (nodup_ioNodes g)).filter _).imp_of_mem ?_)
    rintro ⟨id, ep⟩ ⟨id', ep'⟩ hn hn' hne hmember
    rw [List.mem_filter, mem_ioNodes] at hn hn'
    obtain ⟨⟨n, hn, hk⟩, hname⟩ := hn
    obtain ⟨⟨n', hn', hk'⟩, hname'⟩ := hn'
    refine hne (hg.member_unique hn hn' hk hk' ?_ hmember)
    exact (of_decide_eq_true hname).trans (of_decide_eq_true hname').symm
  unfold Graph.bundleGroup? at h
  split at h
  · cases h
  · rename_i first rest hnodes
    cases h
    rw [hnodes] at hdistinct
    refine ((pairwise_sortMembers _).and
      (((List.mergeSort_perm _ _).pairwise_iff Ne.symm).mpr hdistinct)).imp ?_
    rintro m n ⟨hle, hne⟩
    exact UInt32.lt_of_le_of_ne hle hne

/-- Members that are laid out lie one behind the other, in the order in which they come. -/
theorem tiles_layMembers :
    ∀ {members : List (UInt32 × NodeId)} {offset : Nat}
      {r : List (Except Diagnostic BundleMember) × Nat},
      layMembers g channels group offset members = .ok r → faults r.1 = [] →
        (oks r.1).map BundleMember.member = members.map Prod.fst ∧
        ∃ ranges, (oks r.1).mapM BundleMember.range = .ok ranges ∧ Tiles offset ranges r.2
  | [], offset, r, h, _ => by
      cases h
      exact ⟨rfl, [], rfl, rfl⟩
  | (member, node) :: members, offset, r, h, hnone => by
      cases hm : layMember g channels group offset member node with
      | error e =>
          obtain ⟨_, rest, -, heq⟩ := layMembers_cons h
          rw [heq, hm] at hnone
          cases hnone
      | ok m =>
          obtain ⟨bytes, next, rest, hbytes, hnext, hrest, rfl⟩ := (layMembers_cons_ok hm).mp h
          obtain ⟨slot, -, rfl⟩ := layMember_eq_ok_iff.mp hm
          obtain ⟨hmembers, ranges, hranges, htiles⟩ := tiles_layMembers hrest hnone
          obtain ⟨hnext, -⟩ := addLong_eq_ok_iff.mp hnext
          refine ⟨congrArg (member :: ·) hmembers, (offset, bytes) :: ranges, ?_, rfl,
            hnext ▸ htiles⟩
          show List.mapM BundleMember.range (_ :: oks rest.1) = _
          rw [List.mapM_cons, bind_eq_ok_iff]
          refine ⟨(offset, bytes), map_eq_ok_iff.mpr ⟨bytes, hbytes, rfl⟩, ?_⟩
          exact bind_eq_ok_iff.mpr ⟨ranges, hranges, rfl⟩

theorem layBundle_layout {b : BundlePlan} {ds : List Diagnostic}
    (h : layBundle g channels group = .ok (some b, ds)) :
    b.members.map BundleMember.member = group.members.map Prod.fst ∧
      ∃ ranges, b.ranges = .ok ranges ∧ Tiles 0 ranges b.frameBytes := by
  unfold layBundle at h
  obtain ⟨⟨laid, frameBytes⟩, hlaid, h⟩ := bind_eq_ok_iff.mp h
  dsimp only at h
  split at h
  · rename_i hfaults
    cases h
    exact tiles_layMembers hlaid (List.isEmpty_iff.mp hfaults)
  · cases h

namespace Graph.Planned

theorem increasing (h : g.Planned a p) (hg : g.WellFormed) {b : BundlePlan} (hb : b ∈ p.bundles) :
    b.members.Pairwise fun m n => m.member < n.member := by
  obtain ⟨name, group, ds, hname, hlay⟩ := h.exists_layBundle hb
  have hsorted := List.pairwise_map.mpr (bundleGroup?_increasing hg hname)
  rw [← (layBundle_layout hlay).1] at hsorted
  exact List.pairwise_map.mp hsorted

theorem tiles (h : g.Planned a p) {b : BundlePlan} (hb : b ∈ p.bundles) :
    ∃ ranges, b.ranges = .ok ranges ∧ Tiles 0 ranges b.frameBytes := by
  obtain ⟨name, group, ds, -, hlay⟩ := h.exists_layBundle hb
  exact (layBundle_layout hlay).2

end Graph.Planned

end Plans

section Assemblies

variable {σ ε : Type} {t : SampleType} {cs : List ChannelDescriptor} {ch : ChannelTable (Sample t)}
  {ms rest : List BundleMember} {l l' : Ledger}

theorem makeChannels_cons {c : ChannelDescriptor} (h : makeChannels (c :: cs) = .ok (ch, l)) :
    ∃ made others rest, Channel.create c.name c.capacity.toNat c.blockSize.toNat = .ok made ∧
      makeChannels cs = .ok (others, rest) ∧ ch = others.insertIfNew c.node made := by
  unfold makeChannels at h
  dsimp only at h
  split at h
  · rename_i made hcreate
    obtain ⟨_, hmade, h⟩ := bind_eq_ok_iff.mp h
    cases hmade
    obtain ⟨⟨others, rest⟩, hothers, h⟩ := bind_eq_ok_iff.mp h
    cases h
    exact ⟨made, others, rest, hcreate, hothers, rfl⟩
  · cases h

/-- The blocks of a channel that was made have the size that the plan says. -/
theorem blockOf_makeChannels (h : makeChannels cs = .ok (ch, l))
    (hnodup : (cs.map ChannelDescriptor.node).Nodup) :
    (∀ id ∉ cs.map ChannelDescriptor.node, ch[id]? = none) ∧
      ∀ d ∈ cs, ch.blockOf d.node = d.blockSize.toNat := by
  induction cs generalizing ch l with
  | nil =>
      cases h
      exact ⟨fun _ _ => rfl, nofun⟩
  | cons c cs ih =>
      obtain ⟨hnew, hrest⟩ := List.nodup_cons.mp hnodup
      obtain ⟨made, others, rest, hcreate, hothers, rfl⟩ := makeChannels_cons h
      have hblock : made.block = c.blockSize.toNat := (Channel.kept_of_create hcreate).2.2.2.2.2
      obtain ⟨hnone, hblocks⟩ := ih hothers hrest
      have hget (id : NodeId) :
          (others.insertIfNew c.node made)[id]? =
            if c.node = id then some made else others[id]? := by
        have habsent : c.node ∉ others := by
          simp [Std.ExtTreeMap.mem_iff_isSome_getElem?, hnone _ hnew]
        rw [Std.ExtTreeMap.getElem?_insertIfNew]
        by_cases hid : c.node = id
        · subst hid
          simp [habsent]
        · simp [hid]
      refine ⟨fun id hid => ?_, fun d hd => ?_⟩
      · rw [List.map_cons, List.mem_cons, not_or] at hid
        rw [hget, if_neg fun heq => hid.1 heq.symm, hnone _ hid.2]
      · rcases List.mem_cons.mp hd with rfl | hd
        · rw [ChannelTable.blockOf_of_getElem? ((hget _).trans (if_pos rfl)), hblock]
        · have hne : c.node ≠ d.node := fun heq => hnew (heq ▸ List.mem_map_of_mem hd)
          rw [← hblocks d hd]
          unfold ChannelTable.blockOf
          rw [hget, if_neg hne]

namespace Bundle

/-- A bundle whose members are those of a plan, one behind the other, in blocks of samples. -/
structure Carries (b : Bundle t) (ms : List BundleMember) : Prop where
  channels : b.channels = ms.map BundleMember.channels
  lengths : b.parts.map Prod.snd = ms.map fun m => m.blockSize.toNat * t.width
  tiles : Tiles 0 b.parts b.frameBytes

theorem Carries.addInput {b : InputBundle t} (h : (input b).Carries ms) (m : BundleMember) :
    (input (b.addMember m.blockSize.toNat m.channels)).Carries (ms ++ [m]) where
  channels := by simpa [Bundle.channels, InputBundle.addMember] using h.channels
  lengths := by simpa [Bundle.parts, InputBundle.addMember, InputMember.part] using h.lengths
  tiles := by
    simpa [Bundle.parts, Bundle.frameBytes, InputBundle.frameBytes, InputBundle.addMember,
      InputMember.part]
      using h.tiles.append (m.blockSize.toNat * t.width)

theorem Carries.addOutput {b : OutputBundle t} (h : (output b).Carries ms) {m : BundleMember}
    {c : NodeId} (hc : m.channels = [c]) :
    (output (b.addMember m.blockSize.toNat c)).Carries (ms ++ [m]) where
  channels := by simpa [Bundle.channels, OutputBundle.addMember, hc] using h.channels
  lengths := by simpa [Bundle.parts, OutputBundle.addMember, OutputMember.part] using h.lengths
  tiles := by
    simpa [Bundle.parts, Bundle.frameBytes, OutputBundle.frameBytes, OutputBundle.addMember,
      OutputMember.part]
      using h.tiles.append (m.blockSize.toNat * t.width)

end Bundle

theorem addInputs_spec {b b' : InputBundle t} (h : addInputs b rest l = .ok (b', l'))
    (hb : (Bundle.input b).Carries ms) :
    b'.name = b.name ∧ (Bundle.input b').Carries (ms ++ rest) := by
  induction rest generalizing b l ms with
  | nil =>
      cases h
      exact ⟨rfl, by rwa [List.append_nil]⟩
  | cons m rest ih =>
      obtain ⟨_, -, h⟩ := bind_eq_ok_iff.mp h
      obtain ⟨hname, hcarries⟩ := ih h (hb.addInput m)
      rw [← List.append_cons] at hcarries
      exact ⟨hname, hcarries⟩

theorem addOutputs_spec {b b' : OutputBundle t} (h : addOutputs ch b rest l = .ok (b', l'))
    (hblock : ∀ m ∈ rest, ∀ c ∈ m.channels, ch.blockOf c = m.blockSize.toNat)
    (hb : (Bundle.output b).Carries ms) :
    b'.name = b.name ∧ (Bundle.output b').Carries (ms ++ rest) := by
  induction rest generalizing b l ms with
  | nil =>
      cases h
      exact ⟨rfl, by rwa [List.append_nil]⟩
  | cons m rest ih =>
      rw [List.forall_mem_cons] at hblock
      unfold addOutputs at h
      split at h
      · rename_i c hc
        obtain ⟨_, -, h⟩ := bind_eq_ok_iff.mp h
        rw [hblock.1 c (hc ▸ List.mem_singleton_self c)] at h
        obtain ⟨hname, hcarries⟩ := ih h hblock.2 (hb.addOutput hc)
        rw [← List.append_cons] at hcarries
        exact ⟨hname, hcarries⟩
      · cases h

/-- Blocks of elements of the type of the samples take the bytes of their samples. -/
theorem map_snd_ranges {ranges : List (Nat × Nat)} (h : ms.mapM BundleMember.range = .ok ranges)
    (helem : ∀ m ∈ ms, m.elem = t.elem) :
    ranges.map Prod.snd = ms.map fun m => m.blockSize.toNat * t.width := by
  induction ms generalizing ranges with
  | nil =>
      cases h
      rfl
  | cons m ms ih =>
      rw [List.forall_mem_cons] at helem
      rw [List.mapM_cons] at h
      obtain ⟨range, hrange, h⟩ := bind_eq_ok_iff.mp h
      obtain ⟨others, hothers, h⟩ := bind_eq_ok_iff.mp h
      cases h
      obtain ⟨bytes, hbytes, rfl⟩ := map_eq_ok_iff.mp hrange
      obtain ⟨width, hwidth, hbytes⟩ := bind_eq_ok_iff.mp hbytes
      rw [helem.1, byteWidth_elem] at hwidth
      cases hwidth
      obtain ⟨rfl, -⟩ := mulLong_eq_ok_iff.mp hbytes
      rw [List.map_cons, List.map_cons, ih hothers helem.2]

/-- What the layout of a bundle has to do with the type of the samples and the channels of a
program. -/
structure BundlePlan.Suits (plan : BundlePlan) (ch : ChannelTable (Sample t)) : Prop where
  tiles : ∃ ranges, plan.ranges = .ok ranges ∧ Tiles 0 ranges plan.frameBytes
  elem : ∀ m ∈ plan.members, m.elem = t.elem
  block : ∀ m ∈ plan.members, ∀ c ∈ m.channels, ch.blockOf c = m.blockSize.toNat

namespace BundlePlan.Suits

variable {plan : BundlePlan} {b : Bundle t}

theorem matches_of_carries (h : plan.Suits ch) (hname : b.name = plan.name)
    (hdirection : b.direction = plan.direction) (hb : b.Carries plan.members) : plan.Matches b := by
  obtain ⟨ranges, hranges, htiles⟩ := h.tiles
  have hlengths := (map_snd_ranges hranges h.elem).trans hb.lengths.symm
  obtain ⟨rfl, hbytes⟩ := htiles.unique hb.tiles hlengths
  exact ⟨hname, hdirection, hb.channels, hranges, hbytes.symm⟩

theorem buildBundle (h : plan.Suits ch) {s s' : Stock σ ε t} {r : ε × Bundle t}
    (hr : buildBundle ch plan s = .ok (r, s')) : plan.Matches r.2 := by
  unfold Dataflow.buildBundle at hr
  obtain ⟨⟨e, s₁⟩, -, hr⟩ := bind_eq_ok_iff.mp hr
  dsimp only at hr
  split at hr
  · rename_i hdirection
    obtain ⟨⟨b, l⟩, hb, hr⟩ := bind_eq_ok_iff.mp hr
    cases hr
    have hempty : (Bundle.input { name := plan.name } : Bundle t).Carries [] := ⟨rfl, rfl, rfl⟩
    obtain ⟨hname, hcarries⟩ := addInputs_spec hb hempty
    exact h.matches_of_carries hname hdirection.symm hcarries
  · rename_i hdirection
    obtain ⟨⟨b, l⟩, hb, hr⟩ := bind_eq_ok_iff.mp hr
    cases hr
    have hempty : (Bundle.output { name := plan.name } : Bundle t).Carries [] := ⟨rfl, rfl, rfl⟩
    obtain ⟨hname, hcarries⟩ := addOutputs_spec hb h.block hempty
    exact h.matches_of_carries hname hdirection.symm hcarries

end BundlePlan.Suits

theorem buildBundles_matches {plans : List BundlePlan} (hsuits : ∀ plan ∈ plans, plan.Suits ch)
    {s s' : Stock σ ε t} {bs : List (ε × Bundle t)} (h : buildBundles ch plans s = .ok (bs, s')) :
    List.Forall₂ BundlePlan.Matches plans (bs.map Prod.snd) := by
  induction plans generalizing s bs with
  | nil =>
      cases h
      exact .nil
  | cons plan plans ih =>
      rw [List.forall_mem_cons] at hsuits
      obtain ⟨⟨b, s₁⟩, hb, h⟩ := bind_eq_ok_iff.mp h
      obtain ⟨⟨rest, s₂⟩, hrest, h⟩ := bind_eq_ok_iff.mp h
      cases h
      exact .cons (hsuits.1.buildBundle hb) (ih hsuits.2 hrest)

/-- The bundles of a program that was assembled match those of its plan. -/
theorem assemble_matches {p : ProgramPlan}
    (hsuits : ∀ (ch : ChannelTable (Sample t)) l, makeChannels p.channels = .ok (ch, l) →
      ∀ plan ∈ p.bundles, plan.Suits ch)
    {kernels : List (PartitionId × KernelSetup σ t)} {transports : List (String × ε)}
    {prog : Program σ ε t} (h : p.assemble kernels transports = .ok prog) :
    List.Forall₂ BundlePlan.Matches p.bundles prog.bundles := by
  unfold ProgramPlan.assemble at h
  obtain ⟨-, -, h⟩ := bind_eq_ok_iff.mp h
  obtain ⟨⟨ch, l⟩, hmade, h⟩ := bind_eq_ok_iff.mp h
  obtain ⟨⟨units, s⟩, -, h⟩ := bind_eq_ok_iff.mp h
  have hsuits := hsuits ch l hmade
  dsimp only at h
  split at h
  · rename_i hio
    cases h
    simp [ProgramPlan.bundles, Program.bundles, hio]
  · rename_i io hio
    obtain ⟨⟨bridge, s₁⟩, hbridge, h⟩ := bind_eq_ok_iff.mp h
    cases h
    have hplans : p.bundles = io.bundles := by simp [ProgramPlan.bundles, hio]
    rw [hplans] at hsuits ⊢
    unfold buildBridge at hbridge
    obtain ⟨⟨bundles, s₂⟩, hbundles, hbridge⟩ := bind_eq_ok_iff.mp hbridge
    have hmatches := buildBundles_matches hsuits hbundles
    dsimp only at hbridge
    split at hbridge
    · cases hbridge
      simpa [Program.bundles] using hmatches
    · obtain ⟨_, -, hbridge⟩ := bind_eq_ok_iff.mp hbridge
      cases hbridge
      simpa [Program.bundles] using hmatches

end Assemblies

section Programs

namespace Graph

/-- The layout of a plan suits the channels that are made for it, given samples of the type of
its channels. -/
theorem Planned.suits {g : Graph} {a : DomainAnalysis} {p : ProgramPlan} {t : SampleType}
    (h : g.Planned a p) (htypes : p.checkTypes t = .ok ()) {ch : ChannelTable (Sample t)}
    {l : Ledger} (hmade : makeChannels p.channels = .ok (ch, l)) {b : BundlePlan}
    (hb : b ∈ p.bundles) : b.Suits ch where
  tiles := h.tiles hb
  elem m hm := by
    obtain ⟨⟨d, hd, helem⟩, -⟩ := h.member_spec hb hm
    exact checkTypes_eq_ok_iff.mp htypes d hd _ helem
  block m hm c hc := by
    obtain ⟨d, hd, rfl, hblock⟩ := (h.member_spec hb hm).2 c hc
    rw [(blockOf_makeChannels hmade h.distinct).2 d hd, hblock]

/-- A compilation without an error ends with a plan in which the members of every bundle come by
position and their blocks lie one behind the other, from the start of a frame to its end.  A program
that is assembled from the plan, for samples of the type of its channels, lays out every bundle in
the same way.  There is such a program as soon as there is a kernel for each unit and a transport
for each bundle. -/
theorem bundles_laid_as_planned (g : Graph) (p : ChannelPolicy) (c : Compilation)
    (hc : g.compile p .synthesize = .ok c) (hok : c.hasError = false) (σ ε : Type) :
    ∃ plan, c.plan = some plan ∧
      (∀ b ∈ plan.bundles, b.members.Pairwise (fun m n => m.member < n.member) ∧
        ∃ ranges, b.ranges = .ok ranges ∧ Tiles 0 ranges b.frameBytes) ∧
      ∀ t, plan.checkTypes t = .ok () →
        ∀ (kernels : List (PartitionId × KernelSetup σ t)) (transports : List (String × ε)),
          (∀ prog, plan.assemble kernels transports = .ok prog →
            List.Forall₂ BundlePlan.Matches plan.bundles prog.bundles) ∧
          ((∀ u ∈ plan.units, ∃ k, kernels.lookup u.partition = some k) →
            (∀ b ∈ plan.bundles, ∃ e, transports.lookup b.name = some e) →
            ∃ prog, plan.assemble kernels transports = .ok prog) := by
  obtain ⟨v, s, u, hv, hvalid, hs, hclean, -, hu, hcleanu, hcert, rfl⟩ :=
    Compilation.compile_clean_iff.mp ⟨hc, hok⟩
  have hwell := Insertion.wellFormed_of_valid hv hvalid hs hclean
  have hplan : s.graph.Planned v.analysis u.plan := planned_iff.mpr ⟨u, hu, hcleanu, rfl⟩
  refine ⟨u.plan, rfl, fun b hb => ⟨hplan.increasing hwell hb, hplan.tiles hb⟩, ?_⟩
  intro t htypes kernels transports
  refine ⟨fun prog hprog => ?_, fun hkernels htransports => ?_⟩
  · exact assemble_matches (fun ch l hmade b hb => hplan.suits htypes hmade hb) hprog
  · have hends : u.plan.endsPaired s.graph = true := by
      rw [hplan.endsPaired_iff hwell]
      exact (hplan.allPass_cert_iff hwell).mp hcert
    obtain ⟨prog, hprog, -⟩ :=
      exists_assemble (hplan.wirable hwell hends) htypes hkernels htransports
    exact ⟨prog, hprog⟩

/-- A bundle with a slow and a fast member.  Another one takes what comes out at the fast rate. -/
def paced : Graph :=
  let build : Except Trap Graph := do
    let (d, g) ← empty.addDomain none "d" (.upsample 2)
    let (x, g) ← g.addIo none "x" { bundle := "in", direction := .input, member := 0 }
    let (r, g) ← g.addRateInput d "r" ⟨.upsample, 2⟩ ⟨0⟩
    let (y, g) ← g.addIo (some d) "y" { bundle := "in", direction := .input, member := 1 }
    let (a, g) ← g.addPrimitive (some d) "a" 2 1 ⟨0⟩
    let (z, g) ← g.addIo (some d) "z" { bundle := "out", direction := .output, member := 2 }
    let (_, g) ← g.connect ⟨x, 0⟩ ⟨r, 0⟩
    let (_, g) ← g.connect ⟨r, 0⟩ ⟨a, 0⟩
    let (_, g) ← g.connect ⟨y, 0⟩ ⟨a, 1⟩
    let (_, g) ← g.connect ⟨a, 0⟩ ⟨z, 0⟩
    return [PortRef.mk x 0, ⟨y, 0⟩, ⟨a, 0⟩].foldl (fun g p => g.setOutputType p .f32) g
  build.toOption.getD empty

/-- The bundles that a graph has if their members are in order. -/
def bundlesInOrder (g : Graph) (a : DomainAnalysis) : Option (List BundlePlan) :=
  (((g.ioNodes.map fun n => n.2.bundle).eraseReps.filterMap g.unsortedGroup?).mapM
    (layBundle g (oks (g.describeChannels a)))).toOption.map fun laid => laid.filterMap Prod.fst

theorem Planned.bundlesInOrder {g : Graph} {a : DomainAnalysis} {p : ProgramPlan}
    (h : g.Planned a p) (horder : g.ioInOrder = true) : g.bundlesInOrder a = some p.bundles := by
  obtain ⟨-, laid, hlaid, -, rfl⟩ := h
  rw [bundleGroups_of_ioInOrder horder] at hlaid
  rw [Graph.bundlesInOrder, hlaid, planOf_bundles]
  rfl

theorem insertChannels_paced :
    ∃ s, paced.insertChannels paced.computeRates.analysis {} = .ok s ∧
      ((oks (s.graph.describeChannels paced.computeRates.analysis)).all
          (fun c => decide (c.elem = some SampleType.f32.elem))
        && s.graph.ioInOrder
        && (s.graph.bundlesInOrder paced.computeRates.analysis).any fun bundles =>
          decide (bundles.map (fun b => b.ranges.toOption) =
            [some [(0, 4), (4, 8)], some [(0, 8)]])) = true :=
  exists_of_toOption_any (by decide)

/-- Bundles that match a plan lie in frames where the plan puts them. -/
theorem map_parts_of_matches {t : SampleType} {plans : List BundlePlan} {bs : List (Bundle t)}
    (h : List.Forall₂ BundlePlan.Matches plans bs) :
    plans.map (fun plan => plan.ranges.toOption) = (bs.map Bundle.parts).map some := by
  induction h with
  | nil => rfl
  | cons hmatches _ ih =>
      rw [List.map_cons, List.map_cons, List.map_cons, ih, hmatches.parts]
      rfl

/-- The slow member comes first, and its block is half as long as that of the fast one. -/
theorem bundles_laid_as_planned_paced :
    ∃ c plan, ∃ prog : Program Unit Unit .f32, paced.compile {} .synthesize = .ok c ∧
      c.hasError = false ∧ c.plan = some plan ∧ plan.checkTypes .f32 = .ok () ∧
      plan.assemble (plan.units.map fun u => (u.partition, repeating))
        (plan.bundles.map fun b => (b.name, ())) = .ok prog ∧
      prog.bundles.map Bundle.parts = [[(0, 4), (4, 8)], [(0, 8)]] := by
  have hvalid : paced.isClean {} = true := by decide
  have hcompiles : paced.compilesSingly {} = true := by decide
  obtain ⟨-, c, hc, hok, -⟩ := exists_compile_of_compilesSingly hcompiles
  obtain ⟨plan, hplan, -, hall⟩ := bundles_laid_as_planned paced {} c hc hok Unit Unit
  obtain ⟨v, s, u, hv, -, hs, -, -, hu, hclean, -, rfl⟩ :=
    Compilation.compile_clean_iff.mp ⟨hc, hok⟩
  cases hplan
  cases hv.symm.trans (validate_of_isClean hvalid)
  obtain ⟨s', hs', htest⟩ := insertChannels_paced
  cases hs.symm.trans hs'
  rw [Bool.and_eq_true, Bool.and_eq_true, List.all_eq_true] at htest
  obtain ⟨⟨helems, horder⟩, hbundles⟩ := htest
  have hplanned : s.graph.Planned _ u.plan := planned_iff.mpr ⟨u, hu, hclean, rfl⟩
  have htypes : u.plan.checkTypes .f32 = .ok () := by
    rw [checkTypes_eq_ok_iff, hplanned.channels_eq]
    intro d hd e he
    exact Option.some.inj (he.symm.trans (of_decide_eq_true (helems d hd)))
  obtain ⟨hmatches, hexists⟩ :=
    hall .f32 htypes (u.plan.units.map fun u => (u.partition, repeating))
    (u.plan.bundles.map fun b => (b.name, ()))
  obtain ⟨prog, hprog⟩ := hexists (exists_lookup u.plan.units UnitPlan.partition repeating)
    (exists_lookup u.plan.bundles BundlePlan.name ())
  refine ⟨_, u.plan, prog, hc, hok, rfl, htypes, hprog, ?_⟩
  rw [hplanned.bundlesInOrder horder, Option.any_some, decide_eq_true_eq,
    map_parts_of_matches (hmatches prog hprog)] at hbundles
  exact List.map_injective_iff.mpr (Option.some_injective _) hbundles

end Graph

end Programs

end Dataflow
