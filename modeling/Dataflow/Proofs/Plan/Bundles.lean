import Dataflow.Proofs.Grouping
import Dataflow.Proofs.Plan.Channels
import Dataflow.Proofs.Trap

/-!
# Layout of bundles

A member of a bundle has the channels that it feeds or drains.  Where no member is
refused, the bundles of a direction together have, for every member of that direction, the
channels at that member.

**Results.**
* `layMember_eq_ok_iff`: a member has a place in a frame when the channels at it have blocks of one
  size and a type (`slot?`).
* `bundled_perm`: the channels of the bundles of a direction.
* `count_attached`: a channel is counted once for each member at it.
-/

namespace Dataflow

section Members

variable {g : Graph} {channels : List ChannelDescriptor} {group : BundleGroup}

/-- A channel is at a member of a bundle. -/
def attaches (direction : IoDirection) (node : NodeId) (c : ChannelDescriptor) : Bool :=
  match direction with
  | .input => c.producer.node = node
  | .output => c.consumers.any fun p => p.node = node

theorem attached_eq_filter (direction : IoDirection) (node : NodeId) :
    attached channels direction node = channels.filter (attaches direction node) := by
  cases direction <;> rfl

/-- The type and the size of the blocks of a member. -/
def slot? (channels : List ChannelDescriptor) (direction : IoDirection) (node : NodeId) :
    Option (ElemType × UInt32) :=
  match attached channels direction node with
  | [] => none
  | first :: rest =>
      if (first :: rest).any fun c => c.blockSize ≠ first.blockSize then none
      else first.elem.map fun elem => (elem, first.blockSize)

/-- The first channel at a member decides its type, and all have to agree on the size. -/
theorem slot?_eq_some_iff {direction : IoDirection} {node : NodeId} {slot : ElemType × UInt32} :
    slot? channels direction node = some slot ↔
      ((attached channels direction node).map fun c => (c.blockSize, c.elem)).head? =
          some (slot.2, some slot.1) ∧
        ∀ v ∈ (attached channels direction node).map fun c => (c.blockSize, c.elem),
          v.1 = slot.2 := by
  obtain ⟨elem, block⟩ := slot
  unfold slot?
  cases attached channels direction node with
  | nil => simp
  | cons first rest =>
      dsimp only
      split
      · rename_i hany
        obtain ⟨c, hc, hne⟩ := List.any_eq_true.mp hany
        constructor
        · intro h
          cases h
        · rintro ⟨hhead, hall⟩
          have hfirst : first.blockSize = block := by simp_all
          have hc' := hall (c.blockSize, c.elem) (List.mem_map_of_mem hc)
          exact absurd (hc'.trans hfirst.symm) (of_decide_eq_true hne)
      · rename_i hany
        have hsame : ∀ c ∈ first :: rest, c.blockSize = first.blockSize := by
          intro c hc
          by_contra hne
          exact hany (List.any_eq_true.mpr ⟨c, hc, decide_eq_true hne⟩)
        constructor
        · intro h
          obtain ⟨e, he, heq⟩ := Option.map_eq_some_iff.mp h
          cases heq
          refine ⟨by simp [he], ?_⟩
          intro v hv
          obtain ⟨c, hc, rfl⟩ := List.mem_map.mp hv
          exact hsame c hc
        · rintro ⟨hhead, -⟩
          simp only [List.map_cons, List.head?_cons, Option.some.injEq, Prod.mk.injEq] at hhead
          simp [hhead.1, hhead.2]

/-- A member has a place as soon as its blocks have a type and a size. -/
theorem layMember_eq_ok_iff {offset : Nat} {member : UInt32} {node : NodeId} {m : BundleMember} :
    layMember g channels group offset member node = .ok m ↔
      ∃ slot, slot? channels group.direction node = some slot ∧
        m = { member, node
              channels := (attached channels group.direction node).map ChannelDescriptor.node
              elem := slot.1
              blockSize := slot.2
              byteOffset := offset } := by
  unfold layMember slot?
  cases attached channels group.direction node with
  | nil => simp
  | cons first rest =>
      dsimp only
      split
      · simp
      · cases first.elem <;> simp [eq_comm]

/-- Laying out a first member and then the others, wherever these begin. -/
theorem layMembers_cons {offset : Nat} {member : UInt32} {node : NodeId}
    {members : List (UInt32 × NodeId)} {r : List (Except Diagnostic BundleMember) × Nat}
    (h : layMembers g channels group offset ((member, node) :: members) = .ok r) :
    ∃ next rest, layMembers g channels group next members = .ok rest ∧
      r.1 = layMember g channels group offset member node :: rest.1 := by
  unfold layMembers at h
  dsimp only at h
  split at h
  · obtain ⟨_, -, h⟩ := bind_eq_ok_iff.mp h
    obtain ⟨next, -, h⟩ := bind_eq_ok_iff.mp h
    obtain ⟨rest, hrest, h⟩ := bind_eq_ok_iff.mp h
    cases h
    exact ⟨next, rest, hrest, rfl⟩
  · obtain ⟨next, -, h⟩ := bind_eq_ok_iff.mp h
    obtain ⟨rest, hrest, h⟩ := bind_eq_ok_iff.mp h
    cases h
    exact ⟨next, rest, hrest, rfl⟩

/-- Laying out a member that has a place, and then the others behind it. -/
theorem layMembers_cons_ok {offset : Nat} {member : UInt32} {node : NodeId} {m : BundleMember}
    {members : List (UInt32 × NodeId)} {r : List (Except Diagnostic BundleMember) × Nat}
    (hm : layMember g channels group offset member node = .ok m) :
    layMembers g channels group offset ((member, node) :: members) = .ok r ↔
      ∃ bytes next rest, m.blockBytes = .ok bytes ∧ addLong offset bytes = .ok next ∧
        layMembers g channels group next members = .ok rest ∧ r = (.ok m :: rest.1, rest.2) := by
  rw [layMembers]
  dsimp only
  rw [hm]
  dsimp only
  constructor
  · intro h
    obtain ⟨bytes, hbytes, h⟩ := bind_eq_ok_iff.mp h
    obtain ⟨next, hnext, h⟩ := bind_eq_ok_iff.mp h
    obtain ⟨rest, hrest, h⟩ := bind_eq_ok_iff.mp h
    cases h
    exact ⟨bytes, next, rest, hbytes, hnext, hrest, rfl⟩
  · rintro ⟨bytes, next, rest, hbytes, hnext, hrest, rfl⟩
    exact bind_eq_ok_iff.mpr ⟨bytes, hbytes, bind_eq_ok_iff.mpr ⟨next, hnext,
      bind_eq_ok_iff.mpr ⟨rest, hrest, rfl⟩⟩⟩

/-- The numbers of the channels at a member. -/
def reach (channels : List ChannelDescriptor) (direction : IoDirection) (node : NodeId) :
    List NodeId :=
  (attached channels direction node).map ChannelDescriptor.node

theorem channels_layMembers :
    ∀ {members : List (UInt32 × NodeId)} {offset : Nat}
      {r : List (Except Diagnostic BundleMember) × Nat},
      layMembers g channels group offset members = .ok r → faults r.1 = [] →
        (oks r.1).flatMap BundleMember.channels =
          members.flatMap fun m => reach channels group.direction m.2
  | [], offset, r, h, _ => by
      cases h
      rfl
  | (member, node) :: members, offset, r, h, hnone => by
      obtain ⟨next, rest, hrest, heq⟩ := layMembers_cons h
      rw [heq] at hnone ⊢
      cases hm : layMember g channels group offset member node with
      | error e =>
          rw [hm] at hnone
          cases hnone
      | ok m =>
          rw [hm] at hnone
          obtain ⟨slot, -, rfl⟩ := layMember_eq_ok_iff.mp hm
          have ih := channels_layMembers hrest hnone
          rw [List.flatMap_cons, ← ih]
          rfl

/-- Where the blocks of members keep their types and sizes, members keep their places. -/
theorem exists_layMembers (g' : Graph) {channels' : List ChannelDescriptor} :
    ∀ {members : List (UInt32 × NodeId)} {offset : Nat}
      {r : List (Except Diagnostic BundleMember) × Nat},
      (∀ m ∈ members, ∀ slot, slot? channels group.direction m.2 = some slot →
        slot? channels' group.direction m.2 = some slot) →
      layMembers g channels group offset members = .ok r → faults r.1 = [] →
        ∃ r', layMembers g' channels' group offset members = .ok r' ∧ faults r'.1 = []
  | [], offset, r, _, _, _ => ⟨([], offset), rfl, rfl⟩
  | (member, node) :: members, offset, r, hslot, h, hnone => by
      cases hm : layMember g channels group offset member node with
      | error e =>
          obtain ⟨_, rest, -, heq⟩ := layMembers_cons h
          rw [heq, hm] at hnone
          cases hnone
      | ok m =>
          obtain ⟨bytes, next, rest, hbytes, hnext, hrest, rfl⟩ := (layMembers_cons_ok hm).mp h
          obtain ⟨slot, hs, rfl⟩ := layMember_eq_ok_iff.mp hm
          have hm' : layMember g' channels' group offset member node = .ok _ :=
            layMember_eq_ok_iff.mpr ⟨slot, hslot _ List.mem_cons_self slot hs, rfl⟩
          obtain ⟨rest', hrest', hnone'⟩ := exists_layMembers g'
            (fun x hx => hslot x (List.mem_cons_of_mem _ hx)) hrest hnone
          exact ⟨(.ok _ :: rest'.1, rest'.2),
            (layMembers_cons_ok hm').mpr ⟨bytes, next, rest', hbytes, hnext, hrest', rfl⟩, hnone'⟩

/-- Where the blocks of members keep their types and sizes, bundles can still be laid out. -/
theorem exists_layBundles (g' : Graph) {channels' : List ChannelDescriptor} :
    ∀ {groups : List BundleGroup} {laid : List (Option BundlePlan × List Diagnostic)},
      (∀ group ∈ groups, ∀ m ∈ group.members, ∀ slot,
        slot? channels group.direction m.2 = some slot →
          slot? channels' group.direction m.2 = some slot) →
      groups.mapM (layBundle g channels) = .ok laid → laid.flatMap Prod.snd = [] →
        ∃ laid', groups.mapM (layBundle g' channels') = .ok laid' ∧ laid'.flatMap Prod.snd = []
  | [], laid, _, _, _ => ⟨[], rfl, rfl⟩
  | group :: groups, laid, hslot, h, hnone => by
      rw [List.mapM_cons, bind_eq_ok_iff] at h
      obtain ⟨r, hr, h⟩ := h
      obtain ⟨rest, hrest, h⟩ := bind_eq_ok_iff.mp h
      cases h
      rw [List.flatMap_cons, List.append_eq_nil_iff] at hnone
      obtain ⟨rest', hrest', hnone'⟩ := exists_layBundles g'
        (fun x hx => hslot x (List.mem_cons_of_mem _ hx)) hrest hnone.2
      -- a bundle without a fault is one none of whose members has one
      unfold layBundle at hr
      obtain ⟨members, hmembers, hr⟩ := bind_eq_ok_iff.mp hr
      have hfaults : faults members.1 = [] := by
        dsimp only at hr
        split at hr
        · rename_i hempty
          exact List.isEmpty_iff.mp hempty
        · rename_i hempty
          cases hr
          exact absurd (List.isEmpty_iff.mpr hnone.1) hempty
      obtain ⟨members', hmembers', hfaults'⟩ :=
        exists_layMembers g' (hslot group List.mem_cons_self) hmembers hfaults
      have hr' : layBundle g' channels' group =
          .ok (some ⟨group.name, group.direction, oks members'.1, members'.2⟩, []) := by
        unfold layBundle
        refine bind_eq_ok_iff.mpr ⟨members', hmembers', ?_⟩
        dsimp only
        rw [if_pos (List.isEmpty_iff.mpr hfaults')]
        rfl
      refine ⟨(some ⟨group.name, group.direction, oks members'.1, members'.2⟩, []) :: rest', ?_, ?_⟩
      · rw [List.mapM_cons, bind_eq_ok_iff]
        exact ⟨_, hr', bind_eq_ok_iff.mpr ⟨rest', hrest', rfl⟩⟩
      · rw [List.flatMap_cons, hnone', List.append_nil]

/-- A bundle that is not dropped has the channels at all its members. -/
theorem channels_layBundle {r : Option BundlePlan × List Diagnostic}
    (h : layBundle g channels group = .ok r) (hnone : r.2 = []) :
    ∃ b, r.1 = some b ∧ b.direction = group.direction ∧
      b.members.flatMap BundleMember.channels =
        group.members.flatMap fun m => reach channels group.direction m.2 := by
  unfold layBundle at h
  obtain ⟨⟨laid, frameBytes⟩, hlaid, h⟩ := bind_eq_ok_iff.mp h
  dsimp only at h
  split at h
  · rename_i hfaults
    cases h
    exact ⟨_, rfl, rfl, channels_layMembers hlaid (List.isEmpty_iff.mp hfaults)⟩
  · rename_i hfaults
    cases h
    exact absurd (List.isEmpty_iff.mpr hnone) hfaults

theorem exists_layMember {members : List (UInt32 × NodeId)} {offset : Nat}
    {r : List (Except Diagnostic BundleMember) × Nat}
    (h : layMembers g channels group offset members = .ok r) {m : BundleMember} (hm : .ok m ∈ r.1) :
    ∃ x ∈ members, ∃ start, layMember g channels group start x.1 x.2 = .ok m := by
  induction members generalizing offset r with
  | nil =>
      cases h
      cases hm
  | cons x members ih =>
      obtain ⟨next, rest, hrest, heq⟩ := layMembers_cons h
      rw [heq] at hm
      rcases List.mem_cons.mp hm with hm | hm
      · exact ⟨x, List.mem_cons_self, offset, hm.symm⟩
      · obtain ⟨y, hy, hlaid⟩ := ih hrest hm
        exact ⟨y, List.mem_cons_of_mem _ hy, hlaid⟩

/-- Every member of a group is laid out or refused. -/
theorem exists_layMember_mem {members : List (UInt32 × NodeId)} {offset : Nat}
    {r : List (Except Diagnostic BundleMember) × Nat}
    (h : layMembers g channels group offset members = .ok r) {x : UInt32 × NodeId}
    (hx : x ∈ members) : ∃ start, layMember g channels group start x.1 x.2 ∈ r.1 := by
  induction members generalizing offset r with
  | nil => cases hx
  | cons y members ih =>
      obtain ⟨next, rest, hrest, heq⟩ := layMembers_cons h
      rw [heq]
      rcases List.mem_cons.mp hx with rfl | hx
      · exact ⟨offset, List.mem_cons_self⟩
      · obtain ⟨start, hlaid⟩ := ih hrest hx
        exact ⟨start, List.mem_cons_of_mem _ hlaid⟩

/-- A bundle has the name and the direction of its group, and its members are laid out. -/
theorem layBundle_some {b : BundlePlan} {ds : List Diagnostic}
    (h : layBundle g channels group = .ok (some b, ds)) :
    b.name = group.name ∧ b.direction = group.direction ∧
      ∀ m ∈ b.members, ∃ x ∈ group.members, ∃ start,
        layMember g channels group start x.1 x.2 = .ok m := by
  unfold layBundle at h
  obtain ⟨⟨laid, frameBytes⟩, hlaid, h⟩ := bind_eq_ok_iff.mp h
  dsimp only at h
  split at h
  · cases h
    exact ⟨rfl, rfl, fun m hm => exists_layMember hlaid (mem_oks.mp hm)⟩
  · cases h

/-- A bundle that is not dropped has all members of its group. -/
theorem exists_member_layBundle {r : Option BundlePlan × List Diagnostic}
    (h : layBundle g channels group = .ok r) (hnone : r.2 = []) {x : UInt32 × NodeId}
    (hx : x ∈ group.members) :
    ∃ b, r.1 = some b ∧ ∃ m ∈ b.members, ∃ start,
      layMember g channels group start x.1 x.2 = .ok m := by
  unfold layBundle at h
  obtain ⟨⟨laid, frameBytes⟩, hlaid, h⟩ := bind_eq_ok_iff.mp h
  dsimp only at h
  split at h
  · rename_i hfaults
    cases h
    obtain ⟨start, hmem⟩ := exists_layMember_mem hlaid hx
    rw [eq_map_ok_of_faults (List.isEmpty_iff.mp hfaults)] at hmem
    obtain ⟨m, hm, heq⟩ := List.mem_map.mp hmem
    exact ⟨_, rfl, m, hm, start, heq.symm⟩
  · rename_i hfaults
    cases h
    exact absurd (List.isEmpty_iff.mpr hnone) hfaults

/-- The channels of the bundles of a direction, group by group. -/
theorem bundled_groups (direction : IoDirection) :
    ∀ {groups : List BundleGroup} {laid : List (Option BundlePlan × List Diagnostic)},
      groups.mapM (layBundle g channels) = .ok laid → laid.flatMap Prod.snd = [] →
        (((laid.filterMap Prod.fst).filter fun b => b.direction = direction).flatMap fun b =>
            b.members.flatMap BundleMember.channels) =
          (groups.filter fun group => group.direction = direction).flatMap fun group =>
            group.members.flatMap fun m => reach channels direction m.2
  | [], laid, h, _ => by
      cases h
      rfl
  | group :: groups, laid, h, hnone => by
      rw [List.mapM_cons, bind_eq_ok_iff] at h
      obtain ⟨r, hr, h⟩ := h
      obtain ⟨rest, hrest, h⟩ := bind_eq_ok_iff.mp h
      cases h
      rw [List.flatMap_cons, List.append_eq_nil_iff] at hnone
      obtain ⟨b, hb, hdir, hch⟩ := channels_layBundle hr hnone.1
      have ih := bundled_groups direction hrest hnone.2
      rw [List.filterMap_cons_some hb]
      by_cases he : group.direction = direction
      · rw [List.filter_cons_of_pos (by simp [hdir, he]), List.filter_cons_of_pos (by simp [he]),
          List.flatMap_cons, List.flatMap_cons, ih, hch, he]
      · rw [List.filter_cons_of_neg (by simp [hdir, he]), List.filter_cons_of_neg (by simp [he]),
          ih]

end Members

section Groups

variable {g : Graph}

@[simp] theorem mem_ioNodes {id : NodeId} {ep : IoEndpoint} :
    (id, ep) ∈ g.ioNodes ↔ ∃ n, g.node? id = some n ∧ n.kind = .externalIo ep := by
  simp [Graph.ioNodes, NodeKind.endpoint?_eq_some]

theorem nodup_ioNodes (g : Graph) : (g.ioNodes.map Prod.fst).Nodup := by
  refine List.pairwise_map.mpr (g.nodeList_distinct.filterMap _ ?_)
  intro n n' hne m hm m' hm'
  obtain ⟨_, -, rfl⟩ := Option.map_eq_some_iff.mp hm
  obtain ⟨_, -, rfl⟩ := Option.map_eq_some_iff.mp hm'
  exact hne

theorem nodup_bundleNames (g : Graph) : g.bundleNames.Nodup := by
  refine nodup_sortedLabels ?_ ?_ ?_ _
  · intro a b c hab hbc
    simp only [Bool.not_eq_true', decide_eq_false_iff_not, String.not_lt] at *
    exact String.le_trans hab hbc
  · intro a b
    simp only [Bool.or_eq_true, Bool.not_eq_true', decide_eq_false_iff_not, String.not_lt]
    exact String.le_total a b
  · intro a b hab hba
    simp only [Bool.not_eq_true', decide_eq_false_iff_not, String.not_lt] at *
    exact String.le_antisymm hab hba

/-- The members of a bundle are the nodes that name it, and go its way. -/
theorem bundleGroup?_eq_some (hg : g.WellFormed) {name : String} {group : BundleGroup}
    (h : g.bundleGroup? name = some group) :
    (group.members.map Prod.snd).Perm ((g.ioNodes.filter fun n => n.2.bundle = name).map Prod.fst) ∧
      ∀ n ∈ g.ioNodes, n.2.bundle = name → n.2.direction = group.direction := by
  unfold Graph.bundleGroup? at h
  split at h
  · cases h
  · rename_i first rest hnodes
    cases h
    constructor
    · refine ((List.mergeSort_perm _ _).map _).trans (List.Perm.of_eq ?_)
      rw [List.map_map, hnodes]
      rfl
    · rintro ⟨id, ep⟩ hn hname
      obtain ⟨fid, fep⟩ := first
      have hfirst : (fid, fep) ∈ g.ioNodes.filter fun n => n.2.bundle = name := by
        rw [hnodes]
        exact List.mem_cons_self
      rw [List.mem_filter, mem_ioNodes] at hfirst
      obtain ⟨⟨m, hm, hmk⟩, hfname⟩ := hfirst
      obtain ⟨k, hk, hkk⟩ := mem_ioNodes.mp hn
      exact hg.oneDirection hk hm hkk hmk (hname.trans (of_decide_eq_true hfname).symm)

theorem bundleGroup?_eq_none {name : String} (h : g.bundleGroup? name = none) :
    (g.ioNodes.filter fun n => n.2.bundle = name) = [] := by
  unfold Graph.bundleGroup? at h
  split at h
  · assumption
  · cases h

theorem mem_bundleNames {n : NodeId × IoEndpoint} (h : n ∈ g.ioNodes) :
    n.2.bundle ∈ g.bundleNames :=
  mem_sortedLabels.mpr (List.mem_map_of_mem h)

/-- The bundle with a name, its members in the order of their numbers. -/
def Graph.unsortedGroup? (g : Graph) (name : String) : Option BundleGroup :=
  match g.ioNodes.filter fun n => n.2.bundle = name with
  | [] => none
  | first :: rest =>
      some {
        name
        direction := first.2.direction
        members := (first :: rest).map fun n => (n.2.member, n.1) }

/-- Whether the members of bundles are numbered in the order of their bundles and their
positions. -/
def Graph.ioInOrder (g : Graph) : Bool :=
  decide (g.ioNodes.Pairwise fun m n =>
    (!decide (n.2.bundle < m.2.bundle)) = true ∧
      (m.2.member < n.2.member || (m.2.member = n.2.member && m.1.val ≤ n.1.val)) = true)

/-- Bundles whose members are in order can be formed without sorting, hence be evaluated by the
kernel. -/
theorem bundleGroups_of_ioInOrder (h : g.ioInOrder = true) :
    g.bundleGroups = (g.ioNodes.map fun n => n.2.bundle).eraseReps.filterMap g.unsortedGroup? := by
  have hpair := of_decide_eq_true h
  have hnames : g.bundleNames = (g.ioNodes.map fun n => n.2.bundle).eraseReps := by
    unfold Graph.bundleNames
    rw [List.mergeSort_of_pairwise]
    exact List.pairwise_map.mpr (hpair.imp And.left)
  unfold Graph.bundleGroups
  rw [hnames]
  refine List.filterMap_congr ?_
  intro name _
  unfold Graph.bundleGroup? Graph.unsortedGroup?
  have hgroup := hpair.filter fun n => n.2.bundle = name
  cases hmembers : g.ioNodes.filter fun n => n.2.bundle = name with
  | nil => rfl
  | cons first rest =>
      rw [hmembers] at hgroup
      dsimp only
      rw [List.mergeSort_of_pairwise]
      exact List.pairwise_map.mpr (hgroup.imp And.right)

/-- The bundle with a name gives to a direction the members with that name and that direction. -/
theorem group_perm (hg : g.WellFormed) (channels : List ChannelDescriptor)
    (direction : IoDirection) (name : String) :
    (((g.bundleGroup? name).toList.filter fun group => group.direction = direction).flatMap
        fun group => group.members.flatMap fun m => reach channels direction m.2).Perm
      (((g.ioNodes.filter fun n => n.2.direction = direction).filter fun n =>
        n.2.bundle = name).flatMap fun n => reach channels direction n.1) := by
  rw [List.filter_comm]
  cases h : g.bundleGroup? name with
  | none =>
      rw [bundleGroup?_eq_none h]
      exact List.Perm.refl _
  | some group =>
      obtain ⟨hmembers, hdir⟩ := bundleGroup?_eq_some hg h
      by_cases he : group.direction = direction
      · have hall : ((g.ioNodes.filter fun n => n.2.bundle = name).filter fun n =>
            n.2.direction = direction) = g.ioNodes.filter fun n => n.2.bundle = name := by
          rw [List.filter_eq_self]
          intro n hn
          obtain ⟨hn, hname⟩ := List.mem_filter.mp hn
          exact decide_eq_true ((hdir n hn (of_decide_eq_true hname)).trans he)
        rw [hall, Option.toList_some, List.filter_cons_of_pos (by simp [he]), List.filter_nil,
          List.flatMap_singleton]
        have hreach := hmembers.flatMap_right fun id => reach channels direction id
        rw [List.flatMap_map, List.flatMap_map] at hreach
        exact hreach
      · have hnone : ((g.ioNodes.filter fun n => n.2.bundle = name).filter fun n =>
            n.2.direction = direction) = [] := by
          rw [List.filter_eq_nil_iff]
          intro n hn hd
          obtain ⟨hn, hname⟩ := List.mem_filter.mp hn
          exact he ((hdir n hn (of_decide_eq_true hname)).symm.trans (of_decide_eq_true hd))
        rw [hnone, Option.toList_some, List.filter_cons_of_neg (by simp [he])]
        exact List.Perm.refl _

/-- The channels of the bundles of a direction are those at the members of that direction. -/
theorem groups_perm (hg : g.WellFormed) (channels : List ChannelDescriptor)
    (direction : IoDirection) :
    ((g.bundleGroups.filter fun group => group.direction = direction).flatMap fun group =>
        group.members.flatMap fun m => reach channels direction m.2).Perm
      ((g.ioNodes.filter fun n => n.2.direction = direction).flatMap fun n =>
        reach channels direction n.1) := by
  have hcover : ∀ n ∈ g.ioNodes.filter fun n => n.2.direction = direction,
      n.2.bundle ∈ g.bundleNames := by
    intro n hn
    exact mem_bundleNames (List.mem_of_mem_filter hn)
  have hall := (flatMap_filter_perm (fun n : NodeId × IoEndpoint => n.2.bundle)
    (nodup_bundleNames g) hcover).flatMap_right fun n => reach channels direction n.1
  rw [List.flatMap_assoc] at hall
  rw [Graph.bundleGroups, List.filterMap_eq_flatMap_toList, List.filter_flatMap, List.flatMap_assoc]
  exact (List.Perm.flatMap_left _ fun name _ => group_perm hg channels direction name).trans hall

end Groups

section Counting

variable {channels : List ChannelDescriptor}

theorem count_reach (hnodup : (channels.map ChannelDescriptor.node).Nodup) {d : ChannelDescriptor}
    (hd : d ∈ channels) (direction : IoDirection) (node : NodeId) :
    (reach channels direction node).count d.node = if attaches direction node d then 1 else 0 := by
  have hsub : (reach channels direction node).Nodup := by
    rw [reach, attached_eq_filter]
    exact hnodup.sublist (List.filter_sublist.map _)
  have hmem : d.node ∈ reach channels direction node ↔ attaches direction node d = true := by
    rw [reach, attached_eq_filter, List.mem_map]
    constructor
    · rintro ⟨c, hc, he⟩
      obtain ⟨hc, hat⟩ := List.mem_filter.mp hc
      cases List.inj_on_of_nodup_map hnodup hc hd he
      exact hat
    · intro hat
      exact ⟨d, List.mem_filter.mpr ⟨hd, hat⟩, rfl⟩
  rw [hsub.count]
  simp only [hmem]

/-- A channel is counted once for each member at it. -/
theorem count_attached (hnodup : (channels.map ChannelDescriptor.node).Nodup)
    {d : ChannelDescriptor} (hd : d ∈ channels) (direction : IoDirection) :
    ∀ l : List (NodeId × IoEndpoint),
      (l.flatMap fun n => reach channels direction n.1).count d.node =
        l.countP fun n => attaches direction n.1 d
  | [] => rfl
  | n :: l => by
      rw [List.flatMap_cons, List.count_append, count_reach hnodup hd,
        count_attached hnodup hd direction l, List.countP_cons, Nat.add_comm]

end Counting

end Dataflow
