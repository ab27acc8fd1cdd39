import Dataflow.Insertion
import Dataflow.Proofs.Graph.Edit

/-!
# What one step of insertion can do

A step looks at one crossing arc.  It passes over an arc that is gone or ends nowhere, refuses an
arc for which no channel can be sized, lets an arc share an earlier channel, or leads it through a
channel of its own.  `Insertion.Step` is this list with the conditions of each case, and
`step_of_ok` says that it is complete; what insertion preserves is proved from the list alone.
-/

namespace Dataflow

/-- What an arc needs of a channel: where it starts, where its reader runs, at which rate it reads,
and how much the policy makes room for. -/
structure Graph.Needs (g : Graph) (a : DomainAnalysis) (p : ChannelPolicy) (id : ArcId) (arc : Arc)
    (dst : PortRef) (key : ShareKey) (capacity : UInt32) : Prop where
  arc_eq : g.arc? id = some arc
  ends : arc.dst = .port dst
  starts : key.src = arc.src
  partition : g.partitionOf dst.node = some key.partition
  domain : g.inputDomain dst = key.domain
  block : a.channelBlock p key.domain = .ok (some key.block)
  room : p.capacity key.block = some capacity

/-- The channel that is made for an arc with given needs. -/
def Graph.channelNode (g : Graph) (arc : Arc) (dst : PortRef) (key : ShareKey)
    (capacity : UInt32) : Node :=
  let ty := arc.ty.or (g.outputType arc.src)
  { name := g.channelName arc.src dst
    kind := .channel { capacity, blockSize := key.block, domain := key.domain }
    inputs := [{ ty }]
    outputs := [{ ty }]
    partition := some key.partition
    parent := g.inputContainer dst }

namespace Insertion

section Outcomes

/-- The arc `id` now ends at the fresh channel `c`, and the fresh arc `next` leads from there to
where it ended before. -/
structure Led (s : Insertion) (id : ArcId) (arc : Arc) (dst : PortRef) (crossing : Crossing)
    (key : ShareKey) (capacity : UInt32) (c : NodeId) (next : ArcId) (s' : Insertion) : Prop where
  node_fresh : s.graph.node? c = none
  arc_fresh : s.graph.arc? next = none
  channel : s'.graph.node? c = some (s.graph.channelNode arc dst key capacity)
  others : ∀ i, i ≠ c → s'.graph.node? i =
    if s.graph.inputContainer dst = some i then
      (s.graph.node? i).map fun n => { n with kind := n.kind.adopt false c }
    else s.graph.node? i
  arcs : ∀ i, s'.graph.arc? i =
    if i = id then some { arc with dst := .port ⟨c, 0⟩ }
    else if i = next then some { arc with src := ⟨c, 0⟩ }
    else s.graph.arc? i
  entries : s'.entries = s.entries ++ [(key, { channel := c, crossing, arcs := [id] })]
  diagnostics : s'.diagnostics = s.diagnostics
  number : c = ⟨s.graph.ids.nextNode⟩
  nextNode : s'.graph.ids.nextNode.toNat = s.graph.ids.nextNode.toNat + 1
  nextArc : s'.graph.ids.nextArc.toNat = s.graph.ids.nextArc.toNat + 1

/-- No channel can be sized for an arc, and `d` says so. -/
structure Refused (s : Insertion) (a : DomainAnalysis) (p : ChannelPolicy) (id : ArcId)
    (d : Diagnostic) : Prop where
  error : d.isError = true
  code : d.code = some .channelEnd ∨ d.code = some .channelOverflow
  cause : ∃ arc dst, s.graph.arc? id = some arc ∧ arc.dst = .port dst ∧
    (s.graph.partitionOf dst.node = none ∨
      a.channelBlock p (s.graph.inputDomain dst) = .ok none ∨
      ∃ block, a.channelBlock p (s.graph.inputDomain dst) = .ok (some block) ∧
        p.capacity block = none)

/-- Everything that one step can do. -/
inductive Step (a : DomainAnalysis) (p : ChannelPolicy) (s : Insertion) (id : ArcId)
    (crossing : Crossing) : Insertion → Prop
  | skip : (∀ {arc dst}, s.graph.arc? id = some arc → arc.dst ≠ .port dst) →
      Step a p s id crossing s
  | refuse {d : Diagnostic} : s.Refused a p id d → Step a p s id crossing (s.report d)
  | share {arc : Arc} {dst : PortRef} {key : ShareKey} {capacity : UInt32}
      {e : ShareKey × InsertedChannel} :
      s.graph.Needs a p id arc dst key capacity → p.shareFanout = true →
      e ∈ s.entries → e.1 = key → Step a p s id crossing (s.share id key e.2)
  | lead {arc : Arc} {dst : PortRef} {key : ShareKey} {capacity : UInt32} {c : NodeId}
      {next : ArcId} {s' : Insertion} :
      s.graph.Needs a p id arc dst key capacity →
      (p.shareFanout = true → ∀ e ∈ s.entries, e.1 ≠ key) →
      s.Led id arc dst crossing key capacity c next s' → Step a p s id crossing s'

end Outcomes

section Inversion

variable {a : DomainAnalysis} {p : ChannelPolicy} {s s' : Insertion} {id : ArcId}
  {crossing : Crossing}

theorem led_of_ok {arc : Arc} {dst : PortRef} {key : ShareKey} {capacity : UInt32}
    (harc : s.graph.arc? id = some arc)
    (h : s.lead id arc dst crossing key capacity = .ok s') :
    ∃ c next, s.Led id arc dst crossing key capacity c next s' := by
  unfold lead at h
  dsimp only at h
  obtain ⟨⟨c, mid⟩, hadd, h⟩ := bind_eq_ok_iff.mp h
  obtain ⟨⟨r, g'⟩, hsplice, h⟩ := bind_eq_ok_iff.mp h
  cases h
  obtain ⟨hfresh, harcs, hchannel, hothers⟩ := Graph.addChannel_spec hadd
  have hmid : ∀ i, mid.arc? i = s.graph.arc? i := fun i => by
    simp only [Graph.arc?, harcs]
  obtain ⟨next, hnext, hnodes, hsplit⟩ := Graph.spliceArc_spec ((hmid id).trans harc) hsplice
  have hkept : ∀ i, g'.node? i = mid.node? i := fun i => by
    simp only [Graph.node?, hnodes]
  obtain ⟨hnumber, hnodeIds, harcIds⟩ := Graph.addChannel_ids hadd
  obtain ⟨hspliced, hsame⟩ := Graph.spliceArc_ids ((hmid id).trans harc) hsplice
  refine ⟨c, next, hfresh, (hmid next).symm.trans hnext, (hkept c).trans hchannel, ?_, ?_,
    rfl, rfl, hnumber, ?_, ?_⟩
  · intro i hi
    exact (hkept i).trans (hothers i hi)
  · intro i
    rw [hsplit i, hmid i]
  · show g'.ids.nextNode.toNat = _
    rw [hsame, hnodeIds]
  · show g'.ids.nextArc.toNat = _
    rw [hspliced, harcIds]

/-- A step that has an answer is one of the four. -/
theorem step_of_ok (h : s.step a p (id, crossing) = .ok s') : Step a p s id crossing s' := by
  unfold step at h
  dsimp only at h
  split at h
  · rename_i hnone
    cases h
    refine .skip ?_
    intro arc dst harc hdst
    simp [harc, Arc.dstPort, hdst] at hnone
  · rename_i arc dst hsome
    obtain ⟨_, harc, hsome⟩ := Option.bind_eq_some_iff.mp hsome
    obtain ⟨_, hport, heq⟩ := Option.map_eq_some_iff.mp hsome
    cases heq
    have hdst : arc.dst = .port dst := Arc.dstPort_eq_some.mp hport
    split at h
    · rename_i hpart
      cases h
      exact .refuse ⟨rfl, .inl rfl, arc, dst, harc, hdst, .inl hpart⟩
    · rename_i partition hpart
      obtain ⟨block?, hblock, h⟩ := bind_eq_ok_iff.mp h
      cases block? with
      | none =>
          cases h
          exact .refuse ⟨rfl, .inr rfl, arc, dst, harc, hdst, .inr (.inl hblock)⟩
      | some block =>
          dsimp only at h
          split at h
          · rename_i hcap
            cases h
            exact .refuse ⟨rfl, .inr rfl, arc, dst, harc, hdst, .inr (.inr ⟨block, hblock, hcap⟩)⟩
          · rename_i capacity hcap
            have hneeds : s.graph.Needs a p id arc dst
                ⟨arc.src, partition, s.graph.inputDomain dst, block⟩ capacity :=
              ⟨harc, hdst, rfl, hpart, rfl, hblock, hcap⟩
            split at h
            · rename_i e hfind
              cases h
              have hshare : p.shareFanout = true := by
                by_contra hoff
                simp [hoff] at hfind
              rw [if_pos hshare] at hfind
              exact .share hneeds hshare (List.mem_of_find?_eq_some hfind)
                (by simpa using List.find?_some hfind)
            · rename_i hfind
              obtain ⟨c, next, hled⟩ := led_of_ok harc h
              refine .lead hneeds ?_ hled
              intro hshare e he hkey
              rw [if_pos hshare, List.find?_eq_none] at hfind
              exact hfind e he (by simpa using hkey)

/-- An arc whose needs can be met is not refused. -/
theorem Refused.not_needs {d : Diagnostic} (h : s.Refused a p id d) {arc : Arc} {dst : PortRef}
    {key : ShareKey} {capacity : UInt32} : ¬ s.graph.Needs a p id arc dst key capacity := by
  intro hneeds
  obtain ⟨arc', dst', harc, hends, hcause⟩ := h.cause
  cases harc.symm.trans hneeds.arc_eq
  cases hends.symm.trans hneeds.ends
  rw [hneeds.domain, hneeds.partition, hneeds.block] at hcause
  rcases hcause with hpart | hblock | ⟨block, hblock, hroom⟩
  · cases hpart
  · cases hblock
  · cases hblock
    cases hroom.symm.trans hneeds.room

/-- A channel can be made as long as the supply has numbers for a node and an arc. -/
theorem exists_lead (hnode : s.graph.ids.nextNode.toNat + 1 < wordLimit)
    (harc : s.graph.ids.nextArc.toNat + 1 < wordLimit) {arc : Arc}
    (ha : s.graph.arc? id = some arc) (dst : PortRef) (crossing : Crossing) (key : ShareKey)
    (capacity : UInt32) : ∃ s', s.lead id arc dst crossing key capacity = .ok s' := by
  unfold lead
  dsimp only
  obtain ⟨c, mid, hadd⟩ := Graph.exists_addChannel hnode (s.graph.inputContainer dst)
    (s.graph.channelName arc.src dst)
    { capacity, blockSize := key.block, domain := key.domain } key.partition
    (arc.ty.or (s.graph.outputType arc.src))
  obtain ⟨-, harcs, -⟩ := Graph.addChannel_spec hadd
  have hids := (Graph.addChannel_ids hadd).2.2
  have ha' : mid.arc? id = some arc := by
    rw [← ha]
    simp only [Graph.arc?, harcs]
  obtain ⟨r, g', hsplice⟩ := Graph.exists_spliceArc (hids ▸ harc) ha' c
  rw [hadd]
  dsimp only [bind, Except.bind]
  rw [hsplice]
  exact ⟨_, rfl⟩

/-- What a step does for an arc whose needs can be met. -/
theorem step_eq_of_needs {arc : Arc} {dst : PortRef} {key : ShareKey} {capacity : UInt32}
    (h : s.graph.Needs a p id arc dst key capacity) :
    s.step a p (id, crossing) =
      match if p.shareFanout then s.entries.find? (fun e => e.1 = key) else none with
      | some entry => .ok (s.share id key entry.2)
      | none => s.lead id arc dst crossing key capacity := by
  obtain ⟨harc, hends, hstarts, hpart, hdomain, hblock, hroom⟩ := h
  obtain ⟨src, partition, domain, block⟩ := key
  cases hstarts
  unfold step
  dsimp only at *
  have hsome : ((s.graph.arc? id).bind fun arc => arc.dstPort.map fun dst => (arc, dst)) =
      some (arc, dst) := by
    simp [harc, Arc.dstPort_eq_some.mpr hends]
  rw [hsome]
  dsimp only
  rw [hpart]
  dsimp only
  rw [hdomain, hblock]
  dsimp only [bind, Except.bind]
  rw [hroom]
  rfl

end Inversion

end Insertion
end Dataflow
