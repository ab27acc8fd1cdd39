import Dataflow.Worker
import Dataflow.Proofs.Channel.Table

/-!
# Activations

What an attempt to activate a unit does, provided that the unit fits its channels
(`WorkUnit.Operable`).

**Log.**  `WorkUnit.sent` lists the blocks that an attempt puts into channels, one for each transfer
that succeeds, in the order of the transfers.

**Result.**  `tryActivate_cases`: an attempt is all or nothing.  Either nothing moves, or one block
is taken from every input, and from every local after the first activation, the kernel runs once,
and every block that it makes is put into its channel.
-/

namespace Dataflow

section Pairs

variable {α : Type} {cs : List NodeId} {blocks : List (List α)} {c : NodeId} {block : List α}

/-- A block that is paired with a channel has the size of its blocks. -/
theorem length_of_lookup_zip {size : NodeId → Nat} (hlength : blocks.map List.length = cs.map size)
    (h : (cs.zip blocks).lookup c = some block) : block.length = size c := by
  induction cs generalizing blocks with
  | nil => cases h
  | cons d rest ih =>
      obtain ⟨b, blocks, rfl, hb, hblocks⟩ := List.map_eq_cons_iff.mp hlength
      rw [List.zip_cons_cons, List.lookup_cons] at h
      split at h
      · rename_i heq
        cases h
        rw [eq_of_beq heq, hb]
      · exact ih hblocks h

theorem mem_of_lookup_zip (h : (cs.zip blocks).lookup c = some block) : c ∈ cs := by
  induction cs generalizing blocks with
  | nil => cases h
  | cons d rest ih =>
      cases blocks with
      | nil => cases h
      | cons b blocks =>
          rw [List.zip_cons_cons, List.lookup_cons] at h
          split at h
          · rename_i heq
            exact eq_of_beq heq ▸ List.mem_cons_self
          · exact List.mem_cons_of_mem _ (ih h)

theorem exists_lookup_zip (hcount : blocks.length = cs.length) (hc : c ∈ cs) :
    ∃ block, (cs.zip blocks).lookup c = some block := by
  induction cs generalizing blocks with
  | nil => cases hc
  | cons d rest ih =>
      cases blocks with
      | nil => cases hcount
      | cons b blocks =>
          rw [List.zip_cons_cons, List.lookup_cons]
          cases heq : c == d with
          | true => exact ⟨b, rfl⟩
          | false =>
              refine ih (Nat.succ.inj hcount) (List.mem_of_ne_of_mem ?_ hc)
              rintro rfl
              simp at heq

end Pairs

namespace WorkUnit

section Transfers

variable {α : Type} [Inhabited α] {t : ChannelTable α}

/-- The blocks that an attempt to write to channels puts into them, up to the first that does not
go. -/
def transfers : List NodeId → List (List α) → ChannelTable α → List (NodeId × List α)
  | c :: rest, block :: blocks, t =>
      match t.tryWrite c block with
      | (.ok .done, t) => (c, block) :: transfers rest blocks t
      | _ => []
  | _, _, _ => []

/-- Where every channel has a block, inputs and locals are read alike. -/
theorem reads_of_holds {cs : List NodeId} {blocks : List (List α)} (hnodup : cs.Nodup)
    (hholds : ∀ c ∈ cs, t.Holds c) (hlength : blocks.map List.length = cs.map t.blockOf) :
    readInputs cs blocks t = (none, cs.map t.head, t.popAll cs) ∧
      readLocals cs blocks t = (none, cs.map t.head, t.popAll cs) := by
  induction cs generalizing blocks t with
  | nil =>
      cases List.map_eq_nil_iff.mp hlength
      exact ⟨rfl, rfl⟩
  | cons c rest ih =>
      obtain ⟨block, blocks, rfl, hblock, hblocks⟩ := List.map_eq_cons_iff.mp hlength
      -- no channel occurs twice, so reading one leaves the others as they are
      obtain ⟨hc, hrest⟩ := List.nodup_cons.mp hnodup
      have hne : ∀ d ∈ rest, c ≠ d := fun d hd heq => hc (heq ▸ hd)
      obtain ⟨ch, hch, hlive, hdata⟩ := hholds c List.mem_cons_self
      rw [ChannelTable.blockOf_of_getElem? hch] at hblock
      have hread := ChannelTable.tryRead_eq_done hch hlive hdata hblock
      have hheads : rest.map (t.change c Channel.popped).head = rest.map t.head :=
        List.map_congr_left fun d hd => ChannelTable.head_change_of_ne (hne d hd)
      have hsizes : blocks.map List.length = rest.map (t.change c Channel.popped).blockOf := by
        rw [hblocks]
        exact List.map_congr_left fun d _ =>
          (ChannelTable.blockOf_change fun _ => Channel.block_popped).symm
      obtain ⟨hinputs, hlocals⟩ := ih hrest
        (fun d hd => (hholds d (List.mem_cons_of_mem _ hd)).change (hne d hd)) hsizes
      rw [hheads] at hinputs hlocals
      constructor
      · simp only [readInputs, hread, hinputs, List.map_cons, ChannelTable.popAll_cons]
      · simp only [readLocals, hread, hlocals, List.map_cons, ChannelTable.popAll_cons]

/-- Where no local has a block yet, default samples are read. -/
theorem readLocals_of_lacks {cs : List NodeId} {blocks : List (List α)}
    (hlacks : ∀ c ∈ cs, t.Lacks c) (hlength : blocks.map List.length = cs.map t.blockOf) :
    readLocals cs blocks t = (none, blocks.map (List.map fun _ => default), t) := by
  induction cs generalizing blocks with
  | nil =>
      cases List.map_eq_nil_iff.mp hlength
      rfl
  | cons c rest ih =>
      obtain ⟨block, blocks, rfl, hblock, hblocks⟩ := List.map_eq_cons_iff.mp hlength
      obtain ⟨ch, hch, hsteady, hshort⟩ := hlacks c List.mem_cons_self
      rw [ChannelTable.blockOf_of_getElem? hch] at hblock
      have hread := ChannelTable.tryRead_eq_wouldBlock hch hsteady hshort hblock
      have hlocals := ih (fun d hd => hlacks d (List.mem_cons_of_mem _ hd)) hblocks
      simp only [readLocals, hread, hlocals, List.map_cons]

omit [Inhabited α] in
/-- Where every channel has room, every block is written. -/
theorem writeBlocks_of_accepts (closed : UnitExit) {cs : List NodeId} {blocks : List (List α)}
    (hnodup : cs.Nodup) (haccepts : ∀ c ∈ cs, t.Accepts c)
    (hlength : blocks.map List.length = cs.map t.blockOf) :
    writeBlocks closed cs blocks t = (none, t.putAll (cs.zip blocks)) ∧
      transfers cs blocks t = cs.zip blocks := by
  induction cs generalizing blocks t with
  | nil =>
      cases List.map_eq_nil_iff.mp hlength
      exact ⟨rfl, rfl⟩
  | cons c rest ih =>
      obtain ⟨block, blocks, rfl, hblock, hblocks⟩ := List.map_eq_cons_iff.mp hlength
      obtain ⟨hc, hrest⟩ := List.nodup_cons.mp hnodup
      have hne : ∀ d ∈ rest, c ≠ d := fun d hd heq => hc (heq ▸ hd)
      obtain ⟨ch, hch, hlive, hroom⟩ := haccepts c List.mem_cons_self
      rw [ChannelTable.blockOf_of_getElem? hch] at hblock
      have hwrite := ChannelTable.tryWrite_eq_done hch hlive hroom hblock
      have hsizes : blocks.map List.length =
          rest.map (t.change c (Channel.put · block)).blockOf := by
        rw [hblocks]
        exact List.map_congr_left fun d _ =>
          (ChannelTable.blockOf_change fun _ => Channel.block_put).symm
      obtain ⟨hwrites, htransfers⟩ := ih hrest
        (fun d hd => (haccepts d (List.mem_cons_of_mem _ hd)).change (hne d hd)) hsizes
      constructor
      · simp only [writeBlocks, hwrite, hwrites, List.zip_cons_cons, ChannelTable.putAll_cons]
      · simp only [transfers, hwrite, htransfers, List.zip_cons_cons]

omit [Inhabited α] in
/-- Writing to some channels and then to others is writing to all of them. -/
theorem writeBlocks_append (closed closed' : UnitExit) {outs locals : List NodeId}
    {blocks : List (List α)} (hnodup : (outs ++ locals).Nodup)
    (haccepts : ∀ c ∈ outs ++ locals, t.Accepts c)
    (hlength : blocks.map List.length = (outs ++ locals).map t.blockOf) :
    let t' := t.putAll (outs.zip (blocks.take outs.length))
    writeBlocks closed outs (blocks.take outs.length) t = (none, t') ∧
      writeBlocks closed' locals (blocks.drop outs.length) t' =
        (none, t.putAll ((outs ++ locals).zip blocks)) ∧
      transfers outs (blocks.take outs.length) t ++ transfers locals (blocks.drop outs.length) t' =
        (outs ++ locals).zip blocks := by
  intro t'
  have hsplit : blocks.map List.length = outs.map t.blockOf ++ locals.map t.blockOf := by
    rw [hlength, List.map_append]
  have hfirst : (blocks.take outs.length).map List.length = outs.map t.blockOf := by
    rw [List.map_take, hsplit]
    exact List.take_left' (List.length_map _)
  have hsecond : (blocks.drop outs.length).map List.length = locals.map t'.blockOf := by
    rw [List.map_drop, hsplit, List.drop_left' (List.length_map _)]
    exact List.map_congr_left fun c _ => ChannelTable.blockOf_putAll.symm
  have hcount : outs.length = (blocks.take outs.length).length := by
    have hcount := congrArg List.length hfirst
    rwa [List.length_map, List.length_map, eq_comm] at hcount
  have hzip : (outs ++ locals).zip blocks =
      outs.zip (blocks.take outs.length) ++ locals.zip (blocks.drop outs.length) := by
    rw [← List.zip_append hcount, List.take_append_drop]
  have hkeys : ((outs.zip (blocks.take outs.length)).map Prod.fst).Nodup := by
    rw [List.map_fst_zip hcount.le]
    exact hnodup.of_append_left
  obtain ⟨houts, hsent⟩ := writeBlocks_of_accepts closed hnodup.of_append_left
    (fun c hc => haccepts c (List.mem_append_left _ hc)) hfirst
  -- the locals are none of the outputs, so they still have room
  have haccepts' : ∀ c ∈ locals, t'.Accepts c := by
    intro c hc
    have hnone : (outs.zip (blocks.take outs.length)).lookup c = none := by
      rw [List.lookup_eq_none_iff]
      intro x hx
      rw [bne_iff_ne]
      rintro rfl
      exact List.disjoint_of_nodup_append hnodup (List.of_mem_zip hx).1 hc
    unfold ChannelTable.Accepts
    rw [ChannelTable.getElem?_putAll hkeys, hnone]
    exact haccepts c (List.mem_append_right _ hc)
  obtain ⟨hlocals, hsent'⟩ := writeBlocks_of_accepts closed' hnodup.of_append_right
    haccepts' hsecond
  refine ⟨houts, ?_, ?_⟩
  · rw [hlocals, hzip, ChannelTable.putAll_append]
  · rw [hsent, hsent', hzip]

end Transfers

section Defs

variable {σ α : Type} [Inhabited α]

/-- What an activation does before the kernel runs. -/
def collect (u : WorkUnit σ α) (t : ChannelTable α) :
    Option Activation × WorkUnit σ α × ChannelTable α :=
  match u.readiness t with
  | some answer => (some answer, u, t)
  | none =>
      let n := u.inputs.length
      let (stop, ins, t) := readInputs u.inputs (u.inBlocks.take n) t
      let u := { u with inBlocks := ins ++ u.inBlocks.drop n }
      match stop with
      | some answer => (some answer, u, t)
      | none =>
          let (stop, ins, t) := readLocals u.locals (u.inBlocks.drop n) t
          (stop, { u with inBlocks := u.inBlocks.take n ++ ins }, t)

/-- What an activation does after the kernel has run. -/
def deliver (u : WorkUnit σ α) (f : Firing σ α) (t : ChannelTable α) :
    Activation × WorkUnit σ α × ChannelTable α :=
  let u := { u with outBlocks := f.outputs, state := f.state }
  match writeBlocks .downstreamClosed u.outputs (f.outputs.take u.outputs.length) t with
  | (some answer, t) => (answer, u, t)
  | (none, t) =>
      match writeBlocks (.fault .closed) u.locals (f.outputs.drop u.outputs.length) t with
      | (some answer, t) => (answer, u, t)
      | (none, t) =>
          let u := { u with activations := u.activations + 1 }
          match f.status with
          | .proceed => (.fired, u, t)
          | .finished => (.exit .finished, u, t)

/-- The blocks that an attempt to activate a unit puts into channels, in order. -/
def sent (u : WorkUnit σ α) (t : ChannelTable α) : List (NodeId × List α) :=
  match u.collect t with
  | (some _, _, _) => []
  | (none, u, t) =>
      match u.kernel u.state u.inBlocks u.outBlocks with
      | .error _ => []
      | .ok f =>
          let m := u.outputs.length
          match writeBlocks .downstreamClosed u.outputs (f.outputs.take m) t with
          | (some _, _) => transfers u.outputs (f.outputs.take m) t
          | (none, t') =>
              transfers u.outputs (f.outputs.take m) t ++ transfers u.locals (f.outputs.drop m) t'

theorem tryActivate_eq (u : WorkUnit σ α) (t : ChannelTable α) :
    u.tryActivate t =
      match u.collect t with
      | (some answer, u, t) => .ok (answer, u, t)
      | (none, u, t) =>
          match u.kernel u.state u.inBlocks u.outBlocks with
          | .error trap => .error trap
          | .ok f => .ok (u.deliver f t) := by
  unfold tryActivate collect
  cases u.readiness t with
  | some answer => rfl
  | none =>
      dsimp only
      rcases readInputs u.inputs (u.inBlocks.take u.inputs.length) t with ⟨_ | answer, ins, t₁⟩
      · dsimp only
        rcases readLocals u.locals
            ((ins ++ u.inBlocks.drop u.inputs.length).drop u.inputs.length) t₁
          with ⟨_ | answer, ins', t₂⟩
        · dsimp only
          cases u.kernel u.state
            ((ins ++ u.inBlocks.drop u.inputs.length).take u.inputs.length ++ ins') u.outBlocks with
          | error trap => rfl
          | ok f =>
              unfold deliver
              dsimp only [bind, Except.bind, pure, Except.pure]
              rcases writeBlocks .downstreamClosed u.outputs (f.outputs.take u.outputs.length) t₂
                with ⟨_ | answer, t₃⟩
              · dsimp only
                rcases writeBlocks (.fault .closed) u.locals (f.outputs.drop u.outputs.length) t₃
                  with ⟨_ | answer, t₄⟩
                · cases f.status <;> rfl
                · rfl
              · rfl
        · rfl
      · rfl

end Defs

section Firing

variable {σ α : Type}

/-- What a unit answers after its kernel has run. -/
def answer : KernelStatus → Activation
  | .proceed => .fired
  | .finished => .exit .finished

/-- The unit after its kernel has run. -/
def after (u : WorkUnit σ α) (ins : List (List α)) (f : Firing σ α) : WorkUnit σ α :=
  { u with
    inBlocks := ins, outBlocks := f.outputs, state := f.state, activations := u.activations + 1 }

/-- The channels from which an activation takes a block. -/
def drained (u : WorkUnit σ α) : List NodeId := if u.activations = 0 then u.inputs else u.reads

/-- The buffers of the locals, filled with default samples. -/
def rest [Inhabited α] (u : WorkUnit σ α) : List (List α) :=
  (u.inBlocks.drop u.inputs.length).map (List.map fun _ => default)

/-- The blocks that an activation hands to the kernel. -/
def gathered [Inhabited α] (u : WorkUnit σ α) (t : ChannelTable α) : List (List α) :=
  u.inputs.map t.head ++ if u.activations = 0 then u.rest else u.locals.map t.head

/-- A unit fits its channels: each is held at most once at either end, its buffers have the sizes of
their blocks, and the kernel keeps the sizes.  A local has the block of the last activation. -/
structure Operable (u : WorkUnit σ α) (t : ChannelTable α) : Prop where
  reads : u.reads.Nodup
  writes : u.writes.Nodup
  live : ∀ c ∈ u.reads ++ u.writes, ∃ ch, t[c]? = some ch ∧ ch.Live
  locals : ∀ c ∈ u.locals, ∃ ch, t[c]? = some ch ∧ ch.state = .steady ∧
    ch.available = if u.activations = 0 then 0 else ch.block
  inBlocks : u.inBlocks.map List.length = u.reads.map t.blockOf
  outBlocks : u.outBlocks.map List.length = u.writes.map t.blockOf
  kernel : ∀ {s ins outs f}, u.kernel s ins outs = .ok f →
    f.outputs.map List.length = outs.map List.length

variable {u : WorkUnit σ α} {t : ChannelTable α}

theorem of_readiness_eq_none (h : u.readiness t = none) :
    (∀ c ∈ u.inputs, t.hasData c = true) ∧ ∀ c ∈ u.outputs, t.hasRoom c = true := by
  unfold readiness at h
  split_ifs at h with hnone hclosed hroom hdata hend
  rw [Bool.not_eq_true', Bool.not_eq_false, List.all_eq_true] at hroom hdata
  exact ⟨hdata, hroom⟩

theorem mem_drained_of_mem_inputs {c : NodeId} (h : c ∈ u.inputs) : c ∈ u.drained := by
  unfold drained
  split
  · exact h
  · exact List.mem_append_left _ h

theorem mem_reads_of_mem_drained {c : NodeId} (h : c ∈ u.drained) : c ∈ u.reads := by
  unfold drained at h
  split at h
  · exact List.mem_append_left _ h
  · exact h

namespace Operable

theorem nodup_drained (h : u.Operable t) : u.drained.Nodup := by
  unfold drained
  split
  · exact h.reads.of_append_left
  · exact h.reads

/-- An activation finds a block wherever it takes one. -/
theorem holds (h : u.Operable t) (hready : u.readiness t = none) : ∀ c ∈ u.drained, t.Holds c := by
  intro c hc
  have hreads := mem_reads_of_mem_drained hc
  obtain ⟨ch, hch, hlive⟩ := h.live c (List.mem_append_left _ hreads)
  refine ⟨ch, hch, hlive, ?_⟩
  rcases List.mem_append.mp hreads with hin | hlocal
  · have hdata := (of_readiness_eq_none hready).1 c hin
    simp only [ChannelTable.hasData, hch, Channel.hasData, Bool.and_eq_true, decide_eq_true_eq]
      at hdata
    exact hdata.2
  · obtain ⟨ch', hch', -, havailable⟩ := h.locals c hlocal
    cases hch.symm.trans hch'
    rw [havailable]
    -- before the first activation no block is taken from a local
    split
    · rename_i hfirst
      rw [drained, if_pos hfirst] at hc
      exact absurd hlocal (List.disjoint_of_nodup_append h.reads hc)
    · exact le_rfl

theorem lacks (h : u.Operable t) (hfirst : u.activations = 0) : ∀ c ∈ u.locals, t.Lacks c := by
  intro c hc
  obtain ⟨ch, hch, hsteady, havailable⟩ := h.locals c hc
  obtain ⟨ch', hch', hlive⟩ := h.live c
    (List.mem_append_left _ (List.mem_append_right _ hc))
  cases hch.symm.trans hch'
  rw [if_pos hfirst] at havailable
  exact ⟨ch, hch, hsteady, by rw [havailable]; exact hlive.sound.block_pos⟩

/-- After the reads, every channel that the unit writes has room. -/
theorem accepts (h : u.Operable t) (hready : u.readiness t = none) :
    ∀ c ∈ u.writes, (t.popAll u.drained).Accepts c := by
  intro c hc
  obtain ⟨ch, hch, hlive⟩ := h.live c (List.mem_append_right _ hc)
  have hlookup : (t.popAll u.drained)[c]? = _ := ChannelTable.getElem?_popAll h.nodup_drained
  rw [hch] at hlookup
  rcases List.mem_append.mp hc with hout | hlocal
  · have hroom : ch.hasRoom = true := by
      have hroom := (of_readiness_eq_none hready).2 c hout
      simpa only [ChannelTable.hasRoom, hch] using hroom
    split at hlookup
    · rename_i hdrained
      obtain ⟨ch', hch', -, hdata⟩ := h.holds hready c hdrained
      cases hch.symm.trans hch'
      exact ⟨_, hlookup, hlive.popped hdata, Channel.hasRoom_popped hroom⟩
    · exact ⟨_, hlookup, hlive, hroom⟩
  · obtain ⟨ch', hch', hsteady, havailable⟩ := h.locals c hlocal
    cases hch.symm.trans hch'
    have hfits := hlive.sound.block_le
    by_cases hfirst : u.activations = 0
    · have hdrained : c ∉ u.drained := by
        rw [drained, if_pos hfirst]
        exact fun hin => List.disjoint_of_nodup_append h.reads hin hlocal
      rw [if_neg hdrained] at hlookup
      rw [if_pos hfirst] at havailable
      exact ⟨_, hlookup, hlive, by simp [Channel.hasRoom, hsteady, havailable, hfits]⟩
    · have hdrained : c ∈ u.drained := by
        rw [drained, if_neg hfirst]
        exact List.mem_append_right _ hlocal
      rw [if_pos hdrained] at hlookup
      rw [if_neg hfirst] at havailable
      exact ⟨_, hlookup, hlive.popped havailable.ge, by
        simp [Channel.hasRoom, hsteady, havailable, hfits]⟩

theorem map_length_inBlocks (h : u.Operable t) :
    (u.inBlocks.take u.inputs.length).map List.length = u.inputs.map t.blockOf ∧
      (u.inBlocks.drop u.inputs.length).map List.length = u.locals.map t.blockOf := by
  have hlength := h.inBlocks
  rw [WorkUnit.reads, List.map_append] at hlength
  rw [List.map_take, List.map_drop, hlength]
  exact ⟨List.take_left' (List.length_map _), List.drop_left' (List.length_map _)⟩

variable [Inhabited α]

/-- Before the kernel runs, a block is taken wherever the unit takes one. -/
theorem collect_eq (h : u.Operable t) (hready : u.readiness t = none) :
    u.collect t = (none, { u with inBlocks := u.gathered t }, t.popAll u.drained) := by
  obtain ⟨hins, hsizes⟩ := h.map_length_inBlocks
  have hholds := h.holds hready
  have hinputs : u.inputs.Nodup := h.reads.of_append_left
  have hread :=
    (reads_of_holds hinputs (fun c hc => hholds c (mem_drained_of_mem_inputs hc)) hins).1
  have hheads : (u.inputs.map t.head).length = u.inputs.length := List.length_map _
  -- the inputs have been read, and the locals are as before
  have hframe : ∀ c ∈ u.locals, (t.popAll u.inputs)[c]? = t[c]? := fun c hc =>
    ChannelTable.getElem?_popAll_of_notMem hinputs
      fun hin => List.disjoint_of_nodup_append h.reads hin hc
  have hsizes' : (u.inBlocks.drop u.inputs.length).map List.length =
      u.locals.map (t.popAll u.inputs).blockOf := by
    rw [hsizes]
    exact List.map_congr_left fun c _ => ChannelTable.blockOf_popAll.symm
  unfold collect gathered drained
  rw [hready]
  simp only [hread, List.drop_left' hheads, List.take_left' hheads]
  by_cases hfirst : u.activations = 0
  · have hlacks : ∀ c ∈ u.locals, (t.popAll u.inputs).Lacks c := by
      intro c hc
      unfold ChannelTable.Lacks
      rw [hframe c hc]
      exact h.lacks hfirst c hc
    rw [readLocals_of_lacks hlacks hsizes', if_pos hfirst, if_pos hfirst]
    rfl
  · have hlocals : ∀ c ∈ u.locals, (t.popAll u.inputs).Holds c := by
      intro c hc
      unfold ChannelTable.Holds
      rw [hframe c hc]
      refine hholds c ?_
      rw [drained, if_neg hfirst]
      exact List.mem_append_right _ hc
    have hsame : u.locals.map (t.popAll u.inputs).head = u.locals.map t.head := by
      refine List.map_congr_left fun c hc => ?_
      unfold ChannelTable.head ChannelTable.contentsOf ChannelTable.blockOf
      rw [hframe c hc]
    rw [(reads_of_holds h.reads.of_append_right hlocals hsizes').2, hsame, if_neg hfirst,
      if_neg hfirst, WorkUnit.reads, ChannelTable.popAll_append]

/-- An activation hands blocks of the right sizes to the kernel. -/
theorem map_length_gathered (h : u.Operable t) (hready : u.readiness t = none) :
    (u.gathered t).map List.length = u.reads.map t.blockOf := by
  have hhead : ∀ c ∈ u.drained, (t.head c).length = t.blockOf c := by
    intro c hc
    obtain ⟨ch, hch, hlive, hdata⟩ := h.holds hready c hc
    rw [ChannelTable.head, ChannelTable.contentsOf_of_getElem? hch,
      ChannelTable.blockOf_of_getElem? hch, List.length_take, hlive.sound.length_contents]
    exact Nat.min_eq_left hdata
  unfold gathered
  rw [WorkUnit.reads, List.map_append, List.map_append, List.map_map]
  congr 1
  · exact List.map_congr_left fun c hc => hhead c (mem_drained_of_mem_inputs hc)
  · split
    · rw [WorkUnit.rest, List.map_map, ← h.map_length_inBlocks.2]
      exact List.map_congr_left fun b _ => List.length_map _
    · rename_i hfirst
      rw [List.map_map]
      refine List.map_congr_left fun c hc => hhead c ?_
      rw [drained, if_neg hfirst]
      exact List.mem_append_right _ hc

end Operable

/-- What an activation does to a channel: it takes a block and puts one, each if the channel is at
that end of the unit. -/
theorem Operable.getElem?_fired [Inhabited α] (h : u.Operable t) (hready : u.readiness t = none)
    {blocks : List (List α)} (hlength : blocks.map List.length = u.writes.map t.blockOf)
    {c : NodeId} {ch : Channel α} (hch : t[c]? = some ch) (hlive : ch.Live) :
    ∃ ch', ((t.popAll u.drained).putAll (u.writes.zip blocks))[c]? = some ch' ∧ ch'.Live ∧
      ch'.state = ch.state ∧ ch'.block = ch.block ∧
      ch'.contents = (if c ∈ u.drained then ch.contents.drop ch.block else ch.contents) ++
        ((u.writes.zip blocks).lookup c).getD [] := by
  obtain ⟨mid, hmid, hmidLive, hstate, hblock, hcontents⟩ : ∃ mid,
      (t.popAll u.drained)[c]? = some mid ∧ mid.Live ∧ mid.state = ch.state ∧ mid.block = ch.block ∧
        mid.contents = if c ∈ u.drained then ch.contents.drop ch.block else ch.contents := by
    rw [ChannelTable.getElem?_popAll h.nodup_drained, hch]
    split
    · rename_i hdrained
      obtain ⟨ch', hch', -, hdata⟩ := h.holds hready c hdrained
      cases hch.symm.trans hch'
      exact ⟨_, rfl, hlive.popped hdata, rfl, rfl, hlive.contents_popped hdata⟩
    · exact ⟨_, rfl, hlive, rfl, rfl, rfl⟩
  have hcount : u.writes.length ≤ blocks.length := by
    have hcount := congrArg List.length hlength
    rw [List.length_map, List.length_map] at hcount
    exact hcount.ge
  have hkeys : ((u.writes.zip blocks).map Prod.fst).Nodup := by
    rw [List.map_fst_zip hcount]
    exact h.writes
  rw [ChannelTable.getElem?_putAll hkeys, hmid, ← hcontents]
  cases hlookup : (u.writes.zip blocks).lookup c with
  | none => exact ⟨mid, rfl, hmidLive, hstate, hblock, (List.append_nil _).symm⟩
  | some b =>
      obtain ⟨mid', hmid', -, hroom⟩ := h.accepts hready c (mem_of_lookup_zip hlookup)
      cases hmid.symm.trans hmid'
      have hb : b.length = mid.block := by
        rw [length_of_lookup_zip hlength hlookup, ChannelTable.blockOf_of_getElem? hch, hblock]
      exact ⟨_, rfl, hmidLive.put hroom, Channel.state_put.trans hstate,
        Channel.block_put.trans hblock, hmidLive.contents_put hroom hb⟩

/-- An attempt to activate a unit leaves everything as it was, or it traps in the kernel, or it
takes all blocks, runs the kernel and puts all blocks. -/
theorem tryActivate_cases [Inhabited α] (h : u.Operable t) :
    (∃ answer, u.readiness t = some answer ∧ u.tryActivate t = .ok (answer, u, t) ∧ u.sent t = []) ∨
    u.readiness t = none ∧
      ((∃ trap, u.kernel u.state (u.gathered t) u.outBlocks = .error trap ∧
          u.tryActivate t = .error trap) ∨
        ∃ f, u.kernel u.state (u.gathered t) u.outBlocks = .ok f ∧
          u.tryActivate t = .ok (answer f.status, u.after (u.gathered t) f,
            (t.popAll u.drained).putAll (u.writes.zip f.outputs)) ∧
          u.sent t = u.writes.zip f.outputs) := by
  rw [tryActivate_eq]
  unfold sent
  cases hready : u.readiness t with
  | some answer =>
      have hcollect : u.collect t = (some answer, u, t) := by
        unfold collect
        rw [hready]
      rw [hcollect]
      exact .inl ⟨answer, rfl, rfl, rfl⟩
  | none =>
      rw [h.collect_eq hready]
      dsimp only
      refine .inr ⟨rfl, ?_⟩
      cases hf : u.kernel u.state (u.gathered t) u.outBlocks with
      | error trap => exact .inl ⟨trap, rfl, rfl⟩
      | ok f =>
          have hlength : f.outputs.map List.length = u.writes.map (t.popAll u.drained).blockOf := by
            rw [h.kernel hf, h.outBlocks]
            exact List.map_congr_left fun c _ => ChannelTable.blockOf_popAll.symm
          obtain ⟨houts, hlocals, hsent⟩ := writeBlocks_append .downstreamClosed (.fault .closed)
            h.writes (h.accepts hready) hlength
          refine .inr ⟨f, rfl, ?_, ?_⟩
          · unfold deliver after answer
            simp only [houts, hlocals]
            cases f.status <;> rfl
          · simp only [houts]
            exact hsent

end Firing

end WorkUnit

end Dataflow
