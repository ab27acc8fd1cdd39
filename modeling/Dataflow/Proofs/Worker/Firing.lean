import Dataflow.Proofs.Channel.Sides
import Dataflow.Proofs.Worker.Activation

/-!
# A unit after an activation

A unit that fits its channels fits them again after an activation, and calls of others on channels
that are not its locals leave it so.

**Results.**
* `readiness_cases`: a unit with a channel runs its kernel exactly if it is ready
  (`WorkUnit.Ready`).
* `Operable.called`, `Operable.fired`: what keeps a unit fitting its channels.
* `Operable.contentsOf_fired`, `Operable.map_head_locals`: what an activation does to the samples on
  their way, and what its locals have for the next one.
-/

namespace Dataflow

section Lists

variable {α : Type}

/-- Blocks that are paired with channels, looked up one after the other. -/
theorem map_lookup_zip {cs : List NodeId} {blocks : List (List α)} (hnodup : cs.Nodup)
    (hcount : blocks.length = cs.length) :
    cs.map (fun c => ((cs.zip blocks).lookup c).getD []) = blocks := by
  induction cs generalizing blocks with
  | nil => exact (List.length_eq_zero_iff.mp hcount).symm
  | cons d rest ih =>
      cases blocks with
      | nil => cases hcount
      | cons b blocks =>
          obtain ⟨hd, hrest⟩ := List.nodup_cons.mp hnodup
          have hlater : rest.map (fun c => (((d :: rest).zip (b :: blocks)).lookup c).getD []) =
              rest.map fun c => ((rest.zip blocks).lookup c).getD [] := by
            refine List.map_congr_left fun c hc => ?_
            have hne : (c == d) = false := beq_false_of_ne fun heq => hd (heq ▸ hc)
            rw [List.zip_cons_cons, List.lookup_cons, hne]
          rw [List.map_cons, hlater, ih hrest (Nat.succ.inj hcount)]
          simp

end Lists

namespace WorkUnit

section Firing

variable {σ α : Type} [Inhabited α] {u : WorkUnit σ α} {t : ChannelTable α} {f : Firing σ α}

/-- Every output has room and every input a block. -/
def Ready (u : WorkUnit σ α) (t : ChannelTable α) : Prop :=
  (∀ c ∈ u.outputs, t.hasRoom c = true) ∧ ∀ c ∈ u.inputs, t.hasData c = true

instance : Decidable (u.Ready t) := inferInstanceAs (Decidable (_ ∧ _))

/-- The table after an activation. -/
def firedTable (u : WorkUnit σ α) (t : ChannelTable α) (f : Firing σ α) : ChannelTable α :=
  (t.popAll u.drained).putAll (u.writes.zip f.outputs)

namespace Operable

/-- Calls of others on channels that are not its own locals do not keep a unit from fitting them. -/
theorem called (h : u.Operable t) {c : NodeId} (hc : c ∉ u.locals) {call : Call α} :
    u.Operable (t.called c call) := by
  have hblocks : (t.called c call).blockOf = t.blockOf :=
    funext fun _ => ChannelTable.blockOf_called
  refine ⟨h.reads, h.writes, ?_, ?_, ?_, ?_, h.kernel⟩
  · intro d hd
    obtain ⟨ch, hch, hlive⟩ := h.live d hd
    by_cases heq : c = d
    · subst heq
      exact ⟨_, ChannelTable.getElem?_called_self hch, hlive.call call⟩
    · rw [ChannelTable.getElem?_called_of_ne heq]
      exact ⟨ch, hch, hlive⟩
  · intro d hd
    have hne : c ≠ d := fun heq => hc (heq ▸ hd)
    rw [ChannelTable.getElem?_called_of_ne hne]
    exact h.locals d hd
  · rw [hblocks]
    exact h.inBlocks
  · rw [hblocks]
    exact h.outBlocks

/-- An activation leaves nothing in a local but what it puts there. -/
theorem drained_local (h : u.Operable t) {c : NodeId} (hc : c ∈ u.locals) {ch : Channel α}
    (hch : t[c]? = some ch) (hlive : ch.Live) :
    (if c ∈ u.drained then ch.contents.drop ch.block else ch.contents) = [] ∧
      ch.contents.drop ch.block = [] := by
  obtain ⟨ch', hch', -, havailable⟩ := h.locals c hc
  cases hch.symm.trans hch'
  have hlength := hlive.sound.length_contents
  rw [havailable] at hlength
  by_cases hfirst : u.activations = 0
  · rw [if_pos hfirst] at hlength
    rw [List.length_eq_zero_iff.mp hlength]
    simp
  · rw [if_neg hfirst] at hlength
    have hdrained : c ∈ u.drained := by
      rw [drained, if_neg hfirst]
      exact List.mem_append_right _ hc
    have hdrop : ch.contents.drop ch.block = [] := List.drop_eq_nil_of_le hlength.le
    rw [if_pos hdrained]
    exact ⟨hdrop, hdrop⟩

/-- The buffers of the locals, filled with default samples. -/
theorem rest_eq (h : u.Operable t) :
    u.rest = u.locals.map fun c => List.replicate (t.blockOf c) default := by
  have hsizes := congrArg (List.map fun n => List.replicate n (default : α)) h.map_length_inBlocks.2
  rw [List.map_map, List.map_map] at hsizes
  unfold rest
  calc (u.inBlocks.drop u.inputs.length).map (List.map fun _ => default)
      _ = (u.inBlocks.drop u.inputs.length).map fun b => List.replicate b.length default :=
        List.map_congr_left fun b _ => List.map_const' ..
      _ = _ := hsizes

variable (h : u.Operable t) (hready : u.readiness t = none)
  (hf : u.kernel u.state (u.gathered t) u.outBlocks = .ok f)
include h hf

theorem map_length_outputs : f.outputs.map List.length = u.writes.map t.blockOf :=
  (h.kernel hf).trans h.outBlocks

theorem length_outputs : f.outputs.length = u.writes.length := by
  have hcount := congrArg List.length (h.map_length_outputs hf)
  rwa [List.length_map, List.length_map] at hcount

include hready

theorem getElem?_firedTable {c : NodeId} {ch : Channel α} (hch : t[c]? = some ch)
    (hlive : ch.Live) :
    ∃ ch', (u.firedTable t f)[c]? = some ch' ∧ ch'.Live ∧ ch'.state = ch.state ∧
      ch'.block = ch.block ∧
      ch'.contents = (if c ∈ u.drained then ch.contents.drop ch.block else ch.contents) ++
        ((u.writes.zip f.outputs).lookup c).getD [] :=
  h.getElem?_fired hready (h.map_length_outputs hf) hch hlive

/-- After an activation a local has the block that the kernel has made for it. -/
theorem getElem?_local {c : NodeId} (hc : c ∈ u.locals) :
    ∃ ch block, (u.firedTable t f)[c]? = some ch ∧ ch.state = .steady ∧ ch.contents = block ∧
      block.length = ch.block ∧ ch.available = ch.block ∧
      (u.writes.zip f.outputs).lookup c = some block := by
  obtain ⟨ch, hch, hlive⟩ := h.live c (List.mem_append_right _ (List.mem_append_right _ hc))
  obtain ⟨ch', hch', hlive', hstate, hblock, hcontents⟩ := h.getElem?_firedTable hready hf hch hlive
  obtain ⟨b, hb⟩ := exists_lookup_zip (h.length_outputs hf) (List.mem_append_right _ hc)
  obtain ⟨old, hold, hsteady, -⟩ := h.locals c hc
  cases hch.symm.trans hold
  rw [(h.drained_local hc hch hlive).1, hb, List.nil_append, Option.getD_some] at hcontents
  have hlength : b.length = ch'.block := by
    rw [length_of_lookup_zip (h.map_length_outputs hf) hb, ChannelTable.blockOf_of_getElem? hch,
      hblock]
  refine ⟨ch', b, hch', hstate.trans hsteady, hcontents, hlength, ?_, hb⟩
  rw [← hlive'.sound.length_contents, hcontents, hlength]

/-- A unit that was activated fits its channels. -/
theorem fired : (u.after (u.gathered t) f).Operable (u.firedTable t f) := by
  have hblocks : (u.firedTable t f).blockOf = t.blockOf :=
    funext fun c => ChannelTable.blockOf_putAll.trans ChannelTable.blockOf_popAll
  refine ⟨h.reads, h.writes, ?_, ?_, ?_, ?_, h.kernel⟩
  · intro c hc
    obtain ⟨ch, hch, hlive⟩ := h.live c hc
    obtain ⟨ch', hch', hlive', -⟩ := h.getElem?_firedTable hready hf hch hlive
    exact ⟨ch', hch', hlive'⟩
  · intro c hc
    obtain ⟨ch, b, hch, hsteady, -, -, havailable, -⟩ := h.getElem?_local hready hf hc
    exact ⟨ch, hch, hsteady, havailable⟩
  · rw [hblocks]
    exact h.map_length_gathered hready
  · rw [hblocks]
    exact h.map_length_outputs hf

/-- The next blocks of the locals are those that the kernel has made for them. -/
theorem map_head_locals :
    u.locals.map (u.firedTable t f).head = f.outputs.drop u.outputs.length := by
  have hheads : u.locals.map (u.firedTable t f).head =
      u.locals.map fun c => ((u.writes.zip f.outputs).lookup c).getD [] := by
    refine List.map_congr_left fun c hc => ?_
    obtain ⟨ch, b, hch, -, hcontents, hlength, -, hlookup⟩ := h.getElem?_local hready hf hc
    rw [ChannelTable.head, ChannelTable.contentsOf_of_getElem? hch,
      ChannelTable.blockOf_of_getElem? hch, hcontents, List.take_of_length_le hlength.le, hlookup,
      Option.getD_some]
  have hall := congrArg (List.drop u.outputs.length) (map_lookup_zip h.writes (h.length_outputs hf))
  have hlocals : u.writes.drop u.outputs.length = u.locals := List.drop_left
  rwa [← List.map_drop, hlocals, ← hheads] at hall

/-- What an activation does to the samples on their way: it takes a block from every channel that
the unit reads and puts one into every channel that it writes. -/
theorem contentsOf_fired (c : NodeId) :
    (u.firedTable t f).contentsOf c =
      (if c ∈ u.reads then (t.contentsOf c).drop (t.blockOf c) else t.contentsOf c) ++
        ((u.writes.zip f.outputs).lookup c).getD [] := by
  by_cases hmem : c ∈ u.reads ++ u.writes
  · obtain ⟨ch, hch, hlive⟩ := h.live c hmem
    obtain ⟨ch', hch', -, -, -, hcontents⟩ := h.getElem?_firedTable hready hf hch hlive
    have hdrained : (if c ∈ u.drained then ch.contents.drop ch.block else ch.contents) =
        if c ∈ u.reads then ch.contents.drop ch.block else ch.contents := by
      by_cases hlocal : c ∈ u.locals
      · have hreads : c ∈ u.reads := List.mem_append_right _ hlocal
        obtain ⟨hrest, hdrop⟩ := h.drained_local hlocal hch hlive
        rw [hrest, if_pos hreads, hdrop]
      · have hiff : c ∈ u.drained ↔ c ∈ u.reads := by
          refine ⟨mem_reads_of_mem_drained, fun hreads => mem_drained_of_mem_inputs ?_⟩
          exact (List.mem_append.mp hreads).resolve_right hlocal
        simp only [hiff]
    rw [ChannelTable.contentsOf_of_getElem? hch', hcontents, hdrained,
      ChannelTable.contentsOf_of_getElem? hch, ChannelTable.blockOf_of_getElem? hch]
  · rw [List.mem_append, not_or] at hmem
    have hdrained : c ∉ u.drained := fun hin => hmem.1 (mem_reads_of_mem_drained hin)
    have hnone : (u.writes.zip f.outputs).lookup c = none := by
      cases hlookup : (u.writes.zip f.outputs).lookup c with
      | none => rfl
      | some b => exact absurd (mem_of_lookup_zip hlookup) hmem.2
    have hkeys : ((u.writes.zip f.outputs).map Prod.fst).Nodup := by
      rw [List.map_fst_zip (h.length_outputs hf).ge]
      exact h.writes
    have hsame : (u.firedTable t f)[c]? = t[c]? := by
      rw [firedTable, ChannelTable.getElem?_putAll hkeys, hnone]
      exact ChannelTable.getElem?_popAll_of_notMem h.nodup_drained hdrained
    rw [if_neg hmem.1, hnone, Option.getD_none, List.append_nil]
    unfold ChannelTable.contentsOf
    rw [hsame]

end Operable

omit [Inhabited α] in
theorem not_isClosed_of_hasRoom {c : NodeId} (h : t.hasRoom c = true) : t.isClosed c = false := by
  unfold ChannelTable.hasRoom at h
  unfold ChannelTable.isClosed
  cases hch : t[c]? with
  | none => simp [hch] at h
  | some ch =>
      simp only [hch, Channel.hasRoom, Bool.and_eq_true, decide_eq_true_eq] at h
      simp [Channel.isClosed, h.1]

omit [Inhabited α] in
/-- A unit with a channel runs its kernel if it is ready, and otherwise waits or has lost a
neighbour. -/
theorem readiness_cases (howns : u.reads ++ u.writes ≠ []) :
    u.Ready t ∧ u.readiness t = none ∨
    ¬ u.Ready t ∧ (u.readiness t = some .idle ∨ u.readiness t = some (.exit .endOfStream) ∨
      u.readiness t = some (.exit .downstreamClosed)) := by
  have hsome : (u.inputs.isEmpty && u.outputs.isEmpty && u.locals.isEmpty) = false := by
    rw [← Bool.not_eq_true]
    intro hnone
    simp only [Bool.and_eq_true, List.isEmpty_iff] at hnone
    exact howns (by simp [reads, writes, hnone])
  unfold readiness Ready
  rw [hsome]
  by_cases hroom : ∀ c ∈ u.outputs, t.hasRoom c = true
  · have hopen : u.outputs.any t.isClosed = false := by
      rw [List.any_eq_false]
      intro c hc
      simp [not_isClosed_of_hasRoom (hroom c hc)]
    rw [hopen, List.all_eq_true.mpr hroom]
    by_cases hdata : ∀ c ∈ u.inputs, t.hasData c = true
    · rw [List.all_eq_true.mpr hdata]
      exact .inl ⟨⟨hroom, hdata⟩, rfl⟩
    · have hlacks : u.inputs.all t.hasData = false := by
        rw [← Bool.not_eq_true, List.all_eq_true]
        exact hdata
      rw [hlacks]
      refine .inr ⟨fun hready => hdata hready.2, ?_⟩
      simp only [Bool.false_eq_true, if_false, Bool.not_true, Bool.not_false, if_true]
      split
      · exact .inr (.inl rfl)
      · exact .inl rfl
  · have hfull : u.outputs.all t.hasRoom = false := by
      rw [← Bool.not_eq_true, List.all_eq_true]
      exact hroom
    rw [hfull]
    refine .inr ⟨fun hready => hroom hready.1, ?_⟩
    simp only [Bool.false_eq_true, if_false, Bool.not_false, if_true]
    split
    · exact .inr (.inr rfl)
    · exact .inl rfl

omit [Inhabited α] in
theorem readiness_of_ready (howns : u.reads ++ u.writes ≠ []) (hready : u.Ready t) :
    u.readiness t = none := by
  rcases readiness_cases howns with ⟨-, hnone⟩ | ⟨hnot, -⟩
  · exact hnone
  · exact absurd hready hnot

/-- An attempt to activate a unit that is not ready changes nothing. -/
theorem Operable.tryActivate_of_not_ready (h : u.Operable t) (howns : u.reads ++ u.writes ≠ [])
    (hnot : ¬ u.Ready t) :
    ∃ answer, u.tryActivate t = .ok (answer, u, t) ∧
      (answer = .idle ∨ answer = .exit .endOfStream ∨ answer = .exit .downstreamClosed) := by
  rcases readiness_cases howns with ⟨hready, -⟩ | ⟨-, hanswer⟩
  · exact absurd hready hnot
  rcases tryActivate_cases h with ⟨answer, hsome, hactivate, -⟩ | ⟨hnone, -⟩
  · refine ⟨answer, hactivate, ?_⟩
    rw [hsome] at hanswer
    simpa only [Option.some.injEq] using hanswer
  · simp [hnone] at hanswer

end Firing

end WorkUnit

end Dataflow
