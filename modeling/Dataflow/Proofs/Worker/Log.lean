import Dataflow.Proofs.Worker.Network

/-!
# The log of a network

A network is in step with its log (`Network.Explained`) if every unit is what its replay on the log
says, the log has the blocks that these replays make, and the blocks in a channel are those of the
log that its reader has not taken yet.

**Results.**
* `Explained.operable`: in such a network a unit fits its channels, so that its activations
  are all or nothing.
* `explained_start`, `explained_step`, `explained_run`: units that have started are in step with the
  empty log, and stay in step with the log whatever the schedule.
* `exists_run`: nothing but a kernel can stop a run.
-/

namespace Dataflow

namespace Network

section Explanations

/-- A network in step with its log. -/
structure Explained {ι : Type} {σ : ι → Type} {α : Type} [Inhabited α]
    (units : (i : ι) → WorkUnit (σ i) α) (table : ChannelTable α) (n : Network ι σ α) : Prop where
  live : ∀ i, ∀ c ∈ (units i).reads ++ (units i).writes, ∃ ch, n.table[c]? = some ch ∧ ch.Live
  block : ∀ c, n.table.blockOf c = table.blockOf c
  unit : ∀ i, (units i).replay n.written (n.units i).activations = .ok (n.units i)
  count : ∀ i, ∀ c ∈ (units i).writes, (n.written c).length = (n.units i).activations
  output : ∀ i, ∀ c ∈ (units i).writes, ∀ k < (n.units i).activations,
    ∃ u, (units i).replay n.written (k + 1) = .ok u ∧ u.blockFor c = (n.written c)[k]?
  size : ∀ c, ∀ b ∈ n.written c, b.length = table.blockOf c
  stream : ∀ i, ∀ c ∈ (units i).reads, (n.units i).taken c ≤ (n.written c).length ∧
    n.table.contentsOf c = ((n.written c).drop ((n.units i).taken c)).flatten
  opened : ∀ i, n.exited i = false → ∀ c ∈ (units i).locals, ∃ ch, n.table[c]? = some ch ∧
    ch.state = .steady
  inBlocks : ∀ i, (n.units i).inBlocks.map List.length = (units i).reads.map table.blockOf
  outBlocks : ∀ i, (n.units i).outBlocks.map List.length = (units i).writes.map table.blockOf

variable {ι : Type} [DecidableEq ι] {σ : ι → Type} {α : Type} [Inhabited α]
  {units : (i : ι) → WorkUnit (σ i) α} {table : ChannelTable α} {n : Network ι σ α} {i : ι}

omit [DecidableEq ι] in
/-- Units that have started are in step with an empty log. -/
theorem explained_start (hs : Started units table) :
    Explained units table { units, table } := by
  refine ⟨?_, fun _ => rfl, ?_, ?_, ?_, ?_, ?_, ?_, hs.inBlocks, hs.outBlocks⟩
  · intro i c hc
    obtain ⟨ch, hch, hlive, -⟩ := hs.channel i c hc
    exact ⟨ch, hch, hlive⟩
  · intro i
    rw [hs.activations i]
    rfl
  · intro i c _
    exact (hs.activations i).symm
  · intro i c _ k hk
    rw [hs.activations i] at hk
    exact absurd hk (Nat.not_lt_zero k)
  · rintro c b ⟨⟩
  · intro i c hc
    obtain ⟨ch, hch, hlive, -, hempty⟩ := hs.channel i c (List.mem_append_left _ hc)
    have hnone : ch.contents = [] := by
      rw [← List.length_eq_zero_iff, hlive.sound.length_contents, hempty]
    refine ⟨?_, ?_⟩
    · simp [WorkUnit.taken, hs.activations i]
    · rw [ChannelTable.contentsOf_of_getElem? hch, hnone]
      simp
  · intro i _ c hc
    obtain ⟨ch, hch, -, hsteady, -⟩ := hs.channel i c
      (List.mem_append_left _ (List.mem_append_right _ hc))
    exact ⟨ch, hch, hsteady⟩

namespace Explained

omit [DecidableEq ι]

theorem static (h : Explained units table n) (i : ι) :
    (n.units i).inputs = (units i).inputs ∧ (n.units i).outputs = (units i).outputs ∧
      (n.units i).locals = (units i).locals ∧ (n.units i).kernel = (units i).kernel := by
  obtain ⟨hin, hout, hlocal, hkernel, -⟩ := WorkUnit.replay_static (h.unit i)
  exact ⟨hin, hout, hlocal, hkernel⟩

theorem reads_eq (h : Explained units table n) (i : ι) : (n.units i).reads = (units i).reads := by
  obtain ⟨hin, -, hlocal, -⟩ := h.static i
  rw [WorkUnit.reads, WorkUnit.reads, hin, hlocal]

theorem writes_eq (h : Explained units table n) (i : ι) :
    (n.units i).writes = (units i).writes := by
  obtain ⟨-, hout, hlocal, -⟩ := h.static i
  rw [WorkUnit.writes, WorkUnit.writes, hout, hlocal]

/-- A local has the block of the last activation. -/
theorem available_local (h : Explained units table n) {c : NodeId} (hc : c ∈ (units i).locals)
    {ch : Channel α} (hch : n.table[c]? = some ch) (hlive : ch.Live) :
    ch.available = if (n.units i).activations = 0 then 0 else ch.block := by
  have hstream := (h.stream i c (List.mem_append_right _ hc)).2
  have hcount := h.count i c (List.mem_append_right _ hc)
  rw [ChannelTable.contentsOf_of_getElem? hch, WorkUnit.taken, (h.static i).2.2.1, if_pos hc]
    at hstream
  rw [← hlive.sound.length_contents, hstream]
  split
  · rename_i hfirst
    rw [hfirst] at hcount
    simp [List.length_eq_zero_iff.mp hcount]
  · rename_i hfirst
    -- all blocks but the last one were taken again
    obtain ⟨b, hb⟩ : ∃ b, (n.written c).drop ((n.units i).activations - 1) = [b] := by
      rw [← List.length_eq_one_iff, List.length_drop, hcount]
      omega
    have hmem : b ∈ n.written c := List.mem_of_mem_drop (hb ▸ List.mem_singleton_self b)
    rw [hb, List.flatten_singleton, h.size c b hmem, ← h.block,
      ChannelTable.blockOf_of_getElem? hch]

/-- A unit that has not exited fits its channels. -/
theorem operable (h : Explained units table n) (hs : Started units table)
    (hi : n.exited i = false) : (n.units i).Operable n.table := by
  obtain ⟨hin, hout, hlocal, hkernel⟩ := h.static i
  have hblock : n.table.blockOf = table.blockOf := funext h.block
  refine ⟨?_, ?_, ?_, ?_, ?_, ?_, ?_⟩
  · rw [h.reads_eq]
    exact hs.reads i
  · rw [h.writes_eq]
    exact hs.writes i
  · rw [h.reads_eq, h.writes_eq]
    exact h.live i
  · intro c hc
    rw [hlocal] at hc
    obtain ⟨ch, hch, hsteady⟩ := h.opened i hi c hc
    obtain ⟨ch', hch', hlive⟩ := h.live i c (List.mem_append_left _ (List.mem_append_right _ hc))
    cases hch.symm.trans hch'
    exact ⟨ch, hch, hsteady, h.available_local hc hch hlive⟩
  · rw [h.reads_eq, hblock]
    exact h.inBlocks i
  · rw [h.writes_eq, hblock]
    exact h.outBlocks i
  · rw [hkernel]
    exact hs.kernel i

theorem taken_input (h : Explained units table n) (hs : Started units table) {c : NodeId}
    (hc : c ∈ (units i).inputs) : (n.units i).taken c = (n.units i).activations := by
  rw [WorkUnit.taken, (h.static i).2.2.1, if_neg]
  exact List.disjoint_of_nodup_append (hs.reads i) hc

/-- What an activation has seen is in the log. -/
theorem lt_length_of_lt (h : Explained units table n) (hs : Started units table) {k : Nat}
    (hk : k < (n.units i).activations) :
    (∀ c ∈ (units i).inputs, k < (n.written c).length) ∧
      (0 < k → ∀ c ∈ (units i).locals, k - 1 < (n.written c).length) := by
  constructor
  · intro c hc
    have hstream := (h.stream i c (List.mem_append_left _ hc)).1
    rw [h.taken_input hs hc] at hstream
    exact hk.trans_le hstream
  · intro _ c hc
    rw [h.count i c (List.mem_append_right _ hc)]
    omega

/-- What a unit has become does not change as the log goes on. -/
theorem replay_of_growth (h : Explained units table n) (hs : Started units table)
    {log : NodeId → List (List α)} (hlog : ∀ c, n.written c <+: log c) {k : Nat}
    (hk : k ≤ (n.units i).activations) : (units i).replay log k = (units i).replay n.written k := by
  refine WorkUnit.replay_congr ?_
  intro j hj
  obtain ⟨hinputs, hlocals⟩ := h.lt_length_of_lt hs (hj.trans_le hk)
  exact WorkUnit.feed_of_growth hlog hinputs hlocals

/-- The next block of a channel is the next in the log that was not taken. -/
theorem head_eq (h : Explained units table n) {c : NodeId} (hc : c ∈ (units i).reads)
    (hholds : n.table.Holds c) :
    (n.units i).taken c < (n.written c).length ∧
      n.table.head c = (n.written c).getD ((n.units i).taken c) [] ∧
      (n.table.contentsOf c).drop (n.table.blockOf c) =
        ((n.written c).drop ((n.units i).taken c + 1)).flatten := by
  obtain ⟨ch, hch, hlive, hdata⟩ := hholds
  have hstream := (h.stream i c hc).2
  have hlong : ch.block ≤ (((n.written c).drop ((n.units i).taken c)).flatten).length := by
    rw [← hstream, ChannelTable.contentsOf_of_getElem? hch, hlive.sound.length_contents]
    exact hdata
  have hsize : ∀ b ∈ n.written c, b.length = ch.block := by
    intro b hb
    rw [h.size c b hb, ← h.block, ChannelTable.blockOf_of_getElem? hch]
  unfold ChannelTable.head
  rw [hstream, ChannelTable.blockOf_of_getElem? hch]
  exact take_flatten_drop hlive.sound.block_pos hsize hlong

section Firing

variable (h : Explained units table n) (hs : Started units table) (hi : n.exited i = false)
  (hready : (n.units i).readiness n.table = none)
include h hs hi hready

/-- The inputs are ahead of a unit that is ready. -/
theorem lt_length_of_ready :
    ∀ c ∈ (units i).inputs, (n.units i).activations < (n.written c).length := by
  intro c hc
  have hin : c ∈ (n.units i).inputs := by
    rw [(h.static i).1]
    exact hc
  have hholds := (h.operable hs hi).holds hready c (WorkUnit.mem_drained_of_mem_inputs hin)
  have hlt := (h.head_eq (List.mem_append_left _ hc) hholds).1
  rwa [h.taken_input hs hc] at hlt

/-- A kernel gets the blocks of its turn. -/
theorem gathered_eq :
    (n.units i).gathered n.table = (units i).feed n.written (n.units i).activations := by
  have hholds := (h.operable hs hi).holds hready
  obtain ⟨hin, -, hlocal, -⟩ := h.static i
  unfold WorkUnit.gathered WorkUnit.feed
  congr 1
  · rw [hin]
    refine List.map_congr_left fun c hc => ?_
    have hhead := (h.head_eq (List.mem_append_left _ hc)
      (hholds c (WorkUnit.mem_drained_of_mem_inputs (hin ▸ hc)))).2.1
    rwa [h.taken_input hs hc] at hhead
  · split
    · rename_i hfirst
      -- before the first activation the unit is as it was
      have hunit := h.unit i
      rw [hfirst] at hunit
      rw [show units i = n.units i from Except.ok.inj hunit]
    · rename_i hfirst
      rw [hlocal]
      refine List.map_congr_left fun c hc => ?_
      have hdrained : c ∈ (n.units i).drained := by
        rw [WorkUnit.drained, if_neg hfirst, h.reads_eq]
        exact List.mem_append_right _ hc
      have hhead := (h.head_eq (List.mem_append_right _ hc) (hholds c hdrained)).2.1
      rwa [WorkUnit.taken, hlocal, if_pos hc] at hhead

variable {f : Firing (σ i) α}

/-- The buffers keep their sizes. -/
theorem map_length_gathered :
    ((n.units i).gathered n.table).map List.length = (units i).reads.map table.blockOf := by
  rw [(h.operable hs hi).map_length_gathered hready, h.reads_eq, funext h.block]

end Firing

section Fired

variable [DecidableEq ι] {f : Firing (σ i) α} (h : Explained units table n)
  (hs : Started units table) (hi : n.exited i = false)
  (hready : (n.units i).readiness n.table = none)
  (hf : (n.units i).kernel (n.units i).state ((n.units i).gathered n.table) (n.units i).outBlocks =
    .ok f)

theorem units_fired_of_ne {j : ι} (hj : j ≠ i) : (n.fired i f).units j = n.units j :=
  Function.update_of_ne hj _ _

theorem units_fired :
    (n.fired i f).units i = (n.units i).after ((n.units i).gathered n.table) f :=
  Function.update_self ..

include h hs hi hf

omit [DecidableEq ι] in
/-- The kernel has made a block of the right size for every channel that the unit writes. -/
theorem map_length_outputs : f.outputs.map List.length = (units i).writes.map table.blockOf :=
  ((h.operable hs hi).kernel hf).trans (h.outBlocks i)

/-- What a run of the kernel adds to the log. -/
theorem written_fired (c : NodeId) :
    (n.fired i f).written c = n.written c ++
      (((units i).writes.zip f.outputs).lookup c).toList := by
  have hcount : (units i).writes.length ≤ f.outputs.length := by
    have hcount := congrArg List.length (h.map_length_outputs hs hi hf)
    rw [List.length_map, List.length_map] at hcount
    exact hcount.ge
  have hkeys : (((units i).writes.zip f.outputs).map Prod.fst).Nodup := by
    rw [List.map_fst_zip hcount]
    exact hs.writes i
  change n.written c ++ blocksTo ((n.units i).writes.zip f.outputs) c = _
  rw [h.writes_eq, blocksTo_eq_lookup hkeys]

theorem growth_fired (c : NodeId) : n.written c <+: (n.fired i f).written c := by
  rw [h.written_fired hs hi hf]
  exact List.prefix_append ..

theorem written_fired_of_notMem {c : NodeId} (hc : c ∉ (units i).writes) :
    (n.fired i f).written c = n.written c := by
  have hnone : ((units i).writes.zip f.outputs).lookup c = none := by
    cases hlookup : ((units i).writes.zip f.outputs).lookup c with
    | none => rfl
    | some b => exact absurd (mem_of_lookup_zip hlookup) hc
  rw [h.written_fired hs hi hf, hnone]
  exact List.append_nil _

theorem exists_written_fired {c : NodeId} (hc : c ∈ (units i).writes) :
    ∃ b, ((n.fired i f).units i).blockFor c = some b ∧ b.length = table.blockOf c ∧
      (n.fired i f).written c = n.written c ++ [b] := by
  have hlength := h.map_length_outputs hs hi hf
  have hcount : f.outputs.length = (units i).writes.length := by
    have hcount := congrArg List.length hlength
    rwa [List.length_map, List.length_map] at hcount
  obtain ⟨b, hb⟩ := exists_lookup_zip hcount hc
  refine ⟨b, ?_, length_of_lookup_zip hlength hb, ?_⟩
  · rw [units_fired]
    change ((n.units i).writes.zip f.outputs).lookup c = some b
    rw [h.writes_eq, hb]
  · rw [h.written_fired hs hi hf, hb]
    rfl

include hready

/-- The unit is what the log says. -/
theorem replay_fired :
    (units i).replay (n.fired i f).written ((n.units i).activations + 1) =
      .ok ((n.fired i f).units i) := by
  have hpast := h.replay_of_growth hs (h.growth_fired hs hi hf) (le_refl (n.units i).activations)
  have hfeed : (units i).feed (n.fired i f).written (n.units i).activations =
      (n.units i).gathered n.table := by
    rw [h.gathered_eq hs hi hready]
    refine WorkUnit.feed_of_growth (h.growth_fired hs hi hf) (h.lt_length_of_ready hs hi hready) ?_
    intro hk c hc
    rw [h.count i c (List.mem_append_right _ hc)]
    omega
  unfold WorkUnit.replay
  rw [hpast, h.unit i, hfeed, units_fired]
  change (n.units i).kernel _ _ _ >>= _ = _
  rw [hf]
  rfl

theorem channel_fired {c : NodeId} {ch : Channel α} (hch : n.table[c]? = some ch)
    (hlive : ch.Live) :
    ∃ ch', (n.fired i f).table[c]? = some ch' ∧ ch'.Live ∧ ch'.state = ch.state ∧
      ch'.block = ch.block ∧
      ch'.contents =
        (if c ∈ (n.units i).drained then ch.contents.drop ch.block else ch.contents) ++
          (((units i).writes.zip f.outputs).lookup c).getD [] := by
  have hop := h.operable hs hi
  have hlength : f.outputs.map List.length = (n.units i).writes.map n.table.blockOf :=
    (hop.kernel hf).trans hop.outBlocks
  rw [← h.writes_eq]
  exact hop.getElem?_fired hready hlength hch hlive

/-- The blocks in a channel are those of the log that were not taken. -/
theorem stream_fired {j : ι} {c : NodeId} (hc : c ∈ (units j).reads) :
    ((n.fired i f).units j).taken c ≤ ((n.fired i f).written c).length ∧
      (n.fired i f).table.contentsOf c =
        (((n.fired i f).written c).drop (((n.fired i f).units j).taken c)).flatten := by
  obtain ⟨ch, hch, hlive⟩ := h.live j c (List.mem_append_left _ hc)
  obtain ⟨ch', hch', -, -, -, hcontents⟩ := h.channel_fired hs hi hready hf hch hlive
  -- first what the reads leave, then the block that is put behind it
  obtain ⟨hle, hmid⟩ : ((n.fired i f).units j).taken c ≤ (n.written c).length ∧
      (if c ∈ (n.units i).drained then ch.contents.drop ch.block else ch.contents) =
        ((n.written c).drop (((n.fired i f).units j).taken c)).flatten := by
    by_cases hj : j = i
    · subst hj
      have hreads : c ∈ (n.units j).reads := by
        rw [h.reads_eq]
        exact hc
      rw [units_fired, WorkUnit.taken_after (h.operable hs hi).reads hreads]
      split
      · rename_i hdrained
        obtain ⟨hlt, -, hdrop⟩ :=
          h.head_eq hc ((h.operable hs hi).holds hready c hdrained)
        rw [ChannelTable.contentsOf_of_getElem? hch, ChannelTable.blockOf_of_getElem? hch] at hdrop
        exact ⟨hlt, hdrop⟩
      · rw [← ChannelTable.contentsOf_of_getElem? hch]
        exact h.stream j c hc
    · have hdrained : c ∉ (n.units i).drained := by
        intro hdrained
        have hreads := WorkUnit.mem_reads_of_mem_drained hdrained
        rw [h.reads_eq] at hreads
        exact hj (hs.reader hc hreads)
      rw [units_fired_of_ne hj, if_neg hdrained,
        ← ChannelTable.contentsOf_of_getElem? hch]
      exact h.stream j c hc
  rw [h.written_fired hs hi hf, ChannelTable.contentsOf_of_getElem? hch', hcontents, hmid]
  refine ⟨?_, ?_⟩
  · rw [List.length_append]
    exact Nat.le_add_right_of_le hle
  · rw [List.drop_append_of_le_length hle, List.flatten_append]
    cases ((units i).writes.zip f.outputs).lookup c <;> simp

/-- The log has the blocks that the replay makes. -/
theorem output_fired {j : ι} {c : NodeId} (hc : c ∈ (units j).writes) {k : Nat}
    (hk : k < ((n.fired i f).units j).activations) :
    ∃ u, (units j).replay (n.fired i f).written (k + 1) = .ok u ∧
      u.blockFor c = ((n.fired i f).written c)[k]? := by
  -- turns that are in the log already
  have hpast : k < (n.units j).activations → ∃ u,
      (units j).replay (n.fired i f).written (k + 1) = .ok u ∧
        u.blockFor c = ((n.fired i f).written c)[k]? := by
    intro hk
    obtain ⟨u, hu, hblock⟩ := h.output j c hc k hk
    have hlt : k < (n.written c).length := by
      rw [h.count j c hc]
      exact hk
    refine ⟨u, ?_, ?_⟩
    · rw [h.replay_of_growth hs (h.growth_fired hs hi hf) hk, hu]
    · rw [hblock, List.prefix_iff_getElem?.mp (h.growth_fired hs hi hf c) k hlt,
        List.getElem?_eq_getElem hlt]
  by_cases hj : j = i
  · subst hj
    rw [units_fired] at hk
    rcases Nat.lt_succ_iff_lt_or_eq.mp hk with hk | rfl
    · exact hpast hk
    · obtain ⟨b, hb, -, hwritten⟩ := h.exists_written_fired hs hi hf hc
      refine ⟨_, h.replay_fired hs hi hready hf, ?_⟩
      rw [hb, hwritten, ← h.count j c hc]
      simp
  · rw [units_fired_of_ne hj] at hk
    exact hpast hk

/-- A network stays in step with its log when a kernel runs. -/
theorem fired : Explained units table (n.fired i f) := by
  have hactive : ∀ j, ((n.fired i f).units j).activations =
      if j = i then (n.units j).activations + 1 else (n.units j).activations := by
    intro j
    by_cases hj : j = i
    · subst hj
      rw [units_fired, if_pos rfl]
      rfl
    · rw [units_fired_of_ne hj, if_neg hj]
  refine ⟨?_, ?_, ?_, ?_, ?_, ?_, ?_, ?_, ?_, ?_⟩
  · intro j c hc
    obtain ⟨ch, hch, hlive⟩ := h.live j c hc
    obtain ⟨ch', hch', hlive', -⟩ := h.channel_fired hs hi hready hf hch hlive
    exact ⟨ch', hch', hlive'⟩
  · intro c
    rw [← h.block c]
    exact ChannelTable.blockOf_putAll.trans ChannelTable.blockOf_popAll
  · intro j
    rw [hactive]
    by_cases hj : j = i
    · subst hj
      rw [if_pos rfl]
      exact h.replay_fired hs hi hready hf
    · rw [if_neg hj, h.replay_of_growth hs (h.growth_fired hs hi hf) le_rfl, h.unit j,
        units_fired_of_ne hj]
  · intro j c hc
    rw [hactive]
    by_cases hj : j = i
    · subst hj
      obtain ⟨b, -, -, hwritten⟩ := h.exists_written_fired hs hi hf hc
      rw [hwritten, if_pos rfl, List.length_append, h.count j c hc]
      rfl
    · rw [if_neg hj, h.written_fired_of_notMem hs hi hf fun hc' => hj (hs.writer hc hc')]
      exact h.count j c hc
  · intro j c hc k hk
    exact h.output_fired hs hi hready hf hc hk
  · intro c b hb
    by_cases hc : c ∈ (units i).writes
    · obtain ⟨b', -, hsize, hwritten⟩ := h.exists_written_fired hs hi hf hc
      rw [hwritten, List.mem_append, List.mem_singleton] at hb
      rcases hb with hb | rfl
      · exact h.size c b hb
      · exact hsize
    · rw [h.written_fired_of_notMem hs hi hf hc] at hb
      exact h.size c b hb
  · intro j c hc
    exact h.stream_fired hs hi hready hf hc
  · intro j hj c hc
    obtain ⟨ch, hch, hsteady⟩ := h.opened j hj c hc
    obtain ⟨ch₁, hch₁, hlive⟩ := h.live j c (List.mem_append_left _ (List.mem_append_right _ hc))
    cases hch.symm.trans hch₁
    obtain ⟨ch', hch', -, hstate, -⟩ := h.channel_fired hs hi hready hf hch hlive
    exact ⟨ch', hch', hstate.trans hsteady⟩
  · intro j
    by_cases hj : j = i
    · subst hj
      rw [units_fired]
      exact h.map_length_gathered hs hi hready
    · rw [units_fired_of_ne hj]
      exact h.inBlocks j
  · intro j
    by_cases hj : j = i
    · subst hj
      rw [units_fired]
      exact h.map_length_outputs hs hi hf
    · rw [units_fired_of_ne hj]
      exact h.outBlocks j

end Fired

/-- A network stays in step with its log when a unit closes its channels. -/
theorem stop [DecidableEq ι] (h : Explained units table n) (hs : Started units table) (i : ι) :
    Explained units table (n.stop i) := by
  refine ⟨?_, ?_, h.unit, h.count, h.output, h.size, ?_, ?_, h.inBlocks, h.outBlocks⟩
  · intro j c hc
    obtain ⟨ch, hch, hlive⟩ := h.live j c hc
    change ∃ ch, (n.table.closeAll _)[c]? = some ch ∧ ch.Live
    rw [ChannelTable.getElem?_closeAll, hch]
    split
    · exact ⟨_, rfl, hlive.close⟩
    · exact ⟨_, rfl, hlive⟩
  · intro c
    exact ChannelTable.blockOf_closeAll.trans (h.block c)
  · intro j c hc
    obtain ⟨hle, hstream⟩ := h.stream j c hc
    exact ⟨hle, ChannelTable.contentsOf_closeAll.trans hstream⟩
  · intro j hj c hc
    have hne : j ≠ i := by
      rintro rfl
      simp [Network.stop] at hj
    have hj : n.exited j = false := by
      simpa [Network.stop, hne] using hj
    obtain ⟨ch, hch, hsteady⟩ := h.opened j hj c hc
    -- both ends of a local are at one unit, so no other unit closes it
    have hnot : c ∉ (n.units i).outputs ++ (n.units i).inputs ++ (n.units i).locals := by
      obtain ⟨hin, hout, hlocal, -⟩ := h.static i
      rw [hin, hout, hlocal, List.mem_append, List.mem_append]
      rintro ((hc' | hc') | hc')
      · exact hne (hs.writer (List.mem_append_right _ hc) (List.mem_append_left _ hc'))
      · exact hne (hs.reader (List.mem_append_right _ hc) (List.mem_append_left _ hc'))
      · exact hne (hs.reader (List.mem_append_right _ hc) (List.mem_append_right _ hc'))
    change ∃ ch, (n.table.closeAll _)[c]? = some ch ∧ ch.state = .steady
    rw [ChannelTable.getElem?_closeAll, if_neg hnot]
    exact ⟨ch, hch, hsteady⟩

end Explained

variable {n' : Network ι σ α}

/-- What an attempt to activate a unit can do to a network. -/
theorem step_cases (h : Explained units table n) (hs : Started units table)
    (hstep : n.step i = .ok n') :
    n' = n ∨ n' = n.stop i ∨
    n.exited i = false ∧ (n.units i).readiness n.table = none ∧ ∃ f,
      (n.units i).kernel (n.units i).state ((n.units i).gathered n.table) (n.units i).outBlocks =
        .ok f ∧
      (n' = n.fired i f ∨ n' = (n.fired i f).stop i) := by
  unfold step at hstep
  cases hi : n.exited i with
  | true =>
      rw [hi] at hstep
      cases hstep
      exact .inl rfl
  | false =>
      simp only [hi, Bool.false_eq_true, if_false] at hstep
      rcases WorkUnit.tryActivate_cases (h.operable hs hi) with
        ⟨answer, -, hactivate, hsent⟩ | ⟨hready, ⟨trap, -, hactivate⟩ | ⟨f, hf, hactivate, hsent⟩⟩
      · rw [hactivate, hsent] at hstep
        cases hstep
        rw [advance_self]
        split
        · exact .inr (.inl rfl)
        · exact .inl rfl
      · rw [hactivate] at hstep
        cases hstep
      · rw [hactivate, hsent] at hstep
        cases hstep
        refine .inr (.inr ⟨rfl, hready, f, hf, ?_⟩)
        split
        · exact .inr rfl
        · exact .inl rfl

theorem explained_step (hs : Started units table) (h : Explained units table n)
    (hstep : n.step i = .ok n') : Explained units table n' := by
  obtain rfl | rfl | ⟨hi, hready, f, hf, rfl | rfl⟩ := step_cases h hs hstep
  · exact h
  · exact h.stop hs i
  · exact h.fired hs hi hready hf
  · exact (h.fired hs hi hready hf).stop hs i

/-- Every run keeps the network in step with its log. -/
theorem explained_run (hs : Started units table) {schedule : List ι} (h : Explained units table n)
    (hrun : n.run schedule = .ok n') : Explained units table n' :=
  run_invariant (explained_step hs) h hrun

/-- Only a kernel can trap. -/
theorem exists_step (hs : Started units table) (h : Explained units table n)
    (hkernel : ∀ s ins outs, ∃ f, (units i).kernel s ins outs = .ok f) :
    ∃ n', n.step i = .ok n' := by
  unfold step
  cases hi : n.exited i with
  | true => exact ⟨n, rfl⟩
  | false =>
      simp only [Bool.false_eq_true, if_false]
      rcases WorkUnit.tryActivate_cases (h.operable hs hi) with
        ⟨answer, -, hactivate, -⟩ | ⟨-, ⟨trap, htrap, -⟩ | ⟨f, -, hactivate, -⟩⟩
      · rw [hactivate]
        exact ⟨_, rfl⟩
      · rw [(h.static i).2.2.2] at htrap
        obtain ⟨f, hf⟩ := hkernel (n.units i).state ((n.units i).gathered n.table)
          (n.units i).outBlocks
        cases hf.symm.trans htrap
      · rw [hactivate]
        exact ⟨_, rfl⟩

/-- Every schedule has a run, unless a kernel traps. -/
theorem exists_run (hs : Started units table)
    (hkernel : ∀ i s ins outs, ∃ f, (units i).kernel s ins outs = .ok f) (schedule : List ι) :
    ∀ {n : Network ι σ α}, Explained units table n → ∃ n', n.run schedule = .ok n' := by
  induction schedule with
  | nil =>
      intro n _
      exact ⟨n, rfl⟩
  | cons i rest ih =>
      intro n h
      obtain ⟨mid, hmid⟩ := exists_step hs h (hkernel i)
      obtain ⟨n', hrest⟩ := ih (explained_step hs h hmid)
      refine ⟨n', ?_⟩
      unfold run
      rw [List.foldlM_cons, hmid]
      exact hrest

end Explanations

end Network

end Dataflow
