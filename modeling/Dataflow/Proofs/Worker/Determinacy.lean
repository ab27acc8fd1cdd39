import Dataflow.Proofs.Worker.Log

/-!
# Schedules do not matter

Two runs of one network, under any two schedules, put the same blocks into every channel, except
that one of them may be ahead of the other.

**Proof.**  The first run is followed step by step, the second is held fixed.  Say that a unit runs
its kernel for the k-th time, and that the second run has come that far too.  Both runs have put the
first k blocks into the inputs of the unit, and these are equal as long as the logs agree.  A unit
is what its replay says, so it makes the same block in both runs, and the logs agree again.

**Result.**  `written_comparable`, with `written_comparable_pipeline` for three units of which the
last one exits early.
-/

namespace Dataflow

section Agreement

variable {β : Type} {l m : List β}

/-- Two lists agree where both have a member. -/
def Agree (l m : List β) : Prop := ∀ k, k < l.length → k < m.length → l[k]? = m[k]?

/-- Of two lists that agree, one goes on where the other ends. -/
theorem Agree.comparable (h : Agree l m) : l <+: m ∨ m <+: l := by
  rcases Nat.le_total l.length m.length with hle | hle
  · refine .inl (List.prefix_iff_getElem?.mpr fun k hk => ?_)
    rw [← h k hk (hk.trans_le hle), List.getElem?_eq_getElem hk]
  · refine .inr (List.prefix_iff_getElem?.mpr fun k hk => ?_)
    rw [h k (hk.trans_le hle) hk, List.getElem?_eq_getElem hk]

end Agreement

namespace Network

section Runs

variable {ι : Type} [DecidableEq ι] {σ : ι → Type} {α : Type} [Inhabited α]
  {units : (i : ι) → WorkUnit (σ i) α} {table : ChannelTable α} {n n' m : Network ι σ α} {i : ι}

/-- A run of the kernel of a unit keeps the logs in agreement. -/
theorem agree_fired (hs : Started units table) (h : Explained units table n)
    (hm : Explained units table m) (hagree : ∀ c, Agree (n.written c) (m.written c))
    (hi : n.exited i = false) (hready : (n.units i).readiness n.table = none) {f : Firing (σ i) α}
    (hf : (n.units i).kernel (n.units i).state ((n.units i).gathered n.table)
      (n.units i).outBlocks =
      .ok f) (c : NodeId) :
    Agree ((n.fired i f).written c) (m.written c) := by
  -- what was in the log stays in it
  have hpast : ∀ {c k}, k < (n.written c).length → k < (m.written c).length →
      ((n.fired i f).written c)[k]? = (m.written c)[k]? := by
    intro c k hk hk'
    rw [← hagree c k hk hk', List.prefix_iff_getElem?.mp (h.growth_fired hs hi hf c) k hk,
      List.getElem?_eq_getElem hk]
  intro k hk hk'
  by_cases hc : c ∈ (units i).writes
  · obtain ⟨b, hb, -, hwritten⟩ := h.exists_written_fired hs hi hf hc
    have hcount := h.count i c hc
    rw [hwritten, List.length_append, List.length_singleton, hcount] at hk
    rcases Nat.lt_succ_iff_lt_or_eq.mp hk with hlt | rfl
    · exact hpast (hcount ▸ hlt) hk'
    · -- the block that is new in the first run is in the log of the second
      rw [hm.count i c hc] at hk'
      obtain ⟨u, hu, hblock⟩ := hm.output i c hc _ hk'
      have hfeeds : ∀ j < (n.units i).activations + 1,
          (units i).feed (n.fired i f).written j = (units i).feed m.written j := by
        intro j hj
        obtain ⟨hinputs, hlocals⟩ := hm.lt_length_of_lt hs (hj.trans_le hk')
        refine WorkUnit.feed_congr ?_ ?_
        · intro d hd
          exact hpast (hj.trans_le (h.lt_length_of_ready hs hi hready d hd)) (hinputs d hd)
        · intro hpos d hd
          refine hpast ?_ (hlocals hpos d hd)
          rw [h.count i d (List.mem_append_right _ hd)]
          omega
      have hsame := h.replay_fired hs hi hready hf
      rw [WorkUnit.replay_congr hfeeds, hu] at hsame
      rw [hwritten, ← hblock, Except.ok.inj hsame, hb, ← hcount]
      simp
  · rw [h.written_fired_of_notMem hs hi hf hc] at hk
    exact hpast hk hk'

/-- A step keeps the logs in agreement. -/
theorem agree_step (hs : Started units table) (h : Explained units table n)
    (hm : Explained units table m) (hagree : ∀ c, Agree (n.written c) (m.written c))
    (hstep : n.step i = .ok n') : ∀ c, Agree (n'.written c) (m.written c) := by
  obtain rfl | rfl | ⟨hi, hready, f, hf, rfl | rfl⟩ := step_cases h hs hstep
  · exact hagree
  · exact hagree
  · exact agree_fired hs h hm hagree hi hready hf
  · exact agree_fired hs h hm hagree hi hready hf

/-- Runs keep the logs in agreement. -/
theorem agree_run (hs : Started units table) (hm : Explained units table m) {schedule : List ι}
    (hrun : run { units, table } schedule = .ok n) : ∀ c, Agree (n.written c) (m.written c) := by
  have hstart : Explained units table { units, table } ∧
      ∀ c, Agree (({ units, table } : Network ι σ α).written c) (m.written c) := by
    refine ⟨explained_start hs, ?_⟩
    rintro c k ⟨⟩
  exact (run_invariant (P := fun n => Explained units table n ∧
    ∀ c, Agree (n.written c) (m.written c))
    (fun h hstep => ⟨explained_step hs h.1 hstep, agree_step hs h.1 hm h.2 hstep⟩) hstart hrun).2

/-- Every schedule has a run if the kernels always answer.  Under any two schedules that have one,
the blocks that are put into a channel in one run go on where those in the other end.  In a run, a
unit has put as many blocks into each channel that it writes as it was activated, and the blocks in
a channel that it reads are those that its later activations will take. -/
theorem written_comparable (hs : Started units table) (schedule₁ schedule₂ : List ι) :
    ((∀ i s ins outs, ∃ f, (units i).kernel s ins outs = .ok f) →
      ∃ n₁ n₂, run { units, table } schedule₁ = .ok n₁ ∧ run { units, table } schedule₂ = .ok n₂) ∧
    ∀ {n₁ n₂}, run { units, table } schedule₁ = .ok n₁ → run { units, table } schedule₂ = .ok n₂ →
      (∀ c, n₁.written c <+: n₂.written c ∨ n₂.written c <+: n₁.written c) ∧
        ∀ i, (∀ c ∈ (units i).writes, (n₁.written c).length = (n₁.units i).activations) ∧
          ∀ c ∈ (units i).inputs, n₁.table.contentsOf c =
            ((n₁.written c).drop (n₁.units i).activations).flatten := by
  constructor
  · intro hkernel
    obtain ⟨n₁, h₁⟩ := exists_run hs hkernel schedule₁ (explained_start hs)
    obtain ⟨n₂, h₂⟩ := exists_run hs hkernel schedule₂ (explained_start hs)
    exact ⟨n₁, n₂, h₁, h₂⟩
  · intro n₁ n₂ h₁ h₂
    have hn₁ := explained_run hs (explained_start hs) h₁
    have hn₂ := explained_run hs (explained_start hs) h₂
    refine ⟨?_, ?_⟩
    · intro c
      exact (agree_run hs hn₂ h₁ c).comparable
    · intro i
      refine ⟨hn₁.count i, ?_⟩
      intro c hc
      rw [← hn₁.taken_input hs hc]
      exact (hn₁.stream i c (List.mem_append_left _ hc)).2

end Runs

section Pipeline

/-- A kernel that adds its turn to the samples that it gets, and finishes in its turn `last`. -/
def adder (last : Nat) : Kernel Nat Nat := fun turn ins outs =>
  .ok {
    status := if turn = last then .finished else .proceed
    outputs := outs.map (List.map fun _ => turn + ins.flatten.sum)
    state := turn + 1 }

theorem map_length_adder {last turn : Nat} {ins outs : List (List Nat)} {f : Firing Nat Nat}
    (h : adder last turn ins outs = .ok f) : f.outputs.map List.length = outs.map List.length := by
  cases h
  rw [List.map_map]
  exact List.map_congr_left fun b _ => List.length_map _

/-- Two channels between three units, and a local of the second unit. -/
def pipelineChannels : ChannelTable Nat :=
  let channels : List (NodeId × Channel Nat) :=
    [(⟨0⟩, { name := "a", capacity := 2, block := 1 }),
      (⟨1⟩, { name := "b", capacity := 2, block := 1 }),
      (⟨2⟩, { name := "c", capacity := 3, block := 2 })]
  .ofList channels

/-- Three units in a row, of which the last one finishes in its second turn. -/
def pipeline : Fin 3 → WorkUnit Nat Nat
  | 0 => .create pipelineChannels ⟨0⟩ [] [⟨0⟩] [] (adder 3) 1
  | 1 => .create pipelineChannels ⟨1⟩ [⟨0⟩] [⟨1⟩] [⟨2⟩] (adder 9) 1
  | 2 => .create pipelineChannels ⟨2⟩ [⟨1⟩] [] [] (adder 2) 1

/-- The channels after all three units have started. -/
def pipelineTable : ChannelTable Nat :=
  (StartAction.performAll false ((List.ofFn pipeline).flatMap WorkUnit.openActions
    ++ (List.ofFn pipeline).flatMap WorkUnit.attachActions
    ++ (List.ofFn pipeline).flatMap WorkUnit.awaitActions) pipelineChannels).2

theorem started_pipeline : Started pipeline pipelineTable := by
  have hreader : ∀ i j : Fin 3, ∀ c ∈ (pipeline i).reads, c ∈ (pipeline j).reads → i = j := by
    decide
  have hwriter : ∀ i j : Fin 3, ∀ c ∈ (pipeline i).writes, c ∈ (pipeline j).writes → i = j := by
    decide
  have hfresh : ∀ i : Fin 3, ∀ c ∈ (pipeline i).reads ++ (pipeline i).writes,
      pipelineTable[c]?.any Channel.isFresh = true := by
    decide
  refine ⟨by decide, by decide, @fun i j c => hreader i j c, @fun i j c => hwriter i j c, ?_,
    by decide, by decide, ?_, by decide⟩
  · intro i c hc
    obtain ⟨ch, hch, hfresh⟩ := Option.any_eq_true _ _ |>.mp (hfresh i c hc)
    exact ⟨ch, hch, Channel.live_of_isFresh hfresh⟩
  · intro i s ins outs f hf
    match i with
    | 0 | 1 | 2 => exact map_length_adder hf

theorem exists_firing_pipeline (i : Fin 3) (s : Nat) (ins outs : List (List Nat)) :
    ∃ f, (pipeline i).kernel s ins outs = .ok f := by
  match i with
  | 0 | 1 | 2 => exact ⟨_, rfl⟩

/-- The last unit exits early, and in one of two runs the unit before it has made a third block by
then. -/
theorem written_comparable_pipeline :
    Started pipeline pipelineTable ∧
      (∀ i s ins outs, ∃ f, (pipeline i).kernel s ins outs = .ok f) ∧
      ∃ n₁ n₂, run { units := pipeline, table := pipelineTable } [0, 1, 2, 0, 1, 2, 0, 1] = .ok n₁ ∧
        run { units := pipeline, table := pipelineTable } [0, 0, 1, 1, 0, 2, 1, 2] = .ok n₂ ∧
        n₁.exited 1 = true ∧ (n₁.written ⟨1⟩).length = 2 ∧ (n₂.written ⟨1⟩).length = 3 ∧
        n₁.written ⟨1⟩ <+: n₂.written ⟨1⟩ := by
  obtain ⟨hruns, hcomparable⟩ := written_comparable started_pipeline [0, 1, 2, 0, 1, 2, 0, 1]
    [0, 0, 1, 1, 0, 2, 1, 2]
  obtain ⟨n₁, n₂, h₁, h₂⟩ := hruns exists_firing_pipeline
  obtain ⟨m₁, hm₁, htest₁⟩ := exists_of_toOption_any
    (x := run { units := pipeline, table := pipelineTable } [0, 1, 2, 0, 1, 2, 0, 1])
    (q := fun n => decide (n.exited 1 = true ∧ (n.written ⟨1⟩).length = 2)) (by decide +kernel)
  obtain ⟨m₂, hm₂, htest₂⟩ := exists_of_toOption_any
    (x := run { units := pipeline, table := pipelineTable } [0, 0, 1, 1, 0, 2, 1, 2])
    (q := fun n => decide ((n.written ⟨1⟩).length = 3)) (by decide +kernel)
  cases h₁.symm.trans hm₁
  cases h₂.symm.trans hm₂
  obtain ⟨hexit, hlength₁⟩ := of_decide_eq_true htest₁
  have hlength₂ := of_decide_eq_true htest₂
  refine ⟨started_pipeline, exists_firing_pipeline, n₁, n₂, h₁, h₂, hexit, hlength₁, hlength₂, ?_⟩
  rcases (hcomparable h₁ h₂).1 ⟨1⟩ with hle | hle
  · exact hle
  · have := hle.length_le
    omega

end Pipeline

end Network

end Dataflow
