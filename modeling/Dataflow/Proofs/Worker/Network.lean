import Dataflow.Proofs.Trap
import Dataflow.Proofs.Worker.Activation
import Mathlib.Logic.Function.Basic

/-!
# Networks of units

Units that share a table of channels, activated one at a time in any order.  A unit that exits
closes its channels and is not activated any more.

**Log.**  A network remembers for each channel the blocks that were put into it so far
(`Network.written`).

**Replay.**  `WorkUnit.replay` runs the kernel of a unit on the blocks in a log, the n-th activation
on the n-th block of every input.  It looks at the turns in question only (`replay_congr`).
-/

namespace Dataflow

section Defs

variable {ι : Type} {σ : ι → Type} {α : Type}

/-- Units that share a table of channels. -/
structure Network (ι : Type) (σ : ι → Type) (α : Type) where
  units : (i : ι) → WorkUnit (σ i) α
  table : ChannelTable α
  exited : ι → Bool := fun _ => false
  /-- The blocks that were put into a channel so far. -/
  written : NodeId → List (List α) := fun _ => []

/-- Whether a unit has to stop. -/
def Activation.isExit : Activation → Bool
  | .exit _ => true
  | _ => false

/-- The blocks of a log that went into a channel. -/
def blocksTo (log : List (NodeId × List α)) (c : NodeId) : List (List α) :=
  (log.filter fun x => x.1 = c).map Prod.snd

namespace Network

variable [DecidableEq ι]

/-- Note what an activation of a unit has done. -/
def advance (n : Network ι σ α) (i : ι) (u : WorkUnit (σ i) α) (t : ChannelTable α)
    (log : List (NodeId × List α)) : Network ι σ α :=
  { n with
    units := Function.update n.units i u
    table := t
    written := fun c => n.written c ++ blocksTo log c }

/-- The network after a kernel has run. -/
def fired [Inhabited α] (n : Network ι σ α) (i : ι) (f : Firing (σ i) α) : Network ι σ α :=
  let u := n.units i
  n.advance i (u.after (u.gathered n.table) f)
    ((n.table.popAll u.drained).putAll (u.writes.zip f.outputs)) (u.writes.zip f.outputs)

/-- A unit closes its channels and stops. -/
def stop (n : Network ι σ α) (i : ι) : Network ι σ α :=
  { n with
    table := (n.units i).closeAll n.table
    exited := Function.update n.exited i true }

variable [Inhabited α]

/-- Attempt to activate a unit, unless it has exited. -/
def step (n : Network ι σ α) (i : ι) : Except Trap (Network ι σ α) :=
  if n.exited i then .ok n
  else do
    let (answer, u, t) ← (n.units i).tryActivate n.table
    let n' := n.advance i u t ((n.units i).sent n.table)
    return if answer.isExit then n'.stop i else n'

/-- Attempt to activate units one after the other. -/
def run (n : Network ι σ α) (schedule : List ι) : Except Trap (Network ι σ α) :=
  schedule.foldlM step n

end Network

namespace WorkUnit

variable {σ α : Type} [Inhabited α]

/-- The blocks of a log on which an activation runs the kernel, counted from zero.  A local gives
back the block of the activation before. -/
def feed (u : WorkUnit σ α) (log : NodeId → List (List α)) (k : Nat) : List (List α) :=
  u.inputs.map (fun c => (log c).getD k []) ++
    if k = 0 then u.rest else u.locals.map fun c => (log c).getD (k - 1) []

/-- What a unit becomes by some activations. -/
def replay (u : WorkUnit σ α) (log : NodeId → List (List α)) : Nat → Except Trap (WorkUnit σ α)
  | 0 => .ok u
  | k + 1 => do
      let v ← u.replay log k
      let f ← v.kernel v.state (u.feed log k) v.outBlocks
      return v.after (u.feed log k) f

/-- The block that a unit has for a channel. -/
def blockFor (u : WorkUnit σ α) (c : NodeId) : Option (List α) :=
  (u.writes.zip u.outBlocks).lookup c

/-- Blocks that a unit has taken from a channel that it reads. -/
def taken (u : WorkUnit σ α) (c : NodeId) : Nat :=
  if c ∈ u.locals then u.activations - 1 else u.activations

end WorkUnit

/-- Units that have started: every end of a channel belongs to one unit at most, the channels are
open and empty, and the units have not been activated yet. -/
structure Started (units : (i : ι) → WorkUnit (σ i) α) (table : ChannelTable α) : Prop where
  reads : ∀ i, (units i).reads.Nodup
  writes : ∀ i, (units i).writes.Nodup
  reader : ∀ {i j c}, c ∈ (units i).reads → c ∈ (units j).reads → i = j
  writer : ∀ {i j c}, c ∈ (units i).writes → c ∈ (units j).writes → i = j
  channel : ∀ i, ∀ c ∈ (units i).reads ++ (units i).writes, ∃ ch, table[c]? = some ch ∧ ch.Live ∧
    ch.state = .steady ∧ ch.available = 0
  inBlocks : ∀ i, (units i).inBlocks.map List.length = (units i).reads.map table.blockOf
  outBlocks : ∀ i, (units i).outBlocks.map List.length = (units i).writes.map table.blockOf
  kernel : ∀ i, ∀ {s ins outs f}, (units i).kernel s ins outs = .ok f →
    f.outputs.map List.length = outs.map List.length
  activations : ∀ i, (units i).activations = 0

end Defs

section Lists

variable {α : Type}

theorem blocksTo_eq_lookup {log : List (NodeId × List α)} (h : (log.map Prod.fst).Nodup)
    (c : NodeId) : blocksTo log c = (log.lookup c).toList := by
  induction log with
  | nil => rfl
  | cons x rest ih =>
      obtain ⟨d, b⟩ := x
      obtain ⟨hd, hrest⟩ := List.nodup_cons.mp h
      have ih := ih hrest
      unfold blocksTo at ih ⊢
      by_cases hdc : d = c
      · subst hdc
        have hnone : (rest.filter fun x => x.1 = d) = [] := by
          rw [List.filter_eq_nil_iff]
          intro y hy heq
          exact hd (List.mem_map.mpr ⟨y, hy, of_decide_eq_true heq⟩)
        simp [hnone]
      · have hne : (c == d) = false := beq_false_of_ne fun heq => hdc heq.symm
        simp [List.lookup_cons, hne, hdc, ih]

/-- The first of several blocks of the same size. -/
theorem take_flatten_drop {blocks : List (List α)} {size k : Nat} (hpos : 0 < size)
    (hsize : ∀ b ∈ blocks, b.length = size) (hlong : size ≤ ((blocks.drop k).flatten).length) :
    k < blocks.length ∧ ((blocks.drop k).flatten).take size = blocks.getD k [] ∧
      ((blocks.drop k).flatten).drop size = (blocks.drop (k + 1)).flatten := by
  have hk : k < blocks.length := by
    by_contra hk
    rw [List.drop_eq_nil_of_le (Nat.le_of_not_lt hk)] at hlong
    exact absurd hlong (Nat.not_le.mpr hpos)
  have hfirst : (blocks.drop k).flatten = blocks[k] ++ (blocks.drop (k + 1)).flatten := by
    rw [List.drop_eq_getElem_cons hk, List.flatten_cons]
  have hlength := hsize _ (List.getElem_mem hk)
  refine ⟨hk, ?_, ?_⟩
  · rw [hfirst, List.take_left' hlength]
    simp [hk]
  · rw [hfirst, List.drop_left' hlength]

end Lists

namespace WorkUnit

section Replay

variable {σ α : Type} [Inhabited α] {u v : WorkUnit σ α} {log log' : NodeId → List (List α)}
  {k : Nat}

/-- An activation changes the blocks and the state of a unit and counts up. -/
theorem replay_static (h : u.replay log k = .ok v) :
    v.inputs = u.inputs ∧ v.outputs = u.outputs ∧ v.locals = u.locals ∧ v.kernel = u.kernel ∧
      v.activations = u.activations + k := by
  induction k generalizing v with
  | zero =>
      cases h
      exact ⟨rfl, rfl, rfl, rfl, rfl⟩
  | succ k ih =>
      obtain ⟨w, hw, h⟩ := bind_eq_ok_iff.mp h
      obtain ⟨f, -, h⟩ := bind_eq_ok_iff.mp h
      cases h
      obtain ⟨hin, hout, hlocal, hkernel, hcount⟩ := ih hw
      exact ⟨hin, hout, hlocal, hkernel, congrArg Nat.succ hcount⟩

/-- A kernel sees the blocks of its turn only. -/
theorem feed_congr (hinputs : ∀ c ∈ u.inputs, (log c)[k]? = (log' c)[k]?)
    (hlocals : 0 < k → ∀ c ∈ u.locals, (log c)[k - 1]? = (log' c)[k - 1]?) :
    u.feed log k = u.feed log' k := by
  unfold feed
  congr 1
  · refine List.map_congr_left fun c hc => ?_
    rw [List.getD_eq_getElem?_getD, List.getD_eq_getElem?_getD, hinputs c hc]
  · split
    · rfl
    · rename_i hk
      refine List.map_congr_left fun c hc => ?_
      rw [List.getD_eq_getElem?_getD, List.getD_eq_getElem?_getD,
        hlocals (Nat.pos_of_ne_zero hk) c hc]

/-- A log that goes on says the same about turns that are in it. -/
theorem feed_of_growth (hlog : ∀ c, log c <+: log' c)
    (hinputs : ∀ c ∈ u.inputs, k < (log c).length)
    (hlocals : 0 < k → ∀ c ∈ u.locals, k - 1 < (log c).length) :
    u.feed log' k = u.feed log k := by
  have hsame : ∀ {c j}, j < (log c).length → (log' c)[j]? = (log c)[j]? := by
    intro c j hj
    rw [List.prefix_iff_getElem?.mp (hlog c) j hj, List.getElem?_eq_getElem hj]
  exact feed_congr (fun c hc => hsame (hinputs c hc)) fun hk c hc => hsame (hlocals hk c hc)

theorem replay_congr (h : ∀ j < k, u.feed log j = u.feed log' j) :
    u.replay log k = u.replay log' k := by
  induction k with
  | zero => rfl
  | succ k ih =>
      unfold replay
      rw [ih fun j hj => h j (Nat.lt_succ_of_lt hj), h k (Nat.lt_succ_self k)]

omit [Inhabited α] in
/-- An activation takes a block from a channel or leaves the count as it is. -/
theorem taken_after (hu : u.reads.Nodup) {c : NodeId} (hc : c ∈ u.reads) {ins : List (List α)}
    {f : Firing σ α} :
    (u.after ins f).taken c = if c ∈ u.drained then u.taken c + 1 else u.taken c := by
  have hdisjoint := List.disjoint_of_nodup_append hu
  unfold taken drained after
  rcases List.mem_append.mp hc with hin | hlocal
  · have hnot : c ∉ u.locals := hdisjoint hin
    by_cases hfirst : u.activations = 0 <;> simp [hfirst, hin, hnot, reads]
  · have hnot : c ∉ u.inputs := fun hin => hdisjoint hin hlocal
    by_cases hfirst : u.activations = 0
    · simp [hfirst, hlocal, hnot]
    · simp [hfirst, hlocal, reads]
      omega

end Replay

end WorkUnit

namespace Network

section Runs

variable {ι : Type} [DecidableEq ι] {σ : ι → Type} {α : Type} {n n' : Network ι σ α} {i : ι}

theorem advance_self : n.advance i (n.units i) n.table [] = n := by
  obtain ⟨units, table, exited, written⟩ := n
  simp [advance, blocksTo]

/-- What every step keeps, every run keeps. -/
theorem run_invariant [Inhabited α] {P : Network ι σ α → Prop}
    (hstep : ∀ {n n' i}, P n → n.step i = .ok n' → P n') {schedule : List ι} (h : P n)
    (hrun : n.run schedule = .ok n') : P n' := by
  unfold run at hrun
  exact @foldlM_invariant Trap ι (Network ι σ α) step (fun _ _ => P) hstep [] schedule n n' h hrun

end Runs

end Network

end Dataflow
