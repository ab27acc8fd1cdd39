import Dataflow.Execution
import Dataflow.Proofs.Worker.Firing
import Dataflow.Proofs.Worker.Startup

/-!
# A unit among others

The thread of one unit, from the start of the unit on, and others that call at the other ends of its
inputs and outputs (`Workplace`).  Any order of their moves is a run.

**Record.**  The kernel of the unit keeps a record of its runs (`Kernel.recorded`), with the blocks
that it got and those that it made.

**Startup.**  By the steps that a unit has left one can tell what it knows of each of its channels
(`WorkUnit.Boarding`).  When none is left, the ring of every channel is there, and the locals are
open and empty, so that the unit fits its channels.

**Result.**  `activation_allOrNothing`: whatever the others do, every attempt to activate the unit
changes nothing or runs the kernel once, and the locals give back what the run before has made.
-/

namespace Dataflow

section Defs

variable {σ α : Type}

/-- A run of a kernel: the blocks that it got and those that it made. -/
structure KernelRun (α : Type) where
  ins : List (List α)
  outs : List (List α)

/-- A kernel that keeps a record of its runs. -/
def Kernel.recorded (k : Kernel σ α) : Kernel (σ × List (KernelRun α)) α := fun s ins outs => do
  let f ← k s.1 ins outs
  return { status := f.status, outputs := f.outputs, state := (f.state, s.2 ++ [⟨ins, f.outputs⟩]) }

/-- A unit whose kernel keeps a record of its runs. -/
def WorkUnit.recorded (u : WorkUnit σ α) : WorkUnit (σ × List (KernelRun α)) α :=
  { u with kernel := u.kernel.recorded, state := (u.state, []) }

/-- The call that a step of a startup makes. -/
def StartAction.toCall (cancelled : Bool) : StartAction → Call α
  | .openRing _ => .openRing
  | .attach _ => .attach cancelled
  | .await _ => .awaitAttached cancelled

/-- What happens next: the thread of the unit has a turn, or somebody else calls. -/
inductive Move (α : Type) where
  | turn (cancelled : Bool)
  | call (channel : NodeId) (call : Call α)

/-- Others are at the other ends of the inputs and the outputs of a unit, and have nothing to do
with its locals. -/
def Move.Outside (u : WorkUnit σ α) : Move α → Prop
  | .turn _ => True
  | .call c made => c ∉ u.locals ∧ (c ∈ u.inputs → made.ofWriter = true) ∧
      (c ∈ u.outputs → made.ofReader = true)

/-- The thread of a unit, and the channels that it shares with others. -/
structure Workplace (σ α : Type) where
  thread : UnitThread σ α
  table : ChannelTable α

namespace Workplace

/-- A unit that is about to start. -/
def start (u : WorkUnit σ α) (t : ChannelTable α) : Workplace σ α :=
  ⟨⟨u, .starting u.startActions⟩, t⟩

variable [Inhabited α]

/-- One move. -/
def step (w : Workplace σ α) : Move α → Workplace σ α
  | .turn cancelled =>
      let (_, thread, table) := w.thread.turn cancelled w.table
      { thread, table }
  | .call c call => { w with table := w.table.called c call }

/-- Moves one after the other. -/
def run (w : Workplace σ α) (moves : List (Move α)) : Workplace σ α := moves.foldl step w

end Workplace

namespace WorkUnit

/-- A unit that was not activated yet, with new channels: it has one, holds each at most once at
either end, and has buffers of the right sizes, which the kernel keeps. -/
structure Prepared (u : WorkUnit σ α) (t : ChannelTable α) : Prop where
  owns : u.reads ++ u.writes ≠ []
  reads : u.reads.Nodup
  writes : u.writes.Nodup
  channel : ∀ c ∈ u.reads ++ u.writes, ∃ ch name capacity block,
    t[c]? = some ch ∧ Channel.create name capacity block = .ok ch
  inBlocks : u.inBlocks.map List.length = u.reads.map t.blockOf
  outBlocks : u.outBlocks.map List.length = u.writes.map t.blockOf
  kernel : ∀ {s ins outs f}, u.kernel s ins outs = .ok f →
    f.outputs.map List.length = outs.map List.length
  activations : u.activations = 0

/-- The locals of a unit give back in a run of the kernel what the run before has made, and default
samples in the first one. -/
structure Delays [Inhabited α] (u : WorkUnit σ α) (t : ChannelTable α) (runs : List (KernelRun α)) :
    Prop where
  first : ∀ {run}, runs[0]? = some run →
    run.ins.drop u.inputs.length = u.locals.map fun c => List.replicate (t.blockOf c) default
  next : ∀ {k before run}, runs[k]? = some before → runs[k + 1]? = some run →
    run.ins.drop u.inputs.length = before.outs.drop u.outputs.length

variable {t : ChannelTable α}

/-- A unit that is made for new channels. -/
theorem prepared_create [Inhabited α] {partition : PartitionId}
    {inputs outputs locals : List NodeId} {kernel : Kernel σ α} {state : σ}
    (howns : inputs ++ outputs ++ locals ≠ []) (hreads : (inputs ++ locals).Nodup)
    (hwrites : (outputs ++ locals).Nodup)
    (hchannel : ∀ c ∈ inputs ++ outputs ++ locals, ∃ ch name capacity block,
      t[c]? = some ch ∧ Channel.create name capacity block = .ok ch)
    (hkernel : ∀ {s ins outs f}, kernel s ins outs = .ok f →
      f.outputs.map List.length = outs.map List.length) :
    (create t partition inputs outputs locals kernel state).Prepared t := by
  refine ⟨?_, hreads, hwrites, ?_, ?_, ?_, hkernel, rfl⟩
  · intro hnil
    refine howns ?_
    simp only [create, reads, writes, List.append_eq_nil_iff] at hnil ⊢
    exact ⟨⟨hnil.1.1, hnil.2.1⟩, hnil.2.2⟩
  · intro c hc
    refine hchannel c ?_
    simp only [create, reads, writes, List.mem_append] at hc ⊢
    grind
  · simp [create, reads, Function.comp_def]
  · simp [create, writes, Function.comp_def]

end WorkUnit

end Defs

/-- A step of a startup is a call on its channel. -/
theorem StartAction.perform_eq {α : Type} [Inhabited α] {a : StartAction} {ch : Channel α}
    {t : ChannelTable α} (hch : t[a.channel]? = some ch) (cancelled : Bool) :
    ∃ r, (ch.call (a.toCall cancelled)).1 = .meeting r ∧
      a.perform cancelled t = (r, t.called a.channel (a.toCall cancelled)) := by
  have hcalled : t.insert a.channel (ch.call (a.toCall cancelled)).2 =
      t.called a.channel (a.toCall cancelled) :=
    ChannelTable.insert_eq_change (f := fun ch => (ch.call (a.toCall cancelled)).2) hch
  rw [← hcalled]
  cases a with
  | openRing c =>
      have hch : t[c]? = some ch := hch
      exact ⟨_, rfl, by simp only [StartAction.perform, ChannelTable.call, hch]; rfl⟩
  | attach c =>
      have hch : t[c]? = some ch := hch
      exact ⟨_, rfl, by simp only [StartAction.perform, ChannelTable.call, hch]; rfl⟩
  | await c =>
      have hch : t[c]? = some ch := hch
      exact ⟨_, rfl, by simp only [StartAction.perform, ChannelTable.call, hch]; rfl⟩

namespace WorkUnit

section Starting

variable {σ α : Type} [Inhabited α] {u : WorkUnit σ α} {todo rest : List StartAction}
  {a : StartAction} {c : NodeId} {ch : Channel α}

/-- What a unit that starts up knows of a channel of its own, by the steps that it has left. -/
structure Boarding (u : WorkUnit σ α) (todo : List StartAction) (c : NodeId) (ch : Channel α) :
    Prop where
  kept : ch.Kept
  opened : c ∈ u.writes → .openRing c ∉ todo → ch.ring ≠ none
  alone : c ∈ u.reads → .attach c ∈ todo → ch.attached = .idle
  joined : c ∈ u.reads → .attach c ∉ todo → ch.ring ≠ none
  empty : c ∈ u.locals → ch.available = 0
  stage : c ∈ u.locals →
    .openRing c ∈ todo ∧ .attach c ∈ todo ∧ ch.state = .uninitialized ∧ ch.ready = .idle ∨
    .openRing c ∉ todo ∧ .attach c ∈ todo ∧ ch.state = .attaching ∨
    .openRing c ∉ todo ∧ .attach c ∉ todo ∧ ch.state = .steady

omit [Inhabited α] in
theorem boarding_start {name : String} {capacity block : Nat}
    (hch : Channel.create name capacity block = .ok ch) : u.Boarding u.startActions c ch := by
  obtain ⟨hkept, hstate, hready, hattached, havailable, -⟩ := Channel.kept_of_create hch
  have hopen : c ∈ u.writes → .openRing c ∈ u.startActions := fun h => mem_startActions.mpr h
  have hattach : c ∈ u.reads → .attach c ∈ u.startActions := fun h => mem_startActions.mpr h
  refine ⟨hkept, ?_, fun _ _ => hattached, ?_, fun _ => havailable, ?_⟩
  · intro hw hnot
    exact absurd (hopen hw) hnot
  · intro hr hnot
    exact absurd (hattach hr) hnot
  · intro hl
    exact .inl ⟨hopen (List.mem_append_right _ hl), hattach (List.mem_append_right _ hl),
      hstate, hready⟩

namespace Boarding

omit [Inhabited α] in
/-- A step about one channel leaves the others as they are. -/
theorem of_ne (h : u.Boarding (a :: rest) c ch) (hne : a.channel ≠ c) : u.Boarding rest c ch := by
  have hleft : ∀ {b : StartAction}, b.channel = c → (b ∈ rest ↔ b ∈ a :: rest) := by
    rintro b rfl
    rw [List.mem_cons, or_iff_right]
    rintro rfl
    exact hne rfl
  have hopen : .openRing c ∈ rest ↔ .openRing c ∈ a :: rest := hleft rfl
  have hattach : .attach c ∈ rest ↔ .attach c ∈ a :: rest := hleft rfl
  refine ⟨h.kept, ?_, ?_, ?_, h.empty, ?_⟩
  · rw [hopen]
    exact h.opened
  · rw [hattach]
    exact h.alone
  · rw [hattach]
    exact h.joined
  · rw [hopen, hattach]
    exact h.stage

/-- Calls at the other ends leave a unit in its place. -/
theorem call (h : u.Boarding todo c ch) {call : Call α} (hlocal : c ∉ u.locals)
    (hcall : c ∈ u.inputs → call.ofWriter = true) : u.Boarding todo c (ch.call call).2 := by
  have hcourse := ch.course_call call
  refine ⟨h.kept.call call, fun hw hnot => hcourse.stays (h.opened hw hnot), ?_,
    fun hr hnot => hcourse.stays (h.joined hr hnot), fun hl => absurd hl hlocal,
    fun hl => absurd hl hlocal⟩
  intro hr hleft
  exact Channel.attached_call (h.alone hr hleft)
    (hcall ((List.mem_append.mp hr).resolve_right hlocal))

/-- The writer has opened the channel. -/
theorem openRing (h : u.Boarding (.openRing c :: rest) c ch)
    (hnodup : (StartAction.openRing c :: rest).Nodup) (hok : ch.openRing.1 = .ok ()) :
    u.Boarding rest c ch.openRing.2 := by
  have hcourse : Channel.Course ch ch.openRing.2 := ch.course_call .openRing
  have hdone : .openRing c ∉ rest := (List.nodup_cons.mp hnodup).1
  have hattach : .attach c ∈ StartAction.openRing c :: rest ↔ .attach c ∈ rest := by simp
  refine ⟨h.kept.call .openRing, fun _ _ => h.kept.ring_openRing hok, ?_, ?_, ?_, ?_⟩
  · intro hr hleft
    have hwriter : (Call.openRing : Call α).ofWriter = true := rfl
    exact Channel.attached_call (h.alone hr (hattach.mpr hleft)) hwriter
  · intro hr hnot
    exact hcourse.stays (h.joined hr fun hin => hnot (hattach.mp hin))
  · intro hl
    exact (Channel.keeps_openRing h.kept.sound).available.trans (h.empty hl)
  · intro hl
    rcases h.stage hl with ⟨-, hleft, hstate, hready⟩ | ⟨hnot, -⟩ | ⟨hnot, -⟩
    · have halone := h.alone (List.mem_append_right _ hl) hleft
      have huntouched : ch.Untouched := ⟨hstate, hready, halone⟩
      rw [huntouched.openRing]
      exact .inr (.inl ⟨hdone, hattach.mp hleft, rfl⟩)
    · exact absurd List.mem_cons_self hnot
    · exact absurd List.mem_cons_self hnot

/-- The reader has attached. -/
theorem attach {cancelled : Bool} (h : u.Boarding (.attach c :: rest) c ch) (hc : c ∈ u.reads)
    (hnodup : (StartAction.attach c :: rest).Nodup) (hrounds : ∀ b ∈ rest, 1 ≤ b.round)
    (hok : (ch.attach cancelled).1 = some (.ok ())) :
    u.Boarding rest c (ch.attach cancelled).2 := by
  have hcourse : Channel.Course ch (ch.attach cancelled).2 := ch.course_call (.attach cancelled)
  have hdone : .attach c ∉ rest := (List.nodup_cons.mp hnodup).1
  -- a channel is opened in an earlier round
  have hopened : .openRing c ∉ rest :=
    fun hin => absurd (hrounds _ hin) (by simp [StartAction.round])
  obtain ⟨hraised, hsteady⟩ := Channel.of_attach_ok (h.alone hc List.mem_cons_self) hok
  have hring : ch.ring ≠ none := by
    intro hnone
    rcases h.kept.ring hnone with hready | hready <;> cases hraised.symm.trans hready
  refine ⟨h.kept.call (.attach cancelled), fun _ _ => hcourse.stays hring,
    fun _ hin => absurd hin hdone, fun _ _ => hcourse.stays hring, ?_,
    fun _ => .inr (.inr ⟨hopened, hdone, hsteady⟩)⟩
  intro hl
  exact (Channel.keeps_attach h.kept.sound cancelled).available.trans (h.empty hl)

/-- The writer knows that the reader has attached. -/
theorem await {cancelled : Bool} (h : u.Boarding (.await c :: rest) c ch)
    (hrounds : ∀ b ∈ rest, 2 ≤ b.round) : u.Boarding rest c (ch.awaitAttached cancelled).2 := by
  have hcourse : Channel.Course ch (ch.awaitAttached cancelled).2 :=
    ch.course_call (.awaitAttached cancelled)
  -- the other steps about the channel belong to earlier rounds
  have hopened : .openRing c ∉ rest :=
    fun hin => absurd (hrounds _ hin) (by simp [StartAction.round])
  have hattached : .attach c ∉ rest :=
    fun hin => absurd (hrounds _ hin) (by simp [StartAction.round])
  have hopened' : .openRing c ∉ StartAction.await c :: rest := by simpa using hopened
  have hattached' : .attach c ∉ StartAction.await c :: rest := by simpa using hattached
  refine ⟨h.kept.call (.awaitAttached cancelled), fun hw _ => hcourse.stays (h.opened hw hopened'),
    fun _ hin => absurd hin hattached, fun hr _ => hcourse.stays (h.joined hr hattached'), ?_, ?_⟩
  · intro hl
    exact (Channel.keeps_awaitAttached h.kept.sound cancelled).available.trans (h.empty hl)
  · intro hl
    rcases h.stage hl with ⟨hin, -⟩ | ⟨-, hin, -⟩ | ⟨-, -, hsteady⟩
    · exact absurd hin hopened'
    · exact absurd hin hattached'
    · refine .inr (.inr ⟨hopened, hattached, ?_⟩)
      rcases ch.awaitAttached_cases cancelled with heq | ⟨r, -, heq⟩ <;> rw [heq] <;> exact hsteady

/-- A step that was taken. -/
theorem step {cancelled : Bool} (h : u.Boarding (a :: rest) a.channel ch) (ha : a ∈ u.startActions)
    (hnodup : (a :: rest).Nodup) (hrounds : ∀ b ∈ rest, a.round ≤ b.round)
    (hok : (ch.call (a.toCall cancelled)).1 = .meeting (some (.ok ()))) :
    u.Boarding rest a.channel (ch.call (a.toCall cancelled)).2 := by
  cases a with
  | openRing c => exact h.openRing hnodup (Option.some.inj (Reply.meeting.inj hok))
  | attach c => exact h.attach (mem_startActions.mp ha) hnodup hrounds (Reply.meeting.inj hok)
  | await c => exact h.await hrounds

end Boarding

end Starting

end WorkUnit

section Records

variable {σ α : Type}

theorem Kernel.recorded_eq_ok_iff {k : Kernel σ α} {s : σ × List (KernelRun α)}
    {ins outs : List (List α)} {f : Firing (σ × List (KernelRun α)) α} :
    k.recorded s ins outs = .ok f ↔ ∃ g, k s.1 ins outs = .ok g ∧
      f = ⟨g.status, g.outputs, (g.state, s.2 ++ [⟨ins, g.outputs⟩])⟩ := by
  unfold Kernel.recorded
  cases k s.1 ins outs with
  | error trap => simp [bind, Except.bind]
  | ok g => simp [bind, Except.bind, pure, Except.pure, eq_comm]

theorem Kernel.recorded_eq_error_iff {k : Kernel σ α} {s : σ × List (KernelRun α)}
    {ins outs : List (List α)} {trap : Trap} :
    k.recorded s ins outs = .error trap ↔ k s.1 ins outs = .error trap := by
  unfold Kernel.recorded
  cases k s.1 ins outs with
  | error trap => simp [bind, Except.bind]
  | ok g => simp [bind, Except.bind, pure, Except.pure]

variable [Inhabited α] {u : WorkUnit σ α} {t : ChannelTable α}

/-- One more run, on what the last one has made. -/
theorem WorkUnit.Delays.append {runs : List (KernelRun α)} {new : KernelRun α} (h : u.Delays t runs)
    (hfirst : runs = [] → new.ins.drop u.inputs.length =
      u.locals.map fun c => List.replicate (t.blockOf c) default)
    (hnext : ∀ {last}, runs.getLast? = some last →
      new.ins.drop u.inputs.length = last.outs.drop u.outputs.length) :
    u.Delays t (runs ++ [new]) := by
  refine ⟨?_, ?_⟩
  · intro run hrun
    cases runs with
    | nil =>
        cases hrun
        exact hfirst rfl
    | cons first rest => exact h.first hrun
  · intro k before run hbefore hrun
    rw [List.getElem?_append] at hbefore hrun
    by_cases hk : k + 1 < runs.length
    · rw [if_pos hk] at hrun
      rw [if_pos (Nat.lt_of_succ_lt hk)] at hbefore
      exact h.next hbefore hrun
    · rw [if_neg hk] at hrun
      have hlast : k + 1 = runs.length := by
        have hlt := (List.getElem?_eq_some_iff.mp hrun).1
        rw [List.length_singleton] at hlt
        omega
      rw [if_pos (by omega)] at hbefore
      rw [hlast, Nat.sub_self] at hrun
      cases hrun
      refine hnext ?_
      rw [List.getLast?_eq_getElem?, ← hlast]
      exact hbefore

/-- A unit in the course of its life, with the record of the runs of its kernel. -/
structure WorkUnit.Records (u : WorkUnit σ α) (t : ChannelTable α)
    (v : WorkUnit (σ × List (KernelRun α)) α) : Prop where
  inputs : v.inputs = u.inputs
  outputs : v.outputs = u.outputs
  locals : v.locals = u.locals
  kernel : v.kernel = u.kernel.recorded
  count : v.state.2.length = v.activations
  delays : u.Delays t v.state.2

namespace WorkUnit.Records

variable {v : WorkUnit (σ × List (KernelRun α)) α}

theorem reads_eq (h : u.Records t v) : v.reads = u.reads := by
  rw [reads, reads, h.inputs, h.locals]

theorem writes_eq (h : u.Records t v) : v.writes = u.writes := by
  rw [writes, writes, h.outputs, h.locals]

theorem ready_iff (h : u.Records t v) (t' : ChannelTable α) : v.Ready t' ↔ u.Ready t' := by
  rw [Ready, Ready, h.inputs, h.outputs]

theorem take_gathered (h : u.Records t v) (t' : ChannelTable α) :
    (v.gathered t').take u.inputs.length = u.inputs.map t'.head := by
  unfold gathered
  rw [h.inputs]
  exact List.take_left' (List.length_map _)

end WorkUnit.Records

end Records

namespace UnitThread

variable {σ α : Type} [Inhabited α] {th : UnitThread σ α} {ch ch' : ChannelTable α}
  {u : WorkUnit σ α}

theorem turn_of_cancelled (h : th.phase = .running) :
    th.turn true ch = th.finish .cancelled ch := by
  simp only [turn, h, if_true]

theorem turn_of_trap {trap : Trap} (h : th.phase = .running)
    (hactivate : th.unit.tryActivate ch = .error trap) :
    th.turn false ch = (true, { th with phase := .trapped }, th.unit.drop ch) := by
  simp only [turn, h, Bool.false_eq_true, if_false, hactivate]

theorem turn_of_exit {reason : UnitExit} (h : th.phase = .running)
    (hactivate : th.unit.tryActivate ch = .ok (.exit reason, u, ch')) :
    th.turn false ch = finish { th with unit := u } reason ch' := by
  simp only [turn, h, Bool.false_eq_true, if_false, hactivate]

theorem turn_of_stay {answer : Activation} (h : th.phase = .running)
    (hactivate : th.unit.tryActivate ch = .ok (answer, u, ch'))
    (hstay : ∀ reason, answer ≠ .exit reason) :
    ∃ moved, th.turn false ch = (moved, { th with unit := u }, ch') := by
  cases answer with
  | fired => exact ⟨true, by simp only [turn, h, Bool.false_eq_true, if_false, hactivate]⟩
  | idle => exact ⟨false, by simp only [turn, h, Bool.false_eq_true, if_false, hactivate]⟩
  | exit reason => exact absurd rfl (hstay reason)

end UnitThread

section Places

variable {σ α : Type} [Inhabited α] {u : WorkUnit σ α} {t : ChannelTable α}
  {w : Workplace (σ × List (KernelRun α)) α}

/-- What holds all along a run of a unit among others. -/
structure Workplace.Manned (u : WorkUnit σ α) (t : ChannelTable α)
    (w : Workplace (σ × List (KernelRun α)) α) : Prop where
  records : u.Records t w.thread.unit
  blocks : w.thread.phase.isOver = false → ∀ c, w.table.blockOf c = t.blockOf c
  starting : ∀ {todo}, w.thread.phase = .starting todo →
    w.thread.unit = u.recorded ∧ todo <:+ u.startActions ∧
      ∀ c ∈ u.reads ++ u.writes, ∃ ch, w.table[c]? = some ch ∧ u.Boarding todo c ch
  running : w.thread.phase = .running → w.thread.unit.Operable w.table ∧
    ∀ {last}, w.thread.unit.state.2.getLast? = some last →
      u.locals.map w.table.head = last.outs.drop u.outputs.length

namespace Workplace

theorem step_turn {cancelled moved : Bool} {thread : UnitThread (σ × List (KernelRun α)) α}
    {table : ChannelTable α} (h : w.thread.turn cancelled w.table = (moved, thread, table)) :
    w.step (.turn cancelled) = ⟨thread, table⟩ := by
  simp only [step, h]

theorem manned_start (h : u.Prepared t) : Manned u t (start u.recorded t) := by
  refine ⟨⟨rfl, rfl, rfl, rfl, h.activations.symm, ⟨?_, ?_⟩⟩, fun _ _ => rfl, ?_, ?_⟩
  · rintro run ⟨⟩
  · rintro k before run ⟨⟩
  · rintro todo ⟨⟩
    refine ⟨rfl, List.suffix_rfl, ?_⟩
    intro c hc
    obtain ⟨ch, name, capacity, block, hch, hnew⟩ := h.channel c hc
    exact ⟨ch, hch, WorkUnit.boarding_start hnew⟩
  · rintro ⟨⟩

/-- A unit whose thread is over has nothing to do with the channels any more. -/
theorem Manned.of_over (hrecords : u.Records t w.thread.unit)
    (hover : w.thread.phase.isOver = true) : Manned u t w := by
  refine ⟨hrecords, ?_, ?_, ?_⟩
  · rw [hover]
    rintro ⟨⟩
  · intro todo htodo
    rw [htodo] at hover
    cases hover
  · intro hrunning
    rw [hrunning] at hover
    cases hover

/-- A unit that has taken all steps of its startup fits its channels. -/
theorem Manned.operable (hu : u.Prepared t) (h : Manned u t w)
    (hphase : w.thread.phase = .starting []) : w.thread.unit.Operable w.table := by
  obtain ⟨hunit, -, hchannels⟩ := h.starting hphase
  have hblocks : w.table.blockOf = t.blockOf := funext (h.blocks (by rw [hphase]; rfl))
  rw [hunit]
  refine ⟨hu.reads, hu.writes, ?_, ?_, ?_, ?_, ?_⟩
  · intro c hc
    obtain ⟨ch, hch, hboard⟩ := hchannels c hc
    refine ⟨ch, hch, hboard.kept.live ?_⟩
    rcases List.mem_append.mp hc with hr | hw
    · exact hboard.joined hr List.not_mem_nil
    · exact hboard.opened hw List.not_mem_nil
  · intro c hc
    obtain ⟨ch, hch, hboard⟩ := hchannels c (List.mem_append_left _ (List.mem_append_right _ hc))
    refine ⟨ch, hch, ?_, ?_⟩
    · rcases hboard.stage hc with ⟨hin, -⟩ | ⟨-, hin, -⟩ | ⟨-, -, hsteady⟩
      · cases hin
      · cases hin
      · exact hsteady
    · rw [hboard.empty hc]
      exact (if_pos hu.activations).symm
  · rw [hblocks]
    exact hu.inBlocks
  · rw [hblocks]
    exact hu.outBlocks
  · intro s ins outs f hf
    obtain ⟨g, hg, rfl⟩ := Kernel.recorded_eq_ok_iff.mp hf
    exact hu.kernel hg

namespace Manned

/-- Calls at the other ends leave a unit in its place. -/
theorem call (h : Manned u t w) {c : NodeId} {call : Call α}
    (houtside : (Move.call c call).Outside u) : Manned u t (w.step (.call c call)) := by
  obtain ⟨hlocal, hwriter, -⟩ := houtside
  refine ⟨h.records, ?_, ?_, ?_⟩
  · intro hover d
    exact ChannelTable.blockOf_called.trans (h.blocks hover d)
  · intro todo htodo
    obtain ⟨hunit, hsuffix, hchannels⟩ := h.starting htodo
    refine ⟨hunit, hsuffix, ?_⟩
    intro d hd
    obtain ⟨ch, hch, hboard⟩ := hchannels d hd
    by_cases heq : c = d
    · subst heq
      exact ⟨_, ChannelTable.getElem?_called_self hch, hboard.call hlocal hwriter⟩
    · exact ⟨ch, (ChannelTable.getElem?_called_of_ne heq).trans hch, hboard⟩
  · intro hrunning
    obtain ⟨hoperable, hheads⟩ := h.running hrunning
    refine ⟨hoperable.called (h.records.locals ▸ hlocal), ?_⟩
    intro last hlast
    rw [← hheads hlast]
    refine List.map_congr_left fun d hd => ChannelTable.head_change_of_ne ?_
    rintro rfl
    exact hlocal hd

/-- A step of the startup. -/
theorem turn_starting (hu : u.Prepared t) (h : Manned u t w) {a : StartAction}
    {rest : List StartAction} (hphase : w.thread.phase = .starting (a :: rest)) (cancelled : Bool) :
    Manned u t (w.step (.turn cancelled)) := by
  obtain ⟨hunit, hsuffix, hchannels⟩ := h.starting hphase
  have ha : a ∈ u.startActions := hsuffix.subset List.mem_cons_self
  have hblocks := h.blocks (by rw [hphase]; rfl)
  have hnodup := (WorkUnit.nodup_startActions hu.writes hu.reads).sublist hsuffix.sublist
  have hrounds :=
    List.pairwise_cons.mp (WorkUnit.pairwise_round_startActions.sublist hsuffix.sublist)
  have hown : a.channel ∈ u.reads ++ u.writes := by
    have hin := WorkUnit.mem_startActions.mp ha
    split at hin
    · exact List.mem_append_left _ hin
    · exact List.mem_append_right _ hin
  obtain ⟨ch, hch, hboard⟩ := hchannels _ hown
  obtain ⟨r, hreply, hperform⟩ := StartAction.perform_eq hch cancelled
  have hother : ∀ {d}, a.channel ≠ d →
      (w.table.called a.channel (a.toCall cancelled))[d]? = w.table[d]? :=
    ChannelTable.getElem?_called_of_ne
  have hself : (w.table.called a.channel (a.toCall cancelled))[a.channel]? =
      some (ch.call (a.toCall cancelled)).2 := ChannelTable.getElem?_called_self hch
  rcases r with _ | e | ⟨⟩
  · have hturn : w.thread.turn cancelled w.table =
        (false, w.thread, w.table.called a.channel (a.toCall cancelled)) := by
      simp only [UnitThread.turn, hphase, hperform]
    rw [step_turn hturn]
    rw [Channel.call_of_waits hreply] at hself
    refine ⟨h.records, fun _ c => ChannelTable.blockOf_called.trans (hblocks c), ?_, ?_⟩
    · intro todo htodo
      cases hphase.symm.trans htodo
      refine ⟨hunit, hsuffix, ?_⟩
      intro d hd
      by_cases heq : a.channel = d
      · subst heq
        exact ⟨ch, hself, hboard⟩
      · obtain ⟨old, hold, hboard⟩ := hchannels d hd
        exact ⟨old, (hother heq).trans hold, hboard⟩
    · intro hrunning
      cases hphase.symm.trans hrunning
  · have hturn : w.thread.turn cancelled w.table = w.thread.finish (WorkUnit.startExit a e)
        (w.table.called a.channel (a.toCall cancelled)) := by
      simp only [UnitThread.turn, hphase, hperform]
    rw [step_turn hturn]
    exact of_over h.records rfl
  · have hturn : w.thread.turn cancelled w.table =
        (true, { w.thread with phase := .starting rest },
          w.table.called a.channel (a.toCall cancelled)) := by
      simp only [UnitThread.turn, hphase, hperform]
    rw [step_turn hturn]
    refine ⟨h.records, fun _ c => ChannelTable.blockOf_called.trans (hblocks c), ?_, ?_⟩
    · rintro todo ⟨⟩
      refine ⟨hunit, (List.suffix_cons a rest).trans hsuffix, ?_⟩
      intro d hd
      by_cases heq : a.channel = d
      · subst heq
        exact ⟨_, hself, hboard.step ha hnodup hrounds.1 hreply⟩
      · obtain ⟨old, hold, hboard⟩ := hchannels d hd
        exact ⟨old, (hother heq).trans hold, hboard.of_ne heq⟩
    · rintro ⟨⟩

/-- A run of the kernel on the blocks that the unit has gathered goes to the record. -/
theorem records_after (h : Manned u t w) (hphase : w.thread.phase = .running)
    {f : Firing (σ × List (KernelRun α)) α}
    (hf : w.thread.unit.kernel w.thread.unit.state (w.thread.unit.gathered w.table)
      w.thread.unit.outBlocks = .ok f) :
    u.Records t (w.thread.unit.after (w.thread.unit.gathered w.table) f) := by
  obtain ⟨hoperable, hheads⟩ := h.running hphase
  have hr := h.records
  rw [hr.kernel] at hf
  obtain ⟨g, hg, rfl⟩ := Kernel.recorded_eq_ok_iff.mp hf
  have hdrop : (w.thread.unit.gathered w.table).drop u.inputs.length =
      if w.thread.unit.activations = 0 then w.thread.unit.rest else u.locals.map w.table.head := by
    unfold WorkUnit.gathered
    rw [hr.inputs, hr.locals]
    exact List.drop_left' (List.length_map _)
  refine ⟨hr.inputs, hr.outputs, hr.locals, hr.kernel, ?_, hr.delays.append ?_ ?_⟩
  · show (_ ++ [_]).length = w.thread.unit.activations + 1
    rw [List.length_append, hr.count]
    rfl
  · intro hnone
    have hfirst : w.thread.unit.activations = 0 := by
      rw [← hr.count, hnone]
      rfl
    rw [hdrop, if_pos hfirst, hoperable.rest_eq, hr.locals, funext (h.blocks (by rw [hphase]; rfl))]
  · intro last hlast
    have hlater : w.thread.unit.activations ≠ 0 := by
      rw [← hr.count]
      intro hzero
      rw [List.length_eq_zero_iff.mp hzero] at hlast
      cases hlast
    rw [hdrop, if_neg hlater]
    exact hheads hlast

/-- The unit after a run of its kernel. -/
theorem fired (h : Manned u t w) (hphase : w.thread.phase = .running)
    (hready : w.thread.unit.readiness w.table = none) {f : Firing (σ × List (KernelRun α)) α}
    (hf : w.thread.unit.kernel w.thread.unit.state (w.thread.unit.gathered w.table)
      w.thread.unit.outBlocks = .ok f) :
    Manned u t ⟨{ w.thread with unit := w.thread.unit.after (w.thread.unit.gathered w.table) f },
      w.thread.unit.firedTable w.table f⟩ := by
  obtain ⟨hoperable, -⟩ := h.running hphase
  have hblocks := h.blocks (by rw [hphase]; rfl)
  have hr := h.records
  refine ⟨h.records_after hphase hf, ?_, ?_, ?_⟩
  · intro _ c
    exact (ChannelTable.blockOf_putAll.trans ChannelTable.blockOf_popAll).trans (hblocks c)
  · intro todo htodo
    cases hphase.symm.trans htodo
  · intro _
    refine ⟨hoperable.fired hready hf, ?_⟩
    intro last hlast
    rw [hr.kernel] at hf
    obtain ⟨g, hg, rfl⟩ := Kernel.recorded_eq_ok_iff.mp hf
    have hlast : (w.thread.unit.state.2 ++
        [KernelRun.mk (w.thread.unit.gathered w.table) g.outputs]).getLast? = some last := hlast
    rw [List.getLast?_concat] at hlast
    cases hlast
    rw [← hr.kernel] at hf
    have hlocals := hoperable.map_head_locals hready hf
    rw [hr.locals, hr.outputs] at hlocals
    exact hlocals

/-- An attempt to activate the unit. -/
theorem turn_running (h : Manned u t w) (hphase : w.thread.phase = .running) (cancelled : Bool) :
    Manned u t (w.step (.turn cancelled)) := by
  cases cancelled with
  | true =>
      rw [step_turn (UnitThread.turn_of_cancelled hphase)]
      exact of_over h.records rfl
  | false =>
      rcases WorkUnit.tryActivate_cases (h.running hphase).1 with
        ⟨answer, -, hactivate, -⟩ | ⟨hready, ⟨trap, -, hactivate⟩ | ⟨f, hf, hactivate, -⟩⟩
      · by_cases hstay : ∀ reason, answer ≠ .exit reason
        · obtain ⟨moved, hturn⟩ := UnitThread.turn_of_stay hphase hactivate hstay
          rw [step_turn hturn]
          exact h
        · simp only [not_forall, not_not] at hstay
          obtain ⟨reason, rfl⟩ := hstay
          rw [step_turn (UnitThread.turn_of_exit hphase hactivate)]
          exact of_over h.records rfl
      · rw [step_turn (UnitThread.turn_of_trap hphase hactivate)]
        exact of_over h.records rfl
      · have hfired := h.fired hphase hready hf
        cases hstatus : f.status with
        | proceed =>
            rw [hstatus] at hactivate
            obtain ⟨moved, hturn⟩ :=
              UnitThread.turn_of_stay hphase hactivate (by simp [WorkUnit.answer])
            rw [step_turn hturn]
            exact hfired
        | finished =>
            rw [hstatus] at hactivate
            rw [step_turn (UnitThread.turn_of_exit hphase hactivate)]
            exact of_over hfired.records rfl

/-- Whatever happens, the unit stays in its place. -/
theorem step (hu : u.Prepared t) (h : Manned u t w) {m : Move α} (hm : m.Outside u) :
    Manned u t (w.step m) := by
  cases m with
  | call c made => exact h.call hm
  | turn cancelled =>
      cases hphase : w.thread.phase with
      | starting todo =>
          cases todo with
          | nil =>
              have hturn : w.thread.turn cancelled w.table =
                  (true, { w.thread with phase := .running }, w.table) := by
                simp only [UnitThread.turn, hphase]
              rw [step_turn hturn]
              obtain ⟨hunit, -⟩ := h.starting hphase
              have hoperable := h.operable hu hphase
              refine ⟨h.records, fun _ => h.blocks (by rw [hphase]; rfl), ?_, ?_⟩
              · rintro todo ⟨⟩
              · intro _
                refine ⟨hoperable, ?_⟩
                intro last hlast
                rw [hunit] at hlast
                cases hlast
          | cons a rest => exact h.turn_starting hu hphase cancelled
      | running => exact h.turn_running hphase cancelled
      | exited reason =>
          have hturn : w.thread.turn cancelled w.table = (false, w.thread, w.table) := by
            simp only [UnitThread.turn, hphase]
          rw [step_turn hturn]
          exact h
      | trapped =>
          have hturn : w.thread.turn cancelled w.table = (false, w.thread, w.table) := by
            simp only [UnitThread.turn, hphase]
          rw [step_turn hturn]
          exact h

theorem run (hu : u.Prepared t) {moves : List (Move α)} (hmoves : ∀ m ∈ moves, m.Outside u)
    (h : Manned u t w) : Manned u t (w.run moves) := by
  induction moves generalizing w with
  | nil => exact h
  | cons m rest ih =>
      exact ih (fun m' hm' => hmoves m' (List.mem_cons_of_mem _ hm'))
        (h.step hu (hmoves m List.mem_cons_self))

end Manned

end Workplace

/-- What an activation does when it runs the kernel: it takes a block from every channel
that the unit reads, the kernel runs once on them, and a block goes into every channel that
the unit writes. -/
structure WorkUnit.FiresOnce (u : WorkUnit σ α) (v : WorkUnit (σ × List (KernelRun α)) α)
    (t : ChannelTable α) (ins : List (List α)) (f : Firing σ α)
    (v' : WorkUnit (σ × List (KernelRun α)) α) (t' : ChannelTable α) : Prop where
  inputs : ins.take u.inputs.length = u.inputs.map t.head
  sizes : ins.map List.length = u.reads.map t.blockOf
  kernel : u.kernel v.state.1 ins v.outBlocks = .ok f
  record : v'.state = (f.state, v.state.2 ++ [⟨ins, f.outputs⟩])
  activations : v'.activations = v.activations + 1
  outputs : f.outputs.map List.length = u.writes.map t.blockOf
  contents : ∀ c, t'.contentsOf c =
    (if c ∈ u.reads then (t.contentsOf c).drop (t.blockOf c) else t.contentsOf c) ++
      ((u.writes.zip f.outputs).lookup c).getD []

/-- An attempt to activate a unit that is ready runs the kernel, which traps or runs once. -/
theorem WorkUnit.Records.tryActivate_of_ready {v : WorkUnit (σ × List (KernelRun α)) α}
    {t' : ChannelTable α} (h : u.Records t v) (hoperable : v.Operable t')
    (hready : v.readiness t' = none) :
    (∃ ins trap, ins.take u.inputs.length = u.inputs.map t'.head ∧
      u.kernel v.state.1 ins v.outBlocks = .error trap ∧ v.tryActivate t' = .error trap) ∨
    ∃ ins f v' t'', v.tryActivate t' = .ok (answer f.status, v', t'') ∧
      u.FiresOnce v t' ins f v' t'' := by
  have hinputs := h.take_gathered t'
  rcases tryActivate_cases hoperable with
    ⟨answer, hsome, -⟩ | ⟨-, ⟨trap, htrap, hactivate⟩ | ⟨f, hf, hactivate, -⟩⟩
  · cases hready.symm.trans hsome
  · rw [h.kernel, Kernel.recorded_eq_error_iff] at htrap
    exact .inl ⟨_, trap, hinputs, htrap, hactivate⟩
  · have hsizes := hoperable.map_length_gathered hready
    have houtputs := hoperable.map_length_outputs hf
    have hcontents := hoperable.contentsOf_fired hready hf
    rw [h.reads_eq] at hsizes
    rw [h.writes_eq] at houtputs
    rw [h.reads_eq, h.writes_eq] at hcontents
    rw [h.kernel] at hf
    obtain ⟨g, hg, rfl⟩ := Kernel.recorded_eq_ok_iff.mp hf
    exact .inr ⟨_, g, _, _, hactivate, hinputs, hsizes, hg, rfl, rfl, houtputs, hcontents⟩

/-- Whatever the others do, an attempt to activate a unit that has started is all or nothing.  If
not every output has room or not every input has a block, the attempt answers that it is idle or
that a neighbour is gone, and changes nothing.  Otherwise the kernel runs, and unless it traps it
runs once: on a block of every input, for a block of every output and local, and the answer is what
it says.  The record of its runs has one for each activation, and in each of them the locals gave
back what the run before had made. -/
theorem activation_allOrNothing (hu : u.Prepared t) {moves : List (Move α)}
    (hmoves : ∀ m ∈ moves, m.Outside u) (hw : (Workplace.start u.recorded t).run moves = w) :
    w.thread.unit.state.2.length = w.thread.unit.activations ∧
    u.Delays t w.thread.unit.state.2 ∧
    (w.thread.phase = .running →
      (¬ u.Ready w.table → ∃ answer, w.thread.unit.tryActivate w.table =
        .ok (answer, w.thread.unit, w.table) ∧
        (answer = .idle ∨ answer = .exit .endOfStream ∨ answer = .exit .downstreamClosed)) ∧
      (u.Ready w.table →
        (∃ ins trap, ins.take u.inputs.length = u.inputs.map w.table.head ∧
          u.kernel w.thread.unit.state.1 ins w.thread.unit.outBlocks = .error trap ∧
          w.thread.unit.tryActivate w.table = .error trap) ∨
        ∃ ins f v' t', w.thread.unit.tryActivate w.table = .ok (WorkUnit.answer f.status, v', t') ∧
          u.FiresOnce w.thread.unit w.table ins f v' t')) := by
  subst hw
  have h := (Workplace.manned_start hu).run hu hmoves
  generalize (Workplace.start u.recorded t).run moves = w at h
  have hr := h.records
  refine ⟨hr.count, hr.delays, ?_⟩
  intro hphase
  obtain ⟨hoperable, -⟩ := h.running hphase
  have howns : w.thread.unit.reads ++ w.thread.unit.writes ≠ [] := by
    rw [hr.reads_eq, hr.writes_eq]
    exact hu.owns
  rw [← hr.ready_iff w.table]
  refine ⟨hoperable.tryActivate_of_not_ready howns, ?_⟩
  intro hready
  exact hr.tryActivate_of_ready hoperable (WorkUnit.readiness_of_ready howns hready)

end Places

section Summing

/-- A kernel that puts the sum of all that it gets into every channel. -/
def summing : Kernel Unit Nat := fun _ ins outs =>
  .ok ⟨.proceed, outs.map (List.map fun _ => ins.flatten.sum), ()⟩

/-- An input, an output and a local. -/
def summingTable : ChannelTable Nat :=
  let channels : List (NodeId × Channel Nat) :=
    [(⟨0⟩, { name := "in", capacity := 2, block := 1 }),
      (⟨1⟩, { name := "out", capacity := 2, block := 1 }),
      (⟨2⟩, { name := "own", capacity := 1, block := 1 })]
  .ofList channels

/-- A unit that keeps the sum of all that it has read in its local. -/
def summingUnit : WorkUnit Unit Nat := .create summingTable ⟨0⟩ [⟨0⟩] [⟨1⟩] [⟨2⟩] summing ()

theorem prepared_summingUnit : summingUnit.Prepared summingTable := by
  refine WorkUnit.prepared_create (by decide) (by decide) (by decide) ?_ ?_
  · intro c hc
    simp only [List.append_assoc, List.mem_append, List.mem_singleton] at hc
    rcases hc with rfl | rfl | rfl
    · exact ⟨_, "in", 2, 1, by decide, rfl⟩
    · exact ⟨_, "out", 2, 1, by decide, rfl⟩
    · exact ⟨_, "own", 1, 1, by decide, rfl⟩
  · intro s ins outs f hf
    cases hf
    rw [List.map_map]
    exact List.map_congr_left fun b _ => List.length_map _

/-- The unit and its neighbours start, it is activated once, and gets a second block. -/
def summingMoves : List (Move Nat) :=
  [.call ⟨0⟩ .openRing, .turn false, .turn false, .turn false, .turn false,
    .call ⟨1⟩ (.attach false), .turn false, .turn false, .turn false, .call ⟨0⟩ (.tryWrite [5]),
    .turn false, .call ⟨0⟩ (.tryWrite [7])]

theorem outside_summingMoves : ∀ m ∈ summingMoves, m.Outside summingUnit := by
  unfold summingMoves Move.Outside
  simp
  decide

/-- The unit is about to add the second block to the first one, which its local gives back. -/
theorem activation_allOrNothing_summing :
    summingUnit.Prepared summingTable ∧ (∀ m ∈ summingMoves, m.Outside summingUnit) ∧
      ∃ w, (Workplace.start summingUnit.recorded summingTable).run summingMoves = w ∧
        w.thread.phase = .running ∧ summingUnit.Ready w.table ∧
        w.thread.unit.state.2.map KernelRun.outs = [[[5], [5]]] ∧
        ∃ ins f v' t', w.thread.unit.tryActivate w.table = .ok (WorkUnit.answer f.status, v', t') ∧
          summingUnit.FiresOnce w.thread.unit w.table ins f v' t' := by
  refine ⟨prepared_summingUnit, outside_summingMoves, _, rfl, ?_⟩
  generalize hw : (Workplace.start summingUnit.recorded summingTable).run summingMoves = w
  have hphase : w.thread.phase = .running := by
    subst hw
    decide
  have hready : summingUnit.Ready w.table := by
    subst hw
    decide
  have hruns : w.thread.unit.state.2.map KernelRun.outs = [[[5], [5]]] := by
    subst hw
    decide
  obtain ⟨-, -, hnext⟩ := activation_allOrNothing prepared_summingUnit outside_summingMoves hw
  rcases (hnext hphase).2 hready with ⟨ins, trap, -, htrap, -⟩ | hfires
  · cases htrap
  · exact ⟨hphase, hready, hruns, hfires⟩

end Summing

end Dataflow
