import Dataflow.Proofs.Bundle.Steps
import Dataflow.Transport.Gate
import Mathlib.Data.List.Induction

/-!
# From one transport to another

A bundle that reads and one that writes, joined by a channel for each member, hand frames on
unchanged.

**Loop.**  The two bundles take turns in any order.  Each may find its transport or its channels not
ready; then the turn moves nothing.

**Balance.**  All frames are, in this order, those that were written, those in the buffers of the
writing bundle, the rows in the channels, those in the buffers of the reading bundle, and those
still to be read (`Balanced.balance`).  The end travels the same way: first the reading bundle is
done, then the channels are closed and empty, then the writing bundle is done.

**Results.**
* `Gate.supplies`, `Gate.takes`: a gate without errors is a transport that the bundles can rely on.
* `Balanced.step_input`, `Balanced.step_output`, `Balanced.run`: every turn keeps the balance, and
  so does every run.
* `frames_preserved`: the frames that were written are the first of those that were read, no turn
  fails, and when both bundles have ended all frames have been read and written.
-/

namespace Dataflow

section Defs

variable {t : SampleType} {τ σ : Type}

/-- A bundle that reads, with a channel for each member and the size of its blocks. -/
def InputBundle.ofMembers (name : String) (members : List (NodeId × Nat)) : InputBundle t :=
  assemble name (members.map fun m => (m.2, [m.1]))

/-- A bundle that writes, with a channel for each member and the size of its blocks. -/
def OutputBundle.ofMembers (name : String) (members : List (NodeId × Nat)) : OutputBundle t :=
  members.foldl (fun b m => b.addMember m.2 m.1) { name }

/-- The length of the frames of members with blocks of given sizes. -/
def frameLength (t : SampleType) (members : List (NodeId × Nat)) : Nat :=
  (members.map fun m => m.2 * t.width).sum

/-- Whose turn it is. -/
inductive Turn where
  | input
  | output
deriving DecidableEq, Repr

/-- Two bundles, what is between and beside them, and what they have answered so far. -/
structure Loop (t : SampleType) (τ σ : Type) where
  input : InputBundle t
  output : OutputBundle t
  channels : ChannelTable (Sample t)
  inbound : τ × Tape
  outbound : σ × Tape
  answers : List (Turn × Except BridgeError BundleStep) := []

namespace Loop

/-- Two bundles with the same members, before the first turn. -/
def start (reader writer : String) (members : List (NodeId × Nat))
    (channels : ChannelTable (Sample t)) (w : τ) (v : σ) : Loop t τ σ :=
  { input := .ofMembers reader members
    output := .ofMembers writer members
    channels
    inbound := (w, {})
    outbound := (v, {}) }

/-- Frames read so far. -/
def read (s : Loop t τ σ) : List (List UInt8) := s.inbound.2.read

/-- Frames written so far. -/
def written (s : Loop t τ σ) : List (List UInt8) := s.outbound.2.written

/-- One of the bundles takes a step. -/
def step (source : Transport τ) (sink : Transport σ) (s : Loop t τ σ) : Turn → Loop t τ σ
  | .input =>
      let (answer, input, channels, inbound) := s.input.step source.recorded s.channels s.inbound
      { s with input, channels, inbound, answers := s.answers ++ [(.input, answer)] }
  | .output =>
      let (answer, output, channels, outbound) := s.output.step sink.recorded s.channels s.outbound
      { s with output, channels, outbound, answers := s.answers ++ [(.output, answer)] }

/-- The bundles take turns. -/
def run (source : Transport τ) (sink : Transport σ) (s : Loop t τ σ) (turns : List Turn) :
    Loop t τ σ := turns.foldl (step source sink) s

end Loop

end Defs

section Members

variable {t : SampleType} {size : NodeId → Nat} {members : List (NodeId × Nat)}

theorem frameLength_append (m : NodeId × Nat) :
    frameLength t (members ++ [m]) = frameLength t members + m.2 * t.width := by
  simp [frameLength]

theorem frameLength_eq (hsize : ∀ m ∈ members, m.2 = size m.1) :
    frameLength t members = ((members.map Prod.fst).map size).sum * t.width := by
  induction members using List.reverseRecOn with
  | nil => simp [frameLength]
  | append_singleton members m ih =>
      have hm := hsize m (List.mem_append_right _ List.mem_cons_self)
      rw [frameLength_append, ih fun n hn => hsize n (List.mem_append_left _ hn), hm]
      simp [Nat.add_mul]

theorem InputBundle.ofMembers_eq (name : String) (hsize : ∀ m ∈ members, m.2 = size m.1) :
    (ofMembers name members : InputBundle t) =
      assemble name ((members.map Prod.fst).map fun id => (size id, [id])) := by
  rw [ofMembers, List.map_map]
  exact congrArg _ (List.map_congr_left fun m hm => by rw [hsize m hm]; rfl)

theorem OutputBundle.ofMembers_spec (name : String) (hsize : ∀ m ∈ members, m.2 = size m.1) :
    let b : OutputBundle t := ofMembers name members
    b.Suits (members.map Prod.fst) size (frameLength t members) ∧
      b.externalFilled = false ∧ b.internalFilled = false ∧ b.sawEnd = false ∧ b.ended = false := by
  induction members using List.reverseRecOn with
  | nil => exact ⟨⟨rfl, rfl, rfl, rfl⟩, rfl, rfl, rfl, rfl⟩
  | append_singleton members m ih =>
      obtain ⟨h, hexternal, hinternal, hsaw, hended⟩ :=
        ih fun n hn => hsize n (List.mem_append_left _ hn)
      have hm := hsize m (List.mem_append_right _ List.mem_cons_self)
      have hadd : (ofMembers name (members ++ [m]) : OutputBundle t) =
          (ofMembers name members).addMember m.2 m.1 := List.foldl_concat ..
      rw [hadd, frameLength_append]
      refine ⟨⟨?_, ?_, ?_, ?_⟩, hexternal, hinternal, hsaw, hended⟩
      · have hreads : (ofMembers name members : OutputBundle t).members.map OutputMember.input =
            members.map Prod.fst := h.inputs
        simp [addMember, reads, hreads]
      · simp [addMember, h.sized, hm]
      · simpa [addMember, OutputMember.part, h.length_frame] using h.tiles.append (m.2 * t.width)
      · simp [addMember, h.length_frame]

end Members

section Gates

namespace Gate

variable {length : Nat} {g : Gate} {frames : List (List UInt8)}

/-- A gate that never fails to look, with frames to read. -/
def Offers (length : Nat) (g : Gate) (frames : List (List UInt8)) : Prop :=
  (∀ r ∈ g.readable, ∃ ready, r = .ok ready) ∧ g.reads = frames.map .ok ∧
    ∀ f ∈ frames, f.length = length

/-- A gate that never fails to look, to write or to shut down. -/
def IsPassable (g : Gate) : Prop :=
  (∀ r ∈ g.writable, ∃ ready, r = .ok ready) ∧ (∀ r ∈ g.writes, r = .ok ()) ∧
    ∀ r ∈ g.shutdowns, r = .ok ()

theorem Offers.poll (h : g.Offers length frames) :
    ∃ ready g', g.pollReadable = (.ok ready, g') ∧ g'.Offers length frames := by
  cases hr : g.readable with
  | nil => exact ⟨true, g, by simp [pollReadable, hr], h⟩
  | cons r rest =>
      obtain ⟨ready, rfl⟩ := h.1 r (by simp [hr])
      exact ⟨ready, { g with readable := rest }, by simp [pollReadable, hr],
        fun r hrest => h.1 r (by simp [hr, hrest]), h.2⟩

/-- A gate hands out its frames and then the end. -/
theorem supplies (length : Nat) : transport.Supplies length (Offers length) := by
  refine ⟨fun h => h.poll, ?_⟩
  intro g g' frames buffer h hpoll hbuffer
  obtain ⟨ready, _, hpoll', hreads⟩ := h.poll
  cases hpoll'.symm.trans hpoll
  cases frames with
  | nil =>
      have hnone : g'.reads = [] := hreads.2.1
      refine .inr (.inl ⟨rfl, buffer, g', ?_, hbuffer, hreads⟩)
      simp [transport, readFrame, hnone]
  | cons f rest =>
      have hnext : g'.reads = .ok f :: rest.map .ok := hreads.2.1
      have hf : f.length = length := hreads.2.2 f List.mem_cons_self
      refine .inr (.inr ⟨f, rest, { g' with reads := rest.map .ok }, rfl, ?_, hreads.1, rfl,
        fun f hf => hreads.2.2 f (List.mem_cons_of_mem _ hf)⟩)
      have hwhole : f.take buffer.length ++ buffer.drop f.length = f := by
        rw [hbuffer, ← hf, List.take_length, hf, ← hbuffer, List.drop_length, List.append_nil]
      simp [transport, readFrame, hnext, hwhole]

theorem IsPassable.poll (h : g.IsPassable) :
    ∃ ready g', g.pollWritable = (.ok ready, g') ∧ g'.IsPassable := by
  cases hr : g.writable with
  | nil => exact ⟨true, g, by simp [pollWritable, hr], h⟩
  | cons r rest =>
      obtain ⟨ready, rfl⟩ := h.1 r (by simp [hr])
      exact ⟨ready, { g with writable := rest }, by simp [pollWritable, hr],
        fun r hrest => h.1 r (by simp [hr, hrest]), h.2⟩

/-- A gate takes every frame when it is open. -/
theorem takes (length : Nat) : transport.Takes length IsPassable := by
  refine ⟨fun h => h.poll, ?_, ?_⟩
  · intro g g' frame h hpoll _
    obtain ⟨ready, _, hpoll', hpass⟩ := h.poll
    cases hpoll'.symm.trans hpoll
    refine ⟨{ g' with writes := g'.writes.tail, sink := g'.sink ++ frame }, ?_, hpass.1,
      fun r hr => hpass.2.1 r (List.mem_of_mem_tail hr), hpass.2.2⟩
    cases hr : g'.writes with
    | nil => simp [transport, writeFrame, hr]
    | cons r rest =>
        cases hpass.2.1 r (by simp [hr])
        simp [transport, writeFrame, hr]
  · intro g h
    refine ⟨{ g with shutdowns := g.shutdowns.tail, sink := g.sink ++ endMark }, ?_, h.1, h.2.1,
      fun r hr => h.2.2 r (List.mem_of_mem_tail hr)⟩
    cases hr : g.shutdowns with
    | nil => simp [transport, shutdown, hr]
    | cons r rest =>
        cases h.2.2 r (by simp [hr])
        simp [transport, shutdown, hr]

end Gate

end Gates

namespace Loop

variable {t : SampleType} {τ σ : Type} {source : Transport τ} {sink : Transport σ}
  {left : τ → List (List UInt8) → Prop} {usable : σ → Prop} {ids : List NodeId}
  {size : NodeId → Nat} {frames inner rest : List (List UInt8)}
  {rows : List (Row (Sample t))} {s : Loop t τ σ}

section Invariant

/-- Where all frames are: `rest` is still to be read, `inner` is in the blocks of the reading
bundle, and `rows` are in the channels. -/
structure Balanced (left : τ → List (List UInt8) → Prop) (usable : σ → Prop) (ids : List NodeId)
    (size : NodeId → Nat) (frames : List (List UInt8)) (s : Loop t τ σ)
    (inner rest : List (List UInt8)) (rows : List (Row (Sample t))) : Prop where
  input : s.input.Stocked (ids.map fun id => (size id, [id])) frames.length inner rest
  output : s.output.Suits ids size ((ids.map size).sum * t.width)
  inbound : left s.inbound.1 rest ∧ frames = s.read ++ rest
  outbound : usable s.outbound.1
  carries : s.channels.Carries ids size (if s.input.ended then .closed else .steady) rows
  balance : frames = s.written ++ s.output.held ++ rows.map (Row.frame ids) ++
    (inner ++ s.input.outer ++ rest)
  inputDone : s.input.ended = true → inner ++ s.input.outer ++ rest = []
  outputSaw : s.output.sawEnd = true → s.input.ended = true ∧ rows = []
  outputDone : s.output.ended = true → s.output.sawEnd = true ∧ s.output.held = []
  answers_ok : ∀ a ∈ s.answers, ∃ outcome, a.2 = .ok outcome
  inputAnswer : (.input, .ok .ended) ∈ s.answers → s.input.ended = true
  outputAnswer : (.output, .ok .ended) ∈ s.answers → s.output.ended = true

/-- A bundle that has ended takes its turn and says so again. -/
theorem step_of_ended_input (hended : s.input.ended = true) : s.step source sink .input =
    { s with answers := s.answers ++ [(.input, .ok .ended)] } := by
  simp [Loop.step, InputBundle.step, hended]

theorem step_of_ended_output (hended : s.output.ended = true) : s.step source sink .output =
    { s with answers := s.answers ++ [(.output, .ok .ended)] } := by
  simp [Loop.step, OutputBundle.step, hended]

/-- A turn of the reading bundle. -/
theorem Balanced.step_input (h : Balanced left usable ids size frames s inner rest rows)
    (hnodup : ids.Nodup) (hsource : source.Supplies ((ids.map size).sum * t.width) left)
    (sink : Transport σ) :
    ∃ inner rest rows,
      Balanced left usable ids size frames (s.step source sink .input) inner rest rows := by
  cases hopen : s.input.ended with
  | true =>
      rw [step_of_ended_input hopen]
      refine ⟨inner, rest, rows,
        { h with answers_ok := ?_, inputAnswer := fun _ => hopen, outputAnswer := ?_ }⟩
      · simpa [or_imp, forall_and] using h.answers_ok
      · simpa using h.outputAnswer
  | false =>
      have hcarries := h.carries
      rw [hopen] at hcarries
      obtain ⟨outcome, b, ch, w, inner', more, sent, hstep, hb, hw, hch, hmoved, hdone, hend⟩ :=
        InputBundle.step_spec h.input hnodup (hsource.recorded frames) h.inbound hcarries hopen
      have hnext : s.step source sink .input =
          { s with
            input := b, channels := ch, inbound := w
            answers := s.answers ++ [(.input, .ok outcome)] } := by
        simp only [Loop.step, hstep]
      rw [hnext]
      refine ⟨inner', more, rows ++ sent, ⟨hb, h.output, hw, h.outbound, hch, ?_, hdone, ?_,
        h.outputDone, ?_, ?_, ?_⟩⟩
      · show frames = s.written ++ s.output.held ++ (rows ++ sent).map (Row.frame ids) ++
          (inner' ++ b.outer ++ more)
        rw [h.balance, hmoved, List.map_append]
        simp only [List.append_assoc]
      · intro hsaw
        cases hopen.symm.trans (h.outputSaw hsaw).1
      · simpa [or_imp, forall_and] using h.answers_ok
      · intro hanswer
        rcases List.mem_append.mp hanswer with hold | hnew
        · cases hopen.symm.trans (h.inputAnswer hold)
        · cases List.mem_singleton.mp hnew
          exact hend.mp rfl
      · simpa using h.outputAnswer

/-- A turn of the writing bundle. -/
theorem Balanced.step_output (h : Balanced left usable ids size frames s inner rest rows)
    (hnodup : ids.Nodup) (hne : ids ≠ []) (source : Transport τ)
    (hsink : sink.Takes ((ids.map size).sum * t.width) usable) :
    ∃ rows, Balanced left usable ids size frames (s.step source sink .output) inner rest rows := by
  cases hopen : s.output.ended with
  | true =>
      rw [step_of_ended_output hopen]
      refine ⟨rows,
        { h with answers_ok := ?_, inputAnswer := ?_, outputAnswer := fun _ => hopen }⟩
      · simpa [or_imp, forall_and] using h.answers_ok
      · simpa using h.inputAnswer
  | false =>
      have hclosed : (if s.input.ended then ChannelState.closed else .steady) = .closed ↔
          s.input.ended = true := by
        cases s.input.ended <;> simp
      have hstate : (if s.input.ended then ChannelState.closed else .steady) = .steady ∨
          (if s.input.ended then ChannelState.closed else .steady) = .closed := by
        cases s.input.ended <;> simp
      obtain ⟨outcome, b, ch, v, out, taken, more, hstep, hb, hv, hch, hrows, hheld, hsaw,
        hdone, hend⟩ :=
        OutputBundle.step_spec h.output hnodup hne hsink h.outbound h.carries hstate
          (fun hsaw => ⟨hclosed.mpr (h.outputSaw hsaw).1, (h.outputSaw hsaw).2⟩) hopen s.outbound.2
      have hnext : s.step source sink .output =
          { s with
            output := b, channels := ch
            outbound := (v, { s.outbound.2 with written := s.outbound.2.written ++ out })
            answers := s.answers ++ [(.output, .ok outcome)] } := by
        simp only [Loop.step, hstep]
      rw [hnext]
      refine ⟨more, ⟨h.input, hb, h.inbound, hv, hch, ?_, h.inputDone, ?_, hdone, ?_, ?_, ?_⟩⟩
      · show frames = s.written ++ out ++ b.held ++ more.map (Row.frame ids) ++
          (inner ++ s.input.outer ++ rest)
        rw [h.balance, hrows, List.map_append, List.append_assoc s.written out, ← hheld]
        simp only [List.append_assoc]
      · intro hlast
        exact ⟨hclosed.mp (hsaw hlast).1, (hsaw hlast).2⟩
      · simpa [or_imp, forall_and] using h.answers_ok
      · simpa using h.inputAnswer
      · intro hanswer
        rcases List.mem_append.mp hanswer with hold | hnew
        · cases hopen.symm.trans (h.outputAnswer hold)
        · cases List.mem_singleton.mp hnew
          exact hend.mp rfl

/-- Turns in any order keep the balance. -/
theorem Balanced.run (h : Balanced left usable ids size frames s inner rest rows)
    (hnodup : ids.Nodup) (hne : ids ≠ [])
    (hsource : source.Supplies ((ids.map size).sum * t.width) left)
    (hsink : sink.Takes ((ids.map size).sum * t.width) usable) (turns : List Turn) :
    ∃ inner rest rows,
      Balanced left usable ids size frames (s.run source sink turns) inner rest rows := by
  induction turns generalizing s inner rest rows with
  | nil => exact ⟨inner, rest, rows, h⟩
  | cons turn turns ih =>
      cases turn with
      | input =>
          obtain ⟨_, _, _, hnext⟩ := h.step_input hnodup hsource sink
          exact ih hnext
      | output =>
          obtain ⟨_, hnext⟩ := h.step_output hnodup hne source hsink
          exact ih hnext

end Invariant

section Start

variable {reader writer : String} {members : List (NodeId × Nat)}
  {channels : ChannelTable (Sample t)} {w : τ} {v : σ}

/-- Channels that are attached and empty carry no rows. -/
theorem carries_of_isFresh (h : ∀ m ∈ members, ∃ c, channels[m.1]? = some c ∧ c.isFresh = true) :
    channels.Carries (members.map Prod.fst) channels.blockOf .steady [] := by
  refine ⟨?_, nofun⟩
  intro id hid
  obtain ⟨m, hm, rfl⟩ := List.mem_map.mp hid
  obtain ⟨c, hc, hfresh⟩ := h m hm
  obtain ⟨hlive, hsteady, hempty⟩ := Channel.live_of_isFresh hfresh
  refine ⟨c, hc, hlive, hsteady, (ChannelTable.blockOf_of_getElem? hc).symm, ?_⟩
  rw [List.flatMap_nil, ← List.length_eq_zero_iff, hlive.sound.length_contents, hempty]

/-- Before the first turn nothing was read. -/
theorem balanced_start
    (hchannels : ∀ m ∈ members, ∃ c, channels[m.1]? = some c ∧ c.isFresh = true ∧ c.block = m.2)
    (hsize : ∀ m ∈ members, m.2 = channels.blockOf m.1) (hleft : left w frames)
    (hframes : ∀ f ∈ frames, f.length = frameLength t members) (husable : usable v) :
    Balanced left usable (members.map Prod.fst) channels.blockOf frames
      (start reader writer members channels w v) [] frames [] := by
  obtain ⟨hlaid, hinExternal, hinInternal, hinSaw, hinEnded, hzero⟩ :=
    InputBundle.assemble_spec (t := t) reader
      ((members.map Prod.fst).map fun id => (channels.blockOf id, [id]))
  rw [← InputBundle.ofMembers_eq reader hsize]
    at hlaid hinExternal hinInternal hinSaw hinEnded hzero
  obtain ⟨hout, houtExternal, houtInternal, houtSaw, houtEnded⟩ :=
    OutputBundle.ofMembers_spec (t := t) writer hsize
  rw [frameLength_eq hsize] at hframes hout
  have hinOuter : (start reader writer members channels w v).input.outer = [] := by
    simp [start, InputBundle.outer, hinExternal]
  have houtHeld : (start reader writer members channels w v).output.held = [] := by
    simp [start, OutputBundle.held, houtExternal, houtInternal]
  have hopen : (start reader writer members channels w v).input.ended = false := hinEnded
  refine ⟨⟨hlaid, ?_, fun _ => rfl, ?_, ?_, ?_⟩, hout, ⟨hleft, rfl⟩, husable, ?_, ?_, ?_, ?_, ?_,
    by simp [start], by simp [start], by simp [start]⟩
  · intro hfull
    cases hinInternal.symm.trans hfull
  · simpa [Function.comp_def] using hframes
  · intro hsaw
    cases hinSaw.symm.trans hsaw
  · simp [start, hzero]
  · rw [hopen]
    exact carries_of_isFresh fun m hm => by
      obtain ⟨c, hc, hfresh, -⟩ := hchannels m hm
      exact ⟨c, hc, hfresh⟩
  · rw [hinOuter, houtHeld]
    rfl
  · intro hended
    cases hopen.symm.trans hended
  · intro hsaw
    cases houtSaw.symm.trans hsaw
  · intro hended
    cases houtEnded.symm.trans hended

/-- Frames pass from one transport to the other unchanged.  At every moment those that were written
are the first of those that were read, and these are the first of all; no turn fails; and when both
bundles have said that they have ended, all frames were read and written. -/
theorem frames_preserved (hne : members ≠ []) (hnodup : (members.map Prod.fst).Nodup)
    (hchannels : ∀ m ∈ members, ∃ c, channels[m.1]? = some c ∧ c.isFresh = true ∧ c.block = m.2)
    (hsource : source.Supplies (frameLength t members) left) (hleft : left w frames)
    (hframes : ∀ f ∈ frames, f.length = frameLength t members)
    (hsink : sink.Takes (frameLength t members) usable) (husable : usable v) (turns : List Turn) :
    let s := (start reader writer members channels w v).run source sink turns
    s.written <+: s.read ∧ s.read <+: frames ∧ (∀ a ∈ s.answers, ∃ outcome, a.2 = .ok outcome) ∧
      ((.input, .ok .ended) ∈ s.answers → (.output, .ok .ended) ∈ s.answers →
        s.written = s.read ∧ s.read = frames) := by
  have hsize : ∀ m ∈ members, m.2 = channels.blockOf m.1 := by
    intro m hm
    obtain ⟨c, hc, -, hblock⟩ := hchannels m hm
    rw [ChannelTable.blockOf_of_getElem? hc, hblock]
  have hstart : Balanced left usable (members.map Prod.fst) channels.blockOf frames
      (start reader writer members channels w v) [] frames [] :=
    balanced_start hchannels hsize hleft hframes husable
  rw [frameLength_eq hsize] at hsource hsink
  obtain ⟨inner, rest, rows, h⟩ := hstart.run hnodup (by simpa using hne) hsource hsink turns
  have hall := h.inbound.2
  -- what is still to be read stands at the end of both
  have hread := h.balance
  rw [hall, ← List.append_assoc, List.append_cancel_right_eq] at hread
  refine ⟨?_, ⟨rest, hall.symm⟩, h.answers_ok, ?_⟩
  · rw [hread, List.append_assoc, List.append_assoc]
    exact List.prefix_append _ _
  · intro hinput houtput
    have hdone := h.inputDone (h.inputAnswer hinput)
    obtain ⟨hsaw, hout⟩ := h.outputDone (h.outputAnswer houtput)
    rw [List.append_eq_nil_iff] at hdone
    rw [hdone.1, hout, (h.outputSaw hsaw).2] at hread
    rw [hdone.2] at hall
    exact ⟨by simpa using hread.symm, by simpa using hall.symm⟩

/-- Two members whose blocks have different sizes. -/
def twoLanes : List (NodeId × Nat) := [(⟨0⟩, 1), (⟨1⟩, 2)]

/-- The channels of the two members, opened by one side and attached by the other.  The first has
room for one block only. -/
def laneChannels : ChannelTable (Sample .i16) :=
  let created : ChannelTable (Sample .i16) :=
    (Std.ExtTreeMap.empty.insert ⟨0⟩ { name := "narrow", capacity := 1, block := 1 }).insert ⟨1⟩
      { name := "wide", capacity := 5, block := 2 }
  let lanes := twoLanes.map Prod.fst
  (StartAction.performAll false
    (lanes.map .openRing ++ lanes.map .attach ++ lanes.map .await) created).2

/-- Frames for the two members. -/
def laneFrames : List (List UInt8) :=
  [[1, 2, 3, 4, 5, 6], [255, 0, 255, 0, 255, 0], [7, 7, 7, 7, 7, 7]]

/-- A gate that holds the frames and is not ready at the second look. -/
def laneSource : Gate :=
  { readable := [.ok true, .ok false], reads := laneFrames.map .ok }

/-- A gate that is shut at the first look. -/
def laneSink : Gate :=
  { writable := [.ok false] }

/-- The reading bundle first runs ahead until the channels are full. -/
def laneTurns : List Turn :=
  List.replicate 5 .input ++ (List.replicate 3 [.output, .input]).flatten ++
    List.replicate 5 .output

/-- The turns of the two bundles between the gates. -/
def laneRun : Loop .i16 Gate Gate :=
  (start "in" "out" twoLanes laneChannels laneSource laneSink).run Gate.transport
    Gate.transport laneTurns

theorem ended_laneRun :
    (.input, .ok .ended) ∈ laneRun.answers ∧ (.output, .ok .ended) ∈ laneRun.answers := by
  decide

theorem frames_preserved_twoLanes :
    (.input, .ok .ended) ∈ laneRun.answers ∧ (.output, .ok .ended) ∈ laneRun.answers ∧
      laneRun.read = laneFrames ∧ laneRun.written = laneFrames := by
  have hfresh : twoLanes.all (fun m => laneChannels[m.1]?.any fun c =>
      c.isFresh && decide (c.block = m.2)) = true := by decide
  have hchannels : ∀ m ∈ twoLanes, ∃ c, laneChannels[m.1]? = some c ∧ c.isFresh = true ∧
      c.block = m.2 := by
    simpa [Option.any_eq_true] using hfresh
  have hlength : ∀ f ∈ laneFrames, f.length = frameLength .i16 twoLanes := by decide
  have hsource : laneSource.Offers (frameLength .i16 twoLanes) laneFrames :=
    ⟨by simp [laneSource], rfl, hlength⟩
  have hsink : laneSink.IsPassable := by simp [Gate.IsPassable, laneSink]
  obtain ⟨hinput, houtput⟩ := ended_laneRun
  have hend : laneRun.written = laneRun.read ∧ laneRun.read = laneFrames :=
    (frames_preserved (by decide) (by decide) hchannels (Gate.supplies _) hsource hlength
      (Gate.takes _) hsink laneTurns).2.2.2 hinput houtput
  exact ⟨hinput, houtput, hend.2, hend.1.trans hend.2⟩

end Start

end Loop

end Dataflow
