import Dataflow.Proofs.Bundle.Layout
import Dataflow.Proofs.Bundle.Loop
import Dataflow.Proofs.Channel.Sides

/-!
# Frames for many readers

A bundle that reads hands every frame on, once and in order, to all channels of all its members,
whatever the readers of these channels do meanwhile.

**Intake.**  Steps of the bundle and calls on channels follow one another in any order, from the
creation of the channels on.  A frame that was read is in one of the two buffers or has gone to all
channels, and never to some of them only (`Fed`).

**Results.**
* `Passes.put`, `Passes.called`, `Delivered.deal`: what was written to a channel, after a frame was
  dealt out and after others have taken from it.
* `Fed.step`, `Fed.call`, `Fed.run`: steps and calls keep the frames together.
* `frames_delivered`: what has been written to each channel are the blocks of one number of frames,
  no step fails, and a bundle that has ended while nobody closed a channel has delivered all frames.
-/

namespace Dataflow

section Defs

variable {t : SampleType} {τ : Type}

/-- The samples that a call on a channel takes out of it. -/
def ChannelTable.takenBy {α : Type} [Inhabited α] (table : ChannelTable α) (id : NodeId)
    (call : Call α) : List α :=
  match table[id]? with
  | some c => (c.call call).1.taken
  | none => []

/-- A bundle that reads and what is around it, with what has been read from its channels and what it
has answered so far. -/
structure Intake (t : SampleType) (τ : Type) where
  bundle : InputBundle t
  table : ChannelTable (Sample t)
  outside : τ
  taken : NodeId → List (Sample t) := fun _ => []
  answers : List (Except BridgeError BundleStep) := []

namespace Intake

/-- What happens next: a step of the bundle, or a call of somebody else on a channel. -/
inductive Move (t : SampleType) where
  | step
  | call (channel : NodeId) (made : Call (Sample t))

/-- Whether somebody else writes to one of some channels. -/
def Move.writesTo (ids : List NodeId) : Move t → Bool
  | .step => false
  | .call c made => decide (c ∈ ids) && made.isWrite

/-- Whether somebody else closes one of some channels. -/
def Move.closesOf (ids : List NodeId) : Move t → Bool
  | .step => false
  | .call c made => decide (c ∈ ids) && made.closes

/-- A new bundle before its first step. -/
def start (name : String) (parts : List (Nat × List NodeId)) (table : ChannelTable (Sample t))
    (w : τ) : Intake t τ :=
  { bundle := .assemble name parts, table, outside := w }

/-- One move. -/
def after (tr : Transport τ) (s : Intake t τ) : Move t → Intake t τ
  | .step =>
      let (answer, bundle, table, outside) := s.bundle.step tr s.table s.outside
      { s with bundle, table, outside, answers := s.answers ++ [answer] }
  | .call c made =>
      { s with
        table := s.table.called c made
        taken := Function.update s.taken c (s.taken c ++ s.table.takenBy c made) }

/-- Moves one after the other. -/
def run (tr : Transport τ) (s : Intake t τ) (moves : List (Move t)) : Intake t τ :=
  moves.foldl (after tr) s

end Intake

end Defs

section Channels

variable {α : Type} [Inhabited α]

omit [Inhabited α] in
theorem Channel.Kept.live_of_hasRoom {c : Channel α} (h : c.Kept) (hroom : c.hasRoom = true) :
    c.Live := by
  refine h.live (h.ring_of_open (.inr ?_))
  simp only [Channel.hasRoom, Bool.and_eq_true, decide_eq_true_eq] at hroom
  exact hroom.1

theorem Channel.Kept.put {c : Channel α} {block : List α} (h : c.Kept) (hroom : c.hasRoom = true)
    (hlength : block.length = c.block) : (c.put block).Kept := by
  have hcall := h.call (.tryWrite block)
  simp only [Channel.call, (h.live_of_hasRoom hroom).tryWrite hroom hlength] at hcall
  exact hcall

namespace ChannelTable

variable {table table' : ChannelTable α} {id : NodeId} {size : Nat} {taken written block : List α}
  {call : Call α}

/-- A channel for blocks of a given size: what was written to it has been taken or is on its way. -/
def Passes (table : ChannelTable α) (id : NodeId) (size : Nat) (taken written : List α) : Prop :=
  ∃ c, table[id]? = some c ∧ c.Kept ∧ c.block = size ∧ taken ++ c.contents = written

namespace Passes

theorem of_eq (h : table.Passes id size taken written) (heq : table'[id]? = table[id]?) :
    table'.Passes id size taken written := by
  unfold Passes at h ⊢
  rwa [heq]

theorem contentsOf_eq (h : table.Passes id size taken written) :
    taken ++ table.contentsOf id = written := by
  obtain ⟨c, hc, -, -, hall⟩ := h
  rw [contentsOf_of_getElem? hc, hall]

theorem blockOf_eq (h : table.Passes id size taken written) : table.blockOf id = size := by
  obtain ⟨c, hc, -, hblock, -⟩ := h
  rw [blockOf_of_getElem? hc, hblock]

theorem accepts (h : table.Passes id size taken written) (hroom : table.hasRoom id = true) :
    table.Accepts id := by
  obtain ⟨c, hc, hkept, -⟩ := h
  rw [hasRoom, hc] at hroom
  exact ⟨c, hc, hkept.live_of_hasRoom hroom, hroom⟩

/-- Others only take. -/
theorem called (h : table.Passes id size taken written) (hcall : call.isWrite = false) :
    (table.called id call).Passes id size (taken ++ table.takenBy id call) written := by
  obtain ⟨c, hc, hkept, hblock, hall⟩ := h
  have htaken : table.takenBy id call = (c.call call).1.taken := by
    rw [takenBy, hc]
  refine ⟨(c.call call).2, getElem?_called_self hc, hkept.call call, ?_, ?_⟩
  · rw [(c.course_call call).block, hblock]
  · rw [htaken, List.append_assoc, ← hkept.sound.contents_call hcall, hall]

theorem put (h : table.Passes id size taken written) (hroom : table.hasRoom id = true)
    (hlength : block.length = size) (hput : table'[id]? = table[id]?.map (Channel.put · block)) :
    table'.Passes id size taken (written ++ block) := by
  obtain ⟨c, hc, hkept, hblock, hall⟩ := h
  rw [hasRoom, hc] at hroom
  have hlength : block.length = c.block := hlength.trans hblock.symm
  refine ⟨c.put block, ?_, hkept.put hroom hlength, ?_, ?_⟩
  · rw [hput, hc]
    rfl
  · rw [Channel.block_put, hblock]
  · rw [(hkept.live_of_hasRoom hroom).contents_put hroom hlength, ← List.append_assoc, hall]

theorem closeAll (h : table.Passes id size taken written) (ids : List NodeId) :
    (table.closeAll ids).Passes id size taken written := by
  obtain ⟨c, hc, hkept, hblock, hall⟩ := h
  by_cases hid : id ∈ ids
  · refine ⟨c.close, ?_, hkept.call .close, hblock, ?_⟩
    · rw [getElem?_closeAll, if_pos hid, hc]
      rfl
    · rw [← hall, Channel.sameQueue_close.contents_eq]
  · refine ⟨c, ?_, hkept, hblock, hall⟩
    rw [getElem?_closeAll, if_neg hid, hc]

end Passes

/-- A call closes no channel unless it is one that closes. -/
theorem isClosed_called {other : NodeId} (h : table.isClosed other = false)
    (hcall : id = other → call.closes = false) : (table.called id call).isClosed other = false := by
  unfold isClosed at h ⊢
  cases hc : table[other]? with
  | none => simp [hc] at h
  | some c =>
      simp only [hc, Channel.isClosed, decide_eq_false_iff_not] at h
      by_cases hid : id = other
      · subst hid
        rw [getElem?_called_self hc]
        simpa [Channel.isClosed] using Channel.state_call_ne_closed h (hcall rfl)
      · rw [getElem?_called_of_ne hid, hc]
        simpa [Channel.isClosed] using h

end ChannelTable

end Channels

namespace InputBundle

section Channels

variable {t : SampleType} {parts : List (Nat × List NodeId)}
  {table table' : ChannelTable (Sample t)} {taken : NodeId → List (Sample t)}
  {sent : List (List UInt8)} {frame : List UInt8}

/-- All channels have got the blocks of the same frames. -/
def Delivered (table : ChannelTable (Sample t)) (parts : List (Nat × List NodeId))
    (taken : NodeId → List (Sample t)) (sent : List (List UInt8)) : Prop :=
  ∀ {i p c}, parts[i]? = some p → c ∈ p.2 →
    table.Passes c p.1 (taken c) (sent.flatMap (frameBlock t (parts.map Prod.fst) i))

theorem Delivered.serves (h : Delivered table parts taken sent) : Serves table parts := by
  refine ⟨?_, ?_⟩
  · intro p c hp hc hroom
    obtain ⟨i, hi⟩ := List.getElem?_of_mem hp
    exact (h hi hc).accepts hroom
  · intro p c hp hc
    obtain ⟨i, hi⟩ := List.getElem?_of_mem hp
    exact (h hi hc).blockOf_eq

/-- All channels get their blocks of one more frame. -/
theorem Delivered.deal (h : Delivered table parts taken sent)
    (hdeals : Deals parts frame table table') : Delivered table' parts taken (sent ++ [frame]) := by
  intro i p c hp hc
  have hlength : (frameBlock t (parts.map Prod.fst) i frame).length = p.1 := by
    rw [length_frameBlock, List.getD_eq_getElem?_getD, List.getElem?_map, hp]
    rfl
  rw [List.flatMap_append, List.flatMap_singleton]
  refine (h hp hc).put (hdeals.room c ?_) hlength (hdeals.channel hp hc)
  exact List.mem_flatMap.mpr ⟨p, List.mem_of_getElem? hp, hc⟩

end Channels

end InputBundle

namespace Intake

variable {t : SampleType} {τ : Type} {tr : Transport τ} {left : τ → List (List UInt8) → Prop}
  {parts : List (Nat × List NodeId)} {frames sent inner rest : List (List UInt8)} {quiet : Prop}
  {s : Intake t τ}

section Invariant

/-- Where all frames are: `sent` in all channels, `inner` in the blocks, and `rest` still to be
read.  If it is `quiet`, only the bundle closes channels. -/
structure Fed (left : τ → List (List UInt8) → Prop) (parts : List (Nat × List NodeId))
    (frames : List (List UInt8)) (quiet : Prop) (s : Intake t τ)
    (sent inner rest : List (List UInt8)) : Prop where
  stocked : s.bundle.Stocked parts frames.length inner rest
  delivered : InputBundle.Delivered s.table parts s.taken sent
  outside : left s.outside rest
  stream : frames = sent ++ (inner ++ s.bundle.outer ++ rest)
  unclosed : quiet → s.bundle.ended = false →
    ∀ c ∈ parts.flatMap Prod.snd, s.table.isClosed c = false
  done : quiet → s.bundle.ended = true → inner ++ s.bundle.outer ++ rest = []
  answers_ok : ∀ a ∈ s.answers, ∃ outcome, a = .ok outcome
  answer_ended : .ok .ended ∈ s.answers → s.bundle.ended = true

/-- The frames that the bundle has counted are in the channels or in its buffers. -/
theorem Fed.frames_eq (h : Fed left parts frames quiet s sent inner rest) :
    s.bundle.frames = sent.length + s.bundle.externalFilled.toNat +
      s.bundle.internalFilled.toNat := by
  have hcount := h.stocked.count
  have hall := congrArg List.length h.stream
  simp only [List.length_append, InputBundle.length_outer, h.stocked.length_inner] at hall
  omega

theorem Fed.step (h : Fed left parts frames quiet s sent inner rest)
    (hnodup : (parts.flatMap Prod.snd).Nodup)
    (htr : tr.Supplies ((parts.map Prod.fst).sum * t.width) left) :
    ∃ sent inner rest, Fed left parts frames quiet (s.after tr .step) sent inner rest := by
  cases hopen : s.bundle.ended with
  | true =>
      have hafter : s.after tr .step = { s with answers := s.answers ++ [.ok .ended] } := by
        simp [after, InputBundle.step, hopen]
      rw [hafter]
      refine ⟨sent, inner, rest, { h with answers_ok := ?_, answer_ended := fun _ => hopen }⟩
      simpa [or_imp, forall_and] using h.answers_ok
  | false =>
      obtain ⟨outcome, b, dealt, w, inner', rest', out, hstep, hb, hw, hmoved, houtcome,
        hend, hout⟩ :=
        InputBundle.step_cases h.stocked hnodup htr h.outside
          (InputBundle.Delivered.serves h.delivered) hopen
      have hdealt : InputBundle.Delivered dealt parts s.taken (sent ++ out) ∧
          ∀ c, dealt.isClosed c = s.table.isClosed c := by
        rcases hout with ⟨rfl, rfl⟩ | ⟨f, rfl, hdeals⟩
        · exact ⟨by rw [List.append_nil]; exact h.delivered, fun _ => rfl⟩
        · exact ⟨InputBundle.Delivered.deal h.delivered hdeals, hdeals.isClosed⟩
      obtain ⟨hpass, hclosed⟩ := hdealt
      have hafter : s.after tr .step =
          { s with
            bundle := b
            table := if b.ended then dealt.closeAll (parts.flatMap Prod.snd) else dealt
            outside := w
            answers := s.answers ++ [.ok outcome] } := by
        simp only [after, hstep]
      rw [hafter]
      refine ⟨sent ++ out, inner', rest', ⟨hb, ?_, hw, ?_, ?_, ?_, ?_, ?_⟩⟩
      · cases b.ended with
        | false => exact hpass
        | true => exact fun hp hc => (hpass hp hc).closeAll _
      · rw [h.stream, hmoved]
        exact (List.append_assoc ..).symm
      · intro hq hstill c hc
        have hstill : b.ended = false := hstill
        simp only [hstill, Bool.false_eq_true, if_false, hclosed]
        exact h.unclosed hq hopen c hc
      · intro hq hdone
        -- the bundle gives up on a closed channel, but nobody else closes one and it has
        -- not ended before
        rcases hend hdone with hnone | ⟨c, hc, hshut⟩
        · exact hnone
        · cases (h.unclosed hq hopen c hc).symm.trans hshut
      · simpa [or_imp, forall_and] using h.answers_ok
      · intro hanswer
        rcases List.mem_append.mp hanswer with hold | hnew
        · cases hopen.symm.trans (h.answer_ended hold)
        · cases List.mem_singleton.mp hnew
          exact houtcome.mp rfl

theorem Fed.call (h : Fed left parts frames quiet s sent inner rest) {c : NodeId}
    {made : Call (Sample t)} (hwrite : c ∈ parts.flatMap Prod.snd → made.isWrite = false)
    (hquiet : quiet → c ∈ parts.flatMap Prod.snd → made.closes = false) :
    Fed left parts frames quiet (s.after tr (.call c made)) sent inner rest := by
  refine ⟨h.stocked, ?_, h.outside, h.stream, ?_, h.done, h.answers_ok, h.answer_ended⟩
  · intro i p d hp hd
    have hpass := h.delivered hp hd
    show (s.table.called c made).Passes d p.1
      (Function.update s.taken c (s.taken c ++ s.table.takenBy c made) d) _
    by_cases hcd : c = d
    · subst hcd
      have hown : c ∈ parts.flatMap Prod.snd :=
        List.mem_flatMap.mpr ⟨p, List.mem_of_getElem? hp, hd⟩
      rw [Function.update_self]
      exact hpass.called (hwrite hown)
    · rw [Function.update_of_ne (Ne.symm hcd)]
      exact hpass.of_eq (ChannelTable.getElem?_called_of_ne hcd)
  · intro hq hopen d hd
    refine ChannelTable.isClosed_called (h.unclosed hq hopen d hd) ?_
    rintro rfl
    exact hquiet hq hd

/-- Steps and calls in any order keep the frames together. -/
theorem Fed.run (h : Fed left parts frames quiet s sent inner rest)
    (hnodup : (parts.flatMap Prod.snd).Nodup)
    (htr : tr.Supplies ((parts.map Prod.fst).sum * t.width) left) {moves : List (Move t)}
    (hwrite : ∀ m ∈ moves, m.writesTo (parts.flatMap Prod.snd) = false)
    (hquiet : quiet → ∀ m ∈ moves, m.closesOf (parts.flatMap Prod.snd) = false) :
    ∃ sent inner rest, Fed left parts frames quiet (s.run tr moves) sent inner rest := by
  induction moves generalizing s sent inner rest with
  | nil => exact ⟨sent, inner, rest, h⟩
  | cons m moves ih =>
      have hnext :
          ∃ sent inner rest, Fed left parts frames quiet (s.after tr m) sent inner rest := by
        cases m with
        | step => exact h.step hnodup htr
        | call c made =>
            refine ⟨sent, inner, rest, h.call ?_ ?_⟩
            · simpa [Move.writesTo] using hwrite (.call c made) List.mem_cons_self
            · intro hq
              simpa [Move.closesOf] using hquiet hq (.call c made) List.mem_cons_self
      obtain ⟨_, _, _, hnext⟩ := hnext
      exact ih hnext (fun m hm => hwrite m (List.mem_cons_of_mem _ hm))
        fun hq m hm => hquiet hq m (List.mem_cons_of_mem _ hm)

end Invariant

section Start

variable {name : String} {table : ChannelTable (Sample t)} {w : τ}

/-- Before the first step all frames are still to be read. -/
theorem fed_start
    (hchannels : ∀ p ∈ parts, ∀ c ∈ p.2, ∃ ch label capacity,
      table[c]? = some ch ∧ Channel.create label capacity p.1 = .ok ch)
    (hframes : ∀ f ∈ frames, f.length = (parts.map Prod.fst).sum * t.width) (hw : left w frames) :
    Fed left parts frames quiet (start name parts table w) [] [] frames := by
  obtain ⟨hlaid, hexternal, hinternal, hsaw, hended, hzero⟩ :=
    InputBundle.assemble_spec (t := t) name parts
  have houter : (start name parts table w).bundle.outer = [] := by
    simp [start, InputBundle.outer, hexternal]
  refine ⟨⟨hlaid, ?_, fun _ => rfl, hframes, ?_, ?_⟩, ?_, hw, ?_, ?_, ?_, by simp [start],
    by simp [start]⟩
  · intro hfull
    cases hinternal.symm.trans hfull
  · intro hend
    cases hsaw.symm.trans hend
  · simp [start, hzero]
  · intro i p c hp hc
    obtain ⟨ch, label, capacity, hch, hcreate⟩ := hchannels p (List.mem_of_getElem? hp) c hc
    obtain ⟨hkept, -, -, -, hempty, hblock⟩ := Channel.kept_of_create hcreate
    have hnone : ch.contents = [] := by
      rw [← List.length_eq_zero_iff, hkept.sound.length_contents, hempty]
    exact ⟨ch, hch, hkept, hblock, by simp [start, hnone]⟩
  · simp [houter]
  · rintro - - c hc
    obtain ⟨p, hp, hcp⟩ := List.mem_flatMap.mp hc
    obtain ⟨ch, label, capacity, hch, hcreate⟩ := hchannels p hp c hcp
    have hstate := (Channel.kept_of_create hcreate).2.1
    simp [start, ChannelTable.isClosed, hch, Channel.isClosed, hstate]
  · rintro - hdone
    cases hended.symm.trans hdone

/-- Every frame reaches all channels, once and in order.  At every moment there is one number of
frames whose blocks, one after the other, are what has been written to each channel: what was read
from it and what is on its way.  The bundle has counted these frames and those in its two buffers;
no step fails; and where the bundle has said that it has ended and nobody else closed one of its
channels, these are all frames. -/
theorem frames_delivered (name : String) (hnodup : (parts.flatMap Prod.snd).Nodup)
    (hchannels : ∀ p ∈ parts, ∀ c ∈ p.2, ∃ ch label capacity,
      table[c]? = some ch ∧ Channel.create label capacity p.1 = .ok ch)
    (htr : tr.Supplies ((parts.map Prod.fst).sum * t.width) left) (hw : left w frames)
    (hframes : ∀ f ∈ frames, f.length = (parts.map Prod.fst).sum * t.width) (moves : List (Move t))
    (hmoves : ∀ m ∈ moves, m.writesTo (parts.flatMap Prod.snd) = false) :
    let s := (start name parts table w).run tr moves
    ∃ k ≤ frames.length,
      (∀ i p c, parts[i]? = some p → c ∈ p.2 →
        s.taken c ++ s.table.contentsOf c =
          (frames.take k).flatMap (frameBlock t (parts.map Prod.fst) i)) ∧
      s.bundle.frames = k + s.bundle.externalFilled.toNat + s.bundle.internalFilled.toNat ∧
      (∀ a ∈ s.answers, ∃ outcome, a = .ok outcome) ∧
      (.ok .ended ∈ s.answers → (∀ m ∈ moves, m.closesOf (parts.flatMap Prod.snd) = false) →
        k = frames.length) := by
  intro s
  -- what is quiet is the whole run, not only the part of it that is over
  have hstart : Fed left parts frames (∀ m ∈ moves, m.closesOf (parts.flatMap Prod.snd) = false)
      (start name parts table w) [] [] frames := fed_start hchannels hframes hw
  obtain ⟨sent, inner, rest, h⟩ := hstart.run hnodup htr hmoves id
  have hsent : frames.take sent.length = sent := by
    rw [h.stream]
    exact List.take_left
  refine ⟨sent.length, ?_, ?_, h.frames_eq, h.answers_ok, ?_⟩
  · rw [h.stream, List.length_append]
    exact Nat.le_add_right _ _
  · intro i p c hp hc
    rw [hsent]
    exact (h.delivered hp hc).contentsOf_eq
  · intro hanswer hquiet
    have hstream := h.stream
    rw [h.done hquiet (h.answer_ended hanswer), List.append_nil] at hstream
    rw [hstream]

/-- Two members.  The first goes to two channels. -/
def forked : List (Nat × List NodeId) := [(1, [⟨0⟩, ⟨1⟩]), (2, [⟨2⟩])]

/-- The new channels of the two members.  The first has room for one block only. -/
def forkedChannels : ChannelTable (Sample .i16) :=
  ((Std.ExtTreeMap.empty.insert ⟨0⟩ { name := "narrow", capacity := 1, block := 1 }).insert ⟨1⟩
    { name := "deep", capacity := 3, block := 1 }).insert ⟨2⟩
      { name := "wide", capacity := 6, block := 2 }

/-- The bundle takes its first steps before anybody has opened a channel, and then waits for the
reader of the narrow one again and again. -/
def forkedMoves : List (Move .i16) :=
  List.replicate 3 .step ++
    [⟨0⟩, ⟨1⟩, ⟨2⟩].flatMap (fun c =>
      [.call c .openRing, .call c (.attach false), .call c (.awaitAttached false)]) ++
    (List.replicate 3
      [.step, .step, .step, .call ⟨0⟩ (.tryRead [0]), .call ⟨2⟩ (.tryRead [0, 0])]).flatten ++
    List.replicate 3 .step

/-- The run of the bundle at a gate. -/
def forkedRun : Intake .i16 Gate :=
  (start "in" forked forkedChannels Loop.laneSource).run Gate.transport forkedMoves

theorem frames_delivered_forked :
    .ok .ended ∈ forkedRun.answers ∧
      (∀ i p c, forked[i]? = some p → c ∈ p.2 →
        forkedRun.taken c ++ forkedRun.table.contentsOf c =
          Loop.laneFrames.flatMap (frameBlock .i16 [1, 2] i)) ∧
      forkedRun.taken ⟨2⟩ ≠ [] := by
  have hended : .ok .ended ∈ forkedRun.answers := by decide
  have hchannels : ∀ p ∈ forked, ∀ c ∈ p.2, ∃ ch label capacity,
      forkedChannels[c]? = some ch ∧ Channel.create label capacity p.1 = .ok ch := by
    have hfound : forked.all (fun p => p.2.all fun c => forkedChannels[c]?.any fun ch =>
        decide (Channel.create ch.name ch.capacity p.1 = .ok ch)) = true := by decide
    intro p hp c hc
    obtain ⟨ch, hch, hcreate⟩ := (Option.any_eq_true _ _).mp
      (List.all_eq_true.mp (List.all_eq_true.mp hfound p hp) c hc)
    exact ⟨ch, ch.name, ch.capacity, hch, of_decide_eq_true hcreate⟩
  have hlength :
      ∀ f ∈ Loop.laneFrames, f.length = (forked.map Prod.fst).sum * SampleType.i16.width := by
    decide
  have hsource : Loop.laneSource.Offers ((forked.map Prod.fst).sum * SampleType.i16.width)
      Loop.laneFrames := ⟨by simp [Loop.laneSource], rfl, hlength⟩
  obtain ⟨k, -, hwritten, -, -, hall⟩ := frames_delivered "in" (by decide) hchannels
    (Gate.supplies _) hsource hlength forkedMoves (by decide)
  have hk : k = Loop.laneFrames.length := hall hended (by decide)
  rw [hk, List.take_length] at hwritten
  exact ⟨hended, hwritten, by decide⟩

end Start

end Intake

end Dataflow
