import Dataflow.Proofs.Bundle.Layout
import Dataflow.Proofs.Bundle.Rows

/-!
# Steps of bundles

What one step of a bundle does with the frames that go through it.

**Transports.**  A transport is known by what it does when it is looked at first: one that reads has
a list of frames to hand out and then the end (`Transport.Supplies`), and one that writes does not
fail (`Transport.Unfailing`), or even takes a frame whenever it says that it can
(`Transport.Takes`).  A recorded transport keeps the frames that went through it.

**Buffers.**  A bundle holds up to two frames, one as it was read or will be written and one as
blocks.  Moving a frame from one buffer to the other does not change what is held.

**Results.**
* `InputBundle.step_cases`: what was held or still to be read is held now or still to be read, or
  went into all channels of all members.
* `InputBundle.step_spec`: the same for members with one channel each.
* `OutputBundle.step_cases`: what was held and what was taken from the channels is what was written
  and what is held now, whatever the channels have.
* `OutputBundle.step_spec`: the same where all channels have the same rows on their way.
-/

namespace Dataflow

section Traffic

/-- Frames that went through a transport, in order. -/
structure Tape where
  read : List (List UInt8) := []
  written : List (List UInt8) := []
deriving DecidableEq, Repr

namespace Transport

variable {τ : Type}

/-- A transport that keeps what went through it. -/
def recorded (tr : Transport τ) : Transport (τ × Tape) where
  pollReadable w :=
    let (r, outside) := tr.pollReadable w.1
    (r, outside, w.2)
  readFrame buffer w :=
    match tr.readFrame buffer w.1 with
    | (.ok .frame, frame, outside) =>
        (.ok .frame, frame, outside, { w.2 with read := w.2.read ++ [frame] })
    | (r, buffer, outside) => (r, buffer, outside, w.2)
  pollWritable w :=
    let (r, outside) := tr.pollWritable w.1
    (r, outside, w.2)
  writeFrame frame w :=
    match tr.writeFrame frame w.1 with
    | (.ok .sent, outside) => (.ok .sent, outside, { w.2 with written := w.2.written ++ [frame] })
    | (r, outside) => (r, outside, w.2)
  shutdown w :=
    let (r, outside) := tr.shutdown w.1
    (r, outside, w.2)

/-- A transport that hands out frames one after the other and then the end.  Which frames are left
depends on the outside; looking does not change them, and there may be none ready at any time. -/
structure Supplies (tr : Transport τ) (length : Nat) (left : τ → List (List UInt8) → Prop) :
    Prop where
  poll : ∀ {w frames}, left w frames → ∃ ready w', tr.pollReadable w = (.ok ready, w') ∧
    left w' frames
  read : ∀ {w w' frames buffer}, left w frames → tr.pollReadable w = (.ok true, w') →
    buffer.length = length →
    (∃ kept w'', tr.readFrame buffer w' = (.ok .waiting, kept, w'') ∧ kept.length = length ∧
      left w'' frames) ∨
    (frames = [] ∧ ∃ kept w'', tr.readFrame buffer w' = (.ok .ended, kept, w'') ∧
      kept.length = length ∧ left w'' []) ∨
    ∃ frame rest w'', frames = frame :: rest ∧ tr.readFrame buffer w' = (.ok .frame, frame, w'') ∧
      left w'' rest

/-- A transport that never fails when frames are written.  It may have no room at any time, also
after it has said that it has. -/
structure Unfailing (tr : Transport τ) (length : Nat) (usable : τ → Prop) : Prop where
  poll : ∀ {w}, usable w → ∃ ready w', tr.pollWritable w = (.ok ready, w') ∧ usable w'
  write : ∀ {w w' frame}, usable w → tr.pollWritable w = (.ok true, w') → frame.length = length →
    ∃ outcome w'', tr.writeFrame frame w' = (.ok outcome, w'') ∧ usable w''
  shutdown : ∀ {w}, usable w → ∃ w', tr.shutdown w = (.ok (), w') ∧ usable w'

/-- A transport that takes a frame whenever it says so.  It need not say so at any time. -/
structure Takes (tr : Transport τ) (length : Nat) (usable : τ → Prop) : Prop where
  poll : ∀ {w}, usable w → ∃ ready w', tr.pollWritable w = (.ok ready, w') ∧ usable w'
  write : ∀ {w w' frame}, usable w → tr.pollWritable w = (.ok true, w') → frame.length = length →
    ∃ w'', tr.writeFrame frame w' = (.ok .sent, w'') ∧ usable w''
  shutdown : ∀ {w}, usable w → ∃ w', tr.shutdown w = (.ok (), w') ∧ usable w'

/-- What a recorded transport has read and what it still hands out are all its frames. -/
theorem Supplies.recorded {tr : Transport τ} {length : Nat} {left : τ → List (List UInt8) → Prop}
    (h : tr.Supplies length left) (frames : List (List UInt8)) :
    tr.recorded.Supplies length fun w rest => left w.1 rest ∧ frames = w.2.read ++ rest := by
  refine ⟨?_, ?_⟩
  · rintro ⟨w, tape⟩ rest ⟨hw, hall⟩
    obtain ⟨ready, w', hpoll, hw'⟩ := h.poll hw
    exact ⟨ready, (w', tape), by simp only [Transport.recorded, hpoll], hw', hall⟩
  · rintro ⟨w, tape⟩ ⟨w', tape'⟩ rest buffer ⟨hw, hall⟩ hpoll hbuffer
    obtain ⟨ready, w₁, hfirst, -⟩ := h.poll hw
    simp only [Transport.recorded, hfirst] at hpoll
    cases hpoll
    rcases h.read hw hfirst hbuffer with ⟨kept, w'', hanswer, hkept, hw''⟩ |
      ⟨rfl, kept, w'', hanswer, hkept, hw''⟩ | ⟨frame, rest, w'', rfl, hanswer, hw''⟩
    · exact .inl ⟨kept, (w'', tape), by simp only [Transport.recorded, hanswer], hkept, hw'', hall⟩
    · exact .inr (.inl ⟨rfl, kept, (w'', tape), by simp only [Transport.recorded, hanswer], hkept,
        hw'', hall⟩)
    · refine .inr (.inr ⟨frame, rest, (w'', { tape with read := tape.read ++ [frame] }), rfl, ?_,
        hw'', ?_⟩)
      · simp only [Transport.recorded, hanswer]
      · rw [hall, List.append_assoc]
        rfl

theorem Takes.unfailing {tr : Transport τ} {length : Nat} {usable : τ → Prop}
    (h : tr.Takes length usable) : tr.Unfailing length usable := by
  refine ⟨h.poll, ?_, h.shutdown⟩
  intro w w' frame hw hpoll hlength
  obtain ⟨w'', hwrite, hw''⟩ := h.write hw hpoll hlength
  exact ⟨.sent, w'', hwrite, hw''⟩

end Transport

end Traffic

section Layouts

variable {t : SampleType}

/-- The frame in which the blocks of a row stand side by side. -/
def Row.frame (ids : List NodeId) (row : Row (Sample t)) : List UInt8 :=
  ids.flatMap fun id => wire (row id)

/-- The blocks of a frame, one for each channel. -/
def Row.ofFrame (ids : List NodeId) (size : NodeId → Nat) (frame : List UInt8) : Row (Sample t) :=
  fun id => frameBlock t (ids.map size) (ids.idxOf id) frame

/-- The frame in the buffer on the side of the transport. -/
def InputBundle.outer (b : InputBundle t) : List (List UInt8) :=
  if b.externalFilled then [b.frame] else []

/-- A bundle on its way through frames: `inner` is what its blocks were decoded from, and `rest` is
still to be read. -/
structure InputBundle.Stocked (b : InputBundle t) (parts : List (Nat × List NodeId)) (total : Nat)
    (inner rest : List (List UInt8)) : Prop where
  laid : b.Laid parts
  full : b.internalFilled = true → ∃ f, inner = [f] ∧
    f.length = (parts.map Prod.fst).sum * t.width ∧
    ∀ {i m}, b.members[i]? = some m → m.block = frameBlock t (parts.map Prod.fst) i f
  empty : b.internalFilled = false → inner = []
  length_rest : ∀ f ∈ rest, f.length = (parts.map Prod.fst).sum * t.width
  exhausted : b.sawEnd = true → rest = []
  count : b.frames + rest.length = total

/-- Channels that can take the blocks of the members whenever they have room. -/
structure InputBundle.Serves (table : ChannelTable (Sample t)) (parts : List (Nat × List NodeId)) :
    Prop where
  accepts : ∀ {p c}, p ∈ parts → c ∈ p.2 → table.hasRoom c = true → table.Accepts c
  blockOf : ∀ {p c}, p ∈ parts → c ∈ p.2 → table.blockOf c = p.1

/-- Every channel has got its block of a frame, and all had room for it. -/
structure InputBundle.Deals (parts : List (Nat × List NodeId)) (frame : List UInt8)
    (table table' : ChannelTable (Sample t)) : Prop where
  length : frame.length = (parts.map Prod.fst).sum * t.width
  room : ∀ c ∈ parts.flatMap Prod.snd, table.hasRoom c = true
  channel : ∀ {i p c}, parts[i]? = some p → c ∈ p.2 →
    table'[c]? = table[c]?.map (Channel.put · (frameBlock t (parts.map Prod.fst) i frame))
  isClosed : ∀ c, table'.isClosed c = table.isClosed c

/-- A bundle whose members read one channel each. -/
structure OutputBundle.Suits (b : OutputBundle t) (ids : List NodeId) (size : NodeId → Nat)
    (length : Nat) : Prop where
  inputs : b.reads = ids
  sized : b.members.map (fun m => m.block.length) = ids.map size
  tiles : Tiles 0 (b.members.map OutputMember.part) length
  length_frame : b.frame.length = length

/-- The frames in the buffers of a bundle that writes.  The blocks are younger. -/
def OutputBundle.held (b : OutputBundle t) : List (List UInt8) :=
  (if b.externalFilled then [b.frame] else []) ++
    if b.internalFilled then [b.members.flatMap fun m => wire m.block] else []

end Layouts

section Rows

variable {t : SampleType} {ids : List NodeId} {size : NodeId → Nat} {frame : List UInt8}

/-- The blocks of a frame stand in it side by side. -/
theorem Row.frame_ofFrame (hnodup : ids.Nodup) (h : frame.length = (ids.map size).sum * t.width) :
    (ofFrame ids size frame : Row (Sample t)).frame ids = frame := by
  induction ids generalizing frame with
  | nil =>
      have hnil : frame = [] := List.length_eq_zero_iff.mp (by simpa using h)
      rw [hnil]
      rfl
  | cons id rest ih =>
      obtain ⟨hid, hrest⟩ := List.nodup_cons.mp hnodup
      rw [List.map_cons, List.sum_cons, Nat.add_mul] at h
      have hfirst : wire (ofFrame (id :: rest) size frame id : List (Sample t)) =
          frame.take (size id * t.width) := by
        rw [ofFrame, List.idxOf_cons_self, List.map_cons]
        exact wire_frameBlock_zero (by omega)
      have hother : ∀ d ∈ rest, wire (ofFrame (id :: rest) size frame d : List (Sample t)) =
          wire (ofFrame rest size (frame.drop (size id * t.width)) d : List (Sample t)) := by
        intro d hd
        have hne : id ≠ d := fun heq => hid (heq ▸ hd)
        rw [ofFrame, List.idxOf_cons_ne _ hne, List.map_cons, frameBlock_succ]
        rfl
      have hdrop : (frame.drop (size id * t.width)).length = (rest.map size).sum * t.width := by
        rw [List.length_drop]
        omega
      rw [Row.frame, List.flatMap_cons, hfirst, List.flatMap_congr hother]
      exact (congrArg _ (ih hrest hdrop)).trans (List.take_append_drop _ _)

end Rows

namespace InputBundle

variable {t : SampleType} {τ : Type} {tr : Transport τ} {left : τ → List (List UInt8) → Prop}
  {b : InputBundle t} {parts : List (Nat × List NodeId)} {table : ChannelTable (Sample t)} {w : τ}
  {total : Nat} {inner rest : List (List UInt8)}

section Fetching

theorem Stocked.length_inner (h : b.Stocked parts total inner rest) :
    inner.length = b.internalFilled.toNat := by
  cases hfull : b.internalFilled with
  | false => simp [h.empty hfull]
  | true =>
      obtain ⟨f, rfl, -⟩ := h.full hfull
      rfl

theorem length_outer : b.outer.length = b.externalFilled.toNat := by
  unfold outer
  cases b.externalFilled <;> rfl

/-- Once decoded, the frame in the outer buffer is the one in the blocks. -/
theorem Stocked.decode (h : b.Stocked parts total inner rest) :
    Stocked
      { b with
        members := b.members.map (decodeFrame b.frame)
        externalFilled := false
        internalFilled := true }
      parts total [b.frame] rest := by
  refine ⟨(h.laid.decode b.frame).congr rfl rfl, ?_, nofun, h.length_rest, h.exhausted, h.count⟩
  refine fun _ => ⟨b.frame, rfl, h.laid.frame, ?_⟩
  intro i m hm
  rw [List.getElem?_map] at hm
  obtain ⟨n, hn, rfl⟩ := Option.map_eq_some_iff.mp hm
  exact h.laid.block_decodeFrame h.laid.frame hn

/-- The half of a step on the side of the transport moves frames towards the channels. -/
theorem fetch_spec (h : b.Stocked parts total inner rest)
    (htr : tr.Supplies ((parts.map Prod.fst).sum * t.width) left) (hw : left w rest) :
    ∃ moved b' w' inner' rest',
      b.fetch tr w = (.ok moved, b', w') ∧ b'.Stocked parts total inner' rest' ∧ left w' rest' ∧
      inner ++ b.outer ++ rest = inner' ++ b'.outer ++ rest' ∧ b'.ended = b.ended := by
  unfold fetch
  by_cases hdecode : (b.externalFilled && !b.internalFilled) = true
  · rw [Bool.and_eq_true, Bool.not_eq_true'] at hdecode
    simp only [hdecode.1, hdecode.2, Bool.not_false, Bool.and_self, if_true]
    refine ⟨true, _, w, [b.frame], rest, rfl, h.decode, hw, ?_, rfl⟩
    simp [outer, hdecode.1, h.empty hdecode.2]
  rw [if_neg hdecode]
  by_cases hread : (!b.externalFilled && !b.sawEnd) = true
  · rw [if_pos hread]
    rw [Bool.and_eq_true, Bool.not_eq_true', Bool.not_eq_true'] at hread
    obtain ⟨ready, w', hpoll, hw'⟩ := htr.poll hw
    cases ready with
    | false =>
        simp only [hpoll]
        exact ⟨false, b, w', inner, rest, rfl, h, hw', rfl, rfl⟩
    | true =>
        rcases htr.read hw hpoll h.laid.frame with
          ⟨kept, w'', hanswer, hkept, hw''⟩ | ⟨rfl, kept, w'', hanswer, hkept, hw''⟩ |
          ⟨frame, rest, w'', rfl, hanswer, hw''⟩
        · simp only [hpoll, hanswer]
          refine ⟨false, { b with frame := kept }, w'', inner, rest, rfl, ?_, hw'', ?_, rfl⟩
          · exact ⟨h.laid.congr rfl (hkept.trans h.laid.frame.symm), h.full, h.empty, h.length_rest,
              h.exhausted, h.count⟩
          · simp [outer, hread.1]
        · simp only [hpoll, hanswer]
          refine ⟨true, { b with frame := kept, sawEnd := true }, w'', inner, [], rfl, ?_, hw'', ?_,
            rfl⟩
          · exact ⟨h.laid.congr rfl (hkept.trans h.laid.frame.symm), h.full, h.empty, h.length_rest,
              fun _ => rfl, h.count⟩
          · simp [outer, hread.1]
        · have hframe := h.length_rest frame List.mem_cons_self
          simp only [hpoll, hanswer]
          refine ⟨true, { b with frame, externalFilled := true, frames := b.frames + 1 },
            w'', inner, rest, rfl, ?_, hw'', ?_, rfl⟩
          · refine ⟨h.laid.congr rfl (hframe.trans h.laid.frame.symm), h.full, h.empty,
              fun f hf => h.length_rest f (List.mem_cons_of_mem _ hf), ?_, ?_⟩
            · intro hend
              cases hread.2.symm.trans hend
            · have hcount := h.count
              rw [List.length_cons] at hcount
              dsimp only
              omega
          · simp [outer, hread.1]
  · rw [if_neg hread]
    exact ⟨false, b, w, inner, rest, rfl, h, hw, rfl, rfl⟩

end Fetching

section Delivering

/-- Where all channels have room, every channel gets its block of the frame in the blocks. -/
theorem Stocked.write (h : b.Stocked parts total inner rest) (hfull : b.internalFilled = true)
    (hnodup : (parts.flatMap Prod.snd).Nodup) (hserves : Serves table parts)
    (hroom : ∀ c ∈ parts.flatMap Prod.snd, table.hasRoom c = true) :
    ∃ f table', inner = [f] ∧ writeMembers b.members table = (.ok (), table') ∧
      Deals parts f table table' := by
  obtain ⟨f, rfl, hlength, hblocks⟩ := h.full hfull
  have hwrites : (b.members.flatMap InputMember.outputs).Nodup := by
    have hw := h.laid.writes_eq
    unfold writes at hw
    rwa [hw]
  have haccepts : ∀ m ∈ b.members, ∀ c ∈ m.outputs, table.Accepts c := by
    intro m hm c hc
    obtain ⟨i, p, -, hp, hout, -⟩ := h.laid.part hm
    have hp : p ∈ parts := List.mem_of_getElem? hp
    have hc : c ∈ p.2 := hout ▸ hc
    exact hserves.accepts hp hc (hroom c (List.mem_flatMap.mpr ⟨p, hp, hc⟩))
  have hsizes : ∀ m ∈ b.members, ∀ c ∈ m.outputs, m.block.length = table.blockOf c := by
    intro m hm c hc
    obtain ⟨i, p, -, hp, hout, hsize⟩ := h.laid.part hm
    rw [hserves.blockOf (List.mem_of_getElem? hp) (hout ▸ hc), hsize]
  refine ⟨f, _, rfl, writeMembers_eq hwrites haccepts hsizes, hlength, hroom, ?_,
    fun c => ChannelTable.isClosed_putAll⟩
  intro i p c hp hc
  obtain ⟨m, hm, hout, -⟩ := h.laid.member hp
  -- no channel gets a block of two members, so the one that is found for it is that of
  -- its own member
  have hkeys :
      ((b.members.flatMap fun m => m.outputs.map fun id => (id, m.block)).map Prod.fst).Nodup := by
    simpa [List.map_flatMap, Function.comp_def] using hwrites
  have hpair : (c, m.block) ∈ b.members.flatMap fun m => m.outputs.map fun id => (id, m.block) :=
    List.mem_flatMap.mpr ⟨m, List.mem_of_getElem? hm, List.mem_map.mpr ⟨c, hout ▸ hc, rfl⟩⟩
  rw [ChannelTable.getElem?_putAll hkeys, lookup_of_mem hkeys hpair, hblocks hm]

/-- The half of a step on the side of the channels delivers the frame in the blocks to all of
them or to none. -/
theorem deliver_cases (h : b.Stocked parts total inner rest)
    (hnodup : (parts.flatMap Prod.snd).Nodup) (hserves : Serves table parts) :
    ∃ moved b' table' inner' out,
      b.deliver table = (.ok moved, b', table') ∧ b'.Stocked parts total inner' rest ∧
      inner = out ++ inner' ∧ b'.outer = b.outer ∧ b'.ended = b.ended ∧
      (moved = none → ∃ c ∈ parts.flatMap Prod.snd, table.isClosed c = true) ∧
      (out = [] ∧ table' = table ∨ ∃ f, out = [f] ∧ Deals parts f table table') := by
  unfold deliver
  rw [h.laid.writes_eq]
  by_cases hfull : b.internalFilled = true
  · simp only [hfull, Bool.not_true, Bool.false_eq_true, if_false]
    by_cases hclosed : (parts.flatMap Prod.snd).any table.isClosed = true
    · rw [if_pos hclosed]
      exact ⟨none, b, table, inner, [], rfl, h, rfl, rfl, rfl, fun _ => List.any_eq_true.mp hclosed,
        .inl ⟨rfl, rfl⟩⟩
    rw [if_neg hclosed]
    by_cases hroom : (parts.flatMap Prod.snd).all table.hasRoom = true
    · rw [if_pos hroom]
      obtain ⟨f, table', rfl, hwrite, hdeals⟩ :=
        h.write hfull hnodup hserves (List.all_eq_true.mp hroom)
      rw [hwrite]
      exact ⟨some true, { b with internalFilled := false }, table', [], [f], rfl,
        ⟨h.laid.congr rfl rfl, nofun, fun _ => rfl, h.length_rest, h.exhausted, h.count⟩, rfl, rfl,
        rfl, nofun, .inr ⟨f, rfl, hdeals⟩⟩
    · rw [if_neg hroom]
      exact ⟨some false, b, table, inner, [], rfl, h, rfl, rfl, rfl, nofun, .inl ⟨rfl, rfl⟩⟩
  · rw [Bool.not_eq_true] at hfull
    simp only [hfull, Bool.not_false, if_true]
    exact ⟨some false, b, table, inner, [], rfl, h, rfl, rfl, rfl, nofun, .inl ⟨rfl, rfl⟩⟩

end Delivering

section Stepping

/-- A step of a bundle that has not ended.  What was in its buffers or still to be read is so now,
except for a frame that went into all channels.  The bundle closes its channels and ends where
nothing is left to be moved, or where a channel is closed already. -/
theorem step_cases (h : b.Stocked parts total inner rest) (hnodup : (parts.flatMap Prod.snd).Nodup)
    (htr : tr.Supplies ((parts.map Prod.fst).sum * t.width) left) (hw : left w rest)
    (hserves : Serves table parts) (hopen : b.ended = false) :
    ∃ outcome b' dealt w' inner' rest' out,
      b.step tr table w =
        (.ok outcome, b', if b'.ended then dealt.closeAll (parts.flatMap Prod.snd) else dealt, w') ∧
      b'.Stocked parts total inner' rest' ∧ left w' rest' ∧
      inner ++ b.outer ++ rest = out ++ (inner' ++ b'.outer ++ rest') ∧
      (outcome = .ended ↔ b'.ended = true) ∧
      (b'.ended = true → inner' ++ b'.outer ++ rest' = [] ∨
        ∃ c ∈ parts.flatMap Prod.snd, table.isClosed c = true) ∧
      (out = [] ∧ dealt = table ∨ ∃ f, out = [f] ∧ Deals parts f table dealt) := by
  obtain ⟨fetched, mid, w', inner₁, rest', hfetch, hmid, hw', hmoved, hended⟩ := fetch_spec h htr hw
  obtain ⟨delivered, b', dealt, inner', out, hdeliver, hb', hinner, houter, hended', hlost, hout⟩ :=
    deliver_cases hmid hnodup hserves
  have hstill : b'.ended = false := hended'.trans (hended.trans hopen)
  have hbalance : inner ++ b.outer ++ rest = out ++ (inner' ++ b'.outer ++ rest') := by
    rw [hmoved, hinner, houter]
    simp only [List.append_assoc]
  have hend : Stocked { b' with ended := true } parts total inner' rest' :=
    ⟨hb'.laid.congr rfl rfl, hb'.full, hb'.empty, hb'.length_rest, hb'.exhausted, hb'.count⟩
  have hclose : b'.close dealt =
      ({ b' with ended := true }, dealt.closeAll (parts.flatMap Prod.snd)) := by
    rw [close, hb'.laid.writes_eq]
  unfold step
  simp only [hopen, hfetch, hdeliver, Bool.false_eq_true, if_false]
  cases delivered with
  | none =>
      simp only [hclose]
      exact ⟨.ended, _, dealt, w', inner', rest', out, rfl, hend, hw', hbalance, by simp,
        fun _ => .inr (hlost rfl), hout⟩
  | some delivered =>
      by_cases hdrained : b'.isDrained = true
      · simp only [hdrained, if_true, hclose]
        refine ⟨.ended, _, dealt, w', inner', rest', out, rfl, hend, hw', hbalance, by simp,
          fun _ => .inl ?_, hout⟩
        simp only [isDrained, Bool.and_eq_true, Bool.not_eq_true'] at hdrained
        simp [outer, hdrained.1.2, hb'.empty hdrained.2, hb'.exhausted hdrained.1.1]
      · simp only [hdrained, Bool.false_eq_true, if_false]
        refine ⟨_, b', dealt, w', inner', rest', out, by rw [hstill]; rfl, hb', hw',
          hbalance, ?_, ?_, hout⟩
        · cases fetched <;> cases delivered <;> simp [BundleStep.ofMoved, hstill]
        · simp [hstill]

variable {ids : List NodeId} {size : NodeId → Nat} {rows : List (Row (Sample t))}

/-- Channels with the same rows on their way serve a bundle whose members have one of them each. -/
theorem serves_of_carries (h : table.Carries ids size .steady rows) :
    Serves table (ids.map fun id => (size id, [id])) := by
  refine ⟨?_, ?_⟩
  · intro p c hp hc hroom
    obtain ⟨id, hid, rfl⟩ := List.mem_map.mp hp
    cases List.mem_singleton.mp hc
    exact h.accepts hid hroom
  · intro p c hp hc
    obtain ⟨id, hid, rfl⟩ := List.mem_map.mp hp
    cases List.mem_singleton.mp hc
    exact h.blockOf_eq hid

/-- A frame that was dealt out to them is the last row on their way. -/
theorem Deals.carries {frame : List UInt8} {table' : ChannelTable (Sample t)}
    (h : Deals (ids.map fun id => (size id, [id])) frame table table')
    (hch : table.Carries ids size .steady rows) :
    table'.Carries ids size .steady (rows ++ [.ofFrame ids size frame]) := by
  have hids : (ids.map fun id => (size id, [id])).flatMap Prod.snd = ids := by
    rw [List.flatMap_map, List.flatMap_singleton']
  have hsizes : (ids.map fun id => (size id, [id])).map Prod.fst = ids.map size := by simp
  refine hch.push (hids ▸ h.room) ?_ ?_
  · intro id hid
    rw [Row.ofFrame, length_frameBlock, List.getD_eq_getElem?_getD, List.getElem?_map,
      List.getElem?_idxOf hid]
    rfl
  · intro id hid
    have hpart : (ids.map fun id => (size id, [id]))[ids.idxOf id]? = some (size id, [id]) := by
      rw [List.getElem?_map, List.getElem?_idxOf hid]
      rfl
    rw [h.channel hpart List.mem_cons_self, hsizes]
    rfl

/-- A step of a bundle whose members have one channel each, where all channels have the same rows on
their way. -/
theorem step_spec (h : b.Stocked (ids.map fun id => (size id, [id])) total inner rest)
    (hnodup : ids.Nodup) (htr : tr.Supplies ((ids.map size).sum * t.width) left) (hw : left w rest)
    (hch : table.Carries ids size .steady rows) (hopen : b.ended = false) :
    ∃ outcome b' table' w' inner' rest' sent,
      b.step tr table w = (.ok outcome, b', table', w') ∧
      b'.Stocked (ids.map fun id => (size id, [id])) total inner' rest' ∧ left w' rest' ∧
      table'.Carries ids size (if b'.ended then .closed else .steady) (rows ++ sent) ∧
      inner ++ b.outer ++ rest = sent.map (Row.frame ids) ++ (inner' ++ b'.outer ++ rest') ∧
      (b'.ended = true → inner' ++ b'.outer ++ rest' = []) ∧
      (outcome = .ended ↔ b'.ended = true) := by
  have hsizes : (ids.map fun id => (size id, [id])).map Prod.fst = ids.map size := by simp
  have hids : (ids.map fun id => (size id, [id])).flatMap Prod.snd = ids := by
    rw [List.flatMap_map, List.flatMap_singleton']
  obtain ⟨outcome, b', dealt, w', inner', rest', out, hstep, hb', hw', hbalance, houtcome, hend,
    hout⟩ := step_cases h (hids.symm ▸ hnodup) (hsizes.symm ▸ htr) hw (serves_of_carries hch) hopen
  rw [hids] at hstep hend
  have hsent : ∃ sent, sent.map (Row.frame ids) = out ∧
      dealt.Carries ids size .steady (rows ++ sent) := by
    rcases hout with ⟨rfl, rfl⟩ | ⟨f, rfl, hdeals⟩
    · exact ⟨[], rfl, by rwa [List.append_nil]⟩
    · have hlength := hdeals.length
      rw [hsizes] at hlength
      refine ⟨[.ofFrame ids size f], ?_, hdeals.carries hch⟩
      rw [List.map_singleton, Row.frame_ofFrame hnodup hlength]
  obtain ⟨sent, rfl, hcarries⟩ := hsent
  refine ⟨outcome, b', _, w', inner', rest', sent, hstep, hb', hw', ?_, hbalance, ?_, houtcome⟩
  · cases b'.ended with
    | false => exact hcarries
    | true => exact hcarries.close
  · intro hended
    rcases hend hended with hnone | ⟨c, hc, hclosed⟩
    · exact hnone
    · cases (hch.isClosed_iff hc).mp hclosed

end Stepping

end InputBundle

namespace OutputBundle

section Sending

variable {t : SampleType} {τ : Type} {tr : Transport τ} {usable : τ → Prop} {b : OutputBundle t}
  {ids : List NodeId} {size : NodeId → Nat} {length : Nat} {w : τ}

/-- Encoding moves a frame from one buffer to the other. -/
theorem encode_spec (h : b.Suits ids size length) (hinternal : b.internalFilled = true)
    (hexternal : b.externalFilled = false) :
    let b' := { b with
      frame := b.members.foldl encodeMember b.frame
      internalFilled := false
      externalFilled := true }
    b'.Suits ids size length ∧ b'.held = b.held := by
  have hframe : b.members.foldl encodeMember b.frame = b.members.flatMap fun m => wire m.block := by
    rw [encodeMembers_eq (h.length_frame.symm ▸ h.tiles), List.take_zero, List.nil_append]
  refine ⟨⟨h.inputs, h.sized, h.tiles, ?_⟩, ?_⟩
  · rw [hframe, ← h.tiles.length_wires, Nat.zero_add]
  · simp [held, hinternal, hexternal, hframe]

/-- On the side of the transport frames are only taken from what is held. -/
theorem send_spec (h : b.Suits ids size length) (htr : tr.Unfailing length usable) (hw : usable w)
    (tape : Tape) :
    ∃ moved b' w' out,
      b.send tr.recorded (w, tape) =
        (.ok moved, b', w', { tape with written := tape.written ++ out }) ∧
      b'.Suits ids size length ∧ usable w' ∧ b.held = out ++ b'.held ∧
      b'.frames = b.frames + out.length ∧ b'.sawEnd = b.sawEnd ∧ b'.ended = b.ended := by
  unfold send
  by_cases hencode : (b.internalFilled && !b.externalFilled) = true
  · rw [Bool.and_eq_true, Bool.not_eq_true'] at hencode
    obtain ⟨hsuits, hheld⟩ := encode_spec h hencode.1 hencode.2
    simp only [hencode.1, hencode.2, Bool.not_false, Bool.and_self, if_true]
    exact ⟨true, _, w, [], by simp, hsuits, hw, hheld.symm, rfl, rfl, rfl⟩
  rw [if_neg hencode]
  by_cases hfull : b.externalFilled = true
  · rw [if_pos hfull]
    obtain ⟨ready, w', hpoll, hw'⟩ := htr.poll hw
    cases ready with
    | false =>
        simp only [Transport.recorded, hpoll]
        exact ⟨false, b, w', [], by simp, h, hw', rfl, rfl, rfl, rfl⟩
    | true =>
        obtain ⟨outcome, w'', hwrite, hw''⟩ := htr.write hw hpoll h.length_frame
        cases outcome with
        | waiting =>
            simp only [Transport.recorded, hpoll, hwrite]
            exact ⟨false, b, w'', [], by simp, h, hw'', rfl, rfl, rfl, rfl⟩
        | sent =>
            simp only [Transport.recorded, hpoll, hwrite]
            refine ⟨true, { b with externalFilled := false, frames := b.frames + 1 }, w'',
              [b.frame], rfl, ⟨h.inputs, h.sized, h.tiles, h.length_frame⟩, hw'', ?_, rfl, rfl, rfl⟩
            simp [held, hfull]
  · rw [if_neg hfull]
    exact ⟨false, b, w, [], by simp, h, hw, rfl, rfl, rfl, rfl⟩

end Sending

section Collecting

variable {t : SampleType} {b : OutputBundle t} {ch : ChannelTable (Sample t)} {ids : List NodeId}
  {size : NodeId → Nat} {length : Nat}

/-- Where every channel has a block, the next block of each is taken, and they are held as a
frame. -/
theorem take_spec (h : b.Suits ids size length) (hnodup : ids.Nodup)
    (hholds : ∀ id ∈ ids, ch.Holds id) (hblock : ∀ id ∈ ids, ch.blockOf id = size id)
    (hfree : b.internalFilled = false) :
    ∃ members, readMembers b.members ch = (.ok (), members, ch.popAll ids) ∧
      Suits { b with members, internalFilled := true } ids size length ∧
      held { b with members, internalFilled := true } = b.held ++ [Row.frame ids ch.head] := by
  have hids : b.members.map OutputMember.input = ids := h.inputs
  have hmem : ∀ m ∈ b.members, m.input ∈ ids := by
    intro m hm
    exact hids ▸ List.mem_map_of_mem hm
  have hsize : ∀ m ∈ b.members, m.block.length = ch.blockOf m.input := by
    have hsized := h.sized
    rw [← hids, List.map_map] at hsized
    intro m hm
    rw [hblock _ (hmem m hm)]
    exact List.map_inj_left.mp hsized m hm
  have hhead : ∀ m ∈ b.members, (ch.head m.input).length = m.block.length := by
    intro m hm
    rw [(hholds _ (hmem m hm)).length_head, hsize m hm]
  have hread := readMembers_eq (hids.symm ▸ hnodup) (fun m hm => hholds _ (hmem m hm)) hsize
  rw [hids] at hread
  refine ⟨_, hread, ⟨?_, ?_, ?_, h.length_frame⟩, ?_⟩
  · rw [← h.inputs, reads, List.map_map]
    rfl
  · rw [← h.sized, List.map_map]
    exact List.map_congr_left hhead
  · rw [List.map_map]
    have hparts : b.members.map (OutputMember.part ∘ fun m => { m with block := ch.head m.input }) =
        b.members.map OutputMember.part :=
      List.map_congr_left fun m hm => by simp [OutputMember.part, hhead m hm]
    rw [hparts]
    exact h.tiles
  · have hframe : (b.members.flatMap fun m => wire (ch.head m.input)) = Row.frame ids ch.head := by
      rw [Row.frame, ← hids, List.flatMap_map]
    simp [held, hfree, List.flatMap_map, hframe]

/-- On the side of the channels the next block of every channel is taken and they are added to what
is held, or nothing is.  The end is seen where a channel is closed and has no block. -/
theorem collect_cases (h : b.Suits ids size length) (hnodup : ids.Nodup)
    (hholds : ∀ id ∈ ids, ch.hasData id = true → ch.Holds id)
    (hblock : ∀ id ∈ ids, ch.blockOf id = size id) :
    ∃ moved b' ch', b.collect ch = (.ok moved, b', ch') ∧ b'.Suits ids size length ∧
      b'.frames = b.frames ∧ b'.ended = b.ended ∧
      (ch' = ch ∧ b'.held = b.held ∧
          (b'.sawEnd = true →
            b.sawEnd = true ∨ ∃ id ∈ ids, ch.isClosed id = true ∧ ch.hasData id = false) ∨
        ch' = ch.popAll ids ∧ (∀ id ∈ ids, ch.hasData id = true) ∧
          b'.held = b.held ++ [Row.frame ids ch.head] ∧ b'.sawEnd = false) := by
  unfold collect
  by_cases hbusy : (b.internalFilled || b.sawEnd) = true
  · rw [if_pos hbusy]
    exact ⟨false, b, ch, rfl, h, rfl, rfl, .inl ⟨rfl, rfl, .inl⟩⟩
  rw [if_neg hbusy, h.inputs]
  rw [Bool.or_eq_true, not_or, Bool.not_eq_true, Bool.not_eq_true] at hbusy
  by_cases hall : ids.all ch.hasData = true
  · have hdata := List.all_eq_true.mp hall
    obtain ⟨members, hread, hsuits, hheld⟩ :=
      take_spec h hnodup (fun id hid => hholds id hid (hdata id hid)) hblock hbusy.1
    rw [if_pos hall, hread]
    exact ⟨true, { b with members, internalFilled := true }, _, rfl, hsuits, rfl, rfl,
      .inr ⟨rfl, hdata, hheld, hbusy.2⟩⟩
  rw [if_neg hall]
  by_cases hclosed : (ids.any fun c => ch.isClosed c && !ch.hasData c) = true
  · rw [if_pos hclosed]
    obtain ⟨id, hid, hlast⟩ := List.any_eq_true.mp hclosed
    rw [Bool.and_eq_true, Bool.not_eq_true'] at hlast
    exact ⟨false, { b with sawEnd := true }, ch, rfl, ⟨h.inputs, h.sized, h.tiles, h.length_frame⟩,
      rfl, rfl, .inl ⟨rfl, rfl, fun _ => .inr ⟨id, hid, hlast⟩⟩⟩
  · rw [if_neg hclosed]
    exact ⟨false, b, ch, rfl, h, rfl, rfl, .inl ⟨rfl, rfl, .inl⟩⟩

end Collecting

section Stepping

variable {t : SampleType} {τ : Type} {tr : Transport τ} {usable : τ → Prop} {b : OutputBundle t}
  {ch : ChannelTable (Sample t)} {ids : List NodeId} {size : NodeId → Nat} {length : Nat}
  {state : ChannelState} {rows : List (Row (Sample t))} {w : τ}

/-- Nothing is held by a bundle that is drained. -/
theorem held_of_isDrained (h : b.isDrained = true) : b.sawEnd = true ∧ b.held = [] := by
  simp only [isDrained, Bool.and_eq_true, Bool.not_eq_true'] at h
  simp [held, h.1.1, h.1.2, h.2]

/-- A step of a bundle that has not ended.  What was held and what was taken from the channels
was written or is held now, in this order.  The bundle ends as soon as it has seen the end and
nothing is held. -/
theorem step_cases (h : b.Suits ids size length) (hnodup : ids.Nodup)
    (htr : tr.Unfailing length usable) (hw : usable w)
    (hholds : ∀ id ∈ ids, ch.hasData id = true → ch.Holds id)
    (hblock : ∀ id ∈ ids, ch.blockOf id = size id) (hopen : b.ended = false) (tape : Tape) :
    ∃ outcome b' ch' w' out,
      b.step tr.recorded ch (w, tape) =
        (.ok outcome, b', ch', w', { tape with written := tape.written ++ out }) ∧
      b'.Suits ids size length ∧ usable w' ∧ b'.frames = b.frames + out.length ∧
      (b'.ended = true → b'.sawEnd = true ∧ b'.held = []) ∧ (outcome = .ended ↔ b'.ended = true) ∧
      (ch' = (if b'.ended then ch.closeAll ids else ch) ∧ b.held = out ++ b'.held ∧
          (b'.sawEnd = true →
            b.sawEnd = true ∨ ∃ id ∈ ids, ch.isClosed id = true ∧ ch.hasData id = false) ∨
        ch' = ch.popAll ids ∧ (∀ id ∈ ids, ch.hasData id = true) ∧
          b.held ++ [Row.frame ids ch.head] = out ++ b'.held ∧ b'.sawEnd = false) := by
  obtain ⟨sent, mid, w', out, hsend, hmid, hw', hout, hcount, hsaw, hended⟩ :=
    send_spec h htr hw tape
  obtain ⟨collected, b', ch', hcollect, hb', hcount', hended', hcases⟩ :=
    collect_cases hmid hnodup hholds hblock
  rw [hsaw] at hcases
  have hstill : b'.ended = false := hended'.trans (hended.trans hopen)
  have hframes : b'.frames = b.frames + out.length := hcount'.trans hcount
  unfold step
  simp only [hopen, hsend, hcollect, Bool.false_eq_true, if_false]
  by_cases hdrained : b'.isDrained = true
  · obtain ⟨hlast, hnone⟩ := held_of_isDrained hdrained
    obtain ⟨w'', hshut, hw''⟩ := htr.shutdown hw'
    rw [if_pos hdrained]
    simp only [Transport.recorded, hshut, close, hb'.inputs]
    refine ⟨.ended, { b' with ended := true }, _, w'', out, rfl,
      ⟨hb'.inputs, hb'.sized, hb'.tiles, hb'.length_frame⟩, hw'', hframes,
      fun _ => ⟨hlast, hnone⟩, by simp, .inl ?_⟩
    rcases hcases with ⟨rfl, hheld, hseen⟩ | ⟨-, -, -, hunseen⟩
    · exact ⟨rfl, hout.trans (congrArg _ hheld.symm), hseen⟩
    · cases hunseen.symm.trans hlast
  · rw [if_neg hdrained]
    refine ⟨_, b', ch', w', out, rfl, hb', hw', hframes, ?_, ?_, ?_⟩
    · simp [hstill]
    · cases sent <;> cases collected <;> simp [BundleStep.ofMoved, hstill]
    · rcases hcases with ⟨rfl, hheld, hseen⟩ | ⟨rfl, hdata, hheld, hunseen⟩
      · exact .inl ⟨by simp [hstill], by rw [hout, hheld], hseen⟩
      · exact .inr ⟨rfl, hdata, by rw [hout, hheld, List.append_assoc], hunseen⟩

/-- A step of a bundle that has not ended, where all channels have the same rows on their way. -/
theorem step_spec (h : b.Suits ids size length) (hnodup : ids.Nodup) (hne : ids ≠ [])
    (htr : tr.Takes length usable) (hw : usable w) (hch : ch.Carries ids size state rows)
    (hstate : state = .steady ∨ state = .closed)
    (hend : b.sawEnd = true → state = .closed ∧ rows = []) (hopen : b.ended = false) (tape : Tape) :
    ∃ outcome b' ch' w' out taken rest,
      b.step tr.recorded ch (w, tape) =
        (.ok outcome, b', ch', w', { tape with written := tape.written ++ out }) ∧
      b'.Suits ids size length ∧ usable w' ∧ ch'.Carries ids size state rest ∧
      rows = taken ++ rest ∧ b.held ++ taken.map (Row.frame ids) = out ++ b'.held ∧
      (b'.sawEnd = true → state = .closed ∧ rest = []) ∧
      (b'.ended = true → b'.sawEnd = true ∧ b'.held = []) ∧
      (outcome = .ended ↔ b'.ended = true) := by
  have hdata : ∀ id ∈ ids, (ch.hasData id = true ↔ rows ≠ []) :=
    fun id hid => hch.hasData_iff hid hstate
  have hholds : ∀ id ∈ ids, ch.hasData id = true → ch.Holds id := by
    intro id hid hfull
    obtain ⟨row, rest, rfl⟩ := List.exists_cons_of_ne_nil ((hdata id hid).mp hfull)
    exact hch.holds hid
  obtain ⟨outcome, b', ch', w', out, hstep, hb', hw', -, hdone, hended, hcases⟩ :=
    step_cases h hnodup htr.unfailing hw hholds (fun id hid => hch.blockOf_eq hid) hopen tape
  rcases hcases with ⟨rfl, hheld, hseen⟩ | ⟨rfl, hfull, hheld, hunseen⟩
  · have hlast : b'.sawEnd = true → state = .closed ∧ rows = [] := by
      intro hsaw
      rcases hseen hsaw with hbefore | ⟨id, hid, hclosed, hempty⟩
      · exact hend hbefore
      · refine ⟨(hch.isClosed_iff hid).mp hclosed, ?_⟩
        by_contra hrows
        cases hempty.symm.trans ((hdata id hid).mpr hrows)
    refine ⟨outcome, b', _, w', out, [], rows, hstep, hb', hw', ?_, rfl, by simpa using hheld,
      hlast, hdone, hended⟩
    cases hover : b'.ended with
    | false => simpa using hch
    | true =>
        rw [(hlast (hdone hover).1).1]
        simpa using hch.close
  · obtain ⟨first, hfirst⟩ := List.exists_mem_of_ne_nil ids hne
    obtain ⟨row, rest, rfl⟩ :=
      List.exists_cons_of_ne_nil ((hdata first hfirst).mp (hfull first hfirst))
    have hframe : Row.frame ids ch.head = row.frame ids :=
      List.flatMap_congr fun id hid => by rw [hch.head_eq hid]
    refine ⟨outcome, b', _, w', out, [row], rest, hstep, hb', hw', hch.pop hnodup, rfl, ?_, ?_,
      hdone, hended⟩
    · rw [← hheld, hframe]
      rfl
    · intro hsaw
      cases hunseen.symm.trans hsaw

end Stepping

end OutputBundle

end Dataflow
