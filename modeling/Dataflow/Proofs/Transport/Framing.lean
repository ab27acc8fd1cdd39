import Dataflow.Transport.Stream
import Mathlib.Data.List.Basic

/-!
# Frames of a byte stream

How the bytes of a stream are cut into pieces does not show in the frames that are read from it.

**Streams.**  A stream is anything that answers reads (`Reader`).  It delivers the bytes `s` when
each answer is an interruption or some of the bytes that come next, no more than there was space
for, and when no bytes come only after all of `s`.  `Delivers` is a closure by rules, so only
finitely many interruptions come in a row.

**Loop.**  `Fills` is the loop that fills a frame, one rule for each way a turn can go.  It has at
most one outcome (`Fills.unique`).  `fillFrame` is this loop on a list of answers
(`fills_fillFrame`).

**Results.**
* `Delivers.takesNext`: one call takes the next bytes for a frame, or else all that are left.
* `Delivers.calls`: call after call takes frame after frame.
* `frames_whatever_pieces`: every stream that delivers `s` gives the pieces of `s` and then
  tells how it ended.
-/

namespace Dataflow

section Defs

variable {σ : Type}

/-- What a stream in some state does when it is read into some space. -/
abbrev Reader (σ : Type) := Nat → σ → ReadEvent × σ

/-- The bytes of an answer. -/
def ReadEvent.bytes : ReadEvent → List UInt8
  | .piece bytes => bytes
  | _ => []

/-- An answer to a read into `space` bytes, when the bytes `s` are still to come. -/
def ReadEvent.Suits (space : Nat) (s : List UInt8) : ReadEvent → Prop
  | .piece bytes => bytes <+: s ∧ bytes.length ≤ space ∧ (bytes = [] → s = [])
  | .interrupted => True
  | .failure _ => False

/-- A stream delivers bytes, in whatever pieces, and then ends. -/
inductive Delivers (read : Reader σ) : List UInt8 → σ → Prop
  | intro {s : List UInt8} {st : σ} :
      (∀ space, 0 < space → (read space st).1.Suits space s) →
      (∀ space, 0 < space → (read space st).1 ≠ .piece [] →
        Delivers read (s.drop (read space st).1.bytes.length) (read space st).2) →
      Delivers read s st

/-- The loop that fills a frame of which the bytes `got` are there: how it ends, what it has got
then, and where it leaves the stream. -/
inductive Fills (read : Reader σ) (length : Nat) :
    List UInt8 → σ → Except TransportError FrameRead → List UInt8 → σ → Prop
  | full {got : List UInt8} {st : σ} :
      length ≤ got.length →
      Fills read length got st (.ok .frame) got st
  | ended {got : List UInt8} {st st' : σ} :
      got.length < length →
      read (length - got.length) st = (.piece [], st') →
      Fills read length got st (atEnd length got) got st'
  | more {got bytes all : List UInt8} {st st' st'' : σ} {r : Except TransportError FrameRead} :
      got.length < length →
      read (length - got.length) st = (.piece bytes, st') →
      bytes ≠ [] →
      Fills read length (got ++ bytes) st' r all st'' →
      Fills read length got st r all st''
  | again {got all : List UInt8} {st st' st'' : σ} {r : Except TransportError FrameRead} :
      got.length < length →
      read (length - got.length) st = (.interrupted, st') →
      Fills read length got st' r all st'' →
      Fills read length got st r all st''
  | failure {got : List UInt8} {st st' : σ} {text : String} :
      got.length < length →
      read (length - got.length) st = (.failure text, st') →
      Fills read length got st (.error (.failure text)) got st'

/-- Calls that read frames, each into a buffer of its own: what they give and what is then
in the buffers. -/
inductive Calls (read : Reader σ) :
    List (List UInt8) → σ → List (Except TransportError FrameRead × List UInt8) → σ → Prop
  | nil {st : σ} :
      Calls read [] st [] st
  | cons {buffer got : List UInt8} {buffers : List (List UInt8)} {st st' st'' : σ}
      {r : Except TransportError FrameRead}
      {results : List (Except TransportError FrameRead × List UInt8)} :
      Fills read buffer.length [] st r got st' →
      Calls read buffers st' results st'' →
      Calls read (buffer :: buffers) st ((r, got ++ buffer.drop got.length) :: results) st''

/-- One read from the answers that a stream will give. -/
def takePiece : Reader (List ReadEvent)
  | _, [] => (.piece [], [])
  | space, .piece bytes :: later => (.piece (bytes.take space), putBack (bytes.drop space) later)
  | _, e :: later => (e, later)

/-- Answers that give the bytes `s` and then the end. -/
inductive Pours : List ReadEvent → List UInt8 → Prop
  | silent :
      Pours [] []
  | ended {later : List ReadEvent} :
      Pours (.piece [] :: later) []
  | piece {bytes s : List UInt8} {later : List ReadEvent} :
      bytes ≠ [] →
      Pours later s →
      Pours (.piece bytes :: later) (bytes ++ s)
  | interrupted {s : List UInt8} {later : List ReadEvent} :
      Pours later s →
      Pours (.interrupted :: later) s

/-- Read frames from a stream, each into a buffer of its own. -/
def ByteStream.readFrames :
    List (List UInt8) → ByteStream →
      List (Except TransportError FrameRead × List UInt8) × ByteStream
  | [], s => ([], s)
  | buffer :: buffers, s =>
      let (r, buffer, s) := s.readFrame buffer
      let (results, s) := s.readFrames buffers
      ((r, buffer) :: results, s)

/-- What calls give that read the bytes `s` in frames of `n` bytes: the pieces of `s` one after the
other, and then the end, with the rest of `s` at the start of the `last` buffer. -/
def framing (n : Nat) (s last : List UInt8) : List (Except TransportError FrameRead × List UInt8) :=
  ((List.range (s.length / n)).map fun i => (.ok .frame, (s.drop (i * n)).take n))
    ++ [(if n ∣ s.length then .ok .ended else .error (.truncated n (s.length % n)),
      s.drop (s.length / n * n) ++ last.drop (s.length % n))]

end Defs

section Loop

variable {σ : Type} {read : Reader σ} {length : Nat}

/-- The loop has at most one outcome. -/
theorem Fills.unique {got all all' : List UInt8} {st st' st'' : σ}
    {r r' : Except TransportError FrameRead} (h : Fills read length got st r all st')
    (h' : Fills read length got st r' all' st'') : r' = r ∧ all' = all ∧ st'' = st' := by
  induction h with
  | full hfull =>
      cases h' with
      | full => exact ⟨rfl, rfl, rfl⟩
      | ended hspace | more hspace | again hspace | failure hspace =>
          exact absurd hfull (Nat.not_le.mpr hspace)
  | ended hspace hread =>
      cases h' <;> grind
  | more hspace hread hbytes _ ih =>
      cases h' <;> grind
  | again hspace hread _ ih =>
      cases h' <;> grind
  | failure hspace hread =>
      cases h' <;> grind

/-- Calls have at most one outcome. -/
theorem Calls.unique {buffers : List (List UInt8)} {st st' st'' : σ}
    {results results' : List (Except TransportError FrameRead × List UInt8)}
    (h : Calls read buffers st results st') (h' : Calls read buffers st results' st'') :
    results' = results ∧ st'' = st' := by
  induction h generalizing results' with
  | nil =>
      cases h'
      exact ⟨rfl, rfl⟩
  | cons hfill _ ih =>
      cases h' with
      | cons hfill' hcalls =>
          obtain ⟨rfl, rfl, rfl⟩ := hfill.unique hfill'
          obtain ⟨rfl, rfl⟩ := ih hcalls
          exact ⟨rfl, rfl⟩

end Loop

section Delivery

variable {σ : Type} {read : Reader σ} {length : Nat} {got s : List UInt8} {st st' : σ}

/-- A frame of which the bytes `got` are there takes the next bytes of `s`: as many as it lacks, or
else all that are left. -/
def TakesNext (read : Reader σ) (length : Nat) (got s : List UInt8) (st : σ) : Prop :=
  ∃ r st', Fills read length got st r (got ++ s.take (length - got.length)) st' ∧
    (length ≤ got.length + s.length → r = .ok .frame ∧
      Delivers read (s.drop (length - got.length)) st') ∧
    (got.length + s.length < length → r = atEnd length (got ++ s))

theorem takesNext_of_full (hfull : length = got.length) (h : Delivers read s st) :
    TakesNext read length got s st := by
  subst hfull
  refine ⟨.ok .frame, st, ?_, ?_, ?_⟩
  · simpa using Fills.full (Nat.le_refl got.length)
  · intro _
    simpa using h
  · omega

theorem takesNext_of_end (hspace : got.length < length)
    (hread : read (length - got.length) st = (.piece [], st')) :
    TakesNext read length got [] st := by
  refine ⟨atEnd length got, st', ?_, ?_, ?_⟩
  · simpa using Fills.ended hspace hread
  · intro hle
    exact absurd hle (Nat.not_le.mpr hspace)
  · simp

theorem TakesNext.again (h : TakesNext read length got s st') (hspace : got.length < length)
    (hread : read (length - got.length) st = (.interrupted, st')) :
    TakesNext read length got s st := by
  obtain ⟨r, st'', hfill, hframe, hend⟩ := h
  exact ⟨r, st'', .again hspace hread hfill, hframe, hend⟩

theorem TakesNext.more {bytes : List UInt8} (h : TakesNext read length (got ++ bytes) s st')
    (hspace : got.length < length) (hread : read (length - got.length) st = (.piece bytes, st'))
    (hbytes : bytes ≠ []) (hfits : bytes.length ≤ length - got.length) :
    TakesNext read length got (bytes ++ s) st := by
  obtain ⟨r, st'', hfill, hframe, hend⟩ := h
  simp only [List.length_append] at hfill hframe hend
  have hlack : length - got.length = bytes.length + (length - (got.length + bytes.length)) := by
    omega
  refine ⟨r, st'', .more hspace hread hbytes ?_, ?_, ?_⟩
  · rw [hlack, List.take_length_add_append, ← List.append_assoc]
    exact hfill
  · intro hle
    rw [hlack, List.drop_length_add_append]
    exact hframe (by simp only [List.length_append] at hle; omega)
  · intro hlt
    rw [← List.append_assoc]
    exact hend (by simp only [List.length_append] at hlt; omega)

/-- A call on a stream that delivers `s` takes the next bytes of `s`. -/
theorem Delivers.takesNext (h : Delivers read s st) (got : List UInt8)
    (hgot : got.length ≤ length) : TakesNext read length got s st := by
  induction h generalizing got with
  | @intro s st hsuits hnext ih =>
      rcases Nat.eq_or_lt_of_le hgot with hfull | hspace
      · exact takesNext_of_full hfull.symm (.intro hsuits hnext)
      · have hpos : 0 < length - got.length := by
          omega
        have hsuit := hsuits _ hpos
        have hrest := ih _ hpos
        cases hread : read (length - got.length) st with
        | mk event st' =>
            rw [hread] at hsuit hrest
            cases event with
            | failure text => exact hsuit.elim
            | interrupted => exact (hrest (by simp) got hgot).again hspace hread
            | piece bytes =>
                obtain ⟨⟨rest, rfl⟩, hfits, hlast⟩ := hsuit
                by_cases hbytes : bytes = []
                · rw [hbytes] at hread
                  rw [hlast hbytes]
                  exact takesNext_of_end hspace hread
                · have htakes := hrest (by simpa using hbytes) (got ++ bytes)
                    (by simp only [List.length_append]; omega)
                  simp only [ReadEvent.bytes, List.drop_left] at htakes
                  exact htakes.more hspace hread hbytes hfits

/-- As long as there are bytes for a frame, a call gives the next ones. -/
theorem Delivers.fills_frame (h : Delivers read s st) (hs : length ≤ s.length) :
    ∃ st', Fills read length [] st (.ok .frame) (s.take length) st' ∧
      Delivers read (s.drop length) st' := by
  obtain ⟨r, st', hfill, hframe, -⟩ := h.takesNext [] (Nat.zero_le length)
  obtain ⟨rfl, hrest⟩ := hframe (by simpa using hs)
  exact ⟨st', hfill, hrest⟩

/-- When fewer bytes are left, a call takes them and reports how the stream ended. -/
theorem Delivers.fills_rest (h : Delivers read s st) (hs : s.length < length) :
    ∃ st', Fills read length [] st (atEnd length s) s st' := by
  obtain ⟨r, st', hfill, -, hend⟩ := h.takesNext [] (Nat.zero_le length)
  obtain rfl := hend (by simpa using hs)
  simp only [List.length_nil, Nat.sub_zero, List.take_of_length_le (Nat.le_of_lt hs),
    List.nil_append] at hfill
  exact ⟨st', hfill⟩

/-- The first frame of the bytes `s` comes before those of the bytes after it. -/
theorem framing_of_le {n : Nat} (hn : 0 < n) (hs : n ≤ s.length) (last : List UInt8) :
    framing n s last = (.ok .frame, s.take n) :: framing n (s.drop n) last := by
  obtain ⟨k, hk⟩ : ∃ k, s.length = k + n := ⟨s.length - n, by omega⟩
  have hdrop : (s.drop n).length = k := by
    simp [hk]
  have hdvd : n ∣ k + n ↔ n ∣ k := (Nat.dvd_add_iff_left (Nat.dvd_refl n)).symm
  simp only [framing, hdrop, hk, hdvd, Nat.add_div_right k hn, Nat.add_mod_right,
    List.range_succ_eq_map, List.map_cons, List.map_map, Nat.zero_mul, List.drop_zero,
    List.cons_append, Nat.succ_eq_add_one, List.drop_drop, Function.comp_def, Nat.add_mul,
    Nat.one_mul, Nat.add_comm n]

/-- Bytes that fill no frame are the rest. -/
theorem framing_of_lt {n : Nat} (hs : s.length < n) (last : List UInt8) :
    framing n s last = [(atEnd n s, s ++ last.drop s.length)] := by
  have hend :
      (if n ∣ s.length then .ok .ended else .error (.truncated n s.length)) = atEnd n s := by
    by_cases hnil : s = []
    · simp [hnil, atEnd]
    · have hndvd : ¬ n ∣ s.length :=
        Nat.not_dvd_of_pos_of_lt (List.length_pos_iff.mpr hnil) hs
      simp [atEnd, hndvd, hnil]
  simp [framing, Nat.div_eq_of_lt hs, Nat.mod_eq_of_lt hs, hend]

/-- Call after call takes frame after frame, until fewer bytes are left than a frame has. -/
theorem Delivers.calls {n : Nat} (hn : 0 < n) {last : List UInt8} (hlast : last.length = n) :
    ∀ {buffers : List (List UInt8)} {s : List UInt8} {st : σ}, Delivers read s st →
      (∀ b ∈ buffers, b.length = n) → buffers.length = s.length / n →
        ∃ st', Calls read (buffers ++ [last]) st (framing n s last) st'
  | [], s, st, h, _, hcount => by
      have hshort : s.length < n := (Nat.div_eq_zero_iff_lt hn).mp hcount.symm
      obtain ⟨st', hfill⟩ := h.fills_rest (hlast.symm ▸ hshort)
      refine ⟨st', ?_⟩
      rw [framing_of_lt hshort, ← hlast]
      exact .cons hfill .nil
  | buffer :: buffers, s, st, h, hbuffers, hcount => by
      have hbuffer : buffer.length = n := hbuffers buffer List.mem_cons_self
      rw [List.length_cons] at hcount
      have hlong : n ≤ s.length := by
        by_contra hshort
        rw [Nat.div_eq_of_lt (Nat.not_le.mp hshort)] at hcount
        omega
      have hcount' : buffers.length = (s.drop n).length / n := by
        rw [Nat.div_eq_sub_div hn hlong] at hcount
        rw [List.length_drop]
        omega
      obtain ⟨st', hfill, hrest⟩ := h.fills_frame hlong
      obtain ⟨st'', hcalls⟩ := Delivers.calls hn hlast hrest
        (fun b hb => hbuffers b (List.mem_cons_of_mem _ hb)) hcount'
      have hwhole : s.take n ++ buffer.drop (s.take n).length = s.take n := by
        rw [List.drop_of_length_le (by simp [hbuffer, hlong]), List.append_nil]
      refine ⟨st'', ?_⟩
      rw [framing_of_le hn hlong, ← hwhole]
      refine .cons ?_ hcalls
      rw [hbuffer]
      exact hfill

end Delivery

section Scripts

variable {reads later : List ReadEvent} {s : List UInt8}

/-- A piece in front is delivered before what follows it, in as many parts as there is space for. -/
theorem Delivers.putBack (h : Delivers takePiece s later) (bytes : List UInt8) :
    Delivers takePiece (bytes ++ s) (putBack bytes later) := by
  induction hlength : bytes.length using Nat.strongRecOn generalizing bytes with
  | ind k ih =>
      by_cases hbytes : bytes = []
      · simpa [hbytes, Dataflow.putBack] using h
      · have hpos : 0 < bytes.length := List.length_pos_iff.mpr hbytes
        have hfront : Dataflow.putBack bytes later = .piece bytes :: later := by
          simp [Dataflow.putBack, hbytes]
        rw [hfront]
        refine .intro (fun space hspace => ⟨?_, ?_, ?_⟩) (fun space hspace _ => ?_)
        · exact (List.take_prefix space bytes).trans (List.prefix_append bytes s)
        · exact List.length_take_le ..
        · intro hnone
          rw [List.take_eq_nil_iff] at hnone
          exact absurd hnone (by simp [hbytes, Nat.ne_of_gt hspace])
        · have hdrop : (bytes ++ s).drop (bytes.take space).length = bytes.drop space ++ s := by
            rw [List.length_take, List.drop_append_of_le_length (Nat.min_le_right ..)]
            simp
          show Delivers takePiece ((bytes ++ s).drop (bytes.take space).length) _
          rw [hdrop]
          exact ih _ (by rw [← hlength, List.length_drop]; omega) _ rfl

/-- Answers that give bytes are a stream that delivers them. -/
theorem Pours.delivers (h : Pours reads s) : Delivers takePiece s reads := by
  induction h with
  | silent =>
      refine .intro (fun _ _ => ?_) (fun _ _ hmore => absurd rfl hmore)
      exact ⟨List.prefix_rfl, Nat.zero_le _, fun _ => rfl⟩
  | ended =>
      refine .intro (fun _ _ => ?_) (fun _ _ hmore => absurd ?_ hmore)
      · simp [takePiece, ReadEvent.Suits]
      · simp [takePiece]
  | interrupted _ ih => exact .intro (fun _ _ => trivial) (fun _ _ _ => ih)
  | @piece bytes s later hbytes _ ih => simpa [putBack, hbytes] using ih.putBack bytes

/-- Filling a frame from a list of answers is the loop on this list. -/
theorem fills_fillFrame (length : Nat) (got : List UInt8) (reads : List ReadEvent) :
    Fills takePiece length got reads (fillFrame length got reads).1 (fillFrame length got reads).2.1
      (fillFrame length got reads).2.2 := by
  fun_induction fillFrame length got reads with
  | case1 got hfull => exact .full hfull
  | case2 got hspace => exact .ended (Nat.not_le.mp hspace) rfl
  | case3 got e later hfull => exact .full hfull
  | case4 got later hspace bytes hnone =>
      rw [List.isEmpty_iff] at hnone
      exact .ended (Nat.not_le.mp hspace) (by simp [takePiece, hnone, putBack])
  | case5 got later hspace bytes need hbytes henough =>
      -- the piece is cut, and the frame is full
      rw [List.isEmpty_iff] at hbytes
      refine .more (Nat.not_le.mp hspace) rfl ?_ (.full ?_)
      · rw [Ne, List.take_eq_nil_iff]
        simp [hbytes, hspace, Nat.sub_eq_zero_iff_le]
      · rw [List.length_append, List.length_take]
        omega
  | case6 got later hspace bytes need hbytes hshort ih =>
      rw [List.isEmpty_iff] at hbytes
      have hwhole :
          takePiece (length - got.length) (.piece bytes :: later) = (.piece bytes, later) := by
        have hle : bytes.length ≤ length - got.length := Nat.le_of_not_le hshort
        simp [takePiece, putBack, List.take_of_length_le hle, List.drop_of_length_le hle]
      exact .more (Nat.not_le.mp hspace) hwhole hbytes ih
  | case7 got later hspace ih => exact .again (Nat.not_le.mp hspace) rfl ih
  | case8 got later hspace text => exact .failure (Nat.not_le.mp hspace) rfl

/-- Frames are read from a stream by the loop on its answers. -/
theorem calls_readFrames (buffers : List (List UInt8)) (stream : ByteStream) :
    Calls takePiece buffers stream.reads (stream.readFrames buffers).1
      (stream.readFrames buffers).2.reads := by
  induction buffers generalizing stream with
  | nil => exact .nil
  | cons buffer buffers ih =>
      exact .cons (fills_fillFrame buffer.length [] stream.reads) (ih (stream.readFrame buffer).2.2)

end Scripts

section Framing

/-- Frames do not depend on how the bytes of a stream are cut into pieces.

Calls that read the bytes `s` in frames of `n` bytes give the pieces of `s` one after the other,
then the end when `n` divides the length of `s`, and otherwise that the last frame was cut short,
after how many bytes.

* This holds of every list of answers that gives `s`.
* It holds of everything that delivers `s`, also when answers depend on the space.  The calls
  return, and in no other way. -/
theorem frames_whatever_pieces (s : List UInt8) (n : Nat) (hn : 0 < n) (buffers : List (List UInt8))
    (last : List UInt8) (hbuffers : ∀ b ∈ buffers, b.length = n) (hlast : last.length = n)
    (hcount : buffers.length = s.length / n) :
    (∀ stream : ByteStream, Pours stream.reads s →
      (stream.readFrames (buffers ++ [last])).1 = framing n s last) ∧
    ∀ (σ : Type) (read : Reader σ) (st : σ), Delivers read s st →
      ∃ st', ∀ results st'', Calls read (buffers ++ [last]) st results st'' ↔
        results = framing n s last ∧ st'' = st' := by
  refine ⟨fun stream hpours => ?_, fun σ read st hdelivers => ?_⟩
  · obtain ⟨_, hcalls⟩ := hpours.delivers.calls hn hlast hbuffers hcount
    exact (hcalls.unique (calls_readFrames _ stream)).1
  · obtain ⟨st', hcalls⟩ := hdelivers.calls hn hlast hbuffers hcount
    refine ⟨st', fun results st'' => ⟨fun h => hcalls.unique h, ?_⟩⟩
    rintro ⟨rfl, rfl⟩
    exact hcalls

/-- A stream that gives one byte at a time, with an interruption before each. -/
def drip : Reader (Bool × List UInt8)
  | _, (false, s) => (.interrupted, (true, s))
  | _, (true, []) => (.piece [], (true, []))
  | _, (true, b :: s) => (.piece [b], (false, s))

theorem drip_delivers : ∀ s : List UInt8, Delivers drip s (false, s)
  | [] => by
      refine .intro (fun _ _ => trivial) (fun _ _ _ => ?_)
      refine .intro (fun _ _ => ?_) (fun _ _ hmore => absurd rfl hmore)
      exact ⟨List.prefix_rfl, Nat.zero_le _, fun _ => rfl⟩
  | b :: s => by
      refine .intro (fun _ _ => trivial) (fun _ _ _ => ?_)
      refine .intro (fun _ hspace => ?_) (fun _ _ _ => drip_delivers s)
      exact ⟨⟨s, rfl⟩, hspace, fun hnone => absurd hnone (List.cons_ne_nil _ _)⟩

/-- Five bytes in pieces across the edges of frames, with interruptions. -/
def choppy : ByteStream where
  reads := [.interrupted, .piece [1], .piece [2, 3, 4], .interrupted, .piece [5], .interrupted]

/-- Both streams give two frames of two bytes, and then a frame that was cut short. -/
theorem frames_whatever_pieces_five :
    framing 2 [1, 2, 3, 4, 5] [9, 9] =
      [(.ok .frame, [1, 2]), (.ok .frame, [3, 4]), (.error (.truncated 2 1), [5, 9])] ∧
    Pours choppy.reads [1, 2, 3, 4, 5] ∧
    (choppy.readFrames [[0, 0], [7, 7], [9, 9]]).1 = framing 2 [1, 2, 3, 4, 5] [9, 9] ∧
    Delivers drip [1, 2, 3, 4, 5] (false, [1, 2, 3, 4, 5]) ∧
    ∃ st, Calls drip [[0, 0], [7, 7], [9, 9]] (false, [1, 2, 3, 4, 5])
      (framing 2 [1, 2, 3, 4, 5] [9, 9]) st := by
  have hpours : Pours choppy.reads [1, 2, 3, 4, 5] :=
    .interrupted
      (.piece (by decide)
        (.piece (by decide) (.interrupted (.piece (by decide) (.interrupted .silent)))))
  obtain ⟨hscript, hall⟩ :=
    frames_whatever_pieces [1, 2, 3, 4, 5] 2 (by decide) [[0, 0], [7, 7]] [9, 9] (by decide) rfl rfl
  obtain ⟨st, hcalls⟩ := hall _ drip _ (drip_delivers _)
  refine ⟨by decide, hpours, hscript choppy hpours, drip_delivers _, st, ?_⟩
  exact (hcalls _ _).mpr ⟨rfl, rfl⟩

end Framing

end Dataflow
