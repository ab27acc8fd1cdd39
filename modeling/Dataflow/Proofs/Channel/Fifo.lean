import Dataflow.Proofs.Channel.Meeting

/-!
# A channel is a queue of blocks

Over its whole life a channel loses nothing, makes nothing up and keeps the order of its blocks,
whatever calls its two sides make and in whatever order.

**Histories.**  A history is a channel together with all that was written to it and all that was
read from it.  What was written is what was read, followed by what is on its way (`History.Valid`);
every call keeps this (`History.Valid.step`), and so does every run (`History.Valid.run`).
-/

namespace Dataflow

section Defs

variable {α : Type} [Inhabited α]

/-- The samples that a call has put into a channel. -/
def Call.given : Call α → Reply α → List α
  | .tryWrite samples, .wrote (.ok .done) => samples
  | _, _ => []

/-- The samples that a call has taken out of a channel. -/
def Reply.taken : Reply α → List α
  | .read (.ok .done) out => out
  | _ => []

/-- A channel with everything that was written to it and read from it. -/
structure History (α : Type) where
  channel : Channel α
  written : List α := []
  read : List α := []
deriving DecidableEq, Repr

namespace History

/-- One more call. -/
def step (h : History α) (call : Call α) : History α where
  channel := (h.channel.call call).2
  written := h.written ++ call.given (h.channel.call call).1
  read := h.read ++ (h.channel.call call).1.taken

/-- Calls one after the other. -/
def run (h : History α) (calls : List (Call α)) : History α := calls.foldl step h

/-- A history of a channel of given size: what was written is what was read and what is on its
way. -/
structure Valid (capacity block : Nat) (h : History α) : Prop where
  capacity_eq : h.channel.capacity = capacity
  block_eq : h.channel.block = block
  sound : h.channel.Sound
  met : h.channel.Met
  balance : h.written = h.read ++ h.channel.contents

end History

end Defs

section Replies

variable {α : Type} {r : Reply α}

theorem given_of_not_done {call : Call α} (hr : r.isDone = false) : call.given r = [] := by
  unfold Call.given
  split
  · cases hr
  · rfl

theorem taken_of_not_done (hr : r.isDone = false) : r.taken = [] := by
  unfold Reply.taken
  split
  · cases hr
  · rfl

end Replies

namespace History

variable {α : Type} [Inhabited α] {capacity block : Nat} {h : History α}

section Steps

/-- A call that moves no block adds nothing to what was written and read. -/
theorem step_of_not_done {call : Call α} (hr : (h.channel.call call).1.isDone = false) :
    (h.step call).written = h.written ∧ (h.step call).read = h.read := by
  simp [step, given_of_not_done hr, taken_of_not_done hr]

theorem Valid.step_write (hv : h.Valid capacity block) {samples : List α}
    (hdone : (h.channel.tryWrite samples).1 = .ok .done) :
    (h.step (.tryWrite samples)).Valid capacity block := by
  have hmet := hv.met.call (.tryWrite samples)
  rcases h.channel.tryWrite_cases samples with ⟨ring, hring, -, hlength, hroom, heq⟩ |
    ⟨r, hr, -, heq⟩
  · simp only [Channel.call, heq] at hmet
    simp only [step, Channel.call, heq, Call.given, Reply.taken, List.append_nil]
    refine ⟨hv.capacity_eq, hv.block_eq, hv.sound.push hring hroom, hmet, ?_⟩
    dsimp only
    rw [hv.sound.contents_pushed hring hlength hroom, ← List.append_assoc, ← hv.balance]
  · rw [heq] at hdone
    exact absurd hdone hr

theorem Valid.step_read (hv : h.Valid capacity block) {out : List α}
    (hdone : (h.channel.tryRead out).1 = .ok .done) :
    (h.step (.tryRead out)).Valid capacity block := by
  have hmet := hv.met.call (.tryRead out)
  rcases h.channel.tryRead_cases out with ⟨ring, hring, hlong, heq⟩ | ⟨r, hr, -, heq⟩
  · simp only [Channel.call, heq] at hmet
    simp only [step, Channel.call, heq, Call.given, Reply.taken, List.append_nil]
    refine ⟨hv.capacity_eq, hv.block_eq, hv.sound.pop hlong, hmet, ?_⟩
    dsimp only
    rw [List.append_assoc, ← hv.sound.contents_popped hring hlong]
    exact hv.balance
  · rw [heq] at hdone
    exact absurd hdone hr

/-- Every call keeps the balance. -/
theorem Valid.step (hv : h.Valid capacity block) (call : Call α) :
    (h.step call).Valid capacity block := by
  by_cases hdone : (h.channel.call call).1.isDone = true
  · -- only a transfer is ever done
    cases call with
    | tryWrite samples => exact hv.step_write (Reply.isDone_wrote.mp hdone)
    | tryRead out => exact hv.step_read (Reply.isDone_read.mp hdone)
    | _ => cases hdone
  · rw [Bool.not_eq_true] at hdone
    obtain ⟨hwritten, hread⟩ := step_of_not_done hdone
    have hkeeps := Channel.keeps_call hv.sound call hdone
    refine ⟨hkeeps.capacity.trans hv.capacity_eq, hkeeps.block.trans hv.block_eq, hkeeps.sound,
      hv.met.call call, ?_⟩
    rw [hwritten, hread, hv.balance]
    exact congrArg _ hkeeps.contents.symm

theorem Valid.run (hv : h.Valid capacity block) (calls : List (Call α)) :
    (h.run calls).Valid capacity block := by
  induction calls generalizing h with
  | nil => exact hv
  | cons call calls ih => exact ih (hv.step call)

/-- A closed channel stays closed, whatever is called. -/
theorem state_run_of_closed (hclosed : h.channel.state = .closed) (calls : List (Call α)) :
    (h.run calls).channel.state = .closed := by
  induction calls generalizing h with
  | nil => exact hclosed
  | cons call calls ih => exact ih (Channel.state_call_of_closed hclosed call)

end Steps

section Views

/-- A new channel is empty, and nothing was written or read. -/
theorem exists_valid (α : Type) [Inhabited α] (name : String) (hblock : 1 ≤ block)
    (hcapacity : block ≤ capacity) :
    ∃ c : Channel α, Channel.create name capacity block = .ok c ∧
      ({ channel := c } : History α).Valid capacity block := by
  refine ⟨{ name, capacity, block }, ?_, rfl, rfl, ?_, ?_, rfl⟩
  · unfold Channel.create
    rw [if_neg (by omega)]
  · refine ⟨hblock, hcapacity, Nat.dvd_zero _, Nat.zero_le _, ?_, fun _ => rfl, ?_⟩
    · rintro ring ⟨⟩
    · exact (Nat.zero_mod _).symm
  · exact ⟨fun _ => .inl rfl, by simp, by simp, by simp, by simp⟩

theorem Valid.available_eq (hv : h.Valid capacity block) :
    h.channel.available = h.written.length - h.read.length := by
  rw [hv.balance, List.length_append, hv.sound.length_contents]
  omega

/-- Less than a block on its way is nothing on its way. -/
theorem Valid.read_eq_written (hv : h.Valid capacity block)
    (hshort : h.channel.available < h.channel.block) : h.read = h.written := by
  have hzero : h.channel.available = 0 := Nat.eq_zero_of_dvd_of_lt hv.sound.whole hshort
  have hnone : h.channel.contents = [] := by
    rw [← List.length_eq_zero_iff, hv.sound.length_contents]
    exact hzero
  rw [hv.balance, hnone, List.append_nil]

end Views

/-- A channel is a lossless queue of blocks over its whole life.  After any calls:

* what is on its way is what was written and not read, in whole blocks, and fits into the channel;
* what was read is the beginning of what was written;
* a call that is not done moves nothing, and leaves the buffer of a reader and, when it is a
  transfer, the channel as they were;
* once the channel is closed, and it is when a call says so, no later write is done;
* a reader with a buffer of the right length is told that the channel is closed only when it has
  read everything. -/
theorem channel_lossless (α : Type) [Inhabited α] (name : String) (capacity block : Nat)
    (hblock : 1 ≤ block) (hcapacity : block ≤ capacity) :
    ∃ c : Channel α, Channel.create name capacity block = .ok c ∧
      ∀ calls h, History.run { channel := c } calls = h →
        (h.channel.available = h.written.length - h.read.length ∧
          block ∣ h.channel.available ∧ h.channel.available ≤ capacity) ∧
        h.read <+: h.written ∧
        (∀ call, (h.channel.call call).1.isDone = false →
          (h.step call).channel.available = h.channel.available ∧
          (h.step call).channel.contents = h.channel.contents ∧
          (h.step call).written = h.written ∧ (h.step call).read = h.read) ∧
        (∀ samples, (h.channel.tryWrite samples).1 ≠ .ok .done →
          (h.channel.tryWrite samples).2 = h.channel) ∧
        (∀ out, (h.channel.tryRead out).1 ≠ .ok .done →
          (h.channel.tryRead out).2 = (out, h.channel)) ∧
        (∀ call, (h.channel.call call).1.isClosed = true →
          (h.step call).channel.state = .closed) ∧
        (h.channel.state = .closed → ∀ more samples,
          ((h.run more).channel.tryWrite samples).1 ≠ .ok .done) ∧
        (∀ out, out.length = block → (h.channel.tryRead out).1 = .error .closed →
          h.read = h.written) := by
  obtain ⟨c, hc, hstart⟩ := exists_valid α name hblock hcapacity
  refine ⟨c, hc, ?_⟩
  rintro calls h rfl
  have hv := hstart.run calls
  refine ⟨⟨hv.available_eq, ?_, ?_⟩, ⟨_, hv.balance.symm⟩, ?_, ?_, ?_, ?_, ?_, ?_⟩
  · rw [← hv.block_eq]
    exact hv.sound.whole
  · rw [← hv.capacity_eq]
    exact hv.sound.fits
  · intro call hnot
    have hkeeps := Channel.keeps_call hv.sound call hnot
    exact ⟨hkeeps.available, hkeeps.contents, step_of_not_done hnot⟩
  · intro samples hnot
    exact Channel.tryWrite_of_ne_done hnot
  · intro out hnot
    exact Channel.tryRead_of_ne_done hnot
  · intro call htold
    exact hv.met.closed_of_isClosed call htold
  · intro hclosed more samples
    exact Channel.tryWrite_ne_done_of_closed (state_run_of_closed hclosed more) samples
  · intro out _ htold
    exact hv.read_eq_written (Channel.available_lt_of_tryRead_closed htold)

/-- Two blocks of two samples through a channel of three: the second wraps around, is read after the
channel was closed, and a third is refused. -/
theorem channel_lossless_wrap :
    1 ≤ 2 ∧ 2 ≤ 3 ∧ ∃ c : Channel Nat, Channel.create "wrap" 3 2 = .ok c ∧
      ∃ h, History.run { channel := c }
          [.openRing, .attach false, .awaitAttached false, .tryWrite [1, 2], .tryWrite [3, 4],
            .tryRead [0, 0], .tryWrite [3, 4], .close, .tryWrite [5, 6], .tryRead [0, 0]] = h ∧
        h.written = [1, 2, 3, 4] ∧ (h.channel.tryRead [0, 0]).1 = .error .closed ∧
        h.read = h.written := by
  obtain ⟨c, hc, hall⟩ := channel_lossless Nat "wrap" 3 2 (by decide) (by decide)
  have hnew : { name := "wrap", capacity := 3, block := 2 } = c := Except.ok.inj hc
  subst hnew
  have htold : ((History.run { channel := { name := "wrap", capacity := 3, block := 2 } }
      [.openRing, .attach false, .awaitAttached false, .tryWrite [1, 2], .tryWrite [3, 4],
        .tryRead [0, 0], .tryWrite [3, 4], .close, .tryWrite [5, 6],
        .tryRead [0, 0]]).channel.tryRead
      [0, 0]).1 = .error .closed := by
    decide
  obtain ⟨-, -, -, -, -, -, -, hread⟩ := hall _ _ rfl
  exact ⟨by decide, by decide, _, hc, _, rfl, by decide, htold, hread [0, 0] rfl htold⟩

end History

end Dataflow
