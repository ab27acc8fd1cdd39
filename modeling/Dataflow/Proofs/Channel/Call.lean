import Dataflow.Channel.Waiting
import Dataflow.Proofs.Channel.Ring

/-!
# Calls on a channel

The calls that the two sides of a channel make, each as one atomic step, and what each of them does
to the samples on their way (`Channel.contents`).

**Waits.**  A call that waits looks for its signal once.  If it finds nothing it still waits, and
looks again in a later call.

**Results.**
* `tryWrite_cases`, `tryRead_cases`: a transfer puts a block behind the others or takes the first
  one, or else changes nothing at all.
* `Sound.contents_pushed`, `Sound.contents_popped`: what that means for the samples on their way.
-/

namespace Dataflow

section Defs

variable {α : Type}

/-- A call on one of the ends of a channel. -/
inductive Call (α : Type) where
  | openRing
  | attach (cancelled : Bool)
  | awaitAttached (cancelled : Bool)
  | tryWrite (samples : List α)
  | tryRead (out : List α)
  | close
  | dropWriter
  | dropReader
deriving DecidableEq, Repr

/-- What a call gives back. -/
inductive Reply (α : Type) where
  | nothing
  /-- Of a call that prepares transfers; without a result it still waits. -/
  | meeting (r : Option (Except ChannelError Unit))
  | wrote (r : Except ChannelError Transfer)
  /-- The result and the buffer of the reader. -/
  | read (r : Except ChannelError Transfer) (out : List α)
deriving DecidableEq, Repr

/-- Whether a block was moved. -/
def Reply.isDone : Reply α → Bool
  | .wrote (.ok .done) => true
  | .read (.ok .done) _ => true
  | _ => false

/-- Whether a call was told that the channel is closed. -/
def Reply.isClosed : Reply α → Bool
  | .meeting (some (.error .closed)) => true
  | .wrote (.error .closed) => true
  | .read (.error .closed) _ => true
  | _ => false

namespace Reply

theorem isDone_wrote {r : Except ChannelError Transfer} :
    (wrote r : Reply α).isDone = true ↔ r = .ok .done := by
  rcases r with e | t
  · simp [isDone]
  · cases t <;> simp [isDone]

theorem isDone_read {r : Except ChannelError Transfer} {out : List α} :
    (read r out).isDone = true ↔ r = .ok .done := by
  rcases r with e | t
  · simp [isDone]
  · cases t <;> simp [isDone]

theorem isClosed_meeting {r : Option (Except ChannelError Unit)} :
    (meeting r : Reply α).isClosed = true ↔ r = some (.error .closed) := by
  rcases r with _ | e | u
  · simp [isClosed]
  · cases e <;> simp [isClosed]
  · simp [isClosed]

theorem isClosed_wrote {r : Except ChannelError Transfer} :
    (wrote r : Reply α).isClosed = true ↔ r = .error .closed := by
  rcases r with e | t
  · cases e <;> simp [isClosed]
  · simp [isClosed]

theorem isClosed_read {r : Except ChannelError Transfer} {out : List α} :
    (read r out).isClosed = true ↔ r = .error .closed := by
  rcases r with e | t
  · cases e <;> simp [isClosed]
  · simp [isClosed]

end Reply

namespace Channel

variable [Inhabited α]

/-- Make one call. -/
def call (c : Channel α) : Call α → Reply α × Channel α
  | .openRing => (.meeting (some c.openRing.1), c.openRing.2)
  | .attach cancelled => (.meeting (c.attach cancelled).1, (c.attach cancelled).2)
  | .awaitAttached cancelled =>
      (.meeting (c.awaitAttached cancelled).1, (c.awaitAttached cancelled).2)
  | .tryWrite samples => (.wrote (c.tryWrite samples).1, (c.tryWrite samples).2)
  | .tryRead out => (.read (c.tryRead out).1 (c.tryRead out).2.1, (c.tryRead out).2.2)
  | .close => (.nothing, c.close)
  | .dropWriter => (.nothing, c.dropWriter)
  | .dropReader => (.nothing, c.dropReader)

/-- The samples on their way, the next to be read first. -/
def contents (c : Channel α) : List α :=
  match c.ring with
  | some ring => readRing ring c.readAt c.available
  | none => []

/-- The ring holds whole blocks, from the reading cursor up to the writing cursor. -/
structure Sound (c : Channel α) : Prop where
  block_pos : 0 < c.block
  block_le : c.block ≤ c.capacity
  whole : c.block ∣ c.available
  fits : c.available ≤ c.capacity
  size : ∀ {ring}, c.ring = some ring → ring.size = c.capacity
  empty : c.ring = none → c.available = 0
  cursor : c.writeAt = (c.readAt + c.available) % c.capacity

/-- The channel after a block was put behind the others. -/
def pushed (c : Channel α) (ring : Array α) (samples : List α) : Channel α :=
  { c with
    ring := some (writeRing ring c.writeAt samples)
    writeAt := (c.writeAt + c.block) % c.capacity
    available := c.available + c.block }

/-- The channel after its first block was taken. -/
def popped (c : Channel α) : Channel α :=
  { c with readAt := (c.readAt + c.block) % c.capacity, available := c.available - c.block }

/-- Nothing that has to do with samples has changed. -/
structure SameQueue (c c' : Channel α) : Prop where
  capacity : c'.capacity = c.capacity
  block : c'.block = c.block
  ring : c'.ring = c.ring
  available : c'.available = c.available
  writeAt : c'.writeAt = c.writeAt
  readAt : c'.readAt = c.readAt

end Channel

end Defs

namespace Channel

section Soundness

variable {α : Type} {c c' : Channel α} {ring : Array α} {samples : List α}

theorem SameQueue.sound (h : SameQueue c c') (hc : c.Sound) : c'.Sound := by
  refine ⟨?_, ?_, ?_, ?_, ?_, ?_, ?_⟩
  · rw [h.block]
    exact hc.block_pos
  · rw [h.block, h.capacity]
    exact hc.block_le
  · rw [h.block, h.available]
    exact hc.whole
  · rw [h.available, h.capacity]
    exact hc.fits
  · intro ring hring
    rw [h.capacity]
    exact hc.size (h.ring.symm.trans hring)
  · intro hring
    rw [h.available]
    exact hc.empty (h.ring.symm.trans hring)
  · rw [h.writeAt, h.readAt, h.available, h.capacity]
    exact hc.cursor

theorem Sound.push (hc : c.Sound) (hring : c.ring = some ring)
    (hroom : c.block ≤ c.capacity - c.available) : (c.pushed ring samples).Sound := by
  refine ⟨hc.block_pos, hc.block_le, ?_, ?_, ?_, ?_, ?_⟩
  · exact (Nat.dvd_add_right hc.whole).mpr (Nat.dvd_refl _)
  · show c.available + c.block ≤ c.capacity
    have := hc.fits
    omega
  · rintro _ ⟨⟩
    rw [size_writeRing]
    exact hc.size hring
  · rintro ⟨⟩
  · show (c.writeAt + c.block) % c.capacity = (c.readAt + (c.available + c.block)) % c.capacity
    rw [hc.cursor, Nat.mod_add_mod, Nat.add_assoc]

theorem Sound.pop (hc : c.Sound) (hlong : c.block ≤ c.available) : c.popped.Sound := by
  refine ⟨hc.block_pos, hc.block_le, ?_, ?_, hc.size, ?_, ?_⟩
  · exact Nat.dvd_sub hc.whole (Nat.dvd_refl _)
  · exact (Nat.sub_le _ _).trans hc.fits
  · intro hring
    show c.available - c.block = 0
    rw [hc.empty hring, Nat.zero_sub]
  · show c.writeAt =
      ((c.readAt + c.block) % c.capacity + (c.available - c.block)) % c.capacity
    rw [hc.cursor, Nat.mod_add_mod, Nat.add_assoc, Nat.add_sub_cancel' hlong]

end Soundness

section Contents

variable {α : Type} [Inhabited α] {c c' : Channel α} {ring : Array α} {samples : List α}

theorem Sound.length_contents (h : c.Sound) : c.contents.length = c.available := by
  unfold contents
  cases hring : c.ring with
  | none => simp [h.empty hring]
  | some ring => simp

theorem SameQueue.contents_eq (h : SameQueue c c') : c'.contents = c.contents := by
  unfold contents
  rw [h.ring, h.readAt, h.available]

/-- The writing cursor stands behind the samples on their way, so a block is added at their end. -/
theorem Sound.contents_pushed (hc : c.Sound) (hring : c.ring = some ring)
    (hlength : samples.length = c.block) (hroom : c.block ≤ c.capacity - c.available) :
    (c.pushed ring samples).contents = c.contents ++ samples := by
  have hsize := hc.size hring
  have hwrite : writeRing ring c.writeAt samples =
      writeRing ring (c.readAt + c.available) samples := by
    rw [hc.cursor, ← hsize, writeRing_mod]
  have hfit : c.available + samples.length ≤ ring.size := by
    have := hc.fits
    omega
  unfold contents pushed
  rw [hring]
  dsimp only
  rw [hwrite, readRing_append, readRing_writeRing_of_le hfit, ← hlength,
    readRing_writeRing (by omega)]

/-- The reading cursor moves over the first block. -/
theorem Sound.contents_popped (hc : c.Sound) (hring : c.ring = some ring)
    (hlong : c.block ≤ c.available) :
    c.contents = readRing ring c.readAt c.block ++ c.popped.contents := by
  unfold contents popped
  rw [hring]
  dsimp only
  rw [← hc.size hring, readRing_mod, ← readRing_append, Nat.add_sub_cancel' hlong]

end Contents

section Transfers

variable {α : Type}

/-- An attempt to write puts the block behind the others, or changes nothing. -/
theorem tryWrite_cases (c : Channel α) (samples : List α) :
    (∃ ring, c.ring = some ring ∧ c.state = .steady ∧ samples.length = c.block ∧
      c.block ≤ c.capacity - c.available ∧
      c.tryWrite samples = (.ok .done, c.pushed ring samples)) ∨
    ∃ r, r ≠ .ok .done ∧ (r = .error .closed → c.state = .closed) ∧
      c.tryWrite samples = (r, c) := by
  unfold tryWrite
  split
  · exact .inr ⟨_, by simp, by simp, rfl⟩
  · rename_i hlength
    split
    · rename_i hsteady
      split
      · exact .inr ⟨_, by simp, by simp, rfl⟩
      · rename_i hroom
        split
        · exact .inr ⟨_, by simp, by simp, rfl⟩
        · rename_i ring hring
          exact .inl ⟨ring, hring, hsteady, not_not.mp hlength, Nat.le_of_not_lt hroom, rfl⟩
    · rename_i hclosed
      exact .inr ⟨_, by simp, fun _ => hclosed, rfl⟩
    · exact .inr ⟨_, by simp, by simp, rfl⟩

theorem tryWrite_of_ne_done {c : Channel α} {samples : List α}
    (h : (c.tryWrite samples).1 ≠ .ok .done) : (c.tryWrite samples).2 = c := by
  rcases c.tryWrite_cases samples with ⟨_, -, -, -, -, heq⟩ | ⟨_, -, -, heq⟩
  · rw [heq] at h
    exact absurd rfl h
  · rw [heq]

theorem tryWrite_ne_done_of_closed {c : Channel α} (h : c.state = .closed) (samples : List α) :
    (c.tryWrite samples).1 ≠ .ok .done := by
  rcases c.tryWrite_cases samples with ⟨_, -, hsteady, -⟩ | ⟨_, hr, -, heq⟩
  · cases h.symm.trans hsteady
  · rw [heq]
    exact hr

variable [Inhabited α]

/-- An attempt to read takes the first block, or changes nothing, the buffer included. -/
theorem tryRead_cases (c : Channel α) (out : List α) :
    (∃ ring, c.ring = some ring ∧ c.block ≤ c.available ∧
      c.tryRead out = (.ok .done, readRing ring c.readAt c.block, c.popped)) ∨
    ∃ r, r ≠ .ok .done ∧ (r = .error .closed → c.available < c.block ∧ c.state = .closed) ∧
      c.tryRead out = (r, out, c) := by
  unfold tryRead
  split
  · exact .inr ⟨_, by simp, by simp, rfl⟩
  · split
    · rename_i hshort
      split
      · exact .inr ⟨_, by simp, by simp, rfl⟩
      · rename_i hclosed
        exact .inr ⟨_, by simp, fun _ => ⟨hshort, hclosed⟩, rfl⟩
      · exact .inr ⟨_, by simp, by simp, rfl⟩
    · rename_i hlong
      split
      · exact .inr ⟨_, by simp, by simp, rfl⟩
      · rename_i ring hring
        exact .inl ⟨ring, hring, Nat.le_of_not_lt hlong, rfl⟩

theorem tryRead_of_ne_done {c : Channel α} {out : List α}
    (h : (c.tryRead out).1 ≠ .ok .done) : (c.tryRead out).2 = (out, c) := by
  rcases c.tryRead_cases out with ⟨_, -, -, heq⟩ | ⟨_, -, -, heq⟩
  · rw [heq] at h
    exact absurd rfl h
  · rw [heq]

/-- A reader is told that the channel is closed only when there is no block for it. -/
theorem available_lt_of_tryRead_closed {c : Channel α} {out : List α}
    (h : (c.tryRead out).1 = .error .closed) : c.available < c.block := by
  rcases c.tryRead_cases out with ⟨_, -, -, heq⟩ | ⟨_, -, hshort, heq⟩
  · rw [heq] at h
    cases h
  · rw [heq] at h
    exact (hshort h).1

end Transfers

end Channel

end Dataflow
