import Dataflow.Channel.Basic
import Mathlib.Data.Nat.ModEq

/-!
# Rings

Positions in a ring count on without end, and a slot is a position modulo the size.  Positions less
than one round apart have different slots.

**Results.**
* `readRing_writeRing`: what was written is read back.
* `readRing_writeRing_of_le`: writing behind a stretch leaves the stretch as it was, as long as both
  fit into the ring together.
* `readRing_append`: reading two stretches, one after the other.
-/

namespace Dataflow

section Slots

variable {size start i j : Nat}

/-- Positions less than a round apart have different slots. -/
theorem slot_ne (hi : i < size) (hj : j < size) (hij : i ≠ j) :
    (start + i) % size ≠ (start + j) % size := by
  intro h
  have hmod : i ≡ j [MOD size] := Nat.ModEq.add_left_cancel' start h
  exact hij (hmod.eq_of_lt_of_lt hi hj)

end Slots

section Reading

variable {α : Type} [Inhabited α] {ring : Array α}

@[simp] theorem length_readRing :
    ∀ {start n : Nat}, (readRing ring start n).length = n
  | start, 0 => rfl
  | start, n + 1 => by
      simp [readRing, length_readRing]

theorem readRing_append :
    ∀ (start m n : Nat),
      readRing ring start (m + n) = readRing ring start m ++ readRing ring (start + m) n
  | start, 0, n => by
      simp [readRing]
  | start, m + 1, n => by
      have ih := readRing_append (start + 1) m n
      rw [show m + 1 + n = (m + n) + 1 by omega, show start + (m + 1) = start + 1 + m by omega]
      simp [readRing, ih]

/-- A whole round more or less makes no difference. -/
theorem readRing_mod :
    ∀ (start n : Nat), readRing ring (start % ring.size) n = readRing ring start n
  | start, 0 => rfl
  | start, n + 1 => by
      have hnext : readRing ring (start % ring.size + 1) n = readRing ring (start + 1) n := by
        rw [← readRing_mod (start % ring.size + 1) n, Nat.mod_add_mod, readRing_mod]
      simp [readRing, hnext]

/-- Two rings that agree on the slots of a stretch are read alike. -/
theorem readRing_congr {ring' : Array α} (hsize : ring'.size = ring.size) :
    ∀ {start n : Nat},
      (∀ i < n, ring'.getD ((start + i) % ring.size) default =
        ring.getD ((start + i) % ring.size) default) →
      readRing ring' start n = readRing ring start n
  | start, 0, _ => rfl
  | start, n + 1, h => by
      have hfirst := h 0 (by omega)
      have hrest : readRing ring' (start + 1) n = readRing ring (start + 1) n := by
        refine readRing_congr hsize ?_
        intro i hi
        have hnext := h (i + 1) (by omega)
        rwa [show start + (i + 1) = start + 1 + i by omega] at hnext
      rw [Nat.add_zero] at hfirst
      simp only [readRing, hsize, hfirst, hrest]

end Reading

section Writing

variable {α : Type}

@[simp] theorem size_writeRing :
    ∀ {ring : Array α} {start : Nat} {samples : List α},
      (writeRing ring start samples).size = ring.size
  | ring, start, [] => rfl
  | ring, start, x :: rest => by
      simp [writeRing, size_writeRing]

/-- Writing from a slot on, a whole round more or less makes no difference. -/
theorem writeRing_mod :
    ∀ (ring : Array α) (start : Nat) (samples : List α),
      writeRing ring (start % ring.size) samples = writeRing ring start samples
  | ring, start, [] => rfl
  | ring, start, x :: rest => by
      have hnext := writeRing_mod (ring.setIfInBounds (start % ring.size) x) (start + 1) rest
      have hround := writeRing_mod (ring.setIfInBounds (start % ring.size) x)
        (start % ring.size + 1) rest
      rw [Array.size_setIfInBounds] at hnext hround
      rw [Nat.mod_add_mod, hnext] at hround
      simp only [writeRing, Nat.mod_mod, hround]

end Writing

section WritingThenReading

variable {α : Type} [Inhabited α]

/-- A slot that is not written keeps its sample. -/
theorem getD_writeRing_of_ne {slot : Nat} :
    ∀ {ring : Array α} {start : Nat} {samples : List α},
      (∀ i < samples.length, (start + i) % ring.size ≠ slot) →
      (writeRing ring start samples).getD slot default = ring.getD slot default
  | ring, start, [], _ => rfl
  | ring, start, x :: rest, h => by
      have hfirst : start % ring.size ≠ slot := by
        simpa using h 0 (by simp)
      have hrest : (writeRing (ring.setIfInBounds (start % ring.size) x) (start + 1) rest).getD
          slot default = (ring.setIfInBounds (start % ring.size) x).getD slot default := by
        refine getD_writeRing_of_ne ?_
        intro i hi
        have hnext := h (i + 1) (by simpa using hi)
        rw [Array.size_setIfInBounds]
        rwa [show start + (i + 1) = start + 1 + i by omega] at hnext
      rw [writeRing, hrest]
      simp [Array.getD_eq_getD_getElem?, Array.getElem?_setIfInBounds_ne hfirst]

/-- What was written is read back. -/
theorem readRing_writeRing :
    ∀ {ring : Array α} {start : Nat} {samples : List α}, samples.length ≤ ring.size →
      readRing (writeRing ring start samples) start samples.length = samples
  | ring, start, [], _ => rfl
  | ring, start, x :: rest, h => by
      rw [List.length_cons] at h
      have hpos : start % ring.size < ring.size := Nat.mod_lt _ (by omega)
      have hrest : readRing (writeRing (ring.setIfInBounds (start % ring.size) x) (start + 1) rest)
          (start + 1) rest.length = rest := by
        refine readRing_writeRing ?_
        rw [Array.size_setIfInBounds]
        exact Nat.le_of_succ_le h
      -- the rest of the samples goes to other slots
      have hfirst : (writeRing (ring.setIfInBounds (start % ring.size) x) (start + 1) rest).getD
          (start % ring.size) default =
            (ring.setIfInBounds (start % ring.size) x).getD (start % ring.size) default := by
        refine getD_writeRing_of_ne ?_
        intro i hi
        rw [Array.size_setIfInBounds, Nat.add_assoc]
        exact slot_ne (j := 0) (by omega) (by omega) (by omega)
      simp only [List.length_cons, readRing, writeRing, size_writeRing, Array.size_setIfInBounds,
        hfirst, hrest]
      simp [Array.getD_eq_getD_getElem?, hpos]

/-- Writing behind a stretch leaves the stretch as it was. -/
theorem readRing_writeRing_of_le {ring : Array α} {start n : Nat} {samples : List α}
    (h : n + samples.length ≤ ring.size) :
    readRing (writeRing ring (start + n) samples) start n = readRing ring start n := by
  refine readRing_congr size_writeRing ?_
  intro i hi
  refine getD_writeRing_of_ne ?_
  intro j hj
  rw [Nat.add_assoc]
  exact slot_ne (by omega) (by omega) (by omega)

end WritingThenReading

end Dataflow
