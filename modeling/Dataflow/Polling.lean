import Dataflow.Json.Decode
import Dataflow.Json.Writer
import Dataflow.Trap

/-!
# Waiting

Nothing in the program blocks: one who waits tries again and again, at growing distances, and looks
before each attempt whether the wait was called off.

**Waits.**  `pollUntil` runs a wait against the moves that others make between two attempts.  A wait
that outlasts these moves is still going on.

**Distances.**  `Backoff` counts the attempts: first they follow each other at once, then the
processor is given away in between, and in the end one sleeps (`Backoff.isParking`).
-/

namespace Dataflow

section Settings

/-- How long to try before sleeping. -/
structure PollConfig where
  /-- Attempts that follow each other at once. -/
  spinLimit : UInt32 := 64
  /-- Further attempts with the processor given away in between. -/
  yieldLimit : UInt32 := 64
  /-- Microseconds to sleep between later attempts. -/
  parkMicros : UInt64 := 50
deriving DecidableEq, Repr

/-- The settings as a record. -/
def PollConfig.toJson (p : PollConfig) : Json :=
  .object [("spin_limit", .nat p.spinLimit.toNat), ("yield_limit", .nat p.yieldLimit.toNat),
    ("park_micros", .nat p.parkMicros.toNat)]

/-- Fields of the settings met so far. -/
structure PollFields where
  spinLimit : Option UInt32 := none
  yieldLimit : Option UInt32 := none
  parkMicros : Option UInt64 := none

/-- Settings.  Every field has a default. -/
def Json.pollConfig : Json → Decoded PollConfig
  | .obj fields => do
      let step (s : PollFields) (k : String) (v : Json) : Option (Decoded PollFields) :=
        match k with
        | "spin_limit" => some do
            return { s with spinLimit := ← fillOnce s.spinLimit Json.word v }
        | "yield_limit" => some do
            return { s with yieldLimit := ← fillOnce s.yieldLimit Json.word v }
        | "park_micros" => some do
            return { s with parkMicros := ← fillOnce s.parkMicros Json.long v }
        | _ => none
      let s ← fields.visit step {}
      let default : PollConfig := {}
      return {
        spinLimit := s.spinLimit.getD default.spinLimit
        yieldLimit := s.yieldLimit.getD default.yieldLimit
        parkMicros := s.parkMicros.getD default.parkMicros }
  | .arr items => do
      let default : PollConfig := {}
      let (spinLimit, items) ← items.nextOr default.spinLimit Json.word
      let (yieldLimit, items) ← items.nextOr default.yieldLimit Json.word
      let (parkMicros, items) ← items.nextOr default.parkMicros Json.long
      items.close .text
      return { spinLimit, yieldLimit, parkMicros }
  | j => .error j.misfit

end Settings

section Distances

/-- Attempts made so far; the count stops at the largest word. -/
structure Backoff where
  config : PollConfig
  attempts : Nat := 0
deriving DecidableEq, Repr

namespace Backoff

/-- Attempts before one sleeps. -/
def patience (c : PollConfig) : Nat := min (c.spinLimit.toNat + c.yieldLimit.toNat) (wordLimit - 1)

/-- Count an attempt in vain. -/
def snooze (b : Backoff) : Backoff := { b with attempts := min (b.attempts + 1) (wordLimit - 1) }

/-- Start over. -/
def reset (b : Backoff) : Backoff := { b with attempts := 0 }

/-- Whether one sleeps before the next attempt. -/
def isParking (b : Backoff) : Bool := patience b.config ≤ b.attempts

end Backoff

end Distances

section Waits

variable {σ ε α : Type}

/-- Wait until an attempt gives a value or fails, or until the wait is called off, which fails with
`stop`.  Between two attempts the others make one of their moves; when these are used up the wait
goes on, and there is no result yet. -/
def pollUntil (cancelled : σ → Bool) (stop : ε) (attempt : σ → Except ε (Option α) × σ) :
    List (σ → σ) → σ → Option (Except ε α) × σ
  | moves, s =>
      if cancelled s then (some (.error stop), s)
      else
        match attempt s with
        | (.ok (some a), s) => (some (.ok a), s)
        | (.error e, s) => (some (.error e), s)
        | (.ok none, s) =>
            match moves with
            | [] => (none, s)
            | move :: rest => pollUntil cancelled stop attempt rest (move s)

variable {cancelled : σ → Bool} {stop : ε} {attempt : σ → Except ε (Option α) × σ} {s : σ}

/-- A wait that is over does not depend on what comes later. -/
theorem pollUntil_of_over (hover : cancelled s = true ∨ (attempt s).1 ≠ .ok none)
    (moves : List (σ → σ)) :
    pollUntil cancelled stop attempt moves s = pollUntil cancelled stop attempt [] s := by
  rw [pollUntil.eq_def _ _ _ moves, pollUntil.eq_def _ _ _ []]
  dsimp only
  rcases hlook : attempt s with ⟨e | _ | a, s'⟩
  · rfl
  · rw [hlook] at hover
    have hcancelled : cancelled s = true := hover.resolve_right fun htold => htold rfl
    rw [if_pos hcancelled, if_pos hcancelled]
  · rfl

/-- A wait that is not over goes on after a move of the others. -/
theorem pollUntil_cons (hawake : cancelled s = false) (hlook : attempt s = (.ok none, s))
    (move : σ → σ) (rest : List (σ → σ)) :
    pollUntil cancelled stop attempt (move :: rest) s =
      pollUntil cancelled stop attempt rest (move s) := by
  rw [pollUntil.eq_def _ _ _ (move :: rest)]
  simp [hawake, hlook]

end Waits

end Dataflow
