/-!
# Traps and checked arithmetic

Counters, block sizes and frame sizes live in machine words.  An operation whose result leaves its
word does not wrap around: it traps, and the computation it belongs to has no answer.

**Values.**  `Trap` lists the reasons for such a stop, `Trap.message` their wording.

**Operations.**  `addWord` works on 32-bit counters, `addLong` and `mulLong` on 64-bit quantities,
which are carried as natural numbers below `longLimit`.
-/

namespace Dataflow

/-- Why a computation stopped without an answer. -/
inductive Trap where
  /-- A sum left its word. -/
  | addOverflow
  /-- A product left its word. -/
  | mulOverflow
  /-- A remainder was asked for with the divisor zero. -/
  | zeroDivisor
  /-- An index or a range lay outside its buffer. -/
  | outOfBounds
  /-- A kernel gave up in the middle of an activation. -/
  | kernelStop
deriving DecidableEq, Repr

/-- Wording of a trap. -/
def Trap.message : Trap → String
  | .addOverflow => "attempt to add with overflow"
  | .mulOverflow => "attempt to multiply with overflow"
  | .zeroDivisor => "attempt to calculate the remainder with a divisor of zero"
  | .outOfBounds => "bounds"
  | .kernelStop => "kernel panic"

/-- First number that a 32-bit word cannot hold. -/
def wordLimit : Nat := UInt32.size

/-- First number that a 64-bit word cannot hold. -/
def longLimit : Nat := UInt64.size

/-- Sum of two 32-bit words. -/
def addWord (a b : UInt32) : Except Trap UInt32 :=
  if a.toNat + b.toNat < wordLimit then .ok (a + b) else .error .addOverflow

/-- Sum of two 64-bit quantities. -/
def addLong (a b : Nat) : Except Trap Nat :=
  if a + b < longLimit then .ok (a + b) else .error .addOverflow

/-- Product of two 64-bit quantities. -/
def mulLong (a b : Nat) : Except Trap Nat :=
  if a * b < longLimit then .ok (a * b) else .error .mulOverflow

/-- Go on from the value of a computation, with the fact that it is the value. -/
def withValue {α β : Type} : (x : Except Trap α) → ((a : α) → x = .ok a → β) → Except Trap β
  | .error trap, _ => .error trap
  | .ok a, f => .ok (f a rfl)

/-- The 32-bit word of a number that fits into one. -/
def word? (n : Nat) : Option UInt32 :=
  if n < wordLimit then some (.ofNat n) else none

section Values

variable {α β : Type} {x : Except Trap α} {f : (a : α) → x = .ok a → β}

theorem withValue_eq_ok_iff {b : β} : withValue x f = .ok b ↔ ∃ a h, f a h = b := by
  cases x with
  | error trap => exact iff_of_false nofun nofun
  | ok a =>
      constructor
      · rintro ⟨⟩
        exact ⟨a, rfl, rfl⟩
      · rintro ⟨_, ⟨⟩, rfl⟩
        rfl

theorem withValue_eq_error_iff {trap : Trap} : withValue x f = .error trap ↔ x = .error trap := by
  cases x with
  | error _ =>
      constructor
      · rintro ⟨⟩
        rfl
      · rintro ⟨⟩
        rfl
  | ok a => exact iff_of_false nofun nofun

theorem addWord_eq_ok_iff {a b c : UInt32} :
    addWord a b = .ok c ↔ c.toNat = a.toNat + b.toNat := by
  unfold addWord wordLimit
  split
  · rename_i h
    constructor
    · intro e
      cases e
      rw [UInt32.toNat_add]
      exact Nat.mod_eq_of_lt h
    · intro e
      have hc : a + b = c := by
        apply UInt32.toNat_inj.mp
        rw [UInt32.toNat_add, e]
        exact Nat.mod_eq_of_lt h
      rw [hc]
  · rename_i h
    constructor
    · intro e
      cases e
    · intro e
      have : c.toNat < UInt32.size := c.toNat_lt
      omega

/-- A computation that moves a counter by one and goes on from there. -/
theorem bind_addWord_eq_ok_iff {counter : UInt32} {f : UInt32 → α} {r : α} :
    (addWord counter 1 >>= fun next => pure (f next)) = .ok r ↔
      ∃ next, next.toNat = counter.toNat + 1 ∧ f next = r := by
  constructor
  · intro h
    cases hadd : addWord counter 1 with
    | error trap =>
        rw [hadd] at h
        cases h
    | ok next =>
        rw [hadd] at h
        cases h
        exact ⟨next, addWord_eq_ok_iff.mp hadd, rfl⟩
  · rintro ⟨next, hnext, rfl⟩
    rw [addWord_eq_ok_iff.mpr hnext]
    rfl

/-- A counter that was moved past a number stays past it. -/
theorem lt_max_of_next {a b next : UInt32} (h : next.toNat = a.toNat + 1) : a < max b next := by
  show a < if b ≤ next then next else b
  split
  · rw [UInt32.lt_iff_toNat_lt]
    omega
  · rename_i hb
    rw [UInt32.le_iff_toNat_le] at hb
    rw [UInt32.lt_iff_toNat_lt]
    omega

theorem addLong_eq_ok_iff {a b c : Nat} :
    addLong a b = .ok c ↔ a + b = c ∧ c < longLimit := by
  unfold addLong
  split <;> simp_all
  · intro h
    omega
  · intro h
    omega

theorem mulLong_eq_ok_iff {a b c : Nat} :
    mulLong a b = .ok c ↔ a * b = c ∧ c < longLimit := by
  unfold mulLong
  split
  · constructor
    · intro h
      cases h
      exact ⟨rfl, by assumption⟩
    · rintro ⟨rfl, _⟩
      rfl
  · constructor
    · intro h
      cases h
    · rintro ⟨rfl, h⟩
      contradiction

theorem word?_eq_some_iff {n : Nat} {w : UInt32} :
    word? n = some w ↔ w.toNat = n := by
  unfold word? wordLimit
  split
  · rename_i h
    constructor
    · intro e
      cases e
      exact Nat.mod_eq_of_lt h
    · intro e
      subst e
      simp
  · rename_i h
    constructor
    · intro e
      cases e
    · intro e
      have : w.toNat < UInt32.size := w.toNat_lt
      omega

theorem word?_eq_none_iff {n : Nat} : word? n = none ↔ wordLimit ≤ n := by
  simp [word?]

theorem exists_word? {n : Nat} (h : n < wordLimit) : ∃ w, word? n = some w :=
  ⟨_, if_pos h⟩

end Values

end Dataflow
