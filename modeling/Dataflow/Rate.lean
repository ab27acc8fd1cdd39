import Dataflow.Trap

/-!
# Rates

A rate `up/down` is the number of samples that a clock domain produces for each sample of the
domain around it.  Local rates compose along nested domains; the outermost reference is the
base rate `1/1`.

**Blocks.**  A block of samples enters a chain of domains at the base rate and is scaled hop by hop,
outermost first.  It must stay a whole number of samples after every hop (`scaleAlong`); the first
hop at which it does not is reported as a `BlockFault`.  Sizes are 64-bit quantities, and a product
that leaves the word traps.
-/

namespace Dataflow

section Defs

/-- Samples produced (`up`) for samples of the reference domain (`down`). -/
structure Rate where
  up : UInt32
  down : UInt32
deriving DecidableEq, Repr

/-- Divide out the greatest common divisor.  A pair with a zero is left as it is. -/
def reduceRatio (num den : Nat) : Nat × Nat :=
  if num = 0 ∨ den = 0 then (num, den) else (num / num.gcd den, den / num.gcd den)

namespace Rate

/-- The rate of the outermost domain. -/
def base : Rate := ⟨1, 1⟩

/-- The rate that multiplies the number of samples by `n`. -/
def upsample (n : UInt32) : Rate := ⟨n, 1⟩

/-- The rate that keeps one sample of `n`. -/
def downsample (n : UInt32) : Rate := ⟨1, n⟩

/-- The rate in lowest terms.  A rate with a zero is left as it is. -/
def reduced (r : Rate) : Rate :=
  let (up, down) := reduceRatio r.up.toNat r.down.toNat
  ⟨.ofNat up, .ofNat down⟩

/-- Both factors are positive and have no common divisor. -/
def isCoprime (r : Rate) : Bool :=
  0 < r.up && 0 < r.down && r.up.toNat.gcd r.down.toNat = 1

/-- The rate only multiplies or only divides. -/
def isIntegralHop (r : Rate) : Bool := r.up = 1 || r.down = 1

/-- Rate of a domain with local rate `inner` inside a domain of rate `outer`, in lowest terms,
unless a factor leaves its word. -/
def compose (outer inner : Rate) : Option Rate := do
  let (up, down) :=
    reduceRatio (outer.up.toNat * inner.up.toNat) (outer.down.toNat * inner.down.toNat)
  return ⟨← word? up, ← word? down⟩

/-- Base ticks for one sample: the reciprocal in lowest terms. -/
def period (r : Rate) : Rate := reduced ⟨r.down, r.up⟩

/-- Scale a count when the product stays in its word and the result is whole.  The product is looked
at before the divisor. -/
def scale (r : Rate) (n : Nat) : Except Trap (Option Nat) :=
  let num := n * r.up.toNat
  let den := r.down.toNat
  if longLimit ≤ num then .ok none
  else if den = 0 then .error .zeroDivisor
  else .ok (if num % den = 0 then some (num / den) else none)

/-- Written form. -/
def text (r : Rate) : String := toString r.up.toNat ++ "/" ++ toString r.down.toNat

instance : ToString Rate := ⟨text⟩

end Rate

/-- A hop at which a block stops being a whole number of samples. -/
structure BlockFault where
  /-- Position in the chain. -/
  hop : Nat
  /-- What was to be divided there. -/
  numer : Nat
  /-- What it was to be divided by. -/
  denom : Nat
deriving DecidableEq, Repr

/-- Scale a block through the rest of a chain whose next hop has position `hop`. -/
def scaleFrom (hop block : Nat) : List Rate → Except Trap (Except BlockFault Nat)
  | [] => .ok (.ok block)
  | r :: rest => do
      let numer ← mulLong block r.up.toNat
      let denom := r.down.toNat
      if denom = 0 ∨ numer % denom ≠ 0 then
        return .error ⟨hop, numer, denom⟩
      else
        scaleFrom (hop + 1) (numer / denom) rest

/-- Scale a block of base samples through a chain of local rates, outermost first. -/
def scaleAlong (block : Nat) (chain : List Rate) : Except Trap (Except BlockFault Nat) :=
  scaleFrom 0 block chain

end Defs

end Dataflow
