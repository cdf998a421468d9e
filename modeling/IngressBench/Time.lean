import IngressBench.Number

/-!
Types of times. Times can be added, subtracted and compared, and a wait of a given length with pauses
of a given length knows how many pauses suffice.
-/
namespace IngressBench

/-- A type of times. -/
class TimeScale (τ : Type) where
  add : τ → τ → τ
  sub : τ → τ → τ
  less : τ → τ → Bool
  atMost : τ → τ → Bool
  zero : τ
  /-- A time as sentences show it. -/
  text : τ → String
  /-- More pauses of the first length than fit into the second one. -/
  rounds : τ → τ → Nat
  /-- The time of a count of seconds. -/
  ofSeconds : Float → τ

namespace TimeScale

variable {τ : Type} [TimeScale τ]

/-- The smaller of two times, the first one when they are equal. -/
def least (a b : τ) : τ :=
  if less b a then b else a

/-- The greater of two times, the first one when they are equal. -/
def greatest (a b : τ) : τ :=
  if less a b then b else a

end TimeScale

/-! ### Times as numbers -/

/-- Pauses when their count cannot be told. -/
def manyRounds : Nat := 1000000

/-- More pauses of length `interval` than fit into `timeout`. Rounding may make pauses shorter, so
twice the quotient is allowed. -/
def numberRounds (interval timeout : Number) : Nat :=
  let quotient := timeout.toFloat / interval.toFloat
  match Binary.ofFloat? quotient with
  | some b => if interval.less (.int 0) || interval.isZero then manyRounds
    else min manyRounds (2 * b.truncated.toNat + 16)
  | none => manyRounds

instance : TimeScale Number where
  add := Number.add
  sub := Number.sub
  less := Number.less
  atMost := Number.atMost
  zero := .int 0
  text := Number.text
  rounds := numberRounds
  ofSeconds := .real

end IngressBench
