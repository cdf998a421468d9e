import IngressBench.Proofs.Program.Pauses
import Mathlib.Algebra.Order.Floor.Semiring
import Mathlib.Algebra.Order.Group.MinMax
import Mathlib.Algebra.Order.Field.Basic
import Mathlib.Data.Rat.Floor

/-!
Exact clocks. Times are exact when they are added, subtracted and compared as numbers are, and when a
wait is allowed as many pauses as fit into it (`TimeScale.Exact`). Where no answer takes a negative
time, the clock of a program that neither sleeps nor pauses never goes back (`World.run_forward`).
-/
namespace IngressBench

/-- Times without rounding. -/
class TimeScale.Exact (τ : Type) [Field τ] [LinearOrder τ] [FloorSemiring τ] [TimeScale τ] :
    Prop where
  add_eq (a b : τ) : TimeScale.add a b = a + b
  sub_eq (a b : τ) : TimeScale.sub a b = a - b
  less_iff (a b : τ) : TimeScale.less a b = true ↔ a < b
  atMost_iff (a b : τ) : TimeScale.atMost a b = true ↔ a ≤ b
  zero_eq : (TimeScale.zero : τ) = 0
  /-- There are as many rounds as pauses that fit, the last one of which may be cut short. -/
  rounds_le (interval timeout : τ) (h : 0 < interval) :
    ⌈timeout / interval⌉₊ ≤ TimeScale.rounds interval timeout

attribute [simp] TimeScale.Exact.add_eq TimeScale.Exact.sub_eq TimeScale.Exact.less_iff
  TimeScale.Exact.atMost_iff TimeScale.Exact.zero_eq

/-- An event at which a program passes no time by itself. -/
def Event.Brisk {τ : Type} : Event τ → Prop
  | .slept _ | .stopped => False
  | _ => True

theorem Event.Brisk.still {τ : Type} {e : Event τ} (h : e.Brisk) : e.Still := by
  cases e with
  | stopped => exact h
  | _ => trivial

variable {τ σ α : Type} [Field τ] [LinearOrder τ] [FloorSemiring τ] [TimeScale τ]
  [TimeScale.Exact τ]

@[simp] theorem TimeScale.least_eq (a b : τ) : TimeScale.least a b = min a b := by
  unfold TimeScale.least
  rcases lt_or_ge b a with h | h
  · rw [if_pos ((TimeScale.Exact.less_iff b a).mpr h), min_eq_right h.le]
  · rw [if_neg fun hless => absurd ((TimeScale.Exact.less_iff b a).mp hless) h.not_gt,
      min_eq_left h]

@[simp] theorem TimeScale.greatest_eq (a b : τ) : TimeScale.greatest a b = max a b := by
  unfold TimeScale.greatest
  by_cases h : a < b
  · rw [if_pos ((TimeScale.Exact.less_iff a b).mpr h), max_eq_right h.le]
  · rw [if_neg fun hless => h ((TimeScale.Exact.less_iff a b).mp hless), max_eq_left (not_lt.mp h)]

namespace World

omit [FloorSemiring τ] [TimeScale τ] [TimeScale.Exact τ] in
/-- No answer takes a negative time. -/
def Forward (w : World τ σ) : Prop :=
  ∀ q s, 0 ≤ (w.answer q s).2.1

variable [IsStrictOrderedRing τ]

/-- **The clock of a program that neither sleeps nor pauses never goes back.** -/
theorem run_forward {w : World τ σ} (hw : w.Forward) {p : Program τ α} (hp : p.Only Event.Brisk)
    (h : History τ σ) : h.now ≤ (w.run p h).2.now := by
  induction p generalizing h with
  | done a => exact le_rfl
  | call c next ih =>
    obtain ⟨hcall, hnext⟩ := hp.call
    refine le_trans ?_ (ih _ (hnext _) (w.reply c h).2)
    cases c with
    | clock => exact le_rfl
    | log level text => exact le_rfl
    | sleep time => exact (hcall () _ rfl (.slept time) List.mem_cons_self).elim
    | pause time => exact (hcall true _ ⟨[], rfl⟩ .stopped List.mem_cons_self).elim
    | ask q =>
      show h.now ≤ TimeScale.add h.now (w.answer q h.state).2.1
      rw [TimeScale.Exact.add_eq]
      exact le_add_of_nonneg_right (hw q h.state)

end World

namespace Sample

/-- Times as fractions. -/
instance fractions : TimeScale ℚ where
  add a b := a + b
  sub a b := a - b
  less a b := decide (a < b)
  atMost a b := decide (a ≤ b)
  zero := 0
  text := toString
  rounds interval timeout := ⌈timeout / interval⌉₊
  ofSeconds _ := 0

instance : TimeScale.Exact ℚ where
  add_eq _ _ := rfl
  sub_eq _ _ := rfl
  less_iff _ _ := decide_eq_true_iff
  atMost_iff _ _ := decide_eq_true_iff
  zero_eq := rfl
  rounds_le _ _ _ := le_rfl

end Sample
end IngressBench
