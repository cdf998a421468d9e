/-!
Sets of characters given as ranges of code points. A set is a list of closed ranges, and a
character belongs to it when its code point lies in one of them.
-/
namespace IngressBench.Text

/-- Closed ranges of code points, in increasing order. -/
abbrev Ranges := List (Nat × Nat)

/-- Membership of a code point. -/
def Ranges.covers (ranges : Ranges) (point : Nat) : Bool :=
  ranges.any fun range => range.1 ≤ point && point ≤ range.2

theorem Ranges.covers_iff (ranges : Ranges) (point : Nat) :
    ranges.covers point = true ↔ ∃ range ∈ ranges, range.1 ≤ point ∧ point ≤ range.2 := by
  simp [Ranges.covers, List.any_eq_true]

end IngressBench.Text
