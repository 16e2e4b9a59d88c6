/-!
# Ranges of codes

A property of characters is listed as the ranges of codes that have it, each by its first and last.
-/

namespace ScreenEditor

/-- Whether a code lies in one of the ranges. -/
def inRanges (ranges : List (Nat × Nat)) (n : Nat) : Bool :=
  ranges.any fun r => r.1 ≤ n && n ≤ r.2

/-- A code lies in the ranges when a range begins at or before it and ends at or behind it. -/
theorem inRanges_iff {ranges : List (Nat × Nat)} {n : Nat} :
    inRanges ranges n = true ↔ ∃ r ∈ ranges, r.1 ≤ n ∧ n ≤ r.2 := by
  simp [inRanges]

end ScreenEditor
