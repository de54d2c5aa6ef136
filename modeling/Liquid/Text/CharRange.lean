/-!
# Sets of characters given as ranges of code points

The character classes of the library are finite unions of closed ranges of code points. This file
holds the membership test they share.
-/

namespace Liquid.Text

/-- A closed range of code points, first and last. -/
abbrev CharRange := Nat × Nat

/-- The code point of `c` lies in one of `ranges`. -/
def inRanges (ranges : List CharRange) (c : Char) : Bool :=
  ranges.any fun range => range.1 ≤ c.toNat && c.toNat ≤ range.2

theorem inRanges_eq_true_iff {ranges : List CharRange} {c : Char} :
    inRanges ranges c = true ↔ ∃ range ∈ ranges, range.1 ≤ c.toNat ∧ c.toNat ≤ range.2 := by
  simp [inRanges]

end Liquid.Text
