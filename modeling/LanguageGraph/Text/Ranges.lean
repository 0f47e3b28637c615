/-
# Text.Ranges — sets of characters given by closed ranges of code points

Character classes of a standard are tables of ranges. A character belongs to a table when its code
point lies in one of the ranges, both ends included (`Ranges.contains_iff`).
-/

namespace LanguageGraph.Text

set_option autoImplicit false

/-- A set of code points, as first and last code point of each range. -/
abbrev Ranges : Type := List (Nat × Nat)

def Ranges.contains (ranges : Ranges) (c : Char) : Bool :=
  List.any ranges fun range => decide (range.1 ≤ c.toNat) && decide (c.toNat ≤ range.2)

theorem Ranges.contains_iff (ranges : Ranges) (c : Char) :
    ranges.contains c = true ↔ ∃ range ∈ ranges, range.1 ≤ c.toNat ∧ c.toNat ≤ range.2 := by
  simp [Ranges.contains]

end LanguageGraph.Text
