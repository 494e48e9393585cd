/-
Sets of characters, given as ranges of code points. A character is in such a set exactly if its code
point lies in one of the ranges.
-/

namespace ShaderText

/-- Ranges of code points, each with its first and its last member. -/
abbrev CodePoints := List (Nat × Nat)

namespace CodePoints

/-- A character whose code point lies in one of the ranges. -/
def contains (ranges : CodePoints) (c : Char) : Bool :=
  ranges.any fun (first, last) => first ≤ c.toNat && c.toNat ≤ last

theorem contains_iff (ranges : CodePoints) (c : Char) :
    ranges.contains c = true ↔ ∃ r ∈ ranges, r.1 ≤ c.toNat ∧ c.toNat ≤ r.2 := by
  simp [contains]

end CodePoints

end ShaderText
