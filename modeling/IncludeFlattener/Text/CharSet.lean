/-
IncludeFlattener.Text.CharSet — sets of characters given by ranges of code
points.

The members of a set are the characters whose code points lie in one of
its ranges, both ends included. The sets themselves are properties of the
Unicode standard; each stands in a module of its own.
-/
import IncludeFlattener.Text
namespace IncludeFlattener.Text

/-- A set of characters. -/
structure CharSet where
  /-- First and last code point of each range. -/
  ranges : List (Nat × Nat)

namespace CharSet

/-- Whether a character is in the set. -/
def contains (s : CharSet) (c : Char) : Bool :=
  s.ranges.any fun r => r.1 ≤ c.toNat && c.toNat ≤ r.2

theorem contains_iff (s : CharSet) (c : Char) :
    s.contains c = true ↔ ∃ r ∈ s.ranges, r.1 ≤ c.toNat ∧ c.toNat ≤ r.2 := by
  simp [contains]

end CharSet

end IncludeFlattener.Text
