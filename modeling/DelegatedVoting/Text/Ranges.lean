/-!
# Ranges of characters

A set of characters as a list of ranges of their numbers.

* `Ranges`, `Ranges.has`.
-/

namespace DelegatedVoting.Text

/-- The first and the last number of each range. -/
abbrev Ranges := List (Nat × Nat)

/-- Whether a character is in one of the ranges. -/
def Ranges.has (ranges : Ranges) (c : Char) : Bool :=
  ranges.any fun r => r.1 ≤ c.toNat && c.toNat ≤ r.2

end DelegatedVoting.Text
