/-!
Classes of characters, as ranges of code points.
-/

namespace CallStacks.Text

/-- Ranges of code points, each with its first and its last. -/
abbrev CodeRanges := List (Nat × Nat)

def CodeRanges.has (ranges : CodeRanges) (c : Char) : Bool :=
  ranges.any fun (first, last) => first ≤ c.toNat && c.toNat ≤ last

end CallStacks.Text
