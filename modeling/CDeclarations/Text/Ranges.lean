/-!
# `CDeclarations.Text.Ranges`: sets of characters as ranges

A property of characters that has no shorter rule is given as the
list of its ranges.
-/

set_option autoImplicit false

namespace CDeclarations.Text

/-- The character lies in one of the ranges; both ends belong to a
range. -/
def inRanges (ranges : List (Nat × Nat)) (c : Char) : Bool :=
  ranges.any fun range => range.1 ≤ c.toNat && c.toNat ≤ range.2

end CDeclarations.Text
