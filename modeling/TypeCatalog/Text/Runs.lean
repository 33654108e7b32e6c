/-!
# Runs of characters

A set of characters as runs of code points.
-/

namespace TypeCatalog.Text

/-- The first and the last code point of each run, in ascending order. -/
abbrev Runs := List (Nat × Nat)

def Runs.has (runs : Runs) (c : Char) : Bool :=
  runs.any fun (first, last) => first ≤ c.toNat && c.toNat ≤ last

end TypeCatalog.Text
