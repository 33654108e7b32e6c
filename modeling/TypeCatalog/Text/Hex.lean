/-!
# Hexadecimal digits
-/

namespace TypeCatalog.Text

/-- The value of a digit, in either case. -/
def hexValue? (c : Char) : Option Nat :=
  if '0' ≤ c ∧ c ≤ '9' then some (c.toNat - '0'.toNat)
  else if 'a' ≤ c ∧ c ≤ 'f' then some (c.toNat - 'a'.toNat + 10)
  else if 'A' ≤ c ∧ c ≤ 'F' then some (c.toNat - 'A'.toNat + 10)
  else none

/-- A number in lower-case digits. -/
def hex (n : Nat) : String := String.ofList (Nat.toDigits 16 n)

/-- A number in `width` digits at least, with zeros in front. -/
def hexOfWidth (width n : Nat) : String :=
  let digits := Nat.toDigits 16 n
  String.ofList (List.replicate (width - digits.length) '0' ++ digits)

end TypeCatalog.Text
