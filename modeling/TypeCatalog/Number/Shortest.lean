import TypeCatalog.Number.Floating

/-!
# The fewest digits that read back

A floating-point number is written with the fewest decimal digits that still round to it, and of
those digits with the ones nearest to it. On the grid of decimals with `n` digits only the two
neighbours of the number have to be tried: if any point of the grid rounds to it, one of them does.
-/

namespace TypeCatalog

/-- `digits · 10 ^ exponent`. -/
structure Decimal where
  digits : Nat
  exponent : Int
deriving DecidableEq

/-- Which way to go from a point half way between two points of a grid. -/
inductive Tie where
  | even
  | up
deriving DecidableEq

/-- The numbers that round to one number: from `low` to `high` around `value`, all divided by
`scale`. -/
structure Neighbourhood where
  low : Nat
  value : Nat
  high : Nat
  scale : Nat
  /-- Whether the ends belong to it. -/
  closed : Bool
deriving DecidableEq

namespace Neighbourhood

/-- What rounds to `m · 2 ^ e` units. Right above a power of two the gap below is half as wide. -/
def around (f : Format) (m e : Nat) : Neighbourhood :=
  let below := if m = Nat.pow 2 f.fractionBits ∧ 0 < e then 1 else 2
  let quarter := Nat.pow 2 e
  ⟨(4 * m - below) * quarter, 4 * m * quarter, (4 * m + 2) * quarter,
    4 * Nat.pow 2 f.unitExponent, m % 2 = 0⟩

/-- `num / den` is in the neighbourhood. -/
def contains (b : Neighbourhood) (num den : Nat) : Bool :=
  let x := num * b.scale
  if b.closed then b.low * den ≤ x && x ≤ b.high * den else b.low * den < x && x < b.high * den

/-- The largest `k` with `10 ^ k` at most the value, where `k` is at least `-bound`. -/
def magnitude (b : Neighbourhood) (bound : Nat) : Int :=
  let digits := (Nat.toDigits 10 (b.value * Nat.pow 10 bound / b.scale)).length
  digits - 1 - bound

end Neighbourhood

/-- The points of the grid of multiples of `10 ^ p` on both sides of the value, as multiples. The
grid is given as the fraction `num / den`. -/
def Neighbourhood.onGrid? (b : Neighbourhood) (tie : Tie) (num den : Nat) : Option Nat :=
  let d := b.value * den / (b.scale * num)
  let rest := b.value * den % (b.scale * num)
  let below := b.contains (d * num) den
  let above := b.contains ((d + 1) * num) den
  if below && above then
    if 2 * rest < b.scale * num then some d
    else if b.scale * num < 2 * rest then some (d + 1)
    else match tie with
      | .even => some (d + d % 2)
      | .up => some (d + 1)
  else if below then some d
  else if above then some (d + 1)
  else none

namespace Decimal

/-- `10 ^ p` as a fraction. -/
def power (p : Int) : Nat × Nat := (Nat.pow 10 p.toNat, Nat.pow 10 (-p).toNat)

/-- The same number with no zero at the end of its digits. -/
def trim : Nat → Decimal → Decimal
  | 0, d => d
  | n + 1, d =>
    if d.digits % 10 = 0 ∧ d.digits ≠ 0 then trim n ⟨d.digits / 10, d.exponent + 1⟩ else d

/-- The fewest digits that round to `m · 2 ^ e` units. Seventeen are always enough. -/
def shortest (f : Format) (tie : Tie) (m e : Nat) : Decimal :=
  let b := Neighbourhood.around f m e
  let k := b.magnitude (f.unitExponent + 1)
  let found := (List.range 17).findSome? fun (n : Nat) =>
    let p : Int := k - n
    let (num, den) := power p
    (b.onGrid? tie num den).map fun digits => (⟨digits, p⟩ : Decimal)
  trim 20 (found.getD ⟨0, 0⟩)

end Decimal

end TypeCatalog
