import TypeCatalog.Number.Floating

/-!
# Reading decimals

The digits of a decimal are gathered into a 64-bit integer, which is rounded to a floating-point
number and then multiplied or divided once by a rounded power of ten. Each step rounds to nearest;
the result is within a few units of the decimal and is fixed by these steps.
-/

namespace TypeCatalog

/-- A decimal as its gathered digits and the power of ten to scale them by. -/
structure Gathered where
  significand : Nat
  exponent : Int
deriving DecidableEq

namespace Gathered

/-- Whether one more digit keeps the significand in 64 bits. -/
def fits (significand digit : Nat) : Bool := significand * 10 + digit < 0x10000000000000000

/-- Gathers digits in front of the point. From the first one that does not fit on, each digit only
raises the exponent. -/
def whole (significand : Nat) : List Nat → Gathered
  | [] => ⟨significand, 0⟩
  | d :: rest =>
    if fits significand d then whole (significand * 10 + d) rest
    else ⟨significand, (d :: rest).length⟩

/-- Gathers digits behind the point. The first one that does not fit ends it. -/
def fraction (g : Gathered) : List Nat → Gathered
  | [] => g
  | d :: rest =>
    if fits g.significand d then fraction ⟨g.significand * 10 + d, g.exponent - 1⟩ rest else g

end Gathered

namespace Double

/-- The magnitude of a finite number as a fraction. -/
def ratio (x : Double) : Nat × Nat :=
  match x.read with
  | .finite _ m e => (m * Nat.pow 2 e, Nat.pow 2 Format.binary64.unitExponent)
  | _ => (0, 1)

/-- The product of two positive finite numbers. -/
def mul (x y : Double) : Double :=
  let (a, b) := x.ratio
  let (c, d) := y.ratio
  ofRatio (a * c) (b * d)

/-- The quotient of two positive finite numbers. -/
def div (x y : Double) : Double :=
  let (a, b) := x.ratio
  let (c, d) := y.ratio
  ofRatio (a * d) (b * c)

/-- The greatest power of ten that is used in one step. -/
def greatestPower : Nat := 308

def powerOfTen (k : Nat) : Double := ofNat (Nat.pow 10 k)

def zero : Double := ⟨0⟩

def isInfinite (x : Double) : Bool := x.bits = UInt64.ofNat Format.binary64.infinity

/-- `x · 10 ^ exponent`, or nothing if that is too large. -/
def scale? (x : Double) (exponent : Int) : Option Double :=
  if x = zero then some zero
  else if 0 ≤ exponent then
    if exponent ≤ greatestPower then
      let y := x.mul (powerOfTen exponent.toNat)
      if y.isInfinite then none else some y
    else none
  else if -greatestPower ≤ exponent then some (x.div (powerOfTen exponent.natAbs))
  else (x.div (powerOfTen greatestPower)).scale? (exponent + greatestPower)
termination_by exponent.natAbs
decreasing_by simp only [greatestPower] at *; omega

end Double

/-- The number that the digits come to, or nothing if it is too large. -/
def Gathered.toDouble? (g : Gathered) : Option Double :=
  (Double.ofNat g.significand).scale? g.exponent

end TypeCatalog
