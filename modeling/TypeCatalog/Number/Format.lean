/-!
# Binary floating-point formats

A word of a format is a sign, an exponent and a fraction. Except for infinities and the words that
are not numbers it stands for `m · 2 ^ e` units, where a unit is the smallest positive value of the
format. Reading and rounding are exact arithmetic on natural numbers.
-/

namespace TypeCatalog

structure Format where
  fractionBits : Nat
  exponentBits : Nat
deriving DecidableEq

/-- What the bits of a word say. -/
inductive Reading where
  | nan
  | infinite (negative : Bool)
  /-- `m · 2 ^ e` units. -/
  | finite (negative : Bool) (m e : Nat)
deriving DecidableEq

/-- The integer nearest to `num / den`; of two equally near ones the even one. -/
def nearest (num den : Nat) : Nat :=
  let q := num / den
  let r := num % den
  if 2 * r < den then q
  else if den < 2 * r then q + 1
  else q + q % 2

namespace Format

def binary32 : Format := ⟨23, 8⟩

def binary64 : Format := ⟨52, 11⟩

/-- There are `2 ^ unitExponent` units in the number one. -/
def unitExponent (f : Format) : Nat := Nat.pow 2 (f.exponentBits - 1) - 2 + f.fractionBits

def signBit (f : Format) : Nat := Nat.pow 2 (f.exponentBits + f.fractionBits)

/-- The word of positive infinity. -/
def infinity (f : Format) : Nat := (Nat.pow 2 f.exponentBits - 1) * Nat.pow 2 f.fractionBits

/-- A word that is not a number. -/
def quietNan (f : Format) : Nat := f.infinity + Nat.pow 2 (f.fractionBits - 1)

def withSign (f : Format) (negative : Bool) (word : Nat) : Nat :=
  if negative then f.signBit + word else word

def read (f : Format) (word : Nat) : Reading :=
  let negative := decide (word / f.signBit % 2 = 1)
  let exponent := word / Nat.pow 2 f.fractionBits % Nat.pow 2 f.exponentBits
  let fraction := word % Nat.pow 2 f.fractionBits
  if exponent = Nat.pow 2 f.exponentBits - 1 then
    if fraction = 0 then .infinite negative else .nan
  else if exponent = 0 then .finite negative fraction 0
  else .finite negative (Nat.pow 2 f.fractionBits + fraction) (exponent - 1)

/-- The word nearest to `num / den`; of two equally near ones the one with the even fraction. A
carry out of the fraction raises the exponent, and what is too large becomes infinite. -/
def round (f : Format) (num den : Nat) : Nat :=
  let units := num * Nat.pow 2 f.unitExponent
  let e := Nat.log2 (units / den) - f.fractionBits
  min f.infinity (e * Nat.pow 2 f.fractionBits + nearest units (den * Nat.pow 2 e))

/-- The word of `f` nearest to what a word of `g` stands for. -/
def convert (f g : Format) (word : Nat) : Nat :=
  match g.read word with
  | .nan => f.quietNan
  | .infinite negative => f.withSign negative f.infinity
  | .finite negative m e =>
    f.withSign negative (f.round (m * Nat.pow 2 e) (Nat.pow 2 g.unitExponent))

end Format

end TypeCatalog
