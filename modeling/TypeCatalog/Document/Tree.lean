import TypeCatalog.Number.Layout
import TypeCatalog.Number.Scaling

/-!
# Documents as trees

A tree holds a document as it was written: numerals with all their digits, objects with all their
fields in order. Strings whose surrogates do not pair up have no text.
-/

namespace TypeCatalog

/-- A number as it was written. -/
structure Numeral where
  negative : Bool
  whole : List Nat
  /-- The digits behind the point; none without a point. -/
  fraction : List Nat
  /-- The sign and the digits of the exponent. -/
  exponent : Option (Bool × List Nat)
deriving DecidableEq

/-- A number as it is understood. -/
inductive Number where
  | natural (n : UInt64)
  | negative (i : Int64)
  | floating (x : Double)
deriving DecidableEq

inductive Tree where
  | null
  | bool (b : Bool)
  | number (n : Numeral)
  | string (s : Option String)
  | array (items : List Tree)
  | object (fields : List (Option String × Tree))

namespace Numeral

/-- The number that digits stand for. -/
def valueOf (digits : List Nat) : Nat := digits.foldl (fun n d => 10 * n + d) 0

/-- A numeral of digits alone. -/
def ofDigits (negative : Bool) (digits : List Nat) : Numeral := ⟨negative, digits, [], none⟩

def ofNat (n : Nat) : Numeral :=
  ofDigits false ((Nat.toDigits 10 n).map fun c => c.toNat - '0'.toNat)

def isInteger (n : Numeral) : Bool := n.fraction = [] && n.exponent = none

/-- A number with the sign of the numeral. -/
def signed (n : Numeral) (x : Double) : Number := .floating (if n.negative then x.neg else x)

/-- The digits gathered without regard to the exponent. -/
def gathered (n : Numeral) : Gathered := (Gathered.whole 0 n.whole).fraction n.fraction

/-- Exponents from here on are not counted any more. -/
def exponentBound : Nat := 0x80000000

/-- A numeral that is no integer, or too large for one. -/
def scaled? (n : Numeral) : Option Number :=
  let g := n.gathered
  match n.exponent with
  | none => g.toDouble?.map n.signed
  | some (down, digits) =>
    let e := valueOf digits
    if exponentBound ≤ e then
      if g.significand ≠ 0 ∧ !down then none else some (n.signed Double.zero)
    else
      let exponent := if down then g.exponent - e else g.exponent + e
      (Gathered.toDouble? ⟨g.significand, exponent⟩).map n.signed

/-- The number that a numeral stands for, or nothing if it is too large. Integers stay integers in
64 bits. -/
def number? (n : Numeral) : Option Number :=
  let v := valueOf n.whole
  if n.isInteger ∧ v < 0x10000000000000000 then
    if n.negative = false then some (.natural (UInt64.ofNat v))
    else if 0 < v ∧ v ≤ 0x8000000000000000 then some (.negative (Int64.ofInt (-v)))
    else some (n.signed (Double.ofNat v))
  else n.scaled?

end Numeral

namespace Number

def toUInt64? : Number → Option UInt64
  | .natural n => some n
  | _ => none

def toInt64? : Number → Option Int64
  | .natural n =>
    if n.toNat < 0x8000000000000000 then some (Int64.ofNat n.toNat) else none
  | .negative i => some i
  | .floating _ => none

def toDouble : Number → Double
  | .natural n => Double.ofNat n.toNat
  | .negative i => Double.ofInt i.toInt
  | .floating x => x

def text : Number → String
  | .natural n => toString n.toNat
  | .negative i => toString i.toInt
  | .floating x => x.text .document

end Number

end TypeCatalog
