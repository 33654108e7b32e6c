import TypeCatalog.Number.Shortest

/-!
# The text of a floating-point number

The digits are always the shortest ones. A layout decides how they are set out.
-/

namespace TypeCatalog

structure Layout where
  /-- The least and the greatest exponent of a number written without `e`; `none` stands for any. -/
  positional : Option (Int × Int)
  /-- Whether an integer is written with `.0` behind it. -/
  marksInteger : Bool
  tie : Tie

namespace Layout

/-- Numbers in documents are positional from `0.00001` up to sixteen digits before the point. -/
def document : Layout := ⟨some (-5, 15), true, .even⟩

/-- Printed values never have an exponent and show an integer as an integer. -/
def printed : Layout := ⟨none, false, .up⟩

def isPositional (l : Layout) (k : Int) : Bool :=
  match l.positional with
  | some (least, greatest) => least ≤ k && k ≤ greatest
  | none => true

def zeros (n : Nat) : String := String.ofList (List.replicate n '0')

/-- Digits with the point behind the digit for `10 ^ 0`; the first digit stands for `10 ^ k`. -/
def setPositional (l : Layout) (digits : List Char) (k : Int) : String :=
  if k < 0 then "0." ++ zeros (-k - 1).toNat ++ String.ofList digits
  else
    let whole := (k + 1).toNat
    if digits.length ≤ whole then
      String.ofList digits ++ zeros (whole - digits.length) ++ (if l.marksInteger then ".0" else "")
    else String.ofList (digits.take whole) ++ "." ++ String.ofList (digits.drop whole)

/-- Digits with the point behind the first one, and the exponent with its sign. -/
def setScientific (digits : List Char) (k : Int) : String :=
  let rest := digits.drop 1
  let fraction := if rest.isEmpty then "" else "." ++ String.ofList rest
  String.ofList (digits.take 1) ++ fraction ++ "e" ++ (if k < 0 then "-" else "+") ++
    toString k.natAbs

def magnitude (l : Layout) (f : Format) (m e : Nat) : String :=
  if m = 0 then l.setPositional ['0'] 0
  else
    let d := Decimal.shortest f l.tie m e
    let digits := Nat.toDigits 10 d.digits
    let k := d.exponent + digits.length - 1
    if l.isPositional k then l.setPositional digits k else setScientific digits k

def text (l : Layout) (f : Format) : Reading → String
  | .nan => "NaN"
  | .infinite negative => if negative then "-inf" else "inf"
  | .finite negative m e => (if negative then "-" else "") ++ l.magnitude f m e

end Layout

def Single.text (x : Single) (l : Layout) : String := l.text .binary32 x.read

def Double.text (x : Double) (l : Layout) : String := l.text .binary64 x.read

end TypeCatalog
