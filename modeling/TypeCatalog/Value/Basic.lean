import TypeCatalog.Entry
import TypeCatalog.Number.Layout
import TypeCatalog.Text.Hex

/-!
# Values

A value belongs to a type and holds one scalar or raw bytes.
-/

namespace TypeCatalog

inductive Scalar where
  | bool (value : Bool)
  | signed (value : Int64)
  | unsigned (value : UInt64)
  | single (value : Single)
  | double (value : Double)
  | address (value : UInt64)
deriving DecidableEq

namespace Scalar

/-- The scalar as a signed integer, if it is an integer and fits. -/
def toInt64? : Scalar → Option Int64
  | .bool b => some (if b then 1 else 0)
  | .signed v => some v
  | .unsigned v | .address v =>
    if v.toNat < 0x8000000000000000 then some (Int64.ofNat v.toNat) else none
  | .single _ | .double _ => none

/-- The scalar as an unsigned integer, if it is an integer and fits. -/
def toUInt64? : Scalar → Option UInt64
  | .bool b => some (if b then 1 else 0)
  | .signed v => if 0 ≤ v.toInt then some (UInt64.ofNat v.toInt.toNat) else none
  | .unsigned v | .address v => some v
  | .single _ | .double _ => none

/-- The number nearest to the scalar. -/
def toDouble? : Scalar → Option Double
  | .single v => some (Double.ofSingle v)
  | .double v => some v
  | .signed v => some (Double.ofInt v.toInt)
  | .unsigned v => some (Double.ofNat v.toNat)
  | .bool _ | .address _ => none

def text : Scalar → String
  | .bool b => if b then "true" else "false"
  | .signed v => toString v.toInt
  | .unsigned v => toString v.toNat
  | .single v => v.text .printed
  | .double v => v.text .printed
  | .address v => "0x" ++ Text.hex v.toNat

end Scalar

inductive Payload where
  | inline (scalar : Scalar)
  | storage (bytes : List UInt8)
deriving DecidableEq

structure Value where
  type : Handle
  payload : Payload
deriving DecidableEq

namespace Value

def ofScalar (type : Handle) (scalar : Scalar) : Value := ⟨type, .inline scalar⟩

def ofBytes (type : Handle) (bytes : List UInt8) : Value := ⟨type, .storage bytes⟩

/-- A value without data. -/
def empty (type : Handle) : Value := ofBytes type []

def scalar? (v : Value) : Option Scalar :=
  match v.payload with
  | .inline scalar => some scalar
  | .storage _ => none

end Value

end TypeCatalog
