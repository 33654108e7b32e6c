import TypeCatalog.Fundamental
import TypeCatalog.Value.Basic

/-!
# Decoding bytes

The bytes of a fundamental type or of a pointer become a scalar if there are as many of them as the
type has. The byte of least weight comes first. Everything else stays as it is; so do the bytes of
an enum, whose sign depends on its underlying type.
-/

namespace TypeCatalog

namespace Bytes

/-- The number that the bytes are the digits of to base 256, lowest first. -/
def toNat : List UInt8 → Nat
  | [] => 0
  | b :: rest => b.toNat + 256 * toNat rest

/-- Whether the bytes fit in a word. No bytes are no number. -/
def isWord (bytes : List UInt8) : Bool := 0 < bytes.length && bytes.length ≤ 8

def unsigned? (bytes : List UInt8) : Option UInt64 :=
  if isWord bytes then some (UInt64.ofNat (toNat bytes)) else none

/-- The number in two's complement. -/
def signed? (bytes : List UInt8) : Option Int64 :=
  if isWord bytes then
    some (Int64.ofInt (Int.bmod (toNat bytes) (Nat.pow 256 bytes.length)))
  else none

def floating? (bytes : List UInt8) : Option Scalar :=
  if bytes.length = 4 then some (.single ⟨UInt32.ofNat (toNat bytes)⟩)
  else if bytes.length = 8 then some (.double ⟨UInt64.ofNat (toNat bytes)⟩)
  else none

end Bytes

/-- What bytes of the fundamental type called `name` stand for. -/
def FundamentalClass.decode? (name : String) (bytes : List UInt8) : FundamentalClass → Option Scalar
  | .void => none
  | .bool => some (.bool (bytes.any (· ≠ 0)))
  | .character =>
    if isUnsignedCharacter name then (Bytes.unsigned? bytes).map .unsigned
    else (Bytes.signed? bytes).map .signed
  | .signed => (Bytes.signed? bytes).map .signed
  | .unsigned => (Bytes.unsigned? bytes).map .unsigned
  | .floating => Bytes.floating? bytes

/-- The scalar that bytes of a type stand for. -/
def Entry.decode? (e : Entry) (bytes : List UInt8) : Option Scalar :=
  if bytes.length = e.size then
    match e.kind with
    | .fundamental => (FundamentalClass.ofName? e.name).bind (·.decode? e.name bytes)
    | .pointer => (Bytes.unsigned? bytes).map .address
    | _ => none
  else none

/-- Bytes of a type as a value. -/
def Value.fromBytes (e : Entry) (bytes : List UInt8) : Value :=
  match e.decode? bytes with
  | some scalar => .ofScalar e.handle scalar
  | none => .ofBytes e.handle bytes

/-- The scalar that a value of type `e` holds or its bytes stand for. -/
def Value.scalarOf? (v : Value) (e : Entry) : Option Scalar :=
  match v.payload with
  | .inline scalar => some scalar
  | .storage bytes => e.decode? bytes

end TypeCatalog
