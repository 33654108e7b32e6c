import TypeCatalog.Number.Format

/-!
# Floating-point numbers of 32 and 64 bits

They are kept as their bits, so that equal means equal bit for bit.
-/

namespace TypeCatalog

structure Single where
  bits : UInt32
deriving DecidableEq

structure Double where
  bits : UInt64
deriving DecidableEq

def Single.read (x : Single) : Reading := Format.binary32.read x.bits.toNat

namespace Double

def read (x : Double) : Reading := Format.binary64.read x.bits.toNat

def ofWord (word : Nat) : Double := ⟨UInt64.ofNat word⟩

/-- The number nearest to `num / den`. -/
def ofRatio (num den : Nat) : Double := ofWord (Format.binary64.round num den)

def ofNat (n : Nat) : Double := ofRatio n 1

def neg (x : Double) : Double := ⟨x.bits ^^^ UInt64.ofNat Format.binary64.signBit⟩

def ofInt (i : Int) : Double := if i < 0 then (ofNat i.natAbs).neg else ofNat i.natAbs

def ofSingle (x : Single) : Double :=
  ofWord (Format.binary64.convert Format.binary32 x.bits.toNat)

def toSingle (x : Double) : Single :=
  ⟨UInt32.ofNat (Format.binary32.convert Format.binary64 x.bits.toNat)⟩

def isNan (x : Double) : Bool := x.read = .nan

end Double

def Single.isNan (x : Single) : Bool := x.read = .nan

end TypeCatalog
