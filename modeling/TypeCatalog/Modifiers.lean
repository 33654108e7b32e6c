/-!
# Modifiers of members

A set of keywords such as `public` or `virtual`, kept as bits. Each keyword has a bit of its own.
-/

namespace TypeCatalog

structure Modifiers where
  bits : UInt32
deriving DecidableEq

namespace Modifiers

/-- The set that holds the bit at position `n` alone. -/
def single (n : Nat) : Modifiers := ⟨UInt32.ofNat (Nat.pow 2 n)⟩

/-- The keywords in the order in which they are shown, each with its modifier. -/
def keywords : List (String × Modifiers) :=
  [("public", single 0), ("protected", single 1), ("private", single 2), ("static", single 4),
    ("constructor", single 5), ("destructor", single 6), ("explicit", single 7),
    ("operator", single 10), ("inline", single 11), ("const", single 15), ("volatile", single 16),
    ("abstract", single 18), ("virtual", single 19), ("transient", single 20),
    ("artificial", single 21)]

def none : Modifiers := ⟨0⟩

def union (a b : Modifiers) : Modifiers := ⟨a.bits ||| b.bits⟩

def inter (a b : Modifiers) : Modifiers := ⟨a.bits &&& b.bits⟩

/-- Whether all of `b` is in `a`. -/
def contains (a b : Modifiers) : Bool := a.inter b = b

def all : Modifiers := keywords.foldl (fun acc k => acc.union k.2) none

/-- Bits without a keyword are dropped. -/
def ofBits (bits : UInt32) : Modifiers := all.inter ⟨bits⟩

def parse? (keyword : String) : Option Modifiers := keywords.lookup keyword

/-- The union of the keywords, or the first unknown one. -/
def ofKeywords (names : List String) : Except String Modifiers :=
  names.foldlM (fun acc name =>
    match parse? name with
    | some m => .ok (acc.union m)
    | .none => .error name) none

def isEmpty (m : Modifiers) : Bool := m.bits = 0

def shown (m : Modifiers) : List String :=
  (keywords.filter fun k => m.contains k.2).map (·.1)

def text (m : Modifiers) : String := " ".intercalate m.shown

end Modifiers

end TypeCatalog
