import TypeCatalog.Fault

/-!
# Reports

What came of loading a dictionary: how much was taken, and what was not and why.
-/

namespace TypeCatalog

/-- A declaration or symbol that was not taken. -/
structure Skipped where
  index : Nat
  name : String
  fault : Fault
deriving DecidableEq

structure Report where
  dictionary : String
  applied : Nat
  skipped : List Skipped
deriving DecidableEq

namespace Report

def start (dictionary : String) : Report := ⟨dictionary, 0, []⟩

def isComplete (r : Report) : Bool := r.skipped.isEmpty

def record (r : Report) (index : Nat) (name : String) : Except Fault Unit → Report
  | .ok () => { r with applied := r.applied + 1 }
  | .error fault => { r with skipped := r.skipped ++ [⟨index, name, fault⟩] }

end Report

end TypeCatalog
