import TypeCatalog.Catalog.Enumeration
import TypeCatalog.Document.Json

/-!
# Declarations of a dictionary

A dictionary describes the types of a library. Names in it are qualified: `a::b::C`.
-/

namespace TypeCatalog

/-- The sorts of types that have members. -/
inductive ClassSort where
  | «class»
  | struct
  | union
deriving DecidableEq

def ClassSort.kind : ClassSort → TypeKind
  | .class => .class
  | .struct => .struct
  | .union => .union

inductive Declaration where
  | fundamental (name : String) (size : Nat)
  | namespace (name : String)
  /-- Without a key the qualified name is the key. -/
  | classType (sort : ClassSort) (name : String) (key : Option String) (size : Nat)
  | typedef (name target : String)
  | pointer (target : String)
  | enum (name : String) (key : Option String) (underlying : String) (enumerators : List Enumerator)
  | function (scope name signature : String) (modifiers : List String)
  | dataMember (scope name type : String) (offset : Nat) (modifiers : List String)
deriving DecidableEq

/-- A named value of a declared type. -/
structure Symbol where
  name : String
  type : String
  value : Json

structure Dictionary where
  name : String
  declarations : List Declaration
  symbols : List Symbol

namespace Declaration

/-- The name of the pointer type to `target`. -/
def pointerName (target : String) : String := target ++ " *"

/-- What a declaration is called in reports. -/
def title : Declaration → String
  | .fundamental name _ | .namespace name | .classType _ name _ _ | .typedef name _
  | .enum name _ _ _ => name
  | .pointer target => pointerName target
  | .function scope name _ _ | .dataMember scope name _ _ _ => scope ++ "::" ++ name

/-- The sort of declaration as dictionaries name it. -/
def sort : Declaration → String
  | .fundamental _ _ => "fundamental"
  | .namespace _ => "namespace"
  | .classType sort _ _ _ => sort.kind.label
  | .typedef _ _ => "typedef"
  | .pointer _ => "pointer"
  | .enum _ _ _ _ => "enum"
  | .function _ _ _ _ => "function"
  | .dataMember _ _ _ _ _ => "data_member"

end Declaration

end TypeCatalog
