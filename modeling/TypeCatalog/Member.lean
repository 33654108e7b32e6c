import TypeCatalog.Entry
import TypeCatalog.Modifiers

/-!
# What a name inside a scope stands for
-/

namespace TypeCatalog

inductive Member where
  /-- A type without a scope of its own. -/
  | type (handle : Handle)
  /-- A nested namespace, class or enum. -/
  | scope (id : ScopeId)
  | enumerator (owner : Handle) (value : Int64)
  | function (signature : Handle) (modifiers : Modifiers)
  | dataMember (type : Handle) (offset : Nat) (modifiers : Modifiers)
deriving DecidableEq

namespace Member

def scope? : Member → Option ScopeId
  | .scope id => some id
  | _ => none

/-- The type that the member refers to. -/
def reference? : Member → Option Handle
  | .type h => some h
  | .scope _ => none
  | .enumerator owner _ => some owner
  | .function signature _ => some signature
  | .dataMember h _ _ => some h

/-- What sort of member it is. -/
def sort : Member → String
  | .type _ => "type"
  | .scope _ => "scope"
  | .enumerator _ _ => "enumerator"
  | .function _ _ => "function"
  | .dataMember _ _ _ => "data member"

end Member

end TypeCatalog
