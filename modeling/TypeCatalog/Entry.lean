import TypeCatalog.Kind
import TypeCatalog.Name

/-!
# Registered types

A type is known by its key, and inside a catalog by its handle, the number of types registered
before it.
-/

namespace TypeCatalog

/-- What makes a type the same type. -/
inductive Key where
  /-- A type of the running program, by its name. -/
  | native (name : String)
  /-- A mangled symbol, as a dictionary gives it. -/
  | mangled (symbol : String)
  /-- A plain name. -/
  | named (name : String)
deriving DecidableEq

structure Handle where
  index : Nat
deriving DecidableEq

structure ScopeId where
  index : Nat
deriving DecidableEq

def Key.text : Key → String
  | .native name => "native:" ++ name
  | .mangled symbol => symbol
  | .named name => "name:" ++ name

def Handle.text (h : Handle) : String := "#" ++ toString h.index

def ScopeId.text (id : ScopeId) : String := "scope#" ++ toString id.index

/-- The global scope of every catalog. -/
def ScopeId.global : ScopeId := ⟨0⟩

/-- A registered type. `size` counts bytes, `name` is fully qualified. -/
structure Entry where
  handle : Handle
  key : Key
  kind : TypeKind
  size : Nat
  name : String
deriving DecidableEq

namespace Entry

def simpleName (e : Entry) : String := Name.simple e.name

def text (e : Entry) : String :=
  e.kind.text ++ " " ++ e.name ++ " (" ++ toString e.size ++ " bytes)"

end Entry

end TypeCatalog
