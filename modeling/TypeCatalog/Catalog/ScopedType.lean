import TypeCatalog.Catalog.Basic

/-!
# Types that own a scope

A class, struct, union or enum is a type and a scope at once. The scope carries the type, and the
type has the qualified name of the scope.
-/

namespace TypeCatalog.Change

/-- A scope that is declared again must carry the type that it was first declared with. -/
def checkFacet (parent : ScopeId) (name : String) (key : Key) : Change Unit := do
  let c ← catalog
  let facet := do
    let scope ← (← c.scopes.member? parent name).scope?
    c.types.get? (← (← c.scopes.info? scope).facet)
  match facet with
  | some entry =>
    if entry.key ≠ key then throw (.duplicateMember (c.scopes.display parent) name)
  | none => pure ()

/-- Registers a type together with the scope that carries it. -/
def declareClass (parent : ScopeId) (name : String) (key : Key) (kind : TypeKind) (size : Nat) :
    Change ScopeId := do
  let some scopeKind := kind.scopeKind? | throw (.noScope name kind)
  discard (ofExcept ((← catalog).types.check key kind size))
  unless (← catalog).scopes.contains parent do throw (.unknownScope parent)
  checkFacet parent name key
  let scope ← declareScope parent name scopeKind
  let qualified := ((← catalog).scopes.info? scope).elim name (·.qualified)
  let entry ← register key kind size qualified
  setScopes (← ofExcept ((← catalog).scopes.attach scope entry.handle))
  return scope

end TypeCatalog.Change
