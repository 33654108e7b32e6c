import TypeCatalog.Entry

/-!
# Why a registration is refused
-/

namespace TypeCatalog

inductive Fault where
  | kindMismatch (key : Key) (existing : TypeKind) (existingSize : Nat) (requested : TypeKind)
      (requestedSize : Nat)
  | scopeKindMismatch (name : String) (existing requested : ScopeKind)
  | duplicateMember (scope name : String)
  | unsupportedSize (name : String) (size : Nat)
  | unknownScope (id : ScopeId)
  | unknownType (name : String)
  | invalidUnderlying (enum name : String)
  | underlyingMismatch (enum existing requested : String)
  | facetConflict (scope : String) (existing requested : Handle)
  | scopeReparented (scope name : String)
  | noScope (name : String) (kind : TypeKind)
  | unknownHandle (handle : Handle)
  | dictionary (reason : String)
deriving DecidableEq

def Fault.message : Fault → String
  | .kindMismatch key existing existingSize requested requestedSize =>
    "type " ++ key.text ++ " already registered as " ++ existing.text ++ " (" ++
      toString existingSize ++ " bytes), requested " ++ requested.text ++ " (" ++
      toString requestedSize ++ " bytes)"
  | .scopeKindMismatch name existing requested =>
    "scope '" ++ name ++ "' already declared as " ++ existing.text ++ ", requested " ++
      requested.text
  | .duplicateMember scope name =>
    "member '" ++ name ++ "' already bound in scope '" ++ scope ++ "'"
  | .unsupportedSize name size =>
    "unsupported size " ++ toString size ++ " for fundamental type '" ++ name ++ "'"
  | .unknownScope id => "unknown scope " ++ id.text
  | .unknownType name => "unknown type: " ++ name
  | .invalidUnderlying enum name =>
    "type '" ++ name ++ "' cannot be the underlying type of enum '" ++ enum ++ "'"
  | .underlyingMismatch enum existing requested =>
    "enum '" ++ enum ++ "' was declared over " ++ existing ++ ", not " ++ requested
  | .facetConflict scope existing requested =>
    "scope '" ++ scope ++ "' already carries type " ++ existing.text ++ ", cannot attach " ++
      requested.text
  | .scopeReparented scope name =>
    "scope '" ++ name ++ "' is owned by another scope and cannot be added to '" ++ scope ++ "'"
  | .noScope name kind => kind.text ++ " type '" ++ name ++ "' does not own a scope"
  | .unknownHandle handle => "type " ++ handle.text ++ " is not registered in this catalog"
  | .dictionary reason => "dictionary error: " ++ reason

end TypeCatalog
