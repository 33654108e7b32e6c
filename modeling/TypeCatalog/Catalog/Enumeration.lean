import TypeCatalog.Catalog.ScopedType
import TypeCatalog.Fundamental

/-!
# Enums

An enum is a type with an underlying integral type. Its enumerators are members of the scope that
carries it.
-/

namespace TypeCatalog

/-- An enum's type, its scope, and its underlying type. -/
structure Enumeration where
  type : Entry
  scope : ScopeId
  underlying : Handle
deriving DecidableEq

structure Enumerator where
  name : String
  value : Int64
deriving DecidableEq

/-- Whether a type may underlie an enum. -/
def Entry.isIntegral (e : Entry) : Bool :=
  e.kind = .fundamental &&
    match FundamentalClass.ofName? e.simpleName with
    | some fundamental => fundamental.isIntegral
    | none => false

namespace Catalog

/-- The name of a type, or its handle if it is not registered. -/
def typeName (c : Catalog) (h : Handle) : String :=
  match c.types.get? h with
  | some entry => entry.name
  | none => h.text

/-- The enum that a handle stands for. -/
def enumeration? (c : Catalog) (h : Handle) : Option Enumeration := do
  let type ← c.types.get? h
  guard (type.kind = .enum)
  return ⟨type, ← c.scopes.byType? h, ← c.underlying.get? h⟩

/-- The enumerators of an enum in the order in which they were added. -/
def enumerators (c : Catalog) (e : Enumeration) : List Enumerator :=
  ((c.scopes.members? e.scope).getD []).filterMap fun (name, m) =>
    match m with
    | .enumerator owner value => if owner = e.type.handle then some ⟨name, value⟩ else none
    | _ => none

end Catalog

namespace Change

/-- An enum that is declared again must be over the type that it was first declared over. -/
def checkUnderlying (name : String) (key : Key) (base : Entry) : Change Unit := do
  let c ← catalog
  match (c.types.lookup? key).bind fun entry => c.underlying.get? entry.handle with
  | some existing =>
    if existing ≠ base.handle then
      throw (.underlyingMismatch name (c.typeName existing) base.name)
  | none => pure ()

/-- Registers an enum over `base`, with the size of `base`. -/
def enumeration (parent : ScopeId) (name : String) (key : Key) (base : Entry) :
    Change Enumeration := do
  unless base.isIntegral do throw (.invalidUnderlying name base.name)
  checkUnderlying name key base
  let scope ← declareClass parent name key .enum base.size
  let c ← catalog
  let some type := ((c.scopes.info? scope).bind (·.facet)).bind c.types.get?
    | throw (.unknownScope scope)
  modify fun d =>
    { d with catalog :=
      { d.catalog with underlying := d.catalog.underlying.keep type.handle base.handle } }
  return ⟨type, scope, base.handle⟩

/-- Registers an enum over the type called `underlying`. -/
def buildEnum (parent : ScopeId) (name : String) (key : Key) (underlying : String) :
    Change Enumeration := do
  match (← catalog).types.lookupName? underlying with
  | some base => enumeration parent name key base
  | none => throw (.unknownType underlying)

/-- Registers an enum over a type given by its handle. -/
def buildEnumOver (parent : ScopeId) (name : String) (key : Key) (underlying : Handle) :
    Change Enumeration := do
  enumeration parent name key (← requireType underlying)

/-- Adds an enumerator at the end. Its name must be free in the enum's scope. -/
def addEnumerator (e : Enumeration) (name : String) (value : Int64) : Change Unit := do
  match (← catalog).scopes.member? e.scope name with
  | some _ => throw (.duplicateMember e.type.name name)
  | none => addMember e.scope name (.enumerator e.type.handle value)

end Change

end TypeCatalog
