import TypeCatalog.Scope.Resolution
import TypeCatalog.Settings
import TypeCatalog.Text.Escape

/-!
# Catalogs and changes to them

A catalog holds a registry of types, a tree of scopes and the underlying type of each enum. A change
runs on a draft: the catalog so far and the events raised so far. When a change fails, the draft
keeps what was done before the failure.
-/

namespace TypeCatalog

/-- Something that is new in a catalog. -/
inductive Event where
  | typeRegistered (entry : Entry)
  | scopeDeclared (info : ScopeInfo)
  | memberAdded (scope : ScopeId) (name : String) (member : Member)
deriving DecidableEq

structure Catalog where
  settings : CatalogSettings
  types : Registry
  scopes : ScopeTree
  /-- The underlying type of each enum. -/
  underlying : Table Handle Handle
deriving DecidableEq

def Catalog.empty (settings : CatalogSettings) : Catalog := ⟨settings, .empty, .empty, .empty⟩

/-- A short description. -/
def Catalog.summary (c : Catalog) : String :=
  "Catalog \x7b name: " ++ Text.quotedName c.settings.name ++ ", types: " ++
    toString c.types.size ++ ", scopes: " ++ toString c.scopes.size ++ " \x7d"

structure Draft where
  catalog : Catalog
  /-- What has happened, oldest first. -/
  events : List Event
deriving DecidableEq

abbrev Change := EStateM Fault Draft

namespace Change

def catalog : Change Catalog := do return (← get).catalog

def raise (event : Event) : Change Unit :=
  modify fun d => { d with events := d.events ++ [event] }

def setTypes (types : Registry) : Change Unit :=
  modify fun d => { d with catalog := { d.catalog with types := types } }

def setScopes (scopes : ScopeTree) : Change Unit :=
  modify fun d => { d with catalog := { d.catalog with scopes := scopes } }

def ofExcept {α : Type} : Except Fault α → Change α
  | .ok a => pure a
  | .error fault => throw fault

/-- A type that must be registered. -/
def requireType (h : Handle) : Change Entry := do
  match (← catalog).types.get? h with
  | some entry => return entry
  | none => throw (.unknownHandle h)

/-! ## Single steps -/

def register (key : Key) (kind : TypeKind) (size : Nat) (name : String) : Change Entry := do
  let (outcome, types) ← ofExcept ((← catalog).types.register key kind size name)
  setTypes types
  match outcome with
  | .created entry => raise (.typeRegistered entry)
  | .existing _ => pure ()
  return outcome.value

def declareScope (parent : ScopeId) (name : String) (kind : ScopeKind) : Change ScopeId := do
  let (outcome, scopes) ← ofExcept ((← catalog).scopes.declare parent name kind)
  setScopes scopes
  match outcome with
  | .created id =>
    match scopes.info? id with
    | some info => raise (.scopeDeclared info)
    | none => pure ()
  | .existing _ => pure ()
  return outcome.value

def addMember (scope : ScopeId) (name : String) (member : Member) : Change Unit := do
  match member.reference? with
  | some h => discard (requireType h)
  | none => pure ()
  let (added, scopes) ← ofExcept ((← catalog).scopes.addMember scope name member)
  setScopes scopes
  if added then raise (.memberAdded scope name member)

def attachType (scope : ScopeId) (h : Handle) : Change Unit := do
  discard (requireType h)
  setScopes (← ofExcept ((← catalog).scopes.attach scope h))

def setHidden (h : Handle) (hidden : Bool) : Change Bool := do
  let (changed, types) ← ofExcept ((← catalog).types.setHidden h hidden)
  setTypes types
  return changed

end Change

end TypeCatalog
