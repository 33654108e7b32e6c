import TypeCatalog.Fault
import TypeCatalog.Member
import TypeCatalog.Table
import TypeCatalog.Registry

/-!
# The tree of scopes

Scopes in the order of declaration, the global scope first. A scope binds names to members, and it
is itself a member of its parent. Two indices lead to scopes: by qualified name, and by the type
that a scope carries.
-/

namespace TypeCatalog

structure Scope where
  /-- The simple name. -/
  name : String
  qualified : String
  kind : ScopeKind
  parent : Option ScopeId
  /-- The type that this scope carries. -/
  facet : Option Handle
  members : Table String Member
deriving DecidableEq

/-- The attributes of a scope at one moment. -/
structure ScopeInfo where
  id : ScopeId
  name : String
  qualified : String
  kind : ScopeKind
  parent : Option ScopeId
  facet : Option Handle
  memberCount : Nat
deriving DecidableEq

namespace ScopeInfo

def display (info : ScopeInfo) : String := Name.display info.qualified

def isGlobal (info : ScopeInfo) : Bool := info.parent.isNone

def isType (info : ScopeInfo) : Bool := info.facet.isSome

end ScopeInfo

structure ScopeTree where
  scopes : List Scope
  byName : Table String ScopeId
  byType : Table Handle ScopeId
deriving DecidableEq

namespace ScopeTree

/-- The global scope: a namespace without a name. -/
def root : Scope := ⟨"", "", .namespace, none, none, .empty⟩

/-- The tree with nothing but the global scope. -/
def empty : ScopeTree := ⟨[root], Table.empty.put "" .global, .empty⟩

def size (t : ScopeTree) : Nat := t.scopes.length

def get? (t : ScopeTree) (id : ScopeId) : Option Scope := t.scopes[id.index]?

def contains (t : ScopeTree) (id : ScopeId) : Bool := (t.get? id).isSome

/-- How messages name a scope. -/
def display (t : ScopeTree) (id : ScopeId) : String :=
  match t.get? id with
  | some s => Name.display s.qualified
  | none => id.text

def info? (t : ScopeTree) (id : ScopeId) : Option ScopeInfo :=
  (t.get? id).map fun s =>
    ⟨id, s.name, s.qualified, s.kind, s.parent, s.facet, s.members.size⟩

/-- What a scope binds `name` to itself, without a look at the scopes around it. -/
def member? (t : ScopeTree) (id : ScopeId) (name : String) : Option Member :=
  (t.get? id).bind fun s => s.members.get? name

/-- The bindings of a scope in the order in which they were made. -/
def members? (t : ScopeTree) (id : ScopeId) : Option (List (String × Member)) :=
  (t.get? id).map fun s => s.members.entries

/-- The scope with the qualified name, with or without `::` in front. -/
def byName? (t : ScopeTree) (qualified : String) : Option ScopeId :=
  t.byName.get? (Name.stripRoot qualified)

/-- The scope that carries a type. -/
def byType? (t : ScopeTree) (h : Handle) : Option ScopeId := t.byType.get? h

/-! ## Changes -/

/-- Changes one scope in place. -/
def modify (t : ScopeTree) (id : ScopeId) (f : Scope → Scope) : ScopeTree :=
  { t with scopes := t.scopes.modify id.index f }

def bind (t : ScopeTree) (id : ScopeId) (name : String) (m : Member) : ScopeTree :=
  t.modify id fun s => { s with members := s.members.put name m }

/-- Puts a new scope at the end and binds it in its parent. -/
def push (t : ScopeTree) (parent : ScopeId) (parentName name : String) (kind : ScopeKind) :
    ScopeId × ScopeTree :=
  let id : ScopeId := ⟨t.size⟩
  let qualified := Name.join parentName name
  let scope : Scope := ⟨name, qualified, kind, some parent, none, .empty⟩
  let grown := { t with
    scopes := t.scopes ++ [scope]
    byName := t.byName.keep qualified id }
  (id, grown.bind parent name (.scope id))

/-- Declares a scope inside `parent`, or finds the one of the same kind that is there already. -/
def declare (t : ScopeTree) (parent : ScopeId) (name : String) (kind : ScopeKind) :
    Except Fault (Outcome ScopeId × ScopeTree) :=
  match t.get? parent with
  | none => .error (.unknownScope parent)
  | some p =>
    match p.members.get? name with
    | some (.scope id) =>
      match t.get? id with
      | none => .error (.unknownScope id)
      | some s =>
        if s.kind = kind then .ok (.existing id, t)
        else .error (.scopeKindMismatch (t.display id) s.kind kind)
    | some _ => .error (.duplicateMember (t.display parent) name)
    | none =>
      let (id, t') := t.push parent p.qualified name kind
      .ok (.created id, t')

/-- A scope can be named as a member only where it was declared. -/
def checkOwner (t : ScopeTree) (scope : ScopeId) (name : String) (m : Member) :
    Except Fault Unit :=
  match m with
  | .scope child =>
    match t.get? child with
    | none => .error (.unknownScope child)
    | some c =>
      if c.parent = some scope ∧ c.name = name then .ok ()
      else .error (.scopeReparented (t.display scope) (t.display child))
  | _ => .ok ()

/-- Binds `name`. Tells whether the binding is new; the same one once more changes nothing. -/
def addMember (t : ScopeTree) (scope : ScopeId) (name : String) (m : Member) :
    Except Fault (Bool × ScopeTree) :=
  match t.get? scope with
  | none => .error (.unknownScope scope)
  | some s =>
    match t.checkOwner scope name m with
    | .error fault => .error fault
    | .ok () =>
      match s.members.get? name with
      | some m' =>
        if m' = m then .ok (false, t) else .error (.duplicateMember (t.display scope) name)
      | none => .ok (true, t.bind scope name m)

/-- Makes a scope carry a type. It keeps the first one. -/
def attach (t : ScopeTree) (scope : ScopeId) (h : Handle) : Except Fault ScopeTree :=
  match t.get? scope with
  | none => .error (.unknownScope scope)
  | some s =>
    match s.facet with
    | some h' => if h' = h then .ok t else .error (.facetConflict s.qualified h' h)
    | none =>
      let t' := t.modify scope fun s => { s with facet := some h }
      .ok { t' with byType := t'.byType.keep h scope }

end ScopeTree

end TypeCatalog
