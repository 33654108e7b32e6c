import TypeCatalog.Dictionary.Report
import TypeCatalog.Dictionary.Declaration
import TypeCatalog.Hub.Basic

/-!
# Loading dictionaries

Declarations are applied in order. One that fails is skipped and reported, and what it had done
before it failed stays done. Namespaces that a name mentions are declared on demand.
-/

namespace TypeCatalog

/-- The key of a type with members. -/
def Key.ofSymbol (symbol : Option String) (name : String) : Key :=
  match symbol with
  | some symbol => .mangled symbol
  | none => .named (Name.stripRoot name)

namespace Hub

/-- The size of a pointer. -/
def pointerSize : Nat := 8

/-! ## Finding what a declaration mentions -/

def requireType (name : String) : HubM Entry := do
  match (← catalogNow).types.lookupName? name with
  | some e => return e
  | none => throw (.unknownType name)

def requireScope (name : String) : HubM ScopeId := do
  match (← catalogNow).scopes.byName? name with
  | some id => return id
  | none => throw (.unknownType name)

def requireModifiers (names : List String) : HubM Modifiers :=
  match Modifiers.ofKeywords names with
  | .ok m => return m
  | .error unknown => throw (.dictionary ("unknown modifier '" ++ unknown ++ "'"))

/-- Goes from scope `current`, which is called `path`, through components, and declares the
namespaces that are missing. -/
def walk (current : ScopeId) (path : String) : List String → HubM ScopeId
  | [] => return current
  | name :: rest => do
    let path := Name.join path name
    match (← catalogNow).scopes.byName? path with
    | some id => walk id path rest
    | none => walk (← commit (Change.declareScope current name .namespace)) path rest

/-- The scope called `path`, with missing components declared as namespaces. -/
def ensureNamespace (path : String) : HubM ScopeId := do
  let path := Name.stripRoot path
  match (← catalogNow).scopes.byName? path with
  | some id => return id
  | none =>
    let (first, rest) := Name.components path
    walk .global "" (first :: rest)

/-! ## Applying declarations -/

/-- Adds enumerators one by one. One that is among `existing` is there already. -/
def addEnumerators (e : Enumeration) (existing : List Enumerator) : List Enumerator → HubM Unit
  | [] => return ()
  | new :: rest => do
    unless new ∈ existing do commit (Change.addEnumerator e new.name new.value)
    addEnumerators e existing rest

/-- Applies one declaration. -/
def apply : Declaration → HubM Unit
  | .fundamental name size => discard (commit (Change.buildFundamental name size))
  | .namespace name => discard (ensureNamespace name)
  | .classType sort name key size => do
    let (parent, simple) := Name.split (Name.stripRoot name)
    let parent ← ensureNamespace parent
    discard (commit (Change.declareClass parent simple (.ofSymbol key name) sort.kind size))
  | .typedef name target => do
    let target ← requireType target
    let (parent, simple) := Name.split (Name.stripRoot name)
    let parent ← ensureNamespace parent
    let entry ← commit (Change.register (.named name) .typedef target.size name)
    commit (Change.addMember parent simple (.type entry.handle))
  | .pointer target => do
    discard (requireType target)
    let name := Declaration.pointerName target
    discard (commit (Change.register (.named name) .pointer pointerSize name))
  | .enum name key underlying enumerators => do
    let (parent, simple) := Name.split (Name.stripRoot name)
    let parent ← ensureNamespace parent
    let e ← commit (Change.buildEnum parent simple (.ofSymbol key name) underlying)
    addEnumerators e ((← catalogNow).enumerators e) enumerators
  | .function scope name signature modifiers => do
    let scope ← requireScope scope
    let modifiers ← requireModifiers modifiers
    let entry ← commit (Change.register (.named signature) .function 0 signature)
    commit (Change.addMember scope name (.function entry.handle modifiers))
  | .dataMember scope name type offset modifiers => do
    let scope ← requireScope scope
    let modifiers ← requireModifiers modifiers
    let entry ← requireType type
    commit (Change.addMember scope name (.dataMember entry.handle offset modifiers))

/-- Runs work whose failure is an answer. -/
def attempt (work : HubM Unit) (hub : Hub) : Except Fault Unit × Hub :=
  match EStateM.run work hub with
  | .ok () hub' => (.ok (), hub')
  | .error fault hub' => (.error fault, hub')

/-- Applies declarations in order and goes on after failures. -/
def applyAll (report : Report) (index : Nat) (hub : Hub) : List Declaration → Report × Hub
  | [] => (report, hub)
  | d :: rest =>
    let (outcome, hub') := attempt (apply d) hub
    applyAll (report.record index d.title outcome) (index + 1) hub' rest

def load (hub : Hub) (d : Dictionary) : Report × Hub :=
  applyAll (.start d.name) 0 hub d.declarations

end Hub

end TypeCatalog
