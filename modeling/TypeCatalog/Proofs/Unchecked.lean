import TypeCatalog.Hub.Operation

/-!
# Reading without asking

Scopes and types are elements of lists, and some steps take an element at a position that was kept
earlier without asking whether the list is long enough. Here such a read is written out: it breaks
off if there is no element. The steps, the changes and the operations follow once more, and each
breaks off where one of its reads does.
-/

namespace TypeCatalog

/-! ## In the tree of scopes -/

namespace ScopeTree

/-- Changes the scope at a position. -/
def modifyUnchecked (t : ScopeTree) (id : ScopeId) (f : Scope → Scope) : Option ScopeTree :=
  (t.get? id).map fun _ => t.modify id f

/-- The kind of a scope that is bound already and the parent of a new one are read unasked. -/
def declareUnchecked (t : ScopeTree) (parent : ScopeId) (name : String) (kind : ScopeKind) :
    Option (Except Fault (Outcome ScopeId × ScopeTree)) :=
  match t.get? parent with
  | none => some (.error (.unknownScope parent))
  | some p =>
    match p.members.get? name with
    | some (.scope id) =>
      (t.get? id).map fun s =>
        if s.kind = kind then .ok (.existing id, t)
        else .error (.scopeKindMismatch (t.display id) s.kind kind)
    | some _ => some (.error (.duplicateMember (t.display parent) name))
    | none => do
      let id : ScopeId := ⟨t.size⟩
      let qualified := Name.join p.qualified name
      let scope : Scope := ⟨name, qualified, kind, some parent, none, .empty⟩
      let grown := { t with scopes := t.scopes ++ [scope] }
      let bound ← grown.modifyUnchecked parent fun s =>
        { s with members := s.members.put name (.scope id) }
      return .ok (.created id, { bound with byName := bound.byName.keep qualified id })

/-- The scope that gets the member is read unasked when it is changed. -/
def addMemberUnchecked (t : ScopeTree) (scope : ScopeId) (name : String) (m : Member) :
    Option (Except Fault (Bool × ScopeTree)) :=
  match t.get? scope with
  | none => some (.error (.unknownScope scope))
  | some s =>
    match t.checkOwner scope name m with
    | .error fault => some (.error fault)
    | .ok () =>
      match s.members.get? name with
      | some m' =>
        some (if m' = m then .ok (false, t) else .error (.duplicateMember (t.display scope) name))
      | none => do
        let bound ← t.modifyUnchecked scope fun s => { s with members := s.members.put name m }
        return .ok (true, bound)

/-- The scope that gets the type is read unasked when it is changed. -/
def attachUnchecked (t : ScopeTree) (scope : ScopeId) (h : Handle) :
    Option (Except Fault ScopeTree) :=
  match t.get? scope with
  | none => some (.error (.unknownScope scope))
  | some s =>
    match s.facet with
    | some h' =>
      some (if h' = h then .ok t else .error (.facetConflict s.qualified h' h))
    | none => do
      let carrying ← t.modifyUnchecked scope fun s => { s with facet := some h }
      return .ok { carrying with byType := carrying.byType.keep h scope }

/-- Each scope on the way down is read unasked. -/
def descendUnchecked (t : ScopeTree) (m : Member) : List String → Option (Option Member)
  | [] => some (some m)
  | name :: rest =>
    match t.inside? m with
    | none => some none
    | some id => do
      let s ← t.get? id
      match s.members.get? name with
      | some m' => t.descendUnchecked m' rest
      | none => return none

def resolvePathUnchecked (t : ScopeTree) (start : ScopeId) (path : String) :
    Option (Option Member) :=
  let start := if Name.isAbsolute path then ScopeId.global else start
  let (first, rest) := Name.components (Name.stripRoot path)
  match t.resolve? start first with
  | some m => t.descendUnchecked m rest
  | none => some none

end ScopeTree

/-- The first type under a name is read unasked. -/
def Registry.matchNameUnchecked (r : Registry) (name : String) : Option (Option NameMatch) :=
  match r.byName.get? (Name.stripRoot name) with
  | none => some none
  | some handles =>
    match handles.filter fun h => !r.isHidden h with
    | [] => some none
    | h :: rest => do
      let entry ← r.get? h
      return some ⟨entry, 1 + rest.length⟩

/-! ## Work that may break off -/

/-- Work that may break off without an answer. -/
structure Unchecked (σ α : Type) where
  run : EStateM Fault σ (Option α)

namespace Unchecked

section Work

variable {σ α : Type}

instance : Monad (Unchecked σ) where
  pure a := ⟨pure (some a)⟩
  bind work f := ⟨do
    match ← work.run with
    | some a => (f a).run
    | none => return none⟩

instance : MonadLift (EStateM Fault σ) (Unchecked σ) where
  monadLift work := ⟨do return some (← work)⟩

def refuse (fault : Fault) : Unchecked σ α := ⟨throw fault⟩

/-- The answer of a read, if the read does not break off. -/
def probe (answer : Option α) : Unchecked σ α := ⟨return answer⟩

end Work

/-! ## Changes -/

def declareScope (parent : ScopeId) (name : String) (kind : ScopeKind) :
    Unchecked Draft ScopeId := do
  let (outcome, scopes) ← Change.ofExcept
    (← probe ((← Change.catalog).scopes.declareUnchecked parent name kind))
  Change.setScopes scopes
  match outcome with
  | .created id =>
    match scopes.info? id with
    | some info => Change.raise (.scopeDeclared info)
    | none => pure ()
  | .existing _ => pure ()
  return outcome.value

def addMember (scope : ScopeId) (name : String) (member : Member) : Unchecked Draft Unit := do
  match member.reference? with
  | some h => discard (Change.requireType h)
  | none => pure ()
  let (added, scopes) ← Change.ofExcept
    (← probe ((← Change.catalog).scopes.addMemberUnchecked scope name member))
  Change.setScopes scopes
  if added then Change.raise (.memberAdded scope name member)

def attachType (scope : ScopeId) (h : Handle) : Unchecked Draft Unit := do
  discard (Change.requireType h)
  Change.setScopes
    (← Change.ofExcept (← probe ((← Change.catalog).scopes.attachUnchecked scope h)))

def declareClass (parent : ScopeId) (name : String) (key : Key) (kind : TypeKind) (size : Nat) :
    Unchecked Draft ScopeId := do
  let some scopeKind := kind.scopeKind? | refuse (.noScope name kind)
  discard (Change.ofExcept ((← Change.catalog).types.check key kind size))
  unless (← Change.catalog).scopes.contains parent do refuse (.unknownScope parent)
  Change.checkFacet parent name key
  let scope ← declareScope parent name scopeKind
  let qualified := ((← Change.catalog).scopes.info? scope).elim name (·.qualified)
  let entry ← Change.register key kind size qualified
  Change.setScopes (← Change.ofExcept
    (← probe ((← Change.catalog).scopes.attachUnchecked scope entry.handle)))
  return scope

def fundamental (key : Key) (name : String) (size : Nat) : Unchecked Draft Entry := do
  Change.checkWidth name size
  let entry ← Change.register key .fundamental size name
  match (← Change.catalog).scopes.member? .global name with
  | none => addMember .global name (.type entry.handle)
  | some _ => pure ()
  return entry

def enumeration (parent : ScopeId) (name : String) (key : Key) (base : Entry) :
    Unchecked Draft Enumeration := do
  unless base.isIntegral do refuse (.invalidUnderlying name base.name)
  Change.checkUnderlying name key base
  let scope ← declareClass parent name key .enum base.size
  let c ← Change.catalog
  let some type := ((c.scopes.info? scope).bind (·.facet)).bind c.types.get?
    | refuse (.unknownScope scope)
  (modify fun d =>
    { d with catalog :=
      { d.catalog with underlying := d.catalog.underlying.keep type.handle base.handle } } :
    Change Unit)
  return ⟨type, scope, base.handle⟩

def buildEnum (parent : ScopeId) (name : String) (key : Key) (underlying : String) :
    Unchecked Draft Enumeration := do
  match ← probe ((← Change.catalog).types.matchNameUnchecked underlying) with
  | some found => enumeration parent name key found.entry
  | none => refuse (.unknownType underlying)

def buildEnumOver (parent : ScopeId) (name : String) (key : Key) (underlying : Handle) :
    Unchecked Draft Enumeration := do
  enumeration parent name key (← Change.requireType underlying)

def addEnumerator (e : Enumeration) (name : String) (value : Int64) : Unchecked Draft Unit := do
  match (← Change.catalog).scopes.member? e.scope name with
  | some _ => refuse (.duplicateMember e.type.name name)
  | none => addMember e.scope name (.enumerator e.type.handle value)

/-! ## Operations -/

/-- Runs a change, and tells the observers of what it raised, wherever it broke off. -/
def commit {α : Type} (change : Unchecked Draft α) : Unchecked Hub α :=
  ⟨Hub.commit change.run⟩

def registerAll : List (String × Nat) → Unchecked Hub (List Handle)
  | [] => return []
  | (name, size) :: rest => do
    let entry ← commit (fundamental (.named name) name size)
    return entry.handle :: (← registerAll rest)

def requireType (name : String) : Unchecked Hub Entry := do
  match ← probe ((← Hub.catalogNow).types.matchNameUnchecked name) with
  | some found => return found.entry
  | none => refuse (.unknownType name)

def walk (current : ScopeId) (path : String) : List String → Unchecked Hub ScopeId
  | [] => return current
  | name :: rest => do
    let path := Name.join path name
    match (← Hub.catalogNow).scopes.byName? path with
    | some id => walk id path rest
    | none => walk (← commit (declareScope current name .namespace)) path rest

def ensureNamespace (path : String) : Unchecked Hub ScopeId := do
  let path := Name.stripRoot path
  match (← Hub.catalogNow).scopes.byName? path with
  | some id => return id
  | none =>
    let (first, rest) := Name.components path
    walk .global "" (first :: rest)

def addEnumerators (e : Enumeration) (existing : List Enumerator) :
    List Enumerator → Unchecked Hub Unit
  | [] => return ()
  | new :: rest => do
    unless new ∈ existing do commit (addEnumerator e new.name new.value)
    addEnumerators e existing rest

def apply : Declaration → Unchecked Hub Unit
  | .fundamental name size => discard (commit (fundamental (.named name) name size))
  | .namespace name => discard (ensureNamespace name)
  | .classType sort name key size => do
    let (parent, simple) := Name.split (Name.stripRoot name)
    let parent ← ensureNamespace parent
    discard (commit (declareClass parent simple (.ofSymbol key name) sort.kind size))
  | .typedef name target => do
    let target ← requireType target
    let (parent, simple) := Name.split (Name.stripRoot name)
    let parent ← ensureNamespace parent
    let entry ← Hub.commit (Change.register (.named name) .typedef target.size name)
    commit (addMember parent simple (.type entry.handle))
  | .pointer target => do
    discard (requireType target)
    let name := Declaration.pointerName target
    discard (Hub.commit (Change.register (.named name) .pointer Hub.pointerSize name))
  | .enum name key underlying enumerators => do
    let (parent, simple) := Name.split (Name.stripRoot name)
    let parent ← ensureNamespace parent
    let e ← commit (buildEnum parent simple (.ofSymbol key name) underlying)
    addEnumerators e ((← Hub.catalogNow).enumerators e) enumerators
  | .function scope name signature modifiers => do
    let scope ← Hub.requireScope scope
    let modifiers ← Hub.requireModifiers modifiers
    let entry ← Hub.commit (Change.register (.named signature) .function 0 signature)
    commit (addMember scope name (.function entry.handle modifiers))
  | .dataMember scope name type offset modifiers => do
    let scope ← Hub.requireScope scope
    let modifiers ← Hub.requireModifiers modifiers
    let entry ← requireType type
    commit (addMember scope name (.dataMember entry.handle offset modifiers))

/-- What work comes to, unless it breaks off. -/
def outcome? {α : Type} (work : Unchecked Hub α) (hub : Hub) : Option (Except Fault α × Hub) :=
  match EStateM.run work.run hub with
  | .ok (some a) hub' => some (.ok a, hub')
  | .ok none _ => none
  | .error fault hub' => some (.error fault, hub')

def applyAll (report : Report) (index : Nat) (hub : Hub) : List Declaration → Option (Report × Hub)
  | [] => some (report, hub)
  | d :: rest => do
    let (outcome, hub') ← outcome? (apply d) hub
    applyAll (report.record index d.title outcome) (index + 1) hub' rest

def load (hub : Hub) (d : Dictionary) : Option (Report × Hub) :=
  applyAll (.start d.name) 0 hub d.declarations

def perform : Operation → Unchecked Hub Result
  | .declareScope parent name kind => return .scope (← commit (declareScope parent name kind))
  | .addMember scope name member => do
    commit (addMember scope name member)
    return .done
  | .attachType scope handle => do
    commit (attachType scope handle)
    return .done
  | .declareClass parent name key kind size =>
    return .scope (← commit (declareClass parent name key kind size))
  | .buildFundamental name size =>
    return .entry (← commit (fundamental (.named name) name size))
  | .buildNative native name size =>
    return .entry (← commit (fundamental (.native native) name size))
  | .registerBuiltins => return .handles (← registerAll builtinFundamentals)
  | .buildEnum parent name key underlying =>
    return .enumeration (← commit (buildEnum parent name key underlying))
  | .buildEnumOver parent name key underlying =>
    return .enumeration (← commit (buildEnumOver parent name key underlying))
  | .addEnumerator e name value => do
    commit (addEnumerator e name value)
    return .done
  | .apply d => do
    apply d
    return .done
  | .load d => ⟨fun hub =>
    match load hub d with
    | some (report, hub') => .ok (some (.report report)) hub'
    | none => .ok none hub⟩
  -- The others read nothing without asking.
  | .register key kind size name => Hub.perform (.register key kind size name)
  | .setHidden handle hidden => Hub.perform (.setHidden handle hidden)
  | .subscribe selection echo => Hub.perform (.subscribe selection echo)
  | .unsubscribe id => Hub.perform (.unsubscribe id)

def execute (hub : Hub) (op : Operation) : Option (Except Fault Result × Hub) :=
  outcome? (perform op) hub

end Unchecked

end TypeCatalog
