import TypeCatalog.Dictionary.Loader

/-!
# Operations

Everything that can be done to a catalog from outside, as data, and what each operation answers. A
failed operation may have answered by its fault and still have changed the hub before it failed.
-/

namespace TypeCatalog

inductive Operation where
  | register (key : Key) (kind : TypeKind) (size : Nat) (name : String)
  | setHidden (handle : Handle) (hidden : Bool)
  | declareScope (parent : ScopeId) (name : String) (kind : ScopeKind)
  | addMember (scope : ScopeId) (name : String) (member : Member)
  | attachType (scope : ScopeId) (handle : Handle)
  | declareClass (parent : ScopeId) (name : String) (key : Key) (kind : TypeKind) (size : Nat)
  | buildFundamental (name : String) (size : Nat)
  /-- A fundamental type that stands for a type of the running program. -/
  | buildNative (native : String) (name : String) (size : Nat)
  | registerBuiltins
  | buildEnum (parent : ScopeId) (name : String) (key : Key) (underlying : String)
  | buildEnumOver (parent : ScopeId) (name : String) (key : Key) (underlying : Handle)
  | addEnumerator (e : Enumeration) (name : String) (value : Int64)
  | apply (d : Declaration)
  | load (d : Dictionary)
  | subscribe (selection : Selection) (echo : Option String)
  | unsubscribe (id : SubscriptionId)

/-- What an operation answers. -/
inductive Result where
  | done
  | entry (entry : Entry)
  | changed (changed : Bool)
  | scope (id : ScopeId)
  | enumeration (e : Enumeration)
  | handles (handles : List Handle)
  | report (r : Report)
  | subscription (id : SubscriptionId)
deriving DecidableEq

namespace Hub

/-- Registers fundamental types one by one and stops at the first failure. -/
def registerAll : List (String × Nat) → HubM (List Handle)
  | [] => return []
  | (name, size) :: rest => do
    let entry ← commit (Change.buildFundamental name size)
    return entry.handle :: (← registerAll rest)

/-- Does an operation. -/
def perform : Operation → HubM Result
  | .register key kind size name => return .entry (← commit (Change.register key kind size name))
  | .setHidden handle hidden => return .changed (← commit (Change.setHidden handle hidden))
  | .declareScope parent name kind =>
    return .scope (← commit (Change.declareScope parent name kind))
  | .addMember scope name member => do
    commit (Change.addMember scope name member)
    return .done
  | .attachType scope handle => do
    commit (Change.attachType scope handle)
    return .done
  | .declareClass parent name key kind size =>
    return .scope (← commit (Change.declareClass parent name key kind size))
  | .buildFundamental name size => return .entry (← commit (Change.buildFundamental name size))
  | .buildNative native name size =>
    return .entry (← commit (Change.fundamental (.native native) name size))
  | .registerBuiltins => return .handles (← registerAll builtinFundamentals)
  | .buildEnum parent name key underlying =>
    return .enumeration (← commit (Change.buildEnum parent name key underlying))
  | .buildEnumOver parent name key underlying =>
    return .enumeration (← commit (Change.buildEnumOver parent name key underlying))
  | .addEnumerator e name value => do
    commit (Change.addEnumerator e name value)
    return .done
  | .apply d => do
    apply d
    return .done
  | .load d => fun hub =>
    let (report, hub') := load hub d
    .ok (.report report) hub'
  | .subscribe selection echo => fun hub =>
    let (id, hub') := hub.subscribe selection echo
    .ok (.subscription id) hub'
  | .unsubscribe id => fun hub =>
    let (found, hub') := hub.unsubscribe id
    .ok (.changed found) hub'

/-- What an operation comes to, and the hub after it. -/
def execute (hub : Hub) (op : Operation) : Except Fault Result × Hub :=
  match EStateM.run (perform op) hub with
  | .ok r hub' => (.ok r, hub')
  | .error fault hub' => (.error fault, hub')

end Hub

end TypeCatalog
