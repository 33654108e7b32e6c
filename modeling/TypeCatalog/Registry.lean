import TypeCatalog.Fault
import TypeCatalog.Table

/-!
# The registry of types

Types in the order of registration, with an index by key, an index by name, and the set of types
that are hidden from look-up by name.
-/

namespace TypeCatalog

/-- What a declaration came to: something new, or what was there already. -/
inductive Outcome (α : Type) where
  | created (a : α)
  | existing (a : α)
deriving DecidableEq

/-- The thing that was declared. -/
def Outcome.value {α : Type} : Outcome α → α
  | .created a => a
  | .existing a => a

structure Registry where
  entries : List Entry
  byKey : Table Key Handle
  /-- The handles under each name, oldest first. -/
  byName : Table String (List Handle)
  hidden : List Handle
deriving DecidableEq

/-- The type that a name stands for, and how many visible types share the name. -/
structure NameMatch where
  entry : Entry
  candidates : Nat
deriving DecidableEq

namespace Registry

def empty : Registry := ⟨[], .empty, .empty, []⟩

def size (r : Registry) : Nat := r.entries.length

def get? (r : Registry) (h : Handle) : Option Entry := r.entries[h.index]?

def lookup? (r : Registry) (key : Key) : Option Entry := (r.byKey.get? key).bind r.get?

def isHidden (r : Registry) (h : Handle) : Bool := h ∈ r.hidden

/-- The first visible type registered under `name`. -/
def matchName? (r : Registry) (name : String) : Option NameMatch :=
  let handles := (r.byName.get? (Name.stripRoot name)).getD []
  match handles.filter fun h => !r.isHidden h with
  | [] => none
  | h :: rest => (r.get? h).map fun entry => ⟨entry, 1 + rest.length⟩

def lookupName? (r : Registry) (name : String) : Option Entry := (r.matchName? name).map (·.entry)

/-- A key stands for one kind and one size. Answers the type that is registered under it. -/
def check (r : Registry) (key : Key) (kind : TypeKind) (size : Nat) :
    Except Fault (Option Entry) :=
  match r.lookup? key with
  | some e =>
    if e.kind = kind ∧ e.size = size then .ok (some e)
    else .error (.kindMismatch key e.kind e.size kind size)
  | none => .ok none

/-- Puts a new type at the end. Its key must be free. -/
def push (r : Registry) (key : Key) (kind : TypeKind) (size : Nat) (name : String) :
    Entry × Registry :=
  let entry : Entry := ⟨⟨r.size⟩, key, kind, size, Name.stripRoot name⟩
  (entry,
    { r with
      entries := r.entries ++ [entry]
      byKey := r.byKey.put key entry.handle
      byName :=
        r.byName.put entry.name ((r.byName.get? entry.name).getD [] ++ [entry.handle]) })

/-- Registers a type, or finds the one that `key` stands for already. -/
def register (r : Registry) (key : Key) (kind : TypeKind) (size : Nat) (name : String) :
    Except Fault (Outcome Entry × Registry) :=
  match r.check key kind size with
  | .error fault => .error fault
  | .ok (some entry) => .ok (.existing entry, r)
  | .ok none =>
    let (entry, r') := r.push key kind size name
    .ok (.created entry, r')

/-- Hides a type from look-up by name, or shows it again. Tells whether that changed anything. -/
def setHidden (r : Registry) (h : Handle) (hidden : Bool) : Except Fault (Bool × Registry) :=
  match r.get? h with
  | none => .error (.unknownHandle h)
  | some _ =>
    if r.isHidden h = hidden then .ok (false, r)
    else if hidden then .ok (true, { r with hidden := r.hidden ++ [h] })
    else .ok (true, { r with hidden := r.hidden.filter (· ≠ h) })

end Registry

end TypeCatalog
