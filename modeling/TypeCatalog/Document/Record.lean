import TypeCatalog.Document.Json

/-!
# Records in documents

A record has fields with known names in a known order. It is written as an object, with its fields
in any order and unknown fields among them, or as an array of its fields, the last of which may be
missing. A field that is written twice makes it no record.
-/

namespace TypeCatalog

/-- What becomes of items of an array that are more than the fields of the record. -/
inductive Surplus where
  | refused
  | ignored
deriving DecidableEq

/-- The known fields of a record that are there. -/
structure Record where
  fields : List (String × Tree)

namespace Record

/-- The known fields of an object, if every key has a text and no known one is repeated. -/
def ofFields? (names : List String) (fields : List (Option String × Tree)) : Option Record := do
  let fields ← fields.mapM fun (name, t) => name.map fun name => (name, t)
  let known := fields.filter fun f => f.1 ∈ names
  if (known.map (·.1)).Nodup then some ⟨known⟩ else none

def read? (surplus : Surplus) (names : List String) : Tree → Option Record
  | .object fields => ofFields? names fields
  | .array items =>
    if surplus = .ignored ∨ items.length ≤ names.length then some ⟨names.zip items⟩ else none
  | _ => none

def ofTree? : List String → Tree → Option Record := read? .refused

def get? (r : Record) (name : String) : Option Tree := r.fields.lookup name

/-- A field that has to be there. -/
def need {α : Type} (r : Record) (name : String) (read : Tree → Option α) : Option α :=
  (r.get? name).bind read

/-- A field that may be missing. -/
def want {α : Type} (r : Record) (name : String) (read : Tree → Option α) (spare : α) : Option α :=
  match r.get? name with
  | some t => read t
  | none => some spare

end Record

namespace Tree

/-! ## Reading fields -/

def text? : Tree → Option String
  | .string s => s
  | _ => none

def truth? : Tree → Option Bool
  | .bool b => some b
  | _ => none

/-- An integer from zero up in 64 bits. -/
def natural? : Tree → Option Nat
  | .number n => (n.number?.bind (·.toUInt64?)).map (·.toNat)
  | _ => none

def integer? : Tree → Option Int64
  | .number n => n.number?.bind (·.toInt64?)
  | _ => none

def list? {α : Type} (read : Tree → Option α) : Tree → Option (List α)
  | .array items => items.mapM read
  | _ => none

/-- A field that may be `null`. -/
def optional? {α : Type} (read : Tree → Option α) : Tree → Option (Option α)
  | .null => some none
  | t => (read t).map some

/-! ## Tags -/

/-- A tree that names its sort, and the rest of it. The name is the field `label`, once, or the
first item. -/
def tagged? (label : String) : Tree → Option (String × Tree)
  | .object fields =>
    match fields.filter fun f => f.1 = some label with
    | [(_, .string (some sort))] => some (sort, .object (fields.filter fun f => f.1 ≠ some label))
    | _ => none
  | .array (.string (some sort) :: rest) => some (sort, .array rest)
  | _ => none

end Tree

end TypeCatalog
