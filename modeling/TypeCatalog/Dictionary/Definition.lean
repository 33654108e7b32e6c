import TypeCatalog.Dictionary.Declaration
import TypeCatalog.Dictionary.Report
import TypeCatalog.Lookup.SymbolTable

/-!
# Defining symbols

The symbols of a dictionary are defined in order. A symbol whose type is unknown or does not take
its value is skipped and reported.
-/

namespace TypeCatalog

namespace Symbol

/-- The code point of a string of one character. -/
def character? (v : Json) : Option Int64 :=
  match v.string?.map String.toList with
  | some [c] => some (Int64.ofNat c.toNat)
  | _ => none

/-- The value of the enumerator that a string names. -/
def enumerator? (c : Catalog) (e : Entry) (v : Json) : Option Int64 := do
  let name ← v.string?
  let enum ← c.enumeration? e.handle
  return (← (c.enumerators enum).find? (·.name = name)).value

def bytes? (v : Json) : Option (List UInt8) := do
  (← v.array?).mapM fun item => do
    let n ← item.uint64?
    if n.toNat < 256 then some (UInt8.ofNat n.toNat) else none

/-- A value of a fundamental type. -/
def fundamental? (e : Entry) (v : Json) : FundamentalClass → Option Payload
  | .void => some (.storage [])
  | .bool => v.bool?.map fun b => .inline (.bool b)
  | .character => (v.int64?.or (character? v)).map fun i => .inline (.signed i)
  | .signed => v.int64?.map fun i => .inline (.signed i)
  | .unsigned => v.uint64?.map fun n => .inline (.unsigned n)
  | .floating =>
    v.double?.map fun x => .inline (if e.size = 4 then .single x.toSingle else .double x)

/-- What a value in a dictionary is as data of a type, if it fits the type. -/
def payload? (c : Catalog) (e : Entry) (v : Json) : Option Payload :=
  match e.kind with
  | .fundamental => (FundamentalClass.ofName? e.simpleName).bind (fundamental? e v)
  | .enum => (v.int64?.or (enumerator? c e v)).map fun i => .inline (.signed i)
  | .pointer =>
    (if v.isNull then some 0 else v.uint64?).map fun n => .inline (.address n)
  | _ => (bytes? v).map .storage

/-- The value of a symbol. Its type must be known and take the value. -/
def decode (c : Catalog) (s : Symbol) : Except Fault Value :=
  match c.types.lookupName? s.type with
  | none => .error (.unknownType s.type)
  | some e =>
    match payload? c e s.value with
    | some payload => .ok ⟨e.handle, payload⟩
    | none =>
      .error (.dictionary ("value " ++ s.value.text ++ " of symbol '" ++ s.name ++
        "' does not fit type '" ++ e.name ++ "'"))

/-- Defines symbols in order and goes on after failures. -/
def defineAll (c : Catalog) (report : Report) (table : SymbolTable) (index : Nat) :
    List Symbol → Report × SymbolTable
  | [] => (report, table)
  | s :: rest =>
    match s.decode c with
    | .ok v =>
      defineAll c (report.record index s.name (.ok ())) (table.put s.name v) (index + 1) rest
    | .error fault =>
      defineAll c (report.record index s.name (.error fault)) table (index + 1) rest

end Symbol

/-- Defines the symbols of a dictionary in a table. -/
def Dictionary.defineSymbols (d : Dictionary) (c : Catalog) (table : SymbolTable) :
    Report × SymbolTable :=
  Symbol.defineAll c (.start d.name) table 0 d.symbols

end TypeCatalog
