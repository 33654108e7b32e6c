import TypeCatalog.Catalog.Enumeration
import TypeCatalog.Text.Escape
import TypeCatalog.Value.Decoding

/-!
# Formatters

A formatter writes a value of a type. Those for fundamental types, enums and pointers show the value
in the words of its type; what they cannot show goes to the fallback, which shows any value.
-/

namespace TypeCatalog

/-- What a formatter sees. -/
structure View where
  catalog : Catalog
  entry : Entry
  value : Value
deriving DecidableEq

/-- What a formatter has written, and whether it reports a failure. -/
structure Printed where
  text : String
  failed : Bool
deriving DecidableEq

abbrev Formatter := View → Printed

namespace Formatter

/-- A formatter that never fails. -/
def total (write : View → String) : Formatter := fun view => ⟨write view, false⟩

def payloadText : Payload → String
  | .inline scalar => scalar.text
  | .storage [] => "<no data>"
  | .storage bytes =>
    "[" ++ toString bytes.length ++ " bytes]" ++
      String.join (bytes.map fun b => " " ++ Text.hexOfWidth 2 b.toNat)

/-- The kind and the name of the type, then the data. -/
def fallback (view : View) : String :=
  "(" ++ view.entry.kind.text ++ " " ++ view.entry.name ++ ") " ++ payloadText view.value.payload

/-- The character with a number, if there is one. -/
def character? (v : Int64) : Option Char :=
  if 0 ≤ v.toInt then
    let n := v.toInt.toNat
    if n.isValidChar then some (Char.ofNat n) else none
  else none

/-- A scalar of a fundamental type. -/
def scalarText (fundamental : Option FundamentalClass) (scalar : Scalar) : String :=
  match fundamental with
  | some .bool => if scalar.toInt64?.any (· ≠ 0) then "true" else "false"
  | some .character =>
    match scalar.toInt64?.bind character? with
    | some c => "'" ++ Text.ascii c ++ "'"
    | none => scalar.text
  | _ => scalar.text

def fundamental (view : View) : String :=
  match FundamentalClass.ofName? view.entry.simpleName with
  | some .void => "(" ++ view.entry.name ++ ")"
  | fundamental =>
    match view.value.scalarOf? view.entry with
    | some scalar => "(" ++ view.entry.name ++ ") " ++ scalarText fundamental scalar
    | none => fallback view

/-- The integer that an enum's value stands for. Bytes are read as the underlying type says. -/
def enumInteger? (view : View) (underlying : Option Entry) : Option Int64 :=
  match view.value.payload with
  | .inline scalar => scalar.toInt64?
  | .storage bytes => (underlying.bind (·.decode? bytes)).bind (·.toInt64?)

/-- The first enumerator with the value, if there is one, and the value. -/
def enumeration (view : View) : String :=
  match view.catalog.enumeration? view.entry.handle with
  | none => fallback view
  | some e =>
    let underlying := view.catalog.types.get? e.underlying
    match enumInteger? view underlying with
    | none => fallback view
    | some v =>
      let named :=
        match (view.catalog.enumerators e).find? (·.value = v) with
        | some enumerator => "(" ++ enumerator.name ++ ") : "
        | none => ""
      "(" ++ view.entry.name ++ ") " ++ named ++ "(" ++ underlying.elim "int" (·.name) ++ ") " ++
        toString v.toInt

def pointer (view : View) : String :=
  match (view.value.scalarOf? view.entry).bind (·.toUInt64?) with
  | none => fallback view
  | some address =>
    "(" ++ view.entry.name ++ ") " ++
      if address = 0 then "nullptr" else "0x" ++ Text.hex address.toNat

/-- Writes a label in front of the type's name, and fails afterwards if told to. -/
def labelled (label : String) (fails : Bool) : Formatter := fun view =>
  ⟨label ++ "|" ++ view.entry.name, fails⟩

end Formatter

end TypeCatalog
