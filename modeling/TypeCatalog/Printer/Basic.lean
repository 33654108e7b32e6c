import TypeCatalog.Printer.Formatter
import TypeCatalog.Table

/-!
# The printer of values

A printer finds the formatter of a value by the key of its type, then by the kind, and otherwise
takes the fallback. So every value has a text.
-/

namespace TypeCatalog

structure Printer where
  byKey : Table Key Formatter
  byKind : Table TypeKind Formatter

namespace Printer

/-- The printer that knows the fallback alone. -/
def bare : Printer := ⟨.empty, .empty⟩

/-- Registers a formatter for one type. Tells whether there was one. -/
def setKey (p : Printer) (key : Key) (f : Formatter) : Bool × Printer :=
  (p.byKey.contains key, { p with byKey := p.byKey.put key f })

/-- Registers a formatter for a kind of types. Tells whether there was one. -/
def setKind (p : Printer) (kind : TypeKind) (f : Formatter) : Bool × Printer :=
  (p.byKind.contains kind, { p with byKind := p.byKind.put kind f })

/-- The printer that knows fundamental types, enums and pointers. -/
def standard : Printer where
  byKey := .empty
  byKind := ⟨[(.fundamental, .total Formatter.fundamental),
    (.enum, .total Formatter.enumeration), (.pointer, .total Formatter.pointer)]⟩

def formatter (p : Printer) (e : Entry) : Formatter :=
  ((p.byKey.get? e.key).or (p.byKind.get? e.kind)).getD (.total Formatter.fallback)

/-- Prints a value as one of type `e`. -/
def printAs (p : Printer) (catalog : Catalog) (e : Entry) (v : Value) : Printed :=
  p.formatter e ⟨catalog, e, v⟩

/-- The text of a value of a catalog. -/
def print (p : Printer) (catalog : Catalog) (v : Value) : String :=
  match catalog.types.get? v.type with
  | none => "(<unknown type " ++ v.type.text ++ ">)"
  | some e =>
    let printed := p.printAs catalog e v
    if printed.failed then printed.text ++ " <formatting error>" else printed.text

/-- A short description. -/
def summary (p : Printer) : String :=
  "ValuePrinter \x7b keys: " ++ toString p.byKey.size ++ ", kinds: [" ++
    ", ".intercalate (p.byKind.keys.map TypeKind.caption) ++ "] \x7d"

end Printer

end TypeCatalog
