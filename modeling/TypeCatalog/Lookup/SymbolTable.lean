import TypeCatalog.Lookup.Program
import TypeCatalog.Name
import TypeCatalog.Table
import TypeCatalog.Value.Basic

/-!
# Tables of symbols

A symbol is a name with a value. Symbols keep the order in which they were first defined.
-/

namespace TypeCatalog

abbrev SymbolTable := Table String Value

namespace SymbolTable

/-- The value of a symbol. A lookup may name it with `::` in front. -/
def answer? (t : SymbolTable) (name : String) : Option Value := t.get? (Name.stripRoot name)

/-- The table at its place in a chain. -/
def resolver : Resolver SymbolTable := fun table name => .offer (table.answer? name)

end SymbolTable

end TypeCatalog
