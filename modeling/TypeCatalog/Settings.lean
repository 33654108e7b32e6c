/-!
# Settings
-/

namespace TypeCatalog

structure CatalogSettings where
  /-- The name of the catalog in messages. -/
  name : String
  /-- The sizes that a fundamental type may have. -/
  fundamentalWidths : List Nat
  warnOnAmbiguousNames : Bool
deriving DecidableEq

structure LookupSettings where
  /-- How many lookups may be active inside one another. -/
  maxDepth : Nat
  timeoutMs : Option Nat
deriving DecidableEq

structure ReplSettings where
  prompt : String
  initialScope : String
deriving DecidableEq

structure Settings where
  catalog : CatalogSettings
  lookup : LookupSettings
  repl : ReplSettings
deriving DecidableEq

namespace CatalogSettings

/-- The default settings under another name. -/
def named (name : String) : CatalogSettings := ⟨name, [0, 1, 2, 4, 8, 16], true⟩

def default : CatalogSettings := named "global"

def supportsWidth (s : CatalogSettings) (size : Nat) : Bool := size ∈ s.fundamentalWidths

end CatalogSettings

def LookupSettings.default : LookupSettings := ⟨50, none⟩

def ReplSettings.default : ReplSettings := ⟨"reflex> ", "::"⟩

def Settings.default : Settings := ⟨.default, .default, .default⟩

end TypeCatalog
