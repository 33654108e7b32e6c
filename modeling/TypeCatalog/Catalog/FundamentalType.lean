import TypeCatalog.Catalog.Basic
import TypeCatalog.Fundamental

/-!
# Building fundamental types

A fundamental type has one of the supported sizes. It is bound in the global scope, unless its name
stands for something else there.
-/

namespace TypeCatalog.Change

/-- Only the sizes that the settings list are allowed. -/
def checkWidth (name : String) (size : Nat) : Change Unit := do
  unless (← catalog).settings.supportsWidth size do throw (.unsupportedSize name size)

/-- Registers a fundamental type under `key`. -/
def fundamental (key : Key) (name : String) (size : Nat) : Change Entry := do
  checkWidth name size
  let entry ← register key .fundamental size name
  match (← catalog).scopes.member? .global name with
  | none => addMember .global name (.type entry.handle)
  | some _ => pure ()
  return entry

/-- Registers a fundamental type by its name. -/
def buildFundamental (name : String) (size : Nat) : Change Entry :=
  fundamental (.named name) name size

end TypeCatalog.Change
