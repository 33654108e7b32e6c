import TypeCatalog.Document.Record
import TypeCatalog.Document.Structure
import TypeCatalog.Settings
import TypeCatalog.Text.Column
import TypeCatalog.Toml.Reader

/-!
# Reading and writing settings

Settings are a record of three sections, each a record too. What is missing has its default. They
are read from documents and from settings files, and are written as a settings file. Only in a
settings file may an array have more items than the record has fields.
-/

namespace TypeCatalog

def CatalogSettings.ofTree? (surplus : Surplus) (t : Tree) : Option CatalogSettings := do
  let r ← Record.read? surplus ["name", "fundamental_widths", "warn_on_ambiguous_names"] t
  let spare := CatalogSettings.default
  return ⟨← r.want "name" Tree.text? spare.name,
    ← r.want "fundamental_widths" (Tree.list? Tree.natural?) spare.fundamentalWidths,
    ← r.want "warn_on_ambiguous_names" Tree.truth? spare.warnOnAmbiguousNames⟩

def LookupSettings.ofTree? (surplus : Surplus) (t : Tree) : Option LookupSettings := do
  let r ← Record.read? surplus ["max_depth", "timeout_ms"] t
  let spare := LookupSettings.default
  return ⟨← r.want "max_depth" Tree.natural? spare.maxDepth,
    ← r.want "timeout_ms" (Tree.optional? Tree.natural?) spare.timeoutMs⟩

def ReplSettings.ofTree? (surplus : Surplus) (t : Tree) : Option ReplSettings := do
  let r ← Record.read? surplus ["prompt", "initial_scope"] t
  let spare := ReplSettings.default
  return ⟨← r.want "prompt" Tree.text? spare.prompt,
    ← r.want "initial_scope" Tree.text? spare.initialScope⟩

namespace Settings

def ofTree? (surplus : Surplus) (t : Tree) : Option Settings := do
  let r ← Record.read? surplus ["catalog", "lookup", "repl"] t
  return ⟨← r.want "catalog" (CatalogSettings.ofTree? surplus) .default,
    ← r.want "lookup" (LookupSettings.ofTree? surplus) .default,
    ← r.want "repl" (ReplSettings.ofTree? surplus) .default⟩

/-- Settings from the text of a document. -/
def ofText? (s : String) : Option Settings := (Tree.ofText? s).bind (ofTree? .refused)

/-- Settings from the text of a settings file. -/
def ofToml? (s : String) : Option Settings := (Toml.ofText? s).bind (ofTree? .ignored)

/-! ## Writing -/

/-- Numbers in a list, one on a line if there are several. -/
def numberList (ns : List Nat) : String :=
  match ns with
  | [] => "[]"
  | [n] => "[" ++ toString n ++ "]"
  | ns => "[\n" ++ String.join (ns.map fun n => "    " ++ toString n ++ ",\n") ++ "]"

def truth (b : Bool) : String := if b then "true" else "false"

def entryLine (key value : String) : String := key ++ " = " ++ value

/-- The text of a settings file. A missing timeout is left out. -/
def toToml (s : Settings) : String :=
  Text.lines (
    ["[catalog]",
      entryLine "name" (Toml.quoted s.catalog.name),
      entryLine "fundamental_widths" (numberList s.catalog.fundamentalWidths),
      entryLine "warn_on_ambiguous_names" (truth s.catalog.warnOnAmbiguousNames),
      "",
      "[lookup]",
      entryLine "max_depth" (toString s.lookup.maxDepth)] ++
    (s.lookup.timeoutMs.map fun ms => entryLine "timeout_ms" (toString ms)).toList ++
    ["",
      "[repl]",
      entryLine "prompt" (Toml.quoted s.repl.prompt),
      entryLine "initial_scope" (Toml.quoted s.repl.initialScope)])

end Settings

end TypeCatalog
