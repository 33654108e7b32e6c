import TypeCatalog.Dictionary.Definition
import TypeCatalog.Dictionary.Loader
import TypeCatalog.Lookup.Chain
import TypeCatalog.Printer.Basic
import TypeCatalog.Settings

/-!
# Sessions

A session is a dictionary loaded into a catalog of its own, with its symbols at hand for lookup. A
name is first resolved through the scopes and then looked up among the symbols.
-/

namespace TypeCatalog

structure Session where
  settings : Settings
  catalog : Catalog
  symbols : SymbolTable
  report : Report
  symbolReport : Report

/-- What a name comes to. -/
inductive Evaluation where
  /-- The text of a value. -/
  | value (text : String)
  /-- The description of a declaration. -/
  | declaration (text : String)
deriving DecidableEq

def Evaluation.text : Evaluation → String
  | .value text | .declaration text => text

namespace Session

def ofDictionary (d : Dictionary) (settings : Settings) : Session :=
  let (report, hub) := Hub.load (.ofSettings settings.catalog) d
  let (symbolReport, symbols) := d.defineSymbols hub.catalog .empty
  ⟨settings, hub.catalog, symbols, report, symbolReport⟩

/-- The scope with a name. The empty name and `::` stand for the global scope. -/
def scopeNamed? (s : Session) (name : String) : Option ScopeId :=
  if name = "" ∨ name = "::" then some .global else s.catalog.scopes.byName? name

def formatValue (s : Session) (v : Value) : String := Printer.standard.print s.catalog v

/-! ## Descriptions -/

def qualifiers (m : Modifiers) : String := if m.isEmpty then "" else " [" ++ m.text ++ "]"

def describeType (s : Session) (h : Handle) : String :=
  match s.catalog.types.get? h with
  | some e => e.text
  | none => "type " ++ h.text

def describeScope (s : Session) (id : ScopeId) : String :=
  match s.catalog.scopes.info? id with
  | none => id.text
  | some info =>
    let size :=
      match info.facet.bind s.catalog.types.get? with
      | some e => ", " ++ toString e.size ++ " bytes"
      | none => ""
    info.kind.text ++ " " ++ info.display ++ " (" ++ toString info.memberCount ++ " members" ++
      size ++ ")"

/-- What a member is, under the name by which it was found. -/
def describe (s : Session) (name : String) : Member → Evaluation
  | .enumerator owner value => .value (s.formatValue (.ofScalar owner (.signed value)))
  | .type h => .declaration (s.describeType h)
  | .scope id => .declaration (s.describeScope id)
  | .function signature modifiers =>
    .declaration ("function " ++ name ++ " : " ++ s.catalog.typeName signature ++
      qualifiers modifiers)
  | .dataMember type offset modifiers =>
    .declaration ("data member " ++ name ++ " : " ++ s.catalog.typeName type ++ " at offset " ++
      toString offset ++ qualifiers modifiers)

/-! ## Evaluation -/

/-- The chain that lookups go to. Its one resolver is the table of symbols. -/
def chain : ChainId := ⟨0⟩

/-- The state that lookups start from. -/
def lookups (s : Session) : Lookups SymbolTable :=
  let fresh := Lookups.ofLimits [s.settings.lookup.maxDepth]
  ((Lookups.register chain true SymbolTable.resolver).run fresh).2

/-- Looks a symbol up. -/
def lookup (s : Session) (name : String) : LookupM SymbolTable Answer :=
  Lookups.lookupBounded s.symbols chain name s.settings.lookup.timeoutMs

/-- What `name` comes to in a scope, after the lookups that there were before. -/
def evaluateNext (s : Session) (scope : ScopeId) (name : String) :
    LookupM SymbolTable (Except LookupFault Evaluation) := do
  match s.catalog.scopes.resolvePath? scope name with
  | some member => return .ok (s.describe name member)
  | none =>
    match ← s.lookup name with
    | .ok v => return .ok (.value (s.formatValue v))
    | .error fault => return .error fault

/-- What `name` comes to in a scope of a session that was just opened. -/
def evaluate (s : Session) (scope : ScopeId) (name : String) : Except LookupFault Evaluation :=
  ((s.evaluateNext scope name).run s.lookups).1

end Session

end TypeCatalog
