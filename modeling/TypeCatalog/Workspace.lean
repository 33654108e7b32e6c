import TypeCatalog.Hub.Operation
import TypeCatalog.Dictionary.Definition
import TypeCatalog.Lookup.Rule
import TypeCatalog.Printer.Basic
import TypeCatalog.Settings

/-!
# Workspaces

A workspace holds catalogs under names, of which one is current and one may be shared by everyone,
together with observers, symbol tables, a chain of resolvers and a printer.
-/

namespace TypeCatalog

/-- An observer and the catalog that it observes. -/
structure Observer where
  hub : Nat
  subscription : SubscriptionId
deriving DecidableEq

structure Workspace where
  settings : Settings
  /-- In the order of creation. -/
  hubs : List Hub
  current : Nat
  named : Table String Nat
  shared : Option Nat
  /-- In the order of subscription. -/
  observers : List Observer
  tables : Table String SymbolTable
  lookups : Lookups Surroundings
  printer : Printer

namespace Workspace

/-- A workspace with one catalog, called `main`. -/
def ofSettings (settings : Settings) : Workspace where
  settings := settings
  hubs := [.ofSettings settings.catalog]
  current := 0
  named := Table.empty.put "main" 0
  shared := none
  observers := []
  tables := .empty
  lookups := .ofLimits [settings.lookup.maxDepth]
  printer := .standard

/-! ## Catalogs -/

def hub (w : Workspace) : Hub := (w.hubs[w.current]?).getD (.ofSettings w.settings.catalog)

def catalog (w : Workspace) : Catalog := w.hub.catalog

/-- Adds a catalog and makes it current. -/
def create (w : Workspace) (settings : CatalogSettings) : Workspace :=
  { w with hubs := w.hubs ++ [.ofSettings settings], current := w.hubs.length }

/-- Makes the catalog with a name current. A new one has the default settings. -/
def use (w : Workspace) (name : String) : Workspace :=
  match w.named.get? name with
  | some index => { w with current := index }
  | none => { w.create (.named name) with named := w.named.put name w.hubs.length }

/-- Makes the shared catalog current. If there is none it gets the settings. -/
def useShared (w : Workspace) (settings : CatalogSettings) : Workspace :=
  match w.shared with
  | some index => { w with current := index }
  | none => { w.create settings with shared := some w.hubs.length }

/-- Gives the shared catalog up. It stays as it is for those who use it. -/
def dropShared (w : Workspace) : Workspace := { w with shared := none }

/-- The shared catalog, and whether it is the current one. -/
def sharedCatalog? (w : Workspace) : Option (Catalog × Bool) := do
  let index ← w.shared
  return ((← w.hubs[index]?).catalog, index = w.current)

/-- Does an operation on the current catalog. -/
def execute (w : Workspace) (op : Operation) : Except Fault Result × Workspace :=
  let (outcome, hub) := w.hub.execute op
  (outcome, { w with hubs := w.hubs.set w.current hub })

/-! ## Observers -/

/-- Subscribes an observer to the current catalog. Answers its number. -/
def observe (w : Workspace) (selection : Selection) (echo : Option String) : Nat × Workspace :=
  let (id, hub) := w.hub.subscribe selection echo
  (w.observers.length,
    { w with
      hubs := w.hubs.set w.current hub
      observers := w.observers ++ [⟨w.current, id⟩] })

/-- Ends the subscription of an observer. Tells whether there was one; a number that no observer
has gets no answer. -/
def unobserve (w : Workspace) (number : Nat) : Option Bool × Workspace :=
  match w.observers[number]?, (w.observers[number]?).bind fun o => w.hubs[o.hub]? with
  | some o, some hub =>
    let (found, hub') := hub.unsubscribe o.subscription
    (some found, { w with hubs := w.hubs.set o.hub hub' })
  | _, _ => (none, w)

/-- What the observers of the current catalog were told, with their numbers. -/
def told (w : Workspace) : List (Nat × Event) :=
  w.hub.delivered.map fun d => (w.observers.idxOf ⟨w.current, d.observer⟩, d.event)

/-- Forgets what observers were told and which resolvers were called. -/
def forget (w : Workspace) : Workspace :=
  { w with
    hubs := w.hubs.map fun hub => { hub with delivered := [] }
    lookups := { w.lookups with calls := [] } }

/-! ## Symbols and lookup -/

def table (w : Workspace) (name : String) : SymbolTable := (w.tables.get? name).getD .empty

def setTable (w : Workspace) (name : String) (t : SymbolTable) : Workspace :=
  { w with tables := w.tables.put name t }

/-- Defines the symbols of a dictionary in a table. -/
def define (w : Workspace) (d : Dictionary) (name : String) : Report × Workspace :=
  let (report, t) := d.defineSymbols w.catalog (w.table name)
  (report, w.setTable name t)

def chain : ChainId := ⟨0⟩

def surroundings (w : Workspace) : Surroundings := ⟨w.tables, w.hubs.map (·.catalog)⟩

/-- Works with the chain of resolvers. -/
def search {α : Type} (w : Workspace) (work : Surroundings → LookupM Surroundings α) :
    α × Workspace :=
  let (a, lookups) := (work w.surroundings).run w.lookups
  (a, { w with lookups := lookups })

def addRule (w : Workspace) (rule : Rule) : ResolverId × Workspace :=
  w.search fun _ => Lookups.register chain rule.isQuiet (rule.resolver chain)

/-- How many resolvers were ever registered, and how many of them still are. -/
def resolverCounts (w : Workspace) : Nat × Nat :=
  match w.lookups.chain? chain with
  | some c => (c.nextId, c.links.length)
  | none => (0, 0)

/-- Removes a resolver. A number that no resolver has had gets no answer. -/
def removeRule (w : Workspace) (id : ResolverId) : Option Bool × Workspace :=
  if id.index < w.resolverCounts.1 then
    let (found, w') := w.search fun _ => Lookups.unregister chain id
    (some found, w')
  else (none, w)

/-- The calls of resolvers that are of interest. -/
def calls (w : Workspace) : List Call := w.lookups.calls.filter fun call => !call.quiet

def lookup (w : Workspace) (name : String) : Answer × Workspace :=
  w.search fun env => Lookups.lookup env chain name

def lookupInTime (w : Workspace) (name : String) (milliseconds : Nat) : Answer × Workspace :=
  w.search fun env => Lookups.lookupInTime env chain name milliseconds

def lookupBounded (w : Workspace) (name : String) : Answer × Workspace :=
  w.search fun env => Lookups.lookupBounded env chain name w.settings.lookup.timeoutMs

/-! ## Printing -/

def print (w : Workspace) (v : Value) : String := w.printer.print w.catalog v

end Workspace

end TypeCatalog
