import TypeCatalog.Catalog.Basic
import TypeCatalog.Catalog.Enumeration
import TypeCatalog.Catalog.FundamentalType
import TypeCatalog.Catalog.ScopedType
import TypeCatalog.Dictionary.Declaration
import TypeCatalog.Dictionary.Definition
import TypeCatalog.Dictionary.Format
import TypeCatalog.Dictionary.Loader
import TypeCatalog.Dictionary.Report
import TypeCatalog.Document.Json
import TypeCatalog.Document.Record
import TypeCatalog.Document.Structure
import TypeCatalog.Document.Token
import TypeCatalog.Document.Tree
import TypeCatalog.Entry
import TypeCatalog.Fault
import TypeCatalog.Fundamental
import TypeCatalog.Hub.Basic
import TypeCatalog.Hub.Operation
import TypeCatalog.Kind
import TypeCatalog.Lookup.Chain
import TypeCatalog.Lookup.Program
import TypeCatalog.Lookup.Rule
import TypeCatalog.Lookup.SymbolTable
import TypeCatalog.Member
import TypeCatalog.Modifiers
import TypeCatalog.Name
import TypeCatalog.Number.Floating
import TypeCatalog.Number.Format
import TypeCatalog.Number.Layout
import TypeCatalog.Number.Scaling
import TypeCatalog.Number.Shortest
import TypeCatalog.Printer.Basic
import TypeCatalog.Printer.Formatter
import TypeCatalog.Proofs.Applying
import TypeCatalog.Proofs.Builders
import TypeCatalog.Proofs.Changes
import TypeCatalog.Proofs.Commits
import TypeCatalog.Proofs.Declarations
import TypeCatalog.Proofs.Growth
import TypeCatalog.Proofs.Histories
import TypeCatalog.Proofs.Leftovers
import TypeCatalog.Proofs.Names
import TypeCatalog.Proofs.Namespaces
import TypeCatalog.Proofs.Operations
import TypeCatalog.Proofs.Paths
import TypeCatalog.Proofs.Registry
import TypeCatalog.Proofs.Reloading
import TypeCatalog.Proofs.Scopes
import TypeCatalog.Proofs.Showing
import TypeCatalog.Proofs.Table
import TypeCatalog.Proofs.Work
import TypeCatalog.Registry
import TypeCatalog.Scope.Resolution
import TypeCatalog.Scope.Tree
import TypeCatalog.Session.Basic
import TypeCatalog.Session.Dialogue
import TypeCatalog.Session.Listing
import TypeCatalog.Session.Query
import TypeCatalog.Settings
import TypeCatalog.Settings.Format
import TypeCatalog.Table
import TypeCatalog.Text.Blank
import TypeCatalog.Text.Column
import TypeCatalog.Text.Escape
import TypeCatalog.Text.Extender
import TypeCatalog.Text.Hex
import TypeCatalog.Text.Ignorable
import TypeCatalog.Text.Printable
import TypeCatalog.Text.Runs
import TypeCatalog.Toml.Date
import TypeCatalog.Toml.Node
import TypeCatalog.Toml.Quoting
import TypeCatalog.Toml.Reader
import TypeCatalog.Value.Basic
import TypeCatalog.Value.Decoding
import TypeCatalog.Workspace
import TypeCatalog.Main
import TypeCatalog.Proofs.Indices
import TypeCatalog.Proofs.Naming
import TypeCatalog.Proofs.Origins
import TypeCatalog.Proofs.Ownership
import TypeCatalog.Proofs.Steps
import TypeCatalog.Proofs.Nesting
import TypeCatalog.Proofs.Finality
import TypeCatalog.Proofs.FirstNames
import TypeCatalog.Proofs.Underlying
import TypeCatalog.Proofs.Carriers
import TypeCatalog.Proofs.CanonicalEnums
import TypeCatalog.Proofs.ScopeNames
import TypeCatalog.Proofs.Mirror
import TypeCatalog.Proofs.Telling
import TypeCatalog.Proofs.EventLog
import TypeCatalog.Proofs.References
import TypeCatalog.Proofs.Unchecked
import TypeCatalog.Proofs.Reads
import TypeCatalog.Proofs.Bounds
import TypeCatalog.Proofs.Repetition
import TypeCatalog.Proofs.EnumBytes
import TypeCatalog.Proofs.Definitions
import TypeCatalog.Proofs.SymbolLookup
import TypeCatalog.Proofs.LeadingMarks
import TypeCatalog.Proofs.Keeping
import TypeCatalog.Proofs.Facets
import TypeCatalog.Proofs.Dialogues
import TypeCatalog.Proofs.ScopeListing
import TypeCatalog.Proofs.Broadcasts
import TypeCatalog.Proofs.Notifications
import TypeCatalog.Proofs.Isolation
import TypeCatalog.Proofs.JsonText
import TypeCatalog.Proofs.Spellings
import TypeCatalog.Proofs.Decoding
import TypeCatalog.Proofs.PrintedBytes
import TypeCatalog.Proofs.Enclosing
import TypeCatalog.Proofs.FirstAnswer
import TypeCatalog.Proofs.PrintedIntegers
import TypeCatalog.Proofs.MissingNamespaces
import TypeCatalog.Proofs.Enumerators
