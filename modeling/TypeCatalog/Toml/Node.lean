import TypeCatalog.Document.Tree

/-!
# Tables of a settings file

A settings file is a sequence of statements. A header opens a table, an entry binds a key in the
table that is open. A key or a header may be dotted, and then goes through tables that it makes as
it needs them. Nothing can be defined twice.
-/

namespace TypeCatalog.Toml

/-- How a table came to be. -/
inductive Origin where
  /-- A longer header goes through it. -/
  | passed
  | header
  /-- A dotted key goes through it. -/
  | dotted
deriving DecidableEq

inductive Node where
  | value (t : Tree)
  | table (origin : Origin) (fields : List (String × Node))
  /-- A list of tables, the last one first. -/
  | tables (last : List (String × Node)) (others : List (List (String × Node)))

abbrev Fields := List (String × Node)

inductive Statement where
  | header (path : List String)
  /-- A header for one more table of a list. -/
  | listHeader (path : List String)
  | entry (path : List String) (t : Tree)

/-- Changes what stands under a key; `change` sees what is there and may refuse. -/
def alter (key : String) (change : Option Node → Option Node) : Fields → Option Fields
  | [] => do return [(key, ← change none)]
  | (k, node) :: rest =>
    if k = key then do return (k, ← change (some node)) :: rest
    else do return (k, node) :: (← alter key change rest)

/-- Changes the fields of the table under a key, as a header goes through it. -/
def through (inner : Fields → Option Fields) : Option Node → Option Node
  | none => do return .table .passed (← inner [])
  | some (.table origin fields) => do return .table origin (← inner fields)
  | some (.tables last others) => do return .tables (← inner last) others
  | some (.value _) => none

/-- Changes the fields of the table under a key, as a dotted key goes through it on its way. -/
def throughDotted (inner : Fields → Option Fields) : Option Node → Option Node
  | none => do return .table .dotted (← inner [])
  | some (.table .header _) => none
  | some (.table origin fields) => do return .table origin (← inner fields)
  | some (.tables last others) => do return .tables (← inner last) others
  | some (.value _) => none

/-- Changes the fields of the table under the last key but one of a dotted key. Only dotted keys
have made that table. -/
def intoDotted (inner : Fields → Option Fields) : Option Node → Option Node
  | none => do return .table .dotted (← inner [])
  | some (.table .dotted fields) => do return .table .dotted (← inner fields)
  | _ => none

/-- Changes the fields of the table that a header has opened. -/
def within (inner : Fields → Option Fields) : List String → Fields → Option Fields
  | [], fields => inner fields
  | key :: rest, fields => alter key (through (within inner rest)) fields

def openTable : Option Node → Option Node
  | none => some (.table .header [])
  | some (.table .passed fields) => some (.table .header fields)
  | _ => none

def openListTable : Option Node → Option Node
  | none => some (.tables [] [])
  | some (.tables last others) => some (.tables [] (last :: others))
  | _ => none

def bindValue (t : Tree) : Option Node → Option Node
  | none => some (.value t)
  | some _ => none

/-- Binds a key, dotted or not, in a table. -/
def bind (t : Tree) : List String → Fields → Option Fields
  | [], _ => none
  | [key], fields => alter key (bindValue t) fields
  | [key, last], fields => alter key (intoDotted (bind t [last])) fields
  | key :: rest, fields => alter key (throughDotted (bind t rest)) fields

/-- Opens a table or one more table of a list. -/
def opened (change : Option Node → Option Node) : List String → Fields → Option Fields
  | [], _ => none
  | [key], fields => alter key change fields
  | key :: rest, fields => alter key (through (opened change rest)) fields

/-- What a statement does. The path of the open table goes with the fields. -/
def execute (state : List String × Fields) : Statement → Option (List String × Fields)
  | .header path => do return (path, ← opened openTable path state.2)
  | .listHeader path => do return (path, ← opened openListTable path state.2)
  | .entry path t => do return (state.1, ← within (bind t path) state.1 state.2)

mutual

def toTree : Node → Tree
  | .value t => t
  | .table _ fields => .object (toFields fields)
  | .tables last others => .array (toTables others ++ [.object (toFields last)])

def toFields : List (String × Node) → List (Option String × Tree)
  | [] => []
  | (key, node) :: rest => (some key, toTree node) :: toFields rest

def toTables : List (List (String × Node)) → List Tree
  | [] => []
  | fields :: rest => toTables rest ++ [.object (toFields fields)]

end

/-- The tree that statements come to. -/
def treeOf? (statements : List Statement) : Option Tree := do
  let (_, fields) ← statements.foldlM execute ([], [])
  return .object (toFields fields)

end TypeCatalog.Toml
