import TypeCatalog.Session.Basic
import TypeCatalog.Text.Blank
import TypeCatalog.Text.Column

/-!
# Dialogues

In a dialogue each line is a name to evaluate, or a command that begins with a point. Failures are
reported and the dialogue goes on.
-/

namespace TypeCatalog

inductive Command where
  | quit
  | help
  | showScope
  | enter (scope : String)
  | listTypes
  | listSymbols
  | unknown (word : String)
  | evaluate (name : String)
deriving DecidableEq

namespace Command

/-- What a line asks for. The line has no blanks at its ends and is not empty. -/
def ofLine (line : List Char) : Command :=
  let (word, rest) := Text.cutAtBlank line
  let argument := Text.trim rest
  match String.ofList word with
  | ".quit" | ".q" => .quit
  | ".help" => .help
  | ".scope" => if argument = [] then .showScope else .enter (String.ofList argument)
  | ".types" => .listTypes
  | ".symbols" => .listSymbols
  | word' => if word.head? = some '.' then .unknown word' else .evaluate (String.ofList line)

end Command

namespace Dialogue

def helpLines : List String :=
  [".scope <name>   change the current scope (`::` for the global scope)",
    ".types          list registered types",
    ".symbols        list symbols available to dynamic lookup",
    ".help           show this help",
    ".quit           leave the session",
    "<name>          evaluate a name, e.g. `Color::Green` or `x`"]

/-- The pieces of a text between line breaks. -/
def pieces : List Char → List (List Char)
  | [] => [[]]
  | c :: rest =>
    if c = '\n' then [] :: pieces rest
    else
      match pieces rest with
      | [] => [[c]]
      | piece :: more => (c :: piece) :: more

/-- The lines of a text. A line break at the end does not begin another line. -/
def linesOf (cs : List Char) : List (List Char) :=
  let found := pieces cs
  if found.getLast? = some [] then found.dropLast else found

/-- What a line leads to: the text that answers it, and the scope for the next line unless the
dialogue is over. -/
structure Turn where
  text : String
  next : Option ScopeId
deriving DecidableEq

/-- The answer to a name. -/
def evaluated (s : Session) (scope : ScopeId) (name : String) : LookupM SymbolTable String := do
  match ← s.evaluateNext scope name with
  | .ok found => return Text.line found.text
  | .error fault => return Text.line ("error: " ++ fault.message)

/-- What a command leads to. -/
def obey (s : Session) (scope : ScopeId) : Command → LookupM SymbolTable Turn
  | .quit => return ⟨"", none⟩
  | .help => return ⟨Text.lines helpLines, some scope⟩
  | .showScope => return ⟨Text.line (s.catalog.scopes.display scope), some scope⟩
  | .enter name =>
    match s.scopeNamed? name with
    | some scope' => return ⟨"", some scope'⟩
    | none => return ⟨Text.line ("error: no scope named '" ++ name ++ "'"), some scope⟩
  | .listTypes => return ⟨Text.lines (s.catalog.types.entries.map Entry.text), some scope⟩
  | .listSymbols => return ⟨Text.lines s.symbols.keys, some scope⟩
  | .unknown word => return ⟨Text.line ("error: unknown command '" ++ word ++ "'"), some scope⟩
  | .evaluate name => return ⟨← evaluated s scope name, some scope⟩

/-- What a line leads to. A blank line leads to nothing. -/
def turn (s : Session) (scope : ScopeId) (line : List Char) : LookupM SymbolTable Turn :=
  match Text.trim line with
  | [] => return ⟨"", some scope⟩
  | trimmed => obey s scope (Command.ofLine trimmed)

/-- What is written for lines of input, from the first prompt on. -/
def converse (s : Session) (scope : ScopeId) : List (List Char) → LookupM SymbolTable String
  | [] => return s.settings.repl.prompt ++ "\n"
  | line :: rest => do
    let t ← turn s scope line
    match t.next with
    | some scope' => return s.settings.repl.prompt ++ t.text ++ (← converse s scope' rest)
    | none => return s.settings.repl.prompt ++ t.text

/-- The scope to begin in: the one asked for or else the one of the settings, if there is such a
scope. -/
def initialScope (s : Session) (asked : Option String) : ScopeId :=
  (s.scopeNamed? (asked.getD s.settings.repl.initialScope)).getD .global

def banner (s : Session) : String :=
  Text.line (toString s.catalog.types.size ++ " types loaded from '" ++ s.report.dictionary ++
    "'. Type .help for commands.")

/-- All that is written in answer to lines of input. -/
def record (s : Session) (asked : Option String) (lines : List (List Char)) : String :=
  banner s ++ ((converse s (initialScope s asked) lines).run s.lookups).1

/-- All that is written in answer to an input. -/
def transcript (s : Session) (asked : Option String) (input : String) : String :=
  record s asked (linesOf input.toList)

end Dialogue

end TypeCatalog
