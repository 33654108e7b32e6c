import TypeCatalog.Dictionary.Format
import TypeCatalog.Session.Dialogue
import TypeCatalog.Session.Listing
import TypeCatalog.Session.Query
import TypeCatalog.Settings.Format

/-!
# The command line

`inspect` lists what a dictionary comes to, `resolve` answers one query, and `repl` holds a
dialogue. Settings come from the file given by `--config`, or else from the one that the environment
names, or else are the default ones.
-/

namespace TypeCatalog

/-- What the command line asks for. -/
inductive Request where
  | inspect (dictionary : String) (typesOnly : Bool)
  | resolve (dictionary name scope : String)
  | repl (dictionary : String) (scope : Option String)
deriving DecidableEq

/-- The arguments of a command line: those in place, and the options with their values. -/
structure Arguments where
  places : List String
  config : Option String
  scope : Option String
  typesOnly : Bool
deriving DecidableEq

namespace Arguments

def ofList? : List String → Option Arguments
  | [] => some ⟨[], none, none, false⟩
  | "--config" :: file :: rest => (ofList? rest).map fun a => { a with config := some file }
  | "--scope" :: name :: rest => (ofList? rest).map fun a => { a with scope := some name }
  | "--types-only" :: rest => (ofList? rest).map fun a => { a with typesOnly := true }
  | word :: rest =>
    if word.startsWith "--" then none
    else (ofList? rest).map fun a => { a with places := word :: a.places }

def request? (a : Arguments) : Option Request :=
  match a.places with
  | ["inspect", dictionary] => some (.inspect dictionary a.typesOnly)
  | ["resolve", dictionary, name] => some (.resolve dictionary name (a.scope.getD "::"))
  | ["repl", dictionary] => some (.repl dictionary a.scope)
  | _ => none

end Arguments

def Request.dictionary : Request → String
  | .inspect dictionary _ | .resolve dictionary _ _ | .repl dictionary _ => dictionary

def usage : String :=
  Text.lines
    ["usage: type-catalog [--config FILE] inspect DICTIONARY [--types-only]",
      "       type-catalog [--config FILE] resolve DICTIONARY NAME [--scope SCOPE]",
      "       type-catalog [--config FILE] repl DICTIONARY [--scope SCOPE]"]

/-! ## Input and output -/

/-- The settings of a file, or the default ones without a file. -/
def readSettings (file : Option String) : IO Settings := do
  match file with
  | none => return .default
  | some path =>
    match Settings.ofToml? (← IO.FS.readFile path) with
    | some settings => return settings
    | none => throw (IO.userError ("parsing config " ++ path))

def openSession (path : String) (settings : Settings) : IO Session := do
  match Dictionary.ofText? (← IO.FS.readFile path) with
  | some d => return .ofDictionary d settings
  | none => throw (IO.userError ("loading dictionary " ++ path))

/-- Holds a dialogue with the one who types. -/
partial def talk (s : Session) (scope : ScopeId) (lookups : Lookups SymbolTable) : IO Unit := do
  IO.print s.settings.repl.prompt
  (← IO.getStdout).flush
  let line ← (← IO.getStdin).getLine
  if line.isEmpty then IO.println ""
  else
    let (t, lookups') := (Dialogue.turn s scope line.toList).run lookups
    IO.print t.text
    match t.next with
    | some scope' => talk s scope' lookups'
    | none => return ()

/-- Serves a request. -/
def serve (s : Session) : Request → IO Unit
  | .inspect _ typesOnly => IO.print (s.listing typesOnly)
  | .resolve _ name scope => do
    match s.query scope name with
    | .ok line => IO.print line
    | .error fault => throw (IO.userError fault.message)
  | .repl _ scope => do
    IO.print (Dialogue.banner s)
    talk s (Dialogue.initialScope s scope) s.lookups

end TypeCatalog

open TypeCatalog

def main (args : List String) : IO UInt32 := do
  match (Arguments.ofList? args).bind fun a => a.request?.map fun r => (a, r) with
  | none =>
    IO.eprint usage
    return 2
  | some (arguments, request) =>
    try
      let file := arguments.config.or (← IO.getEnv "REFLEX_CONFIG")
      let session ← openSession request.dictionary (← readSettings file)
      serve session request
      return 0
    catch fault =>
      IO.eprintln ("Error: " ++ toString fault)
      return 1
