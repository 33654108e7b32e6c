import TypeCatalog.Session.Basic
import TypeCatalog.Text.Column

/-!
# Queries

A query evaluates one name in a scope that is given by its name.
-/

namespace TypeCatalog

inductive QueryFault where
  | unknownScope (name : String)
  | lookup (fault : LookupFault)
deriving DecidableEq

def QueryFault.message : QueryFault → String
  | .unknownScope name => "unknown scope '" ++ name ++ "'"
  | .lookup fault => fault.message

namespace Session

/-- The line that answers a query. -/
def query (s : Session) (scope name : String) : Except QueryFault String :=
  match s.scopeNamed? scope with
  | none => .error (.unknownScope scope)
  | some id =>
    match s.evaluate id name with
    | .ok found => .ok (Text.line found.text)
    | .error fault => .error (.lookup fault)

end Session

end TypeCatalog
