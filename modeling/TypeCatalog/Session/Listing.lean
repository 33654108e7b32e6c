import TypeCatalog.Session.Basic
import TypeCatalog.Text.Column

/-!
# Listings

A listing shows what a dictionary came to: the reports, the types, the tree of scopes and the
symbols.
-/

namespace TypeCatalog

namespace Report

/-- The lines about what was skipped. -/
def skippedLines (r : Report) (what : String) : List String :=
  r.skipped.map fun s =>
    "  skipped " ++ what ++ "#" ++ toString s.index ++ " " ++ s.name ++ ": " ++ s.fault.message

end Report

namespace Session

def typeLine (e : Entry) : String :=
  "  " ++ Text.right 4 e.handle.text ++ "  " ++ Text.left 18 e.kind.text ++ " " ++
    Text.right 5 (toString e.size) ++ "  " ++ e.name

def scopeLine (depth : Nat) (s : Scope) : String :=
  Text.spaces (2 * depth) ++ s.kind.text ++ " " ++ Name.display s.qualified

def memberLine (depth : Nat) (name : String) (m : Member) : String :=
  Text.spaces (2 * depth) ++ "  " ++
    match m with
    | .enumerator _ value => name ++ " = " ++ toString value.toInt
    | _ => m.sort ++ " " ++ name

/-- A scope with its members, each child scope in the place of its binding. Children come after
their parents, so no more than `levels` scopes lie inside one another if there are that many. -/
def scopeLines (t : ScopeTree) : Nat → Nat → ScopeId → List String
  | 0, _, _ => []
  | levels + 1, depth, id =>
    match t.get? id with
    | none => []
    | some s =>
      scopeLine depth s :: s.members.entries.flatMap fun (name, m) =>
        match m with
        | .scope child => scopeLines t levels (depth + 1) child
        | _ => [memberLine depth name m]

/-- The tree of scopes from the global scope on. -/
def treeLines (s : Session) : List String :=
  scopeLines s.catalog.scopes s.catalog.scopes.size 1 .global

def symbolLines (s : Session) : List String :=
  s.symbols.entries.map fun (name, v) => "  " ++ name ++ " = " ++ s.formatValue v

/-- The listing, with or without the tree of scopes. -/
def listing (s : Session) (typesOnly : Bool) : String :=
  Text.lines (
    ["dictionary: " ++ s.report.dictionary,
      "declarations applied: " ++ toString s.report.applied ++ ", skipped: " ++
        toString s.report.skipped.length] ++
    s.report.skippedLines "" ++
    ["symbols defined: " ++ toString s.symbolReport.applied ++ ", skipped: " ++
      toString s.symbolReport.skipped.length] ++
    s.symbolReport.skippedLines "symbol " ++
    ["", "types (" ++ toString s.catalog.types.size ++ "):"] ++
    s.catalog.types.entries.map typeLine ++
    (if typesOnly then [] else ["", "scopes:"] ++ s.treeLines) ++
    (if s.symbols.size = 0 then [] else ["", "symbols:"] ++ s.symbolLines))

end Session

end TypeCatalog
