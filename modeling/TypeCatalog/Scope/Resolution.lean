import TypeCatalog.Scope.Tree

/-!
# Finding what a name stands for

A plain name is looked up in a scope and then in the scopes around it, innermost first. A qualified
name starts like a plain one and goes on inside what it has found.
-/

namespace TypeCatalog.ScopeTree

/-- The scope `id`, its parent, and so on outward. A parent is always declared before its children,
so the numbers fall. -/
def enclosing (t : ScopeTree) (id : ScopeId) : List ScopeId :=
  match t.get? id with
  | none => []
  | some s =>
    match s.parent with
    | none => [id]
    | some p => if p.index < id.index then id :: t.enclosing p else [id]
termination_by id.index

/-- What `name` stands for in `start` or the nearest scope around it that binds it. -/
def resolve? (t : ScopeTree) (start : ScopeId) (name : String) : Option Member :=
  (t.enclosing start).findSome? fun id => t.member? id name

/-- The scope in which a qualified name goes on after `m`. -/
def inside? (t : ScopeTree) : Member → Option ScopeId
  | .scope id => some id
  | .type h => t.byType? h
  | _ => none

/-- Goes from `m` through direct members. -/
def descend? (t : ScopeTree) (m : Member) : List String → Option Member
  | [] => some m
  | name :: rest =>
    match (t.inside? m).bind fun id => t.member? id name with
    | some m' => t.descend? m' rest
    | none => none

/-- What `a::b::c` stands for: `a` is looked up outward from `start`, or in the global scope if the
path begins with `::`; the others are direct members. -/
def resolvePath? (t : ScopeTree) (start : ScopeId) (path : String) : Option Member :=
  let start := if Name.isAbsolute path then ScopeId.global else start
  let (first, rest) := Name.components (Name.stripRoot path)
  (t.resolve? start first).bind fun m => t.descend? m rest

end TypeCatalog.ScopeTree
