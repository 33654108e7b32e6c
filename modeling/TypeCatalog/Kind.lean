/-!
# Kinds of types and of scopes
-/

namespace TypeCatalog

inductive TypeKind where
  | «class»
  | struct
  | enum
  | function
  | array
  | fundamental
  | pointer
  | pointerToMember
  | typedef
  | union
  | templateInstance
  | unresolved
deriving DecidableEq

inductive ScopeKind where
  | namespace
  | «class»
  | struct
  | union
  | enum
deriving DecidableEq

namespace TypeKind

def all : List TypeKind :=
  [.class, .struct, .enum, .function, .array, .fundamental, .pointer, .pointerToMember, .typedef,
    .union, .templateInstance, .unresolved]

/-- The kind as it is shown. -/
def text : TypeKind → String
  | .class => "class"
  | .struct => "struct"
  | .enum => "enum"
  | .function => "function"
  | .array => "array"
  | .fundamental => "fundamental"
  | .pointer => "pointer"
  | .pointerToMember => "pointer to member"
  | .typedef => "typedef"
  | .union => "union"
  | .templateInstance => "template instance"
  | .unresolved => "unresolved"

/-- The kind as files name it. -/
def label : TypeKind → String
  | .pointerToMember => "pointer_to_member"
  | .templateInstance => "type_template_instance"
  | kind => kind.text

/-- The kind as the description of a printer names it. -/
def caption : TypeKind → String
  | .class => "Class"
  | .struct => "Struct"
  | .enum => "Enum"
  | .function => "Function"
  | .array => "Array"
  | .fundamental => "Fundamental"
  | .pointer => "Pointer"
  | .pointerToMember => "PointerToMember"
  | .typedef => "Typedef"
  | .union => "Union"
  | .templateInstance => "TypeTemplateInstance"
  | .unresolved => "Unresolved"

def ofLabel? (s : String) : Option TypeKind := all.find? (·.label = s)

/-- The kind of the scope that a type of this kind owns. -/
def scopeKind? : TypeKind → Option ScopeKind
  | .class | .templateInstance => some .class
  | .struct => some .struct
  | .union => some .union
  | .enum => some .enum
  | _ => none

def isScoped : TypeKind → Bool
  | .class | .struct | .union | .enum | .templateInstance => true
  | _ => false

end TypeKind

namespace ScopeKind

def all : List ScopeKind := [.namespace, .class, .struct, .union, .enum]

def text : ScopeKind → String
  | .namespace => "namespace"
  | .class => "class"
  | .struct => "struct"
  | .union => "union"
  | .enum => "enum"

def ofLabel? (s : String) : Option ScopeKind := all.find? (·.text = s)

end ScopeKind

end TypeCatalog
