import TypeCatalog.Dictionary.Declaration
import TypeCatalog.Document.Record
import TypeCatalog.Document.Structure

/-!
# Reading and writing dictionaries

A dictionary is a document: a record of its name, its declarations and its symbols. A declaration
is a record too, whose field `kind` tells its sort.
-/

namespace TypeCatalog

/-- How many containers may be open inside one another, the outermost one included. -/
def nestingLimit : Nat := 127

/-! ## Reading -/

namespace Enumerator

def ofTree? (t : Tree) : Option Enumerator := do
  let r ← Record.ofTree? ["name", "value"] t
  return ⟨← r.need "name" Tree.text?, ← r.need "value" Tree.integer?⟩

end Enumerator

namespace Declaration

def classOfTree? (sort : ClassSort) (t : Tree) : Option Declaration := do
  let r ← Record.ofTree? ["name", "key", "size"] t
  return .classType sort (← r.need "name" Tree.text?)
    (← r.want "key" (Tree.optional? Tree.text?) none) (← r.need "size" Tree.natural?)

/-- The fields of a declaration of a given sort. -/
def fieldsOfTree? (sort : String) (t : Tree) : Option Declaration :=
  match sort with
  | "fundamental" => do
    let r ← Record.ofTree? ["name", "size"] t
    return .fundamental (← r.need "name" Tree.text?) (← r.need "size" Tree.natural?)
  | "namespace" => do
    let r ← Record.ofTree? ["name"] t
    return .namespace (← r.need "name" Tree.text?)
  | "class" => classOfTree? .class t
  | "struct" => classOfTree? .struct t
  | "union" => classOfTree? .union t
  | "typedef" => do
    let r ← Record.ofTree? ["name", "target"] t
    return .typedef (← r.need "name" Tree.text?) (← r.need "target" Tree.text?)
  | "pointer" => do
    let r ← Record.ofTree? ["target"] t
    return .pointer (← r.need "target" Tree.text?)
  | "enum" => do
    let r ← Record.ofTree? ["name", "key", "underlying", "enumerators"] t
    return .enum (← r.need "name" Tree.text?)
      (← r.want "key" (Tree.optional? Tree.text?) none)
      (← r.want "underlying" Tree.text? "int")
      (← r.want "enumerators" (Tree.list? Enumerator.ofTree?) [])
  | "function" => do
    let r ← Record.ofTree? ["scope", "name", "signature", "modifiers"] t
    return .function (← r.need "scope" Tree.text?) (← r.need "name" Tree.text?)
      (← r.need "signature" Tree.text?)
      (← r.want "modifiers" (Tree.list? Tree.text?) [])
  | "data_member" => do
    let r ← Record.ofTree? ["scope", "name", "type", "offset", "modifiers"] t
    return .dataMember (← r.need "scope" Tree.text?) (← r.need "name" Tree.text?)
      (← r.need "type" Tree.text?) (← r.want "offset" Tree.natural? 0)
      (← r.want "modifiers" (Tree.list? Tree.text?) [])
  | _ => none

/-- A declaration. All of it must have a value, also the parts that are of no use. -/
def ofTree? (levels : Nat) (t : Tree) : Option Declaration := do
  discard (Json.ofTree? levels t)
  let (sort, rest) ← t.tagged? "kind"
  fieldsOfTree? sort rest

def ofText? (s : String) : Option Declaration := (Tree.ofText? s).bind (ofTree? nestingLimit)

end Declaration

namespace Symbol

def ofTree? (levels : Nat) (t : Tree) : Option Symbol := do
  let r ← Record.ofTree? ["name", "type", "value"] t
  return ⟨← r.need "name" Tree.text?, ← r.need "type" Tree.text?,
    ← r.need "value" (Json.ofTree? (levels - 1))⟩

end Symbol

namespace Dictionary

def ofTree? (t : Tree) : Option Dictionary := do
  let r ← Record.ofTree? ["name", "declarations", "symbols"] t
  return ⟨← r.need "name" Tree.text?,
    ← r.want "declarations" (Tree.list? (Declaration.ofTree? (nestingLimit - 2))) [],
    ← r.want "symbols" (Tree.list? (Symbol.ofTree? (nestingLimit - 2))) []⟩

def ofText? (s : String) : Option Dictionary := (Tree.ofText? s).bind ofTree?

end Dictionary

/-! ## Writing -/

namespace Json

def ofNat (n : Nat) : Json := .number (.natural (UInt64.ofNat n))

def ofInt64 (i : Int64) : Json :=
  if 0 ≤ i.toInt then ofNat i.toInt.toNat else .number (.negative i)

def ofOption (s : Option String) : Json := s.elim .null .string

def ofStrings (ss : List String) : Json := .array (ss.map .string)

end Json

def Enumerator.toJson (e : Enumerator) : Json :=
  .object [("name", .string e.name), ("value", Json.ofInt64 e.value)]

namespace Declaration

/-- All fields of a declaration, in the order of the record. -/
def fields : Declaration → List (String × Json)
  | .fundamental name size => [("name", .string name), ("size", Json.ofNat size)]
  | .namespace name => [("name", .string name)]
  | .classType _ name key size =>
    [("name", .string name), ("key", Json.ofOption key), ("size", Json.ofNat size)]
  | .typedef name target => [("name", .string name), ("target", .string target)]
  | .pointer target => [("target", .string target)]
  | .enum name key underlying enumerators =>
    [("name", .string name), ("key", Json.ofOption key), ("underlying", .string underlying),
      ("enumerators", .array (enumerators.map Enumerator.toJson))]
  | .function scope name signature modifiers =>
    [("scope", .string scope), ("name", .string name), ("signature", .string signature),
      ("modifiers", Json.ofStrings modifiers)]
  | .dataMember scope name type offset modifiers =>
    [("scope", .string scope), ("name", .string name), ("type", .string type),
      ("offset", Json.ofNat offset), ("modifiers", Json.ofStrings modifiers)]

def toJson (d : Declaration) : Json := .object (("kind", .string d.sort) :: d.fields)

end Declaration

end TypeCatalog
