import TypeCatalog.Document.Token

/-!
# From tokens to trees

The containers that are still open are kept in a list, the innermost first, so that a document may
be nested as deeply as it likes.
-/

namespace TypeCatalog

namespace Document

/-- A container that is still open, with what it holds so far, last first. -/
inductive Opened where
  | array (items : List Tree)
  /-- An object that waits for the value under `key`. -/
  | object (fields : List (Option String × Tree)) (key : Option String)

/-- What may come next. -/
inductive Expected where
  | value
  /-- The first item of an array, or its end. -/
  | item
  /-- The key of a field. The first one may be missing. -/
  | key (fields : List (Option String × Tree))
  | colon (fields : List (Option String × Tree)) (key : Option String)
  /-- What follows a value. -/
  | after (t : Tree)

/-- The value of a token that is a value by itself. -/
def scalar? : Token → Option Tree
  | .null => some .null
  | .bool b => some (.bool b)
  | .number n => some (.number n)
  | .string s => some (.string s)
  | _ => none

/-- Where a value may stand: it is a scalar, or it opens a container. -/
def start? (opened : List Opened) : Token → Option (Expected × List Opened)
  | .openArray => some (.item, .array [] :: opened)
  | .openObject => some (.key [], opened)
  | t => (scalar? t).map fun tree => (.after tree, opened)

/-- What one token leads to. -/
def step? (opened : List Opened) : Expected → Token → Option (Expected × List Opened)
  | .value, t => start? opened t
  | .item, .closeArray => some (.after (.array []), opened.drop 1)
  | .item, t => start? opened t
  | .key fields, .string s => some (.colon fields s, opened)
  | .key [], .closeObject => some (.after (.object []), opened)
  | .colon fields key, .colon => some (.value, .object fields key :: opened)
  | .after tree, t =>
    match opened, t with
    | .array items :: outer, .comma => some (.value, .array (tree :: items) :: outer)
    | .array items :: outer, .closeArray => some (.after (.array (tree :: items).reverse), outer)
    | .object fields key :: outer, .comma => some (.key ((key, tree) :: fields), outer)
    | .object fields key :: outer, .closeObject =>
      some (.after (.object ((key, tree) :: fields).reverse), outer)
    | _, _ => none
  | _, _ => none

/-- Goes through tokens. At the end one value must be complete. -/
def build? (expected : Expected) (opened : List Opened) : List Token → Option Tree
  | [] =>
    match expected, opened with
    | .after tree, [] => some tree
    | _, _ => none
  | t :: rest =>
    match step? opened expected t with
    | some (expected', opened') => build? expected' opened' rest
    | none => none

end Document

/-- The tree of a document. -/
def Tree.ofText? (s : String) : Option Tree := (Token.ofText? s).bind (Document.build? .value [])

end TypeCatalog
