import TypeCatalog.Document.Tree
import TypeCatalog.Text.Hex

/-!
# Values of documents

A value is what a tree comes to if every string in it has a text, every number fits, and it is not
nested too deeply. The fields of an object are sorted; of several with one name the last counts.
-/

namespace TypeCatalog

inductive Json where
  | null
  | bool (b : Bool)
  | number (n : Number)
  | string (s : String)
  | array (items : List Json)
  | object (fields : List (String × Json))

namespace Json

/-- Puts a field at its place among sorted ones, instead of the one with its name. -/
def insert (name : String) (v : Json) : List (String × Json) → List (String × Json)
  | [] => [(name, v)]
  | f :: rest =>
    if name = f.1 then (name, v) :: rest
    else if name < f.1 then (name, v) :: f :: rest
    else f :: insert name v rest

/-- The fields in the order of their names. -/
def sort (fields : List (String × Json)) : List (String × Json) :=
  fields.foldl (fun sorted f => insert f.1 f.2 sorted) []

/-- The value of a tree with at most `levels` containers inside one another. -/
def ofTree? : Nat → Tree → Option Json
  | _, .null => some .null
  | _, .bool b => some (.bool b)
  | _, .number n => n.number?.map .number
  | _, .string s => s.map .string
  | 0, .array _ => none
  | 0, .object _ => none
  | levels + 1, .array items => do return .array (← items.mapM (ofTree? levels))
  | levels + 1, .object fields => do
    let fields ← fields.mapM fun (f : Option String × Tree) => do
      return (← f.1, ← ofTree? levels f.2)
    return .object (sort fields)

/-! ## Questions -/

def isNull : Json → Bool
  | .null => true
  | _ => false

def bool? : Json → Option Bool
  | .bool b => some b
  | _ => none

def int64? : Json → Option Int64
  | .number n => n.toInt64?
  | _ => none

def uint64? : Json → Option UInt64
  | .number n => n.toUInt64?
  | _ => none

def double? : Json → Option Double
  | .number n => some n.toDouble
  | _ => none

def string? : Json → Option String
  | .string s => some s
  | _ => none

def array? : Json → Option (List Json)
  | .array items => some items
  | _ => none

/-! ## The compact text -/

/-- A character of a string. Only quotes, backslashes and control characters are escaped. -/
def escape (c : Char) : String :=
  if c = '"' then "\\\""
  else if c = '\\' then "\\\\"
  else if c = '\x08' then "\\b"
  else if c = '\t' then "\\t"
  else if c = '\n' then "\\n"
  else if c = '\x0c' then "\\f"
  else if c = '\r' then "\\r"
  else if c.toNat < 0x20 then "\\u00" ++ Text.hexOfWidth 2 c.toNat
  else c.toString

def quoted (s : String) : String := "\"" ++ String.join (s.toList.map escape) ++ "\""

mutual

/-- The text without any blanks. -/
def text : Json → String
  | .null => "null"
  | .bool b => if b then "true" else "false"
  | .number n => n.text
  | .string s => quoted s
  | .array items => "[" ++ ",".intercalate (texts items) ++ "]"
  | .object fields => "\x7b" ++ ",".intercalate (fieldTexts fields) ++ "\x7d"

def texts : List Json → List String
  | [] => []
  | v :: rest => v.text :: texts rest

def fieldTexts : List (String × Json) → List String
  | [] => []
  | (name, v) :: rest => (quoted name ++ ":" ++ v.text) :: fieldTexts rest

end

end Json

end TypeCatalog
