/-!
# Qualified names

A qualified name such as `a::b::C` is a list of components with `::` between them. One `::` in front
stands for the global scope. Everything is said on lists of characters and then carried to `String`.
-/

namespace TypeCatalog.Name

/-! ## On lists of characters -/

/-- The text without one leading `::`. -/
def stripRootChars : List Char → List Char
  | ':' :: ':' :: rest => rest
  | cs => cs

/-- The first component and the ones after it. The marks are found from the left and do not
overlap. -/
def splitChars : List Char → List Char × List (List Char)
  | ':' :: ':' :: rest =>
    let (c, cs) := splitChars rest
    ([], c :: cs)
  | x :: rest =>
    let (c, cs) := splitChars rest
    (x :: c, cs)
  | [] => ([], [])

/-- The text before and after the first `::`, if there is one. -/
def cutChars : List Char → Option (List Char × List Char)
  | ':' :: ':' :: rest => some ([], rest)
  | x :: rest => (cutChars rest).map fun (before, after) => (x :: before, after)
  | [] => none

/-- The text before and after the last `::`. Without one, all of it comes after. -/
def cutLastChars (cs : List Char) : List Char × List Char :=
  match cutChars cs.reverse with
  | some (after, before) => (before.reverse, after.reverse)
  | none => ([], cs)

/-! ## On strings -/

def stripRoot (name : String) : String := String.ofList (stripRootChars name.toList)

/-- Whether the name starts at the global scope. -/
def isAbsolute (name : String) : Bool :=
  match name.toList with
  | ':' :: ':' :: _ => true
  | _ => false

/-- The first component and the others. -/
def components (path : String) : String × List String :=
  let (c, cs) := splitChars path.toList
  (String.ofList c, cs.map String.ofList)

/-- The enclosing name and the last component: `a::b::C` is `C` in `a::b`. -/
def split (name : String) : String × String :=
  let (before, after) := cutLastChars name.toList
  (String.ofList before, String.ofList after)

/-- The part after the last `::`. -/
def simple (name : String) : String := (split name).2

/-- The name of `simple` inside `scope`. The global scope has the empty name. -/
def join (scope simple : String) : String :=
  if scope = "" then simple else scope ++ "::" ++ simple

/-- How a scope is named in messages. -/
def display (qualified : String) : String := if qualified = "" then "::" else qualified

end TypeCatalog.Name
