import TypeCatalog.Catalog.Basic
import TypeCatalog.Lookup.Chain
import TypeCatalog.Lookup.SymbolTable

/-!
# Stock resolvers

Resolvers that are described by data. They read named symbol tables and the catalogs around them.
-/

namespace TypeCatalog

/-- What stock resolvers read. -/
structure Surroundings where
  tables : Table String SymbolTable
  catalogs : List Catalog

inductive Rule where
  /-- The symbols of a table. -/
  | table (name : String)
  | values (values : Table String Value)
  | decline
  /-- Fails for some names, as if another name had been looked up in vain. -/
  | unresolved (names : List String)
  /-- Fails for some names, as if they were nested too deeply. -/
  | tooDeep (names : List String) (limit : Nat)
  /-- Looks up another name instead. -/
  | alias (names : Table String String)
  /-- Looks up another name instead, and has a spare value if that fails. -/
  | aliasOr (names : Table String String) (spare : Option Value)
  /-- `stem` followed by `n` looks up `stem` followed by `n - 1`, down to zero. -/
  | countdown (stem : String) (last : Option Value)
  /-- The enumerators of a catalog, by qualified name. -/
  | enumerators (catalog : Nat)
  /-- Registers one more resolver when it is asked for `name`. -/
  | installs (name : String) (rule : Rule)
  | pause (milliseconds : Nat) (value : Option Value)

namespace Rule

/-- Whether the calls of the resolver are of no interest. -/
def isQuiet : Rule → Bool
  | .table _ | .pause _ _ => true
  | _ => false

/-- The number that digits stand for, with or without `+` in front, if it fits in 32 bits. -/
def count? (cs : List Char) : Option Nat :=
  let digits :=
    match cs with
    | '+' :: rest => rest
    | _ => cs
  if digits ≠ [] ∧ digits.all Char.isDigit then
    let n := digits.foldl (fun n c => 10 * n + (c.toNat - '0'.toNat)) 0
    if n < 0x100000000 then some n else none
  else none

/-- The number behind `stem` in a name. -/
def countOf? (stem name : String) : Option Nat :=
  if stem.toList.isPrefixOf name.toList then count? (name.toList.drop stem.length) else none

/-- The value of an enumerator that is found from the global scope. -/
def enumerator? (c : Catalog) (name : String) : Option Value :=
  match c.scopes.resolvePath? .global name with
  | some (.enumerator owner value) => some (.ofScalar owner (.signed value))
  | _ => none

/-- The resolver that a rule describes, as part of `chain`. -/
def resolver (chain : ChainId) : Rule → Resolver Surroundings
  | .table t, env, name => .offer ((env.tables.get? t).bind (·.answer? name))
  | .values vs, _, name => .offer (vs.get? name)
  | .decline, _, _ => .decline
  | .unresolved names, _, name =>
    if name ∈ names then .fail (.unresolved (name ++ "!")) else .decline
  | .tooDeep names limit, _, name => if name ∈ names then .fail (.tooDeep name limit) else .decline
  | .alias names, _, name =>
    match names.get? name with
    | some other => .forward chain other
    | none => .decline
  | .aliasOr names spare, _, name =>
    match names.get? name with
    | some other => .forwardOr chain other spare
    | none => .decline
  | .countdown stem last, _, name =>
    match countOf? stem name with
    | some 0 => .offer last
    | some (n + 1) => .forward chain (stem ++ toString n)
    | none => .decline
  | .enumerators catalog, env, name =>
    .offer ((env.catalogs[catalog]?).bind fun c => enumerator? c name)
  | .installs wanted rule, _, name =>
    if name = wanted then .register chain rule.isQuiet (rule.resolver chain) fun _ => .decline
    else .decline
  | .pause milliseconds value, _, _ => .pause milliseconds (.offer value)

end Rule

end TypeCatalog
