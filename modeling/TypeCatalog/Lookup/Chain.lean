import TypeCatalog.Lookup.Program

/-!
# Chains of resolvers

A lookup asks the resolvers that are registered when it starts, in order, until one replies with a
value or a failure. Lookups may be active inside one another up to the limit of the chain. One
beyond that is refused, and then the outermost lookup fails too, whatever the resolvers made of it.
-/

namespace TypeCatalog

/-- A resolver at its place in a chain. -/
structure Link (ε : Type) where
  id : ResolverId
  quiet : Bool
  respond : Resolver ε

structure Chain (ε : Type) where
  /-- How many lookups may be active inside one another. -/
  limit : Nat
  nextId : Nat
  links : List (Link ε)

/-- One resolver asked for one name. -/
structure Call where
  chain : ChainId
  resolver : ResolverId
  name : String
  quiet : Bool
deriving DecidableEq

structure Lookups (ε : Type) where
  chains : List (Chain ε)
  /-- How many lookups are active. -/
  depth : Nat
  /-- Whether a lookup was refused since the outermost one started. -/
  refused : Bool
  /-- The time that resolvers have taken, in milliseconds. -/
  clock : Nat
  /-- The calls of resolvers, oldest first. -/
  calls : List Call

abbrev LookupM (ε : Type) := StateM (Lookups ε)

namespace Chain

variable {ε : Type}

def empty (limit : Nat) : Chain ε := ⟨limit, 0, []⟩

/-- Puts a resolver at the end. -/
def register (c : Chain ε) (quiet : Bool) (respond : Resolver ε) : ResolverId × Chain ε :=
  (⟨c.nextId⟩,
    { c with nextId := c.nextId + 1, links := c.links ++ [⟨⟨c.nextId⟩, quiet, respond⟩] })

/-- Removes a resolver. Tells whether it was there. -/
def unregister (c : Chain ε) (id : ResolverId) : Bool × Chain ε :=
  let rest := c.links.filter (·.id ≠ id)
  (rest.length ≠ c.links.length, { c with links := rest })

end Chain

namespace Lookups

variable {ε : Type}

/-- Chains without resolvers, one for each limit. -/
def ofLimits (limits : List Nat) : Lookups ε := ⟨limits.map .empty, 0, false, 0, []⟩

def chain? (s : Lookups ε) (id : ChainId) : Option (Chain ε) := s.chains[id.index]?

def limit (s : Lookups ε) (id : ChainId) : Nat := ((s.chain? id).map (·.limit)).getD 0

/-- The greatest limit of all chains. -/
def greatestLimit (s : Lookups ε) : Nat := (s.chains.map (·.limit)).foldl max 0

def setChain (s : Lookups ε) (id : ChainId) (c : Chain ε) : Lookups ε :=
  { s with chains := s.chains.set id.index c }

/-! ## Registration -/

/-- Puts a resolver at the end of a chain. -/
def register (id : ChainId) (quiet : Bool) (respond : Resolver ε) : LookupM ε ResolverId := do
  match (← get).chain? id with
  | none => return ⟨0⟩
  | some c =>
    let (resolver, c') := c.register quiet respond
    modify (·.setChain id c')
    return resolver

/-- Removes a resolver from a chain. Tells whether it was there. -/
def unregister (id : ChainId) (resolver : ResolverId) : LookupM ε Bool := do
  match (← get).chain? id with
  | none => return false
  | some c =>
    let (found, c') := c.unregister resolver
    modify (·.setChain id c')
    return found

/-! ## The limit on nesting -/

/-- An outermost lookup starts with a clean slate. -/
def begin : LookupM ε Unit :=
  modify fun s => if s.depth = 0 then { s with refused := false } else s

def refuse (id : ChainId) (name : String) : LookupM ε Answer := do
  modify fun s => { s with refused := true }
  return .error (.tooDeep name ((← get).limit id))

/-- Counts a lookup as active while it runs. -/
def nested (id : ChainId) (name : String) (run : LookupM ε Answer) : LookupM ε Answer := do
  modify fun s => { s with depth := s.depth + 1 }
  let answer ← run
  let s ← get
  if s.depth ≤ 1 then
    set { s with depth := 0, refused := false }
    if s.refused then return .error (.tooDeep name (s.limit id)) else return answer
  else
    set { s with depth := s.depth - 1 }
    return answer

end Lookups

/-! ## Running -/

namespace Program

variable {ε : Type}

/-- Runs a resolver to its reply. Its lookups are answered by `ask`. -/
def run (ask : ChainId → String → LookupM ε Answer) : Program ε → LookupM ε Reply
  | .reply r => pure r
  | .lookup chain name next => do (next (← ask chain name)).run ask
  | .register chain quiet respond next => do
    (next (← Lookups.register chain quiet respond)).run ask
  | .unregister chain id next => do (next (← Lookups.unregister chain id)).run ask
  | .pause ms next => do
    modify fun s => { s with clock := s.clock + ms }
    next.run ask

end Program

namespace Lookups

variable {ε : Type}

/-- Asks the resolvers in order. The first value or failure is the answer. -/
def consult (ask : ChainId → String → LookupM ε Answer) (env : ε) (id : ChainId) (name : String) :
    List (Link ε) → LookupM ε Answer
  | [] => pure (.error (.unresolved name))
  | link :: rest => do
    modify fun s => { s with calls := s.calls ++ [⟨id, link.id, name, link.quiet⟩] }
    match ← (link.respond env name).run ask with
    | .ok (some v) => return .ok v
    | .ok none => consult ask env id name rest
    | .error fault => return .error fault

/-- Looks a name up with `levels` lookups left before every chain refuses. -/
def lookupWithin (env : ε) : Nat → ChainId → String → LookupM ε Answer
  | 0, id, name => do
    begin
    match (← get).chain? id with
    | none => return .error (.unresolved name)
    | some _ => refuse id name
  | levels + 1, id, name => do
    begin
    match (← get).chain? id with
    | none => return .error (.unresolved name)
    | some c =>
      if c.limit ≤ (← get).depth then refuse id name
      else nested id name (consult (lookupWithin env levels) env id name c.links)

/-- Looks a name up. No more lookups than the greatest limit can be active, so that many levels are
enough. -/
def lookup (env : ε) (id : ChainId) (name : String) : LookupM ε Answer := do
  let s ← get
  lookupWithin env (s.greatestLimit - s.depth) id name

/-- Looks a name up and gives up when the answer takes as long as `milliseconds`. -/
def lookupInTime (env : ε) (id : ChainId) (name : String) (milliseconds : Nat) :
    LookupM ε Answer := do
  let start := (← get).clock
  let answer ← lookup env id name
  if milliseconds ≤ (← get).clock - start then return .error (.unresolved name) else return answer

/-- Looks a name up within the time that the settings allow. -/
def lookupBounded (env : ε) (id : ChainId) (name : String) (timeout : Option Nat) :
    LookupM ε Answer :=
  match timeout with
  | some milliseconds => lookupInTime env id name milliseconds
  | none => lookup env id name

end Lookups

end TypeCatalog
