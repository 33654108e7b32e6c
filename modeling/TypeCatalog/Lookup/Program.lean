import TypeCatalog.Value.Basic

/-!
# What a resolver does

A resolver is asked for a name and works step by step until it replies. It may look up other names,
in any chain, and go on by the answers; it may register and unregister resolvers; it may take time.
It reads surroundings of type `ε`, which do not change while it works.
-/

namespace TypeCatalog

/-- Why a lookup gives no value. -/
inductive LookupFault where
  | unresolved (name : String)
  | tooDeep (name : String) (limit : Nat)
deriving DecidableEq

def LookupFault.message : LookupFault → String
  | .unresolved name => "use of undeclared identifier '" ++ name ++ "'"
  | .tooDeep name limit =>
    "lookup of '" ++ name ++ "' exceeded the nesting limit of " ++ toString limit

/-- The answer of a lookup. -/
abbrev Answer := Except LookupFault Value

/-- The reply of one resolver; without a value it leaves the name to the next one. -/
abbrev Reply := Except LookupFault (Option Value)

structure ChainId where
  index : Nat
deriving DecidableEq

structure ResolverId where
  index : Nat
deriving DecidableEq

inductive Program (ε : Type) where
  | reply (reply : Reply)
  | lookup (chain : ChainId) (name : String) (next : Answer → Program ε)
  /-- Puts a resolver at the end of a chain. The calls of a quiet one are marked as such. -/
  | register (chain : ChainId) (quiet : Bool) (respond : ε → String → Program ε)
      (next : ResolverId → Program ε)
  | unregister (chain : ChainId) (id : ResolverId) (next : Bool → Program ε)
  | pause (milliseconds : Nat) (next : Program ε)

abbrev Resolver (ε : Type) := ε → String → Program ε

namespace Program

variable {ε : Type}

def value (v : Value) : Program ε := .reply (.ok (some v))

def decline : Program ε := .reply (.ok none)

/-- A value, or nothing. -/
def offer (v : Option Value) : Program ε := .reply (.ok v)

def fail (fault : LookupFault) : Program ε := .reply (.error fault)

/-- Replies with the answer of another lookup. -/
def forward (chain : ChainId) (name : String) : Program ε :=
  .lookup chain name fun
    | .ok v => value v
    | .error fault => fail fault

/-- Replies with the answer of another lookup, or with `spare` if that fails. -/
def forwardOr (chain : ChainId) (name : String) (spare : Option Value) : Program ε :=
  .lookup chain name fun
    | .ok v => value v
    | .error _ => offer spare

end Program

end TypeCatalog
