import Mathlib.Data.List.Fold
import Mathlib.Data.List.MinMax
import TypeCatalog.Proofs.Steps

/-!
# Lookups without levels

A lookup is run with as many levels as the limits leave it. They never run out: whatever resolvers
do, they leave the limits and the number of active lookups as they were. So a lookup is what its
resolvers make of it, with their own lookups answered in the same way.
-/

namespace TypeCatalog.Lookups

variable {ε α β : Type} {env : ε} {id : ChainId} {s s' : Lookups ε}

/-- Work is related to other work if each of its parts is. -/
structure Composes (R : ∀ {α : Type}, LookupM ε α → LookupM ε α → Prop) : Prop where
  pure : ∀ {α : Type} (a : α), R (pure a) (pure a)
  bind : ∀ {α β : Type} {work work' : LookupM ε α} {next next' : α → LookupM ε β},
    R work work' → (∀ a, R (next a) (next' a)) → R (work >>= next) (work' >>= next')
  register : ∀ chain quiet respond, R (register chain quiet respond) (register chain quiet respond)
  unregister : ∀ chain resolver, R (unregister chain resolver) (unregister chain resolver)
  pause : ∀ ms : Nat, R (modify fun s => { s with clock := s.clock + ms } : LookupM ε Unit)
    (modify fun s => { s with clock := s.clock + ms })
  note : ∀ call, R (modify fun s => { s with calls := s.calls ++ [call] } : LookupM ε Unit)
    (modify fun s => { s with calls := s.calls ++ [call] })

namespace Composes

variable {R : ∀ {α : Type}, LookupM ε α → LookupM ε α → Prop} (rules : Composes R)
  {ask ask' : ChainId → String → LookupM ε Answer}
  (asks : ∀ id name, R (ask id name) (ask' id name))

include rules asks

theorem program (p : Program ε) : R (p.run ask) (p.run ask') := by
  induction p with
  | reply reply => exact rules.pure reply
  | lookup chain name next ih => exact rules.bind (asks chain name) ih
  | register chain quiet respond next _ ih =>
    exact rules.bind (rules.register chain quiet respond) ih
  | unregister chain resolver next ih => exact rules.bind (rules.unregister chain resolver) ih
  | pause ms next ih => exact rules.bind (rules.pause ms) fun _ => ih

theorem consult (env : ε) (id : ChainId) (name : String) (links : List (Link ε)) :
    R (consult ask env id name links) (Lookups.consult ask' env id name links) := by
  induction links with
  | nil => exact rules.pure _
  | cons link rest ih =>
    refine rules.bind (rules.note _) fun _ =>
      rules.bind (rules.program asks _) fun reply => ?_
    match reply with
    | .ok (some v) => exact rules.pure _
    | .ok none => exact ih
    | .error fault => exact rules.pure _

end Composes

/-! ## What work leaves as it was -/

/-- The two states count as many active lookups, and their chains have the same limits. -/
structure SameLimits (s s' : Lookups ε) : Prop where
  depth : s'.depth = s.depth
  limits : s'.chains.map (·.limit) = s.chains.map (·.limit)

namespace SameLimits

theorem refl (s : Lookups ε) : s.SameLimits s := ⟨rfl, rfl⟩

theorem trans {s'' : Lookups ε} (h : s.SameLimits s') (h' : s'.SameLimits s'') :
    s.SameLimits s'' :=
  ⟨h'.depth.trans h.depth, h'.limits.trans h.limits⟩

theorem greatest (h : s.SameLimits s') : s'.greatestLimit = s.greatestLimit := by
  rw [greatestLimit, greatestLimit, h.limits]

theorem limit_eq (h : s.SameLimits s') (id : ChainId) : s'.limit id = s.limit id := by
  have hlimit : ∀ s : Lookups ε, s.limit id = ((s.chains.map (·.limit))[id.index]?).getD 0 :=
    fun s => by rw [limit, chain?, List.getElem?_map]
  rw [hlimit, hlimit, h.limits]

theorem setChain {c c' : Chain ε} (hc : s.chain? id = some c) (limit : c'.limit = c.limit) :
    s.SameLimits (s.setChain id c') := by
  obtain ⟨hlt, hget⟩ := List.getElem?_eq_some_iff.1 hc
  have hlt' : id.index < (s.chains.map (·.limit)).length := by simpa using hlt
  have hget' : (s.chains.map (·.limit))[id.index] = c.limit := by rw [List.getElem_map, hget]
  refine ⟨rfl, ?_⟩
  rw [Lookups.setChain, List.map_set, limit, ← hget']
  exact List.set_getElem_self hlt'

end SameLimits

/-- The work leaves the limits and the number of active lookups as they were. -/
def Balanced (work : LookupM ε α) : Prop := ∀ s : Lookups ε, s.SameLimits (work.run s).2

theorem balanced_composes : Composes (ε := ε) fun work _ => Balanced work where
  pure _ := .refl
  bind h hnext s := (h s).trans (hnext _ _)
  register chain quiet respond s := by
    rw [run_register]
    cases hc : s.chain? chain with
    | none => exact .refl s
    | some c => exact .setChain hc rfl
  unregister chain resolver s := by
    rw [run_unregister]
    cases hc : s.chain? chain with
    | none => exact .refl s
    | some c => exact .setChain hc rfl
  pause _ s := ⟨rfl, rfl⟩
  note _ s := ⟨rfl, rfl⟩

section Ask

variable {ask : ChainId → String → LookupM ε Answer} (asks : ∀ id name, Balanced (ask id name))

include asks

theorem program_balanced (p : Program ε) : Balanced (p.run ask) :=
  @Composes.program _ _ balanced_composes ask ask asks p

theorem consult_balanced (env : ε) (id : ChainId) (name : String) (links : List (Link ε)) :
    Balanced (consult ask env id name links) :=
  @Composes.consult _ _ balanced_composes ask ask asks env id name links

end Ask

theorem sameLimits_called (s : Lookups ε) : s.SameLimits s.called :=
  ⟨called_depth s, by rw [called_chains]⟩

/-- The state in which the resolvers of a lookup are asked. -/
def entered (s : Lookups ε) : Lookups ε := { s.called with depth := s.depth + 1 }

theorem entered_greatestLimit (s : Lookups ε) : s.entered.greatestLimit = s.greatestLimit := by
  rw [greatestLimit, greatestLimit, entered, called_chains]

theorem SameLimits.leave (h : s.entered.SameLimits s') (name : String) (answer : Answer) :
    s.SameLimits (depthGuard.leave id name answer s').2 := by
  refine ⟨?_, ?_⟩
  · rw [leave_depth, h.depth]
    rfl
  · rw [leave_chains, h.limits, entered, called_chains]

theorem lookupWithin_balanced (levels : Nat) (id : ChainId) (name : String) :
    Balanced (lookupWithin env levels id name) := by
  induction levels generalizing id name with
  | zero =>
    intro s
    cases hc : s.chain? id with
    | none =>
      rw [run_lookupWithin_unknown hc]
      exact sameLimits_called s
    | some c =>
      rw [run_lookupWithin_zero hc]
      exact (sameLimits_called s).trans ⟨rfl, rfl⟩
  | succ levels ih =>
    intro s
    cases hc : s.chain? id with
    | none =>
      rw [run_lookupWithin_unknown hc]
      exact sameLimits_called s
    | some c =>
      rw [run_lookupWithin_succ hc]
      split
      · exact (sameLimits_called s).trans ⟨rfl, rfl⟩
      · exact (consult_balanced ih env id name c.links s.entered).leave name _

theorem lookup_balanced (id : ChainId) (name : String) : Balanced (lookup env id name) :=
  fun s => lookupWithin_balanced (s.greatestLimit - s.depth) id name s

/-! ## Enough levels -/

/-- From states with these counts the two do the same, and they leave the counts as they were. -/
def SameFrom (depth greatest : Nat) (work work' : LookupM ε α) : Prop :=
  ∀ s : Lookups ε, s.depth = depth → s.greatestLimit = greatest →
    work.run s = work'.run s ∧ s.SameLimits (work.run s).2

theorem SameFrom.of_balanced {depth greatest : Nat} {work : LookupM ε α} (h : Balanced work) :
    SameFrom depth greatest work work := fun s _ _ => ⟨rfl, h s⟩

theorem sameFrom_composes (depth greatest : Nat) : Composes (ε := ε) (SameFrom depth greatest) where
  pure a := .of_balanced (balanced_composes.pure a)
  bind := by
    intro α β work work' next next' h hnext s hdepth hgreatest
    obtain ⟨hsame, hlimits⟩ := h s hdepth hgreatest
    obtain ⟨hsame', hlimits'⟩ := hnext (work.run s).1 (work.run s).2
      (hlimits.depth.trans hdepth) (hlimits.greatest.trans hgreatest)
    refine ⟨?_, hlimits.trans hlimits'⟩
    show (next (work.run s).1).run (work.run s).2 = (next' (work'.run s).1).run (work'.run s).2
    rw [← hsame, hsame']
  register chain quiet respond := .of_balanced (balanced_composes.register chain quiet respond)
  unregister chain resolver := .of_balanced (balanced_composes.unregister chain resolver)
  pause ms := .of_balanced (balanced_composes.pause ms)
  note call := .of_balanced (balanced_composes.note call)

/-- The levels of a lookup inside another one are those that the other one has left for it. -/
theorem sameFrom_lookup (depth greatest : Nat) (id : ChainId) (name : String) :
    SameFrom depth greatest (lookupWithin env (greatest - depth) id name) (lookup env id name) := by
  rintro s rfl rfl
  exact ⟨rfl, lookupWithin_balanced _ id name s⟩

theorem limit_le_greatestLimit {c : Chain ε} (hc : s.chain? id = some c) :
    c.limit ≤ s.greatestLimit := by
  have hmem : c.limit ∈ s.chains.map (·.limit) :=
    List.mem_map_of_mem (List.mem_of_getElem? hc)
  rw [greatestLimit, List.foldl_eq_foldr]
  exact List.le_max_of_le' 0 hmem (Nat.le_refl _)

/-! ## What a lookup does -/

theorem lookup_unknown (hc : s.chain? id = none) (name : String) :
    (lookup env id name).run s = (.error (.unresolved name), s.called) :=
  run_lookupWithin_unknown hc _ name

variable {c : Chain ε} (hc : s.chain? id = some c) (name : String)

include hc

theorem lookup_full (full : c.limit ≤ s.depth) : (lookup env id name).run s =
    (.error (.tooDeep name c.limit), { s.called with refused := true }) := by
  show (lookupWithin env (s.greatestLimit - s.depth) id name).run s = _
  cases s.greatestLimit - s.depth with
  | zero => exact run_lookupWithin_zero hc name
  | succ levels => rw [run_lookupWithin_succ hc, if_pos full]

theorem lookup_free (free : s.depth < c.limit) : (lookup env id name).run s =
    depthGuard.leave id name
      ((consult (lookup env) env id name c.links).run s.entered).1
      ((consult (lookup env) env id name c.links).run s.entered).2 := by
  have hlimit := limit_le_greatestLimit hc
  obtain ⟨levels, hlevels⟩ : ∃ levels, s.greatestLimit - s.depth = levels + 1 :=
    ⟨s.greatestLimit - s.depth - 1, by omega⟩
  have hsame := (sameFrom_composes (s.depth + 1) s.greatestLimit).consult
    (@sameFrom_lookup _ env (s.depth + 1) s.greatestLimit) env id name c.links s.entered rfl
    (entered_greatestLimit s)
  rw [show s.greatestLimit - (s.depth + 1) = levels by omega] at hsame
  rw [← hsame.1]
  show (lookupWithin env (s.greatestLimit - s.depth) id name).run s = _
  rw [hlevels, run_lookupWithin_succ hc, if_neg (by omega)]
  rfl

end TypeCatalog.Lookups
