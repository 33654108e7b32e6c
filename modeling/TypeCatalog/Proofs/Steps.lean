import Mathlib.Logic.Function.Iterate
import TypeCatalog.Lookup.Chain

/-!
# Lookups step by step

A machine that takes one step of a lookup at a time, without any bound on how deep or how long it
works. What a lookup may do before and after its resolvers is up to a guard.
-/

namespace TypeCatalog

namespace Lookups

variable {ε : Type}

/-! ## Guards -/

/-- What happens when a lookup starts and when it ends. -/
structure Guard (ε : Type) where
  /-- The resolvers to ask, or why none is asked. -/
  enter : ChainId → String → Lookups ε → Except LookupFault (List (Link ε)) × Lookups ε
  leave : ChainId → String → Answer → Lookups ε → Answer × Lookups ε

/-- Lets every lookup of a chain pass. -/
def unguarded : Guard ε where
  enter id name s :=
    match s.chain? id with
    | none => (.error (.unresolved name), s)
    | some c => (.ok c.links, s)
  leave _ _ answer s := (answer, s)

/-- The state in which a lookup is called: an outermost one starts with a clean slate. -/
def called (s : Lookups ε) : Lookups ε := if s.depth = 0 then { s with refused := false } else s

/-- Refuses a lookup beyond the limit, and fails the outermost one if one was refused. -/
def depthGuard : Guard ε where
  enter id name s :=
    match s.chain? id with
    | none => (.error (.unresolved name), s.called)
    | some c =>
      if c.limit ≤ s.depth then (.error (.tooDeep name c.limit), { s.called with refused := true })
      else (.ok c.links, { s.called with depth := s.depth + 1 })
  leave id name answer s :=
    if s.depth ≤ 1 then
      (if s.refused then .error (.tooDeep name (s.limit id)) else answer,
        { s with depth := 0, refused := false })
    else (answer, { s with depth := s.depth - 1 })

/-! ## The machine -/

/-- What goes on at one moment. -/
inductive Task (ε : Type) where
  /-- A lookup is called. -/
  | ask (chain : ChainId) (name : String)
  /-- A lookup goes on to the resolvers that it has not asked yet. -/
  | consult (chain : ChainId) (name : String) (links : List (Link ε))
  /-- A resolver works for a lookup, which has the `rest` left to ask. -/
  | work (chain : ChainId) (name : String) (rest : List (Link ε)) (program : Program ε)
  /-- A lookup comes back. -/
  | answer (answer : Answer)

/-- An active lookup whose resolver waits for the answer of another one. -/
structure Frame (ε : Type) where
  chain : ChainId
  name : String
  rest : List (Link ε)
  next : Answer → Program ε

structure Machine (ε : Type) where
  task : Task ε
  /-- Innermost first. -/
  frames : List (Frame ε)
  state : Lookups ε

namespace Machine

variable (g : Guard ε) (env : ε)

/-- The machine when a lookup has ended with `answer`. -/
def leaving (id : ChainId) (name : String) (answer : Answer) (frames : List (Frame ε))
    (s : Lookups ε) : Machine ε :=
  ⟨.answer (g.leave id name answer s).1, frames, (g.leave id name answer s).2⟩

/-- One step. With an answer and nobody who waits for it, the machine has come to its end. -/
def step : Machine ε → Machine ε
  | ⟨.ask id name, frames, s⟩ =>
    match g.enter id name s with
    | (.ok links, s') => ⟨.consult id name links, frames, s'⟩
    | (.error fault, s') => ⟨.answer (.error fault), frames, s'⟩
  | ⟨.consult id name [], frames, s⟩ => leaving g id name (.error (.unresolved name)) frames s
  | ⟨.consult id name (link :: rest), frames, s⟩ =>
    ⟨.work id name rest (link.respond env name), frames,
      { s with calls := s.calls ++ [⟨id, link.id, name, link.quiet⟩] }⟩
  | ⟨.work id name rest (.reply reply), frames, s⟩ =>
    match reply with
    | .ok (some v) => leaving g id name (.ok v) frames s
    | .ok none => ⟨.consult id name rest, frames, s⟩
    | .error fault => leaving g id name (.error fault) frames s
  | ⟨.work id name rest (.lookup chain other next), frames, s⟩ =>
    ⟨.ask chain other, ⟨id, name, rest, next⟩ :: frames, s⟩
  | ⟨.work id name rest (.register chain quiet respond next), frames, s⟩ =>
    let (resolver, s') := (register chain quiet respond).run s
    ⟨.work id name rest (next resolver), frames, s'⟩
  | ⟨.work id name rest (.unregister chain resolver next), frames, s⟩ =>
    let (found, s') := (unregister chain resolver).run s
    ⟨.work id name rest (next found), frames, s'⟩
  | ⟨.work id name rest (.pause ms next), frames, s⟩ =>
    ⟨.work id name rest next, frames, { s with clock := s.clock + ms }⟩
  | ⟨.answer answer, frame :: frames, s⟩ =>
    ⟨.work frame.chain frame.name frame.rest (frame.next answer), frames, s⟩
  | ⟨.answer answer, [], s⟩ => ⟨.answer answer, [], s⟩

def after (steps : Nat) (m : Machine ε) : Machine ε := (step g env)^[steps] m

theorem after_succ (steps : Nat) (m : Machine ε) :
    after g env (steps + 1) m = step g env (after g env steps m) :=
  Function.iterate_succ_apply' _ _ _

/-- The names of the active lookups, innermost first. -/
def names (m : Machine ε) : List String :=
  match m.task with
  | .consult _ name _ | .work _ name _ _ => name :: m.frames.map (·.name)
  | .ask _ _ | .answer _ => m.frames.map (·.name)

def Leads (m m' : Machine ε) : Prop := ∃ steps, after g env steps m = m'

variable {g env}

theorem Leads.refl (m : Machine ε) : Leads g env m m := ⟨0, rfl⟩

theorem Leads.trans {m m' m'' : Machine ε} (h : Leads g env m m') (h' : Leads g env m' m'') :
    Leads g env m m'' := by
  obtain ⟨k, rfl⟩ := h
  obtain ⟨l, rfl⟩ := h'
  exact ⟨l + k, Function.iterate_add_apply _ _ _ _⟩

theorem Leads.of_step {m m' : Machine ε} (h : Leads g env (step g env m) m') : Leads g env m m' :=
  Leads.trans ⟨1, rfl⟩ h

end Machine

end Lookups

/-! ## Work inside one chain -/

section Stays

variable {ε : Type} (env : ε) (id : ChainId)

/-- The program, and what it registers, looks names up in no other chain. -/
def Program.Stays : Program ε → Prop
  | .reply _ => True
  | .lookup chain _ next => chain = id ∧ ∀ answer, (next answer).Stays
  | .register _ _ respond next =>
    (∀ name, (respond env name).Stays) ∧ ∀ resolver, (next resolver).Stays
  | .unregister _ _ next => ∀ found, (next found).Stays
  | .pause _ next => next.Stays

def Link.Stay (links : List (Link ε)) : Prop :=
  ∀ link ∈ links, ∀ name, (link.respond env name).Stays env id

/-- The chain has this limit, and its resolvers look names up in no other chain. -/
def Lookups.Ready (limit : Nat) (s : Lookups ε) : Prop :=
  ∃ c, s.chain? id = some c ∧ c.limit = limit ∧ Link.Stay env id c.links

end Stays

namespace Lookups

variable {ε : Type} {env : ε} {id : ChainId} {limit : Nat}

theorem Ready.limit_eq {s : Lookups ε} (h : s.Ready env id limit) : s.limit id = limit := by
  obtain ⟨c, hc, rfl, -⟩ := h
  rw [Lookups.limit, hc]
  rfl

theorem Ready.congr {s s' : Lookups ε} (h : s.Ready env id limit) (same : s'.chains = s.chains) :
    s'.Ready env id limit := by
  obtain ⟨c, hc, hlimit, hstay⟩ := h
  refine ⟨c, ?_, hlimit, hstay⟩
  rw [chain?, same]
  exact hc

theorem chain?_setChain (s : Lookups ε) (chain : ChainId) (c : Chain ε) (other : ChainId) :
    (s.setChain chain c).chain? other =
      if chain = other ∧ chain.index < s.chains.length then some c else s.chain? other := by
  obtain ⟨i⟩ := chain
  obtain ⟨j⟩ := other
  simp only [chain?, setChain, List.getElem?_set, ChainId.mk.injEq]
  by_cases hij : i = j
  · subst hij
    by_cases hi : i < s.chains.length
    · simp [hi]
    · simp [hi]
  · simp [hij]

theorem Ready.setChain {s : Lookups ε} (h : s.Ready env id limit) {chain : ChainId}
    {c c' : Chain ε} (hc : s.chain? chain = some c) (hlimit : c'.limit = c.limit)
    (hstay : Link.Stay env id c.links → Link.Stay env id c'.links) :
    (s.setChain chain c').Ready env id limit := by
  obtain ⟨own, hown, rfl, hlinks⟩ := h
  unfold Ready
  rw [chain?_setChain]
  split
  · next hsame =>
    obtain ⟨rfl, -⟩ := hsame
    obtain rfl : own = c := Option.some.inj (hown.symm.trans hc)
    exact ⟨c', rfl, hlimit, hstay hlinks⟩
  · exact ⟨own, hown, rfl, hlinks⟩

theorem run_register (chain : ChainId) (quiet : Bool) (respond : Resolver ε) (s : Lookups ε) :
    (register chain quiet respond).run s =
      match s.chain? chain with
      | none => (⟨0⟩, s)
      | some c =>
        ((c.register quiet respond).1, s.setChain chain (c.register quiet respond).2) := by
  have hget : (register chain quiet respond).run s =
      (match s.chain? chain with
      | none => (pure ⟨0⟩ : LookupM ε ResolverId)
      | some c => do
        modify fun s : Lookups ε => s.setChain chain (c.register quiet respond).2
        return (c.register quiet respond).1).run s := rfl
  rw [hget]
  cases s.chain? chain with
  | none => rfl
  | some c => rfl

theorem run_unregister (chain : ChainId) (resolver : ResolverId) (s : Lookups ε) :
    (unregister chain resolver).run s =
      match s.chain? chain with
      | none => (false, s)
      | some c => ((c.unregister resolver).1, s.setChain chain (c.unregister resolver).2) := by
  have hget : (unregister chain resolver).run s =
      (match s.chain? chain with
      | none => (pure false : LookupM ε Bool)
      | some c => do
        modify fun s : Lookups ε => s.setChain chain (c.unregister resolver).2
        return (c.unregister resolver).1).run s := rfl
  rw [hget]
  cases s.chain? chain with
  | none => rfl
  | some c => rfl

/-- The two states agree on what the guard on depth has counted. -/
structure SameCount (s s' : Lookups ε) : Prop where
  depth : s'.depth = s.depth
  refused : s'.refused = s.refused

theorem register_count (chain : ChainId) (quiet : Bool) (respond : Resolver ε) (s : Lookups ε) :
    s.SameCount ((register chain quiet respond).run s).2 := by
  rw [run_register]
  cases s.chain? chain with
  | none => exact ⟨rfl, rfl⟩
  | some c => exact ⟨rfl, rfl⟩

theorem unregister_count (chain : ChainId) (resolver : ResolverId) (s : Lookups ε) :
    s.SameCount ((unregister chain resolver).run s).2 := by
  rw [run_unregister]
  cases s.chain? chain with
  | none => exact ⟨rfl, rfl⟩
  | some c => exact ⟨rfl, rfl⟩

theorem register_spec {s : Lookups ε} (h : s.Ready env id limit) (chain : ChainId) (quiet : Bool)
    {respond : Resolver ε} (stays : ∀ name, (respond env name).Stays env id) :
    ((register chain quiet respond).run s).2.Ready env id limit ∧
      s.SameCount ((register chain quiet respond).run s).2 := by
  refine ⟨?_, register_count chain quiet respond s⟩
  rw [run_register]
  cases hc : s.chain? chain with
  | none => exact h
  | some c =>
    refine h.setChain hc rfl ?_
    intro hlinks link hlink name
    rcases List.mem_append.1 hlink with hold | hnew
    · exact hlinks link hold name
    · rw [List.mem_singleton.1 hnew]
      exact stays name

theorem unregister_spec {s : Lookups ε} (h : s.Ready env id limit) (chain : ChainId)
    (resolver : ResolverId) :
    ((unregister chain resolver).run s).2.Ready env id limit ∧
      s.SameCount ((unregister chain resolver).run s).2 := by
  refine ⟨?_, unregister_count chain resolver s⟩
  rw [run_unregister]
  cases hc : s.chain? chain with
  | none => exact h
  | some c =>
    refine h.setChain hc rfl ?_
    intro hlinks link hlink
    exact hlinks link (List.mem_filter.1 hlink).1

/-! ## The machine comes to the answer -/

@[simp] theorem called_chains (s : Lookups ε) : s.called.chains = s.chains := by
  unfold called
  split <;> rfl

@[simp] theorem called_chain? (s : Lookups ε) (id : ChainId) :
    s.called.chain? id = s.chain? id := by
  simp [chain?]

@[simp] theorem called_depth (s : Lookups ε) : s.called.depth = s.depth := by
  unfold called
  split <;> rfl

theorem enter_full {c : Chain ε} {s : Lookups ε} (hc : s.chain? id = some c)
    (full : c.limit ≤ s.depth) (name : String) :
    depthGuard.enter id name s =
      (.error (.tooDeep name c.limit), { s.called with refused := true }) := by
  simp only [depthGuard, hc, if_pos full]

theorem enter_free {c : Chain ε} {s : Lookups ε} (hc : s.chain? id = some c)
    (free : ¬c.limit ≤ s.depth) (name : String) :
    depthGuard.enter id name s = (.ok c.links, { s.called with depth := s.depth + 1 }) := by
  simp only [depthGuard, hc, if_neg free]

theorem leave_outermost {s : Lookups ε} (h : s.depth ≤ 1) (name : String) (answer : Answer) :
    (depthGuard.leave id name answer s).1 =
      if s.refused then .error (.tooDeep name (s.limit id)) else answer := by
  simp only [depthGuard, if_pos h]

theorem leave_inner {s : Lookups ε} (h : ¬s.depth ≤ 1) (name : String) (answer : Answer) :
    depthGuard.leave id name answer s = (answer, { s with depth := s.depth - 1 }) := by
  simp only [depthGuard, if_neg h]

theorem leave_chains (name : String) (answer : Answer) (s : Lookups ε) :
    (depthGuard.leave id name answer s).2.chains = s.chains := by
  unfold depthGuard
  simp only
  split
  · rfl
  · rfl

theorem leave_depth (name : String) (answer : Answer) (s : Lookups ε) :
    (depthGuard.leave id name answer s).2.depth = s.depth - 1 := by
  unfold depthGuard
  simp only
  split
  · show 0 = s.depth - 1
    omega
  · rfl

theorem run_refuse {c : Chain ε} {s : Lookups ε} (hc : s.chain? id = some c) (name : String) :
    (refuse id name).run s = (.error (.tooDeep name c.limit), { s with refused := true }) := by
  have hrun : (refuse id name).run s =
      (.error (.tooDeep name (s.limit id)), { s with refused := true }) := rfl
  rw [hrun, limit, hc]
  rfl

theorem run_nested (name : String) {run : LookupM ε Answer} {s s' : Lookups ε} {answer : Answer}
    (hrun : run.run { s with depth := s.depth + 1 } = (answer, s')) :
    (nested id name run).run s = depthGuard.leave id name answer s' := by
  have hafter : (nested id name run).run s =
      (if s'.depth ≤ 1 then do
        set { s' with depth := 0, refused := false }
        if s'.refused then return .error (.tooDeep name (s'.limit id)) else return answer
      else do
        set { s' with depth := s'.depth - 1 }
        return answer : LookupM ε Answer).run s' := by
    have hbegin : (nested id name run).run s = (fun r : Answer × Lookups ε =>
        (if r.2.depth ≤ 1 then do
          set { r.2 with depth := 0, refused := false }
          if r.2.refused then return .error (.tooDeep name (r.2.limit id)) else return r.1
        else do
          set { r.2 with depth := r.2.depth - 1 }
          return r.1 : LookupM ε Answer).run r.2) (run.run { s with depth := s.depth + 1 }) := rfl
    rw [hbegin, hrun]
  rw [hafter, depthGuard]
  by_cases hdepth : s'.depth ≤ 1
  · by_cases hrefused : s'.refused = true
    · simp only [if_pos hdepth, if_pos hrefused]
      rfl
    · simp only [if_pos hdepth, if_neg hrefused]
      rfl
  · simp only [if_neg hdepth]
    rfl

section Known

/-! A lookup in a chain that there is. -/

variable {c : Chain ε} {s : Lookups ε} (hc : s.chain? id = some c) (name : String)

include hc

theorem run_lookupWithin_zero :
    (lookupWithin env 0 id name).run s =
      (.error (.tooDeep name c.limit), { s.called with refused := true }) := by
  have hbegin : (lookupWithin env 0 id name).run s =
      (match s.called.chain? id with
      | none => (pure (.error (.unresolved name)) : LookupM ε Answer)
      | some _ => refuse id name).run s.called := rfl
  have hcalled : s.called.chain? id = some c := by rw [called_chain?]; exact hc
  rw [hbegin, hcalled]
  exact run_refuse hcalled name

theorem run_lookupWithin_succ (levels : Nat) :
    (lookupWithin env (levels + 1) id name).run s =
      if c.limit ≤ s.depth then
        (.error (.tooDeep name c.limit), { s.called with refused := true })
      else
        let r := (consult (lookupWithin env levels) env id name c.links).run
          { s.called with depth := s.depth + 1 }
        depthGuard.leave id name r.1 r.2 := by
  have hcalled : s.called.chain? id = some c := by rw [called_chain?]; exact hc
  have hbegin : (lookupWithin env (levels + 1) id name).run s =
      (match s.called.chain? id with
      | none => (pure (.error (.unresolved name)) : LookupM ε Answer)
      | some c => do
        if c.limit ≤ (← get).depth then refuse id name
        else nested id name (consult (lookupWithin env levels) env id name c.links)).run
          s.called := rfl
  have hget : (do
      if c.limit ≤ (← get).depth then refuse id name
      else nested id name (consult (lookupWithin env levels) env id name c.links) :
        LookupM ε Answer).run s.called =
      (if c.limit ≤ s.called.depth then refuse id name
      else nested id name (consult (lookupWithin env levels) env id name c.links)).run
        s.called := rfl
  rw [hbegin, hcalled]
  simp only [hget, called_depth]
  split
  · rw [run_refuse hcalled, called_depth]
  · refine run_nested name ?_
    rw [called_depth]
    rfl

end Known

theorem run_lookupWithin_unknown {s : Lookups ε} (hc : s.chain? id = none) (levels : Nat)
    (name : String) :
    (lookupWithin env levels id name).run s = (.error (.unresolved name), s.called) := by
  cases levels with
  | zero =>
    have hbegin : (lookupWithin env 0 id name).run s =
        (match s.called.chain? id with
        | none => (pure (.error (.unresolved name)) : LookupM ε Answer)
        | some _ => refuse id name).run s.called := rfl
    rw [hbegin, called_chain?, hc]
    rfl
  | succ levels =>
    have hbegin : (lookupWithin env (levels + 1) id name).run s =
        (match s.called.chain? id with
        | none => (pure (.error (.unresolved name)) : LookupM ε Answer)
        | some c => do
          if c.limit ≤ (← get).depth then refuse id name
          else nested id name (consult (lookupWithin env levels) env id name c.links)).run
            s.called := rfl
    rw [hbegin, called_chain?, hc]
    rfl

end Lookups

end TypeCatalog
