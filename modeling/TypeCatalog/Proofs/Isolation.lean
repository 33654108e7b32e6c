import TypeCatalog.Proofs.Levels

/-!
# Lookups one after the other

All lookups on a thread share what the guard on depth counts. An outermost one finds the counts of a
new thread, whatever came of the lookups before it, and its answer depends on the chains alone.
-/

namespace TypeCatalog

/-- The program changes no chain. What it does next depends on the answers it gets. -/
def Program.Steady {ε : Type} : Program ε → Prop
  | .reply _ => True
  | .lookup _ _ next => ∀ answer, (next answer).Steady
  | .register _ _ _ _ | .unregister _ _ _ => False
  | .pause _ next => next.Steady

namespace Lookups

variable {ε α β : Type} {env : ε} {id : ChainId} {s s' : Lookups ε}

/-- A thread on which nothing was looked up before. -/
def fresh (chains : List (Chain ε)) : Lookups ε := ⟨chains, 0, false, 0, []⟩

/-- The resolvers change no chain. -/
def Steady (env : ε) (chains : List (Chain ε)) : Prop :=
  ∀ c ∈ chains, ∀ link ∈ c.links, ∀ name, (link.respond env name).Steady

/-- Looks names up one after the other. -/
def lookupEach (env : ε) : List (ChainId × String) → LookupM ε (List Answer)
  | [] => return []
  | (id, name) :: rest => do
    let answer ← lookup env id name
    return answer :: (← lookupEach env rest)

/-! ## Two runs -/

/-- The two states differ at most in what was done before. -/
structure SameThread (s s' : Lookups ε) : Prop extends SameCount s s' where
  chains : s'.chains = s.chains

namespace SameThread

variable (h : s.SameThread s')

include h

theorem chain? (chain : ChainId) : s'.chain? chain = s.chain? chain := by
  rw [Lookups.chain?, Lookups.chain?, h.chains]

theorem limit (chain : ChainId) : s'.limit chain = s.limit chain := by
  rw [Lookups.limit, Lookups.limit, h.chain?]

theorem greatestLimit : s'.greatestLimit = s.greatestLimit := by
  rw [Lookups.greatestLimit, Lookups.greatestLimit, h.chains]

theorem setChain (chain : ChainId) (c : Chain ε) :
    (s.setChain chain c).SameThread (s'.setChain chain c) :=
  ⟨⟨h.depth, h.refused⟩, by rw [Lookups.setChain, Lookups.setChain, h.chains]⟩

theorem called : s.called.SameThread s'.called := by
  unfold Lookups.called
  rw [h.depth]
  split
  · exact ⟨⟨rfl, rfl⟩, h.chains⟩
  · exact h

theorem leave (name : String) (answer : Answer) :
    (depthGuard.leave id name answer s').1 = (depthGuard.leave id name answer s).1 ∧
      (depthGuard.leave id name answer s).2.SameThread (depthGuard.leave id name answer s').2 := by
  simp only [depthGuard, h.depth, h.refused, h.limit]
  split
  · exact ⟨rfl, ⟨rfl, rfl⟩, h.chains⟩
  · exact ⟨rfl, ⟨rfl, rfl⟩, h.chains⟩

end SameThread

/-- The work leaves as many lookups active as it found, and what it does depends on the chains and
the counts only. -/
structure Blind (work : LookupM ε α) : Prop where
  depth : ∀ s, (work.run s).2.depth = s.depth
  same : ∀ {s s'}, s.SameThread s' →
    (work.run s').1 = (work.run s).1 ∧ (work.run s).2.SameThread (work.run s').2

namespace Blind

variable {work : LookupM ε α}

theorem pure (a : α) : Blind (pure a : LookupM ε α) := ⟨fun _ => rfl, fun h => ⟨rfl, h⟩⟩

theorem bind {next : α → LookupM ε β} (h : Blind work) (hnext : ∀ a, Blind (next a)) :
    Blind (work >>= next) where
  depth s := ((hnext _).depth _).trans (h.depth s)
  same := by
    intro s s' hs
    obtain ⟨hanswer, hstate⟩ := h.same hs
    show ((next (work.run s').1).run (work.run s').2).1 =
        ((next (work.run s).1).run (work.run s).2).1 ∧
      ((next (work.run s).1).run (work.run s).2).2.SameThread
        ((next (work.run s').1).run (work.run s').2).2
    rw [hanswer]
    exact (hnext _).same hstate

theorem read {next : Lookups ε → LookupM ε α}
    (reads : ∀ {s s'}, s.SameThread s' → next s' = next s) (hnext : ∀ s, Blind (next s)) :
    Blind (get >>= next) where
  depth s := (hnext s).depth s
  same := by
    intro s s' hs
    show ((next s').run s').1 = ((next s).run s).1 ∧
      ((next s).run s).2.SameThread ((next s').run s').2
    rw [reads hs]
    exact (hnext s).same hs

theorem register (chain : ChainId) (quiet : Bool) (respond : Resolver ε) :
    Blind (register chain quiet respond) where
  depth s := (register_count chain quiet respond s).depth
  same := by
    intro s s' h
    rw [run_register, run_register, h.chain?]
    cases s.chain? chain with
    | none => exact ⟨rfl, h⟩
    | some c => exact ⟨rfl, h.setChain chain _⟩

theorem unregister (chain : ChainId) (resolver : ResolverId) :
    Blind (unregister (ε := ε) chain resolver) where
  depth s := (unregister_count chain resolver s).depth
  same := by
    intro s s' h
    rw [run_unregister, run_unregister, h.chain?]
    cases s.chain? chain with
    | none => exact ⟨rfl, h⟩
    | some c => exact ⟨rfl, h.setChain chain _⟩

theorem begin : Blind (begin (ε := ε)) :=
  ⟨called_depth, fun h => ⟨rfl, h.called⟩⟩

theorem takeTime (ms : Nat) :
    Blind (modify fun s => { s with clock := s.clock + ms } : LookupM ε Unit) :=
  ⟨fun _ => rfl, fun h => ⟨rfl, ⟨h.depth, h.refused⟩, h.chains⟩⟩

theorem note (call : Call) :
    Blind (modify fun s => { s with calls := s.calls ++ [call] } : LookupM ε Unit) :=
  ⟨fun _ => rfl, fun h => ⟨rfl, ⟨h.depth, h.refused⟩, h.chains⟩⟩

theorem refuse (id : ChainId) (name : String) : Blind (refuse (ε := ε) id name) where
  depth _ := rfl
  same := by
    intro s s' h
    refine ⟨?_, ⟨h.depth, rfl⟩, h.chains⟩
    show (.error (.tooDeep name (s'.limit id)) : Answer) = .error (.tooDeep name (s.limit id))
    rw [h.limit]

theorem nested {run : LookupM ε Answer} (h : Blind run) (id : ChainId) (name : String) :
    Blind (nested id name run) := by
  have hrun : ∀ s, (Lookups.nested id name run).run s =
      depthGuard.leave id name (run.run { s with depth := s.depth + 1 }).1
        (run.run { s with depth := s.depth + 1 }).2 := fun s => run_nested name rfl
  refine ⟨fun s => ?_, fun {s s'} hs => ?_⟩
  · rw [hrun, leave_depth, h.depth]
    rfl
  · have hentered : SameThread { s with depth := s.depth + 1 } { s' with depth := s'.depth + 1 } :=
      ⟨⟨congrArg (· + 1) hs.depth, hs.refused⟩, hs.chains⟩
    obtain ⟨hanswer, hstate⟩ := h.same hentered
    rw [hrun, hrun, hanswer]
    exact hstate.leave name _

theorem composes : Composes (ε := ε) fun work _ => Blind work where
  pure := .pure
  bind := .bind
  register := .register
  unregister := .unregister
  pause := .takeTime
  note := .note

end Blind

theorem consult_blind {ask : ChainId → String → LookupM ε Answer}
    (blind : ∀ id name, Blind (ask id name)) (id : ChainId) (name : String)
    (links : List (Link ε)) : Blind (consult ask env id name links) :=
  @Composes.consult _ _ Blind.composes ask ask blind env id name links

theorem lookupWithin_blind (levels : Nat) (id : ChainId) (name : String) :
    Blind (lookupWithin env levels id name) := by
  induction levels generalizing id name with
  | zero =>
    refine Blind.begin.bind fun _ => .read (fun h => by rw [h.chain?]) fun s => ?_
    cases s.chain? id with
    | none => exact .pure _
    | some _ => exact .refuse id name
  | succ levels ih =>
    refine Blind.begin.bind fun _ => .read (fun h => by rw [h.chain?]) fun s => ?_
    cases s.chain? id with
    | none => exact .pure _
    | some c =>
      refine .read (fun h => by rw [h.depth]) fun s => ?_
      split
      · exact .refuse id name
      · exact (consult_blind ih id name c.links).nested id name

theorem lookup_blind (id : ChainId) (name : String) : Blind (lookup env id name) :=
  .read (fun h => by rw [h.greatestLimit, h.depth]) fun _ => lookupWithin_blind _ id name

/-! ## Outermost lookups -/

theorem called_called (s : Lookups ε) : s.called.called = s.called := by
  unfold called
  split <;> rfl

theorem called_limits (s : Lookups ε) : s.called.greatestLimit = s.greatestLimit := by
  rw [greatestLimit, greatestLimit, called_chains]

theorem run_called (s : Lookups ε) (id : ChainId) (name : String) :
    (lookup env id name).run s.called = (lookup env id name).run s := by
  have hwithin : ∀ levels, (lookupWithin env levels id name).run s.called =
      (lookupWithin env levels id name).run s := by
    have hbegin : ∀ (next : Unit → LookupM ε Answer) (t : Lookups ε),
        (begin >>= next).run t = (next ()).run t.called := fun _ _ => rfl
    rintro (_ | levels)
    · rw [lookupWithin, hbegin, hbegin, called_called]
    · rw [lookupWithin, hbegin, hbegin, called_called]
  show (lookupWithin env (s.called.greatestLimit - s.called.depth) id name).run s.called =
    (lookupWithin env (s.greatestLimit - s.depth) id name).run s
  rw [hwithin, called_limits, called_depth]

/-- With no lookup active, the answer and the chains afterwards are those on a new thread, and no
lookup is active afterwards. -/
theorem run_idle (idle : s.depth = 0) (id : ChainId) (name : String) :
    ((lookup env id name).run s).1 = ((lookup env id name).run (fresh s.chains)).1 ∧
      ((lookup env id name).run s).2.chains =
        ((lookup env id name).run (fresh s.chains)).2.chains ∧
      ((lookup env id name).run s).2.depth = 0 := by
  have hfresh : (fresh s.chains).SameThread s.called := by
    unfold called
    rw [if_pos idle]
    exact ⟨⟨idle, rfl⟩, rfl⟩
  obtain ⟨hanswer, hstate⟩ := (@lookup_blind _ env id name).same hfresh
  rw [run_called] at hanswer hstate
  exact ⟨hanswer, hstate.chains, ((lookup_blind id name).depth s).trans idle⟩

/-! ## Steady resolvers -/

/-- The work leaves these chains as they are. -/
def Spares (chains : List (Chain ε)) (work : LookupM ε α) : Prop :=
  ∀ s : Lookups ε, s.chains = chains → (work.run s).2.chains = chains

theorem Spares.bind {chains : List (Chain ε)} {work : LookupM ε α} {next : α → LookupM ε β}
    (h : Spares chains work) (hnext : ∀ a, Spares chains (next a)) :
    Spares chains (work >>= next) := fun s hs => hnext _ _ (h s hs)

section Steady

variable {chains : List (Chain ε)} {ask : ChainId → String → LookupM ε Answer}
  (spares : ∀ id name, Spares chains (ask id name))

include spares

theorem program_spares {p : Program ε} (steady : p.Steady) : Spares chains (p.run ask) := by
  induction p with
  | reply reply => exact fun _ hs => hs
  | lookup chain name next ih => exact (spares chain name).bind fun answer => ih _ (steady answer)
  | register | unregister => exact steady.elim
  | pause ms next ih => exact fun s hs => ih steady _ hs

theorem consult_spares {links : List (Link ε)}
    (steady : ∀ link ∈ links, ∀ name, (link.respond env name).Steady) (id : ChainId)
    (name : String) : Spares chains (consult ask env id name links) := by
  induction links with
  | nil => exact fun _ hs => hs
  | cons link rest ih =>
    obtain ⟨hlink, hrest⟩ := List.forall_mem_cons.1 steady
    have hreply : Spares chains ((link.respond env name).run ask) :=
      program_spares spares (hlink name)
    refine Spares.bind (fun _ hs => hs) fun _ => hreply.bind fun reply => ?_
    match reply with
    | .ok (some v) => exact fun _ hs => hs
    | .ok none => exact ih hrest
    | .error fault => exact fun _ hs => hs

end Steady

theorem lookupWithin_spares {chains : List (Chain ε)} (steady : Steady env chains) (levels : Nat)
    (id : ChainId) (name : String) : Spares chains (lookupWithin env levels id name) := by
  induction levels generalizing id name with
  | zero =>
    intro s hs
    cases hc : s.chain? id with
    | none =>
      rw [run_lookupWithin_unknown hc]
      exact (called_chains s).trans hs
    | some c =>
      rw [run_lookupWithin_zero hc]
      exact (called_chains s).trans hs
  | succ levels ih =>
    intro s hs
    cases hc : s.chain? id with
    | none =>
      rw [run_lookupWithin_unknown hc]
      exact (called_chains s).trans hs
    | some c =>
      rw [run_lookupWithin_succ hc]
      split
      · exact (called_chains s).trans hs
      · have hmem : c ∈ chains := by
          rw [← hs]
          exact List.mem_of_getElem? hc
        rw [leave_chains]
        exact consult_spares ih (steady c hmem) id name _ ((called_chains s).trans hs)

/-! ## Lookups in sequence -/

theorem run_lookupEach_cons (s : Lookups ε) (id : ChainId) (name : String)
    (rest : List (ChainId × String)) :
    (lookupEach env ((id, name) :: rest)).run s =
      (((lookup env id name).run s).1 ::
          ((lookupEach env rest).run ((lookup env id name).run s).2).1,
        ((lookupEach env rest).run ((lookup env id name).run s).2).2) := rfl

theorem lookupEach_idle (idle : s.depth = 0) (asks : List (ChainId × String)) :
    ((lookupEach env asks).run s).2.depth = 0 := by
  induction asks generalizing s with
  | nil => exact idle
  | cons ask rest ih => exact ih (run_idle idle ask.1 ask.2).2.2

theorem lookupEach_concat (s : Lookups ε) (before : List (ChainId × String)) (id : ChainId)
    (name : String) :
    ((lookupEach env (before ++ [(id, name)])).run s).1 =
      ((lookupEach env before).run s).1 ++
        [((lookup env id name).run ((lookupEach env before).run s).2).1] := by
  induction before generalizing s with
  | nil => rfl
  | cons ask rest ih =>
    obtain ⟨first, other⟩ := ask
    rw [List.cons_append, run_lookupEach_cons, run_lookupEach_cons, ih]
    rfl

theorem lookupEach_steady (steady : Steady env s.chains) (idle : s.depth = 0)
    (asks : List (ChainId × String)) :
    ((lookupEach env asks).run s).1 =
      asks.map fun ask => ((lookup env ask.1 ask.2).run (fresh s.chains)).1 := by
  induction asks generalizing s with
  | nil => rfl
  | cons ask rest ih =>
    obtain ⟨id, name⟩ := ask
    obtain ⟨hanswer, -, hidle⟩ := @run_idle _ env _ idle id name
    have hchains : ((lookup env id name).run s).2.chains = s.chains :=
      lookupWithin_spares steady _ id name s rfl
    rw [run_lookupEach_cons, ih (by rw [hchains]; exact steady) hidle, hanswer, hchains]
    rfl

/-- Lookups one after the other answer as on new threads, and none of them stays active. -/
structure Isolated (env : ε) (s : Lookups ε) (asks : List (ChainId × String)) : Prop where
  idle : ∀ before, before <+: asks → ((lookupEach env before).run s).2.depth = 0
  /-- A new thread has the chains of the moment, which may have come to others since the start. -/
  next : ∀ before id name, before ++ [(id, name)] <+: asks →
    ((lookupEach env (before ++ [(id, name)])).run s).1 = ((lookupEach env before).run s).1 ++
      [((lookup env id name).run (fresh ((lookupEach env before).run s).2.chains)).1]
  steady : Steady env s.chains → ((lookupEach env asks).run s).1 =
    asks.map fun ask => ((lookup env ask.1 ask.2).run (fresh s.chains)).1

/-- Each outermost lookup answers as if it were the first one, even after lookups that failed or
were refused. -/
theorem lookups_are_isolated (idle : s.depth = 0) (asks : List (ChainId × String)) :
    Isolated env s asks where
  idle before _ := lookupEach_idle idle before
  next before id name _ := by
    rw [lookupEach_concat, (run_idle (lookupEach_idle idle before) id name).1]
  steady h := lookupEach_steady h idle asks

/-- A chain that refuses everything, one that looks each name up in itself and takes failures for
nothing, one that fails after it has looked in an empty chain, and that chain. -/
def assorted : Lookups Unit :=
  fresh [⟨0, 0, []⟩, ⟨2, 1, [⟨⟨0⟩, false, fun _ name => .forwardOr ⟨1⟩ name none⟩]⟩,
    ⟨3, 1, [⟨⟨0⟩, false, fun _ name => .lookup ⟨3⟩ name fun _ => .fail (.unresolved "gone")⟩]⟩,
    ⟨5, 0, []⟩]

theorem assorted_is_isolated :
    assorted.depth = 0 ∧ Steady () assorted.chains ∧
      Isolated () assorted [(⟨0⟩, "a"), (⟨1⟩, "b"), (⟨2⟩, "c"), (⟨3⟩, "d"), (⟨0⟩, "a")] ∧
      ((lookupEach () [(⟨0⟩, "a"), (⟨1⟩, "b"), (⟨2⟩, "c"), (⟨3⟩, "d"), (⟨0⟩, "a")]).run
          assorted).1 =
        [.error (.tooDeep "a" 0), .error (.tooDeep "b" 2), .error (.unresolved "gone"),
          .error (.unresolved "d"), .error (.tooDeep "a" 0)] := by
  have steady : Steady () assorted.chains := by
    simp only [Steady, assorted, fresh, List.forall_mem_cons, Program.Steady, Program.forwardOr,
      Program.fail]
    refine ⟨by simp, ⟨?_, by simp⟩, ⟨by simp, by simp⟩, by simp, by simp⟩
    rintro name (fault | v)
    · trivial
    · trivial
  exact ⟨rfl, steady, lookups_are_isolated rfl _, rfl⟩

end Lookups

end TypeCatalog
