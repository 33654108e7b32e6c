import TypeCatalog.Proofs.Arrivals

/-!
# The limit on nesting

Resolvers may look names up from inside a lookup, and these lookups may ask the same resolvers. The
guard on depth lets no more lookups be active than the limit of the chain. It shows in the answer of
the outermost lookup if and only if some lookup was refused, and nothing that the resolvers make of
a refusal can hide it.
-/

namespace TypeCatalog.Lookups

variable {ε : Type} {env : ε} {id : ChainId} {limit : Nat}

/-! ## Machines in one chain -/

def Task.Stays (env : ε) (id : ChainId) : Task ε → Prop
  | .ask chain _ => chain = id
  | .consult chain _ links => chain = id ∧ Link.Stay env id links
  | .work chain _ rest program => chain = id ∧ Link.Stay env id rest ∧ program.Stays env id
  | .answer _ => True

structure Frame.Stays (env : ε) (id : ChainId) (f : Frame ε) : Prop where
  chain : f.chain = id
  rest : Link.Stay env id f.rest
  next : ∀ answer, (f.next answer).Stays env id

namespace Machine

/-- Whatever the machine has still to do, it looks names up in no other chain. -/
structure Stays (env : ε) (id : ChainId) (limit : Nat) (m : Machine ε) : Prop where
  task : m.task.Stays env id
  frames : ∀ f ∈ m.frames, f.Stays env id
  ready : m.state.Ready env id limit

/-- The state counts the active lookups, and there are no more than the limit allows. -/
structure Counts (limit : Nat) (m : Machine ε) : Prop where
  depth : m.state.depth = m.names.length
  bounded : m.names.length ≤ limit

/-- A lookup is called while as many as the limit allows are active. -/
def Refuses (id : ChainId) (limit : Nat) (m : Machine ε) : Prop :=
  ∃ name, m.task = .ask id name ∧ m.names.length = limit

/-- What one step does to the active lookups and to what is counted. -/
inductive Move (id : ChainId) (limit : Nat) : Machine ε → Machine ε → Prop
  | refuse {name : String} {frames : List (Frame ε)} {s : Lookups ε}
      (full : limit ≤ frames.length) :
    Move id limit ⟨.ask id name, frames, s⟩
      ⟨.answer (.error (.tooDeep name limit)), frames, { s.called with refused := true }⟩
  | enter {name : String} {links : List (Link ε)} {frames : List (Frame ε)} {s : Lookups ε}
      (free : frames.length < limit) :
    Move id limit ⟨.ask id name, frames, s⟩
      ⟨.consult id name links, frames, { s.called with depth := s.depth + 1 }⟩
  | leave {m : Machine ε} (name : String) (answer : Answer)
      (names : m.names = name :: m.frames.map (·.name)) :
    Move id limit m (leaving depthGuard id name answer m.frames m.state)
  | go {m m' : Machine ε} (active : m.names ≠ []) (asks : ∀ name, m.task ≠ .ask id name)
      (names : m'.names = m.names) (count : m.state.SameCount m'.state) : Move id limit m m'
  | ended {answer : Answer} {s : Lookups ε} :
    Move id limit ⟨.answer answer, [], s⟩ ⟨.answer answer, [], s⟩

theorem step_spec {m : Machine ε} (stays : m.Stays env id limit) (counts : m.Counts limit) :
    (m.step depthGuard env).Stays env id limit ∧ Move id limit m (m.step depthGuard env) := by
  obtain ⟨task, frames, s⟩ := m
  obtain ⟨htask, hframes, hready⟩ := stays
  have hleaving : ∀ name answer, Stays env id limit (leaving depthGuard id name answer frames s) :=
    fun name answer => ⟨trivial, hframes, hready.congr (leave_chains name answer s)⟩
  cases task with
  | ask chain name =>
    obtain rfl : chain = id := htask
    have ⟨c, hc, hlimit, hstay⟩ := hready
    have hdepth : s.depth = frames.length := by simpa [names] using counts.depth
    by_cases hfull : c.limit ≤ s.depth
    · simp only [step, enter_full hc hfull, hlimit]
      exact ⟨⟨trivial, hframes, hready.congr (called_chains s)⟩, .refuse (by omega)⟩
    · simp only [step, enter_free hc hfull]
      exact ⟨⟨⟨rfl, hstay⟩, hframes, hready.congr (called_chains s)⟩, .enter (by omega)⟩
  | consult chain name links =>
    obtain ⟨rfl, hlinks⟩ := htask
    cases links with
    | nil => exact ⟨hleaving name _, .leave _ _ rfl⟩
    | cons link rest =>
      refine ⟨⟨⟨rfl, fun l hl => hlinks l (by simp [hl]), hlinks link (by simp) name⟩, hframes,
        hready.congr rfl⟩, .go (by simp [names]) (by simp) rfl ⟨rfl, rfl⟩⟩
  | work chain name rest program =>
    obtain ⟨rfl, hrest, hprogram⟩ := htask
    cases program with
    | reply reply =>
      cases reply with
      | error fault => exact ⟨hleaving name _, .leave _ _ rfl⟩
      | ok found =>
        cases found with
        | some v => exact ⟨hleaving name _, .leave _ _ rfl⟩
        | none =>
          exact ⟨⟨⟨rfl, hrest⟩, hframes, hready⟩, .go (by simp [names]) (by simp) rfl ⟨rfl, rfl⟩⟩
    | lookup other name' next =>
      obtain ⟨rfl, hnext⟩ := hprogram
      refine ⟨⟨rfl, ?_, hready⟩, .go (by simp [names]) (by simp) rfl ⟨rfl, rfl⟩⟩
      exact List.forall_mem_cons.2 ⟨⟨rfl, hrest, hnext⟩, hframes⟩
    | register other quiet respond next =>
      obtain ⟨hready', hcount⟩ := register_spec hready other quiet hprogram.1
      exact ⟨⟨⟨rfl, hrest, hprogram.2 _⟩, hframes, hready'⟩,
        .go (by simp [names]) (by simp) rfl hcount⟩
    | unregister other resolver next =>
      obtain ⟨hready', hcount⟩ := unregister_spec hready other resolver
      exact ⟨⟨⟨rfl, hrest, hprogram _⟩, hframes, hready'⟩,
        .go (by simp [names]) (by simp) rfl hcount⟩
    | pause ms next =>
      exact ⟨⟨⟨rfl, hrest, hprogram⟩, hframes, hready.congr rfl⟩,
        .go (by simp [names]) (by simp) rfl ⟨rfl, rfl⟩⟩
  | answer answer =>
    cases frames with
    | nil => exact ⟨⟨trivial, hframes, hready⟩, .ended⟩
    | cons f frames =>
      obtain ⟨hf, hrest⟩ := List.forall_mem_cons.1 hframes
      exact ⟨⟨⟨hf.chain, hf.rest, hf.next answer⟩, hrest, hready⟩,
        .go (by simp [names]) (by simp) rfl ⟨rfl, rfl⟩⟩

/-! ## No more lookups than the limit -/

theorem Move.counts {m m' : Machine ε} (move : Move id limit m m') (h : m.Counts limit) :
    m'.Counts limit := by
  obtain ⟨hdepth, hbounded⟩ := h
  cases move with
  | refuse full => exact ⟨(called_depth _).trans hdepth, hbounded⟩
  | enter free =>
    simp only [names] at hdepth
    refine ⟨by simp [names, hdepth], ?_⟩
    simp only [names, List.length_cons, List.length_map]
    omega
  | leave name answer names =>
    rw [names, List.length_cons] at hdepth hbounded
    refine ⟨?_, Nat.le_of_succ_le hbounded⟩
    rw [leaving, leave_depth, hdepth]
    rfl
  | go active asks names count => exact ⟨by rw [count.depth, names]; exact hdepth, by rwa [names]⟩
  | ended => exact ⟨hdepth, hbounded⟩

/-! ## A refusal shows in the end -/

/-- How far the lookup of `name` has come when `past` tells whether a lookup was refused before. -/
inductive Phase (id : ChainId) (name : String) (limit : Nat) (past : Prop) : Machine ε → Prop
  | start {s : Lookups ε} (fresh : ¬past) : Phase id name limit past ⟨.ask id name, [], s⟩
  | active {m : Machine ε} (outermost : m.names.getLast? = some name)
      (flag : m.state.refused = true ↔ past) : Phase id name limit past m
  | ended {answer : Answer} {s : Lookups ε} (shown : past → answer = .error (.tooDeep name limit)) :
    Phase id name limit past ⟨.answer answer, [], s⟩

theorem Move.phase {m m' : Machine ε} {name : String} {past : Prop} (move : Move id limit m m')
    (counts : m.Counts limit) (ready : m.state.Ready env id limit)
    (phase : Phase id name limit past m) :
    Phase id name limit (past ∨ m.Refuses id limit) m' := by
  obtain ⟨hdepth, hbounded⟩ := counts
  -- A step that is not a call leaves it at the refusals of the past.
  have later : (∀ n, m.task ≠ .ask id n) → (past ∨ m.Refuses id limit ↔ past) := by
    intro asks
    refine or_iff_left ?_
    rintro ⟨n, hask, -⟩
    exact asks n hask
  cases move with
  | @refuse n frames s full =>
    have hrefuses : Refuses id limit ⟨.ask id n, frames, s⟩ :=
      ⟨n, rfl, Nat.le_antisymm hbounded (by simpa [names] using full)⟩
    cases phase with
    | start fresh => exact .ended fun _ => rfl
    | active outermost flag => exact .active outermost (by simp [hrefuses])
  | @enter n links frames s free =>
    have hpasses : ¬Refuses id limit ⟨.ask id n, frames, s⟩ := by
      rintro ⟨-, -, hfull⟩
      simp only [names, List.length_map] at hfull
      omega
    cases phase with
    | start fresh =>
      have hidle : s.depth = 0 := hdepth
      refine .active rfl ?_
      simp [called, hidle, fresh, hpasses]
    | active outermost flag =>
      have hframes : frames ≠ [] := by
        rintro rfl
        cases outermost
      have hbusy : s.depth ≠ 0 := by
        rw [hdepth]
        simpa [names] using hframes
      refine .active ?_ ?_
      · simp only [names] at outermost ⊢
        rw [List.getLast?_cons, outermost]
        rfl
      · simp only [called, if_neg hbusy, hpasses, or_false]
        exact flag
  | leave n answer hnames =>
    have asks : ∀ n, m.task ≠ .ask id n := by
      intro n hask
      have hlength := congrArg List.length hnames
      simp [names, hask] at hlength
    cases phase with
    | start fresh => cases hnames
    | ended shown => cases hnames
    | active outermost flag =>
      rw [hnames] at outermost hdepth
      cases hframes : m.frames with
      | nil =>
        have hlast : m.state.depth ≤ 1 := by simp [hdepth, hframes]
        obtain rfl : n = name := by simpa [hframes] using outermost
        refine .ended ?_
        rw [later asks, leave_outermost hlast, ready.limit_eq]
        intro hpast
        rw [if_pos (flag.2 hpast)]
      | cons f frames =>
        have hinner : ¬m.state.depth ≤ 1 := by simp [hdepth, hframes]
        rw [leaving, leave_inner hinner]
        refine .active ?_ ?_
        · rw [hframes] at outermost
          simpa [names] using outermost
        · rw [later asks]
          exact flag
  | go active asks hnames count =>
    cases phase with
    | start fresh => exact absurd rfl active
    | ended shown => exact absurd rfl active
    | active outermost flag =>
      refine .active (by rw [hnames]; exact outermost) ?_
      rw [count.refused, later asks]
      exact flag
  | ended =>
    cases phase with
    | active outermost flag => cases outermost
    | ended shown =>
      refine .ended ?_
      rw [later (by simp)]
      exact shown

theorem Phase.calm {m : Machine ε} {name : String} {past : Prop}
    (phase : Phase id name limit past m) (fresh : ¬past) (active : m.names ≠ []) :
    m.state.refused = false := by
  cases phase with
  | start _ => exact absurd rfl active
  | active _ flag => simpa [fresh] using flag
  | ended _ => exact absurd rfl active

end Machine

/-! ## Without a refusal the guard does nothing -/

/-- The two states differ at most in what the guard on depth counts. -/
structure SameWork (s s' : Lookups ε) : Prop where
  chains : s'.chains = s.chains
  clock : s'.clock = s.clock
  calls : s'.calls = s.calls

namespace SameWork

variable {s s' : Lookups ε} (h : s.SameWork s')

include h

theorem chain? (chain : ChainId) : s'.chain? chain = s.chain? chain := by
  rw [Lookups.chain?, Lookups.chain?, h.chains]

theorem called : s.called.SameWork s' := by
  unfold Lookups.called
  split
  · exact ⟨h.chains, h.clock, h.calls⟩
  · exact h

theorem leave (name : String) (answer : Answer) :
    (depthGuard.leave id name answer s).2.SameWork s' := by
  by_cases hlast : s.depth ≤ 1
  · simp only [depthGuard, if_pos hlast]
    exact ⟨h.chains, h.clock, h.calls⟩
  · rw [leave_inner hlast]
    exact ⟨h.chains, h.clock, h.calls⟩

theorem setChain (chain : ChainId) (c : Chain ε) :
    (s.setChain chain c).SameWork (s'.setChain chain c) :=
  ⟨by rw [Lookups.setChain, Lookups.setChain, h.chains], h.clock, h.calls⟩

theorem register (chain : ChainId) (quiet : Bool) (respond : Resolver ε) :
    ∃ resolver t t', (Lookups.register chain quiet respond).run s = (resolver, t) ∧
      (Lookups.register chain quiet respond).run s' = (resolver, t') ∧ t.SameWork t' := by
  rw [run_register, run_register, h.chain?]
  cases s.chain? chain with
  | none => exact ⟨_, _, _, rfl, rfl, h⟩
  | some c => exact ⟨_, _, _, rfl, rfl, h.setChain chain _⟩

theorem unregister (chain : ChainId) (resolver : ResolverId) :
    ∃ found t t', (Lookups.unregister chain resolver).run s = (found, t) ∧
      (Lookups.unregister chain resolver).run s' = (found, t') ∧ t.SameWork t' := by
  rw [run_unregister, run_unregister, h.chain?]
  cases s.chain? chain with
  | none => exact ⟨_, _, _, rfl, rfl, h⟩
  | some c => exact ⟨_, _, _, rfl, rfl, h.setChain chain _⟩

end SameWork

namespace Machine

structure Agrees (m m' : Machine ε) : Prop where
  task : m'.task = m.task
  frames : m'.frames = m.frames
  state : m.state.SameWork m'.state

theorem step_agrees {m m' : Machine ε} (stays : m.Stays env id limit) (counts : m.Counts limit)
    (passes : ¬m.Refuses id limit) (calm : m.names ≠ [] → m.state.refused = false)
    (h : m.Agrees m') : (m.step depthGuard env).Agrees (m'.step unguarded env) := by
  obtain ⟨task, frames, s⟩ := m
  obtain ⟨task', frames', s'⟩ := m'
  obtain ⟨rfl, rfl, hs⟩ := h
  replace hs : s.SameWork s' := hs
  obtain ⟨htask, -, hready⟩ := stays
  have hleaving : s.refused = false → ∀ name answer,
      (leaving depthGuard id name answer frames' s).Agrees
        (leaving unguarded id name answer frames' s') := by
    intro hcalm name answer
    refine ⟨?_, rfl, hs.leave name answer⟩
    by_cases hlast : s.depth ≤ 1
    · simp [leaving, unguarded, leave_outermost hlast, hcalm]
    · simp [leaving, unguarded, leave_inner hlast]
  cases task' with
  | ask chain name =>
    obtain rfl : chain = id := htask
    obtain ⟨c, hc, hlimit, -⟩ := hready
    have hfree : ¬c.limit ≤ s.depth := by
      intro hfull
      refine passes ⟨name, rfl, Nat.le_antisymm counts.bounded ?_⟩
      rw [← hlimit, ← counts.depth]
      exact hfull
    have hc' : s'.chain? chain = some c := by
      rw [hs.chain?]
      exact hc
    simp only [step, enter_free hc hfree, unguarded, hc']
    exact ⟨rfl, rfl, hs.called.chains, hs.called.clock, hs.called.calls⟩
  | consult chain name links =>
    obtain ⟨rfl, -⟩ := htask
    have hcalm := calm (by simp [names])
    cases links with
    | nil => exact hleaving hcalm name _
    | cons link rest => exact ⟨rfl, rfl, hs.chains, hs.clock, by simp [step, hs.calls]⟩
  | work chain name rest program =>
    obtain ⟨rfl, -, -⟩ := htask
    have hcalm := calm (by simp [names])
    cases program with
    | reply reply =>
      cases reply with
      | error fault => exact hleaving hcalm name _
      | ok found =>
        cases found with
        | some v => exact hleaving hcalm name _
        | none => exact ⟨rfl, rfl, hs⟩
    | lookup other name' next => exact ⟨rfl, rfl, hs⟩
    | register other quiet respond next =>
      obtain ⟨r, t, t', hrun, hrun', ht⟩ := hs.register other quiet respond
      simp only [step, hrun, hrun']
      exact ⟨rfl, rfl, ht⟩
    | unregister other resolver next =>
      obtain ⟨r, t, t', hrun, hrun', ht⟩ := hs.unregister other resolver
      simp only [step, hrun, hrun']
      exact ⟨rfl, rfl, ht⟩
    | pause ms next => exact ⟨rfl, rfl, hs.chains, by simp [step, hs.clock], hs.calls⟩
  | answer answer =>
    cases frames' with
    | nil => exact ⟨rfl, rfl, hs⟩
    | cons f frames => exact ⟨rfl, rfl, hs⟩

end Machine

/-! ## Whole lookups -/

namespace Machine

/-- The machine on which `name` has just been looked up with no lookup active. -/
def calling (id : ChainId) (name : String) (s : Lookups ε) : Machine ε := ⟨.ask id name, [], s⟩

def moment (env : ε) (id : ChainId) (name : String) (s : Lookups ε) (steps : Nat) : Machine ε :=
  (calling id name s).after depthGuard env steps

theorem moment_succ (env : ε) (id : ChainId) (name : String) (s : Lookups ε) (steps : Nat) :
    moment env id name s (steps + 1) = (moment env id name s steps).step depthGuard env :=
  after_succ depthGuard env steps _

section Moments

variable {s : Lookups ε} (idle : s.depth = 0) (ready : s.Ready env id limit) (name : String)

include idle ready

theorem moment_spec (steps : Nat) :
    (moment env id name s steps).Stays env id limit ∧
      (moment env id name s steps).Counts limit ∧
        Phase id name limit (∃ k < steps, (moment env id name s k).Refuses id limit)
          (moment env id name s steps) := by
  induction steps with
  | zero =>
    refine ⟨⟨rfl, ?_, ready⟩, ⟨idle, Nat.zero_le _⟩, .start ?_⟩
    · intro f hf
      cases hf
    · rintro ⟨k, hk, -⟩
      omega
  | succ steps ih =>
    obtain ⟨hstays, hcounts, hphase⟩ := ih
    obtain ⟨hstays', hmove⟩ := step_spec hstays hcounts
    rw [moment_succ, Nat.exists_lt_succ_right]
    exact ⟨hstays', hmove.counts hcounts, hmove.phase hcounts hstays.ready hphase⟩

theorem moment_refuses {steps : Nat} {other : String}
    (asks : (moment env id name s steps).task = .ask id other)
    (full : (moment env id name s steps).names.length = limit) :
    moment env id name s (steps + 1) =
      ⟨.answer (.error (.tooDeep other limit)), (moment env id name s steps).frames,
        { (moment env id name s steps).state.called with refused := true }⟩ := by
  obtain ⟨hstays, hcounts, -⟩ := moment_spec idle ready name steps
  rw [moment_succ]
  generalize moment env id name s steps = m at *
  obtain ⟨task, frames, t⟩ := m
  obtain rfl : task = .ask id other := asks
  obtain ⟨c, hc, rfl, -⟩ := hstays.ready
  have hfull : c.limit ≤ t.depth := by rw [hcounts.depth, full]
  simp only [step, enter_full hc hfull]

theorem moment_agrees (never : ∀ k, ¬(moment env id name s k).Refuses id limit) (steps : Nat) :
    (moment env id name s steps).Agrees ((calling id name s).after unguarded env steps) := by
  induction steps with
  | zero => exact ⟨rfl, rfl, rfl, rfl, rfl⟩
  | succ steps ih =>
    obtain ⟨hstays, hcounts, hphase⟩ := moment_spec idle ready name steps
    have hfresh : ¬∃ k < steps, (moment env id name s k).Refuses id limit := by
      rintro ⟨k, -, hk⟩
      exact never k hk
    rw [moment_succ, after_succ]
    exact step_agrees hstays hcounts (never steps) (hphase.calm hfresh) ih

/-- If a lookup was refused, the one who called gets to know it. -/
theorem moment_shows {k steps : Nat} {answer : Answer} {s' : Lookups ε}
    (refused : (moment env id name s k).Refuses id limit)
    (ended : moment env id name s steps = ⟨.answer answer, [], s'⟩) :
    answer = .error (.tooDeep name limit) := by
  have hphase := (moment_spec idle ready name (k + 1 + steps)).2.2
  have hlater : moment env id name s (k + 1 + steps) = ⟨.answer answer, [], s'⟩ := by
    induction k + 1 with
    | zero => rw [Nat.zero_add]; exact ended
    | succ n ih => rw [Nat.add_right_comm, moment_succ, ih]; rfl
  rw [hlater] at hphase
  have hpast : ∃ j < k + 1 + steps, (moment env id name s j).Refuses id limit :=
    ⟨k, by omega, refused⟩
  cases hphase with
  | active outermost _ => cases outermost
  | ended shown => exact shown hpast

end Moments

end Machine

open Machine in
/-- What the guard on depth makes of a lookup of `name` that comes to `r`. -/
structure Guarded (env : ε) (id : ChainId) (limit : Nat) (name : String) (s : Lookups ε)
    (r : Answer × Lookups ε) : Prop where
  halts : (calling id name s).Leads depthGuard env ⟨.answer r.1, [], r.2⟩
  bounded : ∀ k, (moment env id name s k).names.length ≤ limit
  refuses : ∀ k other, (moment env id name s k).task = .ask id other →
    (moment env id name s k).names.length = limit →
      (moment env id name s (k + 1)).task = .answer (.error (.tooDeep other limit)) ∧
        (moment env id name s (k + 1)).frames = (moment env id name s k).frames ∧
          (moment env id name s (k + 1)).state.calls = (moment env id name s k).state.calls
  shows : (∃ k, (moment env id name s k).Refuses id limit) → r.1 = .error (.tooDeep name limit)
  transparent : (∀ k, ¬(moment env id name s k).Refuses id limit) →
    ∃ s', (calling id name s).Leads unguarded env ⟨.answer r.1, [], s'⟩ ∧ r.2.SameWork s'

/-- Whatever its resolvers do, a lookup comes to an end, never has more lookups active than the
limit of its chain, and tells of a refusal if there was one. Without one it answers as if there were
no limit. -/
theorem lookup_guarded {s : Lookups ε} {c : Chain ε} (found : s.chain? id = some c)
    (stay : Link.Stay env id c.links) (idle : s.depth = 0) (name : String) :
    Guarded env id c.limit name s ((lookup env id name).run s) := by
  have ready : s.Ready env id c.limit := ⟨c, found, rfl, stay⟩
  obtain ⟨steps, hover⟩ := (lookup_arrives s id name []).leads
  have hmoment : Machine.moment env id name s steps =
      ⟨.answer ((lookup env id name).run s).1, [], ((lookup env id name).run s).2⟩ := hover
  constructor
  case halts => exact ⟨steps, hover⟩
  case bounded => exact fun k => (Machine.moment_spec idle ready name k).2.1.bounded
  case refuses =>
    intro k other asks full
    rw [Machine.moment_refuses idle ready name asks full]
    refine ⟨rfl, rfl, ?_⟩
    simp only [called]
    split
    · rfl
    · rfl
  case shows =>
    rintro ⟨k, hk⟩
    exact Machine.moment_shows idle ready name hk hmoment
  case transparent =>
    intro never
    have hagrees := Machine.moment_agrees idle ready name never steps
    obtain ⟨m, hm⟩ : ∃ m, (Machine.calling id name s).after unguarded env steps = m := ⟨_, rfl⟩
    rw [hmoment, hm] at hagrees
    obtain ⟨task, frames, t⟩ := m
    obtain ⟨rfl, rfl, hwork⟩ := hagrees
    exact ⟨t, ⟨steps, hm⟩, hwork⟩

/-- A chain with limit 3 and a resolver that looks its own name up and takes every failure for
nothing. -/
def stubborn : Lookups Unit :=
  ⟨[⟨3, 1, [⟨⟨0⟩, false, fun _ name => .forwardOr ⟨0⟩ name none⟩]⟩], 0, false, 0, []⟩

theorem stubborn_is_told :
    ((lookup () ⟨0⟩ "deep").run stubborn).1 = .error (.tooDeep "deep" 3) ∧
      Guarded () ⟨0⟩ 3 "deep" stubborn ((lookup () ⟨0⟩ "deep").run stubborn) := by
  refine ⟨rfl, lookup_guarded (c := ⟨3, 1, _⟩) rfl ?_ rfl "deep"⟩
  intro link hlink name
  rw [List.mem_singleton.1 hlink]
  refine ⟨rfl, ?_⟩
  rintro (fault | v)
  · trivial
  · trivial

end TypeCatalog.Lookups
