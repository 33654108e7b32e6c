import TypeCatalog.Proofs.Levels

/-!
# What is registered

A chain has the resolvers that were registered in it and not taken out since, in the order in which
they were registered. Their numbers grow, so none is given twice, and what is taken out is the one
resolver of its number.
-/

namespace TypeCatalog.Lookups

variable {ε : Type} {env : ε} {id : ChainId}

/-! ## Taking out -/

/-- What becomes of links when one is taken out by its number, and whether it was there. -/
inductive Removes (resolver : ResolverId) : List (Link ε) → Bool → List (Link ε) → Prop
  | found {before after : List (Link ε)} {link : Link ε} (number : link.id = resolver) :
    Removes resolver (before ++ link :: after) true (before ++ after)
  | absent {links : List (Link ε)} (missing : ∀ link ∈ links, link.id ≠ resolver) :
    Removes resolver links false links

/-- The numbers of the links grow. -/
def Ordered (links : List (Link ε)) : Prop := links.Pairwise fun a b => a.id.index < b.id.index

theorem unregister_removes {c : Chain ε} (ordered : Ordered c.links) (resolver : ResolverId) :
    Removes resolver c.links (c.unregister resolver).1 (c.unregister resolver).2.links := by
  have hkeep : ∀ links : List (Link ε), (∀ link ∈ links, link.id ≠ resolver) →
      links.filter (·.id ≠ resolver) = links := by
    intro links hlinks
    exact List.filter_eq_self.2 fun link hlink => decide_eq_true (hlinks link hlink)
  by_cases hfound : ∃ link ∈ c.links, link.id = resolver
  case neg =>
    have hmissing : ∀ link ∈ c.links, link.id ≠ resolver :=
      fun link hlink hid => hfound ⟨link, hlink, hid⟩
    have hrest := hkeep _ hmissing
    simp only [Chain.unregister, hrest, ne_eq, not_true_eq_false, decide_false]
    exact .absent hmissing
  case pos =>
    obtain ⟨link, hlink, rfl⟩ := hfound
    obtain ⟨before, after, hlinks⟩ := List.append_of_mem hlink
    -- The numbers before the link are smaller and those after it are greater.
    rw [Ordered, hlinks, List.pairwise_append, List.pairwise_cons] at ordered
    obtain ⟨-, ⟨hafter, -⟩, hbefore⟩ := ordered
    have hrest : c.links.filter (·.id ≠ link.id) = before ++ after := by
      rw [hlinks, List.filter_append, List.filter_cons_of_neg (by simp),
        hkeep before fun l hl hid => ?_, hkeep after fun l hl hid => ?_]
      · exact absurd (hafter l hl) (by simp [hid])
      · exact absurd (hbefore l hl link (by simp)) (by simp [hid])
    have htold : (before ++ after).length ≠ (before ++ link :: after).length := by simp
    simp only [Chain.unregister, hrest]
    rw [hlinks, decide_eq_true htold]
    exact .found rfl

/-! ## One step -/

/-- What a task makes of a chain. -/
def Task.change (id : ChainId) : Task ε → Chain ε → Chain ε
  | .work _ _ _ (.register chain quiet respond _), c =>
    if chain = id then (c.register quiet respond).2 else c
  | .work _ _ _ (.unregister chain resolver _), c =>
    if chain = id then (c.unregister resolver).2 else c
  | _, c => c

section Change

variable {s : Lookups ε} {chain : ChainId}

theorem chain?_set {c : Chain ε} (hc : s.chain? chain = some c) (f : Chain ε → Chain ε)
    (id : ChainId) : (s.setChain chain (f c)).chain? id =
      (s.chain? id).map fun c => if chain = id then f c else c := by
  have hlt : chain.index < s.chains.length := (List.getElem?_eq_some_iff.1 hc).1
  rw [chain?_setChain]
  simp only [hlt, and_true]
  split
  case isTrue h => rw [← h, hc, Option.map_some]
  case isFalse => rw [Option.map_id']

theorem chain?_unset (hc : s.chain? chain = none) (f : Chain ε → Chain ε) (id : ChainId) :
    s.chain? id = (s.chain? id).map fun c => if chain = id then f c else c := by
  split
  case isTrue h => rw [← h, hc, Option.map_none]
  case isFalse => rw [Option.map_id']

end Change

/-- The task calls no lookup and changes no chain. -/
def Task.Plain : Task ε → Prop
  | .ask _ _ | .work _ _ _ (.register _ _ _ _) | .work _ _ _ (.unregister _ _ _) => False
  | _ => True

theorem Task.Plain.ne_ask {task : Task ε} (h : task.Plain) (id : ChainId) (name : String) :
    task ≠ .ask id name := by
  rintro rfl
  exact h

theorem Task.Plain.change {task : Task ε} (h : task.Plain) (id : ChainId) (c : Chain ε) :
    task.change id c = c := by
  cases task with
  | work _ _ _ program =>
    cases program with
    | register => cases h
    | unregister => cases h
    | _ => rfl
  | _ => rfl

namespace Machine

variable {m : Machine ε}

/-- What a step makes of the state. -/
inductive Effect : Machine ε → Lookups ε → Prop
  | unknown {id : ChainId} {name : String} {frames : List (Frame ε)} {s : Lookups ε}
      (missing : s.chain? id = none) : Effect ⟨.ask id name, frames, s⟩ s.called
  | refuse {id : ChainId} {name : String} {frames : List (Frame ε)} {s : Lookups ε} {c : Chain ε}
      (found : s.chain? id = some c) (full : c.limit ≤ s.depth) :
    Effect ⟨.ask id name, frames, s⟩ { s.called with refused := true }
  | enter {id : ChainId} {name : String} {frames : List (Frame ε)} {s : Lookups ε} {c : Chain ε}
      (found : s.chain? id = some c) (free : ¬c.limit ≤ s.depth) :
    Effect ⟨.ask id name, frames, s⟩ s.entered
  | leave {m : Machine ε} (plain : m.task.Plain) (id : ChainId) (name : String) (answer : Answer) :
    Effect m (depthGuard.leave id name answer m.state).2
  | register {own chain : ChainId} {name : String} {rest : List (Link ε)} {quiet : Bool}
      {respond : Resolver ε} {next : ResolverId → Program ε} {frames : List (Frame ε)}
      {s : Lookups ε} : Effect ⟨.work own name rest (.register chain quiet respond next), frames, s⟩
        ((register chain quiet respond).run s).2
  | unregister {own chain : ChainId} {name : String} {rest : List (Link ε)}
      {resolver : ResolverId} {next : Bool → Program ε} {frames : List (Frame ε)}
      {s : Lookups ε} : Effect ⟨.work own name rest (.unregister chain resolver next), frames, s⟩
        ((unregister chain resolver).run s).2
  | go {m : Machine ε} {s' : Lookups ε} (plain : m.task.Plain)
      (chains : s'.chains = m.state.chains) (count : m.state.SameCount s') : Effect m s'

theorem step_effect (m : Machine ε) : Effect m (m.step depthGuard env).state := by
  obtain ⟨task, frames, s⟩ := m
  cases task with
  | ask id name =>
    cases hc : s.chain? id with
    | none =>
      simp only [step, depthGuard, hc]
      exact .unknown hc
    | some c =>
      by_cases hfull : c.limit ≤ s.depth
      · simp only [step, enter_full hc hfull]
        exact .refuse hc hfull
      · simp only [step, enter_free hc hfull]
        exact .enter hc hfull
  | consult id name links =>
    cases links with
    | nil => exact .leave (by trivial) id name _
    | cons => exact .go trivial rfl ⟨rfl, rfl⟩
  | work id name rest program =>
    cases program with
    | reply reply =>
      cases reply with
      | error fault => exact .leave (by trivial) id name _
      | ok found =>
        cases found with
        | some v => exact .leave (by trivial) id name _
        | none => exact .go trivial rfl ⟨rfl, rfl⟩
    | lookup => exact .go trivial rfl ⟨rfl, rfl⟩
    | register => exact .register
    | unregister => exact .unregister
    | pause => exact .go trivial rfl ⟨rfl, rfl⟩
  | answer answer =>
    cases frames with
    | nil => exact .go trivial rfl ⟨rfl, rfl⟩
    | cons => exact .go trivial rfl ⟨rfl, rfl⟩

theorem Effect.chain? {s' : Lookups ε} (h : Effect m s') (id : ChainId) :
    s'.chain? id = (m.state.chain? id).map (m.task.change id) := by
  have hkept : (∀ c, m.task.change id c = c) → s'.chains = m.state.chains →
      s'.chain? id = (m.state.chain? id).map (m.task.change id) := by
    intro hchange hchains
    rw [funext hchange, Option.map_id', Lookups.chain?, Lookups.chain?, hchains]
  cases h with
  | unknown => exact hkept (fun _ => rfl) (called_chains _)
  | refuse => exact hkept (fun _ => rfl) (called_chains _)
  | enter => exact hkept (fun _ => rfl) (called_chains _)
  | leave plain own name answer => exact hkept (plain.change id) (leave_chains name answer _)
  | @register _ other _ _ quiet respond _ _ s =>
    rw [run_register]
    cases hc : s.chain? other with
    | none => exact chain?_unset hc (fun c => (c.register quiet respond).2) id
    | some c => exact chain?_set hc (fun c => (c.register quiet respond).2) id
  | @unregister _ other _ _ resolver _ _ s =>
    rw [run_unregister]
    cases hc : s.chain? other with
    | none => exact chain?_unset hc (fun c => (c.unregister resolver).2) id
    | some c => exact chain?_set hc (fun c => (c.unregister resolver).2) id
  | go plain chains => exact hkept (plain.change id) chains

/-- The machine is about to register the resolver of the link, and the call returns the number of
the link. -/
structure Registers (m : Machine ε) (id : ChainId) (link : Link ε) : Prop where
  task : ∃ chain name rest next,
    m.task = .work chain name rest (.register id link.quiet link.respond next)
  known : (m.state.chain? id).isSome
  number : ((register id link.quiet link.respond).run m.state).1 = link.id

/-- The machine is about to take the resolver of this number out of the chain. -/
def Unregisters (m : Machine ε) (id : ChainId) (resolver : ResolverId) : Prop :=
  ∃ chain name rest next, m.task = .work chain name rest (.unregister id resolver next)

theorem Registers.number_eq {c : Chain ε} {link : Link ε} (h : m.Registers id link)
    (hc : m.state.chain? id = some c) : link.id = ⟨c.nextId⟩ := by
  rw [← h.number, run_register, hc]
  rfl

/-- What a step makes of a chain. -/
inductive ChainMove (m : Machine ε) (id : ChainId) (c : Chain ε) : Chain ε → Prop
  | kept (registers : ∀ link, ¬m.Registers id link)
      (unregisters : ∀ resolver, ¬m.Unregisters id resolver) : ChainMove m id c c
  | registered {link : Link ε} (only : ∀ other, m.Registers id other ↔ other = link)
      (number : link.id = ⟨c.nextId⟩) (unregisters : ∀ resolver, ¬m.Unregisters id resolver) :
    ChainMove m id c { c with nextId := c.nextId + 1, links := c.links ++ [link] }
  | unregistered {resolver : ResolverId} (registers : ∀ link, ¬m.Registers id link)
      (only : ∀ other, m.Unregisters id other ↔ other = resolver) :
    ChainMove m id c { c with links := c.links.filter (·.id ≠ resolver) }

theorem change_move {c : Chain ε} (hc : m.state.chain? id = some c) :
    ChainMove m id c (m.task.change id c) := by
  obtain ⟨task, frames, s⟩ := m
  have hkept : (∀ chain name rest quiet respond next,
        task ≠ .work chain name rest (.register id quiet respond next)) →
      (∀ chain name rest resolver next,
        task ≠ .work chain name rest (.unregister id resolver next)) →
      ChainMove ⟨task, frames, s⟩ id c c := by
    intro hreg hun
    refine .kept ?_ ?_
    · rintro link ⟨⟨chain, name, rest, next, htask⟩, -, -⟩
      exact hreg chain name rest _ _ next htask
    · rintro resolver ⟨chain, name, rest, next, htask⟩
      exact hun chain name rest _ next htask
  cases task with
  | work chain name rest program =>
    cases program with
    | register other quiet respond next =>
      by_cases hother : other = id
      · subst hother
        have hnumber : ((register other quiet respond).run s).1 = ⟨c.nextId⟩ := by
          rw [run_register, hc]
          rfl
        rw [Task.change, if_pos rfl]
        refine @ChainMove.registered _ _ _ _ ⟨⟨c.nextId⟩, quiet, respond⟩ ?_ rfl ?_
        · rintro ⟨number, quiet', respond'⟩
          constructor
          · intro h
            obtain ⟨_, _, _, _, htask⟩ := h.task
            obtain rfl := h.number_eq hc
            cases htask
            rfl
          · rintro ⟨⟩
            exact ⟨⟨chain, name, rest, next, rfl⟩, by rw [hc]; rfl, hnumber⟩
        · rintro resolver ⟨_, _, _, _, htask⟩
          cases htask
      · rw [Task.change, if_neg hother]
        exact hkept (by simp [hother]) (by simp)
    | unregister other resolver next =>
      by_cases hother : other = id
      · subst hother
        rw [Task.change, if_pos rfl]
        refine .unregistered ?_ ?_
        · rintro link ⟨⟨_, _, _, _, htask⟩, -, -⟩
          cases htask
        · intro resolver'
          constructor
          · rintro ⟨_, _, _, _, htask⟩
            cases htask
            rfl
          · rintro rfl
            exact ⟨chain, name, rest, next, rfl⟩
      · rw [Task.change, if_neg hother]
        exact hkept (by simp) (by simp [hother])
    | _ => exact hkept (by simp) (by simp)
  | _ => exact hkept (by simp) (by simp)

end Machine

/-! ## The course of a program -/

/-- A thread with new chains, on which the program is run. -/
def opening (limits : List Nat) (p : Program ε) : Machine ε :=
  ⟨.work ⟨0⟩ "" [] p, [], ofLimits limits⟩

/-- The machine after so many steps of the program. -/
def course (env : ε) (limits : List Nat) (p : Program ε) (k : Nat) : Machine ε :=
  (opening limits p).after depthGuard env k

/-- The resolver of the link was registered at a moment before `k` and not taken out since. -/
def Standing (env : ε) (limits : List Nat) (p : Program ε) (id : ChainId) (k : Nat)
    (link : Link ε) : Prop :=
  ∃ j < k, (course env limits p j).Registers id link ∧
    ∀ i, j < i → i < k → ¬(course env limits p i).Unregisters id link.id

/-- What a chain holds at the moment `k`. -/
structure Recorded (env : ε) (limits : List Nat) (p : Program ε) (id : ChainId) (k : Nat)
    (c : Chain ε) : Prop where
  mem_iff : ∀ link, link ∈ c.links ↔ Standing env limits p id k link
  issued : ∀ j < k, ∀ link, (course env limits p j).Registers id link → link.id.index < c.nextId
  ordered : Ordered c.links

section Course

variable {limits : List Nat} {p : Program ε} {k : Nat}

theorem course_succ (k : Nat) :
    course env limits p (k + 1) = (course env limits p k).step depthGuard env :=
  Machine.after_succ depthGuard env k _

theorem standing_succ {link : Link ε} : Standing env limits p id (k + 1) link ↔
    (Standing env limits p id k link ∧ ¬(course env limits p k).Unregisters id link.id) ∨
      (course env limits p k).Registers id link := by
  constructor
  · rintro ⟨j, hj, hreg, hkept⟩
    rcases Nat.lt_succ_iff_lt_or_eq.1 hj with hlt | rfl
    · exact .inl ⟨⟨j, hlt, hreg, fun i hji hik => hkept i hji (by omega)⟩, hkept k hlt (by omega)⟩
    · exact .inr hreg
  · rintro (⟨⟨j, hj, hreg, hkept⟩, hlast⟩ | hreg)
    · refine ⟨j, by omega, hreg, fun i hji hik => ?_⟩
      rcases Nat.lt_succ_iff_lt_or_eq.1 hik with hlt | rfl
      · exact hkept i hji hlt
      · exact hlast
    · exact ⟨k, by omega, hreg, fun i hki hik => by omega⟩

theorem Recorded.index_lt {c : Chain ε} (h : Recorded env limits p id k c) {link : Link ε}
    (hlink : link ∈ c.links) : link.id.index < c.nextId := by
  obtain ⟨j, hj, hreg, -⟩ := (h.mem_iff link).1 hlink
  exact h.issued j hj link hreg

theorem Recorded.step {c c' : Chain ε} (h : Recorded env limits p id k c)
    (move : (course env limits p k).ChainMove id c c') :
    Recorded env limits p id (k + 1) c' := by
  have hbefore : ∀ {j}, j < k + 1 → (∀ link, ¬(course env limits p k).Registers id link) →
      ∀ link, (course env limits p j).Registers id link → j < k := by
    intro j hj hnone link hreg
    rcases Nat.lt_succ_iff_lt_or_eq.1 hj with hlt | rfl
    · exact hlt
    · exact absurd hreg (hnone link)
  cases move with
  | kept registers unregisters =>
    refine ⟨fun link => ?_, fun j hj link hreg => ?_, h.ordered⟩
    · simp only [standing_succ, registers, unregisters, h.mem_iff, not_false_eq_true, and_true,
        or_false]
    · exact h.issued j (hbefore hj registers link hreg) link hreg
  | @registered new only number unregisters =>
    refine ⟨fun link => ?_, fun j hj link hreg => ?_, ?_⟩
    · simp only [standing_succ, only, unregisters, ← h.mem_iff, not_false_eq_true, and_true,
        List.mem_append, List.mem_singleton]
    · rcases Nat.lt_succ_iff_lt_or_eq.1 hj with hlt | rfl
      · exact (h.issued j hlt link hreg).trans (Nat.lt_succ_self _)
      · rw [(only link).1 hreg, number]
        exact Nat.lt_succ_self _
    · refine List.pairwise_append.2 ⟨h.ordered, List.pairwise_singleton _ _, ?_⟩
      intro a ha b hb
      rw [List.mem_singleton.1 hb, number]
      exact h.index_lt ha
  | @unregistered resolver registers only =>
    refine ⟨fun link => ?_, fun j hj link hreg => ?_, h.ordered.filter _⟩
    · simp only [standing_succ, registers, only, ← h.mem_iff, or_false, List.mem_filter,
        decide_eq_true_eq]
    · exact h.issued j (hbefore hj registers link hreg) link hreg

theorem recorded {c : Chain ε} (hc : (course env limits p k).state.chain? id = some c) :
    Recorded env limits p id k c := by
  induction k generalizing c with
  | zero =>
    have hempty : (limits[id.index]?).map Chain.empty = some c := by
      rw [← List.getElem?_map]
      exact hc
    obtain ⟨limit, -, rfl⟩ := Option.map_eq_some_iff.1 hempty
    refine ⟨fun link => ⟨fun hlink => ?_, ?_⟩, fun j hj => by omega, List.Pairwise.nil⟩
    · cases hlink
    · rintro ⟨j, hj, -⟩
      omega
  | succ k ih =>
    rw [course_succ, (Machine.step_effect _).chain?] at hc
    obtain ⟨c₀, hc₀, rfl⟩ := Option.map_eq_some_iff.1 hc
    exact (ih hc₀).step (Machine.change_move hc₀)

theorem registers_grow {j : Nat} {a b : Link ε} (hlt : j < k)
    (ha : (course env limits p j).Registers id a) (hb : (course env limits p k).Registers id b) :
    a.id.index < b.id.index := by
  obtain ⟨c, hc⟩ := Option.isSome_iff_exists.1 hb.known
  rw [hb.number_eq hc]
  exact (recorded hc).issued j hlt a ha

/-- The links of a chain stand in the order in which they were registered. -/
theorem links_in_order {c : Chain ε} (hc : (course env limits p k).state.chain? id = some c) :
    c.links.Pairwise fun a b => ∃ i j, i < j ∧ (course env limits p i).Registers id a ∧
      (course env limits p j).Registers id b := by
  have hrecorded := recorded hc
  refine hrecorded.ordered.imp_of_mem fun {a b} ha hb hlt => ?_
  obtain ⟨i, -, hi, -⟩ := (hrecorded.mem_iff a).1 ha
  obtain ⟨j, -, hj, -⟩ := (hrecorded.mem_iff b).1 hb
  refine ⟨i, j, ?_, hi, hj⟩
  rcases Nat.lt_trichotomy i j with h | rfl | h
  · exact h
  · obtain ⟨c₀, hc₀⟩ := Option.isSome_iff_exists.1 hi.known
    rw [hi.number_eq hc₀, hj.number_eq hc₀] at hlt
    exact absurd hlt (Nat.lt_irrefl _)
  · exact absurd (hlt.trans (registers_grow h hj hi)) (Nat.lt_irrefl _)

theorem course_limit (k : Nat) (id : ChainId) :
    ((course env limits p k).state.chain? id).map (·.limit) = limits[id.index]? := by
  have hchange : ∀ (task : Task ε) (c : Chain ε), (task.change id c).limit = c.limit := by
    intro task c
    unfold Task.change
    split
    · split <;> rfl
    · split <;> rfl
    · rfl
  induction k with
  | zero =>
    show (((limits.map Chain.empty)[id.index]?).map (·.limit) : Option Nat) = _
    rw [List.getElem?_map, Option.map_map]
    exact Option.map_id'
  | succ k ih =>
    rw [course_succ, (Machine.step_effect _).chain?, Option.map_map, ← ih]
    exact congrArg (Option.map · _) (funext (hchange _))

end Course

end TypeCatalog.Lookups
