import TypeCatalog.Proofs.Nesting
import TypeCatalog.Proofs.Registrations

/-!
# The first answer wins

A lookup asks the resolvers that were registered when it started, one after the other, until one
replies with a value or a failure. What the resolvers register and take out meanwhile is for lookups
that start later.
-/

namespace TypeCatalog.Lookups

variable {ε : Type} {env : ε} {id : ChainId} {s t : Lookups ε} {name : String}

/-! ## Asking one after the other -/

/-- Resolvers are asked one after the other and give these replies. -/
inductive Asked (env : ε) (id : ChainId) (name : String) :
    Lookups ε → List (Link ε × Reply) → Lookups ε → Prop
  | done (s : Lookups ε) : Asked env id name s [] s
  | turn {s s' t : Lookups ε} {link : Link ε} {reply : Reply} {turns : List (Link ε × Reply)}
      (replies : ((link.respond env name).run (lookup env)).run (s.noted id name link) =
        (reply, s'))
      (later : Asked env id name s' turns t) : Asked env id name s ((link, reply) :: turns) t

/-- Of the links, those up to the first that replies with a value or a failure were asked, and this
is the answer. -/
inductive FirstWins (name : String) (links : List (Link ε)) :
    List (Link ε × Reply) → Answer → Prop
  | value {turns : List (Link ε × Reply)} {link : Link ε} {v : Value}
      (declined : ∀ turn ∈ turns, turn.2 = .ok none) (asked : turns.map (·.1) ++ [link] <+: links) :
    FirstWins name links (turns ++ [(link, .ok (some v))]) (.ok v)
  | failure {turns : List (Link ε × Reply)} {link : Link ε} {fault : LookupFault}
      (declined : ∀ turn ∈ turns, turn.2 = .ok none) (asked : turns.map (·.1) ++ [link] <+: links) :
    FirstWins name links (turns ++ [(link, .error fault)]) (.error fault)
  | nothing {turns : List (Link ε × Reply)} (declined : ∀ turn ∈ turns, turn.2 = .ok none)
      (asked : turns.map (·.1) = links) :
    FirstWins name links turns (.error (.unresolved name))

theorem FirstWins.cons {links : List (Link ε)} {turns : List (Link ε × Reply)} {answer : Answer}
    (h : FirstWins name links turns answer) (link : Link ε) :
    FirstWins name (link :: links) ((link, .ok none) :: turns) answer := by
  have hmore : ∀ {turns : List (Link ε × Reply)}, (∀ turn ∈ turns, turn.2 = .ok none) →
      ∀ turn ∈ (link, .ok none) :: turns, turn.2 = (.ok none : Reply) :=
    fun declined => List.forall_mem_cons.2 ⟨rfl, declined⟩
  cases h with
  | value declined asked =>
    exact .value (hmore declined) (List.cons_prefix_cons.2 ⟨rfl, asked⟩)
  | failure declined asked =>
    exact .failure (hmore declined) (List.cons_prefix_cons.2 ⟨rfl, asked⟩)
  | nothing declined asked => exact .nothing (hmore declined) (congrArg (link :: ·) asked)

theorem consult_first (links : List (Link ε)) (s : Lookups ε) :
    ∃ turns, Asked env id name s turns ((consult (lookup env) env id name links).run s).2 ∧
      FirstWins name links turns ((consult (lookup env) env id name links).run s).1 := by
  induction links generalizing s with
  | nil => exact ⟨[], .done s, .nothing (by simp) rfl⟩
  | cons link rest ih =>
    obtain ⟨⟨reply, s'⟩, hreply⟩ : ∃ r, ((link.respond env name).run (lookup env)).run
      (s.noted id name link) = r := ⟨_, rfl⟩
    rw [run_consult_cons, hreply]
    match reply with
    | .ok (some v) =>
      exact ⟨_, .turn hreply (.done s'), @FirstWins.value _ _ _ [] _ _ (by simp) (by simp)⟩
    | .error fault =>
      exact ⟨_, .turn hreply (.done s'), @FirstWins.failure _ _ _ [] _ _ (by simp) (by simp)⟩
    | .ok none =>
      obtain ⟨turns, hasked, hfirst⟩ := ih s'
      exact ⟨_, .turn hreply hasked, hfirst.cons link⟩

/-! ## Refusals -/

namespace Machine

variable {m : Machine ε}

/-- A lookup is called while as many are active as the chain allows. -/
def HitsLimit (m : Machine ε) : Prop :=
  ∃ id name c, m.task = .ask id name ∧ m.state.chain? id = some c ∧ c.limit ≤ m.state.depth

theorem hitsLimit_ask {frames : List (Frame ε)} {c : Chain ε} (hc : s.chain? id = some c) :
    HitsLimit ⟨.ask id name, frames, s⟩ ↔ c.limit ≤ s.depth := by
  constructor
  · rintro ⟨_, _, c', htask, hc', hfull⟩
    cases htask
    obtain rfl : c' = c := Option.some.inj (hc'.symm.trans hc)
    exact hfull
  · intro hfull
    exact ⟨id, name, c, rfl, hc, hfull⟩

theorem HitsLimit.step_depth (h : m.HitsLimit) :
    (m.step depthGuard env).state.depth = m.state.depth := by
  obtain ⟨task, frames, s⟩ := m
  obtain ⟨id, name, c, rfl, hc, hfull⟩ := h
  simp only [step, enter_full hc hfull]
  exact called_depth s

theorem Effect.refused {s' : Lookups ε} (h : Effect m s') (busy : m.state.depth ≠ 0)
    (busy' : s'.depth ≠ 0) : s'.refused = true ↔ m.state.refused = true ∨ m.HitsLimit := by
  have hsame : (∀ id name, m.task ≠ .ask id name) → s'.refused = m.state.refused →
      (s'.refused = true ↔ m.state.refused = true ∨ m.HitsLimit) := by
    intro hasks hrefused
    rw [hrefused, or_iff_left]
    rintro ⟨id, name, c, htask, -⟩
    exact hasks id name htask
  cases h with
  | @unknown id name frames s missing =>
    have hlimit : ¬HitsLimit ⟨.ask id name, frames, s⟩ := by
      rintro ⟨_, _, c, htask, hc, -⟩
      cases htask
      cases hc.symm.trans missing
    simp only [called, if_neg busy, hlimit, or_false]
  | refuse found full => simp only [hitsLimit_ask found, full, or_true]
  | @enter id name frames s c found free =>
    simp only [hitsLimit_ask found, free, or_false, entered, called, if_neg busy]
  | leave plain id name answer =>
    rw [leave_depth] at busy'
    refine hsame plain.ne_ask ?_
    rw [leave_inner (by omega)]
  | register => exact hsame (by simp) (register_count _ _ _ _).refused
  | unregister => exact hsame (by simp) (unregister_count _ _ _).refused
  | go plain _ count => exact hsame plain.ne_ask count.refused

end Machine

/-! ## From the call to the answer -/

section Course

variable {limits : List Nat} {p : Program ε} {k l : Nat}

theorem Machine.LeadsAbove.moments {floor : Nat} {m m' : Machine ε}
    (h : m.LeadsAbove env floor m') (hk : course env limits p k = m) :
    ∃ l, k ≤ l ∧ course env limits p l = m' ∧
      ∀ j, k ≤ j → j ≤ l → floor ≤ (course env limits p j).state.depth := by
  induction h generalizing k with
  | refl m above =>
    refine ⟨k, Nat.le_refl k, hk, fun j hkj hjk => ?_⟩
    obtain rfl := Nat.le_antisymm hkj hjk
    rw [hk]
    exact above
  | step above _ ih =>
    obtain ⟨l, hkl, hl, habove⟩ := ih (k := k + 1) (by rw [course_succ, hk])
    refine ⟨l, by omega, hl, fun j hkj hjl => ?_⟩
    rcases Nat.eq_or_lt_of_le hkj with rfl | hlt
    · rw [hk]
      exact above
    · exact habove j hlt hjl

theorem course_refused (hkl : k ≤ l)
    (busy : ∀ j, k ≤ j → j ≤ l → (course env limits p j).state.depth ≠ 0) :
    (course env limits p l).state.refused = true ↔
      (course env limits p k).state.refused = true ∨
        ∃ j < l, k ≤ j ∧ (course env limits p j).HitsLimit := by
  induction l, hkl using Nat.le_induction with
  | base =>
    rw [or_iff_left]
    rintro ⟨j, hjk, hkj, -⟩
    omega
  | succ l hkl ih =>
    have hstep := (@Machine.step_effect _ env (course env limits p l)).refused
      (busy l hkl (Nat.le_succ l))
      (by rw [← course_succ]; exact busy (l + 1) (by omega) (Nat.le_refl _))
    have hone : k ≤ l ∧ (course env limits p l).HitsLimit ↔ (course env limits p l).HitsLimit :=
      and_iff_right hkl
    rw [course_succ, hstep, ih fun j hkj hjl => busy j hkj (by omega), Nat.exists_lt_succ_right,
      hone, or_assoc]

section Free

/-! A lookup that is called at the moment `k` and let in. Its resolvers come to `answer` and leave
the state `t`. -/

variable {frames : List (Frame ε)} {c : Chain ε} {answer : Answer}
  (hc : s.chain? id = some c) (free : s.depth < c.limit)
  (hr : (consult (lookup env) env id name c.links).run s.entered = (answer, t))

include hr

theorem left_limits : s.entered.SameLimits t := by
  have hlimits := consult_balanced (@lookup_balanced _ env) env id name c.links s.entered
  simpa only [hr] using hlimits

include hc

theorem left_limit : t.limit id = c.limit := by
  have hentered : s.entered.chain? id = some c := by
    rw [← hc]
    exact called_chain? s id
  rw [(left_limits hr).limit_eq id, limit, hentered]
  rfl

include free

/-- It is left at a moment `l`, and remembers the refusals up to then. -/
theorem course_leaves (hk : course env limits p k = ⟨.ask id name, frames, s⟩) :
    ∃ l, k < l ∧ (∀ j, k < j → j < l → s.depth < (course env limits p j).state.depth) ∧
      course env limits p l = Machine.leaving depthGuard id name answer frames t ∧
      (t.refused = true ↔ s.entered.refused = true ∨
        ∃ j < l, k < j ∧ (course env limits p j).HitsLimit) := by
  have hdepth : t.depth = s.depth + 1 := (left_limits hr).depth
  have hstart : course env limits p (k + 1) = ⟨.consult id name c.links, frames, s.entered⟩ := by
    rw [course_succ, hk]
    simp only [Machine.step, enter_free hc (Nat.not_le.2 free)]
    rfl
  obtain ⟨last, hleads, hstate, hlast⟩ := consult_concludes
    (@answers _ env (s.depth + 1) s.greatestLimit) id name c.links frames (s := s.entered) rfl
    (entered_greatestLimit s)
  simp only [hr] at hstate hlast
  obtain ⟨l, hkl, hl, habove⟩ := hleads.moments hstart
  have hbusy : ∀ j, k + 1 ≤ j → j ≤ l → (course env limits p j).state.depth ≠ 0 :=
    fun j hkj hjl => Nat.ne_of_gt (Nat.lt_of_lt_of_le s.depth.succ_pos (habove j hkj hjl))
  have hflag := course_refused hkl hbusy
  rw [hstart, hl, hstate] at hflag
  refine ⟨l + 1, by omega, fun j hkj hjl => habove j hkj (by omega), ?_, ?_⟩
  · rw [course_succ, hl, hlast]
  -- The lookup is left by the step after `l`, so no lookup is refused at `l`.
  · have hpasses : ¬(k < l ∧ (course env limits p l).HitsLimit) := by
      rintro ⟨-, hhits⟩
      have hsame : ((course env limits p l).step depthGuard env).state.depth =
          (course env limits p l).state.depth := hhits.step_depth
      rw [hl, hlast, Machine.leaving, leave_depth, hstate] at hsame
      omega
    rw [Nat.exists_lt_succ_right, or_iff_left hpasses]
    exact hflag

end Free

/-- The lookup that was called at the moment `k` is outermost, and one inside it was refused before
the moment `l`. -/
def Told (env : ε) (limits : List Nat) (p : Program ε) (k l : Nat) : Prop :=
  (course env limits p k).state.depth = 0 ∧ ∃ j < l, k < j ∧ (course env limits p j).HitsLimit

/-- What becomes of a lookup from its call at the moment `k` to its answer at the moment `l`. -/
structure Answered (env : ε) (limits : List Nat) (p : Program ε) (k l : Nat) (id : ChainId)
    (name : String) (frames : List (Frame ε)) (s : Lookups ε) (c : Chain ε)
    (r : Answer × Lookups ε) : Prop where
  later : k < l
  active : ∀ j, k < j → j < l → s.depth < (course env limits p j).state.depth
  returned : course env limits p l = ⟨.answer r.1, frames, r.2⟩
  first : ∃ turns answer t, Asked env id name s.entered turns t ∧
    FirstWins name c.links turns answer ∧ r.2.SameWork t ∧
    (¬Told env limits p k l → r.1 = answer) ∧
    (Told env limits p k l → r.1 = .error (.tooDeep name c.limit))

theorem answered {frames : List (Frame ε)} {c : Chain ε}
    (hk : course env limits p k = ⟨.ask id name, frames, s⟩) (hc : s.chain? id = some c)
    (free : s.depth < c.limit) :
    ∃ l, Answered env limits p k l id name frames s c ((lookup env id name).run s) := by
  obtain ⟨⟨answer, t⟩, hr⟩ : ∃ r, (consult (lookup env) env id name c.links).run s.entered = r :=
    ⟨_, rfl⟩
  have hdepth : t.depth = s.depth + 1 := (left_limits hr).depth
  obtain ⟨turns, hasked, hfirst⟩ := @consult_first _ env id name c.links s.entered
  obtain ⟨l, hkl, hactive, hl, hrefused⟩ := course_leaves hc free hr hk
  rw [lookup_free hc name free]
  simp only [hr] at hasked hfirst ⊢
  have hwork : t.SameWork t := ⟨rfl, rfl, rfl⟩
  refine ⟨l, hkl, hactive, hl, turns, answer, t, hasked, hfirst, hwork.leave name answer, ?_⟩
  rw [Told, hk]
  by_cases houter : s.depth = 0
  case neg =>
    rw [leave_inner (by omega)]
    exact ⟨fun _ => rfl, fun htold => absurd htold.1 houter⟩
  case pos =>
    have hfresh : s.entered.refused = false := by
      simp only [entered, called, if_pos houter]
    simp only [hfresh, Bool.false_eq_true, false_or] at hrefused
    rw [leave_outermost (by omega), left_limit hc hr]
    refine ⟨fun htold => if_neg fun hhits => htold ⟨houter, hrefused.1 hhits⟩, fun htold => ?_⟩
    exact if_pos (hrefused.2 htold.2)

end Course

/-- How a program fares with its registrations and its lookups, whatever it and its resolvers
register, take out and look up. -/
structure Orderly (env : ε) (limits : List Nat) (p : Program ε) : Prop where
  ends : ∃ k, course env limits p k =
    ⟨.work ⟨0⟩ "" [] (.reply ((p.run (lookup env)).run (ofLimits limits)).1), [],
      ((p.run (lookup env)).run (ofLimits limits)).2⟩
  /-- There are these chains all along, and their limits stay. -/
  kept : ∀ k id, ((course env limits p k).state.chain? id).map (·.limit) = limits[id.index]?
  numbered : ∀ j k id a b, j < k → (course env limits p j).Registers id a →
    (course env limits p k).Registers id b → a.id.index < b.id.index
  standing : ∀ k id c, (course env limits p k).state.chain? id = some c →
    ∀ link, link ∈ c.links ↔ Standing env limits p id k link
  ordered : ∀ k id c, (course env limits p k).state.chain? id = some c →
    c.links.Pairwise fun a b => ∃ i j, i < j ∧ (course env limits p i).Registers id a ∧
      (course env limits p j).Registers id b
  removes : ∀ k own name rest id resolver next frames s c,
    course env limits p k = ⟨.work own name rest (.unregister id resolver next), frames, s⟩ →
    s.chain? id = some c → ∃ found links,
      course env limits p (k + 1) =
        ⟨.work own name rest (next found), frames, s.setChain id { c with links := links }⟩ ∧
      Removes resolver c.links found links
  answers : ∀ k id name frames s c, course env limits p k = ⟨.ask id name, frames, s⟩ →
    s.chain? id = some c → s.depth < c.limit →
    ∃ l, Answered env limits p k l id name frames s c ((lookup env id name).run s)

/-- A lookup that is let in asks the resolvers that stand at its call, in the order of their
registration, and the first value or failure is its answer, unless a refusal inside it has to be
told. Changes on the way are for lookups that start later. -/
theorem first_answer_wins (env : ε) (limits : List Nat) (p : Program ε) :
    Orderly env limits p where
  ends := program_replies p ⟨0⟩ "" [] [] (ofLimits limits)
  kept := course_limit
  numbered _ _ _ _ _ := registers_grow
  standing _ _ _ hc := (recorded hc).mem_iff
  ordered _ _ _ := links_in_order
  removes := by
    intro k own name rest id resolver next frames s c hk hc
    have hordered : Ordered c.links := (recorded (by rw [hk]; exact hc)).ordered
    refine ⟨_, _, ?_, unregister_removes hordered resolver⟩
    rw [course_succ, hk]
    simp only [Machine.step, run_unregister, hc]
    rfl
  answers _ _ _ _ _ _ := answered

/-- Two lookups with a resolver that puts another one in its place. -/
def relay : Program Unit :=
  .register ⟨0⟩ false
    (fun _ _ => .unregister ⟨0⟩ ⟨0⟩ fun _ => .register ⟨0⟩ false (fun _ _ => .decline) fun _ =>
      .decline)
    fun _ => .lookup ⟨0⟩ "first" fun _ => .lookup ⟨0⟩ "second" fun _ => .decline

example : ((relay.run (lookup ())).run (ofLimits [2])).2.calls =
    [⟨⟨0⟩, ⟨0⟩, "first", false⟩, ⟨⟨0⟩, ⟨1⟩, "second", false⟩] := rfl

end TypeCatalog.Lookups
