import TypeCatalog.Proofs.Levels

/-!
# Step by step and all at once

Wherever a lookup is called, the machine comes to the answer that `lookup` gives. On the way no
fewer lookups are active than at the call.
-/

namespace TypeCatalog.Lookups

variable {ε : Type} {env : ε} {id : ChainId} {s : Lookups ε}

namespace Machine

/-- The machine comes from `m` to `m'`, and all the way at least `floor` lookups are counted. -/
inductive LeadsAbove (env : ε) (floor : Nat) : Machine ε → Machine ε → Prop
  | refl (m : Machine ε) (above : floor ≤ m.state.depth) : LeadsAbove env floor m m
  | step {m m' : Machine ε} (above : floor ≤ m.state.depth)
      (rest : LeadsAbove env floor (m.step depthGuard env) m') : LeadsAbove env floor m m'

namespace LeadsAbove

variable {floor : Nat} {m m' m'' : Machine ε}

theorem trans (h : LeadsAbove env floor m m') (h' : LeadsAbove env floor m' m'') :
    LeadsAbove env floor m m'' := by
  induction h with
  | refl => exact h'
  | step above _ ih => exact .step above (ih h')

theorem mono {lower : Nat} (h : LeadsAbove env floor m m') (hle : lower ≤ floor) :
    LeadsAbove env lower m m' := by
  induction h with
  | refl m above => exact .refl m (hle.trans above)
  | step above _ ih => exact .step (hle.trans above) ih

theorem leads (h : LeadsAbove env floor m m') : Leads depthGuard env m m' := by
  induction h with
  | refl m _ => exact .refl m
  | step _ _ ih => exact .of_step ih

end LeadsAbove

end Machine

open Machine

/-- From states with these counts the machine comes to the answers that lookups give. -/
def Answers (env : ε) (depth greatest : Nat) : Prop :=
  ∀ (s : Lookups ε) (id : ChainId) (name : String) (frames : List (Frame ε)), s.depth = depth →
    s.greatestLimit = greatest → LeadsAbove env depth ⟨.ask id name, frames, s⟩
      ⟨.answer ((lookup env id name).run s).1, frames, ((lookup env id name).run s).2⟩

/-- The state in which the resolver of a link starts to work. -/
def noted (s : Lookups ε) (id : ChainId) (name : String) (link : Link ε) : Lookups ε :=
  { s with calls := s.calls ++ [⟨id, link.id, name, link.quiet⟩] }

theorem run_consult_cons (ask : ChainId → String → LookupM ε Answer) (name : String)
    (link : Link ε) (rest : List (Link ε)) (s : Lookups ε) :
    (consult ask env id name (link :: rest)).run s =
      (match (((link.respond env name).run ask).run (s.noted id name link)).1 with
      | .ok (some v) => (pure (.ok v) : LookupM ε Answer)
      | .ok none => consult ask env id name rest
      | .error fault => pure (.error fault)).run
        (((link.respond env name).run ask).run (s.noted id name link)).2 := rfl

section Ask

variable {depth greatest : Nat} (answers : Answers env depth greatest)

include answers

theorem program_arrives (p : Program ε) (id : ChainId) (name : String) (rest : List (Link ε))
    (frames : List (Frame ε)) (hdepth : s.depth = depth) (hgreatest : s.greatestLimit = greatest) :
    LeadsAbove env depth ⟨.work id name rest p, frames, s⟩
      ⟨.work id name rest (.reply ((p.run (lookup env)).run s).1), frames,
        ((p.run (lookup env)).run s).2⟩ := by
  induction p generalizing s with
  | reply reply => exact .refl _ hdepth.ge
  | lookup chain other next ih =>
    have hasked := answers s chain other (⟨id, name, rest, next⟩ :: frames) hdepth hgreatest
    have hlimits := @lookup_balanced _ env chain other s
    have hback := ih ((lookup env chain other).run s).1 (hlimits.depth.trans hdepth)
      (hlimits.greatest.trans hgreatest)
    exact .step hdepth.ge (hasked.trans (.step (hlimits.depth.trans hdepth).ge hback))
  | register chain quiet respond next _ ih =>
    have hlimits := balanced_composes.register chain quiet respond s
    exact .step hdepth.ge (ih _ (hlimits.depth.trans hdepth) (hlimits.greatest.trans hgreatest))
  | unregister chain resolver next ih =>
    have hlimits := balanced_composes.unregister chain resolver s
    exact .step hdepth.ge (ih _ (hlimits.depth.trans hdepth) (hlimits.greatest.trans hgreatest))
  | pause ms next ih => exact .step hdepth.ge (ih hdepth hgreatest)

/-- The machine comes to where a lookup in the chain is left with the answer. -/
def Concludes (env : ε) (depth : Nat) (id : ChainId) (name : String) (frames : List (Frame ε))
    (m : Machine ε) (r : Answer × Lookups ε) : Prop :=
  ∃ last, LeadsAbove env depth m last ∧ last.state = r.2 ∧
    last.step depthGuard env = leaving depthGuard id name r.1 frames r.2

omit answers in
theorem Concludes.of_leads {m m' : Machine ε} {name : String} {frames : List (Frame ε)}
    {r : Answer × Lookups ε} (h : LeadsAbove env depth m m')
    (h' : Concludes env depth id name frames m' r) : Concludes env depth id name frames m r := by
  obtain ⟨last, hleads, hlast⟩ := h'
  exact ⟨last, h.trans hleads, hlast⟩

theorem consult_concludes (id : ChainId) (name : String) (links : List (Link ε))
    (frames : List (Frame ε)) (hdepth : s.depth = depth) (hgreatest : s.greatestLimit = greatest) :
    Concludes env depth id name frames ⟨.consult id name links, frames, s⟩
      ((consult (lookup env) env id name links).run s) := by
  induction links generalizing s with
  | nil => exact ⟨_, .refl _ hdepth.ge, rfl, rfl⟩
  | cons link rest ih =>
    have hreply := program_arrives answers (link.respond env name) id name rest frames
      (s := s.noted id name link) hdepth hgreatest
    have hlimits := program_balanced (@lookup_balanced _ env) (link.respond env name)
      (s.noted id name link)
    have hdepth' := hlimits.depth.trans hdepth
    rw [run_consult_cons]
    refine .of_leads (.step hdepth.ge hreply) ?_
    generalize ((link.respond env name).run (lookup env)).run (s.noted id name link) = r at *
    obtain ⟨reply, s₁⟩ := r
    match reply with
    | .error fault => exact ⟨_, .refl _ hdepth'.ge, rfl, rfl⟩
    | .ok (some v) => exact ⟨_, .refl _ hdepth'.ge, rfl, rfl⟩
    | .ok none =>
      exact .of_leads (.step hdepth'.ge (.refl _ hdepth'.ge))
        (ih hdepth' (hlimits.greatest.trans hgreatest))

end Ask

/-- One more lookup is active while resolvers are asked, and no more than the greatest limit. -/
theorem answers_step {depth greatest : Nat}
    (inner : depth < greatest → Answers env (depth + 1) greatest) :
    Answers env depth greatest := by
  rintro s id name frames rfl rfl
  have hback : ∀ answer t, s.SameLimits t → LeadsAbove env s.depth
      ⟨.answer answer, frames, t⟩ ⟨.answer answer, frames, t⟩ := fun _ _ h => .refl _ h.depth.ge
  refine .step (Nat.le_refl _) ?_
  cases hc : s.chain? id with
  | none =>
    rw [lookup_unknown hc]
    simp only [Machine.step, depthGuard, hc]
    exact hback _ _ (sameLimits_called s)
  | some c =>
    by_cases hfull : c.limit ≤ s.depth
    · rw [lookup_full hc name hfull]
      simp only [Machine.step, enter_full hc hfull]
      exact hback _ _ ((sameLimits_called s).trans ⟨rfl, rfl⟩)
    · have hlimit := limit_le_greatestLimit hc
      obtain ⟨last, hleads, hstate, hlast⟩ := consult_concludes (inner (by omega)) id name c.links
        frames (s := s.entered) rfl (entered_greatestLimit s)
      have hlimits := consult_balanced (@lookup_balanced _ env) env id name c.links s.entered
      rw [lookup_free hc name (by omega)]
      simp only [Machine.step, enter_free hc hfull]
      refine (hleads.mono (Nat.le_succ _)).trans (.step ?_ ?_)
      · rw [hstate, hlimits.depth]
        exact Nat.le_succ _
      · rw [hlast]
        exact hback _ _ (hlimits.leave name _)

theorem answers (depth greatest : Nat) : Answers env depth greatest := by
  induction hrest : greatest - depth generalizing depth with
  | zero => exact answers_step fun hlt => by omega
  | succ rest ih => exact answers_step fun _ => ih (depth + 1) (by omega)

theorem lookup_arrives (s : Lookups ε) (id : ChainId) (name : String) (frames : List (Frame ε)) :
    LeadsAbove env s.depth ⟨.ask id name, frames, s⟩
      ⟨.answer ((lookup env id name).run s).1, frames, ((lookup env id name).run s).2⟩ :=
  answers s.depth s.greatestLimit s id name frames rfl rfl

theorem program_replies (p : Program ε) (id : ChainId) (name : String) (rest : List (Link ε))
    (frames : List (Frame ε)) (s : Lookups ε) :
    Leads depthGuard env ⟨.work id name rest p, frames, s⟩
      ⟨.work id name rest (.reply ((p.run (lookup env)).run s).1), frames,
        ((p.run (lookup env)).run s).2⟩ :=
  (program_arrives (answers s.depth s.greatestLimit) p id name rest frames rfl rfl).leads

end TypeCatalog.Lookups
