import TypeCatalog.Proofs.Applying

/-!
# Histories

A hub is reachable if operations lead to it from an empty catalog. Every operation keeps the catalog
consistent, and every one but hiding only adds to it.
-/

namespace TypeCatalog

/-- Whether look-up by name gives the same answers after the operation, and perhaps more of them. -/
def Operation.KeepsVisibility : Operation → Prop
  | .setHidden _ _ => False
  | _ => True

/-- Whether an operation is about the catalog and hides nothing. -/
def Operation.Extending : Operation → Prop
  | .setHidden _ _ | .subscribe _ _ | .unsubscribe _ => False
  | _ => True

namespace Hub

/-- The hub after operations, whatever each of them answers. -/
def run (hub : Hub) (ops : List Operation) : Hub :=
  ops.foldl (fun hub op => (hub.execute op).2) hub

def Reachable (hub : Hub) : Prop := ∃ settings ops, hub = (ofSettings settings).run ops

/-- The hub after applying declarations in order, whether they fail or not. -/
def applied (hub : Hub) (ds : List Declaration) : Hub :=
  ds.foldl (fun hub d => (attempt (apply d) hub).2) hub

theorem applied_cons (hub : Hub) (d : Declaration) (ds : List Declaration) :
    hub.applied (d :: ds) = (attempt (apply d) hub).2.applied ds := rfl

theorem applied_append (hub : Hub) (ds more : List Declaration) :
    hub.applied (ds ++ more) = (hub.applied ds).applied more := List.foldl_append

theorem run_append (hub : Hub) (ops more : List Operation) :
    hub.run (ops ++ more) = (hub.run ops).run more := List.foldl_append

/-! ## Attempts -/

theorem attempt_eq_ok {work : HubM Unit} {hub hub' : Hub} :
    attempt work hub = (.ok (), hub') ↔ EStateM.run work hub = .ok () hub' := by
  unfold attempt
  cases hrun : EStateM.run work hub with
  | ok _ mid => simp
  | error fault mid => simp

theorem attempt_eq_error {work : HubM Unit} {hub hub' : Hub} {fault : Fault} :
    attempt work hub = (.error fault, hub') ↔ EStateM.run work hub = .error fault hub' := by
  unfold attempt
  cases hrun : EStateM.run work hub with
  | ok _ mid => simp
  | error fault mid => simp

theorem attempt_of_fst {work : HubM Unit} {hub : Hub} (h : (attempt work hub).1 = .ok ()) :
    attempt work hub = (.ok (), (attempt work hub).2) := by
  rw [← h]

theorem attempt_after {work : HubM Unit} {hub : Hub} {holds : Except Fault Unit → Hub → Prop}
    (h : After work hub (fun _ => holds (.ok ())) fun fault => holds (.error fault)) :
    holds (attempt work hub).1 (attempt work hub).2 := by
  unfold attempt
  unfold After at h
  split at h
  · next hrun => rw [hrun]; exact h
  · next hrun => rw [hrun]; exact h

theorem attempt_holds {work : HubM Unit} {hub : Hub} {holds : Hub → Prop}
    (h : After work hub (fun _ => holds) (fun _ => holds)) : holds (attempt work hub).2 :=
  @attempt_after _ _ (fun _ => holds) h

theorem attempt_ends {work : HubM Unit} {hub : Hub} {script : Script} (h : Enacts work hub script) :
    hub.Ends script (attempt work hub).1 (attempt work hub).2 :=
  attempt_after h

theorem execute_of_fst {hub : Hub} {op : Operation} {outcome : Except Fault Result}
    (h : (hub.execute op).1 = outcome) : hub.execute op = (outcome, (hub.execute op).2) := by
  rw [← h]

theorem execute_ends {op : Operation} {hub : Hub} {done failed : Hub → Prop}
    (h : After (perform op) hub (fun _ => done) (fun _ => failed)) :
    (∃ r, (hub.execute op).1 = .ok r) ∧ done (hub.execute op).2 ∨
      (∃ fault, (hub.execute op).1 = .error fault) ∧ failed (hub.execute op).2 := by
  unfold execute
  unfold After at h
  split at h
  · next r hub' hrun => rw [hrun]; exact .inl ⟨⟨r, rfl⟩, h⟩
  · next fault hub' hrun => rw [hrun]; exact .inr ⟨⟨fault, rfl⟩, h⟩

theorem execute_holds (holds : Hub → Prop) {op : Operation} {hub : Hub}
    (h : After (perform op) hub (fun _ => holds) (fun _ => holds)) :
    holds (hub.execute op).2 := by
  rcases execute_ends h with ⟨-, hdone⟩ | ⟨-, hfailed⟩
  · exact hdone
  · exact hfailed

/-! ## Advances -/

/-- Single operations that add lead from one hub to the other, and all of them succeed. -/
def Advances (allowed : String → Prop) (hub hub' : Hub) : Prop :=
  ∃ steps, hub.Completes steps hub' ∧ ∀ step ∈ steps, step.1.Adds allowed

namespace Advances

variable {allowed : String → Prop} {hub hub' hub'' : Hub}

theorem refl (hub : Hub) : Advances allowed hub hub := ⟨[], .nil hub, by simp⟩

theorem trans (h : Advances allowed hub hub') (h' : Advances allowed hub' hub'') :
    Advances allowed hub hub'' := by
  obtain ⟨steps, hsteps, hadds⟩ := h
  obtain ⟨more, hmore, hadds'⟩ := h'
  exact ⟨steps ++ more, hsteps.trans hmore, List.forall_mem_append.2 ⟨hadds, hadds'⟩⟩

theorem growsTo (h : Advances allowed hub hub') (wf : hub.catalog.WellFormed) :
    hub.catalog.GrowsTo allowed hub'.catalog := by
  obtain ⟨steps, hsteps, hadds⟩ := h
  exact hsteps.growsTo allowed wf hadds

theorem wellFormed (h : Advances allowed hub hub') (wf : hub.catalog.WellFormed) :
    hub'.catalog.WellFormed :=
  (h.growsTo wf).wellFormed wf

end Advances

theorem Plays.advances {allowed : String → Prop} {hub hub' : Hub} {script : Script}
    {steps : List (Operation × Result)} {outcome : Except Fault Unit}
    (h : hub.Plays script steps outcome hub') (uses : script.Uses fun op => op.Adds allowed) :
    Advances allowed hub hub' :=
  ⟨steps, h.completes, h.uses uses⟩

theorem apply_advances {allowed : String → Prop} (hub : Hub) (wf : hub.catalog.WellFormed)
    (d : Declaration) (names : ∀ name ∈ d.scopeNames, allowed name) :
    After (apply d) hub (fun _ hub' => Advances allowed hub hub')
      (fun _ hub' => Advances allowed hub hub') := by
  have uses := d.script_uses.mono fun _ h => h.mono names
  refine (apply_enacts wf d).mono ?_ ?_
  · exact fun _ _ ⟨_, hplays⟩ => hplays.advances uses
  · exact fun _ _ ⟨_, hplays⟩ => hplays.advances uses

theorem applied_advances {allowed : String → Prop} (hub : Hub) (wf : hub.catalog.WellFormed)
    (ds : List Declaration) (names : ∀ d ∈ ds, ∀ name ∈ d.scopeNames, allowed name) :
    Advances allowed hub (hub.applied ds) := by
  induction ds generalizing hub with
  | nil => exact .refl _
  | cons d rest ih =>
    have hd := attempt_holds (apply_advances hub wf d (names d (by simp)))
    exact hd.trans (ih _ (hd.wellFormed wf) fun d' h => names d' (by simp [h]))

theorem registerAll_advances {allowed : String → Prop} (hub : Hub) (wf : hub.catalog.WellFormed)
    (all : List (String × Nat)) :
    After (registerAll all) hub (fun _ hub' => Advances allowed hub hub')
      (fun _ hub' => Advances allowed hub hub') := by
  induction all generalizing hub with
  | nil => exact after_pure _ (.refl _)
  | cons new rest ih =>
    obtain ⟨name, size⟩ := new
    unfold registerAll
    refine after_bind
      ((commit_executes wf (.buildFundamental name size) .entry trivial rfl).mono ?_ ?_)
    · rintro e hub₁ ⟨-, hstep⟩
      have hfirst : Advances allowed hub hub₁ := ⟨_, .single hstep, by simp [Operation.Adds]⟩
      refine after_bind ((ih hub₁ (hfirst.wellFormed wf)).mono ?_ ?_)
      · exact fun _ _ h => after_pure _ (hfirst.trans h)
      · exact fun _ _ h => hfirst.trans h
    · rintro fault hub' ⟨rfl, -⟩
      exact .refl _

/-! ## Growth -/

theorem apply_growsTo {allowed : String → Prop} (hub : Hub) (wf : hub.catalog.WellFormed)
    (d : Declaration) (names : ∀ name ∈ d.scopeNames, allowed name) :
    After (apply d) hub (fun _ hub' => hub.catalog.GrowsTo allowed hub'.catalog)
      (fun _ hub' => hub.catalog.GrowsTo allowed hub'.catalog) :=
  (apply_advances hub wf d names).mono (fun _ _ h => h.growsTo wf) fun _ _ h => h.growsTo wf

theorem applied_growsTo {allowed : String → Prop} (hub : Hub) (wf : hub.catalog.WellFormed)
    (ds : List Declaration) (names : ∀ d ∈ ds, ∀ name ∈ d.scopeNames, allowed name) :
    hub.catalog.GrowsTo allowed (hub.applied ds).catalog :=
  (applied_advances hub wf ds names).growsTo wf

theorem applied_grows {hub : Hub} (wf : hub.catalog.WellFormed) (ds : List Declaration) :
    hub.catalog.GrowsTo (fun _ => True) (hub.applied ds).catalog :=
  applied_growsTo hub wf ds fun _ _ _ _ => trivial

theorem applied_wellFormed {hub : Hub} (wf : hub.catalog.WellFormed) (ds : List Declaration) :
    (hub.applied ds).catalog.WellFormed :=
  (applied_grows wf ds).wellFormed wf

theorem registerAll_growsTo {allowed : String → Prop} (hub : Hub) (wf : hub.catalog.WellFormed)
    (all : List (String × Nat)) :
    After (registerAll all) hub (fun _ hub' => hub.catalog.GrowsTo allowed hub'.catalog)
      (fun _ hub' => hub.catalog.GrowsTo allowed hub'.catalog) :=
  (registerAll_advances hub wf all).mono (fun _ _ h => h.growsTo wf) fun _ _ h => h.growsTo wf

theorem applyAll_hub (report : Report) (index : Nat) (hub : Hub) (ds : List Declaration) :
    (applyAll report index hub ds).2 = hub.applied ds := by
  induction ds generalizing report index hub with
  | nil => rfl
  | cons d rest ih => exact ih _ _ _

theorem load_hub (hub : Hub) (d : Dictionary) : (hub.load d).2 = hub.applied d.declarations :=
  applyAll_hub _ _ _ _

theorem execute_advances (hub : Hub) (wf : hub.catalog.WellFormed) {op : Operation}
    (extending : op.Extending) : Advances (fun _ => True) hub (hub.execute op).2 := by
  have settle := @execute_holds (fun hub' => Advances (fun _ => True) hub hub') op hub
  have single : op.Adds (fun _ => True) → Advances (fun _ => True) hub (hub.execute op).2 := by
    intro h
    refine settle ((perform_adds _ hub wf h).and_run.mono ?_ ?_)
    · rintro r hub' ⟨hrun, -⟩
      exact ⟨[(op, r)], .single (execute_eq hrun), by simpa using h⟩
    · rintro fault hub' rfl
      exact .refl _
  cases op with
  | setHidden handle hidden | subscribe selection echo | unsubscribe id => exact extending.elim
  | registerBuiltins => exact settle (after_answer .handles (registerAll_advances hub wf _))
  | apply d =>
    exact settle (after_answer (fun _ => .done) (apply_advances hub wf d fun _ _ => trivial))
  | load d =>
    show Advances _ hub (hub.load d).2
    rw [load_hub]
    exact applied_advances hub wf _ fun _ _ _ _ => trivial
  | _ => exact single trivial

theorem execute_growsTo (hub : Hub) (wf : hub.catalog.WellFormed) {op : Operation}
    (visible : op.KeepsVisibility) :
    hub.catalog.GrowsTo (fun _ => True) (hub.execute op).2.catalog := by
  cases op with
  | setHidden handle hidden => exact visible.elim
  | subscribe selection echo | unsubscribe id => exact Catalog.GrowsTo.refl hub.catalog
  | _ =>
    refine (execute_advances hub wf ?_).growsTo wf
    trivial

theorem execute_setHidden (hub : Hub) (handle : Handle) (hidden : Bool) :
    (∃ changed types, hub.catalog.types.setHidden handle hidden = .ok (changed, types) ∧
      (hub.execute (.setHidden handle hidden)).2 =
        { hub with catalog := { hub.catalog with types := types } }) ∨
      (hub.execute (.setHidden handle hidden)).2 = hub := by
  refine execute_holds (fun hub' => (∃ changed types,
    hub.catalog.types.setHidden handle hidden = .ok (changed, types) ∧
      hub' = { hub with catalog := { hub.catalog with types := types } }) ∨ hub' = hub) ?_
  exact (perform_setHidden hub handle hidden).mono (fun _ _ h => .inl h) fun _ _ h => .inr h

/-- What survives growth and hiding survives every operation. -/
theorem execute_keeps {P : Catalog → Prop}
    (grows : ∀ {c c'}, c.WellFormed → P c → c.GrowsTo (fun _ => True) c' → P c')
    (hides : ∀ {c h hidden changed types}, c.WellFormed → P c →
      c.types.setHidden h hidden = .ok (changed, types) → P { c with types := types })
    (hub : Hub) (wf : hub.catalog.WellFormed) (h : P hub.catalog) (op : Operation) :
    P (hub.execute op).2.catalog := by
  by_cases visible : op.KeepsVisibility
  · exact grows wf h (execute_growsTo hub wf visible)
  · cases op with
    | setHidden handle hidden =>
      rcases execute_setHidden hub handle hidden with ⟨changed, types, hset, hsame⟩ | hsame
      · rw [hsame]
        exact hides wf h hset
      · rw [hsame]
        exact h
    | _ => exact absurd trivial visible

theorem execute_wellFormed (hub : Hub) (wf : hub.catalog.WellFormed) (op : Operation) :
    (hub.execute op).2.catalog.WellFormed :=
  execute_keeps (P := Catalog.WellFormed) (fun wf _ hgrows => hgrows.wellFormed wf)
    (fun wf _ hset => wf.setHidden hset) hub wf wf op

theorem run_keeps {P : Catalog → Prop}
    (grows : ∀ {c c'}, c.WellFormed → P c → c.GrowsTo (fun _ => True) c' → P c')
    (hides : ∀ {c h hidden changed types}, c.WellFormed → P c →
      c.types.setHidden h hidden = .ok (changed, types) → P { c with types := types })
    (hub : Hub) (wf : hub.catalog.WellFormed) (h : P hub.catalog) (ops : List Operation) :
    P (hub.run ops).catalog := by
  induction ops generalizing hub with
  | nil => exact h
  | cons op rest ih =>
    exact ih _ (execute_wellFormed hub wf op) (execute_keeps grows hides hub wf h op)

theorem run_wellFormed (hub : Hub) (wf : hub.catalog.WellFormed) (ops : List Operation) :
    (hub.run ops).catalog.WellFormed :=
  run_keeps (P := Catalog.WellFormed) (fun wf _ hgrows => hgrows.wellFormed wf)
    (fun wf _ hset => wf.setHidden hset) hub wf wf ops

theorem run_extends (hub : Hub) (wf : hub.catalog.WellFormed) (ops : List Operation) :
    hub.catalog.Extends (hub.run ops).catalog :=
  run_keeps (P := hub.catalog.Extends) (fun wf h hgrows => h.trans (hgrows.keeps wf))
    (fun _ h hset => h.trans (Catalog.extends_setHidden hset)) hub wf (.refl _) ops

theorem execute_extends (hub : Hub) (wf : hub.catalog.WellFormed) (op : Operation) :
    hub.catalog.Extends (hub.execute op).2.catalog :=
  run_extends hub wf [op]

theorem run_growsTo (hub : Hub) (wf : hub.catalog.WellFormed) {ops : List Operation}
    (visible : ∀ op ∈ ops, op.KeepsVisibility) :
    hub.catalog.GrowsTo (fun _ => True) (hub.run ops).catalog := by
  induction ops generalizing hub with
  | nil => exact .refl _
  | cons op rest ih =>
    have hop := execute_growsTo hub wf (visible op (by simp))
    exact hop.trans (ih _ (hop.wellFormed wf) fun op' h => visible op' (by simp [h]))

theorem Reachable.wellFormed {hub : Hub} (reach : hub.Reachable) : hub.catalog.WellFormed := by
  obtain ⟨settings, ops, rfl⟩ := reach
  exact run_wellFormed _ (Catalog.empty_wellFormed settings) ops

/-! ## All or nothing -/

/-- A single operation that fails changes nothing and tells nobody. -/
theorem execute_all_or_nothing {hub hub' : Hub} (reach : hub.Reachable) (op : Operation)
    (single : op.IsSingle) {fault : Fault} (h : hub.execute op = (.error fault, hub')) :
    hub' = hub := by
  have wf := reach.wellFormed
  have hrun : EStateM.run (perform op) hub = .error fault hub' := by
    unfold execute at h
    split at h
    · cases (Prod.mk.inj h).1
    · next hrun =>
      obtain ⟨hfault, rfl⟩ := Prod.mk.inj h
      rw [hrun, Except.error.inj hfault]
  cases op with
  | setHidden handle hidden => exact (perform_setHidden hub handle hidden).at_error hrun
  | registerBuiltins | apply d | load d | subscribe selection echo | unsubscribe id =>
    exact single.elim
  | _ =>
    refine After.at_error (perform_adds (fun _ => True) hub wf ?_) hrun
    trivial

/-- A hub with an observer and a class. -/
def observed : Hub :=
  (ofSettings Settings.default.catalog).run
    [.subscribe .all none, .declareClass .global "A" (.named "A") .class 4]

/-- A class under a name that another type has is refused before anything is done. -/
theorem declareClass_taken :
    (observed.execute (.declareClass .global "A" (.mangled "B") .class 4)).1 =
        .error (.duplicateMember "::" "A") ∧
      (observed.execute (.declareClass .global "A" (.mangled "B") .class 4)).2 = observed :=
  ⟨rfl, @execute_all_or_nothing observed _ ⟨_, _, rfl⟩
    (.declareClass .global "A" (.mangled "B") .class 4) trivial (.duplicateMember "::" "A") rfl⟩

end Hub

end TypeCatalog
