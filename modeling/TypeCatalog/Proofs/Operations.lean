import TypeCatalog.Hub.Operation
import TypeCatalog.Proofs.Builders
import TypeCatalog.Proofs.Commits

/-!
# What one operation does

A single operation is one commit: it is done as a whole or it changes nothing. `Completes` is a
sequence of operations of which each one succeeds.
-/

namespace TypeCatalog

/-- Whether an operation is one commit. The others run several or none. -/
def Operation.IsSingle : Operation → Prop
  | .register _ _ _ _ | .setHidden _ _ | .declareScope _ _ _ | .addMember _ _ _ | .attachType _ _
  | .declareClass _ _ _ _ _ | .buildFundamental _ _ | .buildNative _ _ _ | .buildEnum _ _ _ _
  | .buildEnumOver _ _ _ _ | .addEnumerator _ _ _ => True
  | .registerBuiltins | .apply _ | .load _ | .subscribe _ _ | .unsubscribe _ => False

/-- A single operation that hides nothing and gives a new scope, if any, an `allowed` name. -/
def Operation.Adds (allowed : String → Prop) : Operation → Prop
  | .register _ _ _ _ | .addMember _ _ _ | .attachType _ _ | .buildFundamental _ _
  | .buildNative _ _ _ | .addEnumerator _ _ _ => True
  | .declareScope _ name _ | .declareClass _ name _ _ _ | .buildEnum _ name _ _
  | .buildEnumOver _ name _ _ => allowed name
  | .setHidden _ _ | .registerBuiltins | .apply _ | .load _ | .subscribe _ _ | .unsubscribe _ =>
    False

theorem Operation.Adds.mono {allowed larger : String → Prop} {op : Operation} (h : op.Adds allowed)
    (hl : ∀ name, allowed name → larger name) : op.Adds larger := by
  cases op with
  | declareScope parent name kind => exact hl _ h
  | declareClass parent name key kind size => exact hl _ h
  | buildEnum parent name key underlying => exact hl _ h
  | buildEnumOver parent name key underlying => exact hl _ h
  | _ => exact h

namespace Hub

variable (allowed : String → Prop)

theorem after_answer {α : Type} {work : HubM α} {hub : Hub} (answer : α → Result)
    {done : Hub → Prop} {failed : Fault → Hub → Prop}
    (h : After work hub (fun _ hub' => done hub') failed) :
    After (do return answer (← work)) hub (fun _ hub' => done hub') failed :=
  after_bind (h.mono (fun _ _ h => h) fun _ _ h => h)

theorem commit_adds {α : Type} {change : Change α} {hub : Hub} (wf : hub.catalog.WellFormed)
    {done : α → Draft → Prop}
    (h : After change ⟨hub.catalog, []⟩ done (fun _ d => d = ⟨hub.catalog, []⟩))
    (grows : ∀ a d, done a d → Draft.Grows allowed ⟨hub.catalog, []⟩ d) :
    After (commit change) hub (fun _ hub' => hub.catalog.GrowsTo allowed hub'.catalog)
      (fun _ hub' => hub' = hub) := by
  have hgrows := commit_grows allowed wf (fun _ _ => True) (fun _ h => h)
    (h.mono (fun a d hd => ⟨grows a d hd, trivial⟩) fun _ _ h => h)
  exact hgrows.mono (fun _ _ h => h.1) fun _ _ h => h

/-- An operation that adds something adds it all or changes nothing. -/
theorem perform_adds (hub : Hub) (wf : hub.catalog.WellFormed) {op : Operation}
    (h : op.Adds allowed) :
    After (perform op) hub (fun _ hub' => hub.catalog.GrowsTo allowed hub'.catalog)
      (fun _ hub' => hub' = hub) := by
  cases op with
  | register key kind size name =>
    exact after_answer .entry
      (commit_adds allowed wf (Change.register_grows allowed _ wf key kind size name)
        fun _ _ h => h.1)
  | declareScope parent name kind =>
    exact after_answer .scope
      (commit_adds allowed wf (Change.declareScope_grows allowed _ wf parent h kind)
        fun _ _ h => h.grows)
  | addMember scope name m =>
    exact after_answer (fun _ => .done)
      (commit_adds allowed wf (Change.addMember_grows allowed _ scope name m) fun _ _ h => h.1)
  | attachType scope handle =>
    exact after_answer (fun _ => .done)
      (commit_adds allowed wf (Change.attachType_grows allowed _ scope handle) fun _ _ h => h)
  | declareClass parent name key kind size =>
    exact after_answer .scope
      (commit_adds allowed wf (Change.declareClass_grows allowed _ wf parent h key kind size)
        fun _ _ h => h.1)
  | buildFundamental name size =>
    exact after_answer .entry
      (commit_adds allowed wf (Change.fundamental_grows allowed _ wf (.named name) name size)
        fun _ _ h => h.1)
  | buildNative native name size =>
    exact after_answer .entry
      (commit_adds allowed wf (Change.fundamental_grows allowed _ wf (.native native) name size)
        fun _ _ h => h.1)
  | buildEnum parent name key underlying =>
    exact after_answer .enumeration
      (commit_adds allowed wf (Change.buildEnum_grows allowed _ wf parent h key underlying)
        fun _ _ h => h.1)
  | buildEnumOver parent name key underlying =>
    exact after_answer .enumeration
      (commit_adds allowed wf (Change.buildEnumOver_grows allowed _ wf parent h key underlying)
        fun _ _ h => h.1)
  | addEnumerator e name value =>
    exact after_answer (fun _ => .done)
      (commit_adds allowed wf (Change.addEnumerator_grows allowed _ e name value) fun _ _ h => h.1)
  | setHidden handle hidden | registerBuiltins | apply d | load d | subscribe selection echo
  | unsubscribe id => exact h.elim

theorem perform_setHidden (hub : Hub) (handle : Handle) (hidden : Bool) :
    After (perform (.setHidden handle hidden)) hub
      (fun _ hub' => ∃ changed types,
        hub.catalog.types.setHidden handle hidden = .ok (changed, types) ∧
          hub' = { hub with catalog := { hub.catalog with types := types } })
      (fun _ hub' => hub' = hub) := by
  refine after_answer .changed (after_commit ((Change.setHidden_spec _ handle hidden).mono ?_ ?_))
  · rintro changed d ⟨types, hset, rfl⟩
    exact ⟨changed, types, hset, tell_nil _⟩
  · rintro fault d rfl
    exact tell_nil hub

theorem perform_refused (hub : Hub) (wf : hub.catalog.WellFormed) {op : Operation}
    (single : op.IsSingle) :
    After (perform op) hub (fun _ _ => True) (fun _ hub' => hub' = hub) := by
  cases op with
  | setHidden handle hidden =>
    exact (perform_setHidden hub handle hidden).mono (fun _ _ _ => trivial) fun _ _ h => h
  | registerBuiltins | apply d | load d | subscribe selection echo | unsubscribe id =>
    exact single.elim
  | _ =>
    refine (perform_adds (fun _ => True) hub wf ?_).mono (fun _ _ _ => trivial) fun _ _ h => h
    trivial

theorem execute_eq {hub hub' : Hub} {op : Operation} {r : Result}
    (h : EStateM.run (perform op) hub = .ok r hub') : hub.execute op = (.ok r, hub') := by
  rw [execute, h]

theorem run_of_execute {hub hub' : Hub} {op : Operation} {r : Result}
    (h : hub.execute op = (.ok r, hub')) : EStateM.run (perform op) hub = .ok r hub' := by
  unfold execute at h
  split at h
  · next hrun =>
    obtain ⟨hr, rfl⟩ := Prod.mk.inj h
    rw [hrun, Except.ok.inj hr]
  · cases (Prod.mk.inj h).1

/-- A commit as the one operation that it is, with its outcome. -/
theorem commit_executes {α : Type} {change : Change α} {hub : Hub} (wf : hub.catalog.WellFormed)
    (op : Operation) (answer : α → Result) (adds : op.Adds fun _ => True)
    (hop : perform op = (do return answer (← commit change))) :
    After (commit change) hub
      (fun a mid => mid.catalog.WellFormed ∧ hub.execute op = (.ok (answer a), mid))
      fun fault mid => mid = hub ∧ hub.execute op = (.error fault, hub) := by
  have hadds := perform_adds (fun _ => True) hub wf adds
  cases hrun : EStateM.run (commit change) hub with
  | ok a mid =>
    have hperform : EStateM.run (perform op) hub = .ok (answer a) mid := by
      rw [hop, run_bind hrun]
      rfl
    exact after_of_run hrun ⟨(hadds.at_ok hperform).wellFormed wf, execute_eq hperform⟩
  | error fault mid =>
    have hperform : EStateM.run (perform op) hub = .error fault mid := by
      rw [hop, run_bind_error hrun]
    obtain rfl := hadds.at_error hperform
    refine after_of_error hrun ⟨rfl, ?_⟩
    rw [execute, hperform]

/-! ## Operations that all succeed -/

/-- The operations are done one after the other, and each gives the answer beside it. -/
inductive Completes : Hub → List (Operation × Result) → Hub → Prop
  | nil (hub : Hub) : Completes hub [] hub
  | cons {hub mid hub' : Hub} {op : Operation} {r : Result} {steps : List (Operation × Result)}
      (first : hub.execute op = (.ok r, mid)) (rest : Completes mid steps hub') :
    Completes hub ((op, r) :: steps) hub'

namespace Completes

variable {hub hub' hub'' : Hub} {steps more : List (Operation × Result)}

theorem single {op : Operation} {r : Result} (h : hub.execute op = (.ok r, hub')) :
    Completes hub [(op, r)] hub' :=
  .cons h (.nil hub')

theorem trans (h : Completes hub steps hub') (h' : Completes hub' more hub'') :
    Completes hub (steps ++ more) hub'' := by
  induction h with
  | nil => exact h'
  | cons first _ ih => exact .cons first (ih h')

theorem keeps (h : Completes hub steps hub') (holds : Hub → Prop)
    (wf : hub.catalog.WellFormed)
    (adds : ∀ step ∈ steps, step.1.Adds allowed)
    (keeps : ∀ {hub op}, hub.catalog.WellFormed → op.Adds allowed → holds hub →
      After (perform op) hub (fun _ => holds) (fun _ _ => True)) (start : holds hub) :
    holds hub' := by
  induction h with
  | nil => exact start
  | @cons hub mid hub' op r steps first _ ih =>
    have hop := adds (op, r) (by simp)
    have hrun := run_of_execute first
    have wf' := ((perform_adds allowed hub wf hop).at_ok hrun).wellFormed wf
    exact ih wf' (fun step h => adds step (by simp [h])) ((keeps wf hop start).at_ok hrun)

theorem growsTo (h : Completes hub steps hub') (wf : hub.catalog.WellFormed)
    (adds : ∀ step ∈ steps, step.1.Adds allowed) : hub.catalog.GrowsTo allowed hub'.catalog := by
  refine h.keeps allowed (fun hub' => hub.catalog.GrowsTo allowed hub'.catalog) wf adds ?_ (.refl _)
  intro hub₁ op wf₁ hop h₁
  exact (perform_adds allowed hub₁ wf₁ hop).mono (fun _ _ h => h₁.trans h) fun _ _ _ => trivial

end Completes

end Hub

end TypeCatalog
