import TypeCatalog.Proofs.Histories

/-!
# What commits hand on

All that is done to a catalog is made of a few changes. What the commits of these changes have,
every operation has that attaches no type by hand and hides nothing.
-/

namespace TypeCatalog

/-- Whether an operation is made of the changes that build up a catalog. -/
def Operation.Builds : Operation → Prop
  | .setHidden _ _ | .attachType _ _ | .subscribe _ _ | .unsubscribe _ => False
  | _ => True

namespace Hub

variable {α β : Type}

/-- The work as a step that does not fail and answers how it ended. -/
def attempted (work : HubM Unit) : HubM (Except Fault Unit) :=
  fun hub => .ok (attempt work hub).1 (attempt work hub).2

/-- A load as a step of work. -/
def loading (report : Report) (index : Nat) (ds : List Declaration) : HubM Report :=
  fun hub => .ok (applyAll report index hub ds).1 (applyAll report index hub ds).2

theorem loading_cons (report : Report) (index : Nat) (d : Declaration) (rest : List Declaration) :
    loading report index (d :: rest) = (attempted (apply d) >>= fun outcome =>
      loading (report.record index d.title outcome) (index + 1) rest) := rfl

/-- What is put together from work with the property has the property. -/
structure Composes (P : ∀ {α : Type}, HubM α → Prop) : Prop where
  pure : ∀ {α : Type} (a : α), P (pure a)
  throw : ∀ {α : Type} (fault : Fault), P (throw fault : HubM α)
  catalogNow : P catalogNow
  bind : ∀ {α β : Type} {work : HubM α} {next : α → HubM β},
    P work → (∀ a, P (next a)) → P (work >>= next)
  discard : ∀ {α : Type} {work : HubM α}, P work → P (discard work)
  attempted : ∀ {work : HubM Unit}, P work → P (attempted work)

/-- The commits that catalogs are built by have the property. -/
structure Building (P : ∀ {α : Type}, HubM α → Prop) : Prop where
  register : ∀ key kind size name, P (commit (Change.register key kind size name))
  declareScope : ∀ parent name kind, P (commit (Change.declareScope parent name kind))
  addMember : ∀ scope name m, P (commit (Change.addMember scope name m))
  declareClass : ∀ parent name key kind size,
    P (commit (Change.declareClass parent name key kind size))
  fundamental : ∀ key name size, P (commit (Change.fundamental key name size))
  buildEnum : ∀ parent name key underlying,
    P (commit (Change.buildEnum parent name key underlying))
  buildEnumOver : ∀ parent name key underlying,
    P (commit (Change.buildEnumOver parent name key underlying))
  addEnumerator : ∀ e name value, P (commit (Change.addEnumerator e name value))

namespace Composes

variable {P : ∀ {α : Type}, HubM α → Prop} (rules : Composes P)

include rules

theorem requireType (name : String) : P (requireType name) := by
  refine rules.bind rules.catalogNow fun c => ?_
  cases c.types.lookupName? name with
  | none => exact rules.throw _
  | some e => exact rules.pure e

theorem requireScope (name : String) : P (requireScope name) := by
  refine rules.bind rules.catalogNow fun c => ?_
  cases c.scopes.byName? name with
  | none => exact rules.throw _
  | some id => exact rules.pure id

theorem requireModifiers (names : List String) : P (requireModifiers names) := by
  unfold Hub.requireModifiers
  cases Modifiers.ofKeywords names with
  | error unknown => exact rules.throw _
  | ok m => exact rules.pure m

variable (h : Building P)

include h

theorem walk (current : ScopeId) (path : String) (names : List String) :
    P (walk current path names) := by
  induction names generalizing current path with
  | nil => exact rules.pure current
  | cons name rest ih =>
    refine rules.bind rules.catalogNow fun c => ?_
    cases c.scopes.byName? (Name.join path name) with
    | some id => exact ih id _
    | none => exact rules.bind (h.declareScope current name .namespace) fun id => ih id _

theorem ensureNamespace (path : String) : P (ensureNamespace path) := by
  refine rules.bind rules.catalogNow fun c => ?_
  cases c.scopes.byName? (Name.stripRoot path) with
  | some id => exact rules.pure id
  | none => exact rules.walk h .global "" _

theorem addEnumerators (e : Enumeration) (existing news : List Enumerator) :
    P (addEnumerators e existing news) := by
  induction news with
  | nil => exact rules.pure _
  | cons new rest ih =>
    unfold Hub.addEnumerators
    split
    · exact ih
    · exact rules.bind (h.addEnumerator e new.name new.value) fun _ => ih

theorem apply (d : Declaration) : P (apply d) := by
  cases d with
  | fundamental name size => exact rules.discard (h.fundamental (.named name) name size)
  | «namespace» name => exact rules.discard (rules.ensureNamespace h name)
  | classType sort name key size =>
    refine rules.bind (rules.ensureNamespace h _) fun parent => ?_
    exact rules.discard (h.declareClass parent _ _ _ size)
  | typedef name target =>
    refine rules.bind (rules.requireType target) fun t => ?_
    refine rules.bind (rules.ensureNamespace h _) fun parent => ?_
    refine rules.bind (h.register _ .typedef t.size name) fun e => ?_
    exact h.addMember parent _ (.type e.handle)
  | pointer target =>
    refine rules.bind (rules.discard (rules.requireType target)) fun _ => ?_
    exact rules.discard (h.register _ .pointer pointerSize _)
  | enum name key underlying enumerators =>
    refine rules.bind (rules.ensureNamespace h _) fun parent => ?_
    refine rules.bind (h.buildEnum parent _ _ underlying) fun e => ?_
    exact rules.bind rules.catalogNow fun c => rules.addEnumerators h e _ enumerators
  | function scope name signature modifiers =>
    refine rules.bind (rules.requireScope scope) fun id => ?_
    refine rules.bind (rules.requireModifiers modifiers) fun m => ?_
    exact rules.bind (h.register _ .function 0 signature) fun e => h.addMember id name _
  | dataMember scope name type offset modifiers =>
    refine rules.bind (rules.requireScope scope) fun id => ?_
    refine rules.bind (rules.requireModifiers modifiers) fun m => ?_
    exact rules.bind (rules.requireType type) fun e => h.addMember id name _

theorem loading (report : Report) (index : Nat) (ds : List Declaration) :
    P (loading report index ds) := by
  induction ds generalizing report index with
  | nil => exact rules.pure report
  | cons d rest ih =>
    rw [loading_cons]
    exact rules.bind (rules.attempted (rules.apply h d)) fun outcome => ih _ _

theorem registerAll (all : List (String × Nat)) : P (registerAll all) := by
  induction all with
  | nil => exact rules.pure _
  | cons first rest ih =>
    have hfirst := h.fundamental (.named first.1) first.1 first.2
    exact rules.bind hfirst fun _ => rules.bind ih fun _ => rules.pure _

theorem perform {op : Operation} (builds : op.Builds) : P (perform op) := by
  have answered {α : Type} {work : HubM α} (hwork : P work) (answer : α → Result) :
      P (do return answer (← work)) := rules.bind hwork fun _ => rules.pure _
  cases op with
  | setHidden | attachType | subscribe | unsubscribe => exact builds.elim
  | register key kind size name => exact answered (h.register key kind size name) .entry
  | declareScope parent name kind => exact answered (h.declareScope parent name kind) .scope
  | addMember scope name m => exact answered (h.addMember scope name m) fun _ => .done
  | declareClass parent name key kind size =>
    exact answered (h.declareClass parent name key kind size) .scope
  | buildFundamental name size => exact answered (h.fundamental (.named name) name size) .entry
  | buildNative native name size => exact answered (h.fundamental (.native native) name size) .entry
  | registerBuiltins => exact answered (rules.registerAll h _) .handles
  | buildEnum parent name key underlying =>
    exact answered (h.buildEnum parent name key underlying) .enumeration
  | buildEnumOver parent name key underlying =>
    exact answered (h.buildEnumOver parent name key underlying) .enumeration
  | addEnumerator e name value => exact answered (h.addEnumerator e name value) fun _ => .done
  | apply d => exact answered (rules.apply h d) fun _ => .done
  | load d => exact answered (rules.loading h (.start d.name) 0 d.declarations) .report

end Composes

/-! ## Properties of the hub -/

variable {holds : Hub → Prop}

/-- The work keeps a property, whether it succeeds or fails. -/
def Keeps (holds : Hub → Prop) (work : HubM α) : Prop :=
  ∀ hub, holds hub → After work hub (fun _ => holds) (fun _ => holds)

theorem keeps_composes : Composes (Keeps holds) where
  pure _ _ h := h
  throw _ _ h := h
  catalogNow _ h := h
  bind first second hub h :=
    after_bind ((first hub h).mono (fun a hub' h' => second a hub' h') fun _ _ h' => h')
  discard hwork hub h := after_discard ((hwork hub h).mono (fun _ _ h' => h') fun _ _ h' => h')
  attempted hwork hub h := attempt_holds (hwork hub h)

abbrev BuildingKeeps (holds : Hub → Prop) : Prop := Building (Keeps holds)

theorem BuildingKeeps.execute (h : BuildingKeeps holds) {op : Operation} (builds : op.Builds)
    {hub : Hub} (start : holds hub) : holds (hub.execute op).2 :=
  execute_holds holds (keeps_composes.perform h builds hub start)

end Hub

end TypeCatalog
