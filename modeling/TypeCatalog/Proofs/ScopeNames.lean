import TypeCatalog.Proofs.Histories
import TypeCatalog.Proofs.Paths

/-!
# Names that are given to scopes

Dictionaries give names to scopes in the middle of their declarations, and which names they are
depends on what is known by then. If all names that a history gives are components, then the index
by qualified name and the walk along the components agree on every scope.
-/

namespace TypeCatalog.Hub

/-! ## Which names are given -/

/-- The names of the namespaces that a walk declares. If one cannot be declared, it is the last. -/
def walkGives (hub : Hub) (current : ScopeId) (path : String) : List String → List String
  | [] => []
  | name :: rest =>
    match hub.catalog.scopes.byName? (Name.join path name) with
    | some id => walkGives hub id (Name.join path name) rest
    | none =>
      name :: match EStateM.run (commit (Change.declareScope current name .namespace)) hub with
        | .ok id hub' => walkGives hub' id (Name.join path name) rest
        | .error _ _ => []

def pathGives (hub : Hub) (path : String) : List String :=
  if (hub.catalog.scopes.byName? (Name.stripRoot path)).isSome then []
  else hub.walkGives .global "" (Name.parts (Name.stripRoot path))

def declarationGives (hub : Hub) : Declaration → List String
  | .namespace name => hub.pathGives name
  | .classType _ name _ _ | .enum name _ _ _ =>
    hub.pathGives (Name.enclosing name) ++
      match EStateM.run (ensureNamespace (Name.enclosing name)) hub with
      | .ok _ _ => [Name.last name]
      | .error _ _ => []
  | .typedef name target =>
    if (hub.catalog.types.lookupName? target).isSome then hub.pathGives (Name.enclosing name)
    else []
  | .fundamental _ _ | .pointer _ | .function _ _ _ _ | .dataMember _ _ _ _ _ => []

def declarationsGive (hub : Hub) : List Declaration → List String
  | [] => []
  | d :: rest => hub.declarationGives d ++ declarationsGive (attempt (apply d) hub).2 rest

/-- The names that an operation gives to new scopes, whether they can be declared or not. -/
def operationGives (hub : Hub) : Operation → List String
  | .declareScope _ name _ | .declareClass _ name _ _ _ | .buildEnum _ name _ _
  | .buildEnumOver _ name _ _ => [name]
  | .apply d => hub.declarationGives d
  | .load dict => hub.declarationsGive dict.declarations
  | .register _ _ _ _ | .setHidden _ _ | .addMember _ _ _ | .attachType _ _
  | .buildFundamental _ _ | .buildNative _ _ _ | .registerBuiltins | .addEnumerator _ _ _
  | .subscribe _ _ | .unsubscribe _ => []

def runGives (hub : Hub) : List Operation → List String
  | [] => []
  | op :: rest => hub.operationGives op ++ runGives (hub.execute op).2 rest

/-! ## New scopes have no other names -/

section Growth

variable {allowed : String → Prop}

theorem walk_growsTo (hub : Hub) (wf : hub.catalog.WellFormed) (current : ScopeId) (path : String)
    (names : List String) (given : ∀ name ∈ hub.walkGives current path names, allowed name) :
    After (walk current path names) hub
      (fun _ hub' => hub.catalog.GrowsTo allowed hub'.catalog)
      (fun _ hub' => hub.catalog.GrowsTo allowed hub'.catalog) := by
  induction names generalizing hub current path with
  | nil => exact after_pure _ (.refl _)
  | cons name rest ih =>
    unfold walk
    refine after_catalogNow ?_
    unfold walkGives at given
    cases hknown : hub.catalog.scopes.byName? (Name.join path name) with
    | some id =>
      rw [hknown] at given
      exact ih hub wf id _ given
    | none =>
      rw [hknown] at given
      simp only [List.forall_mem_cons] at given
      obtain ⟨good, given⟩ := given
      refine after_bind ((commit_adds allowed wf
        (Change.declareScope_grows allowed _ wf current good .namespace)
          fun _ _ h => h.grows).and_run.mono ?_ ?_)
      · rintro id hub₁ ⟨hrun, hfirst⟩
        rw [hrun] at given
        exact (ih hub₁ (hfirst.wellFormed wf) id _ given).mono (fun _ _ h => hfirst.trans h)
          fun _ _ h => hfirst.trans h
      · rintro fault hub' rfl
        exact .refl _

theorem ensureNamespace_growsTo (hub : Hub) (wf : hub.catalog.WellFormed) (path : String)
    (given : ∀ name ∈ hub.pathGives path, allowed name) :
    After (ensureNamespace path) hub
      (fun _ hub' => hub.catalog.GrowsTo allowed hub'.catalog)
      (fun _ hub' => hub.catalog.GrowsTo allowed hub'.catalog) := by
  unfold pathGives at given
  cases hknown : hub.catalog.scopes.byName? (Name.stripRoot path) with
  | some id => exact after_of_run (ensureNamespace_again hknown) (.refl _)
  | none =>
    rw [hknown] at given
    rw [after_congr (ensureNamespace_of_unknown wf hknown)]
    exact walk_growsTo hub wf .global "" _ given

theorem inNamespace_growsTo {β : Type} {f : ScopeId → HubM β} (hub : Hub)
    (wf : hub.catalog.WellFormed) (path : String)
    (given : ∀ name ∈ hub.pathGives path, allowed name)
    (rest : ∀ parent hub₁, EStateM.run (ensureNamespace path) hub = .ok parent hub₁ →
      hub₁.catalog.WellFormed →
        After (f parent) hub₁ (fun _ hub' => hub₁.catalog.GrowsTo allowed hub'.catalog)
          (fun _ hub' => hub₁.catalog.GrowsTo allowed hub'.catalog)) :
    After (ensureNamespace path >>= f) hub
      (fun _ hub' => hub.catalog.GrowsTo allowed hub'.catalog)
      (fun _ hub' => hub.catalog.GrowsTo allowed hub'.catalog) := by
  refine after_bind ((ensureNamespace_growsTo hub wf path given).and_run.mono ?_ fun _ _ h => h)
  rintro parent hub₁ ⟨hrun, h₁⟩
  exact (rest parent hub₁ hrun (h₁.wellFormed wf)).mono (fun _ _ h => h₁.trans h)
    fun _ _ h => h₁.trans h

theorem growsTo_of_adds {α : Type} {work : HubM α} {hub : Hub}
    (h : After work hub (fun _ hub' => hub.catalog.GrowsTo allowed hub'.catalog)
      (fun _ hub' => hub' = hub)) :
    After work hub (fun _ hub' => hub.catalog.GrowsTo allowed hub'.catalog)
      (fun _ hub' => hub.catalog.GrowsTo allowed hub'.catalog) := by
  refine h.mono (fun _ _ h => h) ?_
  rintro fault hub' rfl
  exact .refl _

theorem apply_gives (hub : Hub) (wf : hub.catalog.WellFormed) (d : Declaration)
    (given : ∀ name ∈ hub.declarationGives d, allowed name) :
    After (apply d) hub (fun _ hub' => hub.catalog.GrowsTo allowed hub'.catalog)
      (fun _ hub' => hub.catalog.GrowsTo allowed hub'.catalog) := by
  cases d with
  | «namespace» name => exact after_discard (ensureNamespace_growsTo hub wf name given)
  | classType sort name key size =>
    obtain ⟨around, own⟩ := List.forall_mem_append.1 given
    rw [apply_classType_eq]
    refine inNamespace_growsTo hub wf _ around ?_
    intro parent hub₁ hrun wf₁
    rw [hrun] at own
    have good : allowed (Name.last name) := own _ List.mem_cons_self
    exact after_discard (growsTo_of_adds (commit_adds allowed wf₁
      (Change.declareClass_grows allowed _ wf₁ parent good _ sort.kind size) fun _ _ h => h.1))
  | enum name key underlying enumerators =>
    obtain ⟨around, own⟩ := List.forall_mem_append.1 given
    rw [apply_enum_eq]
    refine inNamespace_growsTo hub wf _ around ?_
    intro parent hub₁ hrun wf₁
    rw [hrun] at own
    have good : allowed (Name.last name) := own _ List.mem_cons_self
    refine after_bind ((growsTo_of_adds (commit_adds allowed wf₁
      (Change.buildEnum_grows allowed _ wf₁ parent good _ underlying) fun _ _ h => h.1)).mono ?_
        fun _ _ h => h)
    intro en hub₂ h₂
    have wf₂ := h₂.wellFormed wf₁
    refine after_catalogNow ((addEnumerators_spec hub₂ wf₂ allowed en
      (hub₂.catalog.enumerators en) enumerators
        fun x hx => (Catalog.mem_enumerators wf₂).1 hx).mono ?_ ?_)
    · exact fun _ _ ⟨h₃, _⟩ => h₂.trans h₃
    · exact fun _ _ h₃ => h₂.trans h₃
  | typedef name target =>
    rw [apply_typedef_eq]
    refine after_bind ((requireType_spec hub target).mono ?_ ?_)
    · rintro t hub₀ ⟨rfl, ht⟩
      have htypedef : hub₀.declarationGives (.typedef name target) =
          hub₀.pathGives (Name.enclosing name) := by
        rw [declarationGives, ht]
        rfl
      rw [htypedef] at given
      refine inNamespace_growsTo hub₀ wf _ given ?_
      intro parent hub₁ _ wf₁
      refine after_bind ((growsTo_of_adds (commit_adds allowed wf₁
        (Change.register_grows allowed _ wf₁ (.named name) .typedef t.size name)
          fun _ _ h => h.1)).mono ?_ fun _ _ h => h)
      intro e hub₂ h₂
      refine (growsTo_of_adds (commit_adds allowed (h₂.wellFormed wf₁)
        (Change.addMember_grows allowed _ parent (Name.last name) (.type e.handle))
          fun _ _ h => h.1)).mono ?_ ?_
      · exact fun _ _ h => h₂.trans h
      · exact fun _ _ h => h₂.trans h
    · rintro fault hub' rfl
      exact .refl _
  | fundamental name size | pointer target | function scope name signature modifiers
  | dataMember scope name type offset modifiers =>
    exact apply_growsTo hub wf _ (by simp [Declaration.scopeNames])

theorem applied_gives (hub : Hub) (wf : hub.catalog.WellFormed) (ds : List Declaration)
    (given : ∀ name ∈ hub.declarationsGive ds, allowed name) :
    hub.catalog.GrowsTo allowed (hub.applied ds).catalog := by
  induction ds generalizing hub with
  | nil => exact .refl _
  | cons d rest ih =>
    obtain ⟨own, others⟩ := List.forall_mem_append.1 given
    have hd := attempt_holds (apply_gives hub wf d own)
    exact hd.trans (ih _ (hd.wellFormed wf) others)

theorem execute_gives (hub : Hub) (wf : hub.catalog.WellFormed) {op : Operation}
    (visible : op.KeepsVisibility) (given : ∀ name ∈ hub.operationGives op, allowed name) :
    hub.catalog.GrowsTo allowed (hub.execute op).2.catalog := by
  have settle := @execute_holds (fun hub' => hub.catalog.GrowsTo allowed hub'.catalog) op hub
  have single (h : op.Adds allowed) : hub.catalog.GrowsTo allowed (hub.execute op).2.catalog :=
    settle (growsTo_of_adds (perform_adds allowed hub wf h))
  cases op with
  | setHidden handle hidden => exact visible.elim
  | registerBuiltins => exact settle (after_answer .handles (registerAll_growsTo hub wf _))
  | apply d => exact settle (after_answer (fun _ => .done) (apply_gives hub wf d given))
  | load dict =>
    show hub.catalog.GrowsTo allowed (hub.load dict).2.catalog
    rw [load_hub]
    exact applied_gives hub wf dict.declarations given
  | subscribe selection echo | unsubscribe id => exact Catalog.GrowsTo.refl hub.catalog
  | declareScope parent name kind | declareClass parent name key kind size
  | buildEnum parent name key underlying | buildEnumOver parent name key underlying =>
    exact single (given name List.mem_cons_self)
  | _ => exact single trivial

end Growth

theorem run_tidy (hub : Hub) (wf : hub.catalog.WellFormed) (tidy : hub.catalog.scopes.Tidy)
    (ops : List Operation) (given : ∀ name ∈ hub.runGives ops, Name.IsComponent name) :
    (hub.run ops).catalog.scopes.Tidy := by
  induction ops generalizing hub with
  | nil => exact tidy
  | cons op rest ih =>
    obtain ⟨own, others⟩ := List.forall_mem_append.1 given
    refine ih _ (execute_wellFormed hub wf op) ?_ others
    by_cases visible : op.KeepsVisibility
    · exact (execute_gives hub wf visible own).tidy tidy
    · cases op with
      | setHidden handle hidden =>
        -- Hiding does not touch the scopes.
        rcases execute_setHidden hub handle hidden with ⟨changed, types, -, hsame⟩ | hsame
        · rw [hsame]
          exact tidy
        · rw [hsame]
          exact tidy
      | _ => exact absurd trivial visible

end TypeCatalog.Hub

namespace TypeCatalog

/-! ## The index and the walk -/

/-- Every scope is the only one of its qualified name. The index by name answers this scope for that
name and no other, and the path along it leads to the scope from everywhere. -/
structure ScopeTree.NamesAgree (t : ScopeTree) : Prop where
  distinct : ∀ {id id' s s'}, t.get? id = some s → t.get? id' = some s' →
    s.qualified = s'.qualified → id = id'
  byName : ∀ {id s}, t.get? id = some s →
    ∀ name, t.byName? name = some id ↔ Name.stripRoot name = s.qualified
  byPath : ∀ {id s}, t.get? id = some s → id ≠ .global →
    ∀ start, t.resolvePath? start ("::" ++ s.qualified) = some (.scope id)

theorem ScopeTree.Tidy.namesAgree {t : ScopeTree} (tidy : t.Tidy) (wf : t.WellFormed) :
    t.NamesAgree where
  distinct := fun hs hs' same => qualified_injective wf tidy hs hs' same
  byName := by
    intro id s hs name
    constructor
    · intro hid
      obtain ⟨s', hs', hq⟩ := wf.named hid
      rw [← hq, Option.some.inj (hs'.symm.trans hs)]
    · intro hname
      rw [byName?, hname]
      exact byName_qualified wf tidy hs
  byPath := by
    intro id s hs hid start
    obtain ⟨p, ps, ho⟩ := wf.owned hs hid
    have hm : t.member? p s.name = some (.scope id) := by
      rw [member?_of_get? ho.found]
      exact ho.binds
    rw [ho.qualified]
    exact resolvePath?_member wf tidy ho.found (tidy hs hid) hm start

namespace Hub

/-- If every name that is given to a scope on the way is a component, names and paths agree in the
end, whatever else is bound under whatever names. -/
theorem names_agree (settings : CatalogSettings) (ops : List Operation)
    (given : ∀ name ∈ (ofSettings settings).runGives ops, Name.IsComponent name) :
    ((ofSettings settings).run ops).catalog.scopes.NamesAgree := by
  have wf := Catalog.empty_wellFormed settings
  refine ScopeTree.Tidy.namesAgree ?_ (run_wellFormed _ wf ops).scopes
  exact run_tidy (ofSettings settings) wf (Catalog.empty_tidy settings) ops given

/-- Scopes from a dictionary, beside members with `::` in their names. -/
def mixed : List Operation :=
  [.buildFundamental "int" 4, .load ⟨"shapes", [.classType .class "geo::Shape" none 8], []⟩,
    .addMember .global "geo::Shape" (.type ⟨0⟩),
    .addMember ⟨1⟩ "Shape::" (.dataMember ⟨0⟩ 0 .none)]

theorem mixed_agrees :
    (∀ name ∈ (ofSettings .default).runGives mixed, Name.IsComponent name) ∧
      ((ofSettings .default).run mixed).catalog.scopes.resolvePath? ⟨2⟩ "::geo::Shape" =
        some (.scope ⟨2⟩) := by
  have given : ∀ name ∈ (ofSettings .default).runGives mixed, Name.IsComponent name := by
    decide +kernel
  have found : ((ofSettings .default).run mixed).catalog.scopes.get? ⟨2⟩ =
      some ⟨"Shape", "geo::Shape", .class, some ⟨1⟩, some ⟨1⟩, .empty⟩ := by
    decide +kernel
  exact ⟨given, (names_agree .default mixed given).byPath found (by decide) ⟨2⟩⟩

end Hub

end TypeCatalog
