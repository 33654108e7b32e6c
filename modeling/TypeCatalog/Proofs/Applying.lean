import TypeCatalog.Proofs.Scripts

/-!
# What applying a declaration has done

A declaration that was applied is in force. What its steps have put in place on the way is still
there at the end, because the catalog only grows.
-/

namespace TypeCatalog.Hub

/-! ## The steps -/

section Steps

variable (hub : Hub) (wf : hub.catalog.WellFormed)

theorem requireType_spec (name : String) :
    After (requireType name) hub
      (fun e hub' => hub' = hub ∧ hub.catalog.types.lookupName? name = some e)
      (fun _ hub' => hub' = hub) := by
  unfold requireType
  refine after_catalogNow ?_
  cases h : hub.catalog.types.lookupName? name with
  | none => rfl
  | some e => exact ⟨rfl, rfl⟩

theorem requireScope_spec (name : String) :
    After (requireScope name) hub
      (fun id hub' => hub' = hub ∧ hub.catalog.scopes.byName? name = some id)
      (fun _ hub' => hub' = hub) := by
  unfold requireScope
  refine after_catalogNow ?_
  cases h : hub.catalog.scopes.byName? name with
  | none => rfl
  | some id => exact ⟨rfl, rfl⟩

theorem requireModifiers_spec (names : List String) :
    After (requireModifiers names) hub
      (fun m hub' => hub' = hub ∧ Modifiers.ofKeywords names = .ok m)
      (fun _ hub' => hub' = hub) := by
  unfold requireModifiers
  cases h : Modifiers.ofKeywords names with
  | error unknown => rfl
  | ok m => exact ⟨rfl, rfl⟩

include wf

theorem commit_register (key : Key) (kind : TypeKind) (size : Nat) (name : String) :
    After (commit (Change.register key kind size name)) hub
      (fun e hub' => hub.catalog.GrowsTo (fun _ => True) hub'.catalog ∧
        hub'.catalog.types.HasType key kind size e)
      (fun _ hub' => hub' = hub) := by
  refine commit_grows _ wf (fun e c => c.types.HasType key kind size e) ?_ ?_
  · intro e c c' hext h
    exact hext.types.hasType h
  · refine (Change.register_grows (fun _ => True) _ wf key kind size name).mono ?_ fun _ _ h => h
    rintro e d ⟨hgrows, htype, -⟩
    exact ⟨hgrows, htype⟩

theorem commit_addMember (scope : ScopeId) (name : String) (m : Member) :
    After (commit (Change.addMember scope name m)) hub
      (fun _ hub' => hub.catalog.GrowsTo (fun _ => True) hub'.catalog ∧
        hub'.catalog.scopes.member? scope name = some m)
      (fun _ hub' => hub' = hub) := by
  refine commit_grows _ wf (fun _ c => c.scopes.member? scope name = some m) ?_
    (Change.addMember_grows (fun _ => True) _ scope name m)
  intro _ c c' hext h
  exact hext.scopes.member? h

theorem commit_declareClass (parent : ScopeId) (name : String) (key : Key) (kind : TypeKind)
    (size : Nat) :
    After (commit (Change.declareClass parent name key kind size)) hub
      (fun id hub' => hub.catalog.GrowsTo (fun _ => True) hub'.catalog ∧
        ∃ e, hub'.catalog.HasClass parent name key kind size id e)
      (fun _ hub' => hub' = hub) := by
  refine commit_grows _ wf (fun id c => ∃ e, c.HasClass parent name key kind size id e) ?_ ?_
  · rintro id c c' hext ⟨e, he⟩
    exact ⟨e, he.mono hext⟩
  · refine (Change.declareClass_grows (fun _ => True) _ wf parent trivial key kind size).mono ?_
      fun _ _ h => h
    rintro id d ⟨hgrows, -, hclass⟩
    exact ⟨hgrows, hclass⟩

theorem commit_fundamental (name : String) (size : Nat) :
    After (commit (Change.buildFundamental name size)) hub
      (fun e hub' => hub.catalog.GrowsTo (fun _ => True) hub'.catalog ∧
        hub'.catalog.HasFundamental (.named name) name size e)
      (fun _ hub' => hub' = hub) :=
  commit_grows _ wf (fun e c => c.HasFundamental (.named name) name size e)
    (fun hext h => h.mono hext)
    (Change.fundamental_grows (fun _ => True) _ wf (.named name) name size)

theorem commit_buildEnum (parent : ScopeId) (name : String) (key : Key) (underlying : String) :
    After (commit (Change.buildEnum parent name key underlying)) hub
      (fun en hub' => hub.catalog.GrowsTo (fun _ => True) hub'.catalog ∧
        ∃ base, hub.catalog.types.lookupName? underlying = some base ∧
          hub'.catalog.HasEnum parent name key base en)
      (fun _ hub' => hub' = hub) := by
  refine commit_grows _ wf
    (fun en c => ∃ base, hub.catalog.types.lookupName? underlying = some base ∧
      c.HasEnum parent name key base en) ?_ ?_
  · rintro en c c' hext ⟨base, hbase, hen⟩
    exact ⟨base, hbase, hen.mono hext⟩
  · exact Change.buildEnum_grows (fun _ => True) _ wf parent trivial key underlying

theorem commit_addEnumerator (allowed : String → Prop) (e : Enumeration) (name : String)
    (value : Int64) :
    After (commit (Change.addEnumerator e name value)) hub
      (fun _ hub' => hub.catalog.GrowsTo allowed hub'.catalog ∧
        hub'.catalog.scopes.member? e.scope name = some (.enumerator e.type.handle value))
      (fun _ hub' => hub' = hub) := by
  refine commit_grows _ wf
    (fun _ c => c.scopes.member? e.scope name = some (.enumerator e.type.handle value)) ?_
    (Change.addEnumerator_grows allowed _ e name value)
  intro _ c c' hext h
  exact hext.scopes.member? h

theorem addEnumerators_spec (allowed : String → Prop) (e : Enumeration)
    (existing news : List Enumerator) (h : Declaration.Lists hub.catalog e existing) :
    After (addEnumerators e existing news) hub
      (fun _ hub' => hub.catalog.GrowsTo allowed hub'.catalog ∧
        Declaration.Lists hub'.catalog e news)
      (fun _ hub' => hub.catalog.GrowsTo allowed hub'.catalog) := by
  induction news generalizing hub with
  | nil => exact after_pure _ ⟨.refl _, by simp [Declaration.Lists]⟩
  | cons new rest ih =>
    unfold addEnumerators
    split
    · next hknown =>
      have hnew : Declaration.Lists hub.catalog e [new] := by
        simpa [Declaration.Lists] using h new hknown
      refine (ih hub wf h).mono ?_ fun _ _ h => h
      rintro _ hub' ⟨hgrows, hall⟩
      exact ⟨hgrows, (hnew.mono (hgrows.keeps wf)).cons hall⟩
    · refine after_bind ((commit_addEnumerator hub wf allowed e new.name new.value).mono ?_ ?_)
      · rintro _ hub₁ ⟨h₁, hm⟩
        have wf₁ := h₁.wellFormed wf
        have hnew : Declaration.Lists hub₁.catalog e [new] := by
          simpa [Declaration.Lists] using hm
        refine (ih hub₁ wf₁ (h.mono (h₁.keeps wf))).mono ?_ fun _ _ hgrows => h₁.trans hgrows
        rintro _ hub' ⟨hgrows, hall⟩
        exact ⟨h₁.trans hgrows, (hnew.mono (hgrows.keeps wf₁)).cons hall⟩
      · rintro fault hub' rfl
        exact .refl _

/-! ## The declarations -/

theorem ensureEnclosing_spec (name : String) :
    After (ensureNamespace (Name.enclosing name)) hub
      (fun parent hub' => hub.catalog.GrowsTo (fun _ => True) hub'.catalog ∧
        (Name.WellFormed name →
          hub'.catalog.scopes.byName? (Name.stripRoot (Name.enclosing name)) = some parent))
      (fun _ _ => True) := by
  refine (ensureNamespace_spec hub wf (Name.enclosing name)).mono ?_ fun _ _ h => h
  rintro parent hub' ⟨hgrows, hnamed⟩
  refine ⟨hgrows, fun hgood => ?_⟩
  obtain ⟨cs, hcs, hcomponents⟩ := Name.WellFormed.enclosing hgood
  exact hnamed cs hcs hcomponents

theorem apply_classType (sort : ClassSort) (name : String) (key : Option String) (size : Nat) :
    After (apply (.classType sort name key size)) hub
      (fun _ hub' => Name.WellFormed name →
        Declaration.InForce hub'.catalog (.classType sort name key size))
      (fun _ _ => True) := by
  rw [apply_classType_eq]
  refine after_bind ((ensureEnclosing_spec hub wf name).mono ?_ fun _ _ h => h)
  rintro parent hub₁ ⟨h₁, hparent⟩
  have wf₁ := h₁.wellFormed wf
  refine after_discard ((commit_declareClass hub₁ wf₁ parent (Name.last name) _ sort.kind size).mono
    ?_ fun _ _ _ => trivial)
  rintro id hub₂ ⟨h₂, e, he⟩ hgood
  exact ⟨parent, id, e, (h₂.keeps wf₁).scopes.byName (hparent hgood), he⟩

theorem apply_typedef (name target : String) :
    After (apply (.typedef name target)) hub
      (fun _ hub' => Name.WellFormed name →
        Declaration.InForce hub'.catalog (.typedef name target))
      (fun _ _ => True) := by
  rw [apply_typedef_eq]
  refine after_bind ((requireType_spec hub target).mono ?_ fun _ _ _ => trivial)
  rintro t hub₀ ⟨rfl, ht⟩
  refine after_bind ((ensureEnclosing_spec hub₀ wf name).mono ?_ fun _ _ h => h)
  rintro parent hub₁ ⟨h₁, hparent⟩
  have wf₁ := h₁.wellFormed wf
  refine after_bind ((commit_register hub₁ wf₁ (.named name) .typedef t.size name).mono ?_
    fun _ _ _ => trivial)
  rintro e hub₂ ⟨h₂, he⟩
  have wf₂ := h₂.wellFormed wf₁
  refine (commit_addMember hub₂ wf₂ parent (Name.last name) (.type e.handle)).mono ?_
    fun _ _ _ => trivial
  rintro _ hub₃ ⟨h₃, hm⟩ hgood
  have hext := (h₂.trans h₃).keeps wf₁
  exact ⟨parent, t, e, hext.scopes.byName (hparent hgood),
    ((h₁.trans h₂).trans h₃).lookupName? wf ht, (h₃.keeps wf₂).types.hasType he, hm⟩

theorem apply_enum (name : String) (key : Option String) (underlying : String)
    (enumerators : List Enumerator) :
    After (apply (.enum name key underlying enumerators)) hub
      (fun _ hub' => Name.WellFormed name →
        Declaration.InForce hub'.catalog (.enum name key underlying enumerators))
      (fun _ _ => True) := by
  rw [apply_enum_eq]
  refine after_bind ((ensureEnclosing_spec hub wf name).mono ?_ fun _ _ h => h)
  rintro parent hub₁ ⟨h₁, hparent⟩
  have wf₁ := h₁.wellFormed wf
  refine after_bind ((commit_buildEnum hub₁ wf₁ parent (Name.last name) (.ofSymbol key name)
    underlying).mono ?_ fun _ _ _ => trivial)
  rintro en hub₂ ⟨h₂, base, hbase, hen⟩
  have wf₂ := h₂.wellFormed wf₁
  refine after_catalogNow ((addEnumerators_spec hub₂ wf₂ (fun _ => True) en
    (hub₂.catalog.enumerators en) enumerators
      fun x hx => (Catalog.mem_enumerators wf₂).1 hx).mono ?_ fun _ _ _ => trivial)
  rintro _ hub₃ ⟨h₃, hall⟩ hgood
  have hext := (h₂.trans h₃).keeps wf₁
  exact ⟨parent, base, en, hext.scopes.byName (hparent hgood),
    (h₂.trans h₃).lookupName? wf₁ hbase, hen.mono (h₃.keeps wf₂), hall⟩

/-- A declaration that was applied is in force. -/
theorem apply_spec (d : Declaration) :
    After (apply d) hub (fun _ hub' => d.WellNamed → d.InForce hub'.catalog) (fun _ _ => True) := by
  cases d with
  | fundamental name size =>
    refine after_discard ((commit_fundamental hub wf name size).mono ?_ fun _ _ _ => trivial)
    exact fun e hub' h _ => ⟨e, h.2⟩
  | «namespace» name =>
    refine after_discard ((ensureNamespace_spec hub wf name).mono ?_ fun _ _ h => h)
    rintro id hub' ⟨-, hnamed⟩ hgood
    obtain ⟨cs, hcs, -, hname⟩ := Name.WellFormed.exists_path hgood
    exact ⟨id, hnamed _ hname hcs⟩
  | classType sort name key size => exact apply_classType hub wf sort name key size
  | typedef name target => exact apply_typedef hub wf name target
  | pointer target =>
    refine after_bind (after_discard ((requireType_spec hub target).mono ?_ fun _ _ _ => trivial))
    rintro t hub₀ ⟨rfl, ht⟩
    refine after_discard ((commit_register hub₀ wf (.named (Declaration.pointerName target))
      .pointer pointerSize (Declaration.pointerName target)).mono ?_ fun _ _ _ => trivial)
    exact fun e hub' h _ => ⟨t, e, h.1.lookupName? wf ht, h.2⟩
  | enum name key underlying enumerators => exact apply_enum hub wf name key underlying enumerators
  | function scope name signature modifiers =>
    refine after_bind ((requireScope_spec hub scope).mono ?_ fun _ _ _ => trivial)
    rintro id hub₀ ⟨rfl, hid⟩
    refine after_bind ((requireModifiers_spec hub₀ modifiers).mono ?_ fun _ _ _ => trivial)
    rintro m hub₀ ⟨rfl, hmods⟩
    refine after_bind ((commit_register hub₀ wf (.named signature) .function 0 signature).mono ?_
      fun _ _ _ => trivial)
    rintro e hub₁ ⟨h₁, he⟩
    have wf₁ := h₁.wellFormed wf
    refine (commit_addMember hub₁ wf₁ id name (.function e.handle m)).mono ?_ fun _ _ _ => trivial
    rintro _ hub₂ ⟨h₂, hm⟩ -
    exact ⟨id, m, e, ((h₁.trans h₂).keeps wf).scopes.byName? hid, hmods,
      (h₂.keeps wf₁).types.hasType he, hm⟩
  | dataMember scope name type offset modifiers =>
    refine after_bind ((requireScope_spec hub scope).mono ?_ fun _ _ _ => trivial)
    rintro id hub₀ ⟨rfl, hid⟩
    refine after_bind ((requireModifiers_spec hub₀ modifiers).mono ?_ fun _ _ _ => trivial)
    rintro m hub₀ ⟨rfl, hmods⟩
    refine after_bind ((requireType_spec hub₀ type).mono ?_ fun _ _ _ => trivial)
    rintro e hub₀ ⟨rfl, he⟩
    refine (commit_addMember hub₀ wf id name (.dataMember e.handle offset m)).mono ?_
      fun _ _ _ => trivial
    rintro _ hub₁ ⟨h₁, hm⟩ -
    exact ⟨id, m, e, (h₁.keeps wf).scopes.byName? hid, hmods, h₁.lookupName? wf he, hm⟩

end Steps

end TypeCatalog.Hub
