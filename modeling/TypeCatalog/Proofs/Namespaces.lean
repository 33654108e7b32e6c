import TypeCatalog.Proofs.Names
import TypeCatalog.Proofs.Operations

/-!
# Namespaces on demand

The loader goes along a path and declares what is missing on the way. If it gets to the end of a
well-formed path, the last scope is found by the path from then on.
-/

namespace TypeCatalog

/-- The components that the loader goes through. The global scope is always there. -/
def Name.parts (path : String) : List String :=
  if path = "" then [] else (components path).1 :: (components path).2

theorem Name.parts_path {cs : List String} (h : ∀ x ∈ cs, IsComponent x) :
    parts (path cs) = cs := by
  cases cs with
  | nil => rfl
  | cons c cs => rw [parts, if_neg (path_ne_empty h), components_path h]

theorem ScopeTree.byName?_of_declared {t t' : ScopeTree} (wf : t.WellFormed) {cs : List String}
    {name : String} (good : ∀ x ∈ cs ++ [name], Name.IsComponent x) {current id : ScopeId}
    (hcurrent : t.byName? (Name.path cs) = some current)
    (free : t.byName? (Name.join (Name.path cs) name) = none)
    (declared : ∀ p, t.get? current = some p →
      t.byName.get? (Name.join p.qualified name) = none →
        t'.byName.get? (Name.join p.qualified name) = some id) :
    t'.byName? (Name.join (Name.path cs) name) = some id := by
  have hcs : ∀ x ∈ cs, Name.IsComponent x := fun x hx => good x (List.mem_append_left _ hx)
  have hstrip : Name.stripRoot (Name.join (Name.path cs) name) = Name.join (Name.path cs) name := by
    rw [Name.join_path hcs]
    exact Name.stripRoot_path good
  obtain ⟨p, hp, hq⟩ := wf.named hcurrent
  rw [Name.stripRoot_path hcs] at hq
  rw [byName?, hstrip, ← hq] at free ⊢
  exact declared p hp free

namespace Hub

theorem after_catalogNow {α : Type} {f : Catalog → HubM α} {hub : Hub} {done : α → Hub → Prop}
    {failed : Fault → Hub → Prop} (h : After (f hub.catalog) hub done failed) :
    After (catalogNow >>= f) hub done failed := h

theorem run_catalogNow {α : Type} (f : Catalog → HubM α) (hub : Hub) :
    EStateM.run (catalogNow >>= f) hub = EStateM.run (f hub.catalog) hub := rfl

theorem commit_declareScope (hub : Hub) (wf : hub.catalog.WellFormed) (parent : ScopeId)
    (name : String) (kind : ScopeKind) :
    After (commit (Change.declareScope parent name kind)) hub
      (fun id hub' => hub.catalog.GrowsTo (fun _ => True) hub'.catalog ∧
        ∀ p, hub.catalog.scopes.get? parent = some p →
          hub.catalog.scopes.byName.get? (Name.join p.qualified name) = none →
            hub'.catalog.scopes.byName.get? (Name.join p.qualified name) = some id)
      (fun _ hub' => hub' = hub) := by
  refine commit_grows _ wf
    (fun id c => ∀ p, hub.catalog.scopes.get? parent = some p →
      hub.catalog.scopes.byName.get? (Name.join p.qualified name) = none →
        c.scopes.byName.get? (Name.join p.qualified name) = some id) ?_ ?_
  · intro id c c' hext h p hp hnone
    exact hext.scopes.byName (h p hp hnone)
  · refine (Change.declareScope_grows (fun _ => True) _ wf parent trivial kind).mono ?_
      fun _ _ h => h
    intro id d hd
    exact ⟨hd.grows, fun p hp hnone => hd.named hp hnone⟩

theorem walk_spec (hub : Hub) (wf : hub.catalog.WellFormed) (current : ScopeId) (path : String)
    (names : List String) :
    After (walk current path names) hub
      (fun id hub' => hub.catalog.GrowsTo (fun _ => True) hub'.catalog ∧
        ∀ cs, path = Name.path cs → (∀ x ∈ cs ++ names, Name.IsComponent x) →
          hub.catalog.scopes.byName? path = some current →
            hub'.catalog.scopes.byName? (Name.path (cs ++ names)) = some id)
      (fun _ _ => True) := by
  induction names generalizing hub current path with
  | nil =>
    refine after_pure _ ⟨.refl _, ?_⟩
    rintro cs rfl - hcurrent
    rw [List.append_nil]
    exact hcurrent
  | cons name names ih =>
    unfold walk
    refine after_catalogNow ?_
    -- With this component the path so far is one longer.
    have hpath : ∀ cs, path = Name.path cs → (∀ x ∈ cs ++ name :: names, Name.IsComponent x) →
        (∀ x ∈ cs ++ [name] ++ names, Name.IsComponent x) ∧
          Name.join path name = Name.path (cs ++ [name]) := by
      rintro cs rfl hcs
      refine ⟨by rwa [List.append_assoc], Name.join_path ?_ name⟩
      intro x hx
      exact hcs x (List.mem_append_left _ hx)
    cases hknown : hub.catalog.scopes.byName? (Name.join path name) with
    | some id =>
      refine (ih hub wf id (Name.join path name)).mono ?_ fun _ _ h => h
      rintro last hub' ⟨hgrows, hnamed⟩
      refine ⟨hgrows, ?_⟩
      intro cs hcs hgood _
      obtain ⟨hgood', hjoin⟩ := hpath cs hcs hgood
      have := hnamed (cs ++ [name]) hjoin hgood' hknown
      rwa [List.append_assoc] at this
    | none =>
      refine after_bind ((commit_declareScope hub wf current name .namespace).mono ?_
        fun _ _ _ => trivial)
      rintro id hub₁ ⟨h₁, hid⟩
      refine (ih hub₁ (h₁.wellFormed wf) id (Name.join path name)).mono ?_ fun _ _ h => h
      rintro last hub' ⟨hgrows, hnamed⟩
      refine ⟨h₁.trans hgrows, ?_⟩
      intro cs hcs hgood hcurrent
      obtain ⟨hgood', hjoin⟩ := hpath cs hcs hgood
      have hknown₁ : hub₁.catalog.scopes.byName? (Name.join path name) = some id := by
        subst hcs
        have hname : ∀ x ∈ cs ++ [name], Name.IsComponent x :=
          fun x hx => hgood' x (List.mem_append_left _ hx)
        exact ScopeTree.byName?_of_declared wf.scopes hname hcurrent hknown hid
      have := hnamed (cs ++ [name]) hjoin hgood' hknown₁
      rwa [List.append_assoc] at this

theorem parts_of_unknown {hub : Hub} (wf : hub.catalog.WellFormed) {path : String}
    (unknown : hub.catalog.scopes.byName? path = none) :
    Name.parts path = (Name.components path).1 :: (Name.components path).2 := by
  rw [Name.parts, if_neg]
  rintro rfl
  exact absurd (wf.scopes.rootNamed.symm.trans unknown) (by simp)

/-- A path that is known leads to its scope, and nothing is declared. -/
theorem ensureNamespace_again {hub : Hub} {path : String} {id : ScopeId}
    (h : hub.catalog.scopes.byName? (Name.stripRoot path) = some id) :
    EStateM.run (ensureNamespace path) hub = .ok id hub := by
  simp only [ensureNamespace]
  rw [run_catalogNow, h]
  rfl

theorem ensureNamespace_of_unknown {hub : Hub} (wf : hub.catalog.WellFormed) {path : String}
    (unknown : hub.catalog.scopes.byName? (Name.stripRoot path) = none) :
    EStateM.run (ensureNamespace path) hub =
      EStateM.run (walk .global "" (Name.parts (Name.stripRoot path))) hub := by
  rw [parts_of_unknown wf unknown]
  simp only [ensureNamespace]
  rw [run_catalogNow, unknown]

theorem ensureNamespace_spec (hub : Hub) (wf : hub.catalog.WellFormed) (path : String) :
    After (ensureNamespace path) hub
      (fun id hub' => hub.catalog.GrowsTo (fun _ => True) hub'.catalog ∧
        ∀ cs, Name.stripRoot path = Name.path cs → (∀ x ∈ cs, Name.IsComponent x) →
          hub'.catalog.scopes.byName? (Name.stripRoot path) = some id)
      (fun _ _ => True) := by
  cases hknown : hub.catalog.scopes.byName? (Name.stripRoot path) with
  | some id =>
    exact after_of_run (ensureNamespace_again hknown) ⟨.refl _, fun _ _ _ => hknown⟩
  | none =>
    rw [after_congr (ensureNamespace_of_unknown wf hknown)]
    refine (walk_spec hub wf .global "" _).mono ?_ fun _ _ h => h
    rintro id hub' ⟨hgrows, hnamed⟩
    refine ⟨hgrows, ?_⟩
    intro cs hcs hgood
    rw [hcs, Name.parts_path hgood] at hnamed
    rw [hcs]
    exact hnamed [] Name.path_nil.symm hgood wf.scopes.rootNamed

end Hub

end TypeCatalog
