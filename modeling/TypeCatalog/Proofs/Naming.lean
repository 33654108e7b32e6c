import TypeCatalog.Proofs.Indices

/-!
# Which types a change brings

A change registers at most one type. A plain registration gives it the name itself, and a type that
owns a scope gets the qualified name of the scope. What is stored is the name without one leading
`::`.
-/

namespace TypeCatalog

/-- Every new type has a key and a name that were `given`. -/
def Registry.Brings (given : Key → String → Prop) (r r' : Registry) : Prop :=
  ∀ e ∈ r'.entries, e ∈ r.entries ∨ ∃ name, given e.key name ∧ e.name = Name.stripRoot name

namespace Registry.Brings

variable {given larger : Key → String → Prop} {r r' r'' : Registry}

theorem of_entries (h : r'.entries = r.entries) : r.Brings given r' := by
  intro e he
  rw [h] at he
  exact .inl he

theorem mono (h : r.Brings given r') (hl : ∀ k name, given k name → larger k name) :
    r.Brings larger r' := by
  intro e he
  rcases h e he with hold | ⟨name, hgiven, hname⟩
  · exact .inl hold
  · exact .inr ⟨name, hl _ _ hgiven, hname⟩

theorem trans (h : r.Brings given r') (h' : r'.Brings given r'') : r.Brings given r'' := by
  intro e he
  rcases h' e he with hmid | hnew
  · exact h e hmid
  · exact .inr hnew

end Registry.Brings

/-- In scope `parent`, the scope `simple` carries the type under `key`. Its name is `qualified`. -/
def Catalog.CarriedAs (c : Catalog) (parent : ScopeId) (simple : String) (key : Key)
    (qualified : String) : Prop :=
  ∃ kind size id e s, c.HasClass parent simple key kind size id e ∧
    c.scopes.get? id = some s ∧ s.qualified = qualified

theorem Catalog.CarriedAs.mono {c c' : Catalog} (hext : c.Extends c') {parent : ScopeId}
    {simple qualified : String} {key : Key} (h : c.CarriedAs parent simple key qualified) :
    c'.CarriedAs parent simple key qualified := by
  obtain ⟨kind, size, id, e, s, hclass, hs, rfl⟩ := h
  obtain ⟨s', hs', he⟩ := hext.scopes.scope hs
  exact ⟨kind, size, id, e, s', hclass.mono hext, hs', he.qualified⟩

/-! ## Changes -/

/-- The draft has grown and has a type under `key`. Every new type is under it, and its name was
`given`, seen from the end of the draft. -/
structure Draft.Brings (key : Key) (given : Catalog → String → Prop) (d d' : Draft) : Prop where
  grows : d.Grows (fun _ => True) d'
  taken : (d'.catalog.types.lookup? key).isSome
  types : d.catalog.types.Brings (fun k n => k = key ∧ given d'.catalog n) d'.catalog.types

/-- The draft has grown by other things than types. -/
structure Draft.Spares (d d' : Draft) : Prop where
  grows : d.Grows (fun _ => True) d'
  types : d'.catalog.types = d.catalog.types

namespace Change

theorem register_brings (d : Draft) (wf : d.catalog.WellFormed) (key : Key) (kind : TypeKind)
    (size : Nat) (name : String) :
    After (register key kind size name) d (fun _ d' => d.Brings key (fun _ n => n = name) d')
      (fun _ d' => d' = d) := by
  refine ((register_spec d key kind size name).and
    (register_grows (fun _ => True) d wf key kind size name)).mono ?_ fun _ _ h => h.2
  rintro _ d' ⟨hspec, hgrows, htype, -⟩
  refine ⟨hgrows, by rw [htype.found]; rfl, ?_⟩
  rcases hspec with ⟨rfl, -⟩ | ⟨-, rfl, rfl⟩
  · exact .of_entries rfl
  · intro e' he'
    rcases List.mem_append.1 he' with hold | hnew
    · exact .inl hold
    · rw [List.mem_singleton.1 hnew]
      exact .inr ⟨name, ⟨rfl, rfl⟩, rfl⟩

/-! Changes that register no type. -/

theorem declareScope_spares (d : Draft) (wf : d.catalog.WellFormed) (parent : ScopeId)
    (name : String) (kind : ScopeKind) :
    After (declareScope parent name kind) d (fun _ d' => d.Spares d') (fun _ d' => d' = d) :=
  (declareScope_grows (fun _ => True) d wf parent trivial kind).mono
    (fun _ _ h => ⟨h.grows, h.types⟩) fun _ _ h => h

theorem addMember_spares (d : Draft) (scope : ScopeId) (name : String) (m : Member) :
    After (addMember scope name m) d (fun _ d' => d.Spares d') (fun _ d' => d' = d) := by
  refine ((addMember_spec d scope name m).and
    (addMember_grows (fun _ => True) d scope name m)).mono ?_ fun _ _ h => h.2
  rintro _ d' ⟨⟨s, -, hspec⟩, hgrows, -⟩
  refine ⟨hgrows, ?_⟩
  rcases hspec with ⟨rfl, -⟩ | ⟨-, -, -, rfl⟩
  · rfl
  · rfl

theorem addEnumerator_spares (d : Draft) (e : Enumeration) (name : String) (value : Int64) :
    After (addEnumerator e name value) d (fun _ d' => d.Spares d') (fun _ d' => d' = d) := by
  unfold addEnumerator
  refine after_catalog ?_
  split
  · rfl
  · exact addMember_spares d e.scope name _

theorem attachType_spares (d : Draft) (scope : ScopeId) (h : Handle) :
    After (attachType scope h) d (fun _ d' => d.Spares d') (fun _ d' => d' = d) := by
  unfold attachType
  refine after_bind (after_discard ((requireType_spec d h).mono ?_ fun _ _ h => h))
  rintro e d' ⟨rfl, he⟩
  refine after_catalog ?_
  cases hattach : d'.catalog.scopes.attach scope h with
  | error fault => rfl
  | ok t' => exact ⟨(attach_grows (fun _ => True) d' (by rw [he]; rfl) hattach).1, rfl⟩

/-! Changes that register one type. -/

theorem fundamental_brings (d : Draft) (wf : d.catalog.WellFormed) (key : Key) (name : String)
    (size : Nat) :
    After (fundamental key name size) d (fun _ d' => d.Brings key (fun _ n => n = name) d')
      (fun _ d' => d' = d) := by
  have htypes : After (fundamental key name size) d
      (fun _ d' => d.catalog.types.Brings (fun k n => k = key ∧ n = name) d'.catalog.types)
      (fun _ _ => True) := by
    unfold fundamental
    refine after_bind ((checkWidth_spec d name size).mono ?_ fun _ _ _ => trivial)
    rintro _ d₀ ⟨rfl, -⟩
    refine after_bind ((register_brings d₀ wf key .fundamental size name).mono ?_
      fun _ _ _ => trivial)
    intro e d₁ h₁
    refine after_catalog ?_
    split
    · refine after_bind ((addMember_spares d₁ .global name (.type e.handle)).mono ?_
        fun _ _ _ => trivial)
      intro _ d₂ h₂
      refine after_pure e ?_
      rw [h₂.types]
      exact h₁.types
    · exact h₁.types
  refine ((fundamental_grows (fun _ => True) d wf key name size).and htypes).mono ?_
    fun _ _ h => h.1
  rintro e d' ⟨⟨hgrows, he⟩, hbrings⟩
  exact ⟨hgrows, by rw [he.type.found]; rfl, hbrings⟩

/-- The type gets the qualified name of the scope that was declared for it. -/
theorem declareClass_brings (d : Draft) (wf : d.catalog.WellFormed) (parent : ScopeId)
    (name : String) (key : Key) (kind : TypeKind) (size : Nat) :
    After (declareClass parent name key kind size) d
      (fun _ d' => d.Brings key (fun c n => c.CarriedAs parent name key n) d')
      (fun _ d' => d' = d) := by
  have htypes : After (declareClass parent name key kind size) d
      (fun id d' => d.catalog.types.Brings
        (fun k n => k = key ∧ ∃ s, d'.catalog.scopes.get? id = some s ∧ s.qualified = n)
        d'.catalog.types)
      (fun _ _ => True) := by
    unfold declareClass
    split
    case h_2 => trivial
    next scopeKind hkind =>
    refine after_catalog ?_
    cases hcheck : d.catalog.types.check key kind size with
    | error fault => trivial
    | ok o =>
    refine after_bind (after_of_run (run_discard rfl) ?_)
    refine after_catalog ?_
    split
    case isFalse => trivial
    refine after_bind ((checkFacet_spec d parent name key).mono ?_ fun _ _ _ => trivial)
    rintro _ d₀ ⟨rfl, -⟩
    refine after_bind
      ((declareScope_grows (fun _ => True) d₀ wf parent trivial scopeKind).mono ?_
        fun _ _ _ => trivial)
    intro id d₁ h₁
    obtain ⟨s, hs, -⟩ := h₁.scope
    refine after_catalog ?_
    have hqualified : (d₁.catalog.scopes.info? id).elim name (·.qualified) = s.qualified := by
      rw [ScopeTree.info?, hs]
      rfl
    simp only [hqualified]
    have wf₁ := h₁.grows.catalog.wellFormed wf
    refine after_bind (((register_grows (fun _ => True) d₁ wf₁ key kind size s.qualified).and
      (register_brings d₁ wf₁ key kind size s.qualified)).mono ?_ fun _ _ _ => trivial)
    rintro e d₂ ⟨⟨-, -, hscopes, -⟩, h₂⟩
    refine after_catalog ?_
    cases hattach : d₂.catalog.scopes.attach id e.handle with
    | error fault => trivial
    | ok t' =>
    have hs' : ∃ s', t'.get? id = some s' ∧ s'.qualified = s.qualified := by
      rw [← hscopes] at hs
      obtain ⟨s₂, hs₂, ⟨rfl, -⟩ | ⟨rfl, hfree⟩⟩ := ScopeTree.attach_ok hattach
      · exact ⟨s, hs, rfl⟩
      · obtain ⟨s', hs', he⟩ := (ScopeTree.carry_extends hs₂ hfree e.handle).scope hs
        exact ⟨s', hs', he.qualified⟩
    refine after_bind (after_of_run rfl (after_bind (after_of_run rfl (after_pure id ?_))))
    rw [← h₁.types]
    refine h₂.types.mono ?_
    rintro k n ⟨rfl, rfl⟩
    exact ⟨rfl, hs'⟩
  refine ((declareClass_grows (fun _ => True) d wf parent trivial key kind size).and htypes).mono
    ?_ fun _ _ h => h.1
  rintro id d' ⟨⟨hgrows, -, e, hclass⟩, hbrings⟩
  refine ⟨hgrows, by rw [hclass.type.found]; rfl, hbrings.mono ?_⟩
  rintro k n ⟨rfl, s, hs, hq⟩
  exact ⟨rfl, kind, size, id, e, s, hclass, hs, hq⟩

theorem enumeration_brings (d : Draft) (wf : d.catalog.WellFormed) (parent : ScopeId)
    (name : String) (key : Key) {base : Entry}
    (hbase : d.catalog.types.get? base.handle = some base) :
    After (enumeration parent name key base) d
      (fun _ d' => d.Brings key (fun c n => c.CarriedAs parent name key n) d')
      (fun _ d' => d' = d) := by
  have htypes : After (enumeration parent name key base) d
      (fun _ d' => d.catalog.types.Brings
        (fun k n => k = key ∧ d'.catalog.CarriedAs parent name key n) d'.catalog.types)
      (fun _ _ => True) := by
    unfold enumeration
    split
    case isFalse => trivial
    refine after_bind ((checkUnderlying_spec d name key base).mono ?_ fun _ _ _ => trivial)
    rintro _ d₀ ⟨rfl, -⟩
    refine after_bind ((declareClass_brings d₀ wf parent name key .enum base.size).mono ?_
      fun _ _ _ => trivial)
    intro id d₁ h₁
    refine after_catalog ?_
    split
    · refine after_bind (after_of_run rfl (after_pure _ ?_))
      refine h₁.types.mono ?_
      rintro k n ⟨rfl, kind, size, id', e, s, hclass, hs, hq⟩
      exact ⟨rfl, kind, size, id', e, s, ⟨hclass.type, hclass.member, hclass.scope⟩, hs, hq⟩
    · trivial
  refine ((enumeration_grows (fun _ => True) d wf parent trivial key hbase).and htypes).mono ?_
    fun _ _ h => h.1
  rintro en d' ⟨⟨hgrows, hen⟩, hbrings⟩
  exact ⟨hgrows, by rw [hen.owned.type.found]; rfl, hbrings⟩

theorem buildEnum_brings (d : Draft) (wf : d.catalog.WellFormed) (parent : ScopeId)
    (name : String) (key : Key) (underlying : String) :
    After (buildEnum parent name key underlying) d
      (fun _ d' => d.Brings key (fun c n => c.CarriedAs parent name key n) d')
      (fun _ d' => d' = d) := by
  unfold buildEnum
  refine after_catalog ?_
  cases hbase : d.catalog.types.lookupName? underlying with
  | none => rfl
  | some base =>
    exact enumeration_brings d wf parent name key (Registry.get?_of_lookupName? wf.types hbase)

theorem buildEnumOver_brings (d : Draft) (wf : d.catalog.WellFormed) (parent : ScopeId)
    (name : String) (key : Key) (underlying : Handle) :
    After (buildEnumOver parent name key underlying) d
      (fun _ d' => d.Brings key (fun c n => c.CarriedAs parent name key n) d')
      (fun _ d' => d' = d) := by
  unfold buildEnumOver
  refine after_bind ((requireType_spec d underlying).mono ?_ fun _ _ h => h)
  rintro base d₀ ⟨rfl, hget⟩
  have hbase : d₀.catalog.types.get? base.handle = some base := by
    rw [wf.types.handle hget]
    exact hget
  exact enumeration_brings d₀ wf parent name key hbase

end Change

/-! ## What the events tell -/

theorem Catalog.Grows.told {allowed : String → Prop} {c c' : Catalog} {events : List Event}
    (h : c.Grows allowed events c') (wf : c.WellFormed) {e : Entry}
    (he : .typeRegistered e ∈ events) :
    c'.types.get? e.handle = some e ∧ c.types.get? e.handle = none := by
  induction h with
  | refl => cases he
  | @step c₁ c₂ events more grown new ih =>
    have hext := new.keeps (grown.wellFormed wf)
    rcases List.mem_append.1 he with hold | hnew
    · exact ⟨hext.types.get? (ih hold).1, (ih hold).2⟩
    · cases new with
      | type kind size name free =>
        obtain rfl := Event.typeRegistered.inj (List.mem_singleton.1 hnew)
        refine ⟨by rw [Registry.get?_push, if_pos (Registry.push_handle _ _ _ _ _)], ?_⟩
        rw [Option.eq_none_iff_forall_ne_some]
        intro e' he'
        have hlt := Registry.get?_lt ((grown.keeps wf).types.get? he')
        exact absurd hlt (Nat.lt_irrefl _)
      | scope kind found free good => simp at hnew
      | member found free covered owner => simp at hnew
      | facet found free live => cases hnew
      | underlying found kind baseFound integral size => cases hnew

end TypeCatalog
