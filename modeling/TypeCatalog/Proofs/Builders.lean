import TypeCatalog.Catalog.Enumeration
import TypeCatalog.Catalog.FundamentalType
import TypeCatalog.Proofs.Changes

/-!
# What each builder does

The builders take several steps, and a step after the first could fail. The checks in front see to
it that none does: a builder that fails has changed nothing, and one that is run again finds
everything in place.
-/

namespace TypeCatalog

variable (allowed : String → Prop)

/-! ## Classes -/

/-- Under `name`, `parent` binds a scope that carries the type under `key`. -/
structure Catalog.HasClass (c : Catalog) (parent : ScopeId) (name : String) (key : Key)
    (kind : TypeKind) (size : Nat) (id : ScopeId) (e : Entry) : Prop where
  type : c.types.HasType key kind size e
  member : c.scopes.member? parent name = some (.scope id)
  scope : ∃ s, c.scopes.get? id = some s ∧ kind.scopeKind? = some s.kind ∧
    s.facet = some e.handle

theorem Catalog.HasClass.mono {c c' : Catalog} {parent id : ScopeId} {name : String} {key : Key}
    {kind : TypeKind} {size : Nat} {e : Entry} (h : c.HasClass parent name key kind size id e)
    (hext : c.Extends c') : c'.HasClass parent name key kind size id e := by
  obtain ⟨s, hs, hkind, hfacet⟩ := h.scope
  obtain ⟨s', hs', he⟩ := hext.scopes.scope hs
  exact ⟨hext.types.hasType h.type, hext.scopes.member? h.member,
    s', hs', by rw [he.kind]; exact hkind, he.facet hfacet⟩

namespace Change

/-- A type that a scope of this name carries already has this key. -/
def FacetFits (c : Catalog) (parent : ScopeId) (name : String) (key : Key) : Prop :=
  ∀ id s h e, c.scopes.member? parent name = some (.scope id) → c.scopes.get? id = some s →
    s.facet = some h → c.types.get? h = some e → e.key = key

theorem checkFacet_spec (d : Draft) (parent : ScopeId) (name : String) (key : Key) :
    After (checkFacet parent name key) d
      (fun _ d' => d' = d ∧ FacetFits d.catalog parent name key) (fun _ d' => d' = d) := by
  unfold checkFacet
  refine after_catalog ?_
  -- The type that the check finds is the one that `FacetFits` speaks of.
  have found : ∀ {id s h e}, d.catalog.scopes.member? parent name = some (.scope id) →
      d.catalog.scopes.get? id = some s → s.facet = some h → d.catalog.types.get? h = some e →
      (do
        let scope ← (← d.catalog.scopes.member? parent name).scope?
        d.catalog.types.get? (← (← d.catalog.scopes.info? scope).facet)) = some e := by
    intro id s h e hm hs hfacet he
    simp [hm, Member.scope?, ScopeTree.info?, hs, hfacet, he]
  simp only
  split
  · next entry hfacet =>
    split
    · rfl
    · next hkey =>
      refine ⟨rfl, ?_⟩
      intro id s h e hm hs hf he
      rw [found hm hs hf he] at hfacet
      rw [Option.some.inj hfacet]
      exact not_not.1 hkey
  · next hnone =>
    refine ⟨rfl, ?_⟩
    intro id s h e hm hs hf he
    rw [found hm hs hf he] at hnone
    cases hnone

theorem declareClass_grows (d : Draft) (wf : d.catalog.WellFormed) (parent : ScopeId)
    {name : String} (good : allowed name) (key : Key) (kind : TypeKind) (size : Nat) :
    After (declareClass parent name key kind size) d
      (fun id d' => d.Grows allowed d' ∧ d'.catalog.underlying = d.catalog.underlying ∧
        ∃ e, d'.catalog.HasClass parent name key kind size id e)
      (fun _ d' => d' = d) := by
  unfold declareClass
  split
  case h_2 => rfl
  next scopeKind hkind =>
  refine after_catalog ?_
  cases hcheck : d.catalog.types.check key kind size with
  | error fault => rfl
  | ok o =>
  refine after_bind (after_of_run (run_discard rfl) ?_)
  refine after_catalog ?_
  split
  case isFalse => rfl
  refine after_bind ((checkFacet_spec d parent name key).mono ?_ fun _ _ h => h)
  rintro _ d₀ ⟨rfl, hfits⟩
  refine after_bind
    ((declareScope_grows allowed d₀ wf parent good scopeKind).mono ?_ fun _ _ h => h)
  intro id d₁ h₁
  have wf₁ := h₁.grows.catalog.wellFormed wf
  refine after_catalog ?_
  refine after_bind ((register_succeeds allowed d₁ wf₁ ?_ _).mono ?_ fun _ _ h => h.elim)
  · rw [h₁.types]
    exact Registry.check_ok hcheck
  rintro e d₂ ⟨hg₂, htype, hscopes, hunder₂⟩
  obtain ⟨s, hs, hk, hnew⟩ := h₁.scope
  have hs₂ : d₂.catalog.scopes.get? id = some s := by rw [hscopes]; exact hs
  have wf₂ := hg₂.catalog.wellFormed wf₁
  -- The scope carries no type yet, or the one that has just been found under the key.
  have hfacet : ∀ h, s.facet = some h → h = e.handle := by
    intro h hf
    rcases hnew with rfl | hnone
    · obtain ⟨e', he'⟩ := Option.isSome_iff_exists.1 (wf₁.facet hs hf)
      have hkey := hfits id s h e' h₁.member hs hf he'
      have hlookup := hg₂.catalog.keeps wf₁ |>.types.get? he'
      have hhandle := wf₂.types.handle hlookup
      have : d₂.catalog.types.lookup? key = some e' :=
        (Registry.lookup?_eq_some_iff wf₂.types).2 ⟨by rw [hhandle]; exact hlookup, hkey⟩
      rw [htype.found] at this
      rw [Option.some.inj this, hhandle]
    · rw [hnone] at hf
      cases hf
  have hlive : (d₂.catalog.types.get? e.handle).isSome := by
    rw [htype.get? wf₂.types]
    rfl
  obtain ⟨t', ht'⟩ := ScopeTree.attach_succeeds hs₂ hfacet
  obtain ⟨hg₃, s₃, hs₃, hf₃⟩ := attach_grows allowed d₂ hlive ht'
  refine after_catalog ?_
  rw [ht']
  refine after_bind (after_of_run rfl ?_)
  refine after_bind (after_of_run rfl ?_)
  refine ⟨h₁.grows.trans (hg₂.trans hg₃), hunder₂.trans h₁.underlying, e, htype, ?_, s₃, hs₃, ?_,
    hf₃⟩
  · have hext := ((hg₂.trans hg₃).catalog.keeps wf₁).scopes
    exact hext.member? h₁.member
  · obtain ⟨s', hs', he⟩ := ((hg₂.trans hg₃).catalog.keeps wf₁).scopes.scope hs
    obtain rfl : s' = s₃ := Option.some.inj (hs'.symm.trans hs₃)
    rw [he.kind, hk]
    exact hkind

theorem declareClass_again {d : Draft} (wf : d.catalog.WellFormed) {parent id : ScopeId}
    {name : String} {key : Key} {kind : TypeKind} {size : Nat} {e : Entry}
    (h : d.catalog.HasClass parent name key kind size id e) :
    EStateM.run (declareClass parent name key kind size) d = .ok id d := by
  obtain ⟨s, hs, hkind, hfacet⟩ := h.scope
  obtain ⟨p, hp, -⟩ := Option.bind_eq_some_iff.1 h.member
  obtain ⟨hget, hkey⟩ := (Registry.lookup?_eq_some_iff wf.types).1 h.type.found
  have hcheck : d.catalog.types.check key kind size = .ok (some e) := by
    unfold Registry.check
    rw [h.type.found]
    simp only
    rw [if_pos ⟨h.type.kind, h.type.size⟩]
  have hfits : EStateM.run (checkFacet parent name key) d = .ok () d := by
    unfold checkFacet
    rw [run_catalog]
    simp [h.member, Member.scope?, ScopeTree.info?, hs, hfacet, hget, hkey, pure, EStateM.pure,
      EStateM.run]
  unfold declareClass
  rw [hkind]
  simp only
  rw [run_catalog, hcheck, run_bind (run_discard (run_ofExcept _ d)), run_catalog,
    ScopeTree.contains, hp]
  simp only [Option.isSome_some, ↓reduceIte]
  rw [run_bind hfits, run_bind (declareScope_again h.member hs rfl), run_catalog,
    run_bind (register_again h.type _), run_catalog, ScopeTree.attach_again hs hfacet]
  rfl

end Change

/-! ## Fundamental types -/

/-- A fundamental type is registered, and its name stands for something. -/
structure Catalog.HasFundamental (c : Catalog) (key : Key) (name : String) (size : Nat)
    (e : Entry) : Prop where
  width : c.settings.supportsWidth size
  type : c.types.HasType key .fundamental size e
  bound : ∃ m, c.scopes.member? .global name = some m

theorem Catalog.HasFundamental.mono {c c' : Catalog} {key : Key} {name : String} {size : Nat}
    {e : Entry} (h : c.HasFundamental key name size e) (hext : c.Extends c') :
    c'.HasFundamental key name size e := by
  obtain ⟨m, hm⟩ := h.bound
  exact ⟨by rw [hext.settings]; exact h.width, hext.types.hasType h.type, m, hext.scopes.member? hm⟩

namespace Change

theorem checkWidth_spec (d : Draft) (name : String) (size : Nat) :
    After (checkWidth name size) d
      (fun _ d' => d' = d ∧ d.catalog.settings.supportsWidth size) (fun _ d' => d' = d) := by
  unfold checkWidth
  refine after_catalog ?_
  split
  · next h => exact ⟨rfl, h⟩
  · rfl

theorem fundamental_grows (d : Draft) (wf : d.catalog.WellFormed) (key : Key) (name : String)
    (size : Nat) :
    After (fundamental key name size) d
      (fun e d' => d.Grows allowed d' ∧ d'.catalog.HasFundamental key name size e)
      (fun _ d' => d' = d) := by
  unfold fundamental
  refine after_bind ((checkWidth_spec d name size).mono ?_ fun _ _ h => h)
  rintro _ d₀ ⟨rfl, hwidth⟩
  refine after_bind ((register_grows allowed d₀ wf key .fundamental size name).mono ?_
    fun _ _ h => h)
  rintro e d₁ ⟨hg₁, htype, -, -⟩
  have wf₁ := hg₁.catalog.wellFormed wf
  have hext₁ := hg₁.catalog.keeps wf
  have hwidth₁ : d₁.catalog.settings.supportsWidth size := by rw [hext₁.settings]; exact hwidth
  refine after_catalog ?_
  split
  · next hfree =>
    obtain ⟨s, hs, -⟩ := wf₁.scopes.root
    rw [ScopeTree.member?_of_get? hs] at hfree
    have hcovered : d₁.catalog.Covers (.type e.handle) :=
      Catalog.covers_of_get? (htype.get? wf₁.types) rfl
    refine after_bind ((addMember_succeeds allowed d₁ hs hfree hcovered rfl).mono ?_
      fun _ _ h => h.elim)
    rintro _ d₂ ⟨hg₂, hm⟩
    have hext₂ := hg₂.catalog.keeps wf₁
    exact ⟨hg₁.trans hg₂, by rw [hext₂.settings]; exact hwidth₁, hext₂.types.hasType htype, _, hm⟩
  · next m hm => exact ⟨hg₁, hwidth₁, htype, m, hm⟩

theorem fundamental_again {d : Draft} {key : Key} {name : String} {size : Nat} {e : Entry}
    (h : d.catalog.HasFundamental key name size e) :
    EStateM.run (fundamental key name size) d = .ok e d := by
  obtain ⟨m, hm⟩ := h.bound
  have hwidth : EStateM.run (checkWidth name size) d = .ok () d := by
    unfold checkWidth
    rw [run_catalog, if_pos h.width]
    rfl
  unfold fundamental
  rw [run_bind hwidth, run_bind (register_again h.type name), run_catalog, hm]
  rfl

end Change

/-! ## Enums -/

/-- Under `name`, `parent` binds an enum over `base`. -/
structure Catalog.HasEnum (c : Catalog) (parent : ScopeId) (name : String) (key : Key)
    (base : Entry) (en : Enumeration) : Prop where
  integral : base.isIntegral
  owned : c.HasClass parent name key .enum base.size en.scope en.type
  handle : en.underlying = base.handle
  underlying : c.underlying.get? en.type.handle = some base.handle

theorem Catalog.HasEnum.mono {c c' : Catalog} {parent : ScopeId} {name : String} {key : Key}
    {base : Entry} {en : Enumeration} (h : c.HasEnum parent name key base en)
    (hext : c.Extends c') : c'.HasEnum parent name key base en :=
  ⟨h.integral, h.owned.mono hext, h.handle, hext.underlying h.underlying⟩

/-- What the last step of building an enum reads back is the type just declared. -/
theorem Catalog.HasClass.facet {c : Catalog} (wf : c.WellFormed) {parent id : ScopeId}
    {name : String} {key : Key} {kind : TypeKind} {size : Nat} {e : Entry}
    (h : c.HasClass parent name key kind size id e) :
    ((c.scopes.info? id).bind (·.facet)).bind c.types.get? = some e := by
  obtain ⟨s, hs, -, hfacet⟩ := h.scope
  rw [ScopeTree.info?, hs, Option.map_some, Option.bind_some, hfacet, Option.bind_some,
    h.type.get? wf.types]

namespace Change

/-- An enum that is there already is over this type. -/
def UnderlyingFits (c : Catalog) (key : Key) (base : Entry) : Prop :=
  ∀ e b, c.types.lookup? key = some e → c.underlying.get? e.handle = some b → b = base.handle

theorem checkUnderlying_spec (d : Draft) (name : String) (key : Key) (base : Entry) :
    After (checkUnderlying name key base) d
      (fun _ d' => d' = d ∧ UnderlyingFits d.catalog key base) (fun _ d' => d' = d) := by
  unfold checkUnderlying
  refine after_catalog ?_
  split
  · next b hb =>
    obtain ⟨e, he, hu⟩ := Option.bind_eq_some_iff.1 hb
    split
    · rfl
    · next hsame =>
      refine ⟨rfl, ?_⟩
      intro e' b' he' hb'
      obtain rfl : e' = e := Option.some.inj (he'.symm.trans he)
      rw [Option.some.inj (hb'.symm.trans hu)]
      exact not_not.1 hsame
  · next hnone =>
    refine ⟨rfl, ?_⟩
    intro e b he hb
    rw [he, Option.bind_some, hb] at hnone
    cases hnone

theorem enumeration_grows (d : Draft) (wf : d.catalog.WellFormed) (parent : ScopeId)
    {name : String} (good : allowed name) (key : Key) {base : Entry}
    (hbase : d.catalog.types.get? base.handle = some base) :
    After (enumeration parent name key base) d
      (fun en d' => d.Grows allowed d' ∧ d'.catalog.HasEnum parent name key base en)
      (fun _ d' => d' = d) := by
  unfold enumeration
  split
  case isFalse => rfl
  next hintegral =>
  refine after_bind ((checkUnderlying_spec d name key base).mono ?_ fun _ _ h => h)
  rintro _ d₀ ⟨rfl, hfits⟩
  refine after_bind ((declareClass_grows allowed d₀ wf parent good key .enum base.size).mono ?_
    fun _ _ h => h)
  rintro id d₁ ⟨hg₁, hunder, e, hclass⟩
  have wf₁ := hg₁.catalog.wellFormed wf
  have hext₁ := hg₁.catalog.keeps wf
  refine after_catalog ?_
  rw [hclass.facet wf₁]
  refine after_bind (after_of_run rfl ?_)
  have hadd : Addition allowed d₁.catalog []
      { d₁.catalog with underlying := d₁.catalog.underlying.keep e.handle base.handle } :=
    .underlying _ (hclass.type.get? wf₁.types) hclass.type.kind (hext₁.types.get? hbase) hintegral
      hclass.type.size
  refine ⟨hg₁.trans ⟨[], (List.append_nil _).symm, .single hadd⟩, hintegral, ?_, rfl, ?_⟩
  · exact hclass.mono (hadd.keeps wf₁)
  -- If the enum has an underlying type already, it was there before, and the check has seen it.
  · show (d₁.catalog.underlying.keep e.handle base.handle).get? e.handle = some base.handle
    rw [Table.get?_keep]
    cases hold : d₁.catalog.underlying.get? e.handle with
    | none => simp
    | some b =>
      rw [hunder] at hold
      obtain ⟨e', he'⟩ := Option.isSome_iff_exists.1 (wf.underlying hold)
      obtain rfl : e' = e :=
        Option.some.inj ((hext₁.types.get? he').symm.trans (hclass.type.get? wf₁.types))
      have hkey := ((Registry.lookup?_eq_some_iff wf₁.types).1 hclass.type.found).2
      have hlookup := (Registry.lookup?_eq_some_iff wf.types).2 ⟨he', hkey⟩
      rw [hfits e' b hlookup hold]
      rfl

theorem enumeration_again {d : Draft} (wf : d.catalog.WellFormed) {parent : ScopeId}
    {name : String} {key : Key} {base : Entry} {en : Enumeration}
    (h : d.catalog.HasEnum parent name key base en) :
    EStateM.run (enumeration parent name key base) d = .ok en d := by
  have hfits : EStateM.run (checkUnderlying name key base) d = .ok () d := by
    unfold checkUnderlying
    rw [run_catalog, h.owned.type.found, Option.bind_some, h.underlying]
    simp only [ne_eq, not_true_eq_false, ↓reduceIte]
    rfl
  unfold enumeration
  rw [if_pos h.integral, run_bind hfits, run_bind (declareClass_again wf h.owned), run_catalog,
    h.owned.facet wf]
  show EStateM.Result.ok (Enumeration.mk en.type en.scope base.handle)
    { d with catalog := { d.catalog with
      underlying := d.catalog.underlying.keep en.type.handle base.handle } } = .ok en d
  rw [Table.keep_of_bound h.underlying, ← h.handle]

theorem buildEnum_grows (d : Draft) (wf : d.catalog.WellFormed) (parent : ScopeId) {name : String}
    (good : allowed name) (key : Key) (underlying : String) :
    After (buildEnum parent name key underlying) d
      (fun en d' => d.Grows allowed d' ∧
        ∃ base, d.catalog.types.lookupName? underlying = some base ∧
          d'.catalog.HasEnum parent name key base en)
      (fun _ d' => d' = d) := by
  unfold buildEnum
  refine after_catalog ?_
  cases hbase : d.catalog.types.lookupName? underlying with
  | none => rfl
  | some base =>
    have hget := Registry.get?_of_lookupName? wf.types hbase
    refine (enumeration_grows allowed d wf parent good key hget).mono ?_ fun _ _ h => h
    rintro en d' ⟨hg, hen⟩
    exact ⟨hg, base, rfl, hen⟩

theorem buildEnum_again {d : Draft} (wf : d.catalog.WellFormed) {parent : ScopeId} {name : String}
    {key : Key} {underlying : String} {base : Entry} {en : Enumeration}
    (hbase : d.catalog.types.lookupName? underlying = some base)
    (h : d.catalog.HasEnum parent name key base en) :
    EStateM.run (buildEnum parent name key underlying) d = .ok en d := by
  unfold buildEnum
  rw [run_catalog, hbase]
  exact enumeration_again wf h

theorem buildEnumOver_grows (d : Draft) (wf : d.catalog.WellFormed) (parent : ScopeId)
    {name : String} (good : allowed name) (key : Key) (underlying : Handle) :
    After (buildEnumOver parent name key underlying) d
      (fun en d' => d.Grows allowed d' ∧
        ∃ base, d.catalog.types.get? underlying = some base ∧
          d'.catalog.HasEnum parent name key base en)
      (fun _ d' => d' = d) := by
  unfold buildEnumOver
  refine after_bind ((requireType_spec d underlying).mono ?_ fun _ _ h => h)
  rintro base d₀ ⟨rfl, hget⟩
  have hbase : d₀.catalog.types.get? base.handle = some base := by
    rw [wf.types.handle hget]
    exact hget
  refine (enumeration_grows allowed d₀ wf parent good key hbase).mono ?_ fun _ _ h => h
  rintro en d' ⟨hg, hen⟩
  exact ⟨hg, base, hget, hen⟩

theorem addEnumerator_grows (d : Draft) (e : Enumeration) (name : String) (value : Int64) :
    After (addEnumerator e name value) d
      (fun _ d' => d.Grows allowed d' ∧
        d'.catalog.scopes.member? e.scope name = some (.enumerator e.type.handle value))
      (fun _ d' => d' = d) := by
  unfold addEnumerator
  refine after_catalog ?_
  split
  · rfl
  · exact addMember_grows allowed d e.scope name _

end Change

theorem Catalog.mem_enumerators {c : Catalog} (wf : c.WellFormed) {e : Enumeration}
    {new : Enumerator} :
    new ∈ c.enumerators e ↔
      c.scopes.member? e.scope new.name = some (.enumerator e.type.handle new.value) := by
  unfold Catalog.enumerators ScopeTree.members? ScopeTree.member?
  cases hs : c.scopes.get? e.scope with
  | none => simp
  | some s =>
    simp only [Option.map_some, Option.getD_some, List.mem_filterMap, Option.bind_some]
    constructor
    · rintro ⟨⟨name, m⟩, hm, hnew⟩
      have hget := Table.get?_of_mem_entries (wf.scopes.distinct hs) hm
      cases m with
      | enumerator owner value =>
        simp only [Option.ite_none_right_eq_some, Option.some.injEq] at hnew
        obtain ⟨rfl, rfl⟩ := hnew
        exact hget
      | type h | scope id | function h mods | dataMember h o mods => cases hnew
    · intro hget
      refine ⟨_, Table.mem_entries_of_get? hget, ?_⟩
      simp

end TypeCatalog
