import TypeCatalog.Proofs.CanonicalEnums
import TypeCatalog.Proofs.Keeping
import TypeCatalog.Proofs.Repetition

/-!
# The types that scopes carry

A class is declared together with a scope of the kind that it owns, and so is an enum. A type can
also be attached to a scope by hand, and then nobody asks whether the two belong together. Where a
scope carries a type that does not own scopes of its kind, that is how it came to it.
-/

namespace TypeCatalog

/-- The scope is of the kind that scopes of the type are. -/
def Catalog.Suits (c : Catalog) (h : Handle) (id : ScopeId) : Prop :=
  ∃ s e, c.scopes.get? id = some s ∧ c.types.get? h = some e ∧ e.kind.scopeKind? = some s.kind

theorem TypeKind.scopeKind?_ne_namespace (kind : TypeKind) :
    kind.scopeKind? ≠ some .namespace := by
  cases kind <;> decide

namespace Catalog

variable {c c' c'' : Catalog}

theorem Suits.mono {h : Handle} {id : ScopeId} (suits : c.Suits h id) (hext : c.Extends c') :
    c'.Suits h id := by
  obtain ⟨s, e, hs, he, hkind⟩ := suits
  obtain ⟨s', hs', hsame⟩ := hext.scopes.scope hs
  exact ⟨s', e, hs', hext.types.get? he, by rw [hsame.kind]; exact hkind⟩

theorem HasClass.suits (wf : c.WellFormed) {parent id : ScopeId} {name : String} {key : Key}
    {kind : TypeKind} {size : Nat} {e : Entry} {h : Handle}
    (declared : c.HasClass parent name key kind size id e) (carried : c.scopes.Carries id h) :
    c.Suits h id := by
  obtain ⟨s, hs, hkind, hfacet⟩ := declared.scope
  obtain ⟨s', hs', hfacet'⟩ := ScopeTree.carries_iff.1 carried
  obtain rfl : s = s' := Option.some.inj (hs.symm.trans hs')
  obtain rfl : e.handle = h := Option.some.inj (hfacet.symm.trans hfacet')
  exact ⟨s, e, hs, declared.type.get? wf.types, by rw [declared.type.kind]; exact hkind⟩

/-- In the later catalog scopes carry what they have carried before, or what suits them. -/
def AttachesSuited (c c' : Catalog) : Prop :=
  ∀ id h, c'.scopes.Carries id h → c.scopes.Carries id h ∨ c'.Suits h id

namespace AttachesSuited

theorem of_scopes (same : c'.scopes = c.scopes) : c.AttachesSuited c' := by
  intro id h hc
  rw [same] at hc
  exact .inl hc

theorem trans (first : c.AttachesSuited c') (second : c'.AttachesSuited c'')
    (hext : c'.Extends c'') : c.AttachesSuited c'' := by
  intro id h hc
  rcases second id h hc with hmid | hsuits
  · rcases first id h hmid with hold | hsuits
    · exact .inl hold
    · exact .inr (hsuits.mono hext)
  · exact .inr hsuits

end AttachesSuited

end Catalog

/-! ## Changes -/

/-- If the change succeeds it attaches what suits, and if it fails it does nothing. -/
def Change.AttachesSuited {α : Type} (change : Change α) (d : Draft) : Prop :=
  After change d
    (fun _ d' => d.Grows (fun _ => True) d' ∧ d.catalog.AttachesSuited d'.catalog)
    (fun _ d' => d' = d)

theorem ScopeTree.attach_ok_iff {t : ScopeTree} {scope : ScopeId} {h : Handle} :
    (∃ t', t.attach scope h = .ok t') ↔
      ∃ s, t.get? scope = some s ∧ (s.facet = none ∨ s.facet = some h) := by
  constructor
  · rintro ⟨t', hok⟩
    obtain ⟨s, hs, ⟨-, hfacet⟩ | ⟨-, hfree⟩⟩ := attach_ok hok
    · exact ⟨s, hs, .inr hfacet⟩
    · exact ⟨s, hs, .inl hfree⟩
  · rintro ⟨s, hs, hfacet | hfacet⟩
    · refine ⟨t.carry scope h, ?_⟩
      rw [attach, hs]
      simp only [hfacet]
      rfl
    · refine ⟨t, ?_⟩
      rw [attach, hs]
      simp only [hfacet, if_true]

namespace Change

variable {α : Type} {change : Change α} {d : Draft}

theorem AttachesSuited.of_attaches (done : α → Catalog → Prop) {new : α → ScopeId → Prop}
    (wf : d.catalog.WellFormed) (attaches : change.Attaches d new)
    (grows : After change d (fun a d' => d.Grows (fun _ => True) d' ∧ done a d'.catalog)
      (fun _ d' => d' = d))
    (suits : ∀ {a c id h}, c.WellFormed → done a c → new a id → c.scopes.Carries id h →
      c.Suits h id) :
    change.AttachesSuited d := by
  refine (grows.and attaches).mono ?_ fun _ _ h => h.1
  rintro a d' ⟨⟨hgrows, hdone⟩, hattaches⟩
  refine ⟨hgrows, fun id h hc => ?_⟩
  rcases hattaches id h hc with hold | hnew
  · exact .inl hold
  · exact .inr (suits (hgrows.catalog.wellFormed wf) hdone hnew hc)

theorem AttachesSuited.of_none (wf : d.catalog.WellFormed)
    (attaches : change.Attaches d fun _ _ => False)
    (grows : After change d (fun _ d' => d.Grows (fun _ => True) d') (fun _ d' => d' = d)) :
    change.AttachesSuited d :=
  .of_attaches (fun _ _ => True) wf attaches
    (grows.mono (fun _ _ h => ⟨h, trivial⟩) fun _ _ h => h) fun _ _ h _ => h.elim

theorem declareClass_suited (wf : d.catalog.WellFormed) (parent : ScopeId) (name : String)
    (key : Key) (kind : TypeKind) (size : Nat) :
    (declareClass parent name key kind size).AttachesSuited d := by
  refine .of_attaches (fun id c => ∃ e, c.HasClass parent name key kind size id e) wf
    (declareClass_edits d parent name key kind size).attaches ?_ ?_
  · exact (declareClass_grows _ d wf parent trivial key kind size).mono
      (fun _ _ h => ⟨h.1, h.2.2⟩) fun _ _ h => h
  · rintro id c _ h wf' ⟨e, hclass⟩ rfl hc
    exact hclass.suits wf' hc

/-- What builds an enum, by whatever means it gets the underlying type. -/
theorem AttachesSuited.of_enum {change : Change Enumeration} {parent : ScopeId} {name : String}
    {key : Key} {given : Entry → Prop} (wf : d.catalog.WellFormed)
    (attaches : change.Attaches d fun en => (· = en.scope))
    (grows : After change d (fun en d' => d.Grows (fun _ => True) d' ∧
        ∃ base, given base ∧ d'.catalog.HasEnum parent name key base en)
      (fun _ d' => d' = d)) :
    change.AttachesSuited d := by
  refine .of_attaches (fun en c => ∃ base, c.HasEnum parent name key base en) wf attaches ?_ ?_
  · exact grows.mono (fun _ _ ⟨hgrows, base, _, henum⟩ => ⟨hgrows, base, henum⟩) fun _ _ h => h
  · rintro en c _ h wf' ⟨base, henum⟩ rfl hc
    exact henum.owned.suits wf' hc

/-- The type is registered, and the scope carries no other one. -/
def Attachable (c : Catalog) (scope : ScopeId) (h : Handle) : Prop :=
  (c.types.get? h).isSome ∧ ∃ s, c.scopes.get? scope = some s ∧ (s.facet = none ∨ s.facet = some h)

theorem attachType_outcome (d : Draft) (scope : ScopeId) (h : Handle) :
    After (attachType scope h) d (fun _ _ => Attachable d.catalog scope h)
      (fun _ _ => ¬Attachable d.catalog scope h) := by
  unfold attachType requireType
  refine after_bind (after_discard (after_catalog ?_))
  cases he : d.catalog.types.get? h with
  | none =>
    rintro ⟨hlive, -⟩
    rw [he] at hlive
    cases hlive
  | some e =>
    refine after_pure e (after_catalog ?_)
    cases hattach : d.catalog.scopes.attach scope h with
    | error fault =>
      rintro ⟨-, hfree⟩
      obtain ⟨t', ht'⟩ := ScopeTree.attach_ok_iff.2 hfree
      rw [ht'] at hattach
      cases hattach
    | ok t' => exact ⟨by rw [he]; rfl, ScopeTree.attach_ok_iff.1 ⟨t', hattach⟩⟩

end Change

namespace Hub

/-! ## Operations -/

/-- The hub is consistent, and what has been attached since `start` suits. -/
structure SuitedSince (start : Catalog) (hub : Hub) : Prop where
  wellFormed : hub.catalog.WellFormed
  suited : start.AttachesSuited hub.catalog

theorem commit_suited {α : Type} {change : Change α} {start : Catalog}
    (suited : ∀ d : Draft, d.catalog.WellFormed → change.AttachesSuited d) :
    Keeps (SuitedSince start) (commit change) := by
  intro hub h
  refine after_commit ((suited ⟨hub.catalog, []⟩ h.wellFormed).mono ?_ ?_)
  · rintro a d ⟨hgrows, hattaches⟩
    have wf' := hgrows.catalog.wellFormed h.wellFormed
    have htell := tell_growsTo (fun _ => True) { hub with catalog := d.catalog } d.events wf'
    -- The shadows of types are types, so telling of the change attaches nothing.
    have hscopes := announce_scopes (echoDepth { hub with catalog := d.catalog })
      { hub with catalog := d.catalog } d.events
    have hchange := h.suited.trans hattaches (hgrows.catalog.keeps h.wellFormed)
    exact ⟨htell.wellFormed wf', hchange.trans (.of_scopes hscopes) (htell.keeps wf')⟩
  · rintro fault d rfl
    rw [tell_nil]
    exact h

theorem suitedSince_building (start : Catalog) : BuildingKeeps (SuitedSince start) where
  register key kind size name := commit_suited fun d wf =>
    .of_none wf (Change.register_edits d key kind size name).attaches
      ((Change.register_grows _ d wf key kind size name).mono (fun _ _ h => h.1) fun _ _ h => h)
  declareScope parent name kind := commit_suited fun d wf =>
    .of_none wf (Change.declareScope_edits d parent name kind).attaches
      ((Change.declareScope_grows _ d wf parent trivial kind).mono (fun _ _ h => h.grows)
        fun _ _ h => h)
  addMember scope name m := commit_suited fun d wf =>
    .of_none wf (Change.addMember_edits d scope name m).attaches
      ((Change.addMember_grows _ d scope name m).mono (fun _ _ h => h.1) fun _ _ h => h)
  declareClass parent name key kind size := commit_suited fun _ wf =>
    Change.declareClass_suited wf parent name key kind size
  fundamental key name size := commit_suited fun d wf =>
    .of_none wf (Change.fundamental_edits d key name size).attaches
      ((Change.fundamental_grows _ d wf key name size).mono (fun _ _ h => h.1) fun _ _ h => h)
  buildEnum parent name key underlying := commit_suited fun d wf =>
    .of_enum wf (Change.buildEnum_edits d parent name key underlying).attaches
      (Change.buildEnum_grows _ d wf parent trivial key underlying)
  buildEnumOver parent name key underlying := commit_suited fun d wf =>
    .of_enum wf (Change.buildEnumOver_edits d parent name key underlying).attaches
      (Change.buildEnumOver_grows _ d wf parent trivial key underlying)
  addEnumerator e name value := commit_suited fun d wf =>
    .of_none wf (Change.addEnumerator_edits d e name value).attaches
      ((Change.addEnumerator_grows _ d e name value).mono (fun _ _ h => h.1) fun _ _ h => h)

theorem execute_attachType (hub : Hub) (scope : ScopeId) (h : Handle) {id : ScopeId} {h' : Handle}
    (carried : (hub.execute (.attachType scope h)).2.catalog.scopes.Carries id h') :
    hub.catalog.scopes.Carries id h' ∨ id = scope ∧ h' = h := by
  have hchange := (Change.attachType_edits ⟨hub.catalog, []⟩ scope h).attaches.and
    (Change.attachType_spec ⟨hub.catalog, []⟩ scope h)
  refine execute_holds (fun hub' => hub'.catalog.scopes.Carries id h' →
    hub.catalog.scopes.Carries id h' ∨ id = scope ∧ h' = h) ?_ carried
  refine after_answer (fun _ => .done) (after_commit (hchange.mono ?_ ?_))
  · rintro _ d ⟨hattaches, -, hcarries⟩ hc
    rw [tell, announce_scopes] at hc
    rcases hattaches id h' hc with hold | rfl
    · exact .inl hold
    · exact .inr ⟨rfl, Option.some.inj (hc.symm.trans hcarries)⟩
  · rintro fault d ⟨-, rfl⟩ hc
    rw [tell_nil] at hc
    exact .inl hc

theorem execute_attachType_ok_iff (hub : Hub) (scope : ScopeId) (h : Handle) :
    (∃ r, (hub.execute (.attachType scope h)).1 = .ok r) ↔
      Change.Attachable hub.catalog scope h := by
  have houtcome : After (perform (.attachType scope h)) hub
      (fun _ _ => Change.Attachable hub.catalog scope h)
      (fun _ _ => ¬Change.Attachable hub.catalog scope h) :=
    after_bind (after_commit (Change.attachType_outcome ⟨hub.catalog, []⟩ scope h))
  rcases execute_ends houtcome with ⟨hok, hyes⟩ | ⟨⟨fault, hfault⟩, hno⟩
  · exact iff_of_true hok hyes
  · refine iff_of_false ?_ hno
    rintro ⟨r, hr⟩
    rw [hfault] at hr
    cases hr

theorem execute_attaches (hub : Hub) (wf : hub.catalog.WellFormed) (op : Operation) {id : ScopeId}
    {h : Handle} (carried : (hub.execute op).2.catalog.scopes.Carries id h) :
    hub.catalog.scopes.Carries id h ∨ (hub.execute op).2.catalog.Suits h id ∨
      op = .attachType id h := by
  by_cases builds : op.Builds
  · have start : SuitedSince hub.catalog hub := ⟨wf, .of_scopes rfl⟩
    rcases ((suitedSince_building hub.catalog).execute builds start).suited id h carried with
      hold | hsuits
    · exact .inl hold
    · exact .inr (.inl hsuits)
  · cases op with
    | setHidden handle hidden =>
      rcases execute_setHidden hub handle hidden with ⟨changed, types, -, hsame⟩ | hsame
      · rw [hsame] at carried
        exact .inl carried
      · rw [hsame] at carried
        exact .inl carried
    | attachType scope handle =>
      rcases execute_attachType hub scope handle carried with hold | ⟨rfl, rfl⟩
      · exact .inl hold
      · exact .inr (.inr rfl)
    | subscribe selection echo => exact .inl carried
    | unsubscribe subscription => exact .inl carried
    | _ => exact absurd trivial builds

/-! ## Histories -/

/-- The scope came to carry the type by hand. -/
def AttachedByHand (settings : CatalogSettings) (ops : List Operation) (id : ScopeId) (h : Handle) :
    Prop :=
  ∃ before after, ops = before ++ .attachType id h :: after ∧
    ¬((ofSettings settings).run before).catalog.scopes.Carries id h

theorem run_attaches (settings : CatalogSettings) (ops : List Operation) {id : ScopeId} {h : Handle}
    (carried : ((ofSettings settings).run ops).catalog.scopes.Carries id h) :
    ((ofSettings settings).run ops).catalog.Suits h id ∨ AttachedByHand settings ops id h := by
  induction ops using List.reverseRecOn with
  | nil =>
    -- An empty catalog has no types.
    obtain ⟨s, hs, hfacet⟩ := ScopeTree.carries_iff.1 carried
    cases (Catalog.empty_wellFormed settings).facet hs hfacet
  | append_singleton ops op ih =>
    have wf : ((ofSettings settings).run ops).catalog.WellFormed :=
      run_wellFormed _ (Catalog.empty_wellFormed settings) ops
    have hlast : (ofSettings settings).run (ops ++ [op]) =
        (((ofSettings settings).run ops).execute op).2 := run_append _ ops [op]
    rw [hlast] at carried ⊢
    by_cases hold : ((ofSettings settings).run ops).catalog.scopes.Carries id h
    · rcases ih hold with hsuits | ⟨before, after, rfl, hnot⟩
      · exact .inl (hsuits.mono (execute_extends _ wf op))
      · exact .inr ⟨before, after ++ [op], by simp, hnot⟩
    · rcases execute_attaches _ wf op carried with hc | hsuits | rfl
      · exact absurd hc hold
      · exact .inl hsuits
      · exact .inr ⟨ops, [], rfl, hold⟩

/-- How the scopes of a catalog have come to the types that they carry. -/
structure FacetsExplained (settings : CatalogSettings) (ops : List Operation) (hub : Hub) :
    Prop where
  suited : ∀ {id h}, hub.catalog.scopes.Carries id h →
    hub.catalog.Suits h id ∨ AttachedByHand settings ops id h
  /-- No type owns a namespace. -/
  namespaces : ∀ {id s h}, hub.catalog.scopes.get? id = some s → s.kind = .namespace →
    s.facet = some h → AttachedByHand settings ops id h
  global : ∀ {h}, hub.catalog.scopes.Carries .global h → AttachedByHand settings ops .global h
  /-- By hand, any type can be attached to any scope that does not carry another one. -/
  unchecked : ∀ id h, (∃ r, (hub.execute (.attachType id h)).1 = .ok r) ↔
    Change.Attachable hub.catalog id h

theorem facets_are_explained (settings : CatalogSettings) (ops : List Operation) :
    FacetsExplained settings ops ((ofSettings settings).run ops) := by
  have hext := run_extends (ofSettings settings) (Catalog.empty_wellFormed settings) ops
  have hnamespaces : ∀ {id s h},
      ((ofSettings settings).run ops).catalog.scopes.get? id = some s → s.kind = .namespace →
        s.facet = some h → AttachedByHand settings ops id h := by
    intro id s h hs hkind hfacet
    refine (run_attaches settings ops (ScopeTree.carries_iff.2 ⟨s, hs, hfacet⟩)).resolve_left ?_
    rintro ⟨s', e, hs', -, howned⟩
    obtain rfl : s = s' := Option.some.inj (hs.symm.trans hs')
    rw [hkind] at howned
    exact e.kind.scopeKind?_ne_namespace howned
  refine ⟨fun hc => run_attaches settings ops hc, hnamespaces, ?_, execute_attachType_ok_iff _⟩
  intro h hc
  obtain ⟨s, hs, hfacet⟩ := ScopeTree.carries_iff.1 hc
  have hglobal : (ofSettings settings).catalog.scopes.get? .global = some ScopeTree.root := rfl
  obtain ⟨s', hs', hroot⟩ := hext.scopes.scope hglobal
  obtain rfl : s = s' := Option.some.inj (hs.symm.trans hs')
  exact hnamespaces hs hroot.kind hfacet

/-- The global scope with a fundamental type. -/
def misfitted : Hub :=
  (ofSettings Settings.default.catalog).run [.buildFundamental "int" 4, .attachType .global ⟨0⟩]

theorem misfit_is_attached :
    misfitted.Reachable ∧ misfitted.catalog.scopes.Carries .global ⟨0⟩ ∧
      (misfitted.catalog.scopes.get? .global).map (·.kind) = some .namespace ∧
      (misfitted.catalog.types.get? ⟨0⟩).map (·.kind) = some .fundamental ∧
      ¬misfitted.catalog.Suits ⟨0⟩ .global := by
  have hkind : (misfitted.catalog.types.get? ⟨0⟩).map (·.kind) = some .fundamental := by decide
  refine ⟨⟨_, _, rfl⟩, by decide, by decide, hkind, ?_⟩
  rintro ⟨s, e, -, he, howned⟩
  rw [he, Option.map_some, Option.some.injEq] at hkind
  rw [hkind] at howned
  cases howned

end Hub

end TypeCatalog
