import TypeCatalog.Catalog.Basic
import TypeCatalog.Proofs.Growth
import TypeCatalog.Proofs.Work

/-!
# What each change does

A change that succeeds only adds to the catalog, and what it was to declare is there afterwards. A
change that fails leaves the draft as it was. The same change once more finds all of it and adds
nothing.
-/

namespace TypeCatalog

/-- The later draft has a grown catalog and the events of the growth. -/
def Draft.Grows (allowed : String → Prop) (d d' : Draft) : Prop :=
  ∃ more, d'.events = d.events ++ more ∧ d.catalog.Grows allowed more d'.catalog

namespace Draft.Grows

variable {allowed : String → Prop} {d d' d'' : Draft}

theorem refl (d : Draft) : d.Grows allowed d := ⟨[], (List.append_nil _).symm, .refl _⟩

theorem trans (h : d.Grows allowed d') (h' : d'.Grows allowed d'') : d.Grows allowed d'' := by
  obtain ⟨more, he, hg⟩ := h
  obtain ⟨more', he', hg'⟩ := h'
  exact ⟨more ++ more', by rw [he', he, List.append_assoc], hg.trans hg'⟩

theorem catalog (h : d.Grows allowed d') : d.catalog.GrowsTo allowed d'.catalog := by
  obtain ⟨more, -, hg⟩ := h
  exact ⟨more, hg⟩

end Draft.Grows

namespace Change

variable (allowed : String → Prop)

/-! ## Reading the catalog -/

theorem after_catalog {α : Type} {f : Catalog → Change α} {d : Draft} {done : α → Draft → Prop}
    {failed : Fault → Draft → Prop} (h : After (f d.catalog) d done failed) :
    After (catalog >>= f) d done failed := h

theorem run_catalog {α : Type} (f : Catalog → Change α) (d : Draft) :
    EStateM.run (catalog >>= f) d = EStateM.run (f d.catalog) d := rfl

theorem run_ofExcept {α : Type} (a : α) (d : Draft) :
    EStateM.run (ofExcept (.ok a)) d = .ok a d := rfl

/-! ## Registering a type -/

theorem register_spec (d : Draft) (key : Key) (kind : TypeKind) (size : Nat) (name : String) :
    After (register key kind size name) d
      (fun e d' => d' = d ∧ d.catalog.types.HasType key kind size e ∨
        d.catalog.types.lookup? key = none ∧ e = (d.catalog.types.push key kind size name).1 ∧
          d' = ⟨{ d.catalog with types := (d.catalog.types.push key kind size name).2 },
            d.events ++ [.typeRegistered e]⟩)
      (fun _ d' => d' = d ∧
        ∃ e, d.catalog.types.lookup? key = some e ∧ ¬(e.kind = kind ∧ e.size = size)) := by
  unfold register
  refine after_catalog ?_
  unfold Registry.register Registry.check
  cases hfound : d.catalog.types.lookup? key with
  | none => exact .inr ⟨rfl, rfl, rfl⟩
  | some e =>
    simp only
    by_cases hsame : e.kind = kind ∧ e.size = size
    · rw [if_pos hsame]
      exact .inl ⟨rfl, hfound, hsame.1, hsame.2⟩
    · rw [if_neg hsame]
      exact ⟨rfl, e, rfl, hsame⟩

/-- What a registration that succeeds has done to the draft. -/
def Registered (d : Draft) (key : Key) (kind : TypeKind) (size : Nat) (e : Entry) (d' : Draft) :
    Prop :=
  d.Grows allowed d' ∧ d'.catalog.types.HasType key kind size e ∧
    d'.catalog.scopes = d.catalog.scopes ∧ d'.catalog.underlying = d.catalog.underlying

theorem registered_of_spec {d d' : Draft} (wf : d.catalog.WellFormed) {key : Key}
    {kind : TypeKind} {size : Nat} {name : String} {e : Entry}
    (h : d' = d ∧ d.catalog.types.HasType key kind size e ∨
      d.catalog.types.lookup? key = none ∧ e = (d.catalog.types.push key kind size name).1 ∧
        d' = ⟨{ d.catalog with types := (d.catalog.types.push key kind size name).2 },
          d.events ++ [.typeRegistered e]⟩) : Registered allowed d key kind size e d' := by
  rcases h with ⟨rfl, h⟩ | ⟨free, rfl, rfl⟩
  · exact ⟨.refl _, h, rfl, rfl⟩
  · refine ⟨⟨_, rfl, .single (.type _ kind size name free)⟩, ?_, rfl, rfl⟩
    exact Registry.push_hasType wf.types free kind size name

theorem register_grows (d : Draft) (wf : d.catalog.WellFormed) (key : Key) (kind : TypeKind)
    (size : Nat) (name : String) :
    After (register key kind size name) d (Registered allowed d key kind size)
      (fun _ d' => d' = d) :=
  (register_spec d key kind size name).mono (fun _ _ h => registered_of_spec allowed wf h)
    fun _ _ h => h.1

theorem register_succeeds (d : Draft) (wf : d.catalog.WellFormed) {key : Key} {kind : TypeKind}
    {size : Nat} (fits : ∀ e, d.catalog.types.lookup? key = some e → e.kind = kind ∧ e.size = size)
    (name : String) :
    After (register key kind size name) d (Registered allowed d key kind size)
      (fun _ _ => False) := by
  refine (register_spec d key kind size name).mono (fun _ _ h => registered_of_spec allowed wf h) ?_
  rintro fault d' ⟨-, e, he, hne⟩
  exact hne (fits e he)

theorem register_again {d : Draft} {key : Key} {kind : TypeKind} {size : Nat} {e : Entry}
    (h : d.catalog.types.HasType key kind size e) (name : String) :
    EStateM.run (register key kind size name) d = .ok e d := by
  unfold register
  rw [run_catalog]
  unfold Registry.register Registry.check
  rw [h.found]
  simp only
  rw [if_pos ⟨h.kind, h.size⟩]
  rfl

/-! ## Declaring a scope -/

theorem declareScope_spec (d : Draft) (parent : ScopeId) (name : String) (kind : ScopeKind) :
    After (declareScope parent name kind) d
      (fun id d' => d' = d ∧ d.catalog.scopes.member? parent name = some (.scope id) ∧
          (∃ s, d.catalog.scopes.get? id = some s ∧ s.kind = kind) ∨
        ∃ p, d.catalog.scopes.get? parent = some p ∧ p.members.get? name = none ∧
          id = ⟨d.catalog.scopes.size⟩ ∧
          d' = ⟨{ d.catalog with scopes := (d.catalog.scopes.push parent p.qualified name kind).2 },
            d.events ++ [.scopeDeclared
              ⟨id, name, Name.join p.qualified name, kind, some parent, none, 0⟩]⟩)
      (fun _ d' => d' = d) := by
  unfold declareScope
  refine after_catalog ?_
  cases hdeclare : d.catalog.scopes.declare parent name kind with
  | error fault => rfl
  | ok r =>
    obtain ⟨o, t'⟩ := r
    rcases ScopeTree.declare_ok hdeclare with ⟨id, s, rfl, rfl, hm, hs⟩ | ⟨p, hp, free, rfl, rfl⟩
    · exact .inl ⟨rfl, hm, s, hs⟩
    · refine after_bind (after_of_run rfl ?_)
      refine after_bind (after_of_run rfl ?_)
      simp only
      rw [ScopeTree.info?_push hp]
      exact .inr ⟨p, hp, free, rfl, rfl⟩

/-- What a declaration of a scope that succeeds has done to the draft. -/
structure Declared (d : Draft) (parent : ScopeId) (name : String) (kind : ScopeKind) (id : ScopeId)
    (d' : Draft) : Prop where
  grows : d.Grows allowed d'
  types : d'.catalog.types = d.catalog.types
  underlying : d'.catalog.underlying = d.catalog.underlying
  member : d'.catalog.scopes.member? parent name = some (.scope id)
  scope : ∃ s, d'.catalog.scopes.get? id = some s ∧ s.kind = kind ∧ (d' = d ∨ s.facet = none)
  /-- The first scope of a name is found by it. -/
  named : ∀ {p}, d.catalog.scopes.get? parent = some p →
    d.catalog.scopes.byName.get? (Name.join p.qualified name) = none →
      d'.catalog.scopes.byName.get? (Name.join p.qualified name) = some id

theorem declareScope_grows (d : Draft) (wf : d.catalog.WellFormed) (parent : ScopeId)
    {name : String} (good : allowed name) (kind : ScopeKind) :
    After (declareScope parent name kind) d (Declared allowed d parent name kind)
      (fun _ d' => d' = d) := by
  refine (declareScope_spec d parent name kind).mono ?_ fun _ _ h => h
  rintro id d' (⟨rfl, hm, s, hs, hk⟩ | ⟨p, hp, free, rfl, rfl⟩)
  · refine ⟨.refl _, rfl, rfl, hm, ⟨s, hs, hk, .inl rfl⟩, ?_⟩
    intro p hp hnone
    rw [ScopeTree.member?_of_get? hp] at hm
    obtain ⟨c, hc, -, -, hq⟩ := wf.scopes.child hp hm
    obtain ⟨id', hid'⟩ := wf.scopes.indexed hc
    rw [hq, hnone] at hid'
    cases hid'
  · refine ⟨⟨_, rfl, .single (.scope _ kind hp free good)⟩, rfl, rfl,
      ScopeTree.member?_push hp kind, ?_, ?_⟩
    · refine ⟨⟨name, Name.join p.qualified name, kind, some parent, none, .empty⟩, ?_, rfl,
        .inr rfl⟩
      rw [ScopeTree.get?_push _ _ _ _ _ hp, if_pos rfl]
    · intro p' hp' hnone
      obtain rfl : p' = p := Option.some.inj (hp'.symm.trans hp)
      show (d.catalog.scopes.byName.keep _ _).get? _ = _
      rw [Table.get?_keep, hnone, if_pos rfl]
      rfl

theorem declareScope_again {d : Draft} {parent id : ScopeId} {name : String} {kind : ScopeKind}
    {s : Scope} (hm : d.catalog.scopes.member? parent name = some (.scope id))
    (hs : d.catalog.scopes.get? id = some s) (hk : s.kind = kind) :
    EStateM.run (declareScope parent name kind) d = .ok id d := by
  obtain ⟨p, hp, hpm⟩ := Option.bind_eq_some_iff.1 hm
  unfold declareScope
  rw [run_catalog]
  unfold ScopeTree.declare
  rw [hp]
  simp only
  rw [hpm]
  simp only
  rw [hs]
  simp only
  rw [if_pos hk]
  rfl

/-! ## Adding a member -/

theorem requireType_spec (d : Draft) (h : Handle) :
    After (requireType h) d (fun e d' => d' = d ∧ d.catalog.types.get? h = some e)
      (fun _ d' => d' = d) := by
  unfold requireType
  refine after_catalog ?_
  cases he : d.catalog.types.get? h with
  | none => rfl
  | some e => exact ⟨rfl, rfl⟩

/-- What is left to do for a new member when its type has been found. -/
def bindMember (scope : ScopeId) (name : String) (m : Member) : Change Unit := do
  let (added, scopes) ← ofExcept ((← catalog).scopes.addMember scope name m)
  setScopes scopes
  if added then raise (.memberAdded scope name m)

theorem addMember_requires {scope : ScopeId} {name : String} {m : Member} {d : Draft}
    {done : Unit → Draft → Prop} {failed : Fault → Draft → Prop}
    (refused : ∀ fault, failed fault d)
    (rest : d.catalog.Covers m → After (bindMember scope name m) d done failed) :
    After (addMember scope name m) d done failed := by
  unfold addMember
  cases href : m.reference? with
  | none =>
    refine rest ?_
    intro h hh
    rw [href] at hh
    cases hh
  | some h =>
    refine after_bind (after_discard ((requireType_spec d h).mono ?_ ?_))
    · rintro e d' ⟨rfl, he⟩
      refine rest ?_
      intro h' hh
      rw [← Option.some.inj (href.symm.trans hh), he]
      rfl
    · rintro fault d' rfl
      exact refused fault

theorem run_addMember {d : Draft} {scope : ScopeId} {name : String} {m : Member}
    (covered : d.catalog.Covers m) :
    EStateM.run (addMember scope name m) d = EStateM.run (bindMember scope name m) d := by
  unfold addMember
  cases href : m.reference? with
  | none => rfl
  | some h =>
    obtain ⟨e, he⟩ := Option.isSome_iff_exists.1 (covered h href)
    have hreq : EStateM.run (requireType h) d = .ok e d := by
      unfold requireType
      rw [run_catalog, he]
      rfl
    simp only
    rw [run_bind (run_discard hreq)]
    rfl

theorem addMember_spec (d : Draft) (scope : ScopeId) (name : String) (m : Member) :
    After (addMember scope name m) d
      (fun _ d' => ∃ s, d.catalog.scopes.get? scope = some s ∧
        (d' = d ∧ s.members.get? name = some m ∨
          s.members.get? name = none ∧
            d.catalog.Covers m ∧ d.catalog.scopes.checkOwner scope name m = .ok () ∧
            d' = ⟨{ d.catalog with scopes := d.catalog.scopes.bind scope name m },
              d.events ++ [.memberAdded scope name m]⟩))
      (fun _ d' => d' = d) := by
  refine addMember_requires (fun _ => rfl) ?_
  intro covered
  refine after_catalog ?_
  cases hadd : d.catalog.scopes.addMember scope name m with
  | error fault => rfl
  | ok r =>
    obtain ⟨added, t'⟩ := r
    obtain ⟨s, hs, howner, ⟨rfl, rfl, hm⟩ | ⟨rfl, rfl, free⟩⟩ := ScopeTree.addMember_ok hadd
    · exact ⟨s, hs, .inl ⟨rfl, hm⟩⟩
    · exact ⟨s, hs, .inr ⟨free, covered, howner, rfl⟩⟩

theorem addMember_grows (d : Draft) (scope : ScopeId) (name : String) (m : Member) :
    After (addMember scope name m) d
      (fun _ d' => d.Grows allowed d' ∧ d'.catalog.scopes.member? scope name = some m)
      (fun _ d' => d' = d) := by
  refine (addMember_spec d scope name m).mono ?_ fun _ _ h => h
  rintro _ d' ⟨s, hs, ⟨rfl, hm⟩ | ⟨free, covered, howner, rfl⟩⟩
  · exact ⟨.refl _, by rw [ScopeTree.member?_of_get? hs, hm]⟩
  · exact ⟨⟨_, rfl, .single (.member _ hs free covered howner)⟩, ScopeTree.member?_bind hs name m⟩

theorem addMember_succeeds (d : Draft) {scope : ScopeId} {s : Scope} {name : String} {m : Member}
    (hs : d.catalog.scopes.get? scope = some s) (free : s.members.get? name = none)
    (covered : d.catalog.Covers m)
    (howner : d.catalog.scopes.checkOwner scope name m = .ok ()) :
    After (addMember scope name m) d
      (fun _ d' => d.Grows allowed d' ∧ d'.catalog.scopes.member? scope name = some m)
      (fun _ _ => False) := by
  have hadd : d.catalog.scopes.addMember scope name m =
      .ok (true, d.catalog.scopes.bind scope name m) := by
    unfold ScopeTree.addMember
    rw [hs]
    simp only
    rw [howner]
    simp only
    rw [free]
  refine (addMember_grows allowed d scope name m).total ⟨(),
    ⟨{ d.catalog with scopes := d.catalog.scopes.bind scope name m },
      d.events ++ [.memberAdded scope name m]⟩, ?_⟩
  rw [run_addMember covered, bindMember, run_catalog, hadd]
  rfl

theorem addMember_again {d : Draft} {scope : ScopeId} {name : String} {m : Member}
    (hm : d.catalog.scopes.member? scope name = some m)
    (covered : d.catalog.Covers m)
    (howner : d.catalog.scopes.checkOwner scope name m = .ok ()) :
    EStateM.run (addMember scope name m) d = .ok () d := by
  obtain ⟨s, hs, hsm⟩ := Option.bind_eq_some_iff.1 hm
  have hadd : d.catalog.scopes.addMember scope name m = .ok (false, d.catalog.scopes) := by
    unfold ScopeTree.addMember
    rw [hs]
    simp only
    rw [howner]
    simp only
    rw [hsm]
    simp only [↓reduceIte]
  rw [run_addMember covered, bindMember, run_catalog, hadd]
  rfl

/-! ## Carrying a type -/

theorem attach_grows (d : Draft) {scope : ScopeId} {h : Handle} {t' : ScopeTree}
    (live : (d.catalog.types.get? h).isSome) (hattach : d.catalog.scopes.attach scope h = .ok t') :
    d.Grows allowed { d with catalog := { d.catalog with scopes := t' } } ∧
      ∃ s', t'.get? scope = some s' ∧ s'.facet = some h := by
  obtain ⟨s, hs, ⟨rfl, hfacet⟩ | ⟨rfl, free⟩⟩ := ScopeTree.attach_ok hattach
  · exact ⟨.refl _, s, hs, hfacet⟩
  · refine ⟨⟨[], (List.append_nil _).symm, .single (.facet _ hs free live)⟩,
      { s with facet := some h }, ?_, rfl⟩
    rw [ScopeTree.get?_carry, if_pos rfl, hs]
    rfl

theorem attachType_grows (d : Draft) (scope : ScopeId) (h : Handle) :
    After (attachType scope h) d (fun _ d' => d.Grows allowed d') (fun _ d' => d' = d) := by
  unfold attachType
  refine after_bind (after_discard ((requireType_spec d h).mono ?_ fun _ _ h => h))
  rintro e d' ⟨rfl, he⟩
  refine after_catalog ?_
  cases hattach : d'.catalog.scopes.attach scope h with
  | error fault => rfl
  | ok t' => exact (attach_grows allowed d' (by rw [he]; rfl) hattach).1

/-! ## Hiding -/

theorem setHidden_spec (d : Draft) (h : Handle) (hidden : Bool) :
    After (setHidden h hidden) d
      (fun changed d' => ∃ types, d.catalog.types.setHidden h hidden = .ok (changed, types) ∧
        d' = { d with catalog := { d.catalog with types := types } })
      (fun _ d' => d' = d) := by
  unfold setHidden
  refine after_catalog ?_
  cases hset : d.catalog.types.setHidden h hidden with
  | error fault => rfl
  | ok r =>
    obtain ⟨changed, types⟩ := r
    exact ⟨types, rfl, rfl⟩

end Change

end TypeCatalog
