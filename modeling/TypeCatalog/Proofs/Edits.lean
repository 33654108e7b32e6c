import TypeCatalog.Proofs.Histories

/-!
# What changes do to the scopes

A change declares or binds one name in one scope at most, and lets one scope at most carry a type
that it did not carry before. Which scopes and which name these are is in the request; only a class
gets its type in the scope that it answers.
-/

namespace TypeCatalog

namespace ScopeTree

variable {t t' t'' : ScopeTree}

def Carries (t : ScopeTree) (id : ScopeId) (h : Handle) : Prop :=
  (t.info? id).bind (·.facet) = some h

instance (t : ScopeTree) (id : ScopeId) (h : Handle) : Decidable (t.Carries id h) :=
  inferInstanceAs (Decidable (_ = _))

theorem carries_iff {id : ScopeId} {h : Handle} :
    t.Carries id h ↔ ∃ s, t.get? id = some s ∧ s.facet = some h := by
  unfold Carries info?
  cases t.get? id <;> simp

theorem Extends.carries (hext : t.Extends t') {id : ScopeId} {h : Handle} (hc : t.Carries id h) :
    t'.Carries id h := by
  obtain ⟨s, hs, hfacet⟩ := carries_iff.1 hc
  obtain ⟨s', hs', he⟩ := hext.scope hs
  exact carries_iff.2 ⟨s', hs', he.facet hfacet⟩

/-! ## What is new -/

/-- In the later tree, all scopes that carry a type but the `new` ones have carried it before. -/
def Attaches (t t' : ScopeTree) (new : ScopeId → Prop) : Prop :=
  ∀ id h, t'.Carries id h → t.Carries id h ∨ new id

namespace Attaches

variable {new more : ScopeId → Prop}

theorem refl (t : ScopeTree) : t.Attaches t new := fun _ _ h => .inl h

theorem trans (h : t.Attaches t' new) (h' : t'.Attaches t'' new) : t.Attaches t'' new := by
  intro id handle hc
  rcases h' id handle hc with hmid | hnew
  · exact h id handle hmid
  · exact .inr hnew

theorem mono (h : t.Attaches t' new) (hm : ∀ id, new id → more id) : t.Attaches t' more := by
  intro id handle hc
  rcases h id handle hc with hold | hnew
  · exact .inl hold
  · exact .inr (hm id hnew)

theorem of_none (h : t.Attaches t' fun _ => False) : t.Attaches t' new := h.mono fun _ h => h.elim

theorem of_scopes (h : ∀ {id s'}, t'.get? id = some s' → ¬new id →
    s'.facet = none ∨ ∃ s, t.get? id = some s ∧ s.facet = s'.facet) : t.Attaches t' new := by
  intro id handle hc
  obtain ⟨s', hs', hfacet⟩ := carries_iff.1 hc
  by_cases hnew : new id
  · exact .inr hnew
  · rcases h hs' hnew with hnone | ⟨s, hs, hsame⟩
    · rw [hnone] at hfacet
      cases hfacet
    · exact .inl (carries_iff.2 ⟨s, hs, hsame.trans hfacet⟩)

end Attaches

/-- In the later tree, scopes bind what they have bound before, and perhaps a name at `place`. -/
def BindsOnly (t t' : ScopeTree) (place : Option (ScopeId × String)) : Prop :=
  ∀ id name m, t'.member? id name = some m →
    t.member? id name = some m ∨ place = some (id, name)

/-- What has become of one tree in another: one place where a name may be new, and the scopes that
may carry another type. -/
structure Edits (t t' : ScopeTree) (place : Option (ScopeId × String)) (new : ScopeId → Prop) :
    Prop where
  attaches : t.Attaches t' new
  binds : t.BindsOnly t' place

namespace Edits

variable {place : Option (ScopeId × String)} {new : ScopeId → Prop}

theorem refl (t : ScopeTree) : t.Edits t place new := ⟨.refl t, fun _ _ _ h => .inl h⟩

theorem trans (h : t.Edits t' place new) (h' : t'.Edits t'' place new) : t.Edits t'' place new where
  attaches := h.attaches.trans h'.attaches
  binds := by
    intro id name m hm
    rcases h'.binds id name m hm with hmid | hplace
    · exact h.binds id name m hmid
    · exact .inr hplace

theorem of_idle (h : t.Edits t' place fun _ => False) : t.Edits t' place new :=
  ⟨h.attaches.of_none, h.binds⟩

theorem of_none (h : t.Edits t' none new) : t.Edits t' place new where
  attaches := h.attaches
  binds := by
    intro id name m hm
    rcases h.binds id name m hm with hold | hplace
    · exact .inl hold
    · cases hplace

theorem of_scopes (h : ∀ {id s'}, t'.get? id = some s' →
    ((¬new id → s'.facet = none) ∧ s'.members = .empty) ∨
      ∃ s, t.get? id = some s ∧ (¬new id → s.facet = s'.facet) ∧
        ∀ name m, s'.members.get? name = some m →
          s.members.get? name = some m ∨ place = some (id, name)) :
    t.Edits t' place new where
  attaches := by
    refine .of_scopes fun hs' hnew => ?_
    rcases h hs' with ⟨hnone, -⟩ | ⟨s, hs, hsame, -⟩
    · exact .inl (hnone hnew)
    · exact .inr ⟨s, hs, hsame hnew⟩
  binds := by
    intro id name m hm
    obtain ⟨s', hs', hsm⟩ := Option.bind_eq_some_iff.1 hm
    rcases h hs' with ⟨-, hempty⟩ | ⟨s, hs, -, hback⟩
    · rw [hempty] at hsm
      cases hsm
    · rw [member?_of_get? hs]
      exact hback name m hsm

end Edits

section Steps

variable {new : ScopeId → Prop}

theorem bound_before_put {members : Table String Member} {name name' : String} {m m' : Member}
    (h : (members.put name m).get? name' = some m') :
    members.get? name' = some m' ∨ name = name' := by
  rw [Table.get?_put] at h
  split at h
  case isTrue hname => exact .inr hname.symm
  case isFalse => exact .inl h

theorem edits_push {parent : ScopeId} {p : Scope} {name : String} (hp : t.get? parent = some p)
    (kind : ScopeKind) :
    t.Edits (t.push parent p.qualified name kind).2 (some (parent, name)) new := by
  refine .of_scopes fun {id s'} hs' => ?_
  rw [get?_push t parent p.qualified name kind hp] at hs'
  split at hs'
  case isTrue =>
    obtain rfl := Option.some.inj hs'
    exact .inl ⟨fun _ => rfl, rfl⟩
  case isFalse =>
    split at hs'
    case isTrue hid =>
      obtain rfl := Option.some.inj hs'
      refine .inr ⟨p, by rw [hid, hp], fun _ => rfl, fun name' m' hm' => ?_⟩
      exact (bound_before_put hm').imp_right fun hname => by rw [hid, hname]
    case isFalse => exact .inr ⟨s', hs', fun _ => rfl, fun _ _ hm' => .inl hm'⟩

theorem edits_bind (t : ScopeTree) (id : ScopeId) (name : String) (m : Member) :
    t.Edits (t.bind id name m) (some (id, name)) new := by
  refine .of_scopes fun {id' s'} hs' => ?_
  rw [bind, get?_modify] at hs'
  split at hs'
  case isTrue hid =>
    obtain ⟨s, hs, rfl⟩ := Option.map_eq_some_iff.1 hs'
    refine .inr ⟨s, hs, fun _ => rfl, fun name' m' hm' => ?_⟩
    exact (bound_before_put hm').imp_right fun hname => by rw [hid, hname]
  case isFalse => exact .inr ⟨s', hs', fun _ => rfl, fun _ _ hm' => .inl hm'⟩

theorem edits_carry (t : ScopeTree) (id : ScopeId) (h : Handle) :
    t.Edits (t.carry id h) none (· = id) := by
  refine .of_scopes fun {id' s'} hs' => ?_
  rw [get?_carry] at hs'
  split at hs'
  case isTrue hid =>
    obtain ⟨s, hs, rfl⟩ := Option.map_eq_some_iff.1 hs'
    exact .inr ⟨s, hs, fun hne => absurd hid hne, fun _ _ hm => .inl hm⟩
  case isFalse => exact .inr ⟨s', hs', fun _ => rfl, fun _ _ hm => .inl hm⟩

theorem edits_attach {id : ScopeId} {h : Handle} (hok : t.attach id h = .ok t') :
    t.Edits t' none (· = id) := by
  obtain ⟨s, -, ⟨rfl, -⟩ | ⟨rfl, -⟩⟩ := attach_ok hok
  · exact .refl _
  · exact edits_carry t id h

end Steps

end ScopeTree

/-! ## Changes -/

/-- If the change succeeds, it has bound nothing but at `place`, and only the scopes that are `new`
by its answer have got a type. -/
def Change.Edits {α : Type} (change : Change α) (d : Draft) (place : Option (ScopeId × String))
    (new : α → ScopeId → Prop) : Prop :=
  After change d (fun a d' => d.catalog.scopes.Edits d'.catalog.scopes place (new a))
    fun _ _ => True

/-- If the change succeeds, only the scopes that are `new` by its answer have got a type. -/
def Change.Attaches {α : Type} (change : Change α) (d : Draft) (new : α → ScopeId → Prop) : Prop :=
  After change d (fun a d' => d.catalog.scopes.Attaches d'.catalog.scopes (new a))
    fun _ _ => True

namespace Change

theorem Edits.attaches {α : Type} {change : Change α} {d : Draft}
    {place : Option (ScopeId × String)} {new : α → ScopeId → Prop}
    (h : change.Edits d place new) : change.Attaches d new :=
  h.mono (fun _ _ h => h.attaches) fun _ _ _ => trivial

theorem register_edits (d : Draft) (key : Key) (kind : TypeKind) (size : Nat) (name : String) :
    (register key kind size name).Edits d none fun _ _ => False := by
  refine (register_spec d key kind size name).mono ?_ fun _ _ _ => trivial
  rintro e d' (⟨rfl, -⟩ | ⟨-, -, rfl⟩)
  · exact .refl _
  · exact .refl _

theorem declareScope_edits (d : Draft) (parent : ScopeId) (name : String) (kind : ScopeKind) :
    (declareScope parent name kind).Edits d (some (parent, name)) fun _ _ => False := by
  refine (declareScope_spec d parent name kind).mono ?_ fun _ _ _ => trivial
  rintro id d' (⟨rfl, -⟩ | ⟨p, hp, -, -, rfl⟩)
  · exact .refl _
  · exact ScopeTree.edits_push hp kind

theorem addMember_edits (d : Draft) (scope : ScopeId) (name : String) (m : Member) :
    (addMember scope name m).Edits d (some (scope, name)) fun _ _ => False := by
  refine (addMember_spec d scope name m).mono ?_ fun _ _ _ => trivial
  rintro _ d' ⟨s, -, ⟨rfl, -⟩ | ⟨-, -, -, rfl⟩⟩
  · exact .refl _
  · exact ScopeTree.edits_bind _ scope name m

theorem addEnumerator_edits (d : Draft) (e : Enumeration) (name : String) (value : Int64) :
    (addEnumerator e name value).Edits d (some (e.scope, name)) fun _ _ => False := by
  unfold addEnumerator Edits
  refine after_catalog ?_
  split
  · trivial
  · exact addMember_edits d e.scope name _

theorem setHidden_edits (d : Draft) (h : Handle) (hidden : Bool) :
    (setHidden h hidden).Edits d none fun _ _ => False := by
  refine (setHidden_spec d h hidden).mono ?_ fun _ _ _ => trivial
  rintro changed d' ⟨types, -, rfl⟩
  exact .refl _

theorem fundamental_edits (d : Draft) (key : Key) (name : String) (size : Nat) :
    (fundamental key name size).Edits d (some (.global, name)) fun _ _ => False := by
  unfold fundamental Edits
  refine after_bind ((checkWidth_spec d name size).mono ?_ fun _ _ _ => trivial)
  rintro _ d₀ ⟨rfl, -⟩
  refine after_bind ((register_edits d₀ key .fundamental size name).mono ?_ fun _ _ _ => trivial)
  intro e d₁ h₁
  refine after_catalog ?_
  split
  · refine after_bind ((addMember_edits d₁ .global name (.type e.handle)).mono ?_
      fun _ _ _ => trivial)
    exact fun _ d₂ h₂ => after_pure e (h₁.of_none.trans h₂)
  · exact after_pure e h₁.of_none

theorem attachType_edits (d : Draft) (scope : ScopeId) (h : Handle) :
    (attachType scope h).Edits d none fun _ => (· = scope) := by
  unfold attachType Edits
  refine after_bind (after_discard ((requireType_spec d h).mono ?_ fun _ _ _ => trivial))
  rintro e d' ⟨rfl, -⟩
  refine after_catalog ?_
  cases hattach : d'.catalog.scopes.attach scope h with
  | error fault => trivial
  | ok t' => exact ScopeTree.edits_attach hattach

theorem declareClass_edits (d : Draft) (parent : ScopeId) (name : String) (key : Key)
    (kind : TypeKind) (size : Nat) :
    (declareClass parent name key kind size).Edits d (some (parent, name)) fun id => (· = id) := by
  unfold declareClass Edits
  split
  case h_2 => trivial
  next scopeKind hkind =>
  refine after_catalog ?_
  cases hcheck : d.catalog.types.check key kind size with
  | error fault => trivial
  | ok o =>
  refine after_bind (after_of_run (run_discard rfl) ?_)
  refine after_catalog ?_
  split
  case isFalse => trivial
  refine after_bind ((checkFacet_spec d parent name key).mono ?_ fun _ _ _ => trivial)
  rintro _ d₀ ⟨rfl, -⟩
  refine after_bind ((declareScope_edits d₀ parent name scopeKind).mono ?_ fun _ _ _ => trivial)
  intro id d₁ h₁
  refine after_catalog ?_
  refine after_bind ((register_edits d₁ key kind size _).mono ?_ fun _ _ _ => trivial)
  intro e d₂ h₂
  refine after_catalog ?_
  cases hattach : d₂.catalog.scopes.attach id e.handle with
  | error fault => trivial
  | ok t' =>
  refine after_bind (after_of_run rfl (after_bind (after_of_run rfl (after_pure id ?_))))
  exact (h₁.trans h₂.of_none).of_idle.trans (ScopeTree.edits_attach hattach).of_none

theorem enumeration_edits (d : Draft) (parent : ScopeId) (name : String) (key : Key)
    (base : Entry) :
    (enumeration parent name key base).Edits d (some (parent, name)) fun en => (· = en.scope) := by
  unfold enumeration Edits
  split
  case isFalse => trivial
  refine after_bind ((checkUnderlying_spec d name key base).mono ?_ fun _ _ _ => trivial)
  rintro _ d₀ ⟨rfl, -⟩
  refine after_bind ((declareClass_edits d₀ parent name key .enum base.size).mono ?_
    fun _ _ _ => trivial)
  intro id d₁ h₁
  refine after_catalog ?_
  split
  · exact after_bind (after_of_run rfl (after_pure _ h₁))
  · trivial

theorem buildEnum_edits (d : Draft) (parent : ScopeId) (name : String) (key : Key)
    (underlying : String) :
    (buildEnum parent name key underlying).Edits d (some (parent, name))
      fun en => (· = en.scope) := by
  unfold buildEnum Edits
  refine after_catalog ?_
  cases d.catalog.types.lookupName? underlying with
  | none => trivial
  | some base => exact enumeration_edits d parent name key base

theorem buildEnumOver_edits (d : Draft) (parent : ScopeId) (name : String) (key : Key)
    (underlying : Handle) :
    (buildEnumOver parent name key underlying).Edits d (some (parent, name))
      fun en => (· = en.scope) := by
  unfold buildEnumOver Edits
  refine after_bind ((requireType_spec d underlying).mono ?_ fun _ _ _ => trivial)
  rintro base d₀ ⟨rfl, -⟩
  exact enumeration_edits d₀ parent name key base

end Change

/-! ## Single operations -/

/-- Where a single operation is asked to bind or declare a name. -/
def Operation.place? : Operation → Option (ScopeId × String)
  | .declareScope parent name _ | .declareClass parent name _ _ _ | .buildEnum parent name _ _
  | .buildEnumOver parent name _ _ => some (parent, name)
  | .addMember scope name _ => some (scope, name)
  | .addEnumerator e name _ => some (e.scope, name)
  | .buildFundamental name _ | .buildNative _ name _ => some (.global, name)
  | .register .. | .setHidden .. | .attachType .. | .registerBuiltins | .apply _ | .load _
  | .subscribe .. | .unsubscribe _ => none

namespace Hub

theorem cast_scopes (hub : Hub) (shadow : Option (Entry × String)) :
    (hub.cast shadow).1.catalog.scopes = hub.catalog.scopes := by
  unfold cast
  split
  · rfl
  · next entry name =>
    have h := Change.register_spec ⟨hub.catalog, []⟩ (.named name) entry.kind entry.size name
    split
    · next e d hrun =>
      rcases h.at_ok hrun with ⟨rfl, -⟩ | ⟨-, -, rfl⟩
      · rfl
      · rfl
    · next fault d hrun =>
      rw [(h.at_error hrun).1]

theorem announce_scopes (levels : Nat) (hub : Hub) (events : List Event) :
    (announce levels hub events).catalog.scopes = hub.catalog.scopes := by
  induction levels generalizing hub events with
  | zero =>
    exact handOut_keeps hear (fun _ => True) (fun hub' => hub'.catalog.scopes = hub.catalog.scopes)
      (fun _ _ _ => trivial) (fun _ _ _ _ h => h) rfl
  | succ levels ih =>
    refine handOut_keeps (deliver (announce levels)) (fun _ => True)
      (fun hub' => hub'.catalog.scopes = hub.catalog.scopes) (fun _ _ _ => trivial) ?_ rfl
    intro hub' event _ s _ h
    unfold deliver
    rw [ih, cast_scopes]
    exact h

section Commit

variable {α : Type} {change : Change α} {hub : Hub}

theorem commit_edits {place : Option (ScopeId × String)} {new : α → ScopeId → Prop}
    (h : change.Edits ⟨hub.catalog, []⟩ place new) :
    After (commit change) hub
      (fun a hub' => hub.catalog.scopes.Edits hub'.catalog.scopes place (new a))
      (fun _ _ => True) := by
  refine after_commit (h.mono ?_ fun _ _ _ => trivial)
  intro a d hd
  rw [tell, announce_scopes]
  exact hd

theorem commit_edits_none {place : Option (ScopeId × String)}
    (h : change.Edits ⟨hub.catalog, []⟩ place fun _ _ => False) :
    After (commit change) hub
      (fun _ hub' => ∃ id, hub.catalog.scopes.Edits hub'.catalog.scopes place (· = id))
      (fun _ _ => True) :=
  (commit_edits h).mono (fun _ _ hnew => ⟨.global, hnew.of_idle⟩) fun _ _ _ => trivial

theorem commit_edits_one (target : α → ScopeId) {place : Option (ScopeId × String)}
    (h : change.Edits ⟨hub.catalog, []⟩ place fun a => (· = target a)) :
    After (commit change) hub
      (fun _ hub' => ∃ id, hub.catalog.scopes.Edits hub'.catalog.scopes place (· = id))
      (fun _ _ => True) :=
  (commit_edits h).mono (fun a _ hnew => ⟨target a, hnew⟩) fun _ _ _ => trivial

end Commit

/-- A single operation binds nothing but at the place that it was asked for, and lets no two scopes
carry a type that they did not carry before. -/
theorem perform_edits (hub : Hub) {op : Operation} (single : op.IsSingle) :
    After (perform op) hub
      (fun _ hub' => ∃ id, hub.catalog.scopes.Edits hub'.catalog.scopes op.place? (· = id))
      (fun _ _ => True) := by
  cases op with
  | register key kind size name =>
    exact after_answer .entry
      (commit_edits_none (Change.register_edits _ key kind size name))
  | setHidden handle hidden =>
    exact after_answer .changed
      (commit_edits_none (Change.setHidden_edits _ handle hidden))
  | declareScope parent name kind =>
    exact after_answer .scope
      (commit_edits_none (Change.declareScope_edits _ parent name kind))
  | addMember scope name m =>
    exact after_answer (fun _ => .done)
      (commit_edits_none (Change.addMember_edits _ scope name m))
  | attachType scope handle =>
    exact after_answer (fun _ => .done)
      (commit_edits_one (fun _ => scope) (Change.attachType_edits _ scope handle))
  | declareClass parent name key kind size =>
    exact after_answer .scope
      (commit_edits_one id (Change.declareClass_edits _ parent name key kind size))
  | buildFundamental name size =>
    exact after_answer .entry
      (commit_edits_none (Change.fundamental_edits _ (.named name) name size))
  | buildNative native name size =>
    exact after_answer .entry
      (commit_edits_none (Change.fundamental_edits _ (.native native) name size))
  | buildEnum parent name key underlying =>
    exact after_answer .enumeration
      (commit_edits_one (·.scope) (Change.buildEnum_edits _ parent name key underlying))
  | buildEnumOver parent name key underlying =>
    exact after_answer .enumeration
      (commit_edits_one (·.scope) (Change.buildEnumOver_edits _ parent name key underlying))
  | addEnumerator e name value =>
    exact after_answer (fun _ => .done)
      (commit_edits_none (Change.addEnumerator_edits _ e name value))
  | registerBuiltins | apply d | load d | subscribe selection echo | unsubscribe id =>
    exact single.elim

theorem execute_edits {hub : Hub} (wf : hub.catalog.WellFormed) {op : Operation}
    (single : op.IsSingle) : ∃ id,
      hub.catalog.scopes.Edits (hub.execute op).2.catalog.scopes op.place? (· = id) := by
  cases hrun : EStateM.run (perform op) hub with
  | ok r hub' =>
    rw [execute_eq hrun]
    exact (perform_edits hub single).at_ok hrun
  | error fault hub' =>
    rw [execute, hrun, (perform_refused hub wf single).at_error hrun]
    exact ⟨.global, .refl _⟩

end Hub

end TypeCatalog
