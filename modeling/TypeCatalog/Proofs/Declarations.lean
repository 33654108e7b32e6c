import TypeCatalog.Proofs.Namespaces

/-!
# Applying a declaration

A declaration that was applied is in force: all that it declares is in the catalog. It stays so
while the catalog grows, and then applying it again finds everything in place.
-/

namespace TypeCatalog

namespace Declaration

/-- Names that the loader takes apart are well-formed. -/
def WellNamed : Declaration → Prop
  | .namespace name | .classType _ name _ _ | .typedef name _ | .enum name _ _ _ =>
    Name.WellFormed name
  | .fundamental _ _ | .pointer _ | .function _ _ _ _ | .dataMember _ _ _ _ _ => True

instance (d : Declaration) : Decidable d.WellNamed :=
  match d with
  | .namespace name | .classType _ name _ _ | .typedef name _ | .enum name _ _ _ =>
    inferInstanceAs (Decidable (Name.WellFormed name))
  | .fundamental _ _ | .pointer _ | .function _ _ _ _ | .dataMember _ _ _ _ _ => .isTrue trivial

/-- The enum has all of the enumerators. -/
def Lists (c : Catalog) (e : Enumeration) (xs : List Enumerator) : Prop :=
  ∀ x ∈ xs, c.scopes.member? e.scope x.name = some (.enumerator e.type.handle x.value)

theorem Lists.mono {c c' : Catalog} {e : Enumeration} {xs : List Enumerator} (h : Lists c e xs)
    (hext : c.Extends c') : Lists c' e xs :=
  fun x hx => hext.scopes.member? (h x hx)

theorem Lists.cons {c : Catalog} {e : Enumeration} {x : Enumerator} {xs : List Enumerator}
    (h : Lists c e [x]) (hrest : Lists c e xs) : Lists c e (x :: xs) :=
  List.forall_mem_cons.2 ⟨h x (by simp), hrest⟩

/-- All that a declaration declares is in the catalog. -/
def InForce (c : Catalog) : Declaration → Prop
  | .fundamental name size => ∃ e, c.HasFundamental (.named name) name size e
  | .namespace name => ∃ id, c.scopes.byName? (Name.stripRoot name) = some id
  | .classType sort name key size => ∃ parent id e,
    c.scopes.byName? (Name.stripRoot (Name.enclosing name)) = some parent ∧
      c.HasClass parent (Name.last name) (.ofSymbol key name) sort.kind size id e
  | .typedef name target => ∃ parent t e,
    c.scopes.byName? (Name.stripRoot (Name.enclosing name)) = some parent ∧
      c.types.lookupName? target = some t ∧ c.types.HasType (.named name) .typedef t.size e ∧
        c.scopes.member? parent (Name.last name) = some (.type e.handle)
  | .pointer target => ∃ t e, c.types.lookupName? target = some t ∧
    c.types.HasType (.named (pointerName target)) .pointer Hub.pointerSize e
  | .enum name key underlying enumerators => ∃ parent base en,
    c.scopes.byName? (Name.stripRoot (Name.enclosing name)) = some parent ∧
      c.types.lookupName? underlying = some base ∧
        c.HasEnum parent (Name.last name) (.ofSymbol key name) base en ∧ Lists c en enumerators
  | .function scope name signature modifiers => ∃ id m e,
    c.scopes.byName? scope = some id ∧ Modifiers.ofKeywords modifiers = .ok m ∧
      c.types.HasType (.named signature) .function 0 e ∧
        c.scopes.member? id name = some (.function e.handle m)
  | .dataMember scope name type offset modifiers => ∃ id m e,
    c.scopes.byName? scope = some id ∧ Modifiers.ofKeywords modifiers = .ok m ∧
      c.types.lookupName? type = some e ∧
        c.scopes.member? id name = some (.dataMember e.handle offset m)

theorem InForce.mono {allowed : String → Prop} {c c' : Catalog} (grows : c.GrowsTo allowed c')
    (wf : c.WellFormed) {d : Declaration} (h : d.InForce c) : d.InForce c' := by
  have hext := grows.keeps wf
  cases d with
  | fundamental name size =>
    obtain ⟨e, he⟩ := h
    exact ⟨e, he.mono hext⟩
  | «namespace» name =>
    obtain ⟨id, hid⟩ := h
    exact ⟨id, hext.scopes.byName? hid⟩
  | classType sort name key size =>
    obtain ⟨parent, id, e, hparent, hclass⟩ := h
    exact ⟨parent, id, e, hext.scopes.byName? hparent, hclass.mono hext⟩
  | typedef name target =>
    obtain ⟨parent, t, e, hparent, ht, he, hm⟩ := h
    exact ⟨parent, t, e, hext.scopes.byName? hparent, grows.lookupName? wf ht,
      hext.types.hasType he, hext.scopes.member? hm⟩
  | pointer target =>
    obtain ⟨t, e, ht, he⟩ := h
    exact ⟨t, e, grows.lookupName? wf ht, hext.types.hasType he⟩
  | enum name key underlying enumerators =>
    obtain ⟨parent, base, en, hparent, hbase, hen, hall⟩ := h
    exact ⟨parent, base, en, hext.scopes.byName? hparent, grows.lookupName? wf hbase, hen.mono hext,
      hall.mono hext⟩
  | function scope name signature modifiers =>
    obtain ⟨id, m, e, hid, hmods, he, hm⟩ := h
    exact ⟨id, m, e, hext.scopes.byName? hid, hmods, hext.types.hasType he, hext.scopes.member? hm⟩
  | dataMember scope name type offset modifiers =>
    obtain ⟨id, m, e, hid, hmods, he, hm⟩ := h
    exact ⟨id, m, e, hext.scopes.byName? hid, hmods, grows.lookupName? wf he,
      hext.scopes.member? hm⟩

end Declaration

namespace Hub

/-! ## Declarations with qualified names -/

theorem apply_classType_eq (sort : ClassSort) (name : String) (key : Option String) (size : Nat) :
    apply (.classType sort name key size) = (do
      let parent ← ensureNamespace (Name.enclosing name)
      discard (commit
        (Change.declareClass parent (Name.last name) (.ofSymbol key name) sort.kind size))) := by
  simp only [apply, Name.enclosing, Name.last]

theorem apply_typedef_eq (name target : String) :
    apply (.typedef name target) = (do
      let target ← requireType target
      let parent ← ensureNamespace (Name.enclosing name)
      let entry ← commit (Change.register (.named name) .typedef target.size name)
      commit (Change.addMember parent (Name.last name) (.type entry.handle))) := by
  simp only [apply, Name.enclosing, Name.last]

theorem apply_enum_eq (name : String) (key : Option String) (underlying : String)
    (enumerators : List Enumerator) :
    apply (.enum name key underlying enumerators) = (do
      let parent ← ensureNamespace (Name.enclosing name)
      let e ← commit (Change.buildEnum parent (Name.last name) (.ofSymbol key name) underlying)
      addEnumerators e ((← catalogNow).enumerators e) enumerators) := by
  simp only [apply, Name.enclosing, Name.last]

/-! ## A second time -/

theorem run_requireType {hub : Hub} {name : String} {e : Entry}
    (h : hub.catalog.types.lookupName? name = some e) :
    EStateM.run (requireType name) hub = .ok e hub := by
  unfold requireType
  rw [run_catalogNow, h]
  rfl

theorem run_requireScope {hub : Hub} {name : String} {id : ScopeId}
    (h : hub.catalog.scopes.byName? name = some id) :
    EStateM.run (requireScope name) hub = .ok id hub := by
  unfold requireScope
  rw [run_catalogNow, h]
  rfl

theorem run_requireModifiers {hub : Hub} {names : List String} {m : Modifiers}
    (h : Modifiers.ofKeywords names = .ok m) :
    EStateM.run (requireModifiers names) hub = .ok m hub := by
  unfold requireModifiers
  rw [h]
  rfl

theorem addEnumerators_again {hub : Hub} {e : Enumeration} {existing news : List Enumerator}
    (h : ∀ x ∈ news, x ∈ existing) :
    EStateM.run (addEnumerators e existing news) hub = .ok () hub := by
  induction news with
  | nil => rfl
  | cons new rest ih =>
    unfold addEnumerators
    rw [if_pos (h new (by simp))]
    exact ih fun x hx => h x (by simp [hx])

/-- A declaration that is in force is applied without any effect. -/
theorem apply_again {hub : Hub} (wf : hub.catalog.WellFormed) {d : Declaration}
    (h : d.InForce hub.catalog) : EStateM.run (apply d) hub = .ok () hub := by
  cases d with
  | fundamental name size =>
    obtain ⟨e, he⟩ := h
    exact run_discard (commit_again (Change.fundamental_again he))
  | «namespace» name =>
    obtain ⟨id, hid⟩ := h
    exact run_discard (ensureNamespace_again hid)
  | classType sort name key size =>
    obtain ⟨parent, id, e, hparent, hclass⟩ := h
    rw [apply_classType_eq]
    refine (run_bind (ensureNamespace_again hparent)).trans ?_
    exact run_discard (commit_again (Change.declareClass_again wf hclass))
  | typedef name target =>
    obtain ⟨parent, t, e, hparent, ht, he, hm⟩ := h
    rw [apply_typedef_eq]
    refine (run_bind (run_requireType ht)).trans ?_
    refine (run_bind (ensureNamespace_again hparent)).trans ?_
    refine (run_bind (commit_again (Change.register_again he name))).trans ?_
    exact commit_again
      (Change.addMember_again hm (Catalog.covers_of_get? (he.get? wf.types) rfl) rfl)
  | pointer target =>
    obtain ⟨t, e, ht, he⟩ := h
    refine (run_bind (run_discard (run_requireType ht))).trans ?_
    exact run_discard (commit_again (Change.register_again he _))
  | enum name key underlying enumerators =>
    obtain ⟨parent, base, en, hparent, hbase, hen, hall⟩ := h
    rw [apply_enum_eq]
    refine (run_bind (ensureNamespace_again hparent)).trans ?_
    refine (run_bind (commit_again (Change.buildEnum_again wf hbase hen))).trans ?_
    refine addEnumerators_again ?_
    intro x hx
    exact (Catalog.mem_enumerators wf).2 (hall x hx)
  | function scope name signature modifiers =>
    obtain ⟨id, m, e, hid, hmods, he, hm⟩ := h
    refine (run_bind (run_requireScope hid)).trans ?_
    refine (run_bind (run_requireModifiers hmods)).trans ?_
    refine (run_bind (commit_again (Change.register_again he signature))).trans ?_
    exact commit_again
      (Change.addMember_again hm (Catalog.covers_of_get? (he.get? wf.types) rfl) rfl)
  | dataMember scope name type offset modifiers =>
    obtain ⟨id, m, e, hid, hmods, he, hm⟩ := h
    refine (run_bind (run_requireScope hid)).trans ?_
    refine (run_bind (run_requireModifiers hmods)).trans ?_
    refine (run_bind (run_requireType he)).trans ?_
    have hget := Registry.get?_of_lookupName? wf.types he
    exact commit_again (Change.addMember_again hm (Catalog.covers_of_get? hget rfl) rfl)

end Hub

end TypeCatalog
