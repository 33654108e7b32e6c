import TypeCatalog.Proofs.Growth
import TypeCatalog.Proofs.Names

/-!
# Where paths lead

If all scopes are named by components, a scope has a qualified name of its own, and the components
of that name lead to it from the global scope. So the index by name and the walk along a path agree.
-/

namespace TypeCatalog

namespace ScopeTree

/-- Every scope but the global one is named by a component. -/
def Tidy (t : ScopeTree) : Prop :=
  ∀ {id s}, t.get? id = some s → id ≠ .global → Name.IsComponent s.name

/-! ## From the global scope -/

theorem descend?_scope (t : ScopeTree) (id : ScopeId) (name : String) (rest : List String)
    {m : Member} (hm : t.member? id name = some m) :
    t.descend? (.scope id) (name :: rest) = t.descend? m rest := by
  rw [descend?, inside?, Option.bind_some, hm]

/-- A scope is found by going through the components of its qualified name. -/
theorem leads_to {t : ScopeTree} (wf : t.WellFormed) (tidy : t.Tidy) {id : ScopeId} {s : Scope}
    (hs : t.get? id = some s) :
    ∃ cs, (∀ x ∈ cs, Name.IsComponent x) ∧ s.qualified = Name.path cs ∧
      ∀ rest, t.descend? (.scope .global) (cs ++ rest) = t.descend? (.scope id) rest := by
  -- The induction is on the number of the scope: its parent has a smaller one.
  obtain ⟨i⟩ := id
  induction i using Nat.strong_induction_on generalizing s with
  | _ i ih =>
    by_cases hroot : (⟨i⟩ : ScopeId) = .global
    · obtain ⟨r, hr, -, hq⟩ := wf.root
      rw [hroot, hr] at hs
      rw [← Option.some.inj hs, hq, hroot]
      exact ⟨[], by simp, Name.path_nil.symm, fun _ => rfl⟩
    · obtain ⟨⟨p⟩, ps, ho⟩ := wf.owned hs hroot
      obtain ⟨cs, hcs, hq, hlead⟩ := ih p ho.before ho.found
      have hname := tidy hs hroot
      refine ⟨cs ++ [s.name], ?_, ?_, ?_⟩
      · exact List.forall_mem_append.2 ⟨hcs, by simpa using hname⟩
      · rw [ho.qualified, hq, Name.join_path hcs]
      · intro rest
        have hm : t.member? ⟨p⟩ s.name = some (.scope ⟨i⟩) := by
          rw [member?_of_get? ho.found]
          exact ho.binds
        rw [List.append_assoc, List.singleton_append, hlead, descend?_scope t _ _ _ hm]

theorem qualified_injective {t : ScopeTree} (wf : t.WellFormed) (tidy : t.Tidy) {id id' : ScopeId}
    {s s' : Scope} (hs : t.get? id = some s) (hs' : t.get? id' = some s')
    (same : s.qualified = s'.qualified) : id = id' := by
  obtain ⟨cs, hcs, hq, hlead⟩ := leads_to wf tidy hs
  obtain ⟨ds, hds, hq', hlead'⟩ := leads_to wf tidy hs'
  obtain rfl := Name.path_injective hcs hds (hq.symm.trans (same.trans hq'))
  have := (hlead []).symm.trans (hlead' [])
  exact Member.scope.inj (Option.some.inj this)

theorem byName_qualified {t : ScopeTree} (wf : t.WellFormed) (tidy : t.Tidy) {id : ScopeId}
    {s : Scope} (hs : t.get? id = some s) : t.byName.get? s.qualified = some id := by
  obtain ⟨id', hid'⟩ := wf.indexed hs
  obtain ⟨s', hs', hq⟩ := wf.named hid'
  rw [hid', qualified_injective wf tidy hs' hs hq]

/-! ## Absolute paths -/

theorem enclosing_global {t : ScopeTree} (wf : t.WellFormed) :
    t.enclosing .global = [.global] := by
  obtain ⟨s, hs, hparent, -⟩ := wf.root
  rw [enclosing, hs]
  simp only [hparent]

theorem resolvePath?_absolute {t : ScopeTree} (wf : t.WellFormed) (start : ScopeId)
    {cs : List String} (hne : cs ≠ []) (hcs : ∀ x ∈ cs, Name.IsComponent x) :
    t.resolvePath? start ("::" ++ Name.path cs) = t.descend? (.scope .global) cs := by
  obtain ⟨first, rest, rfl⟩ := List.exists_cons_of_ne_nil hne
  unfold resolvePath?
  rw [Name.isAbsolute_root, Name.stripRoot_root, Name.components_path hcs]
  simp only [↓reduceIte]
  rw [resolve?, enclosing_global wf, List.findSome?_singleton, descend?, inside?,
    Option.bind_some]
  cases t.member? .global first <;> rfl

theorem resolvePath?_member {t : ScopeTree} (wf : t.WellFormed) (tidy : t.Tidy) {id : ScopeId}
    {s : Scope} (hs : t.get? id = some s) {name : String} (hname : Name.IsComponent name)
    {m : Member} (hm : t.member? id name = some m) (start : ScopeId) :
    t.resolvePath? start ("::" ++ Name.join s.qualified name) = some m := by
  obtain ⟨cs, hcs, hq, hlead⟩ := leads_to wf tidy hs
  have hgood : ∀ x ∈ cs ++ [name], Name.IsComponent x :=
    List.forall_mem_append.2 ⟨hcs, by simpa using hname⟩
  rw [hq, Name.join_path hcs, resolvePath?_absolute wf start (by simp) hgood, hlead,
    descend?_scope t id name [] hm, descend?]

/-- A scope that is known by a name has that name, and so have its members. -/
theorem resolvePath?_byName {t : ScopeTree} (wf : t.WellFormed) (tidy : t.Tidy)
    {scope name : String} {id : ScopeId} {m : Member} (hid : t.byName? scope = some id)
    (hname : Name.IsComponent name) (hm : t.member? id name = some m) (start : ScopeId) :
    t.resolvePath? start ("::" ++ Name.join (Name.stripRoot scope) name) = some m := by
  obtain ⟨s, hs, hq⟩ := wf.named hid
  rw [← hq]
  exact resolvePath?_member wf tidy hs hname hm start

end ScopeTree

/-! ## Scopes stay tidy -/

theorem Addition.tidy {c c' : Catalog} {events : List Event}
    (new : Addition Name.IsComponent c events c') (tidy : c.scopes.Tidy) : c'.scopes.Tidy := by
  cases new with
  | type kind size name free => exact tidy
  | scope kind found free good =>
    intro id s' hs' hid
    rcases ScopeTree.push_cases found free kind hs' with ⟨-, rfl⟩ | ⟨s, hs, he, -⟩
    · exact good
    · rw [he.name]
      exact tidy hs hid
  | member found free live owner =>
    intro id s' hs' hid
    simp only [ScopeTree.bind, ScopeTree.get?_modify] at hs'
    split at hs'
    · obtain ⟨s, hs, rfl⟩ := Option.map_eq_some_iff.1 hs'
      show Name.IsComponent s.name
      exact tidy hs hid
    · exact tidy hs' hid
  | facet found free live =>
    intro id s' hs' hid
    simp only [ScopeTree.get?_carry] at hs'
    split at hs'
    · obtain ⟨s, hs, rfl⟩ := Option.map_eq_some_iff.1 hs'
      show Name.IsComponent s.name
      exact tidy hs hid
    · exact tidy hs' hid
  | underlying found kind baseFound integral size => exact tidy

theorem Catalog.GrowsTo.tidy {c c' : Catalog} (h : c.GrowsTo Name.IsComponent c')
    (tidy : c.scopes.Tidy) : c'.scopes.Tidy := by
  obtain ⟨events, h⟩ := h
  induction h with
  | refl => exact tidy
  | step _ new ih => exact new.tidy ih

theorem Catalog.empty_tidy (settings : CatalogSettings) : (empty settings).scopes.Tidy := by
  intro id s hs hid
  obtain ⟨i⟩ := id
  have hlt := ScopeTree.get?_lt hs
  simp only [empty, ScopeTree.empty, ScopeTree.size, List.length_singleton,
    Nat.lt_one_iff] at hlt
  subst hlt
  exact absurd rfl hid

end TypeCatalog
