import TypeCatalog.Catalog.Enumeration
import TypeCatalog.Proofs.Registry
import TypeCatalog.Proofs.Scopes

/-!
# A catalog only grows

`Addition` lists all that can be added to a catalog, with the event that tells of it. Everything
else follows from the list: what stays well-formed, and which answers are final.
-/

namespace TypeCatalog

/-- The type that a member refers to, if any, is registered. -/
def Catalog.Covers (c : Catalog) (m : Member) : Prop :=
  ∀ h, m.reference? = some h → (c.types.get? h).isSome

theorem Catalog.covers_of_get? {c : Catalog} {e : Entry} (he : c.types.get? e.handle = some e)
    {m : Member} (href : m.reference? = some e.handle) : c.Covers m := by
  intro h hh
  rw [← Option.some.inj (href.symm.trans hh), he]
  rfl

/-- One addition and the events that it raises. A new scope has an `allowed` name. -/
inductive Addition (allowed : String → Prop) : Catalog → List Event → Catalog → Prop
  | type (c : Catalog) {key : Key} (kind : TypeKind) (size : Nat) (name : String)
      (free : c.types.lookup? key = none) :
    Addition allowed c [.typeRegistered (c.types.push key kind size name).1]
      { c with types := (c.types.push key kind size name).2 }
  | scope (c : Catalog) {parent : ScopeId} {p : Scope} {name : String} (kind : ScopeKind)
      (found : c.scopes.get? parent = some p) (free : p.members.get? name = none)
      (good : allowed name) :
    Addition allowed c
      [.scopeDeclared
        ⟨⟨c.scopes.size⟩, name, Name.join p.qualified name, kind, some parent, none, 0⟩]
      { c with scopes := (c.scopes.push parent p.qualified name kind).2 }
  | member (c : Catalog) {id : ScopeId} {s : Scope} {name : String} {m : Member}
      (found : c.scopes.get? id = some s) (free : s.members.get? name = none)
      (covered : c.Covers m)
      (owner : c.scopes.checkOwner id name m = .ok ()) :
    Addition allowed c [.memberAdded id name m] { c with scopes := c.scopes.bind id name m }
  | facet (c : Catalog) {id : ScopeId} {s : Scope} {h : Handle}
      (found : c.scopes.get? id = some s) (free : s.facet = none)
      (live : (c.types.get? h).isSome) :
    Addition allowed c [] { c with scopes := c.scopes.carry id h }
  | underlying (c : Catalog) {e base : Entry} (found : c.types.get? e.handle = some e)
      (kind : e.kind = .enum) (baseFound : c.types.get? base.handle = some base)
      (integral : base.isIntegral) (size : e.size = base.size) :
    Addition allowed c [] { c with underlying := c.underlying.keep e.handle base.handle }

namespace Catalog

/-- Any number of additions and what they raise, oldest first. -/
inductive Grows (allowed : String → Prop) : Catalog → List Event → Catalog → Prop
  | refl (c : Catalog) : Grows allowed c [] c
  | step {c c' c'' : Catalog} {events more : List Event} (grown : Grows allowed c events c')
      (new : Addition allowed c' more c'') : Grows allowed c (events ++ more) c''

/-- Additions whose events do not matter. -/
def GrowsTo (allowed : String → Prop) (c c' : Catalog) : Prop :=
  ∃ events, c.Grows allowed events c'

structure WellFormed (c : Catalog) : Prop where
  types : c.types.WellFormed
  scopes : c.scopes.WellFormed
  facet : ∀ {id s h}, c.scopes.get? id = some s → s.facet = some h → (c.types.get? h).isSome
  underlying : ∀ {h b}, c.underlying.get? h = some b → (c.types.get? h).isSome

/-- The later catalog gives all the answers of the earlier one. -/
structure Extends (c c' : Catalog) : Prop where
  settings : c'.settings = c.settings
  types : c.types.Extends c'.types
  scopes : c.scopes.Extends c'.scopes
  underlying : ∀ {h b}, c.underlying.get? h = some b → c'.underlying.get? h = some b

theorem Extends.refl (c : Catalog) : c.Extends c := ⟨rfl, .refl _, .refl _, fun h => h⟩

theorem Extends.trans {c c' c'' : Catalog} (h : c.Extends c') (h' : c'.Extends c'') :
    c.Extends c'' :=
  ⟨h'.settings.trans h.settings, h.types.trans h'.types, h.scopes.trans h'.scopes,
    fun hu => h'.underlying (h.underlying hu)⟩

theorem Extends.registered {c c' : Catalog} (h : c.Extends c') {handle : Handle}
    (hr : (c.types.get? handle).isSome) : (c'.types.get? handle).isSome :=
  h.types.registered hr

theorem extends_setHidden {c : Catalog} {h : Handle} {hidden changed : Bool} {types : Registry}
    (hok : c.types.setHidden h hidden = .ok (changed, types)) :
    c.Extends { c with types := types } :=
  ⟨rfl, Registry.setHidden_extends hok, .refl _, fun hu => hu⟩

theorem WellFormed.setHidden {c : Catalog} (wf : c.WellFormed) {h : Handle}
    {hidden changed : Bool} {types : Registry}
    (hok : c.types.setHidden h hidden = .ok (changed, types)) :
    WellFormed { c with types := types } where
  types := Registry.setHidden_wellFormed wf.types hok
  scopes := wf.scopes
  facet := fun hs hfacet => (extends_setHidden hok).registered (wf.facet hs hfacet)
  underlying := fun hu => (extends_setHidden hok).registered (wf.underlying hu)

/-- A scope is bound in its parent already, so it cannot be the member of a new binding. -/
theorem WellFormed.plain_of_free {c : Catalog} (wf : c.WellFormed) {id : ScopeId} {s : Scope}
    (hs : c.scopes.get? id = some s) {name : String} (free : s.members.get? name = none)
    {m : Member} (owner : c.scopes.checkOwner id name m = .ok ()) : m.scope? = none := by
  cases m with
  | scope child =>
    exfalso
    unfold ScopeTree.checkOwner at owner
    simp only at owner
    split at owner
    · cases owner
    · next sc hsc =>
      split at owner
      · next hown =>
        obtain ⟨hparent, rfl⟩ := hown
        by_cases hroot : child = .global
        · obtain ⟨r, hr, hnone, -⟩ := wf.scopes.root
          rw [hroot, hr] at hsc
          rw [← Option.some.inj hsc, hnone] at hparent
          cases hparent
        · obtain ⟨p, ps, ho⟩ := wf.scopes.owned hsc hroot
          obtain rfl : p = id := Option.some.inj (ho.parent.symm.trans hparent)
          obtain rfl : ps = s := Option.some.inj (ho.found.symm.trans hs)
          rw [ho.binds] at free
          cases free
      · cases owner
  | type h | enumerator h v | function h mods | dataMember h o mods => rfl

end Catalog

namespace Addition

variable {allowed : String → Prop} {c c' : Catalog} {events : List Event}

theorem keeps (new : Addition allowed c events c') (wf : c.WellFormed) : c.Extends c' := by
  cases new with
  | type kind size name free =>
    exact ⟨rfl, Registry.push_extends wf.types free kind size name, .refl _, fun h => h⟩
  | scope kind found free _ =>
    exact ⟨rfl, .refl _, ScopeTree.push_extends found free kind, fun h => h⟩
  | member found free _ _ =>
    exact ⟨rfl, .refl _, ScopeTree.bind_extends found free _, fun h => h⟩
  | facet found free _ =>
    exact ⟨rfl, .refl _, ScopeTree.carry_extends found free _, fun h => h⟩
  | underlying found kind baseFound integral size =>
    exact ⟨rfl, .refl _, .refl _, Table.get?_keep_of_bound _ _ _⟩

theorem hidden (new : Addition allowed c events c') : c'.types.hidden = c.types.hidden := by
  cases new <;> rfl

theorem wellFormed (new : Addition allowed c events c') (wf : c.WellFormed) : c'.WellFormed := by
  have hext := new.keeps wf
  -- Scopes and facets that are not new are registered because the catalog has only grown.
  have old : ∀ {id s' h}, c'.scopes.get? id = some s' → s'.facet = some h →
      (∃ s, c.scopes.get? id = some s ∧ s.facet = s'.facet) → (c'.types.get? h).isSome := by
    rintro id s' h - hfacet ⟨s, hs, hsame⟩
    exact hext.registered (wf.facet hs (hsame.trans hfacet))
  cases new with
  | type kind size name free =>
    refine ⟨Registry.push_wellFormed wf.types free kind size name, wf.scopes, ?_, ?_⟩
    · intro id s h hs hfacet
      exact old hs hfacet ⟨s, hs, rfl⟩
    · intro h b hb
      exact hext.registered (wf.underlying hb)
  | scope kind found free _ =>
    refine ⟨wf.types, ScopeTree.push_wellFormed wf.scopes found free kind, ?_, wf.underlying⟩
    intro id s' h hs' hfacet
    simp only at hs'
    rw [ScopeTree.get?_push _ _ _ _ _ found] at hs'
    split at hs'
    · rw [← Option.some.inj hs'] at hfacet
      cases hfacet
    · split at hs'
      · rw [← Option.some.inj hs'] at hfacet
        exact wf.facet found hfacet
      · exact wf.facet hs' hfacet
  | member found free _ owner =>
    refine ⟨wf.types, ?_, ?_, wf.underlying⟩
    · exact ScopeTree.bind_wellFormed wf.scopes found free (wf.plain_of_free found free owner)
    · intro id s' h hs' hfacet
      simp only [ScopeTree.bind, ScopeTree.get?_modify] at hs'
      split at hs'
      · obtain ⟨s, hs, rfl⟩ := Option.map_eq_some_iff.1 hs'
        exact wf.facet hs hfacet
      · exact wf.facet hs' hfacet
  | facet found free live =>
    refine ⟨wf.types, ScopeTree.carry_wellFormed wf.scopes found free _, ?_, wf.underlying⟩
    intro id s' h hs' hfacet
    simp only [ScopeTree.get?_carry] at hs'
    split at hs'
    · obtain ⟨s, hs, rfl⟩ := Option.map_eq_some_iff.1 hs'
      obtain rfl := Option.some.inj hfacet
      exact live
    · exact wf.facet hs' hfacet
  | underlying found kind baseFound integral size =>
    refine ⟨wf.types, wf.scopes, wf.facet, ?_⟩
    intro h b hb
    simp only [Table.get?_keep] at hb
    rcases Option.or_eq_some_iff.1 hb with hold | ⟨-, hnew⟩
    · exact wf.underlying hold
    · split at hnew
      · next heq => rw [heq, found]; rfl
      · cases hnew

end Addition

namespace Catalog

variable {allowed : String → Prop} {c c' c'' : Catalog} {events more : List Event}

namespace Grows

theorem single (new : Addition allowed c events c') : c.Grows allowed events c' :=
  .step (.refl c) new

theorem trans (h : c.Grows allowed events c') (h' : c'.Grows allowed more c'') :
    c.Grows allowed (events ++ more) c'' := by
  induction h' with
  | refl => rw [List.append_nil]; exact h
  | step _ new ih => rw [← List.append_assoc]; exact .step ih new

theorem wellFormed (h : c.Grows allowed events c') (wf : c.WellFormed) : c'.WellFormed := by
  induction h with
  | refl => exact wf
  | step _ new ih => exact new.wellFormed ih

theorem keeps (h : c.Grows allowed events c') (wf : c.WellFormed) : c.Extends c' := by
  induction h with
  | refl => exact .refl _
  | step grown new ih => exact ih.trans (new.keeps (grown.wellFormed wf))

theorem hidden (h : c.Grows allowed events c') : c'.types.hidden = c.types.hidden := by
  induction h with
  | refl => rfl
  | step _ new ih => rw [new.hidden, ih]

end Grows

namespace GrowsTo

theorem refl (c : Catalog) : c.GrowsTo allowed c := ⟨[], .refl c⟩

theorem trans (h : c.GrowsTo allowed c') (h' : c'.GrowsTo allowed c'') : c.GrowsTo allowed c'' := by
  obtain ⟨events, h⟩ := h
  obtain ⟨more, h'⟩ := h'
  exact ⟨events ++ more, h.trans h'⟩

theorem wellFormed (h : c.GrowsTo allowed c') (wf : c.WellFormed) : c'.WellFormed := by
  obtain ⟨events, h⟩ := h
  exact h.wellFormed wf

theorem keeps (h : c.GrowsTo allowed c') (wf : c.WellFormed) : c.Extends c' := by
  obtain ⟨events, h⟩ := h
  exact h.keeps wf

theorem lookupName? (h : c.GrowsTo allowed c') (wf : c.WellFormed) {name : String} {e : Entry}
    (he : c.types.lookupName? name = some e) : c'.types.lookupName? name = some e := by
  obtain ⟨events, h⟩ := h
  exact (h.keeps wf).types.lookupName? h.hidden he

end GrowsTo

theorem empty_wellFormed (settings : CatalogSettings) : (empty settings).WellFormed where
  types := Registry.empty_wellFormed
  scopes := ScopeTree.empty_wellFormed
  facet := by
    intro id s h hs hfacet
    obtain ⟨i⟩ := id
    have hlt := ScopeTree.get?_lt hs
    simp only [empty, ScopeTree.empty, ScopeTree.size, List.length_singleton,
      Nat.lt_one_iff] at hlt
    subst hlt
    rw [← Option.some.inj hs] at hfacet
    cases hfacet
  underlying := by
    intro h b hb
    simp [empty] at hb

end Catalog

end TypeCatalog
