import TypeCatalog.Proofs.Carriers
import TypeCatalog.Proofs.Indices
import TypeCatalog.Proofs.Ownership

/-!
# Nothing dangles

A catalog keeps handles and scope numbers in many places. Each of them leads to a type that is
registered or to a scope that is there, because what comes from outside is looked up before it is
kept.
-/

namespace TypeCatalog

/-! ## What is bound after a change of the tree -/

namespace ScopeTree

variable {t : ScopeTree} {id' : ScopeId} {name' : String} {m' : Member}

theorem bound_before_push {parent : ScopeId} {p : Scope} {name : String}
    (hp : t.get? parent = some p) (free : p.members.get? name = none) (kind : ScopeKind)
    (hm : (t.push parent p.qualified name kind).2.member? id' name' = some m') :
    t.member? id' name' = some m' ∨ m' = .scope ⟨t.size⟩ := by
  obtain ⟨s', hs', hsm⟩ := Option.bind_eq_some_iff.1 hm
  rcases push_cases hp free kind hs' with ⟨-, rfl⟩ | ⟨s, hs, -, hcases⟩
  · rw [Table.get?_empty] at hsm
    cases hsm
  · rcases hcases hsm with hold | ⟨-, -, hnew⟩
    · exact .inl (by rw [member?_of_get? hs, hold])
    · exact .inr hnew

theorem bound_before_bind {id : ScopeId} {name : String} {m : Member}
    (hm : (t.bind id name m).member? id' name' = some m') :
    t.member? id' name' = some m' ∨ m' = m := by
  obtain ⟨s', hs', hsm⟩ := Option.bind_eq_some_iff.1 hm
  rw [bind, get?_modify] at hs'
  split at hs'
  · obtain ⟨s, hs, rfl⟩ := Option.map_eq_some_iff.1 hs'
    simp only [Table.get?_put] at hsm
    split at hsm
    · exact .inr (Option.some.inj hsm).symm
    · exact .inl (by rw [member?_of_get? hs, hsm])
  · exact .inl (by rw [member?_of_get? hs', hsm])

theorem bound_before_carry {id : ScopeId} {h : Handle}
    (hm : (t.carry id h).member? id' name' = some m') : t.member? id' name' = some m' := by
  obtain ⟨s', hs', hsm⟩ := Option.bind_eq_some_iff.1 hm
  rw [get?_carry] at hs'
  split at hs'
  · obtain ⟨s, hs, rfl⟩ := Option.map_eq_some_iff.1 hs'
    rw [member?_of_get? hs]
    exact hsm
  · rw [member?_of_get? hs', hsm]

theorem contains_of_get? {id : ScopeId} {s : Scope} (hs : t.get? id = some s) : t.contains id := by
  rw [contains, hs]
  rfl

end ScopeTree

/-! ## Members refer to types that are registered -/

theorem Catalog.Covers.mono {c c' : Catalog} {m : Member} (h : c.Covers m) (hext : c.Extends c') :
    c'.Covers m :=
  fun handle href => hext.registered (h handle href)

/-- Whatever is bound in a scope refers to a registered type, if to any. -/
def Catalog.MembersCovered (c : Catalog) : Prop :=
  ∀ {id name m}, c.scopes.member? id name = some m → c.Covers m

theorem Addition.membersCovered {allowed : String → Prop} {c c' : Catalog} {events : List Event}
    (new : Addition allowed c events c') (wf : c.WellFormed) (h : c.MembersCovered) :
    c'.MembersCovered := by
  have hext := new.keeps wf
  have old : ∀ {id name m}, c.scopes.member? id name = some m → c'.Covers m :=
    fun hm => (h hm).mono hext
  intro id name m hm
  cases new with
  | type kind size name free => exact old hm
  | scope kind found free good =>
    rcases ScopeTree.bound_before_push found free kind hm with hold | rfl
    · exact old hold
    · intro handle href
      cases href
  | member found free covered owner =>
    rcases ScopeTree.bound_before_bind hm with hold | rfl
    · exact old hold
    · exact covered.mono hext
  | facet found free live => exact old (ScopeTree.bound_before_carry hm)
  | underlying found kind baseFound integral size => exact old hm

namespace Catalog

/-! ## What every catalog keeps -/

/-- The invariants of catalogs together. -/
structure Sound (c : Catalog) : Prop where
  wellFormed : c.WellFormed
  indexed : c.types.Indexed
  facetsIndexed : c.scopes.FacetsIndexed
  underlain : c.Underlain
  membersCovered : c.MembersCovered

theorem GrowsTo.sound {allowed : String → Prop} {c c' : Catalog} (h : c.GrowsTo allowed c')
    (hc : c.Sound) : c'.Sound where
  wellFormed := h.wellFormed hc.wellFormed
  indexed := h.indexed hc.wellFormed hc.indexed
  facetsIndexed := h.facetsIndexed hc.facetsIndexed
  underlain := h.underlain hc.wellFormed hc.underlain
  membersCovered := by
    obtain ⟨events, h⟩ := h
    induction h with
    | refl => exact hc.membersCovered
    | step grown new ih => exact new.membersCovered (grown.wellFormed hc.wellFormed) ih

theorem Sound.setHidden {c : Catalog} (hc : c.Sound) {h : Handle} {hidden changed : Bool}
    {types : Registry} (hset : c.types.setHidden h hidden = .ok (changed, types)) :
    Sound { c with types := types } where
  wellFormed := hc.wellFormed.setHidden hset
  indexed := Registry.setHidden_indexed hc.indexed hset
  facetsIndexed := hc.facetsIndexed
  underlain := Catalog.Underlain.setHidden hc.underlain hset
  membersCovered := fun hm => (hc.membersCovered hm).mono (extends_setHidden hset)

theorem empty_sound (settings : CatalogSettings) : (empty settings).Sound := by
  have wf := empty_wellFormed settings
  refine ⟨wf, Registry.empty_indexed, ⟨?_, ?_⟩, ?_, ?_⟩
  · intro h id hid
    cases hid
  · intro id h hc
    obtain ⟨s, hs, hfacet⟩ := ScopeTree.carries_iff.1 hc
    cases wf.facet hs hfacet
  · intro h u hu
    cases hu
  · intro id name m hm
    obtain ⟨s, hs, hsm⟩ := Option.bind_eq_some_iff.1 hm
    obtain ⟨i⟩ := id
    have hlt := ScopeTree.get?_lt hs
    obtain rfl : i = 0 := by simpa [empty, ScopeTree.empty, ScopeTree.size] using hlt
    obtain rfl := Option.some.inj hs
    cases hsm

/-! ## Where references are kept -/

/-- Every handle that is kept anywhere is registered, and every scope number is that of a scope. -/
structure NothingDangles (c : Catalog) : Prop where
  member : ∀ {id name m}, c.scopes.Binds id name m → c.Covers m
  child : ∀ {id name child}, c.scopes.Binds id name (.scope child) → c.scopes.contains child
  facet : ∀ {id s h}, c.scopes.get? id = some s → s.facet = some h → (c.types.get? h).isSome
  parent : ∀ {id s p}, c.scopes.get? id = some s → s.parent = some p → c.scopes.contains p
  byName : ∀ {q id}, c.scopes.byName.get? q = some id → c.scopes.contains id
  byType : ∀ {h id}, c.scopes.byType.get? h = some id →
    (c.types.get? h).isSome ∧ c.scopes.contains id
  key : ∀ {key h}, c.types.byKey.get? key = some h → (c.types.get? h).isSome
  named : ∀ {name}, ∀ h ∈ c.types.handlesNamed name, (c.types.get? h).isSome
  hidden : ∀ h ∈ c.types.hidden, (c.types.get? h).isSome
  underlying : ∀ {h u}, c.underlying.get? h = some u →
    (c.types.get? h).isSome ∧ (c.types.get? u).isSome

theorem Sound.nothingDangles {c : Catalog} (hc : c.Sound) : c.NothingDangles := by
  have wf := hc.wellFormed
  refine ⟨?_, ?_, wf.facet, ?_, ?_, ?_, ?_, ?_, hc.indexed.hidden, ?_⟩
  · intro id name m hm
    exact hc.membersCovered (wf.scopes.binds_iff.1 hm)
  · intro id name child hm
    obtain ⟨s, hs, -⟩ := wf.scopes.bound_of_binds hm
    exact ScopeTree.contains_of_get? hs
  · intro id s p hs hparent
    have hid : id ≠ .global := by
      intro hglobal
      rw [(wf.scopes.orphan_iff hs).2 hglobal] at hparent
      cases hparent
    obtain ⟨p', ps, ho⟩ := wf.scopes.owned hs hid
    obtain rfl : p' = p := Option.some.inj (ho.parent.symm.trans hparent)
    exact ScopeTree.contains_of_get? ho.found
  · intro q id hq
    obtain ⟨s, hs, -⟩ := wf.scopes.named hq
    exact ScopeTree.contains_of_get? hs
  · intro h id hid
    obtain ⟨s, hs, hfacet⟩ := ScopeTree.carries_iff.1 (hc.facetsIndexed.carried hid)
    exact ⟨wf.facet hs hfacet, ScopeTree.contains_of_get? hs⟩
  · intro key h hkey
    obtain ⟨e, he, -⟩ := wf.types.byKey.1 hkey
    rw [he]
    rfl
  · intro name h hh
    rw [hc.indexed.byName] at hh
    obtain ⟨e, he, rfl⟩ := List.mem_map.1 hh
    rw [Registry.get?_of_mem wf.types (List.mem_filter.1 he).1]
    rfl
  · intro h u hu
    obtain ⟨e, base, he, hbase, -⟩ := hc.underlain hu
    rw [he, hbase]
    exact ⟨rfl, rfl⟩

end Catalog

theorem Hub.Reachable.sound {hub : Hub} (reach : hub.Reachable) : hub.catalog.Sound := by
  obtain ⟨settings, ops, rfl⟩ := reach
  exact run_keeps (P := Catalog.Sound) (fun _ hc hgrows => hgrows.sound hc)
    (fun _ hc hset => hc.setHidden hset) _ (Catalog.empty_wellFormed settings)
    (Catalog.empty_sound settings) ops

end TypeCatalog
