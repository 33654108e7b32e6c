import TypeCatalog.Proofs.Edits
import TypeCatalog.Proofs.Underlying

/-!
# The scopes that carry a type

Several scopes may carry one type. The index from types to scopes leads to the first of them.
-/

namespace TypeCatalog

namespace ScopeTree

variable {t t' : ScopeTree}

/-! ## The index -/

/-- The index leads from a type to a scope that carries it, if there is one. -/
structure FacetsIndexed (t : ScopeTree) : Prop where
  carried : ∀ {h id}, t.byType? h = some id → t.Carries id h
  found : ∀ {id h}, t.Carries id h → ∃ first, t.byType? h = some first

theorem FacetsIndexed.of_extends (hi : t.FacetsIndexed) (hext : t.Extends t')
    (same : t'.byType = t.byType) (hnew : t.Attaches t' fun _ => False) : t'.FacetsIndexed where
  carried := by
    intro h id hid
    rw [byType?, same] at hid
    exact hext.carries (hi.carried hid)
  found := by
    intro id h hc
    rw [byType?, same]
    exact hi.found ((hnew id h hc).resolve_right fun h => h)

theorem FacetsIndexed.carry (hi : t.FacetsIndexed) {id : ScopeId} {s : Scope}
    (hs : t.get? id = some s) (free : s.facet = none) (h : Handle) :
    (t.carry id h).FacetsIndexed := by
  have hext := carry_extends hs free h
  have hid : (t.carry id h).Carries id h := by
    refine carries_iff.2 ⟨{ s with facet := some h }, ?_, rfl⟩
    rw [get?_carry, if_pos rfl, hs]
    rfl
  refine ⟨?_, ?_⟩
  · intro h' id' hid'
    rw [byType?, ScopeTree.carry, Table.get?_keep] at hid'
    rcases Option.or_eq_some_iff.1 hid' with hold | ⟨-, hnew⟩
    · exact hext.carries (hi.carried hold)
    · split at hnew
      · next hh =>
        obtain rfl := Option.some.inj hnew
        rw [hh]
        exact hid
      · cases hnew
  · intro id' h' hc
    rcases (edits_carry t id h).attaches id' h' hc with hold | rfl
    · obtain ⟨first, hfirst⟩ := hi.found hold
      exact ⟨first, hext.byType hfirst⟩
    · obtain rfl : h' = h := Option.some.inj (hc.symm.trans hid)
      rw [byType?, ScopeTree.carry, Table.get?_keep, if_pos rfl]
      cases t.modify id' (fun s => { s with facet := some h' }) |>.byType.get? h' with
      | none => exact ⟨id', rfl⟩
      | some first => exact ⟨first, rfl⟩

end ScopeTree

theorem Addition.facetsIndexed {allowed : String → Prop} {c c' : Catalog} {events : List Event}
    (new : Addition allowed c events c') (hi : c.scopes.FacetsIndexed) :
    c'.scopes.FacetsIndexed := by
  cases new with
  | type kind size name free => exact hi
  | @scope parent p name kind found free good =>
    exact hi.of_extends (ScopeTree.push_extends found free kind) rfl
      (ScopeTree.edits_push found kind).attaches
  | @member id s name m found free covered owner =>
    exact hi.of_extends (ScopeTree.bind_extends found free m) rfl
      (ScopeTree.edits_bind c.scopes id name m).attaches
  | @facet id s h found free live => exact hi.carry found free h
  | underlying found kind baseFound integral size => exact hi

theorem Catalog.GrowsTo.facetsIndexed {allowed : String → Prop} {c c' : Catalog}
    (h : c.GrowsTo allowed c') (hi : c.scopes.FacetsIndexed) : c'.scopes.FacetsIndexed := by
  obtain ⟨events, h⟩ := h
  induction h with
  | refl => exact hi
  | step _ new ih => exact new.facetsIndexed ih

theorem Hub.Reachable.facetsIndexed {hub : Hub} (reach : hub.Reachable) :
    hub.catalog.scopes.FacetsIndexed := by
  obtain ⟨settings, ops, rfl⟩ := reach
  refine Hub.run_keeps (P := fun c => c.scopes.FacetsIndexed)
    (fun _ hi hgrows => hgrows.facetsIndexed hi) (fun _ hi _ => hi) _
    (Catalog.empty_wellFormed settings) ⟨?_, ?_⟩ ops
  · intro h id hid
    cases hid
  · intro id h hc
    obtain ⟨s, hs, hfacet⟩ := ScopeTree.carries_iff.1 hc
    have := (Catalog.empty_wellFormed settings).facet hs hfacet
    cases this

end TypeCatalog
