import TypeCatalog.Proofs.Histories

/-!
# The scopes form one tree

Every scope but the global one has a parent that was declared before it, and exactly one binding in
the whole catalog: the one in its parent under its own name. Names are qualified along the parents,
and the index by qualified name covers all scopes.
-/

namespace TypeCatalog

namespace ScopeTree

def Binds (t : ScopeTree) (scope : ScopeId) (name : String) (m : Member) : Prop :=
  ∃ bindings, t.members? scope = some bindings ∧ (name, m) ∈ bindings

/-- Going from parent to parent leads to the global scope. -/
inductive Rooted (t : ScopeTree) : ScopeId → Prop
  | global : Rooted t .global
  | child {id p : ScopeId} {s : Scope} (found : t.get? id = some s) (parent : s.parent = some p)
      (rooted : Rooted t p) : Rooted t id

structure FormsTree (t : ScopeTree) : Prop where
  global : ∃ s, t.get? .global = some s
  orphan : ∀ {id s}, t.get? id = some s → (s.parent = none ↔ id = .global)
  owned : ∀ {id s}, t.get? id = some s → id ≠ .global → ∃ p ps, t.get? p = some ps ∧
    s.parent = some p ∧ p.index < id.index ∧ t.Binds p s.name (.scope id) ∧
      s.qualified = if ps.qualified = "" then s.name else ps.qualified ++ "::" ++ s.name
  rooted : ∀ {id s}, t.get? id = some s → t.Rooted id
  bound : ∀ {scope name id}, t.Binds scope name (.scope id) →
    ∃ s, t.get? id = some s ∧ s.parent = some scope ∧ s.name = name
  distinct : ∀ {id bindings}, t.members? id = some bindings → (bindings.map (·.1)).Nodup
  once : ∀ {id s}, t.get? id = some s → id ≠ .global →
    ∃! place : ScopeId × String, t.Binds place.1 place.2 (.scope id)
  indexed : ∀ {id s}, t.get? id = some s → ∃ id', t.byName.get? s.qualified = some id'
  named : ∀ {q id}, t.byName.get? q = some id → ∃ s, t.get? id = some s ∧ s.qualified = q

namespace WellFormed

variable {t : ScopeTree} (wf : t.WellFormed)

include wf

theorem binds_iff {scope : ScopeId} {name : String} {m : Member} :
    t.Binds scope name m ↔ t.member? scope name = some m := by
  unfold Binds members? member?
  cases hs : t.get? scope with
  | none => simp
  | some s =>
    simp only [Option.map_some, Option.some.injEq, Option.bind_some, exists_eq_left']
    constructor
    · exact Table.get?_of_mem_entries (wf.distinct hs)
    · exact Table.mem_entries_of_get?

theorem orphan_iff {id : ScopeId} {s : Scope} (hs : t.get? id = some s) :
    s.parent = none ↔ id = .global := by
  constructor
  · intro hnone
    by_contra hid
    obtain ⟨p, ps, ho⟩ := wf.owned hs hid
    have hparent := ho.parent
    rw [hnone] at hparent
    cases hparent
  · rintro rfl
    obtain ⟨r, hr, hnone, -⟩ := wf.root
    rw [Option.some.inj (hs.symm.trans hr)]
    exact hnone

theorem bound_of_binds {scope id : ScopeId} {name : String} (h : t.Binds scope name (.scope id)) :
    ∃ s, t.get? id = some s ∧ s.parent = some scope ∧ s.name = name := by
  obtain ⟨s, hs, hm⟩ := Option.bind_eq_some_iff.1 (wf.binds_iff.1 h)
  exact wf.bound hs hm

theorem owned_binds {id p : ScopeId} {s ps : Scope} (h : t.OwnedBy id s p ps) :
    t.Binds p s.name (.scope id) := by
  rw [wf.binds_iff, member?_of_get? h.found]
  exact h.binds

/-- The parents come earlier and earlier, so the way up ends. -/
theorem rooted (id : ScopeId) {s : Scope} (hs : t.get? id = some s) : t.Rooted id := by
  obtain ⟨i⟩ := id
  induction i using Nat.strongRecOn generalizing s with
  | ind i ih =>
    by_cases hid : (⟨i⟩ : ScopeId) = .global
    · rw [hid]
      exact .global
    · obtain ⟨⟨p⟩, ps, ho⟩ := wf.owned hs hid
      exact .child hs ho.parent (ih p ho.before ho.found)

theorem bound_once {id : ScopeId} {s : Scope} (hs : t.get? id = some s) (hid : id ≠ .global) :
    ∃! place : ScopeId × String, t.Binds place.1 place.2 (.scope id) := by
  obtain ⟨p, ps, ho⟩ := wf.owned hs hid
  refine ⟨(p, s.name), wf.owned_binds ho, ?_⟩
  rintro ⟨scope, name⟩ hbinds
  obtain ⟨s', hs', hparent, rfl⟩ := wf.bound_of_binds hbinds
  obtain rfl : s' = s := Option.some.inj (hs'.symm.trans hs)
  obtain rfl : scope = p := Option.some.inj (hparent.symm.trans ho.parent)
  rfl

theorem formsTree : t.FormsTree where
  global := by
    obtain ⟨s, hs, -⟩ := wf.root
    exact ⟨s, hs⟩
  orphan := wf.orphan_iff
  owned := by
    intro id s hs hid
    obtain ⟨p, ps, ho⟩ := wf.owned hs hid
    exact ⟨p, ps, ho.found, ho.parent, ho.before, wf.owned_binds ho, ho.qualified⟩
  rooted := wf.rooted _
  bound := wf.bound_of_binds
  distinct := by
    intro id bindings h
    obtain ⟨s, hs, rfl⟩ := Option.map_eq_some_iff.1 h
    exact wf.distinct hs
  once := wf.bound_once
  indexed := wf.indexed
  named := wf.named

end WellFormed

end ScopeTree

/-- In every catalog, whatever was done to it, the scopes form one tree. -/
theorem Hub.scopes_form_tree (settings : CatalogSettings) (ops : List Operation) :
    ((ofSettings settings).run ops).catalog.scopes.FormsTree :=
  (run_wellFormed _ (Catalog.empty_wellFormed settings) ops).scopes.formsTree

end TypeCatalog
