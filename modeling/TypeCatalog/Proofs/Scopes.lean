import TypeCatalog.Proofs.Table
import TypeCatalog.Scope.Tree

/-!
# The scopes stay a tree

`WellFormed` says that every scope but the global one is bound in its parent, and nowhere else, and
that the index by name is complete and sound. `Extends` says what a later tree still answers.
-/

namespace TypeCatalog

/-- A later state of the same scope. -/
structure Scope.Extends (s s' : Scope) : Prop where
  name : s'.name = s.name
  qualified : s'.qualified = s.qualified
  kind : s'.kind = s.kind
  parent : s'.parent = s.parent
  facet : ∀ {h}, s.facet = some h → s'.facet = some h
  members : s.members.entries <+: s'.members.entries

namespace Scope.Extends

variable {s s' s'' : Scope}

theorem refl (s : Scope) : s.Extends s := ⟨rfl, rfl, rfl, rfl, id, List.prefix_rfl⟩

theorem trans (h : s.Extends s') (h' : s'.Extends s'') : s.Extends s'' :=
  ⟨h'.name.trans h.name, h'.qualified.trans h.qualified, h'.kind.trans h.kind,
    h'.parent.trans h.parent, fun hf => h'.facet (h.facet hf), h.members.trans h'.members⟩

theorem member (h : s.Extends s') {name : String} {m : Member}
    (hm : s.members.get? name = some m) : s'.members.get? name = some m :=
  Table.get?_of_prefix h.members hm

end Scope.Extends

namespace ScopeTree

/-- The parent of a scope comes before it and binds it under its name. -/
structure OwnedBy (t : ScopeTree) (id : ScopeId) (s : Scope) (p : ScopeId) (ps : Scope) : Prop where
  parent : s.parent = some p
  before : p.index < id.index
  found : t.get? p = some ps
  binds : ps.members.get? s.name = some (.scope id)
  qualified : s.qualified = Name.join ps.qualified s.name

structure WellFormed (t : ScopeTree) : Prop where
  root : ∃ s, t.get? .global = some s ∧ s.parent = none ∧ s.qualified = ""
  rootNamed : t.byName.get? "" = some .global
  owned : ∀ {id s}, t.get? id = some s → id ≠ .global → ∃ p ps, t.OwnedBy id s p ps
  bound : ∀ {id s name child}, t.get? id = some s → s.members.get? name = some (.scope child) →
    ∃ c, t.get? child = some c ∧ c.parent = some id ∧ c.name = name
  indexed : ∀ {id s}, t.get? id = some s → ∃ id', t.byName.get? s.qualified = some id'
  named : ∀ {q id}, t.byName.get? q = some id → ∃ s, t.get? id = some s ∧ s.qualified = q
  distinct : ∀ {id s}, t.get? id = some s → s.members.keys.Nodup

structure Extends (t t' : ScopeTree) : Prop where
  scope : ∀ {id s}, t.get? id = some s → ∃ s', t'.get? id = some s' ∧ s.Extends s'
  byName : ∀ {q id}, t.byName.get? q = some id → t'.byName.get? q = some id
  byType : ∀ {h id}, t.byType.get? h = some id → t'.byType.get? h = some id

/-! ## Answers that stay -/

namespace Extends

variable {t t' t'' : ScopeTree}

theorem refl (t : ScopeTree) : t.Extends t := ⟨fun h => ⟨_, h, .refl _⟩, id, id⟩

theorem trans (h : t.Extends t') (h' : t'.Extends t'') : t.Extends t'' where
  scope := by
    intro id s hs
    obtain ⟨s', hs', he⟩ := h.scope hs
    obtain ⟨s'', hs'', he'⟩ := h'.scope hs'
    exact ⟨s'', hs'', he.trans he'⟩
  byName := fun hq => h'.byName (h.byName hq)
  byType := fun ht => h'.byType (h.byType ht)

theorem byName? (h : t.Extends t') {name : String} {id : ScopeId} (hn : t.byName? name = some id) :
    t'.byName? name = some id :=
  h.byName hn

theorem member? (h : t.Extends t') {id : ScopeId} {name : String} {m : Member}
    (hm : t.member? id name = some m) : t'.member? id name = some m := by
  obtain ⟨s, hs, hsm⟩ := Option.bind_eq_some_iff.1 hm
  obtain ⟨s', hs', he⟩ := h.scope hs
  rw [ScopeTree.member?, hs', Option.bind_some]
  exact he.member hsm

end Extends

theorem member?_of_get? {t : ScopeTree} {id : ScopeId} {s : Scope} (hs : t.get? id = some s)
    (name : String) : t.member? id name = s.members.get? name := by
  rw [member?, hs, Option.bind_some]

theorem WellFormed.child {t : ScopeTree} (wf : t.WellFormed) {parent id : ScopeId} {p : Scope}
    {name : String} (hp : t.get? parent = some p) (hm : p.members.get? name = some (.scope id)) :
    ∃ s, t.get? id = some s ∧ s.parent = some parent ∧ s.name = name ∧
      s.qualified = Name.join p.qualified name := by
  obtain ⟨s, hs, hparent, rfl⟩ := wf.bound hp hm
  have hid : id ≠ .global := by
    rintro rfl
    obtain ⟨r, hr, hnone, -⟩ := wf.root
    obtain rfl : r = s := Option.some.inj (hr.symm.trans hs)
    rw [hnone] at hparent
    cases hparent
  obtain ⟨p', ps, ho⟩ := wf.owned hs hid
  obtain rfl : p' = parent := Option.some.inj (ho.parent.symm.trans hparent)
  obtain rfl : ps = p := Option.some.inj (ho.found.symm.trans hp)
  exact ⟨s, hs, hparent, rfl, ho.qualified⟩

/-! ## Changing one scope -/

theorem get?_modify (t : ScopeTree) (id : ScopeId) (f : Scope → Scope) (id' : ScopeId) :
    (t.modify id f).get? id' = if id' = id then (t.get? id').map f else t.get? id' := by
  obtain ⟨i⟩ := id
  obtain ⟨j⟩ := id'
  simp only [get?, modify, List.getElem?_modify, ScopeId.mk.injEq]
  by_cases h : i = j
  · simp [h]
  · rw [if_neg (Ne.symm h)]
    simp [h]

theorem modify_extends {t : ScopeTree} {id : ScopeId} {s : Scope} (hs : t.get? id = some s)
    {f : Scope → Scope} (hf : s.Extends (f s)) : t.Extends (t.modify id f) where
  scope := by
    intro id' s' hs'
    rw [get?_modify]
    split
    · next h =>
      subst h
      obtain rfl : s = s' := Option.some.inj (hs.symm.trans hs')
      exact ⟨f s, by rw [hs]; rfl, hf⟩
    · exact ⟨s', hs', .refl s'⟩
  byName := fun hq => hq
  byType := fun ht => ht

/-- A change that neither declares scopes nor binds any keeps the tree. -/
theorem WellFormed.of_extends {t t' : ScopeTree} (wf : t.WellFormed) (hext : t.Extends t')
    (names : t'.byName = t.byName)
    (old : ∀ {id s'}, t'.get? id = some s' → ∃ s, t.get? id = some s ∧
      ∀ {name child}, s'.members.get? name = some (.scope child) →
        s.members.get? name = some (.scope child))
    (distinct : ∀ {id s'}, t'.get? id = some s' → s'.members.keys.Nodup) : t'.WellFormed where
  root := by
    obtain ⟨s, hs, hparent, hq⟩ := wf.root
    obtain ⟨s', hs', he⟩ := hext.scope hs
    exact ⟨s', hs', he.parent.trans hparent, he.qualified.trans hq⟩
  rootNamed := hext.byName wf.rootNamed
  owned := by
    intro id s' hs' hid
    obtain ⟨s, hs, -⟩ := old hs'
    obtain ⟨s'', hs'', he⟩ := hext.scope hs
    obtain rfl : s'' = s' := Option.some.inj (hs''.symm.trans hs')
    obtain ⟨p, ps, ho⟩ := wf.owned hs hid
    obtain ⟨ps', hps', hpe⟩ := hext.scope ho.found
    refine ⟨p, ps', he.parent.trans ho.parent, ho.before, hps', ?_, ?_⟩
    · rw [he.name]
      exact hpe.member ho.binds
    · rw [he.qualified, he.name, hpe.qualified]
      exact ho.qualified
  bound := by
    intro id s' name child hs' hm
    obtain ⟨s, hs, hback⟩ := old hs'
    obtain ⟨c, hc, hparent, hname⟩ := wf.bound hs (hback hm)
    obtain ⟨c', hc', he⟩ := hext.scope hc
    exact ⟨c', hc', he.parent.trans hparent, he.name.trans hname⟩
  indexed := by
    intro id s' hs'
    obtain ⟨s, hs, -⟩ := old hs'
    obtain ⟨s'', hs'', he⟩ := hext.scope hs
    obtain rfl : s'' = s' := Option.some.inj (hs''.symm.trans hs')
    rw [names, he.qualified]
    exact wf.indexed hs
  named := by
    intro q id hq
    rw [names] at hq
    obtain ⟨s, hs, hsq⟩ := wf.named hq
    obtain ⟨s', hs', he⟩ := hext.scope hs
    exact ⟨s', hs', he.qualified.trans hsq⟩
  distinct := distinct

/-! ### Binding a member -/

theorem put_extends {s : Scope} {name : String} (free : s.members.get? name = none) (m : Member) :
    s.Extends { s with members := s.members.put name m } :=
  ⟨rfl, rfl, rfl, rfl, id, Table.entries_put_prefix free m⟩

theorem bind_extends {t : ScopeTree} {id : ScopeId} {s : Scope} (hs : t.get? id = some s)
    {name : String} (free : s.members.get? name = none) (m : Member) :
    t.Extends (t.bind id name m) :=
  modify_extends hs (put_extends free m)

theorem bind_wellFormed {t : ScopeTree} (wf : t.WellFormed) {id : ScopeId} {s : Scope}
    (hs : t.get? id = some s) {name : String} (free : s.members.get? name = none) {m : Member}
    (plain : m.scope? = none) : (t.bind id name m).WellFormed := by
  refine wf.of_extends (bind_extends hs free m) rfl ?_ ?_
  · intro id' s' hs'
    rw [bind, get?_modify] at hs'
    split at hs'
    · obtain ⟨s₀, hs₀, rfl⟩ := Option.map_eq_some_iff.1 hs'
      refine ⟨s₀, hs₀, ?_⟩
      intro name' child hm
      rw [Table.get?_put] at hm
      split at hm
      · rw [Option.some.inj hm] at plain
        cases plain
      · exact hm
    · exact ⟨s', hs', fun hm => hm⟩
  · intro id' s' hs'
    rw [bind, get?_modify] at hs'
    split at hs'
    · next hid =>
      rw [hid, hs] at hs'
      rw [← Option.some.inj hs']
      exact Table.keys_put_nodup (wf.distinct hs) free m
    · exact wf.distinct hs'

theorem member?_bind {t : ScopeTree} {id : ScopeId} {s : Scope} (hs : t.get? id = some s)
    (name : String) (m : Member) : (t.bind id name m).member? id name = some m := by
  rw [member?, bind, get?_modify, if_pos rfl, hs, Option.map_some, Option.bind_some, Table.get?_put,
    if_pos rfl]

/-! ### Carrying a type -/

/-- The tree after scope `id` has got its type. -/
def carry (t : ScopeTree) (id : ScopeId) (h : Handle) : ScopeTree :=
  let t' := t.modify id fun s => { s with facet := some h }
  { t' with byType := t'.byType.keep h id }

theorem get?_carry (t : ScopeTree) (id : ScopeId) (h : Handle) (id' : ScopeId) :
    (t.carry id h).get? id' =
      if id' = id then (t.get? id').map fun s => { s with facet := some h } else t.get? id' :=
  get?_modify t id _ id'

theorem carry_extends {t : ScopeTree} {id : ScopeId} {s : Scope} (hs : t.get? id = some s)
    (free : s.facet = none) (h : Handle) : t.Extends (t.carry id h) where
  scope := by
    refine (modify_extends hs ?_).scope
    refine ⟨rfl, rfl, rfl, rfl, ?_, List.prefix_rfl⟩
    intro h' hfacet
    rw [free] at hfacet
    cases hfacet
  byName := fun hq => hq
  byType := Table.get?_keep_of_bound _ _ _

theorem carry_wellFormed {t : ScopeTree} (wf : t.WellFormed) {id : ScopeId} {s : Scope}
    (hs : t.get? id = some s) (free : s.facet = none) (h : Handle) :
    (t.carry id h).WellFormed := by
  have old : ∀ {id' s'}, (t.carry id h).get? id' = some s' →
      ∃ s, t.get? id' = some s ∧ s'.members = s.members := by
    intro id' s' hs'
    rw [get?_carry] at hs'
    split at hs'
    · obtain ⟨s₀, hs₀, rfl⟩ := Option.map_eq_some_iff.1 hs'
      exact ⟨s₀, hs₀, rfl⟩
    · exact ⟨s', hs', rfl⟩
  refine wf.of_extends (carry_extends hs free h) rfl ?_ ?_
  · intro id' s' hs'
    obtain ⟨s₀, hs₀, hsame⟩ := old hs'
    exact ⟨s₀, hs₀, fun hm => hsame ▸ hm⟩
  · intro id' s' hs'
    obtain ⟨s₀, hs₀, hsame⟩ := old hs'
    rw [hsame]
    exact wf.distinct hs₀

/-! ### Declaring a scope -/

theorem get?_lt {t : ScopeTree} {id : ScopeId} {s : Scope} (hs : t.get? id = some s) :
    id.index < t.size :=
  (List.getElem?_eq_some_iff.1 hs).1

theorem get?_push (t : ScopeTree) (parent : ScopeId) (parentName name : String) (kind : ScopeKind)
    {p : Scope} (hp : t.get? parent = some p) (id : ScopeId) :
    (t.push parent parentName name kind).2.get? id =
      if id = ⟨t.size⟩ then
        some ⟨name, Name.join parentName name, kind, some parent, none, .empty⟩
      else if id = parent then some { p with members := p.members.put name (.scope ⟨t.size⟩) }
      else t.get? id := by
  have hlt := get?_lt hp
  obtain ⟨i⟩ := id
  simp only [push, bind, get?_modify]
  by_cases hpar : (⟨i⟩ : ScopeId) = parent
  · subst hpar
    rw [if_pos rfl, if_neg (by simp only [ScopeId.mk.injEq]; simp at hlt; omega), if_pos rfl]
    simp only [get?]
    rw [List.getElem?_append_left (by exact hlt)]
    simp only [get?] at hp
    rw [hp]
    rfl
  · rw [if_neg hpar, if_neg hpar]
    simp only [get?, ScopeId.mk.injEq]
    rw [List.getElem?_append, size]
    by_cases hi : i < t.scopes.length
    · rw [if_pos hi, if_neg (by omega)]
    · rw [if_neg hi]
      by_cases he : i = t.scopes.length
      · simp [he]
      · rw [if_neg he, List.getElem?_eq_none (by simp; omega), List.getElem?_eq_none (by omega)]

section Push

variable {t : ScopeTree} {parent : ScopeId} {p : Scope} {name : String}

theorem push_extends (hp : t.get? parent = some p) (free : p.members.get? name = none)
    (kind : ScopeKind) : t.Extends (t.push parent p.qualified name kind).2 where
  scope := by
    intro id s hs
    have hlt := get?_lt hs
    rw [get?_push t parent p.qualified name kind hp, if_neg (by rintro rfl; simp at hlt)]
    split
    · next h =>
      subst h
      obtain rfl : p = s := Option.some.inj (hp.symm.trans hs)
      exact ⟨_, rfl, put_extends free _⟩
    · exact ⟨s, hs, .refl s⟩
  byName := Table.get?_keep_of_bound _ _ _
  byType := fun ht => ht

/-- A scope after a declaration is the new one, or an old one with at most the new binding. -/
theorem push_cases (hp : t.get? parent = some p) (free : p.members.get? name = none)
    (kind : ScopeKind) {id : ScopeId} {s' : Scope}
    (hs' : (t.push parent p.qualified name kind).2.get? id = some s') :
    id = ⟨t.size⟩ ∧ s' = ⟨name, Name.join p.qualified name, kind, some parent, none, .empty⟩ ∨
      ∃ s, t.get? id = some s ∧ s.Extends s' ∧ ∀ {n m}, s'.members.get? n = some m →
        s.members.get? n = some m ∨ id = parent ∧ n = name ∧ m = .scope ⟨t.size⟩ := by
  rw [get?_push t parent p.qualified name kind hp] at hs'
  split at hs'
  · next hid => exact .inl ⟨hid, (Option.some.inj hs').symm⟩
  · right
    split at hs'
    · next hid =>
      obtain rfl := Option.some.inj hs'
      refine ⟨p, by rw [hid]; exact hp, put_extends free _, ?_⟩
      intro n m hm
      rw [Table.get?_put] at hm
      split at hm
      · next hn => exact .inr ⟨hid, hn, (Option.some.inj hm).symm⟩
      · exact .inl hm
    · exact ⟨s', hs', .refl s', fun hm => .inl hm⟩

theorem member?_push (hp : t.get? parent = some p) (kind : ScopeKind) :
    (t.push parent p.qualified name kind).2.member? parent name = some (.scope ⟨t.size⟩) := by
  have hlt := get?_lt hp
  rw [member?, get?_push t parent p.qualified name kind hp, if_neg (by rintro rfl; simp at hlt),
    if_pos rfl, Option.bind_some, Table.get?_put, if_pos rfl]

theorem info?_push (hp : t.get? parent = some p) (kind : ScopeKind) :
    (t.push parent p.qualified name kind).2.info? ⟨t.size⟩ =
      some ⟨⟨t.size⟩, name, Name.join p.qualified name, kind, some parent, none, 0⟩ := by
  rw [info?, get?_push t parent p.qualified name kind hp, if_pos rfl]
  rfl

theorem push_wellFormed (wf : t.WellFormed) (hp : t.get? parent = some p)
    (free : p.members.get? name = none) (kind : ScopeKind) :
    (t.push parent p.qualified name kind).2.WellFormed := by
  have hext := push_extends hp free kind
  have hnew := get?_push t parent p.qualified name kind hp ⟨t.size⟩
  rw [if_pos rfl] at hnew
  have hlt := get?_lt hp
  have hbyName : (t.push parent p.qualified name kind).2.byName =
    t.byName.keep (Name.join p.qualified name) ⟨t.size⟩ := rfl
  constructor
  case root =>
    obtain ⟨s, hs, hparent, hq⟩ := wf.root
    obtain ⟨s', hs', he⟩ := hext.scope hs
    exact ⟨s', hs', he.parent.trans hparent, he.qualified.trans hq⟩
  case rootNamed => exact hext.byName wf.rootNamed
  case owned =>
    intro id s' hs' hid
    rcases push_cases hp free kind hs' with ⟨rfl, rfl⟩ | ⟨s, hs, he, -⟩
    · obtain ⟨p', hp', hpe⟩ := hext.scope hp
      refine ⟨parent, p', rfl, hlt, hp', ?_, ?_⟩
      · rw [← member?_of_get? hp']
        exact member?_push hp kind
      · rw [hpe.qualified]
    · obtain ⟨q, qs, ho⟩ := wf.owned hs hid
      obtain ⟨qs', hqs', hqe⟩ := hext.scope ho.found
      refine ⟨q, qs', he.parent.trans ho.parent, ho.before, hqs', ?_, ?_⟩
      · rw [he.name]
        exact hqe.member ho.binds
      · rw [he.qualified, he.name, hqe.qualified]
        exact ho.qualified
  case bound =>
    intro id s' n child hs' hm
    rcases push_cases hp free kind hs' with ⟨rfl, rfl⟩ | ⟨s, hs, -, hback⟩
    · simp at hm
    · rcases hback hm with hold | ⟨rfl, rfl, hchild⟩
      · obtain ⟨c, hc, hparent, hname⟩ := wf.bound hs hold
        obtain ⟨c', hc', he⟩ := hext.scope hc
        exact ⟨c', hc', he.parent.trans hparent, he.name.trans hname⟩
      · obtain rfl := Member.scope.inj hchild
        exact ⟨_, hnew, rfl, rfl⟩
  case indexed =>
    intro id s' hs'
    rw [hbyName]
    rcases push_cases hp free kind hs' with ⟨rfl, rfl⟩ | ⟨s, hs, he, -⟩
    · rw [Table.get?_keep]
      cases h : t.byName.get? (Name.join p.qualified name) with
      | some id' => exact ⟨id', rfl⟩
      | none => exact ⟨⟨t.size⟩, by simp⟩
    · obtain ⟨id', hid'⟩ := wf.indexed hs
      rw [he.qualified]
      exact ⟨id', Table.get?_keep_of_bound _ _ _ hid'⟩
  case named =>
    intro q id hq
    rw [hbyName, Table.get?_keep] at hq
    cases h : t.byName.get? q with
    | some id' =>
      rw [h] at hq
      obtain rfl := Option.some.inj hq
      obtain ⟨s, hs, hsq⟩ := wf.named h
      obtain ⟨s', hs', he⟩ := hext.scope hs
      exact ⟨s', hs', he.qualified.trans hsq⟩
    | none =>
      rw [h, Option.none_or] at hq
      split at hq
      · next hjoin =>
        obtain rfl := Option.some.inj hq
        exact ⟨_, hnew, hjoin.symm⟩
      · cases hq
  case distinct =>
    intro id s' hs'
    rw [get?_push t parent p.qualified name kind hp] at hs'
    split at hs'
    · rw [← Option.some.inj hs']
      exact List.nodup_nil
    · split at hs'
      · rw [← Option.some.inj hs']
        exact Table.keys_put_nodup (wf.distinct hp) free _
      · exact wf.distinct hs'

end Push

/-! ## What an operation that succeeds has done -/

theorem declare_ok {t t' : ScopeTree} {parent : ScopeId} {name : String} {kind : ScopeKind}
    {o : Outcome ScopeId} (h : t.declare parent name kind = .ok (o, t')) :
    (∃ id s, o = .existing id ∧ t' = t ∧ t.member? parent name = some (.scope id) ∧
        t.get? id = some s ∧ s.kind = kind) ∨
      ∃ p, t.get? parent = some p ∧ p.members.get? name = none ∧ o = .created ⟨t.size⟩ ∧
        t' = (t.push parent p.qualified name kind).2 := by
  unfold declare at h
  split at h
  · cases h
  · next p hp =>
    rw [member?_of_get? hp]
    split at h
    · next id hm =>
      split at h
      · cases h
      · next s hs =>
        split at h
        · next hk =>
          cases h
          exact .inl ⟨id, s, rfl, rfl, hm, hs, hk⟩
        · cases h
    · cases h
    · next hm =>
      cases h
      exact .inr ⟨p, hp, hm, rfl, rfl⟩

theorem addMember_ok {t t' : ScopeTree} {scope : ScopeId} {name : String} {m : Member}
    {added : Bool} (h : t.addMember scope name m = .ok (added, t')) :
    ∃ s, t.get? scope = some s ∧ t.checkOwner scope name m = .ok () ∧
      (added = false ∧ t' = t ∧ s.members.get? name = some m ∨
        added = true ∧ t' = t.bind scope name m ∧ s.members.get? name = none) := by
  unfold addMember at h
  split at h
  · cases h
  · next s hs =>
    split at h
    · cases h
    · next howner =>
      refine ⟨s, hs, howner, ?_⟩
      split at h
      · next m' hm =>
        split at h
        · next hsame =>
          cases h
          exact .inl ⟨rfl, rfl, by rw [hm, hsame]⟩
        · cases h
      · next hm =>
        cases h
        exact .inr ⟨rfl, rfl, hm⟩

theorem attach_ok {t t' : ScopeTree} {scope : ScopeId} {h : Handle}
    (hok : t.attach scope h = .ok t') :
    ∃ s, t.get? scope = some s ∧
      (t' = t ∧ s.facet = some h ∨ t' = t.carry scope h ∧ s.facet = none) := by
  unfold attach at hok
  split at hok
  · cases hok
  · next s hs =>
    refine ⟨s, hs, ?_⟩
    split at hok
    · next h' hfacet =>
      split at hok
      · next hsame =>
        cases hok
        exact .inl ⟨rfl, by rw [hfacet, hsame]⟩
      · cases hok
    · next hfacet =>
      cases hok
      exact .inr ⟨rfl, hfacet⟩

theorem attach_succeeds {t : ScopeTree} {scope : ScopeId} {s : Scope} {h : Handle}
    (hs : t.get? scope = some s) (fits : ∀ h', s.facet = some h' → h' = h) :
    ∃ t', t.attach scope h = .ok t' := by
  unfold attach
  rw [hs]
  simp only
  cases hfacet : s.facet with
  | none => exact ⟨_, rfl⟩
  | some h' =>
    simp only
    rw [if_pos (fits h' hfacet)]
    exact ⟨_, rfl⟩

theorem attach_again {t : ScopeTree} {scope : ScopeId} {s : Scope} {h : Handle}
    (hs : t.get? scope = some s) (hfacet : s.facet = some h) : t.attach scope h = .ok t := by
  unfold attach
  rw [hs]
  simp only
  rw [hfacet]
  simp only [↓reduceIte]

theorem empty_wellFormed : empty.WellFormed := by
  have hget : ∀ {id s}, empty.get? id = some s → id = .global ∧ s = root := by
    intro id s hs
    obtain ⟨i⟩ := id
    have hlt := get?_lt hs
    simp only [size, empty, List.length_singleton, Nat.lt_one_iff] at hlt
    subst hlt
    exact ⟨rfl, (Option.some.inj hs).symm⟩
  refine ⟨⟨root, rfl, rfl, rfl⟩, rfl, ?_, ?_, ?_, ?_, ?_⟩
  · intro id s hs hid
    exact absurd (hget hs).1 hid
  · intro id s name child hs hm
    rw [(hget hs).2] at hm
    simp [root] at hm
  · intro id s hs
    rw [(hget hs).2]
    exact ⟨.global, rfl⟩
  · intro q id hq
    simp only [empty, Table.get?_put] at hq
    split at hq
    · next h =>
      obtain rfl := Option.some.inj hq
      exact ⟨root, rfl, h.symm⟩
    · simp at hq
  · intro id s hs
    rw [(hget hs).2]
    exact List.nodup_nil

end ScopeTree

end TypeCatalog
