import TypeCatalog.Proofs.Histories

/-!
# Namespaces that are missing

The loader walks along a path from the global scope. What it declares is one namespace for each
prefix that led nowhere, in the order of the prefixes, and nothing else. Only a name that stands for
something else than a scope stops it.
-/

namespace TypeCatalog

/-! ## Places in lists -/

theorem getElem?_singleton_iff {α : Type} {a b : α} {k : Nat} :
    [a][k]? = some b ↔ k = 0 ∧ a = b := by
  rw [List.getElem?_singleton]
  split
  case isTrue hk => simp [hk]
  case isFalse hk => simp [hk]

theorem getElem?_append_iff {α : Type} {l m : List α} {k : Nat} {a : α} :
    (l ++ m)[k]? = some a ↔ l[k]? = some a ∨ ∃ j, k = l.length + j ∧ m[j]? = some a := by
  constructor
  · intro h
    rcases Nat.lt_or_ge k l.length with hlt | hge
    · rw [List.getElem?_append_left hlt] at h
      exact .inl h
    · rw [List.getElem?_append_right hge] at h
      exact .inr ⟨k - l.length, by omega, h⟩
  · rintro (h | ⟨j, rfl, h⟩)
    · rw [List.getElem?_append_left (List.getElem?_eq_some_iff.1 h).1, h]
    · rw [List.getElem?_append_right (by omega), Nat.add_sub_cancel_left, h]

namespace ScopeTree

/-! ## What a path needs -/

/-- The path leads to no scope. -/
def Lacks (t : ScopeTree) (cs : List String) : Prop := t.byName? (Name.path cs) = none

instance (t : ScopeTree) (cs : List String) : Decidable (t.Lacks cs) :=
  inferInstanceAs (Decidable (_ = _))

/-- The prefixes of a path that lead to no scope, shortest first. None of them is needed if the path
leads to one. -/
def missing (t : ScopeTree) (cs : List String) : List (List String) :=
  if t.Lacks cs then cs.inits.filter (t.Lacks ·) else []

/-- The path leads nowhere because its last name stands for something else than a scope. -/
def Blocks (t : ScopeTree) (before : List String) (name : String) : Prop :=
  t.Lacks (before ++ [name]) ∧
    ∃ parent m, t.byName? (Name.path before) = some parent ∧
      t.member? parent name = some m ∧ m.scope? = none

/-! ## What is declared -/

/-- The scope is a namespace that was declared where the path `before` leads. -/
structure NamespaceIn (t : ScopeTree) (id : ScopeId) (before : List String) (name : String)
    (parent : ScopeId) : Prop where
  found : t.byName? (Name.path before) = some parent
  scope : ∃ s, t.get? id = some s ∧ s.name = name ∧ s.qualified = Name.path (before ++ [name]) ∧
    s.kind = .namespace ∧ s.parent = some parent ∧ s.facet = none
  binds : t.member? parent name = some (.scope id)

/-- The later tree has one namespace more for each path of `made`, in this order, and is the same
tree otherwise. -/
structure Gains (t : ScopeTree) (made : List (List String)) (t' : ScopeTree) : Prop where
  size : t'.size = t.size + made.length
  new : ∀ {k p}, made[k]? = some p →
    ∃ before name parent, p = before ++ [name] ∧ t'.NamespaceIn ⟨t.size + k⟩ before name parent
  kept : ∀ {id s}, t.get? id = some s →
    ∃ s', t'.get? id = some s' ∧ s.Extends s' ∧ s'.facet = s.facet
  bound : ∀ {id name m}, t'.member? id name = some m → t.member? id name = some m ∨
    ∃ k before, made[k]? = some (before ++ [name]) ∧ m = .scope ⟨t.size + k⟩ ∧
      t'.byName? (Name.path before) = some id
  byName : ∀ {q id}, t'.byName? q = some id ↔ t.byName? q = some id ∨
    ∃ k p, made[k]? = some p ∧ Name.stripRoot q = Name.path p ∧ id = ⟨t.size + k⟩
  byType : t'.byType = t.byType

namespace Gains

variable {t t' t'' : ScopeTree} {made more : List (List String)}

theorem refl (t : ScopeTree) : t.Gains [] t where
  size := rfl
  new := by
    intro k p hk
    cases hk
  kept := fun hs => ⟨_, hs, .refl _, rfl⟩
  bound := .inl
  byName := by simp
  byType := rfl

theorem found (h : t.Gains made t') {q : String} {id : ScopeId} (hq : t.byName? q = some id) :
    t'.byName? q = some id :=
  h.byName.2 (.inl hq)

theorem member? (h : t.Gains made t') {id : ScopeId} {name : String} {m : Member}
    (hm : t.member? id name = some m) : t'.member? id name = some m := by
  obtain ⟨s, hs, hsm⟩ := Option.bind_eq_some_iff.1 hm
  obtain ⟨s', hs', hext, -⟩ := h.kept hs
  rw [member?_of_get? hs']
  exact hext.member hsm

theorem namespaceIn (h : t.Gains made t') {id parent : ScopeId} {before : List String}
    {name : String} (hn : t.NamespaceIn id before name parent) :
    t'.NamespaceIn id before name parent where
  found := h.found hn.found
  scope := by
    obtain ⟨s, hs, hname, hqualified, hkind, hparent, hnone⟩ := hn.scope
    obtain ⟨s', hs', hext, hfacet⟩ := h.kept hs
    exact ⟨s', hs', hext.name.trans hname, hext.qualified.trans hqualified,
      hext.kind.trans hkind, hext.parent.trans hparent, hfacet.trans hnone⟩
  binds := h.member? hn.binds

theorem trans (h : t.Gains made t') (h' : t'.Gains more t'') : t.Gains (made ++ more) t'' := by
  -- What comes later has its place behind all that came first.
  have place : ∀ j, (⟨t'.size + j⟩ : ScopeId) = ⟨t.size + (made.length + j)⟩ := by
    intro j
    rw [h.size, Nat.add_assoc]
  constructor
  case size => rw [h'.size, h.size, List.length_append, Nat.add_assoc]
  case new =>
    intro k p hk
    rcases getElem?_append_iff.1 hk with hmade | ⟨j, rfl, hmore⟩
    · obtain ⟨before, name, parent, hp, hn⟩ := h.new hmade
      exact ⟨before, name, parent, hp, h'.namespaceIn hn⟩
    · rw [← place]
      exact h'.new hmore
  case kept =>
    intro id s hs
    obtain ⟨s', hs', hext, hfacet⟩ := h.kept hs
    obtain ⟨s'', hs'', hext', hfacet'⟩ := h'.kept hs'
    exact ⟨s'', hs'', hext.trans hext', hfacet'.trans hfacet⟩
  case bound =>
    intro id name m hm
    rcases h'.bound hm with hmid | ⟨j, before, hj, rfl, hbefore⟩
    · rcases h.bound hmid with hold | ⟨k, before, hk, rfl, hbefore⟩
      · exact .inl hold
      · exact .inr ⟨k, before, getElem?_append_iff.2 (.inl hk), rfl, h'.found hbefore⟩
    · exact .inr ⟨_, before, getElem?_append_iff.2 (.inr ⟨j, rfl, hj⟩), by rw [place], hbefore⟩
  case byName =>
    intro q id
    rw [h'.byName, h.byName]
    constructor
    · rintro ((hold | ⟨k, p, hk, hq, rfl⟩) | ⟨j, p, hj, hq, rfl⟩)
      · exact .inl hold
      · exact .inr ⟨k, p, getElem?_append_iff.2 (.inl hk), hq, rfl⟩
      · exact .inr ⟨_, p, getElem?_append_iff.2 (.inr ⟨j, rfl, hj⟩), hq, place j⟩
    · rintro (hold | ⟨k, p, hk, hq, rfl⟩)
      · exact .inl (.inl hold)
      · rcases getElem?_append_iff.1 hk with hmade | ⟨j, rfl, hmore⟩
        · exact .inl (.inr ⟨k, p, hmade, hq, rfl⟩)
        · exact .inr ⟨j, p, hmore, hq, (place j).symm⟩
  case byType => rw [h'.byType, h.byType]

theorem single {current : ScopeId} {p : Scope} {before : List String} {name : String}
    (components : ∀ x ∈ before ++ [name], Name.IsComponent x)
    (found : t.byName? (Name.path before) = some current) (hp : t.get? current = some p)
    (qualified : p.qualified = Name.path before) (free : p.members.get? name = none)
    (lacks : t.Lacks (before ++ [name])) :
    t.Gains [before ++ [name]] (t.push current p.qualified name .namespace).2 := by
  have hjoin : Name.join p.qualified name = Name.path (before ++ [name]) := by
    rw [qualified]
    exact Name.join_path (List.forall_mem_append.1 components).1 name
  have hext := push_extends hp free .namespace
  have hnew := get?_push t current p.qualified name .namespace hp ⟨t.size⟩
  rw [if_pos rfl, hjoin] at hnew
  constructor
  case size =>
    simp only [push, bind, modify, ScopeTree.size, List.length_modify, List.length_append,
      List.length_singleton]
  case new =>
    intro k path hk
    obtain ⟨rfl, rfl⟩ := getElem?_singleton_iff.1 hk
    exact ⟨before, name, current, rfl, hext.byName? found,
      ⟨_, hnew, rfl, rfl, rfl, rfl, rfl⟩, member?_push hp .namespace⟩
  case kept =>
    intro id s hs
    have hlt := get?_lt hs
    rw [get?_push t current p.qualified name .namespace hp, if_neg (by rintro rfl; simp at hlt)]
    split
    case isTrue hid =>
      obtain rfl : p = s := Option.some.inj (hp.symm.trans (hid ▸ hs))
      exact ⟨_, rfl, put_extends free _, rfl⟩
    case isFalse => exact ⟨s, hs, .refl s, rfl⟩
  case bound =>
    intro id name' m hm
    obtain ⟨s', hs', hsm⟩ := Option.bind_eq_some_iff.1 hm
    rcases push_cases hp free .namespace hs' with ⟨-, rfl⟩ | ⟨s, hs, -, hback⟩
    · cases hsm
    · rw [member?_of_get? hs]
      refine (hback hsm).imp_right ?_
      rintro ⟨rfl, rfl, rfl⟩
      exact ⟨0, before, rfl, rfl, hext.byName? found⟩
  case byName =>
    intro q id
    have hindex : (t.push current p.qualified name .namespace).2.byName? q =
        (t.byName.keep (Name.path (before ++ [name])) ⟨t.size⟩).get? (Name.stripRoot q) := by
      rw [← hjoin]
      rfl
    have hold : t.byName? q = t.byName.get? (Name.stripRoot q) := rfl
    rw [hindex, hold, Table.get?_keep, Option.or_eq_some_iff]
    refine or_congr_right ?_
    constructor
    · rintro ⟨-, hnew⟩
      split at hnew
      case isTrue hq => exact ⟨0, _, rfl, hq, (Option.some.inj hnew).symm⟩
      case isFalse => cases hnew
    · rintro ⟨k, path, hk, hq, rfl⟩
      obtain ⟨rfl, rfl⟩ := getElem?_singleton_iff.1 hk
      rw [Lacks, byName?, Name.stripRoot_path components] at lacks
      rw [hq, if_pos rfl]
      exact ⟨lacks, rfl⟩
  case byType => rfl

end Gains

/-! ## Walking along a path -/

/-- A walk from tree `t` has come to the end of a path: what was missing on the way is there, and
nothing has stopped it. -/
structure Walked (t : ScopeTree) (done : List String) (t' : ScopeTree) (current : ScopeId) :
    Prop where
  gains : t.Gains (done.inits.filter (t.Lacks ·)) t'
  current : t'.byName? (Name.path done) = some current
  clear : ∀ {before name}, before ++ [name] <+: done → ¬t.Blocks before name

theorem qualified_of_path {t : ScopeTree} (wf : t.WellFormed) {cs : List String}
    (components : ∀ x ∈ cs, Name.IsComponent x) {id : ScopeId} {s : Scope}
    (found : t.byName? (Name.path cs) = some id) (hs : t.get? id = some s) :
    s.qualified = Name.path cs := by
  obtain ⟨s', hs', hq⟩ := wf.named found
  obtain rfl : s' = s := Option.some.inj (hs'.symm.trans hs)
  rw [hq, Name.stripRoot_path components]

theorem path_unique {t : ScopeTree} (wf : t.WellFormed) {cs ds : List String}
    (hcs : ∀ x ∈ cs, Name.IsComponent x) (hds : ∀ x ∈ ds, Name.IsComponent x) {id : ScopeId}
    (found : t.byName? (Name.path cs) = some id) (found' : t.byName? (Name.path ds) = some id) :
    cs = ds := by
  obtain ⟨s, hs, -⟩ := wf.named found
  refine Name.path_injective hcs hds ?_
  rw [← qualified_of_path wf hcs found hs, qualified_of_path wf hds found' hs]

section Passed

variable {t : ScopeTree} {done : List String} {name : String}

theorem filter_inits_of_lacks (h : t.Lacks (done ++ [name])) :
    (done ++ [name]).inits.filter (t.Lacks ·) =
      done.inits.filter (t.Lacks ·) ++ [done ++ [name]] := by
  rw [List.inits_append, List.filter_append]
  exact congrArg _ (List.filter_cons_of_pos (by simpa using h))

theorem filter_inits_of_has (h : ¬t.Lacks (done ++ [name])) :
    (done ++ [name]).inits.filter (t.Lacks ·) = done.inits.filter (t.Lacks ·) := by
  rw [List.inits_append, List.filter_append]
  refine (congrArg _ (List.filter_cons_of_neg (by simpa using h))).trans ?_
  exact List.append_nil _

theorem within_of_made {k : Nat} {p : List String}
    (hk : (done.inits.filter (t.Lacks ·))[k]? = some p) : p <+: done :=
  (List.mem_inits _ _).1 (List.mem_filter.1 (List.mem_of_getElem? hk)).1

end Passed

namespace Walked

variable {t t' : ScopeTree} {done : List String} {current : ScopeId} {name : String}

theorem start (wf : t.WellFormed) : t.Walked [] t .global where
  gains := by
    have root : ¬t.Lacks [] := by
      rw [Lacks, Name.path_nil]
      exact Option.ne_none_iff_exists'.2 ⟨_, wf.rootNamed⟩
    rw [List.inits, List.filter_cons_of_neg (by simpa using root)]
    exact .refl t
  current := wf.rootNamed
  clear := by
    intro before name h
    exact absurd (List.prefix_nil.1 h) (by simp)

theorem byName?_next (h : t.Walked done t' current)
    (components : ∀ x ∈ done ++ [name], Name.IsComponent x) :
    t'.byName? (Name.path (done ++ [name])) = t.byName? (Name.path (done ++ [name])) := by
  refine Option.ext fun id => ?_
  rw [h.gains.byName]
  refine or_iff_left ?_
  rintro ⟨k, p, hk, hpath, -⟩
  have hp := within_of_made hk
  have hcomponents : ∀ x ∈ p, Name.IsComponent x := fun x hx =>
    components x (List.mem_append_left _ (hp.subset hx))
  rw [Name.stripRoot_path components] at hpath
  have hlength := hp.length_le
  rw [← Name.path_injective components hcomponents hpath, List.length_append,
    List.length_singleton] at hlength
  omega

theorem clear_next (h : t.Walked done t' current) (passable : ¬t.Blocks done name)
    {before : List String} {name' : String} (hwithin : before ++ [name'] <+: done ++ [name]) :
    ¬t.Blocks before name' := by
  rcases List.prefix_concat_iff.1 hwithin with hlast | hearlier
  · obtain ⟨rfl, hname⟩ := List.append_inj' hlast rfl
    obtain rfl := (List.cons.inj hname).1
    exact passable
  · exact h.clear hearlier

theorem known (h : t.Walked done t' current)
    (components : ∀ x ∈ done ++ [name], Name.IsComponent x) {id : ScopeId}
    (found : t'.byName? (Name.path (done ++ [name])) = some id) :
    t.Walked (done ++ [name]) t' id where
  gains := by
    have has : ¬t.Lacks (done ++ [name]) := by
      rw [Lacks, ← h.byName?_next components, found]
      exact Option.some_ne_none id
    rw [filter_inits_of_has has]
    exact h.gains
  current := found
  clear := by
    refine h.clear_next ?_
    rintro ⟨hlacks, -⟩
    rw [Lacks, ← h.byName?_next components, found] at hlacks
    cases hlacks

theorem declared (h : t.Walked done t' current) (wf : t'.WellFormed)
    (components : ∀ x ∈ done ++ [name], Name.IsComponent x)
    (lacks : t'.Lacks (done ++ [name])) {p : Scope} (hp : t'.get? current = some p)
    (free : p.members.get? name = none) :
    t.Walked (done ++ [name]) (t'.push current p.qualified name .namespace).2 ⟨t'.size⟩ := by
  have hdone := (List.forall_mem_append.1 components).1
  have hlast := Gains.single components h.current hp (qualified_of_path wf hdone h.current hp) free
    lacks
  constructor
  case gains =>
    have hlacks : t.Lacks (done ++ [name]) := (h.byName?_next components).symm.trans lacks
    rw [filter_inits_of_lacks hlacks]
    exact h.gains.trans hlast
  case current =>
    exact hlast.byName.2 (.inr ⟨0, _, rfl, Name.stripRoot_path components, rfl⟩)
  case clear =>
    refine h.clear_next ?_
    rintro ⟨-, parent, m, hparent, hm, -⟩
    obtain rfl := Option.some.inj ((h.gains.found hparent).symm.trans h.current)
    have hbound := h.gains.member? hm
    rw [member?_of_get? hp, free] at hbound
    cases hbound

/-- The next scope is missing, and its name stands for something where the walk is. That was there
before the walk, and it is no scope. -/
theorem blocked (h : t.Walked done t' current) (wf : t'.WellFormed)
    (components : ∀ x ∈ done ++ [name], Name.IsComponent x)
    (lacks : t'.Lacks (done ++ [name])) {p : Scope} (hp : t'.get? current = some p) {m : Member}
    (taken : p.members.get? name = some m) : t.Blocks done name ∧ m.scope? = none := by
  have hdone := (List.forall_mem_append.1 components).1
  have plain : m.scope? = none := by
    cases m with
    | scope child =>
      obtain ⟨s, hs, -, -, hq⟩ := wf.child hp taken
      obtain ⟨id, hid⟩ := wf.indexed hs
      rw [Lacks, byName?, Name.stripRoot_path components, ← Name.join_path hdone,
        ← qualified_of_path wf hdone h.current hp, ← hq, hid] at lacks
      cases lacks
    | _ => rfl
  have old : t.member? current name = some m := by
    rw [← member?_of_get? hp] at taken
    rcases h.gains.bound taken with hold | ⟨k, before, hk, -, hbefore⟩
    · exact hold
    · have hwithin := within_of_made hk
      have hcomponents : ∀ x ∈ before, Name.IsComponent x := fun x hx =>
        hdone x (hwithin.subset (List.mem_append_left _ hx))
      have hlength := hwithin.length_le
      rw [path_unique wf hcomponents hdone hbefore h.current, List.length_append,
        List.length_singleton] at hlength
      omega
  refine ⟨⟨(h.byName?_next components).symm.trans lacks, current, m, ?_, old, plain⟩, plain⟩
  rcases h.gains.byName.1 h.current with hold | ⟨k, -, -, -, rfl⟩
  · exact hold
  · -- A scope of the walk has bound nothing before it.
    obtain ⟨s, hs, -⟩ := Option.bind_eq_some_iff.1 old
    have hlt := get?_lt hs
    simp only at hlt
    omega

end Walked

end ScopeTree

namespace Hub

/-! ## Declaring one scope -/

section Declare

variable {hub : Hub} {parent : ScopeId} {p : Scope} {name : String} (kind : ScopeKind)

/-- No observer makes a shadow of a scope, so nothing else changes. -/
theorem declareScope_of_free (hp : hub.catalog.scopes.get? parent = some p)
    (free : p.members.get? name = none) : ∃ hub',
      EStateM.run (commit (Change.declareScope parent name kind)) hub =
        .ok ⟨hub.catalog.scopes.size⟩ hub' ∧
      hub'.catalog = { hub.catalog with
        scopes := (hub.catalog.scopes.push parent p.qualified name kind).2 } := by
  have hdeclare : hub.catalog.scopes.declare parent name kind =
      .ok (.created ⟨hub.catalog.scopes.size⟩,
        (hub.catalog.scopes.push parent p.qualified name kind).2) := by
    simp only [ScopeTree.declare, hp, free]
    rfl
  have hrun : EStateM.run (Change.declareScope parent name kind) ⟨hub.catalog, []⟩ =
      .ok ⟨hub.catalog.scopes.size⟩
        ⟨{ hub.catalog with scopes := (hub.catalog.scopes.push parent p.qualified name kind).2 },
          [.scopeDeclared ⟨⟨hub.catalog.scopes.size⟩, name, Name.join p.qualified name, kind,
            some parent, none, 0⟩]⟩ := by
    unfold Change.declareScope
    rw [Change.run_catalog, hdeclare, run_bind (Change.run_ofExcept _ _)]
    simp only [ScopeTree.info?_push hp]
    rfl
  rw [run_commit, hrun]
  refine ⟨_, rfl, (announce_silent _ _ _ ?_).1⟩
  intro event hevent s _
  obtain rfl := List.mem_singleton.1 hevent
  rfl

theorem declareScope_of_taken (hp : hub.catalog.scopes.get? parent = some p) {m : Member}
    (taken : p.members.get? name = some m) (plain : m.scope? = none) :
    EStateM.run (commit (Change.declareScope parent name kind)) hub =
      .error (.duplicateMember (Name.display p.qualified) name) hub := by
  have hdeclare : hub.catalog.scopes.declare parent name kind =
      .error (.duplicateMember (Name.display p.qualified) name) := by
    simp only [ScopeTree.declare, hp, taken]
    cases m with
    | scope id => cases plain
    | _ => simp only [ScopeTree.display, hp]
  have hrun : EStateM.run (Change.declareScope parent name kind) ⟨hub.catalog, []⟩ =
      .error (.duplicateMember (Name.display p.qualified) name) ⟨hub.catalog, []⟩ := by
    unfold Change.declareScope
    rw [Change.run_catalog, hdeclare]
    rfl
  rw [run_commit, hrun]
  simp only
  rw [tell_nil]

end Declare

/-! ## The walk of the loader -/

/-- The walk of the loader goes on to the end of the path, or the next name blocks it. -/
theorem walk_exactly (c : Catalog) (hub : Hub) (wf : hub.catalog.WellFormed)
    (same : hub.catalog = { c with scopes := hub.catalog.scopes }) {current : ScopeId}
    (done rest : List String) (components : ∀ x ∈ done ++ rest, Name.IsComponent x)
    (walked : c.scopes.Walked done hub.catalog.scopes current) :
    After (walk current (Name.path done) rest) hub
      (fun id hub' => hub'.catalog.WellFormed ∧
        hub'.catalog = { c with scopes := hub'.catalog.scopes } ∧
        c.scopes.Walked (done ++ rest) hub'.catalog.scopes id)
      (fun fault _ => ∃ before name, before ++ [name] <+: done ++ rest ∧
        c.scopes.Blocks before name ∧
          fault = .duplicateMember (Name.display (Name.path before)) name) := by
  induction rest generalizing hub current done with
  | nil =>
    rw [List.append_nil]
    exact after_pure current ⟨wf, same, walked⟩
  | cons name rest ih =>
    have hsplit : done ++ name :: rest = done ++ [name] ++ rest := by simp
    rw [hsplit] at components ⊢
    have hnext := (List.forall_mem_append.1 components).1
    have hdone := (List.forall_mem_append.1 hnext).1
    have hjoin : Name.join (Name.path done) name = Name.path (done ++ [name]) :=
      Name.join_path hdone name
    unfold walk
    refine after_catalogNow ?_
    simp only [hjoin]
    cases hknown : hub.catalog.scopes.byName? (Name.path (done ++ [name])) with
    | some id => exact ih hub wf same _ components (walked.known hnext hknown)
    | none =>
      obtain ⟨p, hp, -⟩ := wf.scopes.named walked.current
      have hq := ScopeTree.qualified_of_path wf.scopes hdone walked.current hp
      cases hmember : p.members.get? name with
      | none =>
        obtain ⟨hub', hrun, hcatalog⟩ := declareScope_of_free .namespace hp hmember
        refine after_bind (after_of_run hrun (ih hub' ?_ ?_ _ components ?_))
        · have hgrows : hub.catalog.GrowsTo (fun _ => True) hub'.catalog := by
            rw [hcatalog]
            exact ⟨_, .single (.scope hub.catalog .namespace hp hmember trivial)⟩
          exact hgrows.wellFormed wf
        · rw [hcatalog, same]
        · rw [hcatalog]
          exact walked.declared wf.scopes hnext hknown hp hmember
      | some m =>
        obtain ⟨hblocks, plain⟩ := walked.blocked wf.scopes hnext hknown hp hmember
        refine after_bind (after_of_error (declareScope_of_taken .namespace hp hmember plain) ?_)
        exact ⟨done, name, List.prefix_append _ _, hblocks, by rw [hq]⟩

/-- A path has come to lead to the scope of its name. For that the namespaces that were missing have
been declared, and nothing else has changed. -/
structure LeadsTo (hub : Hub) (cs : List String) (id : ScopeId) (hub' : Hub) : Prop where
  found : hub'.catalog.scopes.byName? (Name.path cs) = some id
  named : ∃ s, hub'.catalog.scopes.get? id = some s ∧ s.qualified = Name.path cs
  scopes : hub.catalog.scopes.Gains (hub.catalog.scopes.missing cs) hub'.catalog.scopes
  others : hub'.catalog = { hub.catalog with scopes := hub'.catalog.scopes }

/-- The loader makes a path lead to a scope unless one of its names bars the way. -/
structure EnsuresExactly (hub : Hub) (cs : List String) : Prop where
  made : ∀ {id hub'}, EStateM.run (ensureNamespace (Name.path cs)) hub = .ok id hub' →
    hub.LeadsTo cs id hub'
  fails : (∃ fault hub', EStateM.run (ensureNamespace (Name.path cs)) hub = .error fault hub') ↔
    hub.catalog.scopes.Lacks cs ∧
      ∃ before name, before ++ [name] <+: cs ∧ hub.catalog.scopes.Blocks before name
  fault : ∀ {fault hub'}, EStateM.run (ensureNamespace (Name.path cs)) hub = .error fault hub' →
    ∃ before name, before ++ [name] <+: cs ∧ hub.catalog.scopes.Blocks before name ∧
      fault = .duplicateMember (Name.display (Name.path before)) name

section Ensure

variable {hub : Hub} {cs : List String}

theorem ensuresExactly_of_has (wf : hub.catalog.WellFormed)
    (components : ∀ c ∈ cs, Name.IsComponent c) {id : ScopeId}
    (found : hub.catalog.scopes.byName? (Name.path cs) = some id) : hub.EnsuresExactly cs := by
  have hlacks : ¬hub.catalog.scopes.Lacks cs := by
    rw [ScopeTree.Lacks, found]
    exact Option.some_ne_none id
  have hrun : EStateM.run (ensureNamespace (Name.path cs)) hub = .ok id hub :=
    ensureNamespace_again ((congrArg _ (Name.stripRoot_path components)).trans found)
  constructor
  case made =>
    intro id' hub' hok
    obtain ⟨rfl, rfl⟩ := EStateM.Result.ok.inj (hrun.symm.trans hok)
    obtain ⟨s, hs, -⟩ := wf.scopes.named found
    refine ⟨found, ⟨s, hs, ScopeTree.qualified_of_path wf.scopes components found hs⟩, ?_, rfl⟩
    rw [ScopeTree.missing, if_neg hlacks]
    exact .refl _
  case fails =>
    refine ⟨?_, fun h => absurd h.1 hlacks⟩
    rintro ⟨fault, hub', hfail⟩
    cases hrun.symm.trans hfail
  case fault =>
    intro fault hub' hfail
    cases hrun.symm.trans hfail

theorem ensuresExactly_of_lacks (wf : hub.catalog.WellFormed)
    (components : ∀ c ∈ cs, Name.IsComponent c) (lacks : hub.catalog.scopes.Lacks cs) :
    hub.EnsuresExactly cs := by
  have hstrip := Name.stripRoot_path components
  have hrun := ensureNamespace_of_unknown wf ((congrArg _ hstrip).trans lacks)
  rw [hstrip, Name.parts_path components] at hrun
  have spec := walk_exactly hub.catalog hub wf rfl [] cs components (.start wf.scopes)
  rw [Name.path_nil, ← after_congr hrun, List.nil_append] at spec
  constructor
  case made =>
    intro id hub' hok
    obtain ⟨wf', others, walked⟩ := spec.at_ok hok
    obtain ⟨s, hs, -⟩ := wf'.scopes.named walked.current
    have hq := ScopeTree.qualified_of_path wf'.scopes components walked.current hs
    refine ⟨walked.current, ⟨s, hs, hq⟩, ?_, others⟩
    rw [ScopeTree.missing, if_pos lacks]
    exact walked.gains
  case fails =>
    constructor
    · rintro ⟨fault, hub', hfail⟩
      obtain ⟨before, name, hwithin, hblocks, -⟩ := spec.at_error hfail
      exact ⟨lacks, before, name, hwithin, hblocks⟩
    · rintro ⟨-, before, name, hwithin, hblocks⟩
      cases hend : EStateM.run (ensureNamespace (Name.path cs)) hub with
      | ok id hub' => exact absurd hblocks ((spec.at_ok hend).2.2.clear hwithin)
      | error fault hub' => exact ⟨fault, hub', rfl⟩
  case fault =>
    intro fault hub' hfail
    exact spec.at_error hfail

end Ensure

theorem namespaces_made_exactly {hub : Hub} (reach : hub.Reachable) {cs : List String}
    (components : ∀ c ∈ cs, Name.IsComponent c) : hub.EnsuresExactly cs := by
  have wf := reach.wellFormed
  cases hfound : hub.catalog.scopes.byName? (Name.path cs) with
  | some id => exact ensuresExactly_of_has wf components hfound
  | none => exact ensuresExactly_of_lacks wf components hfound

/-- A scope with `::` in its own name lies on the way of a path, and a type bars another path. -/
def odd : Hub :=
  (ofSettings Settings.default.catalog).run
    [.buildFundamental "int" 4, .declareScope .global "a" .namespace,
      .declareScope .global "a::b::c" .class]

theorem odd_ensures_exactly :
    odd.Reachable ∧ (∀ c ∈ ["a", "b", "c", "d"], Name.IsComponent c) ∧
      odd.catalog.scopes.missing ["a", "b", "c", "d"] = [["a", "b"], ["a", "b", "c", "d"]] ∧
      odd.EnsuresExactly ["a", "b", "c", "d"] ∧
      odd.catalog.scopes.Blocks [] "int" ∧ odd.EnsuresExactly ["int", "x"] := by
  have reach : odd.Reachable := ⟨_, _, rfl⟩
  have blocks : odd.catalog.scopes.Blocks [] "int" :=
    ⟨by decide +kernel, .global, .type ⟨0⟩, by decide +kernel, by decide +kernel, rfl⟩
  exact ⟨reach, by decide, by decide +kernel, namespaces_made_exactly reach (by decide), blocks,
    namespaces_made_exactly reach (by decide)⟩

end Hub

end TypeCatalog
