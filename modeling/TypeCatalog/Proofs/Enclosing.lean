import TypeCatalog.Proofs.Edits
import TypeCatalog.Proofs.Ownership

/-!
# The nearest binding

A plain name stands for what the nearest scope binds it to, from the scope where the search starts
outward to the global one. Nothing that happens elsewhere, or to other names, changes that.
-/

namespace TypeCatalog

namespace ScopeTree

/-- The search from parent to parent, however far it goes. -/
inductive Searched (t : ScopeTree) (name : String) : Option ScopeId → Option Member → Prop
  | outside : Searched t name none none
  | unknown {id : ScopeId} (missing : t.get? id = none) : Searched t name (some id) none
  | found {id : ScopeId} {s : Scope} {m : Member} (scope : t.get? id = some s)
      (bound : s.members.get? name = some m) : Searched t name (some id) (some m)
  | outward {id : ScopeId} {s : Scope} {r : Option Member} (scope : t.get? id = some s)
      (unbound : s.members.get? name = none) (rest : Searched t name s.parent r) :
    Searched t name (some id) r

/-- The scope that is so many steps outward. -/
def outward? (t : ScopeTree) : ScopeId → Nat → Option ScopeId
  | id, 0 => some id
  | id, n + 1 => ((t.get? id).bind (·.parent)).bind fun p => t.outward? p n

/-- The scope is on the way from `start` outward. -/
def Encloses (t : ScopeTree) (id start : ScopeId) : Prop := ∃ n, t.outward? start n = some id

theorem outward?_succ {t : ScopeTree} {id : ScopeId} {s : Scope} (hs : t.get? id = some s)
    (n : Nat) : t.outward? id (n + 1) = s.parent.bind fun p => t.outward? p n := by
  rw [outward?, hs, Option.bind_some]

theorem Encloses.outward {t : ScopeTree} {id p start : ScopeId} {s : Scope}
    (hs : t.get? start = some s) (parent : s.parent = some p) (h : t.Encloses id p) :
    t.Encloses id start := by
  obtain ⟨n, hn⟩ := h
  exact ⟨n + 1, by rw [outward?_succ hs, parent, Option.bind_some, hn]⟩

namespace WellFormed

variable {t : ScopeTree} (wf : t.WellFormed)

include wf

theorem parent_found {id p : ScopeId} {s : Scope} (hs : t.get? id = some s)
    (parent : s.parent = some p) : ∃ ps, t.get? p = some ps ∧ p.index < id.index := by
  have hid : id ≠ .global := fun hglobal => by
    rw [(wf.orphan_iff hs).2 hglobal] at parent
    cases parent
  obtain ⟨p', ps, ho⟩ := wf.owned hs hid
  obtain rfl : p' = p := Option.some.inj (ho.parent.symm.trans parent)
  exact ⟨ps, ho.found, ho.before⟩

theorem resolve?_step {id : ScopeId} {s : Scope} (hs : t.get? id = some s) (name : String) :
    t.resolve? id name =
      (s.members.get? name).or (s.parent.bind fun p => t.resolve? p name) := by
  have houter : t.enclosing id = id :: s.parent.elim [] t.enclosing := by
    rw [enclosing, hs]
    cases hparent : s.parent with
    | none => simp only [hparent, Option.elim]
    | some p =>
      obtain ⟨ps, -, hbefore⟩ := wf.parent_found hs hparent
      simp only [hparent, if_pos hbefore, Option.elim]
  rw [resolve?, houter, List.findSome?_cons, member?_of_get? hs]
  cases s.members.get? name with
  | some m => rfl
  | none => cases s.parent <;> rfl

theorem resolve?_of_bound {id : ScopeId} {s : Scope} {name : String} {m : Member}
    (hs : t.get? id = some s) (bound : s.members.get? name = some m) :
    t.resolve? id name = some m := by
  rw [wf.resolve?_step hs, bound, Option.some_or]

theorem resolve?_of_unbound {id : ScopeId} {s : Scope} {name : String} (hs : t.get? id = some s)
    (unbound : s.members.get? name = none) :
    t.resolve? id name = s.parent.bind fun p => t.resolve? p name := by
  rw [wf.resolve?_step hs, unbound, Option.none_or]

omit wf in
theorem resolve?_of_unknown {id : ScopeId} (missing : t.get? id = none) (name : String) :
    t.resolve? id name = none := by
  rw [resolve?, enclosing, missing]
  rfl

theorem outward_induction {P : ScopeId → Prop}
    (step : ∀ {id s}, t.get? id = some s → (∀ p, s.parent = some p → P p) → P id)
    {id : ScopeId} {s : Scope} (hs : t.get? id = some s) : P id := by
  have hrooted := wf.rooted id hs
  induction hrooted generalizing s with
  | global =>
    refine step hs fun p hp => ?_
    rw [(wf.orphan_iff hs).2 rfl] at hp
    cases hp
  | @child id p s₀ found parent _ ih =>
    obtain ⟨ps, hps, -⟩ := wf.parent_found found parent
    refine step found fun p' hp' => ?_
    obtain rfl : p = p' := Option.some.inj (parent.symm.trans hp')
    exact ih hps

/-! ## The search ends -/

theorem searched_resolve? (id : ScopeId) (name : String) :
    t.Searched name (some id) (t.resolve? id name) := by
  cases hs : t.get? id with
  | none =>
    rw [resolve?_of_unknown hs]
    exact .unknown hs
  | some s =>
    refine wf.outward_induction (P := fun id => t.Searched name (some id) (t.resolve? id name))
      ?_ hs
    intro id s hs ih
    cases hm : s.members.get? name with
    | some m =>
      rw [wf.resolve?_of_bound hs hm]
      exact .found hs hm
    | none =>
      rw [wf.resolve?_of_unbound hs hm]
      refine .outward hs hm ?_
      cases hp : s.parent with
      | none => exact .outside
      | some p => exact ih p hp

theorem searched_unique {name : String} {from? : Option ScopeId} {r : Option Member}
    (h : t.Searched name from? r) : r = from?.bind fun id => t.resolve? id name := by
  induction h with
  | outside => rfl
  | unknown missing => rw [Option.bind_some, resolve?_of_unknown missing]
  | found scope bound => rw [Option.bind_some, wf.resolve?_of_bound scope bound]
  | outward scope unbound _ ih => rw [Option.bind_some, wf.resolve?_of_unbound scope unbound, ih]

theorem reaches_global {id : ScopeId} {s : Scope} (hs : t.get? id = some s) :
    ∃ n, t.outward? id n = some .global ∧ t.outward? id (n + 1) = none := by
  refine wf.outward_induction
    (P := fun id => ∃ n, t.outward? id n = some .global ∧ t.outward? id (n + 1) = none) ?_ hs
  intro id s hs ih
  cases hp : s.parent with
  | none =>
    obtain rfl := (wf.orphan_iff hs).1 hp
    exact ⟨0, rfl, by rw [outward?_succ hs, hp]; rfl⟩
  | some p =>
    obtain ⟨n, hglobal, hend⟩ := ih p hp
    exact ⟨n + 1, by rw [outward?_succ hs, hp]; exact hglobal,
      by rw [outward?_succ hs, hp]; exact hend⟩

end WellFormed

/-! ## What is found -/

/-- So many steps outward from `start` a scope binds `name` to `m`, and no nearer one binds it. -/
structure NearestAt (t : ScopeTree) (start : ScopeId) (name : String) (m : Member) (n : Nat) :
    Prop where
  bound : ∃ id, t.outward? start n = some id ∧ t.member? id name = some m
  nearest : ∀ k < n, ∀ id, t.outward? start k = some id → t.member? id name = none

section Nearest

variable {t : ScopeTree} {start p : ScopeId} {s : Scope} {name : String} {m : Member} {n : Nat}

theorem nearestAt_zero_iff (hs : t.get? start = some s) :
    t.NearestAt start name m 0 ↔ s.members.get? name = some m := by
  rw [← member?_of_get? hs]
  constructor
  · rintro ⟨⟨id, hid, hm⟩, -⟩
    obtain rfl : start = id := Option.some.inj hid
    exact hm
  · exact fun hm => ⟨⟨start, rfl, hm⟩, fun k hk => absurd hk (Nat.not_lt_zero k)⟩

theorem nearestAt_succ_iff (hs : t.get? start = some s) :
    t.NearestAt start name m (n + 1) ↔
      s.members.get? name = none ∧ ∃ p, s.parent = some p ∧ t.NearestAt p name m n := by
  rw [← member?_of_get? hs]
  constructor
  · rintro ⟨⟨id, hid, hm⟩, hnearest⟩
    rw [outward?_succ hs] at hid
    obtain ⟨p, hp, hid⟩ := Option.bind_eq_some_iff.1 hid
    refine ⟨hnearest 0 (Nat.succ_pos n) start rfl, p, hp, ⟨id, hid, hm⟩, fun k hk id' hid' => ?_⟩
    refine hnearest (k + 1) (Nat.succ_lt_succ hk) id' ?_
    rw [outward?_succ hs, hp, Option.bind_some, hid']
  · rintro ⟨hfree, p, hp, ⟨id, hid, hm⟩, hnearest⟩
    have houtward : ∀ k, t.outward? start (k + 1) = t.outward? p k := fun k => by
      rw [outward?_succ hs, hp, Option.bind_some]
    refine ⟨⟨id, (houtward n).trans hid, hm⟩, fun k hk id' hid' => ?_⟩
    cases k with
    | zero =>
      obtain rfl : start = id' := Option.some.inj hid'
      exact hfree
    | succ k => exact hnearest k (Nat.lt_of_succ_lt_succ hk) id' ((houtward k).symm.trans hid')

theorem WellFormed.resolve?_eq_some_iff (wf : t.WellFormed) (hs : t.get? start = some s) :
    t.resolve? start name = some m ↔ ∃ n, t.NearestAt start name m n := by
  refine wf.outward_induction
    (P := fun id => t.resolve? id name = some m ↔ ∃ n, t.NearestAt id name m n) ?_ hs
  intro id s hs ih
  cases hm : s.members.get? name with
  | some m' =>
    rw [wf.resolve?_of_bound hs hm]
    constructor
    · rintro ⟨⟩
      exact ⟨0, (nearestAt_zero_iff hs).2 hm⟩
    · rintro ⟨n, hn⟩
      cases n with
      | zero => exact hm.symm.trans ((nearestAt_zero_iff hs).1 hn)
      | succ n =>
        have hfree := ((nearestAt_succ_iff hs).1 hn).1
        rw [hm] at hfree
        cases hfree
  | none =>
    rw [wf.resolve?_of_unbound hs hm]
    constructor
    · intro hfound
      obtain ⟨p, hp, hfound⟩ := Option.bind_eq_some_iff.1 hfound
      obtain ⟨n, hn⟩ := (ih p hp).1 hfound
      exact ⟨n + 1, (nearestAt_succ_iff hs).2 ⟨hm, p, hp, hn⟩⟩
    · rintro ⟨n, hn⟩
      cases n with
      | zero =>
        have hbound := (nearestAt_zero_iff hs).1 hn
        rw [hm] at hbound
        cases hbound
      | succ n =>
        obtain ⟨-, p, hp, hn⟩ := (nearestAt_succ_iff hs).1 hn
        rw [hp, Option.bind_some]
        exact (ih p hp).2 ⟨n, hn⟩

end Nearest

/-! ## What is not asked -/

/-- Only what the scopes on the way bind under the name matters. -/
theorem WellFormed.resolve?_congr {t t' : ScopeTree} (wf : t.WellFormed) (wf' : t'.WellFormed)
    (hext : t.Extends t') {start : ScopeId} {s : Scope} (hs : t.get? start = some s)
    {name : String}
    (same : ∀ id, t.Encloses id start → t'.member? id name = t.member? id name) :
    t'.resolve? start name = t.resolve? start name := by
  refine wf.outward_induction (P := fun start =>
    (∀ id, t.Encloses id start → t'.member? id name = t.member? id name) →
      t'.resolve? start name = t.resolve? start name) ?_ hs same
  intro start s hs ih same
  obtain ⟨s', hs', he⟩ := hext.scope hs
  have hhere : s'.members.get? name = s.members.get? name := by
    rw [← member?_of_get? hs, ← member?_of_get? hs']
    exact same start ⟨0, rfl⟩
  rw [wf.resolve?_step hs, wf'.resolve?_step hs', hhere, he.parent]
  cases hp : s.parent with
  | none => rfl
  | some p =>
    rw [Option.bind_some, Option.bind_some,
      ih p hp fun id hid => same id (hid.outward hs hp)]

end ScopeTree

namespace Hub

/-- The operation gives the scope a binding of this name. -/
structure Introduces (hub : Hub) (op : Operation) (id : ScopeId) (name : String) : Prop where
  free : hub.catalog.scopes.member? id name = none
  bound : ((hub.execute op).2.catalog.scopes.member? id name).isSome

theorem member?_of_not_introduces {hub : Hub} (wf : hub.catalog.WellFormed) {op : Operation}
    {id : ScopeId} {name : String} (h : ¬hub.Introduces op id name) :
    (hub.execute op).2.catalog.scopes.member? id name = hub.catalog.scopes.member? id name := by
  cases hold : hub.catalog.scopes.member? id name with
  | some m => exact (execute_extends hub wf op).scopes.member? hold
  | none =>
    rw [Option.eq_none_iff_forall_ne_some]
    intro m hm
    exact h ⟨hold, by rw [hm]; rfl⟩

theorem Introduces.place {hub : Hub} (wf : hub.catalog.WellFormed) {op : Operation}
    (single : op.IsSingle) {id : ScopeId} {name : String} (h : hub.Introduces op id name) :
    op.place? = some (id, name) := by
  obtain ⟨m, hm⟩ := Option.isSome_iff_exists.1 h.bound
  obtain ⟨_, hedits⟩ := execute_edits wf single
  rcases hedits.binds id name m hm with hold | hplace
  · rw [h.free] at hold
    cases hold
  · exact hplace

/-- What a name stands for, from a scope outward. -/
structure FindsNearest (hub : Hub) (start : ScopeId) (name : String) : Prop where
  /-- The search from parent to parent ends, and with no other answer. -/
  ends : ∀ r, hub.catalog.scopes.Searched name (some start) r ↔
    r = hub.catalog.scopes.resolve? start name
  /-- From a scope the way leads to the global one. -/
  reaches : hub.catalog.scopes.contains start → ∃ n,
    hub.catalog.scopes.outward? start n = some .global ∧
      hub.catalog.scopes.outward? start (n + 1) = none
  /-- The nearest binding on the way is found. -/
  nearest : ∀ m, hub.catalog.scopes.resolve? start name = some m ↔
    hub.catalog.scopes.contains start ∧ ∃ n, hub.catalog.scopes.NearestAt start name m n
  /-- An operation that binds nothing on the way, or only other names there, has no say in it. -/
  unmoved : hub.catalog.scopes.contains start → ∀ op,
    (∀ id n, hub.Introduces op id n → ¬hub.catalog.scopes.Encloses id start ∨ n ≠ name) →
      (hub.execute op).2.catalog.scopes.resolve? start name =
        hub.catalog.scopes.resolve? start name
  /-- A single operation binds no name but the one that it was asked to bind, and where it was. -/
  asked : ∀ op : Operation, op.IsSingle → ∀ id n, hub.Introduces op id n →
    op.place? = some (id, n)

theorem nearest_is_found (settings : CatalogSettings) (ops : List Operation) (start : ScopeId)
    (name : String) : ((ofSettings settings).run ops).FindsNearest start name := by
  have wf := run_wellFormed (ofSettings settings) (Catalog.empty_wellFormed settings) ops
  generalize (ofSettings settings).run ops = hub at wf
  have known : ∀ {id}, hub.catalog.scopes.contains id →
      ∃ s, hub.catalog.scopes.get? id = some s := Option.isSome_iff_exists.1
  refine ⟨fun r => ⟨wf.scopes.searched_unique, ?_⟩, ?_, fun m => ⟨?_, ?_⟩, ?_, ?_⟩
  · rintro rfl
    exact wf.scopes.searched_resolve? start name
  · intro hstart
    obtain ⟨s, hs⟩ := known hstart
    exact wf.scopes.reaches_global hs
  · intro hfound
    cases hs : hub.catalog.scopes.get? start with
    | none =>
      rw [ScopeTree.WellFormed.resolve?_of_unknown hs] at hfound
      cases hfound
    | some s =>
      exact ⟨by rw [ScopeTree.contains, hs]; rfl, (wf.scopes.resolve?_eq_some_iff hs).1 hfound⟩
  · rintro ⟨hstart, hnearest⟩
    obtain ⟨s, hs⟩ := known hstart
    exact (wf.scopes.resolve?_eq_some_iff hs).2 hnearest
  · intro hstart op helsewhere
    obtain ⟨s, hs⟩ := known hstart
    refine wf.scopes.resolve?_congr (execute_wellFormed hub wf op).scopes
      (execute_extends hub wf op).scopes hs fun id hid => ?_
    refine member?_of_not_introduces wf fun hnew => ?_
    rcases helsewhere id name hnew with haway | hother
    · exact haway hid
    · exact hother rfl
  · exact fun op single id n hnew => hnew.place wf single

end Hub

end TypeCatalog
