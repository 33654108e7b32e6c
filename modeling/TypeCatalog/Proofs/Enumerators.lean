import TypeCatalog.Proofs.CanonicalEnums

/-!
# The list of enumerators

The enumerators of an enum are bindings of its scope among others, and other operations than the one
that adds them may bind there as well. All the same they are a list that only grows at its end: a
single operation adds one enumerator at most, and whatever happens comes down to single operations.
-/

namespace TypeCatalog

namespace Catalog

variable {c c' : Catalog} {en : Enumeration}

/-- The enumerator that a binding stands for, if it belongs to the type. -/
def enumeratorOf? (owner : Handle) : String × Member → Option Enumerator
  | (name, .enumerator owner' value) => if owner' = owner then some ⟨name, value⟩ else none
  | _ => none

theorem enumeratorOf?_eq_some_iff {owner : Handle} {name : String} {m : Member}
    {new : Enumerator} : enumeratorOf? owner (name, m) = some new ↔
      name = new.name ∧ m = .enumerator owner new.value := by
  cases m with
  | enumerator owner' value =>
    simp only [enumeratorOf?, Option.ite_none_right_eq_some, Option.some.injEq,
      Member.enumerator.injEq]
    constructor
    · rintro ⟨rfl, rfl⟩
      exact ⟨rfl, rfl, rfl⟩
    · rintro ⟨rfl, rfl, rfl⟩
      exact ⟨rfl, rfl⟩
  | type h | scope id | function h mods | dataMember h o mods => simp [enumeratorOf?]

theorem enumerators_of_get? {s : Scope} (hs : c.scopes.get? en.scope = some s) :
    c.enumerators en = s.members.entries.filterMap (enumeratorOf? en.type.handle) := by
  unfold enumerators ScopeTree.members?
  rw [hs]
  refine List.filterMap_congr ?_
  rintro ⟨name, m⟩ -
  cases m <;> rfl

theorem enumerators_of_unknown (hs : c.scopes.get? en.scope = none) : c.enumerators en = [] := by
  unfold enumerators ScopeTree.members?
  rw [hs]
  rfl

theorem enumerators_nodup (wf : c.WellFormed) (en : Enumeration) :
    ((c.enumerators en).map Enumerator.name).Nodup := by
  cases hs : c.scopes.get? en.scope with
  | none =>
    rw [enumerators_of_unknown hs]
    exact List.nodup_nil
  | some s =>
    have distinct : s.members.entries.Pairwise (·.1 ≠ ·.1) :=
      List.pairwise_map.1 (wf.scopes.distinct hs)
    rw [enumerators_of_get? hs]
    refine List.pairwise_map.2 (List.pairwise_filterMap.2 (distinct.imp ?_))
    rintro ⟨name, m⟩ ⟨name', m'⟩ hne new hnew new' hnew'
    obtain ⟨rfl, -⟩ := enumeratorOf?_eq_some_iff.1 hnew
    obtain ⟨rfl, -⟩ := enumeratorOf?_eq_some_iff.1 hnew'
    exact hne

theorem enumerators_of_extends (wf' : c'.WellFormed) (hext : c.Extends c') (en : Enumeration) :
    ∃ more, c'.enumerators en = c.enumerators en ++ more ∧
      ∀ new ∈ more, c.scopes.member? en.scope new.name = none := by
  cases hs : c.scopes.get? en.scope with
  | none =>
    refine ⟨c'.enumerators en, by rw [enumerators_of_unknown hs, List.nil_append], fun _ _ => ?_⟩
    rw [ScopeTree.member?, hs]
    rfl
  | some s =>
    obtain ⟨s', hs', hscope⟩ := hext.scopes.scope hs
    obtain ⟨rest, hrest⟩ := hscope.members
    refine ⟨rest.filterMap (enumeratorOf? en.type.handle), ?_, ?_⟩
    · rw [enumerators_of_get? hs, enumerators_of_get? hs', ← hrest, List.filterMap_append]
    · intro new hnew
      obtain ⟨⟨name, m⟩, hbinding, hof⟩ := List.mem_filterMap.1 hnew
      obtain ⟨rfl, -⟩ := enumeratorOf?_eq_some_iff.1 hof
      have distinct := wf'.scopes.distinct hs'
      rw [Table.keys, ← hrest, List.map_append, List.nodup_append] at distinct
      rw [ScopeTree.member?_of_get? hs]
      by_contra hbound
      obtain ⟨m', hm'⟩ := Option.ne_none_iff_exists'.1 hbound
      have hkey := List.mem_map_of_mem (f := Prod.fst) (Table.mem_entries_of_get? hm')
      exact distinct.2.2 _ hkey _ (List.mem_map_of_mem (f := Prod.fst) hbinding) rfl

end Catalog

theorem Operation.Adds.isSingle {allowed : String → Prop} {op : Operation}
    (h : op.Adds allowed) : op.IsSingle := by
  cases op with
  | setHidden handle hidden | registerBuiltins | apply d | load d | subscribe selection echo
  | unsubscribe id => exact h.elim
  | _ => trivial

namespace Hub

/-! ## One after the other -/

/-- Enumerators of an enum come in one after the other: each is bound by one single operation that
found its name free. The operations between them bring none. -/
inductive Enlists (en : Enumeration) (hub : Hub) : List Enumerator → Hub → Prop
  | nil : Enlists en hub [] hub
  | bound {mid : Hub} {added : List Enumerator} {new : Enumerator} {op : Operation}
      (earlier : Enlists en hub added mid) (single : op.IsSingle)
      (free : mid.catalog.scopes.member? en.scope new.name = none)
      (now : (mid.execute op).2.catalog.scopes.member? en.scope new.name =
        some (.enumerator en.type.handle new.value)) :
      Enlists en hub (added ++ [new]) (mid.execute op).2
  | other {mid : Hub} {added : List Enumerator} {op : Operation}
      (earlier : Enlists en hub added mid)
      (old : ∀ {name value}, (mid.execute op).2.catalog.scopes.member? en.scope name =
        some (.enumerator en.type.handle value) →
          mid.catalog.scopes.member? en.scope name = some (.enumerator en.type.handle value)) :
      Enlists en hub added (mid.execute op).2

section Steps

variable {hub mid hub' : Hub} {en : Enumeration} {op : Operation} {added more : List Enumerator}

theorem place_of_bound (wf : hub.catalog.WellFormed) (single : op.IsSingle) {id : ScopeId}
    {name : String} {m : Member} (free : hub.catalog.scopes.member? id name = none)
    (now : (hub.execute op).2.catalog.scopes.member? id name = some m) :
    op.place? = some (id, name) := by
  obtain ⟨_, hedits⟩ := execute_edits wf single
  refine (hedits.binds _ _ _ now).resolve_left ?_
  rw [free]
  exact Option.some_ne_none m ∘ Eq.symm

/-- A single operation brings at most one enumerator, since it binds one name at most. -/
theorem enumerators_of_bound (wf : hub.catalog.WellFormed) (single : op.IsSingle)
    {new : Enumerator} (free : hub.catalog.scopes.member? en.scope new.name = none)
    (now : (hub.execute op).2.catalog.scopes.member? en.scope new.name =
      some (.enumerator en.type.handle new.value)) :
    (hub.execute op).2.catalog.enumerators en = hub.catalog.enumerators en ++ [new] := by
  have wf' := execute_wellFormed hub wf op
  obtain ⟨more, hmore, hfree⟩ :=
    Catalog.enumerators_of_extends wf' (execute_extends hub wf op) en
  have hnew : new ∈ more := by
    have hlisted := (Catalog.mem_enumerators wf').2 now
    rw [hmore] at hlisted
    refine (List.mem_append.1 hlisted).resolve_left fun hold => ?_
    rw [(Catalog.mem_enumerators wf).1 hold] at free
    cases free
  have hsame : ∀ new' ∈ more, new'.name = new.name := by
    intro new' hnew'
    have hlisted : new' ∈ (hub.execute op).2.catalog.enumerators en := by
      rw [hmore]
      exact List.mem_append_right _ hnew'
    have hplace := place_of_bound wf single (hfree new' hnew')
      ((Catalog.mem_enumerators wf').1 hlisted)
    rw [place_of_bound wf single free now] at hplace
    exact (Prod.mk.inj (Option.some.inj hplace)).2.symm
  have distinct : (more.map Enumerator.name).Nodup := by
    have hall := Catalog.enumerators_nodup wf' en
    rw [hmore, List.map_append] at hall
    exact hall.of_append_right
  have hone := Table.filter_key Enumerator.name distinct hnew
  rw [List.filter_eq_self.2 fun new' hnew' => decide_eq_true (hsame new' hnew')] at hone
  rw [hmore, hone]

theorem enumerators_of_other (wf : hub.catalog.WellFormed)
    (old : ∀ {name value}, (hub.execute op).2.catalog.scopes.member? en.scope name =
      some (.enumerator en.type.handle value) →
        hub.catalog.scopes.member? en.scope name = some (.enumerator en.type.handle value)) :
    (hub.execute op).2.catalog.enumerators en = hub.catalog.enumerators en := by
  have wf' := execute_wellFormed hub wf op
  obtain ⟨more, hmore, hfree⟩ :=
    Catalog.enumerators_of_extends wf' (execute_extends hub wf op) en
  have hnone : more = [] := by
    refine List.eq_nil_iff_forall_not_mem.2 fun new hnew => ?_
    have hlisted : new ∈ (hub.execute op).2.catalog.enumerators en := by
      rw [hmore]
      exact List.mem_append_right _ hnew
    have hold := old ((Catalog.mem_enumerators wf').1 hlisted)
    rw [hfree new hnew] at hold
    cases hold
  rw [hmore, hnone, List.append_nil]

theorem Enlists.trans (h : Enlists en hub added mid) (h' : Enlists en mid more hub') :
    Enlists en hub (added ++ more) hub' := by
  induction h' with
  | nil => rwa [List.append_nil]
  | bound _ single free now ih =>
    rw [← List.append_assoc]
    exact .bound ih single free now
  | other _ old ih => exact .other ih old

theorem Enlists.enumerators (h : Enlists en hub added hub') (wf : hub.catalog.WellFormed) :
    hub'.catalog.WellFormed ∧
      hub'.catalog.enumerators en = hub.catalog.enumerators en ++ added := by
  induction h with
  | nil => exact ⟨wf, (List.append_nil _).symm⟩
  | bound _ single free now ih =>
    obtain ⟨wf', hlist⟩ := ih
    refine ⟨execute_wellFormed _ wf' _, ?_⟩
    rw [enumerators_of_bound wf' single free now, hlist, List.append_assoc]
  | other _ old ih =>
    obtain ⟨wf', hlist⟩ := ih
    exact ⟨execute_wellFormed _ wf' _, (enumerators_of_other wf' old).trans hlist⟩

end Steps

/-! ## Every history -/

section Histories

variable {hub hub' : Hub} (en : Enumeration)

theorem enlists_single (wf : hub.catalog.WellFormed) {op : Operation} (single : op.IsSingle) :
    ∃ added, Enlists en hub added (hub.execute op).2 := by
  by_cases hnew : ∃ new : Enumerator, hub.catalog.scopes.member? en.scope new.name = none ∧
      (hub.execute op).2.catalog.scopes.member? en.scope new.name =
        some (.enumerator en.type.handle new.value)
  case pos =>
    obtain ⟨new, free, now⟩ := hnew
    exact ⟨_, .bound .nil single free now⟩
  case neg =>
    refine ⟨[], .other .nil fun {name value} now => ?_⟩
    cases hold : hub.catalog.scopes.member? en.scope name with
    | none => exact absurd ⟨⟨name, value⟩, hold, now⟩ hnew
    | some m => exact ((execute_extends hub wf op).scopes.member? hold).symm.trans now

theorem enlists_completes {steps : List (Operation × Result)} (h : hub.Completes steps hub')
    (wf : hub.catalog.WellFormed) (single : ∀ step ∈ steps, step.1.IsSingle) :
    ∃ added, Enlists en hub added hub' := by
  induction h with
  | nil => exact ⟨[], .nil⟩
  | @cons hub mid hub' op r steps first _ ih =>
    obtain ⟨added, hadded⟩ := enlists_single en wf (single (op, r) List.mem_cons_self)
    have wf' := execute_wellFormed hub wf op
    rw [first] at hadded wf'
    obtain ⟨more, hmore⟩ := ih wf' fun step h => single step (List.mem_cons_of_mem _ h)
    exact ⟨added ++ more, hadded.trans hmore⟩

theorem enlists_execute (wf : hub.catalog.WellFormed) (op : Operation) :
    ∃ added, Enlists en hub added (hub.execute op).2 := by
  have compound : op.Extending → ∃ added, Enlists en hub added (hub.execute op).2 := by
    intro extending
    obtain ⟨steps, hsteps, hadds⟩ := execute_advances hub wf extending
    exact enlists_completes en hsteps wf fun step h => (hadds step h).isSingle
  cases op with
  | setHidden handle hidden => exact enlists_single en wf trivial
  | subscribe selection echo | unsubscribe id => exact ⟨[], .other .nil fun now => now⟩
  | _ => exact compound trivial

theorem enlists_run (wf : hub.catalog.WellFormed) (ops : List Operation) :
    ∃ added, Enlists en hub added (hub.run ops) := by
  induction ops generalizing hub with
  | nil => exact ⟨[], .nil⟩
  | cons op rest ih =>
    obtain ⟨added, hadded⟩ := enlists_execute en wf op
    obtain ⟨more, hmore⟩ := ih (execute_wellFormed hub wf op)
    exact ⟨added ++ more, hadded.trans hmore⟩

theorem enumerators_empty (settings : CatalogSettings) :
    (Catalog.empty settings).enumerators en = [] := by
  obtain ⟨type, ⟨i⟩, underlying⟩ := en
  cases i with
  | zero => rfl
  | succ i => rfl

theorem Reachable.enlists (reach : hub.Reachable) :
    ∃ settings, Enlists en (ofSettings settings) (hub.catalog.enumerators en) hub := by
  obtain ⟨settings, ops, rfl⟩ := reach
  have wf : (ofSettings settings).catalog.WellFormed := Catalog.empty_wellFormed settings
  have start : (ofSettings settings).catalog.enumerators en = [] := enumerators_empty en settings
  obtain ⟨added, hadded⟩ := enlists_run en wf ops
  have hlist := (hadded.enumerators wf).2
  rw [start, List.nil_append] at hlist
  rw [hlist]
  exact ⟨settings, hadded⟩

end Histories

/-! ## Adding an enumerator -/

/-- The enum was answered by the operation that has just built it, or is the one of its handle. -/
inductive Answers : Hub → Enumeration → Prop
  | built {hub hub' : Hub} {en : Enumeration} (reach : hub.Reachable) (r : EnumRequest)
      (answer : hub.execute r.operation = (.ok (.enumeration en), hub')) : Answers hub' en
  | found {hub : Hub} {en : Enumeration} {h : Handle} (reach : hub.Reachable)
      (found : hub.catalog.enumeration? h = some en) : Answers hub en

end Hub

/-- The type of the enum is registered, and its scope is declared. -/
structure Catalog.Knows (c : Catalog) (en : Enumeration) : Prop where
  type : c.types.get? en.type.handle = some en.type
  scope : ∃ s, c.scopes.get? en.scope = some s

theorem Catalog.Knows.mono {c c' : Catalog} {en : Enumeration} (h : c.Knows en)
    (hext : c.Extends c') : c'.Knows en where
  type := hext.types.get? h.type
  scope := by
    obtain ⟨s, hs⟩ := h.scope
    obtain ⟨s', hs', -⟩ := hext.scopes.scope hs
    exact ⟨s', hs'⟩

namespace Hub

variable {hub hub' : Hub} {en : Enumeration}

theorem Answers.reachable (h : hub.Answers en) : hub.Reachable := by
  cases h with
  | built reach r answer =>
    have hlater := reach.later [r.operation]
    rw [run, List.foldl_cons, List.foldl_nil, answer] at hlater
    exact hlater
  | found reach _ => exact reach

theorem Answers.knows (h : hub.Answers en) : hub.catalog.Knows en := by
  have wf := h.reachable.wellFormed
  cases h with
  | built reach r answer =>
    obtain ⟨-, base, en', hsame, -, hen⟩ := EnumRequest.granted_of_ok reach.wellFormed answer
    obtain rfl := Result.enumeration.inj hsame
    obtain ⟨s, hs, -⟩ := hen.owned.scope
    exact ⟨hen.owned.type.get? wf.types, s, hs⟩
  | found reach found =>
    obtain ⟨htype, -, hscope, -⟩ := Catalog.enumeration?_eq_some_iff.1 found
    obtain ⟨s, hs, -⟩ := ScopeTree.carries_iff.1 (reach.facetsIndexed.carried hscope)
    exact ⟨by rw [wf.types.handle htype, htype], s, hs⟩

section Add

variable {name : String} {value : Int64}

theorem addEnumerator_of_free (value : Int64) (known : hub.catalog.Knows en)
    (free : hub.catalog.scopes.member? en.scope name = none) :
    After (perform (.addEnumerator en name value)) hub
      (fun _ hub' => hub'.catalog.scopes.member? en.scope name =
        some (.enumerator en.type.handle value))
      (fun _ _ => False) := by
  obtain ⟨s, hs⟩ := known.scope
  have hadd := Change.addMember_succeeds (fun _ => True) ⟨hub.catalog, []⟩ hs
    ((ScopeTree.member?_of_get? hs name).symm.trans free)
    (Catalog.covers_of_get? (m := .enumerator en.type.handle value) known.type rfl) rfl
  refine after_answer (fun _ => .done) (after_commit ?_)
  unfold Change.addEnumerator
  refine Change.after_catalog ?_
  rw [free]
  refine hadd.mono ?_ fun _ _ h => h
  rintro _ d ⟨-, hm⟩
  rw [tell, announce_scopes]
  exact hm

theorem addEnumerator_of_taken {m : Member}
    (taken : hub.catalog.scopes.member? en.scope name = some m) :
    After (perform (.addEnumerator en name value)) hub (fun _ _ => False)
      (fun _ hub' => hub' = hub) := by
  refine after_answer (fun _ => .done) (after_commit ?_)
  unfold Change.addEnumerator
  refine Change.after_catalog ?_
  rw [taken]
  exact tell_nil hub

theorem addEnumerator_accepts (known : hub.catalog.Knows en) :
    (∃ answer hub', hub.execute (.addEnumerator en name value) = (.ok answer, hub')) ↔
      hub.catalog.scopes.member? en.scope name = none := by
  constructor
  · rintro ⟨answer, hub', h⟩
    cases hm : hub.catalog.scopes.member? en.scope name with
    | none => rfl
    | some m => exact ((addEnumerator_of_taken hm).at_ok (run_of_execute h)).elim
  · intro free
    rcases execute_ends (addEnumerator_of_free value known free) with
      ⟨⟨answer, hanswer⟩, -⟩ | ⟨-, hfalse⟩
    · exact ⟨answer, _, Prod.ext hanswer rfl⟩
    · exact hfalse.elim

theorem addEnumerator_appends (wf : hub.catalog.WellFormed) (known : hub.catalog.Knows en)
    {answer : Result} (h : hub.execute (.addEnumerator en name value) = (.ok answer, hub')) :
    hub'.catalog.enumerators en = hub.catalog.enumerators en ++ [⟨name, value⟩] := by
  have free := (addEnumerator_accepts known).1 ⟨answer, hub', h⟩
  have now := (addEnumerator_of_free value known free).at_ok (run_of_execute h)
  have happend : (hub.execute (.addEnumerator en name value)).2.catalog.enumerators en =
      hub.catalog.enumerators en ++ [⟨name, value⟩] := by
    have single : (Operation.addEnumerator en name value).IsSingle := trivial
    refine enumerators_of_bound wf single free ?_
    rw [h]
    exact now
  rwa [h] at happend

end Add

/-- The enumerators of an enum are a list of distinct names that only grows at its end. -/
structure ListsEnumerators (hub : Hub) (en : Enumeration) : Prop where
  listed : ∀ new, new ∈ hub.catalog.enumerators en ↔
    hub.catalog.scopes.member? en.scope new.name = some (.enumerator en.type.handle new.value)
  ordered : ∃ settings, Enlists en (ofSettings settings) (hub.catalog.enumerators en) hub
  distinct : ((hub.catalog.enumerators en).map Enumerator.name).Nodup
  accepts : ∀ name value,
    (∃ answer hub', hub.execute (.addEnumerator en name value) = (.ok answer, hub')) ↔
      hub.catalog.scopes.member? en.scope name = none
  appends : ∀ {name value answer hub'},
    hub.execute (.addEnumerator en name value) = (.ok answer, hub') →
      hub'.catalog.enumerators en = hub.catalog.enumerators en ++ [⟨name, value⟩]
  stays : ∀ ops, hub.catalog.enumerators en <+: (hub.run ops).catalog.enumerators en

theorem enumerators_only_grow (answered : hub.Answers en) (ops : List Operation) :
    (hub.run ops).ListsEnumerators en := by
  have reach := answered.reachable.later ops
  have wf := reach.wellFormed
  have known := answered.knows.mono (run_extends hub answered.reachable.wellFormed ops)
  constructor
  case listed => exact fun _ => Catalog.mem_enumerators wf
  case ordered => exact reach.enlists en
  case distinct => exact Catalog.enumerators_nodup wf en
  case accepts => exact fun _ _ => addEnumerator_accepts known
  case appends => exact fun h => addEnumerator_appends wf known h
  case stays =>
    intro more
    obtain ⟨added, hadded⟩ := enlists_run en wf more
    exact ⟨added, (hadded.enumerators wf).2.symm⟩

/-- Enumerators from outside and from a dictionary, two of them with one value. A data member has
taken the name of another. -/
def shades : List Operation :=
  [.addEnumerator enumA "Red" 0, .addMember enumA.scope "size" (.dataMember ⟨0⟩ 0 .none),
    .addEnumerator enumA "Crimson" 0, .addEnumerator enumA "size" 1,
    .load ⟨"shades", [.enum "A" (some "k") "int" [⟨"Blue", 2⟩, ⟨"Red", 0⟩, ⟨"Navy", 3⟩]], []⟩]

theorem shades_are_listed :
    oneName.Answers enumA ∧
      (oneName.run shades).catalog.enumerators enumA =
        [⟨"Red", 0⟩, ⟨"Crimson", 0⟩, ⟨"Blue", 2⟩, ⟨"Navy", 3⟩] ∧
      (oneName.run shades).ListsEnumerators enumA := by
  have reach : Reachable ((ofSettings Settings.default.catalog).run [.buildFundamental "int" 4]) :=
    ⟨_, _, rfl⟩
  have answered : oneName.Answers enumA :=
    .built reach ⟨.global, "A", .mangled "k", .inl "int"⟩ rfl
  exact ⟨answered, by decide +kernel, enumerators_only_grow answered shades⟩

end Hub

end TypeCatalog
