import TypeCatalog.Printer.Basic
import TypeCatalog.Proofs.Carriers

/-!
# The enum that a handle stands for

A handle leads to the enum in the first scope that carried its type. An enum that was built in that
scope is the one that the catalog lists and the printer reads. An enum that was built over the same
key in another scope is not.
-/

namespace TypeCatalog

namespace Hub

theorem Reachable.later {hub : Hub} (reach : hub.Reachable) (ops : List Operation) :
    (hub.run ops).Reachable := by
  obtain ⟨settings, before, rfl⟩ := reach
  exact ⟨settings, before ++ ops, (run_append _ before ops).symm⟩

theorem first_carrier {hub : Hub} (reach : hub.Reachable) {op : Operation} (single : op.IsSingle)
    {h : Handle} {id : ScopeId} (fresh : ∀ id', ¬hub.catalog.scopes.Carries id' h)
    (hc : (hub.execute op).2.catalog.scopes.Carries id h) :
    (hub.execute op).2.catalog.scopes.byType? h = some id := by
  have hindexed := (reach.later [op]).facetsIndexed
  obtain ⟨first, hfirst⟩ := hindexed.found hc
  obtain ⟨new, hedits⟩ := execute_edits reach.wellFormed single
  have hid := (hedits.attaches id h hc).resolve_left (fresh id)
  have hfirst' := (hedits.attaches first h (hindexed.carried hfirst)).resolve_left (fresh first)
  exact hfirst.trans (congrArg some (hfirst'.trans hid.symm))

end Hub

/-! ## Enums by their handles -/

namespace Catalog

variable {c : Catalog}

theorem enumeration?_eq_some_iff {h : Handle} {en : Enumeration} :
    c.enumeration? h = some en ↔ c.types.get? h = some en.type ∧ en.type.kind = .enum ∧
      c.scopes.byType? h = some en.scope ∧ c.underlying.get? h = some en.underlying := by
  unfold enumeration?
  constructor
  · intro hen
    obtain ⟨type, htype, hen⟩ := Option.bind_eq_some_iff.1 hen
    obtain ⟨_, hguard, hen⟩ := Option.bind_eq_some_iff.1 hen
    obtain ⟨scope, hscope, hen⟩ := Option.bind_eq_some_iff.1 hen
    obtain ⟨underlying, hunder, hen⟩ := Option.bind_eq_some_iff.1 hen
    obtain rfl := Option.some.inj hen
    refine ⟨htype, ?_, hscope, hunder⟩
    by_contra hkind
    have hnone : (guard (type.kind = .enum) : Option Unit) = none := if_neg hkind
    rw [hnone] at hguard
    cases hguard
  · rintro ⟨htype, hkind, hscope, hunder⟩
    have hguard : (guard (en.type.kind = .enum) : Option Unit) = some () := if_pos hkind
    exact Option.bind_eq_some_iff.2 ⟨en.type, htype, Option.bind_eq_some_iff.2 ⟨(), hguard,
      Option.bind_eq_some_iff.2 ⟨en.scope, hscope, Option.bind_eq_some_iff.2
        ⟨en.underlying, hunder, rfl⟩⟩⟩⟩

theorem HasEnum.enumeration? (wf : c.WellFormed) {parent first : ScopeId} {name : String}
    {key : Key} {base : Entry} {en : Enumeration} (h : c.HasEnum parent name key base en)
    (hfirst : c.scopes.byType? en.type.handle = some first) :
    c.enumeration? en.type.handle = some { en with scope := first } :=
  enumeration?_eq_some_iff.2 ⟨h.owned.type.get? wf.types, h.owned.type.kind, hfirst,
    by rw [h.underlying, h.handle]⟩

end Catalog

/-- The printer writes the first enumerator that has the value. -/
theorem Printer.print_enumeration {c : Catalog} {en : Enumeration}
    (hen : c.enumeration? en.type.handle = some en) {base : Entry}
    (hbase : c.types.get? en.underlying = some base) {v : Value} (hv : v.type = en.type.handle)
    {n : Int64} (hn : Formatter.enumInteger? ⟨c, en.type, v⟩ (some base) = some n)
    {first : Enumerator} (hfirst : (c.enumerators en).find? (·.value = n) = some first) :
    standard.print c v = "(" ++ en.type.name ++ ") " ++ ("(" ++ first.name ++ ") : ") ++
      "(" ++ base.name ++ ") " ++ toString n.toInt := by
  obtain ⟨htype, hkind, -, -⟩ := Catalog.enumeration?_eq_some_iff.1 hen
  have hformatter : standard.formatter en.type = .total Formatter.enumeration := by
    rw [formatter, hkind]
    rfl
  unfold print printAs
  rw [hv, htype]
  simp only [hformatter, Formatter.total, Formatter.enumeration, hen, hbase, hn, hfirst,
    Option.elim]
  rfl

/-- The enum is the one of its handle, has the enumerator in its list, and its values of that number
are written with the name of the first enumerator that has it. -/
structure Catalog.Shows (c : Catalog) (en : Enumeration) (new : Enumerator) : Prop where
  canonical : c.enumeration? en.type.handle = some en
  listed : new ∈ c.enumerators en
  printed : ∃ base first, c.types.get? en.underlying = some base ∧
    (c.enumerators en).find? (·.value = new.value) = some first ∧
      ∀ v : Value, v.type = en.type.handle →
        Formatter.enumInteger? ⟨c, en.type, v⟩ (some base) = some new.value →
          Printer.standard.print c v = "(" ++ en.type.name ++ ") " ++
            ("(" ++ first.name ++ ") : ") ++ "(" ++ base.name ++ ") " ++ toString new.value.toInt

theorem Catalog.Shows.of_member {c : Catalog} (wf : c.WellFormed) (underlain : c.Underlain)
    {en : Enumeration} (hen : c.enumeration? en.type.handle = some en) {new : Enumerator}
    (hm : c.scopes.member? en.scope new.name = some (.enumerator en.type.handle new.value)) :
    c.Shows en new := by
  have hlisted := (Catalog.mem_enumerators wf).2 hm
  obtain ⟨-, -, -, hunder⟩ := Catalog.enumeration?_eq_some_iff.1 hen
  obtain ⟨-, base, -, hbase, -⟩ := underlain hunder
  cases hfirst : (c.enumerators en).find? (·.value = new.value) with
  | none =>
    have := List.find?_eq_none.1 hfirst new hlisted
    simp at this
  | some first =>
    refine ⟨hen, hlisted, base, first, hbase, hfirst, ?_⟩
    exact fun v hv hn => Printer.print_enumeration hen hbase hv hn hfirst

/-! ## What the builders answer -/

namespace Hub

variable {hub hub' : Hub}

theorem enumeration?_stays (reach : hub.Reachable) {h : Handle} {en : Enumeration}
    (hen : hub.catalog.enumeration? h = some en) (ops : List Operation) :
    (hub.run ops).catalog.enumeration? h = some en := by
  have hext := run_extends hub reach.wellFormed ops
  obtain ⟨htype, hkind, hscope, hunder⟩ := Catalog.enumeration?_eq_some_iff.1 hen
  exact Catalog.enumeration?_eq_some_iff.2
    ⟨hext.types.get? htype, hkind, hext.scopes.byType hscope, hext.underlying hunder⟩

/-- A scope that carries the type of a new enum is the enum's own, or has carried the type that was
registered under the key before. -/
theorem granted_carrier {r : EnumRequest} (wf : hub.catalog.WellFormed)
    (hgrows : hub.catalog.GrowsTo (fun _ => True) hub'.catalog) {base : Entry} {en : Enumeration}
    (hen : hub'.catalog.HasEnum r.parent r.name r.key base en)
    (hnew : hub.catalog.scopes.Attaches hub'.catalog.scopes (· = en.scope)) {id : ScopeId}
    (hc : hub'.catalog.scopes.Carries id en.type.handle) :
    id = en.scope ∨ ∃ e, hub.catalog.types.lookup? r.key = some e ∧
      hub.catalog.scopes.Carries id e.handle := by
  rcases hnew id _ hc with hold | hid
  · right
    have wf' := hgrows.wellFormed wf
    obtain ⟨s, hs, hfacet⟩ := ScopeTree.carries_iff.1 hold
    obtain ⟨e, he⟩ := Option.isSome_iff_exists.1 (wf.facet hs hfacet)
    have htype := (Registry.lookup?_eq_some_iff wf'.types).1 hen.owned.type.found
    obtain rfl : e = en.type :=
      Option.some.inj (((hgrows.keeps wf).types.get? he).symm.trans htype.1)
    exact ⟨en.type, (Registry.lookup?_eq_some_iff wf.types).2 ⟨he, htype.2⟩, hold⟩
  · exact .inl hid

theorem granted_attaches {r : EnumRequest} {answer : Result} {en : Enumeration}
    (h : hub.execute r.operation = (.ok answer, hub')) (hanswer : answer = .enumeration en) :
    hub.catalog.scopes.Attaches hub'.catalog.scopes (· = en.scope) := by
  have settle : ∀ {change : Change Enumeration} {place : Option (ScopeId × String)},
      change.Edits ⟨hub.catalog, []⟩ place (fun en => (· = en.scope)) →
        After (do return Result.enumeration (← commit change)) hub
          (fun answer hub' => ∀ en, answer = .enumeration en →
            hub.catalog.scopes.Attaches hub'.catalog.scopes (· = en.scope)) (fun _ _ => True) := by
    intro change place hchange
    refine after_bind ((commit_edits hchange).mono ?_ fun _ _ _ => trivial)
    rintro en hub' hnew
    refine after_pure _ ?_
    intro en' hsame
    rw [← Result.enumeration.inj hsame]
    exact hnew.attaches
  have hattaches : After (perform r.operation) hub
      (fun answer hub' => ∀ en, answer = .enumeration en →
        hub.catalog.scopes.Attaches hub'.catalog.scopes (· = en.scope)) (fun _ _ => True) := by
    obtain ⟨parent, name, key, base⟩ := r
    cases base with
    | inl underlying => exact settle (Change.buildEnum_edits _ parent name key underlying)
    | inr underlying => exact settle (Change.buildEnumOver_edits _ parent name key underlying)
  unfold execute at h
  split at h
  · next hrun =>
    obtain ⟨hr, rfl⟩ := Prod.mk.inj h
    rw [← Except.ok.inj hr] at hanswer
    exact hattaches.at_ok hrun en hanswer
  · cases (Prod.mk.inj h).1

/-- The enum of a granted request stands for its handle from then on, up to the scope: that is the
first one that carried the type. -/
theorem granted_is_canonical {r : EnumRequest} (reach : hub.Reachable) {answer : Result}
    (h : hub.execute r.operation = (.ok answer, hub')) :
    ∃ en first, answer = .enumeration en ∧
      hub'.catalog.scopes.byType? en.type.handle = some first ∧
      ((∀ e id, hub.catalog.types.lookup? r.key = some e →
        hub.catalog.scopes.Carries id e.handle → id = en.scope) → first = en.scope) ∧
      ∀ ops, (hub'.run ops).catalog.enumeration? en.type.handle =
        some { en with scope := first } := by
  have reach' : hub'.Reachable := by
    have := reach.later [r.operation]
    rw [run, List.foldl_cons, List.foldl_nil, h] at this
    exact this
  have wf := reach.wellFormed
  obtain ⟨hgrows, base, en, hanswer, -, hen⟩ := EnumRequest.granted_of_ok wf h
  obtain ⟨s, hs, -, hfacet⟩ := hen.owned.scope
  obtain ⟨first, hfirst⟩ := reach'.facetsIndexed.found (ScopeTree.carries_iff.2 ⟨s, hs, hfacet⟩)
  refine ⟨en, first, hanswer, hfirst, ?_, ?_⟩
  · intro alone
    rcases granted_carrier wf hgrows hen (granted_attaches h hanswer)
      (reach'.facetsIndexed.carried hfirst) with hown | ⟨e, he, hc⟩
    · exact hown
    · exact alone e first he hc
  · exact enumeration?_stays reach' (hen.enumeration? reach'.wellFormed hfirst)

theorem enumerator_is_shown (reach : hub.Reachable) {en : Enumeration}
    (hen : hub.catalog.enumeration? en.type.handle = some en) {name : String} {value : Int64}
    {answer : Result} (h : hub.execute (.addEnumerator en name value) = (.ok answer, hub'))
    (ops : List Operation) : (hub'.run ops).catalog.Shows en ⟨name, value⟩ := by
  have hrun := reach.later (.addEnumerator en name value :: ops)
  have hstays := enumeration?_stays reach hen (.addEnumerator en name value :: ops)
  have hsplit : hub.run (.addEnumerator en name value :: ops) = hub'.run ops := by
    rw [run, List.foldl_cons, h]
    rfl
  rw [hsplit] at hrun hstays
  refine .of_member hrun.wellFormed hrun.underlain hstays ?_
  have hadd := after_answer (fun _ => .done)
    (commit_grows (fun _ => True) reach.wellFormed
      (fun _ c => c.scopes.member? en.scope name = some (.enumerator en.type.handle value))
      (fun hext hm => hext.scopes.member? hm)
      (Change.addEnumerator_grows (fun _ => True) ⟨hub.catalog, []⟩ en name value))
  unfold execute at h
  split at h
  · next hdone =>
    obtain ⟨-, rfl⟩ := Prod.mk.inj h
    obtain ⟨hgrows, hm⟩ := hadd.at_ok hdone
    exact (run_extends _ (hgrows.wellFormed reach.wellFormed) ops).scopes.member? hm
  · cases (Prod.mk.inj h).1

/-- How types, the scopes that carry them and the enums that are built belong together. -/
structure CarriersKept (hub : Hub) : Prop where
  carried : ∀ {h id}, hub.catalog.scopes.byType? h = some id → hub.catalog.scopes.Carries id h
  found : ∀ {h id}, hub.catalog.scopes.Carries id h →
    ∃ first, hub.catalog.scopes.byType? h = some first
  alone : ∀ {h id}, (∀ id', hub.catalog.scopes.Carries id' h → id' = id) →
    (hub.catalog.scopes.byType? h = some id ↔ hub.catalog.scopes.Carries id h)
  first : ∀ {op h id}, op.IsSingle → (∀ id', ¬hub.catalog.scopes.Carries id' h) →
    (hub.execute op).2.catalog.scopes.Carries id h →
      (hub.execute op).2.catalog.scopes.byType? h = some id
  stays : ∀ {h id}, hub.catalog.scopes.byType? h = some id →
    ∀ ops, (hub.run ops).catalog.scopes.byType? h = some id
  built : ∀ (r : EnumRequest) {answer hub'}, hub.execute r.operation = (.ok answer, hub') →
    ∃ en first, answer = .enumeration en ∧
      hub'.catalog.scopes.byType? en.type.handle = some first ∧
      ((∀ e id, hub.catalog.types.lookup? r.key = some e →
        hub.catalog.scopes.Carries id e.handle → id = en.scope) → first = en.scope) ∧
      ∀ ops, (hub'.run ops).catalog.enumeration? en.type.handle =
        some { en with scope := first }
  shown : ∀ {en name value answer hub'}, hub.catalog.enumeration? en.type.handle = some en →
    hub.execute (.addEnumerator en name value) = (.ok answer, hub') →
      ∀ ops, (hub'.run ops).catalog.Shows en ⟨name, value⟩

theorem carriers_are_kept (reach : hub.Reachable) : hub.CarriersKept where
  carried := reach.facetsIndexed.carried
  found := reach.facetsIndexed.found
  alone := by
    intro h id alone
    refine ⟨reach.facetsIndexed.carried, ?_⟩
    intro hc
    obtain ⟨first, hfirst⟩ := reach.facetsIndexed.found hc
    rw [hfirst, alone first (reach.facetsIndexed.carried hfirst)]
  first := fun single fresh hc => first_carrier reach single fresh hc
  stays := fun hid ops => (run_extends hub reach.wellFormed ops).scopes.byType hid
  built := fun _ _ _ h => granted_is_canonical reach h
  shown := fun hen h ops => enumerator_is_shown reach hen h ops

/-! ## One key under two names -/

def oneName : Hub :=
  (ofSettings Settings.default.catalog).run
    [.buildFundamental "int" 4, .buildEnum .global "A" (.mangled "k") "int"]

/-- The enum that is answered for the name `A`. -/
def enumA : Enumeration := ⟨⟨⟨1⟩, .mangled "k", .enum, 4, "A"⟩, ⟨1⟩, ⟨0⟩⟩

/-- The name `A` came first, so what is added to its enum is shown. -/
theorem enumA_is_shown :
    oneName.Reachable ∧ oneName.catalog.enumeration? ⟨1⟩ = some enumA ∧
      (oneName.execute (.addEnumerator enumA "Red" 0)).2.catalog.Shows enumA ⟨"Red", 0⟩ :=
  have reach : oneName.Reachable := ⟨_, _, rfl⟩
  have added : oneName.execute (.addEnumerator enumA "Red" 0) =
    (.ok .done, (oneName.execute (.addEnumerator enumA "Red" 0)).2) := rfl
  ⟨reach, rfl, (carriers_are_kept reach).shown rfl added []⟩

/-- The enum that is answered for the name `B`. -/
def enumB : Enumeration := ⟨enumA.type, ⟨2⟩, ⟨0⟩⟩

def twoNames : Hub := (oneName.execute (.buildEnum .global "B" (.mangled "k") "int")).2

/-- A second scope carries the type, but the index does not lead to it, the enum that was answered
is not the one of its handle, and an enumerator that is added through it is not in the list. -/
theorem twoNames_split_enum :
    twoNames.Reachable ∧
      oneName.execute (.buildEnum .global "B" (.mangled "k") "int") =
        (.ok (.enumeration enumB), twoNames) ∧
      twoNames.catalog.scopes.Carries ⟨2⟩ ⟨1⟩ ∧ twoNames.catalog.scopes.Carries ⟨1⟩ ⟨1⟩ ∧
      twoNames.catalog.scopes.byType? ⟨1⟩ ≠ some ⟨2⟩ ∧
      twoNames.catalog.enumeration? ⟨1⟩ ≠ some enumB ∧
      (twoNames.execute (.addEnumerator enumB "Red" 0)).1 = .ok .done ∧
      ((twoNames.execute (.addEnumerator enumB "Red" 0)).2.catalog.enumeration? ⟨1⟩).map
        (twoNames.execute (.addEnumerator enumB "Red" 0)).2.catalog.enumerators = some [] := by
  refine ⟨⟨Settings.default.catalog,
    [.buildFundamental "int" 4, .buildEnum .global "A" (.mangled "k") "int",
      .buildEnum .global "B" (.mangled "k") "int"], rfl⟩, ?_⟩
  decide +kernel

end Hub

end TypeCatalog
