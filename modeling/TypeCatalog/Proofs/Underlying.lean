import TypeCatalog.Proofs.Histories

/-!
# The underlying type of an enum

Whatever is recorded as an underlying type underlies an enum of its own size and is integral, and
stays recorded. A request for an enum says where the enum goes and over which type it is; it is
granted as it stands or not at all.
-/

namespace TypeCatalog

/-- The classes of the types that may underlie an enum. -/
def FundamentalClass.integral : List FundamentalClass := [.bool, .character, .signed, .unsigned]

/-- The type may stand behind the enum. -/
structure Entry.Underlies (base e : Entry) : Prop where
  enum : e.kind = .enum
  fundamental : base.kind = .fundamental
  integral : ∃ cls ∈ FundamentalClass.integral,
    FundamentalClass.ofName? base.simpleName = some cls
  size : e.size = base.size

theorem FundamentalClass.mem_integral (cls : FundamentalClass) :
    cls ∈ integral ↔ cls.isIntegral := by
  cases cls <;> decide

theorem Entry.isIntegral_iff (e : Entry) :
    e.isIntegral ↔ e.kind = .fundamental ∧
      ∃ cls ∈ FundamentalClass.integral, FundamentalClass.ofName? e.simpleName = some cls := by
  unfold isIntegral
  cases hclass : FundamentalClass.ofName? e.simpleName with
  | none => simp
  | some cls => simp [FundamentalClass.mem_integral]

/-- What is recorded as underlying underlies. -/
def Catalog.Underlain (c : Catalog) : Prop :=
  ∀ {h u}, c.underlying.get? h = some u → ∃ e base,
    c.types.get? h = some e ∧ c.types.get? u = some base ∧ base.Underlies e

/-! ## No addition and no operation breaks it -/

theorem Addition.underlain {allowed : String → Prop} {c c' : Catalog} {events : List Event}
    (new : Addition allowed c events c') (wf : c.WellFormed) (h : c.Underlain) :
    c'.Underlain := by
  have hext := new.keeps wf
  have old : ∀ {h u}, c.underlying.get? h = some u → ∃ e base,
      c'.types.get? h = some e ∧ c'.types.get? u = some base ∧ base.Underlies e := by
    intro handle u hu
    obtain ⟨e, base, he, hbase, hunder⟩ := h hu
    exact ⟨e, base, hext.types.get? he, hext.types.get? hbase, hunder⟩
  intro handle u hu
  cases new with
  | @underlying e base found kind baseFound integral size =>
    simp only [Table.get?_keep] at hu
    rcases Option.or_eq_some_iff.1 hu with hold | ⟨-, hnew⟩
    · exact old hold
    · split at hnew
      · next hhandle =>
        obtain rfl := Option.some.inj hnew
        obtain ⟨hfundamental, hclass⟩ := (Entry.isIntegral_iff base).1 integral
        exact ⟨e, base, hhandle ▸ found, baseFound, kind, hfundamental, hclass, size⟩
      · cases hnew
  | _ => exact old hu

theorem Catalog.GrowsTo.underlain {allowed : String → Prop} {c c' : Catalog}
    (h : c.GrowsTo allowed c') (wf : c.WellFormed) (hc : c.Underlain) : c'.Underlain := by
  obtain ⟨events, h⟩ := h
  induction h with
  | refl => exact hc
  | step grown new ih => exact new.underlain (grown.wellFormed wf) ih

theorem Catalog.Underlain.setHidden {c : Catalog} (hc : c.Underlain) {h : Handle}
    {hidden changed : Bool} {types : Registry}
    (hset : c.types.setHidden h hidden = .ok (changed, types)) :
    Catalog.Underlain { c with types := types } := by
  have hext := Registry.setHidden_extends hset
  intro handle u hu
  obtain ⟨e, base, he, hbase, hunder⟩ := hc hu
  exact ⟨e, base, hext.get? he, hext.get? hbase, hunder⟩

theorem Hub.Reachable.underlain {hub : Hub} (reach : hub.Reachable) : hub.catalog.Underlain := by
  obtain ⟨settings, ops, rfl⟩ := reach
  refine Hub.run_keeps (P := Catalog.Underlain) (fun wf hc hgrows => hgrows.underlain wf hc)
    (fun _ hc hset => hc.setHidden hset) _ (Catalog.empty_wellFormed settings) ?_ ops
  intro h u hu
  cases hu

/-! ## Requests -/

/-- An enum to be built, and how its underlying type is given. -/
structure EnumRequest where
  parent : ScopeId
  name : String
  key : Key
  underlying : String ⊕ Handle

namespace EnumRequest

def operation (r : EnumRequest) : Operation :=
  match r.underlying with
  | .inl underlying => .buildEnum r.parent r.name r.key underlying
  | .inr underlying => .buildEnumOver r.parent r.name r.key underlying

/-- The type that is asked for as the underlying one. -/
def base? (r : EnumRequest) (c : Catalog) : Option Entry :=
  match r.underlying with
  | .inl underlying => c.types.lookupName? underlying
  | .inr underlying => c.types.get? underlying

/-- What is there when the request has been granted by `answer`. -/
def Granted (r : EnumRequest) (hub : Hub) (answer : Result) (hub' : Hub) : Prop :=
  hub.catalog.GrowsTo (fun _ => True) hub'.catalog ∧ ∃ base en, answer = .enumeration en ∧
    r.base? hub.catalog = some base ∧ hub'.catalog.HasEnum r.parent r.name r.key base en

theorem perform_spec (r : EnumRequest) (hub : Hub) (wf : hub.catalog.WellFormed) :
    After (Hub.perform r.operation) hub (r.Granted hub) (fun _ hub' => hub' = hub) := by
  have settle : ∀ {change : Change Enumeration},
      After change ⟨hub.catalog, []⟩
        (fun en d => Draft.Grows (fun _ => True) ⟨hub.catalog, []⟩ d ∧
          ∃ base, r.base? hub.catalog = some base ∧
            d.catalog.HasEnum r.parent r.name r.key base en)
        (fun _ d => d = ⟨hub.catalog, []⟩) →
      After (do return Result.enumeration (← Hub.commit change)) hub (r.Granted hub)
        (fun _ hub' => hub' = hub) := by
    intro change h
    refine after_bind ((Hub.commit_grows _ wf
      (fun en c => ∃ base, r.base? hub.catalog = some base ∧
        c.HasEnum r.parent r.name r.key base en) ?_ h).mono ?_ fun _ _ h => h)
    · rintro en c c' hext ⟨base, hbase, hen⟩
      exact ⟨base, hbase, hen.mono hext⟩
    · rintro en hub' ⟨hgrows, base, hbase, hen⟩
      exact after_pure _ ⟨hgrows, base, en, rfl, hbase, hen⟩
  obtain ⟨parent, name, key, base⟩ := r
  cases base with
  | inl underlying => exact settle (Change.buildEnum_grows _ _ wf parent trivial key underlying)
  | inr underlying =>
    exact settle (Change.buildEnumOver_grows _ _ wf parent trivial key underlying)

theorem granted_of_ok {r : EnumRequest} {hub hub' : Hub} (wf : hub.catalog.WellFormed)
    {answer : Result} (h : hub.execute r.operation = (.ok answer, hub')) :
    r.Granted hub answer hub' := by
  unfold Hub.execute at h
  split at h
  · next hrun =>
    obtain ⟨hanswer, rfl⟩ := Prod.mk.inj h
    rw [← Except.ok.inj hanswer]
    exact (r.perform_spec hub wf).at_ok hrun
  · cases (Prod.mk.inj h).1

theorem ok_or_refused (r : EnumRequest) {hub : Hub} (wf : hub.catalog.WellFormed) :
    (∃ answer hub', hub.execute r.operation = (.ok answer, hub')) ∨
      ∃ fault, hub.execute r.operation = (.error fault, hub) := by
  have h := r.perform_spec hub wf
  unfold Hub.execute
  cases hrun : EStateM.run (Hub.perform r.operation) hub with
  | ok answer hub' => exact .inl ⟨answer, hub', rfl⟩
  | error fault hub' =>
    rw [h.at_error hrun]
    exact .inr ⟨fault, rfl⟩

end EnumRequest

/-! ## What is recorded, answered and refused -/

namespace Hub

/-- Every enum has one underlying type, for good, and it is a type that can underlie it. -/
structure UnderlyingFixed (hub : Hub) : Prop where
  valid : ∀ {h u}, hub.catalog.underlying.get? h = some u → ∃ e base,
    hub.catalog.types.get? h = some e ∧ hub.catalog.types.get? u = some base ∧ base.Underlies e
  stays : ∀ {h u}, hub.catalog.underlying.get? h = some u →
    ∀ ops, (hub.run ops).catalog.underlying.get? h = some u
  granted : ∀ (r : EnumRequest) {answer hub'}, hub.execute r.operation = (.ok answer, hub') →
    ∃ base en, r.base? hub.catalog = some base ∧ answer = .enumeration en ∧
      en.type.key = r.key ∧ en.underlying = base.handle ∧
      hub'.catalog.types.get? en.type.handle = some en.type ∧
      hub'.catalog.underlying.get? en.type.handle = some base.handle ∧
      (hub'.catalog.scopes.info? en.scope).bind (·.facet) = some en.type.handle
  refused : ∀ (r : EnumRequest) {e u}, hub.catalog.types.lookup? r.key = some e →
    hub.catalog.underlying.get? e.handle = some u →
    (r.base? hub.catalog).map (·.handle) ≠ some u →
    ∃ fault, hub.execute r.operation = (.error fault, hub)

theorem underlying_is_fixed {hub : Hub} (reach : hub.Reachable) : hub.UnderlyingFixed := by
  have wf := reach.wellFormed
  refine ⟨fun hu => reach.underlain hu, fun hu ops => (run_extends hub wf ops).underlying hu, ?_,
    ?_⟩
  · intro r answer hub' h
    obtain ⟨hgrows, base, en, hanswer, hbase, hen⟩ := EnumRequest.granted_of_ok wf h
    have wf' := hgrows.wellFormed wf
    have htype := (Registry.lookup?_eq_some_iff wf'.types).1 hen.owned.type.found
    obtain ⟨s, hs, -, hfacet⟩ := hen.owned.scope
    refine ⟨base, en, hbase, hanswer, htype.2, hen.handle, htype.1, hen.underlying, ?_⟩
    rw [ScopeTree.info?, hs, Option.map_some, Option.bind_some, hfacet]
  · intro r e u he hu hother
    rcases r.ok_or_refused wf with ⟨answer, hub', h⟩ | hrefused
    · -- If the request were granted, the type under the key would be over both types.
      exfalso
      obtain ⟨hgrows, base, en, -, hbase, hen⟩ := EnumRequest.granted_of_ok wf h
      have hext := hgrows.keeps wf
      obtain rfl : e = en.type :=
        Option.some.inj ((hext.types.lookup? he).symm.trans hen.owned.type.found)
      have hsame : base.handle = u :=
        Option.some.inj (hen.underlying.symm.trans (hext.underlying hu))
      rw [hbase, Option.map_some, hsame] at hother
      exact hother rfl
    · exact hrefused

/-- An enum over `int`, and a wider type beside it. -/
def intEnum : Hub :=
  (ofSettings Settings.default.catalog).run
    [.buildFundamental "int" 4, .buildFundamental "long" 8,
      .buildEnum .global "Color" (.named "Color") "int"]

/-- It cannot be built again over the wider type, under whatever name. -/
theorem intEnum_stays_int :
    intEnum.catalog.underlying.get? ⟨2⟩ = some ⟨0⟩ ∧
      ∃ fault, intEnum.execute (.buildEnum .global "Hue" (.named "Color") "long") =
        (.error fault, intEnum) :=
  ⟨rfl, (@underlying_is_fixed intEnum ⟨_, _, rfl⟩).refused
    ⟨.global, "Hue", .named "Color", .inl "long"⟩ (e := ⟨⟨2⟩, .named "Color", .enum, 4, "Color"⟩)
    (u := ⟨0⟩) rfl rfl (by decide)⟩

end Hub

end TypeCatalog
