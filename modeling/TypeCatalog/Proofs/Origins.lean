import TypeCatalog.Proofs.Naming

/-!
# Where the names of types come from

The work of a hub gives names to the keys that it registers, and an observer may echo a type under a
key of its own. A new type has the name that the work gave to its key or, if the work gives none to
it, the one of an echo.
-/

namespace TypeCatalog

/-- The declaration, applied to `hub`, gives `name` to the type under `key`, seen from a catalog
after it. -/
inductive Declaration.Gives (hub : Hub) (c : Catalog) : Declaration → Key → String → Prop
  | fundamental {name : String} {size : Nat} :
    Gives hub c (.fundamental name size) (.named name) name
  | classType {sort : ClassSort} {name qualified : String} {key : Option String} {size : Nat}
      {parent : ScopeId} {hub' : Hub}
      (ensured : EStateM.run (Hub.ensureNamespace (Name.enclosing name)) hub = .ok parent hub')
      (carried : c.CarriedAs parent (Name.last name) (.ofSymbol key name) qualified) :
    Gives hub c (.classType sort name key size) (.ofSymbol key name) qualified
  | typedef {name target : String} :
    Gives hub c (.typedef name target) (.named name) name
  | pointer {target : String} :
    Gives hub c (.pointer target) (.named (pointerName target)) (pointerName target)
  | enum {name qualified underlying : String} {key : Option String} {xs : List Enumerator}
      {parent : ScopeId} {hub' : Hub}
      (ensured : EStateM.run (Hub.ensureNamespace (Name.enclosing name)) hub = .ok parent hub')
      (carried : c.CarriedAs parent (Name.last name) (.ofSymbol key name) qualified) :
    Gives hub c (.enum name key underlying xs) (.ofSymbol key name) qualified
  | function {scope name signature : String} {modifiers : List String} :
    Gives hub c (.function scope name signature modifiers) (.named signature) signature

/-- An observer registers a shadow called `name` under `key`. -/
def Hub.Echoes (hub : Hub) (c : Catalog) (key : Key) (name : String) : Prop :=
  key = .named name ∧ ∃ s ∈ hub.subscriptions, ∃ e ∈ c.types.entries,
    s.shadow? (.typeRegistered e) = some (e, name)

/-- The type under `key` has got `name` in the way in which names are given, or, if no name is ever
given to it, from an observer. -/
def Hub.Names (hub : Hub) (gives : Catalog → Key → String → Prop) (c : Catalog) (key : Key)
    (name : String) : Prop :=
  gives c key name ∨ (∀ c' name', ¬gives c' key name') ∧ hub.Echoes c key name

theorem Declaration.Gives.mono {hub : Hub} {c c' : Catalog} (hext : c.Extends c')
    {d : Declaration} {key : Key} {name : String} (h : d.Gives hub c key name) :
    d.Gives hub c' key name := by
  cases h with
  | fundamental => exact .fundamental
  | classType ensured carried => exact .classType ensured (carried.mono hext)
  | typedef => exact .typedef
  | pointer => exact .pointer
  | enum ensured carried => exact .enum ensured (carried.mono hext)
  | function => exact .function

namespace Hub

/-! ## Work on hubs -/

/-- The hub has grown, and its new types have got names that are given. -/
structure Brings (gives : Catalog → Key → String → Prop) (hub hub' : Hub) : Prop where
  observers : hub'.subscriptions = hub.subscriptions
  grows : hub.catalog.GrowsTo (fun _ => True) hub'.catalog
  types : hub.catalog.types.Brings (hub.Names gives hub'.catalog) hub'.catalog.types

/-- The hub has grown by other things than types. -/
structure Spares (hub hub' : Hub) : Prop where
  observers : hub'.subscriptions = hub.subscriptions
  grows : hub.catalog.GrowsTo (fun _ => True) hub'.catalog
  types : hub'.catalog.types = hub.catalog.types

/-- What was given stays given while the catalog grows. -/
def Stable (gives : Catalog → Key → String → Prop) : Prop :=
  ∀ c c' key name, c.Extends c' → gives c key name → gives c' key name

def nothing : Catalog → Key → String → Prop := fun _ _ _ => False

theorem nothing_stable : Stable nothing := fun _ _ _ _ _ h => h

theorem declared_stable (hub : Hub) (d : Declaration) : Stable fun c => d.Gives hub c :=
  fun _ _ _ _ hext h => h.mono hext

theorem Echoes.mono {hub hub' : Hub} (h : hub'.subscriptions = hub.subscriptions) {c c' : Catalog}
    (hext : c.Extends c') {key : Key} {name : String} (he : hub.Echoes c key name) :
    hub'.Echoes c' key name := by
  obtain ⟨hkey, s, hs, e, hmem, hshadow⟩ := he
  exact ⟨hkey, s, by rw [h]; exact hs, e, hext.types.entries.subset hmem, hshadow⟩

theorem Names.mono {gives : Catalog → Key → String → Prop} (stable : Stable gives) {hub hub' : Hub}
    (h : hub'.subscriptions = hub.subscriptions) {c c' : Catalog} (hext : c.Extends c') {key : Key}
    {name : String} (hn : hub.Names gives c key name) : hub'.Names gives c' key name := by
  rcases hn with hgives | ⟨hnone, hechoes⟩
  · exact .inl (stable _ _ _ _ hext hgives)
  · exact .inr ⟨hnone, hechoes.mono h hext⟩

namespace Spares

variable {hub hub' hub'' : Hub} {gives : Catalog → Key → String → Prop}

theorem refl (hub : Hub) : hub.Spares hub := ⟨rfl, .refl _, rfl⟩

theorem trans (h : hub.Spares hub') (h' : hub'.Spares hub'') : hub.Spares hub'' :=
  ⟨h'.observers.trans h.observers, h.grows.trans h'.grows, h'.types.trans h.types⟩

theorem brings (h : hub.Spares hub') : hub.Brings gives hub' :=
  ⟨h.observers, h.grows, .of_entries (congrArg Registry.entries h.types)⟩

end Spares

namespace Brings

variable {gives : Catalog → Key → String → Prop} {hub hub' hub'' : Hub}

theorem refl (hub : Hub) : hub.Brings gives hub := (Spares.refl hub).brings

theorem of_eq (h : hub' = hub) : hub.Brings gives hub' := by
  rw [h]
  exact refl hub

theorem trans (wf : hub.catalog.WellFormed) (stable : Stable gives) (h : hub.Brings gives hub')
    (h' : hub'.Brings gives hub'') : hub.Brings gives hub'' := by
  have hext := h'.grows.keeps (h.grows.wellFormed wf)
  refine ⟨h'.observers.trans h.observers, h.grows.trans h'.grows, ?_⟩
  refine (h.types.mono ?_).trans (h'.types.mono ?_)
  · exact fun _ _ hn => hn.mono stable rfl hext
  · exact fun _ _ hn => hn.mono stable h.observers.symm (.refl _)

end Brings

/-! ### Telling the observers -/

theorem cast_brings (hub : Hub) (wf : hub.catalog.WellFormed) {s : Subscription}
    (hs : s ∈ hub.subscriptions) {event : Event}
    (known : ∀ e, event = .typeRegistered e → e ∈ hub.catalog.types.entries) :
    hub.Brings nothing (hub.cast (s.shadow? event)).1 ∧
      ∀ e, .typeRegistered e ∈ (hub.cast (s.shadow? event)).2 →
        e ∈ (hub.cast (s.shadow? event)).1.catalog.types.entries := by
  cases hshadow : s.shadow? event with
  | none => exact ⟨.refl hub, fun e he => by cases he⟩
  | some shadow =>
    obtain ⟨entry, name⟩ := shadow
    obtain rfl : event = .typeRegistered entry := by
      unfold Subscription.shadow? at hshadow
      split at hshadow
      · split at hshadow
        · split at hshadow
          · cases hshadow
          · obtain ⟨rfl, -⟩ := Prod.mk.inj (Option.some.inj hshadow)
            rfl
        · cases hshadow
      · cases hshadow
    have h := Change.register_brings ⟨hub.catalog, []⟩ wf (.named name) entry.kind entry.size name
    unfold cast
    simp only
    split
    · next e d hrun =>
      obtain ⟨hgrows, -, htypes⟩ := h.at_ok hrun
      have hgrowsTo := hgrows.catalog
      obtain ⟨more, hevents, hmore⟩ := hgrows
      refine ⟨⟨rfl, hgrowsTo, htypes.mono ?_⟩, ?_⟩
      · rintro k n ⟨rfl, rfl⟩
        refine .inr ⟨fun _ _ h => h, rfl, s, hs, entry, ?_, hshadow⟩
        exact (hgrowsTo.keeps wf).types.entries.subset (known entry rfl)
      · intro e he
        simp only [hevents, List.nil_append] at he
        exact Registry.mem_of_get? (hmore.told wf he).1
    · next fault d hrun =>
      rw [h.at_error hrun]
      exact ⟨.refl hub, fun e he => by cases he⟩

theorem deliver_brings {tell : Hub → List Event → Hub}
    (htell : ∀ (hub : Hub) events, hub.catalog.WellFormed →
      (∀ e, .typeRegistered e ∈ events → e ∈ hub.catalog.types.entries) →
        hub.Brings nothing (tell hub events))
    {event : Event} {s : Subscription} (hub : Hub) (wf : hub.catalog.WellFormed)
    (known : ∀ e, event = .typeRegistered e → e ∈ hub.catalog.types.entries)
    (hs : s ∈ hub.subscriptions) : hub.Brings nothing (deliver tell event hub s) := by
  obtain ⟨hcast, hraised⟩ := cast_brings (hear event hub s) wf hs known
  have hcast' : hub.Brings nothing _ := ⟨hcast.observers, hcast.grows, hcast.types⟩
  exact hcast'.trans wf nothing_stable (htell _ _ (hcast.grows.wellFormed wf) hraised)

/-- All that telling brings is shadows. -/
theorem announce_brings (levels : Nat) (hub : Hub) (events : List Event)
    (wf : hub.catalog.WellFormed)
    (known : ∀ e, .typeRegistered e ∈ events → e ∈ hub.catalog.types.entries) :
    hub.Brings nothing (announce levels hub events) := by
  induction levels generalizing hub events with
  | zero =>
    exact handOut_keeps hear (fun _ => True) (hub.Brings nothing) (fun _ _ _ => trivial)
      (fun _ _ _ _ h => ⟨h.observers, h.grows, h.types⟩) (.refl hub)
  | succ levels ih =>
    refine handOut_keeps (deliver (announce levels)) (· ∈ hub.subscriptions) (hub.Brings nothing)
      (fun h s hs => h.observers ▸ hs) ?_ (.refl hub)
    intro hub' event hevent s hs h
    have wf' := h.grows.wellFormed wf
    refine h.trans wf nothing_stable (deliver_brings ih hub' wf' ?_ (h.observers.symm ▸ hs))
    rintro e rfl
    exact (h.grows.keeps wf).types.entries.subset (known e hevent)

/-! ### Committing -/

section Commit

variable {α : Type} {change : Change α} {hub : Hub}

theorem commit_brings {gives : Catalog → Key → String → Prop} {key : Key}
    {given : Catalog → String → Prop} (wf : hub.catalog.WellFormed) (stable : Stable gives)
    (own : ∀ c k n, gives c k n → k = key) (hgiven : ∀ c n, given c n → gives c key n)
    (h : After change ⟨hub.catalog, []⟩ (fun _ d => Draft.Brings key given ⟨hub.catalog, []⟩ d)
      (fun _ d => d = ⟨hub.catalog, []⟩)) :
    After (commit change) hub (fun _ hub' => hub.Brings gives hub') (fun _ hub' => hub' = hub) := by
  refine after_commit (h.mono ?_ ?_)
  · intro a d hd
    have wf' := hd.grows.catalog.wellFormed wf
    have known : ∀ e, .typeRegistered e ∈ d.events → e ∈ d.catalog.types.entries := by
      intro e he
      obtain ⟨more, hevents, hmore⟩ := hd.grows
      rw [hevents, List.nil_append] at he
      exact Registry.mem_of_get? (hmore.told wf he).1
    have htell := announce_brings (echoDepth { hub with catalog := d.catalog })
      { hub with catalog := d.catalog } d.events wf' known
    have hext := htell.grows.keeps wf'
    refine ⟨htell.observers, hd.grows.catalog.trans htell.grows, ?_⟩
    intro e he
    by_cases hmid : e ∈ d.catalog.types.entries
    · rcases hd.types e hmid with hold | ⟨name, ⟨hkey, hname⟩, hstored⟩
      · exact .inl hold
      · rw [hkey]
        exact .inr ⟨name, .inl (stable _ _ _ _ hext (hgiven _ _ hname)), hstored⟩
    · rcases htell.types e he with hold | ⟨name, hnone | ⟨-, hechoes⟩, hstored⟩
      · exact absurd hold hmid
      · exact hnone.elim
      -- The key of the change is taken by now, so the shadow has another one.
      have hother : e.key ≠ key := by
        rintro rfl
        have hfree := Registry.free_of_new (htell.grows.wellFormed wf').types hext.types he hmid
        have htaken := hd.taken
        rw [hfree] at htaken
        cases htaken
      refine .inr ⟨name, .inr ⟨fun c' n h => hother (own c' _ n h), ?_⟩, hstored⟩
      exact hechoes.mono rfl (.refl _)
  · rintro fault d rfl
    exact tell_nil hub

theorem commit_spares (wf : hub.catalog.WellFormed)
    (h : After change ⟨hub.catalog, []⟩ (fun _ d => Draft.Spares ⟨hub.catalog, []⟩ d)
      (fun _ d => d = ⟨hub.catalog, []⟩)) :
    After (commit change) hub (fun _ hub' => hub.Spares hub') (fun _ hub' => hub' = hub) := by
  refine after_commit (h.mono ?_ ?_)
  · intro a d hd
    have untyped : ∀ e, .typeRegistered e ∉ d.events := by
      intro e he
      obtain ⟨more, hevents, hmore⟩ := hd.grows
      rw [hevents, List.nil_append] at he
      obtain ⟨hlater, hearlier⟩ := hmore.told wf he
      rw [hd.types] at hlater
      exact absurd (hlater.symm.trans hearlier) (by simp)
    -- Only types have shadows.
    have silent : ∀ event ∈ d.events, ∀ s ∈ hub.subscriptions, s.shadow? event = none := by
      intro event hmem s _
      cases event with
      | typeRegistered e => exact absurd hmem (untyped e)
      | scopeDeclared info => rfl
      | memberAdded id name m => rfl
    obtain ⟨hcatalog, hobservers⟩ := announce_silent (echoDepth { hub with catalog := d.catalog })
      { hub with catalog := d.catalog } d.events silent
    refine ⟨hobservers, ?_, ?_⟩
    · rw [tell, hcatalog]
      exact hd.grows.catalog
    · rw [tell, hcatalog]
      exact hd.types
  · rintro fault d rfl
    exact tell_nil hub

section Onward

/-! A commit on a hub to which other work has led from `start`. -/

variable {start : Hub} {gives : Catalog → Key → String → Prop} (wf : start.catalog.WellFormed)
  (stable : Stable gives)

include wf stable

theorem Brings.commit {key : Key} {given : Catalog → String → Prop} (h : start.Brings gives hub)
    (own : ∀ c k n, gives c k n → k = key) (hgiven : ∀ c n, given c n → gives c key n)
    (hchange : After change ⟨hub.catalog, []⟩
      (fun _ d => Draft.Brings key given ⟨hub.catalog, []⟩ d) (fun _ d => d = ⟨hub.catalog, []⟩)) :
    After (commit change) hub (fun _ hub' => start.Brings gives hub')
      (fun _ hub' => start.Brings gives hub') := by
  have wf' := h.grows.wellFormed wf
  refine (commit_brings wf' stable own hgiven hchange).mono ?_ ?_
  · exact fun _ _ h' => h.trans wf stable h'
  · rintro fault hub' rfl
    exact h

theorem Brings.commit_sparing (h : start.Brings gives hub)
    (hchange : After change ⟨hub.catalog, []⟩ (fun _ d => Draft.Spares ⟨hub.catalog, []⟩ d)
      (fun _ d => d = ⟨hub.catalog, []⟩)) :
    After (Hub.commit change) hub (fun _ hub' => start.Brings gives hub')
      (fun _ hub' => start.Brings gives hub') := by
  refine (commit_spares (h.grows.wellFormed wf) hchange).mono ?_ ?_
  · exact fun _ _ h' => h.trans wf stable h'.brings
  · rintro fault hub' rfl
    exact h

end Onward

end Commit

/-! ### Declarations -/

section Apply

variable (hub : Hub) (wf : hub.catalog.WellFormed)

include wf

theorem walk_spares (current : ScopeId) (path : String) (names : List String) :
    After (walk current path names) hub (fun _ hub' => hub.Spares hub')
      (fun _ hub' => hub.Spares hub') := by
  induction names generalizing hub current path with
  | nil => exact after_pure _ (.refl hub)
  | cons name names ih =>
    unfold walk
    refine after_catalogNow ?_
    cases hub.catalog.scopes.byName? (Name.join path name) with
    | some id => exact ih hub wf id (Name.join path name)
    | none =>
      refine after_bind ((commit_spares wf
        (Change.declareScope_spares _ wf current name .namespace)).mono ?_ ?_)
      · intro id hub₁ h₁
        refine (ih hub₁ (h₁.grows.wellFormed wf) id (Name.join path name)).mono ?_ ?_
        · exact fun _ _ h => h₁.trans h
        · exact fun _ _ h => h₁.trans h
      · rintro fault hub' rfl
        exact .refl hub'

theorem ensureNamespace_spares (path : String) :
    After (ensureNamespace path) hub (fun _ hub' => hub.Spares hub')
      (fun _ hub' => hub.Spares hub') := by
  cases hknown : hub.catalog.scopes.byName? (Name.stripRoot path) with
  | some id => exact after_of_run (ensureNamespace_again hknown) (.refl hub)
  | none =>
    rw [after_congr (ensureNamespace_of_unknown wf hknown)]
    exact walk_spares hub wf .global "" _

theorem addEnumerators_spares (e : Enumeration) (existing news : List Enumerator) :
    After (addEnumerators e existing news) hub (fun _ hub' => hub.Spares hub')
      (fun _ hub' => hub.Spares hub') := by
  induction news generalizing hub with
  | nil => exact after_pure _ (.refl hub)
  | cons new rest ih =>
    unfold addEnumerators
    split
    · exact ih hub wf
    · refine after_bind ((commit_spares wf
        (Change.addEnumerator_spares _ e new.name new.value)).mono ?_ ?_)
      · intro _ hub₁ h₁
        refine (ih hub₁ (h₁.grows.wellFormed wf)).mono ?_ ?_
        · exact fun _ _ h => h₁.trans h
        · exact fun _ _ h => h₁.trans h
      · rintro fault hub' rfl
        exact .refl hub'

/-! One lemma for each sort of declaration that has several steps. -/

theorem applyClass_brings (sort : ClassSort) (name : String) (key : Option String) (size : Nat) :
    After (apply (.classType sort name key size)) hub
      (fun _ hub' => hub.Brings (fun c => (Declaration.classType sort name key size).Gives hub c)
        hub')
      (fun _ hub' => hub.Brings (fun c => (Declaration.classType sort name key size).Gives hub c)
        hub') := by
  rw [apply_classType_eq]
  refine after_bind ((ensureNamespace_spares hub wf (Name.enclosing name)).and_run.mono ?_
    fun _ _ h => h.brings)
  rintro parent hub₁ ⟨hensured, h₁⟩
  have wf₁ := h₁.grows.wellFormed wf
  refine after_discard (h₁.brings.commit wf (declared_stable hub _) ?_ ?_
    (Change.declareClass_brings _ wf₁ parent (Name.last name) (.ofSymbol key name) sort.kind size))
  · rintro c k n ⟨⟩
    rfl
  · exact fun c n hcarried => .classType hensured hcarried

theorem applyTypedef_brings (name target : String) :
    After (apply (.typedef name target)) hub
      (fun _ hub' => hub.Brings (fun c => (Declaration.typedef name target).Gives hub c) hub')
      (fun _ hub' => hub.Brings (fun c => (Declaration.typedef name target).Gives hub c) hub') := by
  have stable := declared_stable hub (.typedef name target)
  rw [apply_typedef_eq]
  refine after_bind ((requireType_spec hub target).mono ?_ fun _ _ h => .of_eq h)
  rintro t hub₀ ⟨rfl, -⟩
  refine after_bind ((ensureNamespace_spares hub₀ wf (Name.enclosing name)).mono ?_
    fun _ _ h => h.brings)
  intro parent hub₁ h₁
  have wf₁ := h₁.grows.wellFormed wf
  refine after_bind ((h₁.brings.commit wf stable ?_ ?_
    (Change.register_brings _ wf₁ (.named name) .typedef t.size name)).mono ?_ fun _ _ h => h)
  · rintro c k n ⟨⟩
    rfl
  · rintro c n rfl
    exact .typedef
  · exact fun e hub₂ h₂ => h₂.commit_sparing wf stable
      (Change.addMember_spares _ parent (Name.last name) (.type e.handle))

theorem applyEnum_brings (name : String) (key : Option String) (underlying : String)
    (enumerators : List Enumerator) :
    After (apply (.enum name key underlying enumerators)) hub
      (fun _ hub' => hub.Brings
        (fun c => (Declaration.enum name key underlying enumerators).Gives hub c) hub')
      (fun _ hub' => hub.Brings
        (fun c => (Declaration.enum name key underlying enumerators).Gives hub c) hub') := by
  have stable := declared_stable hub (.enum name key underlying enumerators)
  rw [apply_enum_eq]
  refine after_bind ((ensureNamespace_spares hub wf (Name.enclosing name)).and_run.mono ?_
    fun _ _ h => h.brings)
  rintro parent hub₁ ⟨hensured, h₁⟩
  have wf₁ := h₁.grows.wellFormed wf
  refine after_bind ((h₁.brings.commit wf stable ?_ ?_ (Change.buildEnum_brings _ wf₁ parent
    (Name.last name) (.ofSymbol key name) underlying)).mono ?_ fun _ _ h => h)
  · rintro c k n ⟨⟩
    rfl
  · exact fun c n hcarried => .enum hensured hcarried
  · intro en hub₂ h₂
    have wf₂ := h₂.grows.wellFormed wf
    refine after_catalogNow ((addEnumerators_spares hub₂ wf₂ en _ enumerators).mono ?_ ?_)
    · exact fun _ _ h₃ => h₂.trans wf stable h₃.brings
    · exact fun _ _ h₃ => h₂.trans wf stable h₃.brings

theorem applyFunction_brings (scope name signature : String) (modifiers : List String) :
    After (apply (.function scope name signature modifiers)) hub
      (fun _ hub' => hub.Brings
        (fun c => (Declaration.function scope name signature modifiers).Gives hub c) hub')
      (fun _ hub' => hub.Brings
        (fun c => (Declaration.function scope name signature modifiers).Gives hub c) hub') := by
  have stable := declared_stable hub (.function scope name signature modifiers)
  refine after_bind ((requireScope_spec hub scope).mono ?_ fun _ _ h => .of_eq h)
  rintro id hub₀ ⟨rfl, -⟩
  refine after_bind ((requireModifiers_spec hub₀ modifiers).mono ?_ fun _ _ h => .of_eq h)
  rintro m hub₀ ⟨rfl, -⟩
  refine after_bind (((Brings.refl hub₀).commit wf stable ?_ ?_
    (Change.register_brings _ wf (.named signature) .function 0 signature)).mono ?_
      fun _ _ h => h)
  · rintro c k n ⟨⟩
    rfl
  · rintro c n rfl
    exact .function
  · exact fun e hub₁ h₁ => h₁.commit_sparing wf stable
      (Change.addMember_spares _ id name (.function e.handle m))

theorem applyDataMember_brings {gives : Catalog → Key → String → Prop} (stable : Stable gives)
    (scope name type : String) (offset : Nat) (modifiers : List String) :
    After (apply (.dataMember scope name type offset modifiers)) hub
      (fun _ hub' => hub.Brings gives hub') (fun _ hub' => hub.Brings gives hub') := by
  refine after_bind ((requireScope_spec hub scope).mono ?_ fun _ _ h => .of_eq h)
  rintro id hub₀ ⟨rfl, -⟩
  refine after_bind ((requireModifiers_spec hub₀ modifiers).mono ?_ fun _ _ h => .of_eq h)
  rintro m hub₀ ⟨rfl, -⟩
  refine after_bind ((requireType_spec hub₀ type).mono ?_ fun _ _ h => .of_eq h)
  rintro e hub₀ ⟨rfl, -⟩
  exact (Brings.refl hub₀).commit_sparing wf stable
    (Change.addMember_spares _ id name (.dataMember e.handle offset m))

/-- Each declaration registers at most one type by itself, and the steps around that spare types. -/
theorem apply_brings (d : Declaration) :
    After (apply d) hub (fun _ hub' => hub.Brings (fun c => d.Gives hub c) hub')
      (fun _ hub' => hub.Brings (fun c => d.Gives hub c) hub') := by
  have stable := declared_stable hub d
  cases d with
  | fundamental name size =>
    refine after_discard ((Brings.refl hub).commit wf stable ?_ ?_
      (Change.fundamental_brings _ wf (.named name) name size))
    · rintro c k n ⟨⟩
      rfl
    · rintro c n rfl
      exact .fundamental
  | «namespace» name =>
    refine after_discard ((ensureNamespace_spares hub wf name).mono ?_ ?_)
    · exact fun _ _ h => h.brings
    · exact fun _ _ h => h.brings
  | classType sort name key size => exact applyClass_brings hub wf sort name key size
  | typedef name target => exact applyTypedef_brings hub wf name target
  | pointer target =>
    refine after_bind (after_discard ((requireType_spec hub target).mono ?_ fun _ _ h => .of_eq h))
    rintro t hub₀ ⟨rfl, -⟩
    refine after_discard ((Brings.refl hub₀).commit wf stable ?_ ?_ (Change.register_brings _ wf
      (.named (Declaration.pointerName target)) .pointer pointerSize
        (Declaration.pointerName target)))
    · rintro c k n ⟨⟩
      rfl
    · rintro c n rfl
      exact .pointer
  | enum name key underlying enumerators =>
    exact applyEnum_brings hub wf name key underlying enumerators
  | function scope name signature modifiers =>
    exact applyFunction_brings hub wf scope name signature modifiers
  | dataMember scope name type offset modifiers =>
    exact applyDataMember_brings hub wf stable scope name type offset modifiers

end Apply

end Hub

end TypeCatalog
