import Mathlib.Data.Finset.Card
import TypeCatalog.Proofs.Indices

/-!
# Answers are final

A catalog only grows: types, scopes and members stay in their places, and what was once an answer
stays the answer. So the first registration under a key decides about all later ones.
-/

namespace TypeCatalog

/-- The later catalog has all that the earlier one has, and gives all of its answers again. -/
structure Catalog.AnswersStay (c c' : Catalog) : Prop where
  types : c.types.entries <+: c'.types.entries
  scopes : c.scopes.size ≤ c'.scopes.size
  scope : ∀ {id info}, c.scopes.info? id = some info → ∃ info', c'.scopes.info? id = some info' ∧
    info'.name = info.name ∧ info'.qualified = info.qualified ∧ info'.kind = info.kind ∧
      info'.parent = info.parent ∧ ∀ h, info.facet = some h → info'.facet = some h
  members : ∀ {id ms}, c.scopes.members? id = some ms →
    ∃ ms', c'.scopes.members? id = some ms' ∧ ms <+: ms'
  byType : ∀ {h id}, c.scopes.byType? h = some id → c'.scopes.byType? h = some id
  byName : ∀ {name id}, c.scopes.byName? name = some id → c'.scopes.byName? name = some id
  byKey : ∀ {key e}, c.types.lookup? key = some e → c'.types.lookup? key = some e
  underlying : ∀ {h base}, c.underlying.get? h = some base → c'.underlying.get? h = some base

theorem Catalog.Extends.answersStay {c c' : Catalog} (h : c.Extends c') : c.AnswersStay c' where
  types := h.types.entries
  scopes := by
    by_contra hless
    obtain ⟨s, hs⟩ : ∃ s, c.scopes.get? ⟨c'.scopes.size⟩ = some s :=
      ⟨_, List.getElem?_eq_getElem (by exact Nat.not_le.1 hless)⟩
    obtain ⟨s', hs', -⟩ := h.scopes.scope hs
    exact absurd (ScopeTree.get?_lt hs') (Nat.lt_irrefl _)
  scope := by
    intro id info hinfo
    obtain ⟨s, hs, rfl⟩ := Option.map_eq_some_iff.1 hinfo
    obtain ⟨s', hs', he⟩ := h.scopes.scope hs
    refine ⟨_, by rw [ScopeTree.info?, hs']; rfl, he.name, he.qualified, he.kind, he.parent, ?_⟩
    exact fun _ hfacet => he.facet hfacet
  members := by
    intro id ms hms
    obtain ⟨s, hs, rfl⟩ := Option.map_eq_some_iff.1 hms
    obtain ⟨s', hs', he⟩ := h.scopes.scope hs
    exact ⟨_, by rw [ScopeTree.members?, hs']; rfl, he.members⟩
  byType := fun hid => h.scopes.byType hid
  byName := fun hid => h.scopes.byName? hid
  byKey := fun he => h.types.lookup? he
  underlying := fun hbase => h.underlying hbase

/-! ## The first registration decides -/

/-- What a caller asks for who registers a type. -/
structure Registration where
  key : Key
  kind : TypeKind
  size : Nat
  name : String

namespace Registration

def operation (r : Registration) : Operation := .register r.key r.kind r.size r.name

def Fits (r first : Registration) : Prop := r.kind = first.kind ∧ r.size = first.size

end Registration

namespace Hub

/-- No observer echoes. -/
def Quiet (hub : Hub) : Prop := ∀ s ∈ hub.subscriptions, s.echo = none

theorem tell_quiet {hub : Hub} (quiet : hub.Quiet) (c : Catalog) (events : List Event) :
    ({ hub with catalog := c }.tell events).catalog = c ∧
      ({ hub with catalog := c }.tell events).subscriptions = hub.subscriptions := by
  refine announce_silent _ { hub with catalog := c } events ?_
  intro event _ s hs
  unfold Subscription.shadow?
  rw [quiet s hs]
  split
  · rfl
  · rfl

theorem register_quiet {hub : Hub} (quiet : hub.Quiet) (r : Registration) :
    After (perform r.operation) hub
      (fun _ hub' => hub'.subscriptions = hub.subscriptions ∧
        (hub'.catalog = hub.catalog ∧ (∃ e, hub.catalog.types.HasType r.key r.kind r.size e) ∨
          hub.catalog.types.lookup? r.key = none ∧ hub'.catalog = { hub.catalog with
            types := (hub.catalog.types.push r.key r.kind r.size r.name).2 }))
      (fun _ hub' => hub' = hub ∧ ∃ e, hub.catalog.types.lookup? r.key = some e ∧
        ¬(e.kind = r.kind ∧ e.size = r.size)) := by
  refine after_answer .entry (after_commit ((Change.register_spec _ _ _ _ _).mono ?_ ?_))
  · rintro e d (⟨rfl, hfound⟩ | ⟨hfree, rfl, rfl⟩)
    · rw [tell_nil]
      exact ⟨rfl, .inl ⟨rfl, e, hfound⟩⟩
    · obtain ⟨hcatalog, hobservers⟩ := tell_quiet quiet _ _
      exact ⟨hobservers, .inr ⟨hfree, hcatalog⟩⟩
  · rintro fault d ⟨rfl, hother⟩
    exact ⟨tell_nil hub, hother⟩

/-- The types are those of the first registrations under each key. -/
structure Knows (hub : Hub) (rs : List Registration) : Prop where
  wellFormed : hub.catalog.WellFormed
  quiet : hub.Quiet
  firsts : ∀ key, (hub.catalog.types.lookup? key).map (fun e => (e.kind, e.size)) =
    (rs.find? (·.key = key)).map fun r => (r.kind, r.size)

theorem find?_concat (rs : List Registration) (r : Registration) (key : Key) :
    (rs ++ [r]).find? (·.key = key) =
      (rs.find? (·.key = key)).or (if r.key = key then some r else none) := by
  rw [List.find?_append]
  by_cases hkey : r.key = key
  · simp [hkey]
  · simp [hkey]

theorem Knows.again {hub hub' : Hub} {rs : List Registration} (h : hub.Knows rs) {r : Registration}
    {e : Entry} (known : hub.catalog.types.lookup? r.key = some e)
    (catalog : hub'.catalog = hub.catalog) (observers : hub'.subscriptions = hub.subscriptions) :
    hub'.Knows (rs ++ [r]) where
  wellFormed := by rw [catalog]; exact h.wellFormed
  quiet := by rw [Quiet, observers]; exact h.quiet
  firsts := by
    intro key
    rw [catalog, h.firsts key, find?_concat]
    cases hfirst : rs.find? (·.key = key) with
    | some first => rfl
    | none =>
      have hother : r.key ≠ key := by
        rintro rfl
        have hknown := h.firsts r.key
        rw [known, hfirst] at hknown
        cases hknown
      rw [if_neg hother]
      rfl

theorem Knows.step {hub : Hub} {rs : List Registration} (h : hub.Knows rs) (r : Registration) :
    (hub.execute r.operation).2.Knows (rs ++ [r]) ∧
      ((∃ answer, (hub.execute r.operation).1 = .ok answer) ↔
        ∀ first, rs.find? (·.key = r.key) = some first → r.Fits first) := by
  have hfirst := h.firsts r.key
  rcases execute_ends (register_quiet h.quiet r) with
    ⟨hok, hobservers, ⟨hcatalog, e, he⟩ | ⟨hfree, hcatalog⟩⟩ |
      ⟨⟨fault, hfault⟩, hsame, e, he, hother⟩
  · refine ⟨h.again he.found hcatalog hobservers, iff_of_true hok ?_⟩
    intro first hfind
    rw [he.found, hfind] at hfirst
    obtain ⟨hkind, hsize⟩ := Prod.mk.inj (Option.some.inj hfirst)
    exact ⟨he.kind.symm.trans hkind, he.size.symm.trans hsize⟩
  · have hnone : rs.find? (·.key = r.key) = none := by
      rw [hfree] at hfirst
      exact Option.map_eq_none_iff.1 hfirst.symm
    refine ⟨⟨execute_wellFormed hub h.wellFormed _, ?_, ?_⟩, iff_of_true hok ?_⟩
    · rw [Quiet, hobservers]
      exact h.quiet
    · intro key
      rw [hcatalog, Registry.lookup?_push h.wellFormed.types hfree, find?_concat]
      by_cases hkey : key = r.key
      · rw [if_pos hkey, if_pos hkey.symm, hkey, hnone]
        rfl
      · rw [if_neg hkey, if_neg (Ne.symm hkey), Option.or_none]
        exact h.firsts key
    · intro first hfind
      rw [hnone] at hfind
      cases hfind
  · refine ⟨h.again he (congrArg _ hsame) (congrArg _ hsame), iff_of_false ?_ ?_⟩
    · rintro ⟨answer, hok⟩
      rw [hfault] at hok
      cases hok
    · intro hfits
      rw [he] at hfirst
      obtain ⟨first, hfind, hpair⟩ := Option.map_eq_some_iff.1 hfirst.symm
      obtain ⟨hkind, hsize⟩ := Prod.mk.inj hpair
      obtain ⟨hk, hs⟩ := hfits first hfind
      exact hother ⟨(hk.trans hkind).symm, (hs.trans hsize).symm⟩

theorem Knows.run {hub : Hub} {rs : List Registration} (h : hub.Knows rs)
    (more : List Registration) : (hub.run (more.map (·.operation))).Knows (rs ++ more) := by
  induction more generalizing hub rs with
  | nil =>
    rw [List.append_nil]
    exact h
  | cons r more ih =>
    have hrest := ih (h.step r).1
    rw [List.append_assoc] at hrest
    exact hrest

theorem Knows.mem_keys {hub : Hub} {rs : List Registration} (h : hub.Knows rs) (key : Key) :
    key ∈ rs.map (·.key) ↔ key ∈ hub.catalog.types.entries.map (·.key) := by
  have wf := h.wellFormed.types
  have hfirst := h.firsts key
  constructor
  · intro hmem
    obtain ⟨r, hr, rfl⟩ := List.mem_map.1 hmem
    cases hlookup : hub.catalog.types.lookup? r.key with
    | none =>
      rw [hlookup] at hfirst
      have hnone := List.find?_eq_none.1 (Option.map_eq_none_iff.1 hfirst.symm) r hr
      simp at hnone
    | some e =>
      have hkey := ((Registry.lookup?_eq_some_iff wf).1 hlookup).2
      exact List.mem_map.2 ⟨e, Registry.mem_of_lookup? hlookup, hkey⟩
  · intro hmem
    obtain ⟨e, he, rfl⟩ := List.mem_map.1 hmem
    rw [Registry.lookup?_of_mem wf he] at hfirst
    obtain ⟨first, hfind, -⟩ := Option.map_eq_some_iff.1 hfirst.symm
    have hkey : first.key = e.key := by simpa using List.find?_some hfind
    exact List.mem_map.2 ⟨first, List.mem_of_find?_eq_some hfind, hkey⟩

theorem Knows.size_eq {hub : Hub} {rs : List Registration} (h : hub.Knows rs) :
    hub.catalog.types.size = (rs.map (·.key)).toFinset.card := by
  have hkeys : (rs.map (·.key)).toFinset = (hub.catalog.types.entries.map (·.key)).toFinset := by
    ext key
    rw [List.mem_toFinset, List.mem_toFinset, h.mem_keys]
  rw [hkeys, List.toFinset_card_of_nodup (Registry.keys_nodup h.wellFormed.types), List.length_map]
  rfl

/-- Of the registrations under one key, those succeed that fit the first one, and only the first one
makes a type. -/
structure FirstDecides (hub : Hub) (rs : List Registration) : Prop where
  answers : ∀ before r after first, rs = before ++ r :: after →
    rs.find? (·.key = r.key) = some first →
      ((∃ answer, ((hub.run (before.map (·.operation))).execute r.operation).1 = .ok answer) ↔
        r.Fits first)
  count : (hub.run (rs.map (·.operation))).catalog.types.size = (rs.map (·.key)).toFinset.card

theorem first_decides {hub : Hub} (quiet : hub.Quiet) {settings : CatalogSettings}
    (empty : hub.catalog = .empty settings) (rs : List Registration) : hub.FirstDecides rs := by
  have hnothing : hub.Knows [] := by
    refine ⟨?_, quiet, ?_⟩
    · rw [empty]
      exact Catalog.empty_wellFormed settings
    · intro key
      rw [empty]
      rfl
  refine ⟨?_, (hnothing.run rs).size_eq⟩
  rintro before r after first rfl hfind
  rw [((hnothing.run before).step r).2, List.nil_append]
  rw [List.find?_append] at hfind
  cases hbefore : before.find? (·.key = r.key) with
  | some first' =>
    rw [hbefore] at hfind
    obtain rfl := Option.some.inj hfind
    simp
  | none =>
    -- No earlier one has the key, so this is the first one.
    rw [hbefore] at hfind
    obtain rfl : r = first := by simpa using hfind
    simp [Registration.Fits]

/-- Whatever is done to a catalog, its answers stay, also those by name unless types are hidden or
shown. For registrations in an empty catalog the first one under each key decides. -/
theorem answers_are_final (settings : CatalogSettings) (before after : List Operation) :
    ((ofSettings settings).run before).catalog.AnswersStay
        ((ofSettings settings).run (before ++ after)).catalog ∧
      ((∀ op ∈ after, op.KeepsVisibility) → ∀ name e,
        ((ofSettings settings).run before).catalog.types.lookupName? name = some e →
          ((ofSettings settings).run (before ++ after)).catalog.types.lookupName? name = some e) ∧
      ∀ (hub : Hub) (rs : List Registration), hub.Quiet → hub.catalog = .empty settings →
        hub.FirstDecides rs := by
  have wf := run_wellFormed (ofSettings settings) (Catalog.empty_wellFormed settings) before
  rw [run_append]
  refine ⟨(run_extends _ wf after).answersStay, ?_, ?_⟩
  · intro visible name e he
    exact (run_growsTo _ wf visible).lookupName? wf he
  · exact fun hub rs quiet empty => first_decides quiet empty rs

/-- An observer that hears of everything and echoes nothing. -/
def listened : Hub := ((ofSettings Settings.default.catalog).subscribe .all none).2

def wide : Registration := ⟨.named "T", .class, 8, "T"⟩

/-- The same key with another size. -/
def narrow : Registration := ⟨.named "T", .class, 4, "T"⟩

/-- The same name under another key. -/
def namesake : Registration := ⟨.mangled "1T", .struct, 4, "T"⟩

theorem wide_stays :
    ((ofSettings Settings.default.catalog).run
        [wide.operation, namesake.operation]).catalog.types.lookupName? "::T" =
          some ⟨⟨0⟩, .named "T", .class, 8, "T"⟩ ∧
      (listened.run
        ([wide, narrow, namesake, wide].map (·.operation))).catalog.types.size = 2 ∧
      (¬∃ answer, ((listened.run [wide.operation]).execute narrow.operation).1 = .ok answer) ∧
      ∃ answer, ((listened.run
        ([wide, narrow, namesake].map (·.operation))).execute wide.operation).1 = .ok answer := by
  have quiet : listened.Quiet := by
    intro s hs
    rw [List.mem_singleton.1 hs]
  obtain ⟨-, hnames, hfirst⟩ :=
    answers_are_final Settings.default.catalog [wide.operation] [namesake.operation]
  have hkeeps : ∀ op ∈ [namesake.operation], op.KeepsVisibility := by
    intro op hop
    rw [List.mem_singleton.1 hop]
    trivial
  have hdecides := hfirst listened [wide, narrow, namesake, wide] quiet rfl
  refine ⟨hnames hkeeps "::T" _ (by decide +kernel), hdecides.count.trans (by decide), ?_, ?_⟩
  · intro hnarrow
    have hfits := (hdecides.answers [wide] narrow [namesake, wide] wide rfl rfl).1 hnarrow
    exact absurd hfits.2 (by decide)
  · exact (hdecides.answers [wide, narrow, namesake] wide [] wide rfl rfl).2 ⟨rfl, rfl⟩

end Hub

end TypeCatalog
