import TypeCatalog.Hub.Basic
import TypeCatalog.Proofs.Changes

/-!
# Committing a change

Observers may echo what they are told of, so a commit can register more types than the change did.
They are registered in the same way as all others: a commit makes the catalog grow if its change
does.
-/

namespace TypeCatalog.Hub

variable (allowed : String → Prop)

/-! ## Telling the observers -/

theorem cast_growsTo (hub : Hub) (wf : hub.catalog.WellFormed) (shadow : Option (Entry × String)) :
    hub.catalog.GrowsTo allowed (hub.cast shadow).1.catalog := by
  unfold cast
  split
  · exact .refl _
  · next entry name =>
    have h := Change.register_grows allowed ⟨hub.catalog, []⟩ wf (.named name) entry.kind
      entry.size name
    split
    · next e d hrun => exact (h.at_ok hrun).1.catalog
    · next fault d hrun =>
      rw [h.at_error hrun]
      exact .refl _

/-- What handing one event to one observer keeps, handing out keeps. Of the observers it is known
that they are among the `listeners`. -/
theorem handOut_keeps (hand : Event → Hub → Subscription → Hub) {events : List Event}
    (listeners : Subscription → Prop) (holds : Hub → Prop)
    (known : ∀ {hub}, holds hub → ∀ s ∈ hub.subscriptions, listeners s)
    (keeps : ∀ {hub}, ∀ event ∈ events, ∀ s, listeners s → holds hub → holds (hand event hub s))
    {hub : Hub} (h : holds hub) : holds (handOut hand hub events) := by
  refine List.foldlRecOn events _ h ?_
  intro hub h event hevent
  refine List.foldlRecOn (hub.interested event) _ h ?_
  intro hub' h' s hs
  exact keeps event hevent s (known h s (List.mem_filter.1 hs).1) h'

theorem deliver_growsTo {tell : Hub → List Event → Hub}
    (htell : ∀ (hub : Hub) events, hub.catalog.WellFormed →
      hub.catalog.GrowsTo allowed (tell hub events).catalog)
    (event : Event) (hub : Hub) (s : Subscription) (wf : hub.catalog.WellFormed) :
    hub.catalog.GrowsTo allowed (deliver tell event hub s).catalog := by
  have hcast := cast_growsTo allowed (hear event hub s) wf (s.shadow? event)
  exact hcast.trans (htell _ _ (hcast.wellFormed wf))

theorem announce_growsTo (levels : Nat) (hub : Hub) (events : List Event)
    (wf : hub.catalog.WellFormed) :
    hub.catalog.GrowsTo allowed (announce levels hub events).catalog := by
  induction levels generalizing hub events with
  | zero =>
    exact handOut_keeps hear (fun _ => True)
      (fun hub' => hub.catalog.GrowsTo allowed hub'.catalog) (fun _ _ _ => trivial)
      (fun _ _ _ _ h => h) (.refl _)
  | succ levels ih =>
    refine handOut_keeps (deliver (announce levels)) (fun _ => True)
      (fun hub' => hub.catalog.GrowsTo allowed hub'.catalog) (fun _ _ _ => trivial) ?_ (.refl _)
    intro hub' event _ s _ h
    exact h.trans (deliver_growsTo allowed ih event hub' s (h.wellFormed wf))

theorem tell_growsTo (hub : Hub) (events : List Event) (wf : hub.catalog.WellFormed) :
    hub.catalog.GrowsTo allowed (hub.tell events).catalog :=
  announce_growsTo allowed _ hub events wf

theorem announce_nil (levels : Nat) (hub : Hub) : announce levels hub [] = hub := by
  cases levels <;> rfl

theorem tell_nil (hub : Hub) : hub.tell [] = hub := announce_nil _ hub

theorem deliver_silent {levels : Nat} {event : Event} {s : Subscription}
    (silent : s.shadow? event = none) (hub : Hub) :
    deliver (announce levels) event hub s = hear event hub s := by
  unfold deliver
  simp only [silent, cast, announce_nil]

theorem announce_silent (levels : Nat) (hub : Hub) (events : List Event)
    (silent : ∀ event ∈ events, ∀ s ∈ hub.subscriptions, s.shadow? event = none) :
    (announce levels hub events).catalog = hub.catalog ∧
      (announce levels hub events).subscriptions = hub.subscriptions := by
  have settle : ∀ hand : Event → Hub → Subscription → Hub,
      (∀ event ∈ events, ∀ s ∈ hub.subscriptions, ∀ hub', hand event hub' s = hear event hub' s) →
        (handOut hand hub events).catalog = hub.catalog ∧
          (handOut hand hub events).subscriptions = hub.subscriptions := by
    intro hand hhand
    refine handOut_keeps hand (· ∈ hub.subscriptions)
      (fun hub' => hub'.catalog = hub.catalog ∧ hub'.subscriptions = hub.subscriptions)
      (fun h s hs => h.2 ▸ hs) ?_ ⟨rfl, rfl⟩
    intro hub' event hevent s hs h
    rw [hhand event hevent s hs]
    exact h
  cases levels with
  | zero => exact settle hear fun _ _ _ _ _ => rfl
  | succ levels =>
    exact settle (deliver (announce levels)) fun event hevent s hs hub' =>
      deliver_silent (silent event hevent s hs) hub'

/-! ## Committing -/

section Commit

variable {α : Type} {change : Change α} {hub : Hub}

theorem run_commit : EStateM.run (commit change) hub =
    match EStateM.run change ⟨hub.catalog, []⟩ with
    | .ok a d => .ok a ({ hub with catalog := d.catalog }.tell d.events)
    | .error fault d => .error fault ({ hub with catalog := d.catalog }.tell d.events) := rfl

theorem after_commit {done : α → Hub → Prop} {failed : Fault → Hub → Prop}
    (h : After change ⟨hub.catalog, []⟩
      (fun a d => done a ({ hub with catalog := d.catalog }.tell d.events))
      (fun fault d => failed fault ({ hub with catalog := d.catalog }.tell d.events))) :
    After (commit change) hub done failed := by
  unfold After at h ⊢
  rw [run_commit]
  cases hrun : EStateM.run change ⟨hub.catalog, []⟩ with
  | ok a d => rw [hrun] at h; exact h
  | error fault d => rw [hrun] at h; exact h

/-- A change that only adds, and that changes nothing if it fails, is committed as a whole or not at
all. What it has established in the catalog must survive the echoes. -/
theorem commit_grows (wf : hub.catalog.WellFormed) (holds : α → Catalog → Prop)
    (stays : ∀ {a c c'}, Catalog.Extends c c' → holds a c → holds a c')
    (h : After change ⟨hub.catalog, []⟩
      (fun a d => Draft.Grows allowed ⟨hub.catalog, []⟩ d ∧ holds a d.catalog)
      (fun _ d => d = ⟨hub.catalog, []⟩)) :
    After (commit change) hub
      (fun a hub' => hub.catalog.GrowsTo allowed hub'.catalog ∧ holds a hub'.catalog)
      (fun _ hub' => hub' = hub) := by
  refine after_commit (h.mono ?_ ?_)
  · rintro a d ⟨hgrows, ha⟩
    have wf' := hgrows.catalog.wellFormed wf
    have htell := tell_growsTo allowed { hub with catalog := d.catalog } d.events wf'
    exact ⟨hgrows.catalog.trans htell, stays (htell.keeps wf') ha⟩
  · rintro fault d rfl
    exact tell_nil hub

theorem commit_again {a : α} (h : EStateM.run change ⟨hub.catalog, []⟩ = .ok a ⟨hub.catalog, []⟩) :
    EStateM.run (commit change) hub = .ok a hub := by
  rw [run_commit, h]
  simp only
  rw [tell_nil]

end Commit

end TypeCatalog.Hub
