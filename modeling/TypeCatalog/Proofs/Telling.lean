import TypeCatalog.Proofs.Mirror

/-!
# The events tell everything

An observer that wants every event, echoes nothing and has subscribed before all that echo hears of
each registration and each binding exactly once, in an order in which they can be replayed.
-/

namespace TypeCatalog

namespace Hub

/-- What an observer was told, oldest first. -/
def heard (hub : Hub) (id : SubscriptionId) : List Event :=
  (hub.delivered.filter (·.observer = id)).map (·.event)

/-- An observer of every event that echoes nothing, and is told before those that do. -/
structure ListensFirst (hub : Hub) (id : SubscriptionId) : Prop where
  first : ∃ earlier later, hub.subscriptions = earlier ++ ⟨id, .all, none⟩ :: later ∧
    (∀ s ∈ earlier, s.id ≠ id ∧ s.echo = none) ∧ ∀ s ∈ later, s.id ≠ id
  next : id.index < hub.nextSubscription

/-- The observer has heard the `old` events and more. What it has heard and what it is yet to hear
tell all of the catalog, and nothing twice. -/
structure Follows (id : SubscriptionId) (old pending : List Event) (hub : Hub) : Prop where
  listens : hub.ListensFirst id
  kept : old <+: hub.heard id
  mirror : hub.catalog.mirror = Mirror.empty.replay (hub.heard id ++ pending)
  extent : hub.catalog.extent = (hub.heard id ++ pending).length

variable {id : SubscriptionId} {old : List Event}

/-! ## Hearing -/

theorem heard_hear (hub : Hub) (event : Event) (s : Subscription) :
    (hear event hub s).heard id = hub.heard id ++ if s.id = id then [event] else [] := by
  simp only [heard, hear, List.filter_append, List.map_append]
  by_cases h : s.id = id <;> simp [h]

theorem Follows.hear_next {event : Event} {rest : List Event} {hub : Hub}
    (h : Follows id old (event :: rest) hub) :
    Follows id old rest (hear event hub ⟨id, .all, none⟩) := by
  have hheard : (hear event hub ⟨id, .all, none⟩).heard id = hub.heard id ++ [event] := by
    rw [heard_hear, if_pos rfl]
  have hall : hub.heard id ++ [event] ++ rest = hub.heard id ++ event :: rest := by
    rw [List.append_assoc, List.singleton_append]
  refine ⟨⟨h.listens.first, h.listens.next⟩, ?_, ?_, ?_⟩
  · rw [hheard]
    exact h.kept.trans (List.prefix_append _ _)
  · rw [hheard, hall]
    exact h.mirror
  · rw [hheard, hall]
    exact h.extent

theorem Follows.hear_other {event : Event} {pending : List Event} {hub : Hub}
    (h : Follows id old pending hub) {s : Subscription} (hs : s.id ≠ id) :
    Follows id old pending (hear event hub s) := by
  have hheard : (hear event hub s).heard id = hub.heard id := by
    rw [heard_hear, if_neg hs, List.append_nil]
  refine ⟨⟨h.listens.first, h.listens.next⟩, ?_, ?_, ?_⟩
  · rw [hheard]
    exact h.kept
  · rw [hheard]
    exact h.mirror
  · rw [hheard]
    exact h.extent

/-- A commit or a shadow has grown the catalog, and its events are to be told. -/
theorem Follows.grow {events pending : List Event} {hub : Hub} (h : Follows id old pending hub)
    {c : Catalog} (hgrows : hub.catalog.Grows (fun _ => True) events c) :
    Follows id old (pending ++ events) { hub with catalog := c } := by
  refine ⟨⟨h.listens.first, h.listens.next⟩, h.kept, ?_, ?_⟩
  · show c.mirror = Mirror.empty.replay (hub.heard id ++ (pending ++ events))
    rw [hgrows.mirror, h.mirror, ← Mirror.replay_append, List.append_assoc]
  · show c.extent = (hub.heard id ++ (pending ++ events)).length
    rw [hgrows.extent, h.extent, ← List.length_append, List.append_assoc]

/-- The event of a shadow may be told at once if no other type is yet to be told of. -/
theorem Follows.first {entry : Entry} {pending : List Event} {hub : Hub}
    (h : Follows id old (pending ++ [.typeRegistered entry]) hub)
    (typeless : Event.entries pending = []) :
    Follows id old (.typeRegistered entry :: pending) hub := by
  refine ⟨h.listens, h.kept, ?_, ?_⟩
  · rw [h.mirror, Mirror.replay_append, Mirror.replay_append, Mirror.replay_append]
    exact Mirror.replay_comm _ entry typeless
  · rw [h.extent]
    simp

/-! ## Telling -/

theorem handOut_follows (hand : Event → Hub → Subscription → Hub)
    (passive : ∀ event hub s, s.echo = none → hand event hub s = hear event hub s)
    (others : ∀ {event pending hub s}, s.id ≠ id →
      (Event.entries (event :: pending)).length ≤ 1 → Follows id old pending hub →
        Follows id old pending (hand event hub s))
    {events later : List Event} {hub : Hub} (h : Follows id old (events ++ later) hub)
    (single : (Event.entries (events ++ later)).length ≤ 1) :
    Follows id old later (handOut hand hub events) := by
  induction events generalizing hub with
  | nil => exact h
  | cons event rest ih =>
    obtain ⟨before, after, hsubscriptions, hbefore, hafter⟩ := h.listens.first
    have hwants : Selection.all.wants event = true := by cases event <;> rfl
    have hinterested : hub.interested event = before.filter (·.selection.wants event) ++
        ⟨id, .all, none⟩ :: after.filter (·.selection.wants event) := by
      rw [interested, hsubscriptions, List.filter_append]
      exact congrArg _ (List.filter_cons_of_pos hwants)
    have hevent : Follows id old (rest ++ later)
        ((hub.interested event).foldl (hand event) hub) := by
      rw [hinterested, List.foldl_append, List.foldl_cons, passive _ _ _ rfl]
      refine List.foldlRecOn _ _ (Follows.hear_next ?_) ?_
      · -- Until the listener is told, the event is pending.
        refine List.foldlRecOn _ _ h ?_
        intro hub' h' s hs
        obtain ⟨hid, hecho⟩ := hbefore s (List.mem_filter.1 hs).1
        rw [passive _ _ _ hecho]
        exact h'.hear_other hid
      · intro hub' h' s hs
        exact others (hafter s (List.mem_filter.1 hs).1) single h'
    refine ih hevent ?_
    -- There are no more types among fewer events.
    refine le_trans (List.Sublist.length_le ?_) single
    exact (List.sublist_cons_self event (rest ++ later)).filterMap Event.entry?

/-- A shadow is there already, cannot be registered, or is a type that is yet to be told of. -/
theorem cast_follows {pending : List Event} {hub : Hub} (h : Follows id old pending hub)
    (typeless : Event.entries pending = []) (entry : Entry) (name : String) :
    Follows id old ((hub.cast (some (entry, name))).2 ++ pending)
        (hub.cast (some (entry, name))).1 ∧
      (Event.entries ((hub.cast (some (entry, name))).2 ++ pending)).length ≤ 1 := by
  have hregister := Change.register_spec ⟨hub.catalog, []⟩ (.named name) entry.kind entry.size name
  unfold cast
  simp only
  split
  · next e d hrun =>
    rcases hregister.at_ok hrun with ⟨rfl, -⟩ | ⟨free, rfl, rfl⟩
    · exact ⟨h, by simp [typeless]⟩
    · have hgrown := h.grow
        (Catalog.Grows.single (.type hub.catalog entry.kind entry.size name free))
      refine ⟨hgrown.first typeless, ?_⟩
      simp only [List.nil_append, Event.entries, List.filterMap_append, List.length_append]
      rw [← Event.entries, ← Event.entries, typeless]
      exact Nat.le_refl 1
  · next fault d hrun =>
    rw [(hregister.at_error hrun).1]
    exact ⟨h, by simp [typeless]⟩

theorem entry?_of_shadow {s : Subscription} {event : Event} {entry : Entry} {name : String}
    (h : s.shadow? event = some (entry, name)) : event.entry? = some entry := by
  cases event with
  | typeRegistered e =>
    unfold Subscription.shadow? at h
    cases hecho : s.echo with
    | none =>
      simp only [hecho] at h
      cases h
    | some suffix =>
      simp only [hecho] at h
      split at h
      · cases h
      · rw [Event.entry?, (Prod.mk.inj (Option.some.inj h)).1]
  | scopeDeclared info => cases h
  | memberAdded scope name m => cases h

theorem shadow?_of_passive {s : Subscription} (h : s.echo = none) (event : Event) :
    s.shadow? event = none := by
  cases event with
  | typeRegistered entry =>
    unfold Subscription.shadow?
    rw [h]
  | scopeDeclared info => rfl
  | memberAdded scope name m => rfl

theorem announce_follows (levels : Nat) {hub : Hub} {events later : List Event}
    (h : Follows id old (events ++ later) hub)
    (single : (Event.entries (events ++ later)).length ≤ 1) :
    Follows id old later (announce levels hub events) := by
  induction levels generalizing hub events later with
  | zero =>
    exact handOut_follows hear (fun _ _ _ _ => rfl) (fun hs _ h => h.hear_other hs) h single
  | succ levels ih =>
    refine handOut_follows (deliver (announce levels)) ?_ ?_ h single
    · intro event hub s hs
      exact deliver_silent (shadow?_of_passive hs event) hub
    · intro event pending hub s hs single h
      cases hshadow : s.shadow? event with
      | none =>
        rw [deliver_silent hshadow]
        exact h.hear_other hs
      | some shadow =>
        obtain ⟨entry, name⟩ := shadow
        have htypeless : Event.entries pending = [] := by
          rw [Event.entries, List.filterMap_cons_some (entry?_of_shadow hshadow)] at single
          exact List.length_eq_zero_iff.1 (Nat.le_zero.1 (Nat.le_of_succ_le_succ single))
        obtain ⟨hcast, hsingle⟩ := cast_follows (h.hear_other hs) htypeless entry name
        unfold deliver
        rw [hshadow]
        exact ih hcast hsingle

/-! ## Single operations -/

theorem commit_follows {α : Type} {change : Change α} {hub : Hub} (h : Follows id old [] hub)
    (hchange : After change ⟨hub.catalog, []⟩ (fun _ d => d.Tells hub.catalog)
      (fun _ d => d = ⟨hub.catalog, []⟩)) :
    After (commit change) hub (fun _ hub' => Follows id old [] hub')
      (fun _ hub' => hub' = hub) := by
  refine after_commit (hchange.mono ?_ ?_)
  · intro a d hd
    refine announce_follows _ ?_ ?_
    · rw [List.append_nil]
      exact h.grow hd.grows
    · rw [List.append_nil]
      exact hd.single
  · rintro fault d rfl
    exact tell_nil hub

theorem commit_brings_follows {α : Type} {change : Change α} {hub : Hub}
    (wf : hub.catalog.WellFormed) {key : Key} {given : Catalog → String → Prop}
    (hchange : After change ⟨hub.catalog, []⟩
      (fun _ d => Draft.Brings key given ⟨hub.catalog, []⟩ d) (fun _ d => d = ⟨hub.catalog, []⟩))
    (h : Follows id old [] hub) :
    After (commit change) hub (fun _ hub' => Follows id old [] hub') (fun _ hub' => hub' = hub) :=
  commit_follows h (hchange.mono (fun _ _ hd => hd.tells wf) fun _ _ hd => hd)

theorem commit_spares_follows {α : Type} {change : Change α} {hub : Hub}
    (hchange : After change ⟨hub.catalog, []⟩ (fun _ d => Draft.Spares ⟨hub.catalog, []⟩ d)
      (fun _ d => d = ⟨hub.catalog, []⟩)) (h : Follows id old [] hub) :
    After (commit change) hub (fun _ hub' => Follows id old [] hub') (fun _ hub' => hub' = hub) :=
  commit_follows h (hchange.mono (fun _ _ hd => hd.tells) fun _ _ hd => hd)

theorem perform_follows {hub : Hub} (wf : hub.catalog.WellFormed) {op : Operation}
    (adds : op.Adds fun _ => True) (h : Follows id old [] hub) :
    After (perform op) hub (fun _ hub' => Follows id old [] hub') (fun _ hub' => hub' = hub) := by
  cases op with
  | register key kind size name =>
    exact after_answer .entry
      (commit_brings_follows wf (Change.register_brings _ wf key kind size name) h)
  | declareScope parent name kind =>
    exact after_answer .scope
      (commit_spares_follows (Change.declareScope_spares _ wf parent name kind) h)
  | addMember scope name m =>
    exact after_answer (fun _ => .done)
      (commit_spares_follows (Change.addMember_spares _ scope name m) h)
  | attachType scope handle =>
    exact after_answer (fun _ => .done)
      (commit_spares_follows (Change.attachType_spares _ scope handle) h)
  | declareClass parent name key kind size =>
    exact after_answer .scope
      (commit_brings_follows wf (Change.declareClass_brings _ wf parent name key kind size) h)
  | buildFundamental name size =>
    exact after_answer .entry
      (commit_brings_follows wf (Change.fundamental_brings _ wf (.named name) name size) h)
  | buildNative native name size =>
    exact after_answer .entry
      (commit_brings_follows wf (Change.fundamental_brings _ wf (.native native) name size) h)
  | buildEnum parent name key underlying =>
    exact after_answer .enumeration
      (commit_brings_follows wf (Change.buildEnum_brings _ wf parent name key underlying) h)
  | buildEnumOver parent name key underlying =>
    exact after_answer .enumeration
      (commit_brings_follows wf (Change.buildEnumOver_brings _ wf parent name key underlying) h)
  | addEnumerator e name value =>
    exact after_answer (fun _ => .done)
      (commit_spares_follows (Change.addEnumerator_spares _ e name value) h)
  | setHidden handle hidden | registerBuiltins | apply d | load d | subscribe selection echo
  | unsubscribe id => exact adds.elim

end Hub

end TypeCatalog
