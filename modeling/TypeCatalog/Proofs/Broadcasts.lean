import TypeCatalog.Proofs.EventLog
import TypeCatalog.Proofs.Keeping

/-!
# What observers that only listen are told

Work on a hub whose observers echo nothing does the same whoever listens. It raises events, and each
event goes to the observers that want it, in the order of their subscriptions.
-/

namespace TypeCatalog

/-- Whether an operation is about the catalog and not about its observers. -/
def Operation.AboutCatalog : Operation → Prop
  | .subscribe _ _ | .unsubscribe _ => False
  | _ => True

namespace Hub

/-- The observers of the hub do nothing with what they are told. -/
def Listening (hub : Hub) : Prop := ∀ s ∈ hub.subscriptions, s.echo = none

/-- An event for each of the observers that want it. -/
def addressed (subscriptions : List Subscription) (event : Event) : List Delivery :=
  (subscriptions.filter (·.selection.wants event)).map fun s => ⟨s.id, event⟩

/-- The hub with another catalog and its observers told of events. -/
def informed (hub : Hub) (c : Catalog) (events : List Event) : Hub :=
  { hub with
    catalog := c
    delivered := hub.delivered ++ events.flatMap (addressed hub.subscriptions) }

theorem informed_self (hub : Hub) : hub.informed hub.catalog [] = hub := by
  simp [informed]

theorem informed_informed (hub : Hub) (c c' : Catalog) (events more : List Event) :
    (hub.informed c events).informed c' more = hub.informed c' (events ++ more) := by
  simp [informed]

/-! ## Telling -/

theorem foldl_hear (event : Event) (hub : Hub) (subscriptions : List Subscription) :
    subscriptions.foldl (hear event) hub =
      { hub with delivered := hub.delivered ++ subscriptions.map fun s => ⟨s.id, event⟩ } := by
  induction subscriptions generalizing hub with
  | nil => simp
  | cons s rest ih => simp [ih, hear]

theorem handOut_hear (hub : Hub) (events : List Event) :
    handOut hear hub events = hub.informed hub.catalog events := by
  induction events generalizing hub with
  | nil => rw [informed_self]; rfl
  | cons event rest ih =>
    have hfirst : (hub.interested event).foldl (hear event) hub =
        hub.informed hub.catalog [event] := by
      rw [foldl_hear]
      simp [informed, interested, addressed]
    have hrest : handOut hear hub (event :: rest) =
        handOut hear (hub.informed hub.catalog [event]) rest := by
      rw [← hfirst]
      rfl
    rw [hrest, ih, informed_informed]
    rfl

theorem handOut_congr {hand : Event → Hub → Subscription → Hub} (hub : Hub) (events : List Event)
    (same : ∀ event, ∀ s ∈ hub.subscriptions, ∀ hub', hand event hub' s = hear event hub' s) :
    handOut hand hub events = handOut hear hub events := by
  induction events generalizing hub with
  | nil => rfl
  | cons event rest ih =>
    have hfirst : (hub.interested event).foldl (hand event) hub =
        (hub.interested event).foldl (hear event) hub := by
      refine List.foldl_ext _ _ _ fun hub' s hs => ?_
      exact same event s (List.mem_filter.1 hs).1 hub'
    have hsame : ((hub.interested event).foldl (hear event) hub).subscriptions =
        hub.subscriptions := by
      rw [foldl_hear]
    have hrest := ih ((hub.interested event).foldl (hear event) hub) (by rw [hsame]; exact same)
    simp only [handOut, List.foldl_cons] at hrest ⊢
    rw [hfirst, hrest]

theorem tell_eq {hub : Hub} (listening : hub.Listening) (events : List Event) :
    hub.tell events = hub.informed hub.catalog events := by
  rw [tell, ← handOut_hear]
  cases hub.echoDepth with
  | zero => rfl
  | succ levels =>
    refine handOut_congr hub events fun event s hs hub' => ?_
    exact deliver_silent (shadow?_of_passive (listening s hs) event) hub'

/-! ## Work -/

/-- How work has ended, and the hub after it. -/
def ended {α : Type} (outcome : Except Fault α) (hub : Hub) : EStateM.Result Fault Hub α :=
  match outcome with
  | .ok a => .ok a hub
  | .error fault => .error fault hub

/-- In a catalog the work comes to one end and raises the same events whoever listens, and the
events tell of what is new in the catalog. -/
def Broadcasts {α : Type} (work : HubM α) : Prop :=
  ∀ c : Catalog, c.WellFormed → ∃ outcome c' events, c.Grows (fun _ => True) events c' ∧
    ∀ hub : Hub, hub.catalog = c → hub.Listening →
      EStateM.run work hub = ended outcome (hub.informed c' events)

theorem broadcasts_of_same {α : Type} {work : HubM α} (outcome : Catalog → Except Fault α)
    (h : ∀ hub, EStateM.run work hub = ended (outcome hub.catalog) hub) : Broadcasts work := by
  intro c _
  refine ⟨outcome c, c, [], .refl c, ?_⟩
  rintro hub rfl -
  rw [informed_self, h]

theorem run_bind_ended {α β : Type} {work : HubM α} {next : α → HubM β} {hub hub' : Hub}
    {outcome : Except Fault α} (h : EStateM.run work hub = ended outcome hub') :
    EStateM.run (work >>= next) hub =
      match outcome with
      | .ok a => EStateM.run (next a) hub'
      | .error fault => .error fault hub' := by
  cases outcome with
  | ok a => exact run_bind h
  | error fault => exact run_bind_error h

theorem broadcasts_composes : Composes Broadcasts where
  pure a := broadcasts_of_same (fun _ => .ok a) fun _ => rfl
  throw fault := broadcasts_of_same (fun _ => .error fault) fun _ => rfl
  catalogNow := broadcasts_of_same (fun c => .ok c) fun _ => rfl
  bind := by
    intro α β work next first second c wf
    obtain ⟨outcome, c', events, hgrows, hrun⟩ := first c wf
    cases outcome with
    | error fault =>
      refine ⟨.error fault, c', events, hgrows, ?_⟩
      intro hub hc listening
      rw [run_bind_ended (hrun hub hc listening)]
      rfl
    | ok a =>
      obtain ⟨outcome, c'', more, hgrows', hrun'⟩ := second a c' (hgrows.wellFormed wf)
      refine ⟨outcome, c'', events ++ more, hgrows.trans hgrows', ?_⟩
      intro hub hc listening
      rw [run_bind_ended (hrun hub hc listening)]
      have hnext := hrun' (hub.informed c' events) rfl listening
      rw [informed_informed] at hnext
      exact hnext
  discard := by
    intro α work hwork c wf
    obtain ⟨outcome, c', events, hgrows, hrun⟩ := hwork c wf
    refine ⟨outcome.map fun _ => ⟨⟩, c', events, hgrows, ?_⟩
    intro hub hc listening
    have hhub := hrun hub hc listening
    simp only [EStateM.run] at hhub
    simp only [EStateM.run, discard, Functor.discard, Functor.mapConst, Function.comp,
      EStateM.map, hhub]
    cases outcome <;> rfl
  attempted := by
    intro work hwork c wf
    obtain ⟨outcome, c', events, hgrows, hrun⟩ := hwork c wf
    refine ⟨.ok outcome, c', events, hgrows, ?_⟩
    intro hub hc listening
    have hattempt : attempt work hub = (outcome, hub.informed c' events) := by
      rw [attempt, hrun hub hc listening]
      cases outcome <;> rfl
    show EStateM.Result.ok (attempt work hub).1 (attempt work hub).2 = _
    rw [hattempt]
    rfl

/-! ## Commits -/

theorem run_commit_listening {α : Type} (change : Change α) {hub : Hub} {c : Catalog}
    (hc : hub.catalog = c) (listening : hub.Listening) :
    EStateM.run (commit change) hub =
      match EStateM.run change ⟨c, []⟩ with
      | .ok a d => .ok a (hub.informed d.catalog d.events)
      | .error fault d => .error fault (hub.informed d.catalog d.events) := by
  subst hc
  have htold : ∀ c events, ({ hub with catalog := c } : Hub).tell events = hub.informed c events :=
    fun c events => @tell_eq { hub with catalog := c } listening events
  rw [run_commit]
  cases EStateM.run change ⟨hub.catalog, []⟩ with
  | ok a d => exact congrArg (EStateM.Result.ok a) (htold d.catalog d.events)
  | error fault d => exact congrArg (EStateM.Result.error fault) (htold d.catalog d.events)

theorem broadcasts_commit {α : Type} {change : Change α}
    (grows : ∀ c : Catalog, c.WellFormed →
      After change ⟨c, []⟩ (fun _ d => Draft.Grows (fun _ => True) ⟨c, []⟩ d)
        (fun _ d => d = ⟨c, []⟩)) :
    Broadcasts (commit change) := by
  intro c wf
  have hgrows := grows c wf
  cases hrun : EStateM.run change ⟨c, []⟩ with
  | ok a d =>
    obtain ⟨events, hevents, hd⟩ := hgrows.at_ok hrun
    obtain rfl : d.events = events := hevents
    refine ⟨.ok a, d.catalog, d.events, hd, ?_⟩
    intro hub hc listening
    rw [run_commit_listening change hc listening, hrun]
    rfl
  | error fault d =>
    obtain rfl := hgrows.at_error hrun
    refine ⟨.error fault, c, [], .refl c, ?_⟩
    intro hub hc listening
    rw [run_commit_listening change hc listening, hrun]
    rfl

theorem broadcasts_building : Building Broadcasts where
  register key kind size name := broadcasts_commit fun _ wf =>
    (Change.register_grows _ _ wf key kind size name).mono (fun _ _ h => h.1) fun _ _ h => h
  declareScope parent _ kind := broadcasts_commit fun _ wf =>
    (Change.declareScope_grows _ _ wf parent trivial kind).mono (fun _ _ h => h.grows)
      fun _ _ h => h
  addMember scope name m := broadcasts_commit fun _ _ =>
    (Change.addMember_grows _ _ scope name m).mono (fun _ _ h => h.1) fun _ _ h => h
  declareClass parent _ key kind size := broadcasts_commit fun _ wf =>
    (Change.declareClass_grows _ _ wf parent trivial key kind size).mono (fun _ _ h => h.1)
      fun _ _ h => h
  fundamental key name size := broadcasts_commit fun _ wf =>
    (Change.fundamental_grows _ _ wf key name size).mono (fun _ _ h => h.1) fun _ _ h => h
  buildEnum parent _ key underlying := broadcasts_commit fun _ wf =>
    (Change.buildEnum_grows _ _ wf parent trivial key underlying).mono (fun _ _ h => h.1)
      fun _ _ h => h
  buildEnumOver parent _ key underlying := broadcasts_commit fun _ wf =>
    (Change.buildEnumOver_grows _ _ wf parent trivial key underlying).mono (fun _ _ h => h.1)
      fun _ _ h => h
  addEnumerator e name value := broadcasts_commit fun _ _ =>
    (Change.addEnumerator_grows _ _ e name value).mono (fun _ _ h => h.1) fun _ _ h => h

theorem perform_broadcasts {op : Operation} (extending : op.Extending) :
    Broadcasts (perform op) := by
  by_cases builds : op.Builds
  · exact broadcasts_composes.perform broadcasts_building builds
  · cases op with
    | setHidden | subscribe | unsubscribe => exact extending.elim
    | attachType scope h =>
      have hattach : Broadcasts (commit (Change.attachType scope h)) :=
        broadcasts_commit fun c _ => Change.attachType_grows _ ⟨c, []⟩ scope h
      exact broadcasts_composes.bind hattach fun _ => broadcasts_composes.pure _
    | _ => exact absurd trivial builds

/-! ## What operations raise -/

/-- A hub with one observer, who wants to see everything. -/
def overheard (c : Catalog) : Hub := ⟨c, [⟨⟨0⟩, .all, none⟩], 1, []⟩

/-- What an operation raises in a catalog, as an observer of everything hears it. -/
def raised (c : Catalog) (op : Operation) : List Event :=
  ((overheard c).execute op).2.delivered.map (·.event)

theorem overheard_listening (c : Catalog) : (overheard c).Listening := by
  intro s hs
  rw [List.mem_singleton.1 hs]

theorem informed_overheard (c c' : Catalog) (events : List Event) :
    ((overheard c).informed c' events).delivered.map (·.event) = events := by
  have hall : ∀ event, Selection.all.wants event = true := by rintro (_ | _ | _) <;> rfl
  simp [informed, overheard, addressed, hall, List.map_flatMap]

theorem execute_of_run {hub hub' : Hub} {op : Operation} {outcome : Except Fault Result}
    (h : EStateM.run (perform op) hub = ended outcome hub') : hub.execute op = (outcome, hub') := by
  rw [execute, h]
  cases outcome <;> rfl

theorem execute_extending {hub : Hub} (wf : hub.catalog.WellFormed) (listening : hub.Listening)
    {op : Operation} (extending : op.Extending) :
    ∃ c', hub.catalog.Grows (fun _ => True) (raised hub.catalog op) c' ∧
      (hub.execute op).2 = hub.informed c' (raised hub.catalog op) := by
  obtain ⟨outcome, c', events, hgrows, hrun⟩ := perform_broadcasts extending hub.catalog wf
  have hevents : raised hub.catalog op = events := by
    rw [raised, execute_of_run (hrun (overheard hub.catalog) rfl (overheard_listening _)),
      informed_overheard]
  rw [hevents, execute_of_run (hrun hub rfl listening)]
  exact ⟨c', hgrows, rfl⟩

theorem raised_of_not_extending {op : Operation} (h : ¬op.Extending) (c : Catalog) :
    raised c op = [] := by
  cases op with
  | setHidden handle hidden =>
    rcases execute_setHidden (overheard c) handle hidden with ⟨changed, types, -, hsame⟩ | hsame
    · rw [raised, hsame]
      rfl
    · rw [raised, hsame]
      rfl
  | subscribe selection echo | unsubscribe id => rfl
  | _ => exact absurd trivial h

/-- An operation on the catalog tells the observers of what it raises. -/
theorem execute_informs {hub : Hub} (wf : hub.catalog.WellFormed) (listening : hub.Listening)
    {op : Operation} (about : op.AboutCatalog) :
    ∃ c', (hub.execute op).2 = hub.informed c' (raised hub.catalog op) := by
  by_cases extending : op.Extending
  · obtain ⟨c', -, hc⟩ := execute_extending wf listening extending
    exact ⟨c', hc⟩
  · rw [raised_of_not_extending extending]
    cases op with
    | setHidden handle hidden =>
      rcases execute_setHidden hub handle hidden with ⟨changed, types, -, hsame⟩ | hsame
      · exact ⟨{ hub.catalog with types := types }, by rw [hsame]; simp [informed]⟩
      · exact ⟨hub.catalog, by rw [hsame, informed_self]⟩
    | subscribe | unsubscribe => exact about.elim
    | _ => exact absurd trivial extending

end Hub

end TypeCatalog
