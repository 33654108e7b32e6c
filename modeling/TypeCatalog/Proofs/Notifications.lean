import TypeCatalog.Proofs.Broadcasts

/-!
# Notifications

Observers come and go while a catalog is worked on. One that only listens hears of exactly what is
raised while it is subscribed and what it selected, in order and once each.
-/

namespace TypeCatalog

/-- Whether an observer that the operation brings only listens. -/
def Operation.Records : Operation → Prop
  | .subscribe _ echo => echo = none
  | _ => True

def Operation.isSubscribe : Operation → Bool
  | .subscribe _ _ => true
  | _ => false

namespace Hub

/-- How many subscriptions operations have begun, which is also the id of the next one. -/
def issued (ops : List Operation) : Nat := ops.countP (·.isSubscribe)

/-- What operations raise, one after the other. -/
def raisedBy (hub : Hub) : List Operation → List Event
  | [] => []
  | op :: rest => raised hub.catalog op ++ (hub.execute op).2.raisedBy rest

/-- After the operations the subscription with the id has begun and has not been ended since. -/
def Subscribed (ops : List Operation) (id : SubscriptionId) (selection : Selection) : Prop :=
  ∃ before during, ops = before ++ .subscribe selection none :: during ∧
    id = ⟨issued before⟩ ∧ .unsubscribe id ∉ during

variable {hub hub' : Hub} {op : Operation} {ops : List Operation} {id : SubscriptionId}
  {s : Subscription}

theorem issued_append (ops more : List Operation) :
    issued (ops ++ more) = issued ops + issued more := List.countP_append

theorem subscribed_concat {selection : Selection} :
    Subscribed (ops ++ [op]) id selection ↔
      Subscribed ops id selection ∧ op ≠ .unsubscribe id ∨
        op = .subscribe selection none ∧ id = ⟨issued ops⟩ := by
  constructor
  · rintro ⟨before, during, hops, hid, hnot⟩
    rcases List.eq_nil_or_concat' during with rfl | ⟨during, last, rfl⟩
    · obtain ⟨rfl, hlast⟩ := List.append_inj' hops rfl
      exact .inr ⟨List.singleton_inj.1 hlast, hid⟩
    · have hsplit : ops ++ [op] = (before ++ .subscribe selection none :: during) ++ [last] := by
        rw [hops, List.append_assoc, List.cons_append]
      obtain ⟨rfl, hlast⟩ := List.append_inj' hsplit rfl
      obtain rfl := List.singleton_inj.1 hlast
      simp only [List.mem_append, List.mem_singleton, not_or] at hnot
      exact .inl ⟨⟨before, during, rfl, hid, hnot.1⟩, fun h => hnot.2 h.symm⟩
  · rintro (⟨⟨before, during, rfl, hid, hnot⟩, hop⟩ | ⟨rfl, hid⟩)
    · refine ⟨before, during ++ [op], by simp, hid, ?_⟩
      simp only [List.mem_append, List.mem_singleton, not_or]
      exact ⟨hnot, fun h => hop h.symm⟩
    · exact ⟨ops, [], rfl, hid, by simp⟩

/-! ## One operation -/

/-- What an operation does to those who listen. -/
inductive Turn (hub : Hub) : Operation → Hub → Prop where
  | joins (selection : Selection) :
    Turn hub (.subscribe selection none) (hub.subscribe selection none).2
  | leaves (id : SubscriptionId) : Turn hub (.unsubscribe id) (hub.unsubscribe id).2
  | informs (op : Operation) (c' : Catalog) (about : op.AboutCatalog) :
    Turn hub op (hub.informed c' (raised hub.catalog op))

/-- The observers only listen and stand in the order of their ids, which will not be issued
again. -/
structure Orderly (hub : Hub) : Prop where
  wellFormed : hub.catalog.WellFormed
  listening : hub.Listening
  ordered : hub.subscriptions.Pairwise (·.id.index < ·.id.index)
  issued : ∀ s ∈ hub.subscriptions, s.id.index < hub.nextSubscription
  told : ∀ d ∈ hub.delivered, d.observer.index < hub.nextSubscription

theorem execute_turn (orderly : hub.Orderly) (records : op.Records) :
    Turn hub op (hub.execute op).2 := by
  by_cases about : op.AboutCatalog
  · obtain ⟨c', hc⟩ := execute_informs orderly.wellFormed orderly.listening about
    rw [hc]
    exact .informs op c' about
  · cases op with
    | subscribe selection echo =>
      obtain rfl : echo = none := records
      exact .joins selection
    | unsubscribe id => exact .leaves id
    | _ => exact absurd trivial about

theorem execute_orderly (orderly : hub.Orderly) (records : op.Records) :
    (hub.execute op).2.Orderly := by
  have wf := execute_wellFormed hub orderly.wellFormed op
  have turn := execute_turn orderly records
  generalize (hub.execute op).2 = hub' at wf turn
  cases turn with
  | joins selection =>
    refine ⟨wf, ?_, ?_, ?_, fun d hd => Nat.lt_succ_of_lt (orderly.told d hd)⟩
    · exact List.forall_mem_append.2 ⟨orderly.listening, List.forall_mem_singleton.2 rfl⟩
    · refine List.pairwise_append.2 ⟨orderly.ordered, List.pairwise_singleton _ _, ?_⟩
      intro s hs new hnew
      rw [List.mem_singleton.1 hnew]
      exact orderly.issued s hs
    · refine List.forall_mem_append.2 ⟨?_, List.forall_mem_singleton.2 (Nat.lt_succ_self _)⟩
      exact fun s hs => Nat.lt_succ_of_lt (orderly.issued s hs)
  | leaves id =>
    exact ⟨wf, fun s hs => orderly.listening s (List.mem_filter.1 hs).1,
      orderly.ordered.filter _, fun s hs => orderly.issued s (List.mem_filter.1 hs).1,
      orderly.told⟩
  | informs op c' _ =>
    refine ⟨wf, orderly.listening, orderly.ordered, orderly.issued, ?_⟩
    refine List.forall_mem_append.2 ⟨orderly.told, fun d hd => ?_⟩
    obtain ⟨event, -, hd⟩ := List.mem_flatMap.1 hd
    obtain ⟨s, hs, rfl⟩ := List.mem_map.1 hd
    exact orderly.issued s (List.mem_filter.1 hs).1

theorem Turn.next (turn : Turn hub op hub') :
    hub'.nextSubscription = hub.nextSubscription + issued [op] := by
  cases turn with
  | joins selection => rfl
  | leaves id => rfl
  | informs op c' about =>
    cases op with
    | subscribe | unsubscribe => exact about.elim
    | _ => rfl

theorem Turn.mem_subscriptions (turn : Turn hub op hub') :
    s ∈ hub'.subscriptions ↔ s ∈ hub.subscriptions ∧ op ≠ .unsubscribe s.id ∨
      op = .subscribe s.selection none ∧ s = ⟨⟨hub.nextSubscription⟩, s.selection, none⟩ := by
  cases turn with
  | joins selection =>
    simp only [Hub.subscribe, List.mem_append, List.mem_singleton, ne_eq, reduceCtorEq,
      not_false_eq_true, and_true, Operation.subscribe.injEq]
    refine or_congr_right ⟨?_, ?_⟩
    · rintro rfl
      exact ⟨rfl, rfl⟩
    · rintro ⟨rfl, hs⟩
      exact hs
  | leaves id =>
    simp only [Hub.unsubscribe, List.mem_filter, decide_eq_true_eq, ne_eq,
      Operation.unsubscribe.injEq, reduceCtorEq, false_and, or_false]
    exact and_congr_right fun _ => not_congr eq_comm
  | informs op c' about =>
    have hjoins : op ≠ .subscribe s.selection none := by
      rintro rfl
      exact about
    have hleaves : op ≠ .unsubscribe s.id := by
      rintro rfl
      exact about
    simp [informed, hjoins, hleaves]

/-! ## Who hears what -/

theorem Orderly.once (orderly : hub.Orderly) : (hub.subscriptions.map (·.id)).Nodup :=
  List.pairwise_map.2 (orderly.ordered.imp fun h heq => Nat.ne_of_lt h (congrArg _ heq))

theorem heard_informed (c' : Catalog) (events : List Event) :
    (hub.informed c' events).heard id = hub.heard id ++ events.flatMap fun event =>
      ((hub.subscriptions.filter (·.id = id)).filter (·.selection.wants event)).map
        fun _ => event := by
  have hone : ∀ event,
      ((addressed hub.subscriptions event).filter (·.observer = id)).map (·.event) =
        ((hub.subscriptions.filter (·.id = id)).filter (·.selection.wants event)).map
          fun _ => event := by
    intro event
    rw [addressed, List.filter_map, List.map_map, List.filter_filter, List.filter_filter]
    simp [Function.comp_def, Bool.and_comm]
  simp only [heard, informed, List.filter_append, List.map_append, List.filter_flatMap,
    List.map_flatMap, hone]

theorem Turn.heard (turn : Turn hub op hub') (orderly : hub.Orderly) (hs : s ∈ hub.subscriptions) :
    hub'.heard s.id =
      hub.heard s.id ++ (raised hub.catalog op).filter s.selection.wants := by
  cases turn with
  | joins selection | leaves id => exact (List.append_nil _).symm
  | informs op c' _ =>
    rw [heard_informed, Table.filter_key (·.id) orderly.once hs]
    induction raised hub.catalog op using List.reverseRecOn with
    | nil => rfl
    | append_singleton events event ih =>
      rw [List.flatMap_append, ← List.append_assoc, ih, List.filter_append, List.append_assoc]
      cases hwants : s.selection.wants event <;> simp [hwants]

/-- The id was issued, and its subscription has ended. -/
def Ended (hub : Hub) (id : SubscriptionId) : Prop :=
  id.index < hub.nextSubscription ∧ ∀ s ∈ hub.subscriptions, s.id ≠ id

theorem Turn.unheard (turn : Turn hub op hub') (gone : ∀ s ∈ hub.subscriptions, s.id ≠ id) :
    hub'.heard id = hub.heard id := by
  cases turn with
  | joins selection => rfl
  | leaves id => rfl
  | informs op c' _ =>
    have hnone : hub.subscriptions.filter (·.id = id) = [] := by simpa using gone
    rw [heard_informed, hnone]
    simp

theorem Turn.ended (turn : Turn hub op hub') (h : hub.Ended id) : hub'.Ended id := by
  refine ⟨?_, fun s hs => ?_⟩
  · rw [turn.next]
    exact Nat.lt_add_right _ h.1
  · rcases turn.mem_subscriptions.1 hs with ⟨hs, -⟩ | ⟨-, hs⟩
    · exact h.2 s hs
    · rw [hs]
      rintro rfl
      exact Nat.lt_irrefl _ h.1

theorem Orderly.unsubscribe_ended (orderly : hub.Orderly) (hs : s ∈ hub.subscriptions) :
    (hub.unsubscribe s.id).2.Ended s.id :=
  ⟨orderly.issued s hs, fun _ h => of_decide_eq_true (List.mem_filter.1 h).2⟩

/-! ## Many operations -/

theorem run_cons (hub : Hub) (op : Operation) (rest : List Operation) :
    hub.run (op :: rest) = (hub.execute op).2.run rest := rfl

theorem run_concat (hub : Hub) (ops : List Operation) (op : Operation) :
    hub.run (ops ++ [op]) = ((hub.run ops).execute op).2 := run_append _ _ _

theorem run_orderly (orderly : hub.Orderly) (records : ∀ op ∈ ops, op.Records) :
    (hub.run ops).Orderly := by
  induction ops generalizing hub with
  | nil => exact orderly
  | cons op rest ih =>
    obtain ⟨hop, hrest⟩ := List.forall_mem_cons.1 records
    exact ih (execute_orderly orderly hop) hrest

theorem run_stays (orderly : hub.Orderly) (records : ∀ op ∈ ops, op.Records)
    (hs : s ∈ hub.subscriptions) (stays : .unsubscribe s.id ∉ ops) :
    s ∈ (hub.run ops).subscriptions := by
  induction ops generalizing hub with
  | nil => exact hs
  | cons op rest ih =>
    obtain ⟨hop, hrest⟩ := List.forall_mem_cons.1 records
    obtain ⟨hstays, hmore⟩ := not_or.1 (mt List.mem_cons.2 stays)
    have hs' := (execute_turn orderly hop).mem_subscriptions.2 (.inl ⟨hs, Ne.symm hstays⟩)
    exact ih (execute_orderly orderly hop) hrest hs' hmore

theorem run_heard (orderly : hub.Orderly) (records : ∀ op ∈ ops, op.Records)
    (hs : s ∈ hub.subscriptions) (stays : .unsubscribe s.id ∉ ops) :
    (hub.run ops).heard s.id = hub.heard s.id ++ (hub.raisedBy ops).filter s.selection.wants := by
  induction ops generalizing hub with
  | nil => exact (List.append_nil _).symm
  | cons op rest ih =>
    obtain ⟨hop, hrest⟩ := List.forall_mem_cons.1 records
    obtain ⟨hstays, hmore⟩ := not_or.1 (mt List.mem_cons.2 stays)
    have turn := execute_turn orderly hop
    have hs' := turn.mem_subscriptions.2 (.inl ⟨hs, Ne.symm hstays⟩)
    rw [run_cons, ih (execute_orderly orderly hop) hrest hs' hmore,
      turn.heard orderly hs, List.append_assoc, ← List.filter_append, raisedBy]

theorem run_unheard (orderly : hub.Orderly) (records : ∀ op ∈ ops, op.Records)
    (ended : hub.Ended id) : (hub.run ops).heard id = hub.heard id := by
  induction ops generalizing hub with
  | nil => rfl
  | cons op rest ih =>
    obtain ⟨hop, hrest⟩ := List.forall_mem_cons.1 records
    have turn := execute_turn orderly hop
    rw [run_cons, ih (execute_orderly orderly hop) hrest (turn.ended ended),
      turn.unheard ended.2]

/-! ## Histories -/

variable {settings : CatalogSettings}

theorem ofSettings_orderly (settings : CatalogSettings) : (ofSettings settings).Orderly :=
  ⟨Catalog.empty_wellFormed settings, by simp [Listening, ofSettings], .nil,
    by simp [ofSettings], by simp [ofSettings]⟩

theorem history_orderly (records : ∀ op ∈ ops, op.Records) :
    ((ofSettings settings).run ops).Orderly :=
  run_orderly (ofSettings_orderly settings) records

theorem history_next (records : ∀ op ∈ ops, op.Records) :
    ((ofSettings settings).run ops).nextSubscription = issued ops := by
  induction ops using List.reverseRecOn with
  | nil => rfl
  | append_singleton earlier op ih =>
    obtain ⟨hearlier, hop⟩ := List.forall_mem_append.1 records
    have turn := execute_turn (@history_orderly _ settings hearlier) (hop op List.mem_cons_self)
    rw [run_concat, turn.next, ih hearlier, issued_append]

theorem history_subscriptions (records : ∀ op ∈ ops, op.Records) (selection : Selection) :
    ⟨id, selection, none⟩ ∈ ((ofSettings settings).run ops).subscriptions ↔
      Subscribed ops id selection := by
  induction ops using List.reverseRecOn with
  | nil => simp [run, ofSettings, Subscribed]
  | append_singleton earlier op ih =>
    obtain ⟨hearlier, hop⟩ := List.forall_mem_append.1 records
    have turn := execute_turn (@history_orderly _ settings hearlier) (hop op List.mem_cons_self)
    rw [run_concat, turn.mem_subscriptions, ih hearlier, subscribed_concat, history_next hearlier]
    simp

theorem history_begins (before : List Operation) (records : ∀ op ∈ before, op.Records)
    (selection : Selection) :
    ⟨⟨issued before⟩, selection, none⟩ ∈
        ((ofSettings settings).run (before ++ [.subscribe selection none])).subscriptions ∧
      ((ofSettings settings).run (before ++ [.subscribe selection none])).heard
        ⟨issued before⟩ = [] := by
  have orderly := @history_orderly _ settings records
  have turn := @execute_turn _ (.subscribe selection none) orderly rfl
  rw [run_concat, ← @history_next _ settings records]
  refine ⟨turn.mem_subscriptions.2 (.inr ⟨rfl, rfl⟩), ?_⟩
  rw [turn.unheard fun s hs heq => ?_]
  · rw [heard, List.map_eq_nil_iff, List.filter_eq_nil_iff]
    intro d hd heq
    exact Nat.ne_of_lt (orderly.told d hd) (congrArg _ (of_decide_eq_true heq))
  · exact Nat.ne_of_lt (orderly.issued s hs) (congrArg _ heq)

theorem history_received {before during after : List Operation} {selection : Selection}
    (records : ∀ op ∈ before ++ .subscribe selection none :: (during ++ after), op.Records)
    (stays : .unsubscribe ⟨issued before⟩ ∉ during)
    (ends : ∀ op ∈ after.head?, op = .unsubscribe ⟨issued before⟩) :
    ((ofSettings settings).run (before ++ .subscribe selection none :: (during ++ after))).heard
        ⟨issued before⟩ =
      (((ofSettings settings).run (before ++ [.subscribe selection none])).raisedBy during).filter
        selection.wants := by
  have hsplit : before ++ .subscribe selection none :: (during ++ after) =
      before ++ [.subscribe selection none] ++ (during ++ after) := by simp
  rw [hsplit] at records ⊢
  obtain ⟨hbegin, hrest⟩ := List.forall_mem_append.1 records
  obtain ⟨hduring, hafter⟩ := List.forall_mem_append.1 hrest
  have hbefore := (List.forall_mem_append.1 hbegin).1
  obtain ⟨hmem, hnothing⟩ := @history_begins settings before hbefore selection
  have horderly := @history_orderly _ settings hbegin
  have hheard := run_heard horderly hduring hmem stays
  rw [hnothing, List.nil_append] at hheard
  rw [run_append, run_append, ← hheard]
  cases after with
  | nil => rfl
  | cons last rest =>
    obtain rfl := ends last rfl
    have hended := (run_orderly horderly hduring).unsubscribe_ended
      (run_stays horderly hduring hmem stays)
    obtain ⟨hlast, hmore⟩ := List.forall_mem_cons.1 hafter
    have horderly' := execute_orderly (run_orderly horderly hduring) hlast
    rw [run_cons, run_unheard horderly' hmore hended]
    rfl

theorem history_kinds (records : ∀ op ∈ ops, op.Records)
    (hs : s ∈ ((ofSettings settings).run ops).subscriptions) {entry : Entry}
    (heard : .typeRegistered entry ∈ ((ofSettings settings).run ops).heard s.id)
    {kinds : List TypeKind} (selected : s.selection.kinds = some kinds) : entry.kind ∈ kinds := by
  obtain ⟨id, selection, echo⟩ := s
  obtain rfl : echo = none := (history_orderly records).listening _ hs
  obtain ⟨before, during, rfl, rfl, stays⟩ := (history_subscriptions records selection).1 hs
  rw [← List.append_nil during] at records heard
  rw [history_received records stays (by simp)] at heard
  have hwants := (List.mem_filter.1 heard).2
  simp only [Selection.wants, Bool.and_eq_true] at hwants
  simpa [show selection.kinds = some kinds from selected] using hwants.2

theorem execute_unsubscribe (hub : Hub) (id : SubscriptionId) :
    ∃ found, hub.execute (.unsubscribe id) = (.ok (.changed found),
        { hub with subscriptions := hub.subscriptions.filter (·.id ≠ id) }) ∧
      (found = true ↔ ∃ s ∈ hub.subscriptions, s.id = id) := by
  refine ⟨_, rfl, ?_⟩
  rw [decide_eq_true_iff, ne_eq, List.length_filter_eq_length_iff]
  simp

/-- Notifications in a history, and by one more operation after it. -/
structure Notifies (start : Hub) (ops : List Operation) : Prop where
  /-- What an operation raises is what it adds to the catalog, in order and once each. -/
  grows : ∀ op : Operation, op.Extending →
    (start.run ops).catalog.Grows (fun _ => True) (raised (start.run ops).catalog op)
      ((start.run ops).execute op).2.catalog
  quiet : ∀ op : Operation, ¬op.Extending → raised (start.run ops).catalog op = []
  /-- Event by event, those who want it are told of it in the order of the subscriptions. -/
  told : ∀ op : Operation, op.Records → ((start.run ops).execute op).2.delivered =
    (start.run ops).delivered ++
      (raised (start.run ops).catalog op).flatMap (addressed (start.run ops).subscriptions)
  ordered : (start.run ops).subscriptions.Pairwise (·.id.index < ·.id.index)
  subscribed : ∀ s, s ∈ (start.run ops).subscriptions ↔
    s.echo = none ∧ Subscribed ops s.id s.selection
  /-- All that an observer hears is what is raised from its subscription until the end of it. -/
  received : ∀ before during after selection,
    ops = before ++ .subscribe selection none :: (during ++ after) →
    .unsubscribe ⟨issued before⟩ ∉ during →
    (∀ op ∈ after.head?, op = .unsubscribe ⟨issued before⟩) →
    (start.run ops).heard ⟨issued before⟩ =
      ((start.run (before ++ [.subscribe selection none])).raisedBy during).filter selection.wants
  kinds : ∀ s ∈ (start.run ops).subscriptions, ∀ entry,
    .typeRegistered entry ∈ (start.run ops).heard s.id →
    ∀ kinds ∈ s.selection.kinds, entry.kind ∈ kinds
  unheard : ∀ id : SubscriptionId, issued ops ≤ id.index → (start.run ops).heard id = []
  /-- The next id is none of those before. -/
  issues : ∀ selection, ((start.run ops).execute (.subscribe selection none)).1 =
    .ok (.subscription ⟨issued ops⟩)
  fresh : ∀ before selection after, ops = before ++ .subscribe selection none :: after →
    issued before < issued ops
  /-- A subscription ends once, and without it nothing else is other than before. -/
  ends : ∀ id, ∃ found, ((start.run ops).execute (.unsubscribe id)) = (.ok (.changed found),
      { start.run ops with
        subscriptions := (start.run ops).subscriptions.filter (·.id ≠ id) }) ∧
    (found = true ↔ ∃ selection, Subscribed ops id selection)

/-- Whatever is done to a catalog, observers that only listen are told of every event that they
want while they are subscribed, once, in the order of the events and of the subscriptions, and of
nothing else. -/
theorem notifications_are_exact (settings : CatalogSettings) (ops : List Operation)
    (records : ∀ op ∈ ops, op.Records) : Notifies (ofSettings settings) ops := by
  have orderly := @history_orderly _ settings records
  have hnext := @history_next _ settings records
  refine
    { grows := ?_, quiet := ?_, told := ?_, ordered := orderly.ordered, subscribed := ?_,
      received := ?_, kinds := ?_, unheard := ?_, issues := ?_, fresh := ?_, ends := ?_ }
  · intro op extending
    obtain ⟨c', hgrows, hop⟩ := execute_extending orderly.wellFormed orderly.listening extending
    rw [hop]
    exact hgrows
  · intro op hnot
    exact raised_of_not_extending hnot _
  · intro op hop
    have turn := execute_turn orderly hop
    generalize (((ofSettings settings).run ops).execute op).2 = hub' at turn ⊢
    cases turn with
    | joins | leaves => exact (List.append_nil _).symm
    | informs op c' about => rfl
  · rintro ⟨id, selection, echo⟩
    constructor
    · intro hs
      obtain rfl : echo = none := orderly.listening _ hs
      exact ⟨rfl, (history_subscriptions records selection).1 hs⟩
    · rintro ⟨rfl, hs⟩
      exact (history_subscriptions records selection).2 hs
  · rintro before during after selection rfl stays ends
    exact history_received records stays ends
  · intro s hs entry heard kinds selected
    exact history_kinds records hs heard selected
  · intro id hid
    rw [heard, List.map_eq_nil_iff, List.filter_eq_nil_iff]
    intro d hd heq
    have htold := orderly.told d hd
    rw [of_decide_eq_true heq, hnext] at htold
    omega
  · intro selection
    rw [← hnext]
    rfl
  · rintro before selection after rfl
    simp [Hub.issued, Operation.isSubscribe]
  · intro id
    obtain ⟨found, hexecute, hfound⟩ := execute_unsubscribe ((ofSettings settings).run ops) id
    refine ⟨found, hexecute, hfound.trans ⟨?_, ?_⟩⟩
    · rintro ⟨⟨id, selection, echo⟩, hs, rfl⟩
      obtain rfl : echo = none := orderly.listening _ hs
      exact ⟨selection, (history_subscriptions records selection).1 hs⟩
    · rintro ⟨selection, hs⟩
      exact ⟨_, (history_subscriptions records selection).2 hs, rfl⟩

/-- A history in which one observer leaves, tries to leave again, and another one stays. -/
def visited : List Operation :=
  [.subscribe .all none, .buildFundamental "int" 4, .subscribe (.typesOf [.enum]) none,
    .buildEnum .global "Color" (.named "Color") "int", .unsubscribe ⟨0⟩,
    .buildEnum .global "Shade" (.named "Shade") "int", .unsubscribe ⟨0⟩]

/-- The first hears of `int`, of `Color` and of its scope and binding, the second of two enums. -/
theorem visited_is_exact :
    (∀ op ∈ visited, op.Records) ∧ Notifies (ofSettings .default) visited ∧
      (((ofSettings .default).run visited).heard ⟨0⟩).length = 4 ∧
      (((ofSettings .default).run visited).heard ⟨1⟩).length = 2 := by
  have records : ∀ op ∈ visited, op.Records := by simp [visited, Operation.Records]
  exact ⟨records, notifications_are_exact .default visited records, by decide +kernel,
    by decide +kernel⟩

end Hub

end TypeCatalog
