import TypeCatalog.Proofs.Telling

/-!
# The event log

Whatever is done to a catalog, the events that an observer has heard since the start are a log of
it.
-/

namespace TypeCatalog.Hub

variable {id : SubscriptionId} {old : List Event} {hub hub' : Hub}

theorem Follows.advance (h : Follows id old [] hub) (wf : hub.catalog.WellFormed)
    (advance : Advances (fun _ => True) hub hub') : Follows id old [] hub' := by
  obtain ⟨steps, hsteps, hadds⟩ := advance
  refine hsteps.keeps _ (Follows id old []) wf hadds ?_ h
  intro hub₁ op wf₁ hop h₁
  exact (perform_follows wf₁ hop h₁).mono (fun _ _ h => h) fun _ _ _ => trivial

theorem Follows.hide (h : Follows id old [] hub) {handle : Handle} {hidden changed : Bool}
    {types : Registry}
    (hset : hub.catalog.types.setHidden handle hidden = .ok (changed, types)) :
    Follows id old [] { hub with catalog := { hub.catalog with types := types } } := by
  rw [(Registry.setHidden_ok hset).2.1]
  exact ⟨⟨h.listens.first, h.listens.next⟩, h.kept, h.mirror, h.extent⟩

/-! ## Other observers -/

theorem Follows.subscribe (h : Follows id old [] hub) (selection : Selection)
    (echo : Option String) : Follows id old [] (hub.subscribe selection echo).2 := by
  obtain ⟨earlier, later, hsubscriptions, hearlier, hlater⟩ := h.listens.first
  refine ⟨⟨⟨earlier, later ++ [⟨⟨hub.nextSubscription⟩, selection, echo⟩], ?_, hearlier, ?_⟩, ?_⟩,
    h.kept, h.mirror, h.extent⟩
  · show hub.subscriptions ++ [_] = _
    rw [hsubscriptions, List.append_assoc, List.cons_append]
  · refine List.forall_mem_append.2 ⟨hlater, ?_⟩
    rw [List.forall_mem_singleton]
    rintro rfl
    exact Nat.lt_irrefl _ h.listens.next
  · exact Nat.lt_succ_of_lt h.listens.next

theorem Follows.unsubscribe (h : Follows id old [] hub) {other : SubscriptionId}
    (ho : id ≠ other) : Follows id old [] (hub.unsubscribe other).2 := by
  obtain ⟨earlier, later, hsubscriptions, hearlier, hlater⟩ := h.listens.first
  refine ⟨⟨⟨earlier.filter (·.id ≠ other), later.filter (·.id ≠ other), ?_, ?_, ?_⟩,
    h.listens.next⟩, h.kept, h.mirror, h.extent⟩
  · show hub.subscriptions.filter _ = _
    rw [hsubscriptions, List.filter_append, List.filter_cons_of_pos (by simpa using ho)]
  · exact fun s hs => hearlier s (List.mem_filter.1 hs).1
  · exact fun s hs => hlater s (List.mem_filter.1 hs).1

/-! ## All operations -/

theorem execute_follows (h : Follows id old [] hub) (wf : hub.catalog.WellFormed) {op : Operation}
    (stays : op ≠ .unsubscribe id) : Follows id old [] (hub.execute op).2 := by
  cases op with
  | setHidden handle hidden =>
    rcases execute_setHidden hub handle hidden with ⟨changed, types, hset, hsame⟩ | hsame
    · rw [hsame]
      exact h.hide hset
    · rw [hsame]
      exact h
  | subscribe selection echo => exact h.subscribe selection echo
  | unsubscribe other =>
    refine h.unsubscribe ?_
    rintro rfl
    exact stays rfl
  | _ =>
    refine h.advance wf (execute_advances hub wf ?_)
    trivial

theorem run_follows (h : Follows id old [] hub) (wf : hub.catalog.WellFormed) {ops : List Operation}
    (stays : ∀ op ∈ ops, op ≠ .unsubscribe id) : Follows id old [] (hub.run ops) := by
  induction ops generalizing hub with
  | nil => exact h
  | cons op rest ih =>
    obtain ⟨hop, hrest⟩ := List.forall_mem_cons.1 stays
    exact ih (execute_follows h wf hop) (execute_wellFormed hub wf op) hrest

/-- The hub before anything is done to the catalog, with an observer for each of the selections. -/
def watched (settings : CatalogSettings) (selections : List Selection) : Hub :=
  (ofSettings settings).run (selections.map (.subscribe · none))

theorem watched_eq (settings : CatalogSettings) (selections : List Selection) :
    watched settings selections =
      { ofSettings settings with
        subscriptions := selections.mapIdx fun i selection => ⟨⟨i⟩, selection, none⟩
        nextSubscription := selections.length } := by
  induction selections using List.reverseRecOn with
  | nil => rfl
  | append_singleton earlier selection ih =>
    rw [watched, List.map_append, run_append, ← watched, ih, List.mapIdx_concat, List.length_append]
    rfl

theorem follows_watched (settings : CatalogSettings) (selections : List Selection) :
    Follows ⟨selections.length⟩ [] [] (watched settings (selections ++ [.all])) := by
  rw [watched_eq]
  refine ⟨⟨⟨selections.mapIdx fun i selection => ⟨⟨i⟩, selection, none⟩, [], ?_, ?_, by simp⟩, ?_⟩,
    List.nil_prefix, rfl, rfl⟩
  · exact List.mapIdx_concat
  · intro s hs
    obtain ⟨i, hi, rfl⟩ := List.mem_mapIdx.1 hs
    refine ⟨?_, rfl⟩
    intro hid
    exact absurd (congrArg SubscriptionId.index hid) (Nat.ne_of_lt hi)
  · simp

/-! ## The log -/

/-- What the observer has heard is a log of the catalog: it can be replayed in the order in which it
was heard, it tells of nothing twice, and an operation adds to it what it adds to the catalog. -/
structure LoggedBy (hub : Hub) (id : SubscriptionId) : Prop where
  replayed : Mirror.empty.replay (hub.heard id) = hub.catalog.mirror
  once : (hub.heard id).length = hub.catalog.extent
  further : ∀ op, op ≠ .unsubscribe id → ∃ news,
    (hub.execute op).2.heard id = hub.heard id ++ news ∧
      hub.catalog.mirror.replay news = (hub.execute op).2.catalog.mirror ∧
        hub.catalog.extent + news.length = (hub.execute op).2.catalog.extent

theorem Follows.loggedBy (h : Follows id old [] hub) (wf : hub.catalog.WellFormed) :
    hub.LoggedBy id where
  replayed := by simpa using h.mirror.symm
  once := by simpa using h.extent.symm
  further := by
    intro op stays
    have hfrom : Follows id (hub.heard id) [] hub :=
      ⟨h.listens, List.prefix_rfl, h.mirror, h.extent⟩
    have hnext := execute_follows hfrom wf stays
    obtain ⟨news, hnews⟩ := hnext.kept
    have hmirror := h.mirror
    have hmirror' := hnext.mirror
    have hextent := h.extent
    have hextent' := hnext.extent
    rw [List.append_nil] at hmirror hmirror' hextent hextent'
    refine ⟨news, hnews.symm, ?_, ?_⟩
    · rw [hmirror, hmirror', ← hnews, Mirror.replay_append]
    · rw [hextent, hextent', ← hnews, List.length_append]

/-- An observer that echoes nothing and is there before the first type, the first scope and the
first observer that echoes hears everything once, and in an order in which it can be replayed. -/
theorem events_are_log (settings : CatalogSettings) (earlier : List Selection)
    (ops : List Operation) (stays : ∀ op ∈ ops, op ≠ .unsubscribe ⟨earlier.length⟩) :
    ((watched settings (earlier ++ [.all])).run ops).LoggedBy ⟨earlier.length⟩ := by
  have wf : (watched settings (earlier ++ [.all])).catalog.WellFormed :=
    run_wellFormed _ (Catalog.empty_wellFormed settings) _
  exact (run_follows (follows_watched settings earlier) wf stays).loggedBy (run_wellFormed _ wf ops)

/-- A history with an observer that echoes, a dictionary, and a class that cannot be declared
because its scope carries another one. -/
def eventful : List Operation :=
  [.buildFundamental "int" 4, .subscribe .typesOnly (some "_v"),
    .load ⟨"shapes", [.classType .struct "geo::Shape" none 8, .namespace "geo"], []⟩,
    .declareClass ⟨1⟩ "Shape" (.named "Other") .struct 8,
    .buildEnum .global "Color" (.named "Color") "int"]

/-- Five types, two of them shadows, and four bindings, three of them of scopes. -/
theorem eventful_is_logged :
    (∀ op ∈ eventful, op ≠ .unsubscribe ⟨0⟩) ∧
      (((watched .default [.all]).run eventful).heard ⟨0⟩).length = 9 ∧
      Mirror.empty.replay (((watched .default [.all]).run eventful).heard ⟨0⟩) =
        ((watched .default [.all]).run eventful).catalog.mirror := by
  have stays : ∀ op ∈ eventful, op ≠ .unsubscribe ⟨0⟩ := by simp [eventful]
  have hlog := events_are_log .default [] eventful stays
  exact ⟨stays, by decide +kernel, hlog.replayed⟩

end TypeCatalog.Hub
