import TypeCatalog.Proofs.Reads

/-!
# No operation reads out of bounds

An operation is a number of changes, and each of them leads from a sound catalog to a sound one. So
none breaks off, and each operation comes to what it comes to with every read checked.
-/

namespace TypeCatalog

namespace Unchecked

section Hub

/-! ## Work that is safe -/

variable {α β : Type} {twin : Unchecked Hub α} {work : HubM α} {hub : Hub}

/-- From this hub the work does not break off, it does what `work` does, and the catalog is sound
when it is over. -/
structure Safe (twin : Unchecked Hub α) (work : HubM α) (hub : Hub) : Prop where
  agrees : Agrees twin work hub
  sound : After work hub (fun _ hub' => hub'.catalog.Sound) (fun _ hub' => hub'.catalog.Sound)

theorem safe_pure (sound : hub.catalog.Sound) (a : α) : Safe (pure a) (pure a) hub :=
  ⟨agrees_pure a hub, after_pure a sound⟩

theorem safe_refuse (sound : hub.catalog.Sound) (fault : Fault) :
    Safe (refuse fault : Unchecked Hub α) (throw fault) hub :=
  ⟨agrees_refuse fault hub, sound⟩

theorem safe_bind {f : α → Unchecked Hub β} {g : α → HubM β} (h : Safe twin work hub)
    (rest : ∀ a hub', hub'.catalog.Sound → Safe (f a) (g a) hub') :
    Safe (twin >>= f) (work >>= g) hub where
  agrees := agrees_bind h.agrees
    (h.sound.mono (fun a hub' sound => (rest a hub' sound).agrees) fun _ _ _ => trivial)
  sound := after_bind
    (h.sound.mono (fun a hub' sound => (rest a hub' sound).sound) fun _ _ sound => sound)

theorem safe_discard (h : Safe twin work hub) : Safe (discard twin) (discard work) hub :=
  ⟨agrees_discard h.agrees, after_discard h.sound⟩

theorem safe_catalogNow {f : Catalog → Unchecked Hub α} {g : Catalog → HubM α}
    (h : Safe (f hub.catalog) (g hub.catalog) hub) :
    Safe (liftM Hub.catalogNow >>= f) (Hub.catalogNow >>= g) hub := ⟨h.agrees, h.sound⟩

theorem safe_probe {f : β → Unchecked Hub α} {answer : Option β} {b : β} (hb : answer = some b)
    (h : Safe (f b) work hub) : Safe (probe answer >>= f) work hub :=
  ⟨agrees_probe hb h.agrees, h.sound⟩

theorem safe_lift (sound : hub.catalog.Sound)
    (h : After work hub (fun _ hub' => hub' = hub) (fun _ hub' => hub' = hub)) :
    Safe (liftM work) work hub := by
  refine ⟨agrees_lift work hub, h.mono ?_ ?_⟩
  · rintro a hub' rfl
    exact sound
  · rintro fault hub' rfl
    exact sound

section Commit

variable {twin : Unchecked Draft α} {change : Change α}

theorem commit_agrees (h : Agrees twin change ⟨hub.catalog, []⟩) :
    Agrees (commit twin) (Hub.commit change) hub := by
  show EStateM.run (Hub.commit twin.run) hub = EStateM.run (Hub.commit change >>= _) hub
  cases hrun : EStateM.run change ⟨hub.catalog, []⟩ with
  | ok a d =>
    have hcommit : EStateM.run (Hub.commit change) hub =
        .ok a (({ hub with catalog := d.catalog } : Hub).tell d.events) := by
      rw [Hub.run_commit, hrun]
    rw [run_bind hcommit, Hub.run_commit, h.at_ok hrun]
    rfl
  | error fault d =>
    have hcommit : EStateM.run (Hub.commit change) hub =
        .error fault (({ hub with catalog := d.catalog } : Hub).tell d.events) := by
      rw [Hub.run_commit, hrun]
    rw [run_bind_error hcommit, Hub.run_commit, h.at_error hrun]

theorem safe_commit (sound : hub.catalog.Sound) (h : Agrees twin change ⟨hub.catalog, []⟩)
    {done : α → Draft → Prop}
    (spec : After change ⟨hub.catalog, []⟩ done (fun _ d => d = ⟨hub.catalog, []⟩))
    (grows : ∀ a d, done a d → Draft.Grows (fun _ => True) ⟨hub.catalog, []⟩ d) :
    Safe (commit twin) (Hub.commit change) hub := by
  refine ⟨commit_agrees h, (Hub.commit_adds _ sound.wellFormed spec grows).mono ?_ ?_⟩
  · exact fun _ hub' hgrows => hgrows.sound sound
  · rintro fault hub' rfl
    exact sound

end Commit

/-! ## Single steps -/

section Steps

variable (sound : hub.catalog.Sound)

include sound

theorem register_safe (key : Key) (kind : TypeKind) (size : Nat) (name : String) :
    Safe (liftM (Hub.commit (Change.register key kind size name)))
      (Hub.commit (Change.register key kind size name)) hub :=
  ⟨agrees_lift _ hub, (safe_commit sound (agrees_lift _ _)
    (Change.register_grows _ _ sound.wellFormed key kind size name) fun _ _ h => h.1).sound⟩

theorem declareScope_safe (parent : ScopeId) (name : String) (kind : ScopeKind) :
    Safe (commit (declareScope parent name kind))
      (Hub.commit (Change.declareScope parent name kind)) hub :=
  safe_commit sound (declareScope_agrees sound.nothingDangles parent name kind)
    (Change.declareScope_grows _ _ sound.wellFormed parent trivial kind) fun _ _ h => h.grows

theorem addMember_safe (scope : ScopeId) (name : String) (m : Member) :
    Safe (commit (addMember scope name m)) (Hub.commit (Change.addMember scope name m)) hub :=
  safe_commit sound (addMember_agrees scope name m) (Change.addMember_grows _ _ scope name m)
    fun _ _ h => h.1

theorem declareClass_safe (parent : ScopeId) (name : String) (key : Key) (kind : TypeKind)
    (size : Nat) :
    Safe (commit (declareClass parent name key kind size))
      (Hub.commit (Change.declareClass parent name key kind size)) hub :=
  safe_commit sound (declareClass_agrees sound.nothingDangles parent name key kind size)
    (Change.declareClass_grows _ _ sound.wellFormed parent trivial key kind size) fun _ _ h => h.1

theorem fundamental_safe (key : Key) (name : String) (size : Nat) :
    Safe (commit (fundamental key name size)) (Hub.commit (Change.fundamental key name size))
      hub :=
  safe_commit sound (fundamental_agrees key name size)
    (Change.fundamental_grows _ _ sound.wellFormed key name size) fun _ _ h => h.1

theorem buildEnum_safe (parent : ScopeId) (name : String) (key : Key) (underlying : String) :
    Safe (commit (buildEnum parent name key underlying))
      (Hub.commit (Change.buildEnum parent name key underlying)) hub :=
  safe_commit sound (buildEnum_agrees sound.nothingDangles parent name key underlying)
    (Change.buildEnum_grows _ _ sound.wellFormed parent trivial key underlying) fun _ _ h => h.1

theorem addEnumerator_safe (e : Enumeration) (name : String) (value : Int64) :
    Safe (commit (addEnumerator e name value)) (Hub.commit (Change.addEnumerator e name value))
      hub :=
  safe_commit sound (addEnumerator_agrees e name value)
    (Change.addEnumerator_grows _ _ e name value) fun _ _ h => h.1

theorem requireType_safe (name : String) :
    Safe (requireType name) (Hub.requireType name) hub := by
  unfold requireType Hub.requireType Registry.lookupName?
  refine safe_catalogNow (safe_probe (sound.nothingDangles.matchNameUnchecked_eq name) ?_)
  cases hub.catalog.types.matchName? name with
  | none => exact safe_refuse sound _
  | some found => exact safe_pure sound found.entry

theorem requireScope_safe (name : String) :
    Safe (liftM (Hub.requireScope name)) (Hub.requireScope name) hub := by
  refine safe_lift sound ((Hub.requireScope_spec hub name).mono ?_ fun _ _ h => h)
  exact fun _ _ h => h.1

theorem requireModifiers_safe (names : List String) :
    Safe (liftM (Hub.requireModifiers names)) (Hub.requireModifiers names) hub := by
  refine safe_lift sound ((Hub.requireModifiers_spec hub names).mono ?_ fun _ _ h => h)
  exact fun _ _ h => h.1

end Steps

/-! ## Whole operations -/

theorem registerAll_safe (sound : hub.catalog.Sound) (all : List (String × Nat)) :
    Safe (registerAll all) (Hub.registerAll all) hub := by
  induction all generalizing hub with
  | nil => exact safe_pure sound []
  | cons new rest ih =>
    obtain ⟨name, size⟩ := new
    refine safe_bind (fundamental_safe sound (.named name) name size) fun e hub₁ sound₁ => ?_
    exact safe_bind (ih sound₁) fun handles hub₂ sound₂ => safe_pure sound₂ _

theorem walk_safe (sound : hub.catalog.Sound) (current : ScopeId) (path : String)
    (names : List String) : Safe (walk current path names) (Hub.walk current path names) hub := by
  induction names generalizing hub current path with
  | nil => exact safe_pure sound current
  | cons name rest ih =>
    unfold walk Hub.walk
    refine safe_catalogNow ?_
    cases hub.catalog.scopes.byName? (Name.join path name) with
    | some id => exact ih sound id _
    | none =>
      exact safe_bind (declareScope_safe sound current name .namespace)
        fun id hub₁ sound₁ => ih sound₁ id _

theorem ensureNamespace_safe (sound : hub.catalog.Sound) (path : String) :
    Safe (ensureNamespace path) (Hub.ensureNamespace path) hub := by
  unfold ensureNamespace Hub.ensureNamespace
  refine safe_catalogNow ?_
  cases hub.catalog.scopes.byName? (Name.stripRoot path) with
  | some id => exact safe_pure sound id
  | none => exact walk_safe sound .global "" _

theorem addEnumerators_safe (sound : hub.catalog.Sound) (e : Enumeration)
    (existing news : List Enumerator) :
    Safe (addEnumerators e existing news) (Hub.addEnumerators e existing news) hub := by
  induction news generalizing hub with
  | nil => exact safe_pure sound ()
  | cons new rest ih =>
    unfold addEnumerators Hub.addEnumerators
    by_cases hmem : new ∈ existing
    · simp only [hmem, ↓reduceIte]
      exact ih sound
    · simp only [hmem, ↓reduceIte]
      exact safe_bind (addEnumerator_safe sound e new.name new.value)
        fun _ hub₁ sound₁ => ih sound₁

theorem apply_safe (sound : hub.catalog.Sound) (d : Declaration) :
    Safe (apply d) (Hub.apply d) hub := by
  cases d with
  | fundamental name size => exact safe_discard (fundamental_safe sound _ name size)
  | «namespace» name => exact safe_discard (ensureNamespace_safe sound name)
  | classType sort name key size =>
    refine safe_bind (ensureNamespace_safe sound _) fun parent hub₁ sound₁ => ?_
    exact safe_discard (declareClass_safe sound₁ parent _ _ sort.kind size)
  | typedef name target =>
    refine safe_bind (requireType_safe sound target) fun t hub₁ sound₁ => ?_
    refine safe_bind (ensureNamespace_safe sound₁ _) fun parent hub₂ sound₂ => ?_
    refine safe_bind (register_safe sound₂ _ .typedef t.size name) fun e hub₃ sound₃ => ?_
    exact addMember_safe sound₃ parent _ (.type e.handle)
  | pointer target =>
    refine safe_bind (safe_discard (requireType_safe sound target)) fun _ hub₁ sound₁ => ?_
    exact safe_discard (register_safe sound₁ _ .pointer _ _)
  | enum name key underlying enumerators =>
    refine safe_bind (ensureNamespace_safe sound _) fun parent hub₁ sound₁ => ?_
    refine safe_bind (buildEnum_safe sound₁ parent _ _ underlying) fun e hub₂ sound₂ => ?_
    exact safe_catalogNow (addEnumerators_safe sound₂ e _ enumerators)
  | function scope name signature modifiers =>
    refine safe_bind (requireScope_safe sound scope) fun id hub₁ sound₁ => ?_
    refine safe_bind (requireModifiers_safe sound₁ modifiers) fun m hub₂ sound₂ => ?_
    refine safe_bind (register_safe sound₂ _ .function 0 signature) fun e hub₃ sound₃ => ?_
    exact addMember_safe sound₃ id name (.function e.handle m)
  | dataMember scope name type offset modifiers =>
    refine safe_bind (requireScope_safe sound scope) fun id hub₁ sound₁ => ?_
    refine safe_bind (requireModifiers_safe sound₁ modifiers) fun m hub₂ sound₂ => ?_
    refine safe_bind (requireType_safe sound₂ type) fun e hub₃ sound₃ => ?_
    exact addMember_safe sound₃ id name (.dataMember e.handle offset m)

theorem applyAll_eq (sound : hub.catalog.Sound) (report : Report) (index : Nat)
    (ds : List Declaration) :
    applyAll report index hub ds = some (Hub.applyAll report index hub ds) := by
  induction ds generalizing report index hub with
  | nil => rfl
  | cons d rest ih =>
    have hd := apply_safe sound d
    have houtcome : outcome? (apply d) hub = some (Hub.attempt (Hub.apply d) hub) := by
      unfold outcome? Hub.attempt
      cases hrun : EStateM.run (Hub.apply d) hub with
      | ok a hub' => rw [hd.agrees.at_ok hrun]
      | error fault hub' => rw [hd.agrees.at_error hrun]
    unfold applyAll
    rw [houtcome]
    exact ih (@Hub.attempt_holds _ hub (fun hub' => hub'.catalog.Sound) hd.sound) _ _

theorem perform_agrees (sound : hub.catalog.Sound) (op : Operation) :
    Agrees (perform op) (Hub.perform op) hub := by
  have answer : ∀ {α : Type} {twin : Unchecked Hub α} {work : HubM α} (f : α → Result),
      Agrees twin work hub → Agrees (do return f (← twin)) (do return f (← work)) hub :=
    fun f h => agrees_then h fun a hub' => agrees_pure (f a) hub'
  have live := sound.nothingDangles
  cases op with
  | declareScope parent name kind =>
    exact answer .scope (declareScope_safe sound parent name kind).agrees
  | addMember scope name m =>
    exact answer (fun _ => .done) (addMember_safe sound scope name m).agrees
  | attachType scope h => exact answer (fun _ => .done) (commit_agrees (attachType_agrees scope h))
  | declareClass parent name key kind size =>
    exact answer .scope (declareClass_safe sound parent name key kind size).agrees
  | buildFundamental name size => exact answer .entry (fundamental_safe sound _ name size).agrees
  | buildNative native name size => exact answer .entry (fundamental_safe sound _ name size).agrees
  | registerBuiltins => exact answer .handles (registerAll_safe sound _).agrees
  | buildEnum parent name key underlying =>
    exact answer .enumeration (buildEnum_safe sound parent name key underlying).agrees
  | buildEnumOver parent name key underlying =>
    exact answer .enumeration (commit_agrees (buildEnumOver_agrees live parent name key underlying))
  | addEnumerator e name value =>
    exact answer (fun _ => .done) (addEnumerator_safe sound e name value).agrees
  | apply d => exact answer (fun _ => .done) (apply_safe sound d).agrees
  | load d =>
    show EStateM.run (perform (.load d)).run hub = _
    have hload : load hub d = some (hub.load d) := applyAll_eq sound _ _ _
    unfold perform EStateM.run
    simp only [hload]
    rfl
  | register key kind size name => exact agrees_lift _ hub
  | setHidden handle hidden => exact agrees_lift _ hub
  | subscribe selection echo => exact agrees_lift _ hub
  | unsubscribe id => exact agrees_lift _ hub

theorem execute_eq (sound : hub.catalog.Sound) (op : Operation) :
    execute hub op = some (hub.execute op) := by
  have h := perform_agrees sound op
  unfold execute outcome? Hub.execute
  cases hrun : EStateM.run (Hub.perform op) hub with
  | ok a hub' => rw [h.at_ok hrun]
  | error fault hub' => rw [h.at_error hrun]

end Hub

end Unchecked

namespace Hub

/-- Whatever is kept leads to something, and whatever is asked or done is read within bounds. -/
structure InBounds (hub : Hub) : Prop where
  live : hub.catalog.NothingDangles
  declare : ∀ parent name kind, hub.catalog.scopes.declareUnchecked parent name kind =
    some (hub.catalog.scopes.declare parent name kind)
  addMember : ∀ scope name m, hub.catalog.scopes.addMemberUnchecked scope name m =
    some (hub.catalog.scopes.addMember scope name m)
  attach : ∀ scope h, hub.catalog.scopes.attachUnchecked scope h =
    some (hub.catalog.scopes.attach scope h)
  resolvePath : ∀ start path, hub.catalog.scopes.resolvePathUnchecked start path =
    some (hub.catalog.scopes.resolvePath? start path)
  matchName : ∀ name, hub.catalog.types.matchNameUnchecked name =
    some (hub.catalog.types.matchName? name)
  execute : ∀ op, Unchecked.execute hub op = some (hub.execute op)

/-- Whatever operations are done, with whatever arguments, nothing dangles and no read is out of
bounds, then or in the next operation. -/
theorem run_inBounds (settings : CatalogSettings) (ops : List Operation) :
    ((ofSettings settings).run ops).InBounds := by
  have reach : ((ofSettings settings).run ops).Reachable := ⟨settings, ops, rfl⟩
  have sound := reach.sound
  have live := sound.nothingDangles
  exact ⟨live, live.declareUnchecked_eq, ScopeTree.addMemberUnchecked_eq _,
    ScopeTree.attachUnchecked_eq _, live.resolvePathUnchecked_eq, live.matchNameUnchecked_eq,
    Unchecked.execute_eq sound⟩

end Hub

end TypeCatalog
