import TypeCatalog.Proofs.CanonicalEnums
import TypeCatalog.Proofs.References

/-!
# Doing the same thing again

A registration that has succeeded once finds everything in place ever after: what it has
established stays, whatever else is done. So the same operation again gives the same answer, changes
nothing and raises nothing. Only a name that is looked up on the way can stand for another type
later.
-/

namespace TypeCatalog

namespace Operation

/-- The operations that register something and do not mind if it is there already. -/
def Repeatable : Operation → Prop
  | .register _ _ _ _ | .declareScope _ _ _ | .addMember _ _ _ | .attachType _ _
  | .declareClass _ _ _ _ _ | .buildFundamental _ _ | .buildNative _ _ _ | .buildEnum _ _ _ _
  | .buildEnumOver _ _ _ _ => True
  | .setHidden _ _ | .registerBuiltins | .addEnumerator _ _ _ | .apply _ | .load _
  | .subscribe _ _ | .unsubscribe _ => False

/-- The name of an underlying type, if the operation looks one up, stands for the same type. -/
def NameStays (c c' : Catalog) : Operation → Prop
  | .buildEnum _ _ _ underlying =>
    c'.types.lookupName? underlying = c.types.lookupName? underlying
  | _ => True

end Operation

/-! ## Changes that find everything in place -/

theorem ScopeTree.WellFormed.checkOwner {t : ScopeTree} (wf : t.WellFormed) {id : ScopeId}
    {name : String} {m : Member} (hm : t.member? id name = some m) :
    t.checkOwner id name m = .ok () := by
  obtain ⟨s, hs, hsm⟩ := Option.bind_eq_some_iff.1 hm
  cases m with
  | scope child =>
    obtain ⟨c, hc, hparent, hname⟩ := wf.bound hs hsm
    simp only [ScopeTree.checkOwner, hc, hparent, hname, and_self, ↓reduceIte]
  | type h | enumerator h v | function h mods | dataMember h o mods => rfl

namespace Change

theorem run_requireType {d : Draft} {h : Handle} {e : Entry}
    (he : d.catalog.types.get? h = some e) :
    EStateM.run (requireType h) d = .ok e d := by
  unfold requireType
  rw [run_catalog, he]
  rfl

theorem attachType_spec (d : Draft) (scope : ScopeId) (h : Handle) :
    After (attachType scope h) d
      (fun _ d' => d.Grows (fun _ => True) d' ∧ d'.catalog.scopes.Carries scope h)
      (fun _ d' => d' = d) := by
  unfold attachType
  refine after_bind (after_discard ((requireType_spec d h).mono ?_ fun _ _ h => h))
  rintro e d' ⟨rfl, he⟩
  refine after_catalog ?_
  cases hattach : d'.catalog.scopes.attach scope h with
  | error fault => rfl
  | ok t' =>
    obtain ⟨hgrows, hcarries⟩ := attach_grows (fun _ => True) d' (by rw [he]; rfl) hattach
    exact ⟨hgrows, ScopeTree.carries_iff.2 hcarries⟩

theorem attachType_again {d : Draft} (wf : d.catalog.WellFormed) {scope : ScopeId} {h : Handle}
    (hc : d.catalog.scopes.Carries scope h) : EStateM.run (attachType scope h) d = .ok () d := by
  obtain ⟨s, hs, hfacet⟩ := ScopeTree.carries_iff.1 hc
  obtain ⟨e, he⟩ := Option.isSome_iff_exists.1 (wf.facet hs hfacet)
  unfold attachType
  rw [run_bind (run_discard (run_requireType he)), run_catalog, ScopeTree.attach_again hs hfacet]
  rfl

theorem buildEnumOver_again {d : Draft} (wf : d.catalog.WellFormed) {parent : ScopeId}
    {name : String} {key : Key} {underlying : Handle} {base : Entry} {en : Enumeration}
    (hbase : d.catalog.types.get? underlying = some base)
    (h : d.catalog.HasEnum parent name key base en) :
    EStateM.run (buildEnumOver parent name key underlying) d = .ok en d := by
  unfold buildEnumOver
  rw [run_bind (run_requireType hbase)]
  exact enumeration_again wf h

/-! ## What each change establishes -/

/-- What `holds` after the change holds ever after, and then, on the later catalog, the change finds
everything in place. -/
structure Establishes {α : Type} (change : Change α) (holds : α → Catalog → Prop)
    (c later : Catalog) : Prop where
  stays : ∀ {a c c'}, Catalog.Extends c c' → holds a c → holds a c'
  done : After change ⟨c, []⟩
    (fun a d => Draft.Grows (fun _ => True) ⟨c, []⟩ d ∧ holds a d.catalog)
    (fun _ d => d = ⟨c, []⟩)
  again : ∀ {a}, holds a later → EStateM.run change ⟨later, []⟩ = .ok a ⟨later, []⟩

section Establishes

variable {c later : Catalog}

theorem register_establishes (wf : c.WellFormed) (key : Key) (kind : TypeKind) (size : Nat)
    (name : String) :
    (register key kind size name).Establishes (fun e c => c.types.HasType key kind size e)
      c later where
  stays := fun hext he => hext.types.hasType he
  done := (register_grows _ _ wf key kind size name).mono (fun _ _ h => ⟨h.1, h.2.1⟩)
    fun _ _ h => h
  again := fun he => register_again he name

theorem declareScope_establishes (wf : c.WellFormed) (parent : ScopeId) (name : String)
    (kind : ScopeKind) :
    (declareScope parent name kind).Establishes
      (fun id c => c.scopes.member? parent name = some (.scope id) ∧
        ∃ s, c.scopes.get? id = some s ∧ s.kind = kind) c later where
  stays := by
    rintro id c c' hext ⟨hm, s, hs, hkind⟩
    obtain ⟨s', hs', he⟩ := hext.scopes.scope hs
    exact ⟨hext.scopes.member? hm, s', hs', he.kind.trans hkind⟩
  done := by
    refine (declareScope_grows (fun _ => True) _ wf parent trivial kind).mono ?_ fun _ _ h => h
    intro id d hd
    obtain ⟨s, hs, hkind, -⟩ := hd.scope
    exact ⟨hd.grows, hd.member, s, hs, hkind⟩
  again := by
    rintro id ⟨hm, s, hs, hkind⟩
    exact declareScope_again hm hs hkind

theorem addMember_establishes (sound : later.Sound) (scope : ScopeId) (name : String)
    (m : Member) :
    (addMember scope name m).Establishes (fun _ c => c.scopes.member? scope name = some m)
      c later where
  stays := fun hext hm => hext.scopes.member? hm
  done := addMember_grows _ _ scope name m
  again := fun hm => addMember_again hm (sound.membersCovered hm)
    (sound.wellFormed.scopes.checkOwner hm)

theorem attachType_establishes (sound : later.Sound) (scope : ScopeId) (h : Handle) :
    (attachType scope h).Establishes (fun _ c => c.scopes.Carries scope h) c later where
  stays := fun hext hc => hext.scopes.carries hc
  done := attachType_spec _ scope h
  again := fun hc => attachType_again sound.wellFormed hc

theorem declareClass_establishes (wf : c.WellFormed) (sound : later.Sound) (parent : ScopeId)
    (name : String) (key : Key) (kind : TypeKind) (size : Nat) :
    (declareClass parent name key kind size).Establishes
      (fun id c => ∃ e, c.HasClass parent name key kind size id e) c later where
  stays := by
    rintro id c c' hext ⟨e, he⟩
    exact ⟨e, he.mono hext⟩
  done := (declareClass_grows (fun _ => True) _ wf parent trivial key kind size).mono
    (fun _ _ h => ⟨h.1, h.2.2⟩) fun _ _ h => h
  again := by
    rintro id ⟨e, he⟩
    exact declareClass_again sound.wellFormed he

theorem fundamental_establishes (wf : c.WellFormed) (key : Key) (name : String) (size : Nat) :
    (fundamental key name size).Establishes (fun e c => c.HasFundamental key name size e)
      c later where
  stays := fun hext he => he.mono hext
  done := fundamental_grows _ _ wf key name size
  again := fun he => fundamental_again he

theorem buildEnum_establishes (wf : c.WellFormed) (sound : later.Sound) (parent : ScopeId)
    (name : String) (key : Key) {underlying : String}
    (same : later.types.lookupName? underlying = c.types.lookupName? underlying) :
    (buildEnum parent name key underlying).Establishes
      (fun en c' => ∃ base, c.types.lookupName? underlying = some base ∧
        c'.HasEnum parent name key base en) c later where
  stays := by
    rintro en c' c'' hext ⟨base, hbase, hen⟩
    exact ⟨base, hbase, hen.mono hext⟩
  done := buildEnum_grows (fun _ => True) _ wf parent trivial key underlying
  again := by
    rintro en ⟨base, hbase, hen⟩
    exact buildEnum_again sound.wellFormed (same.trans hbase) hen

theorem buildEnumOver_establishes (wf : c.WellFormed) (sound : later.Sound) (parent : ScopeId)
    (name : String) (key : Key) (underlying : Handle) :
    (buildEnumOver parent name key underlying).Establishes
      (fun en c => ∃ base, c.types.get? underlying = some base ∧
        c.HasEnum parent name key base en) c later where
  stays := by
    rintro en c c' hext ⟨base, hbase, hen⟩
    exact ⟨base, hext.types.get? hbase, hen.mono hext⟩
  done := by
    refine (buildEnumOver_grows (fun _ => True) _ wf parent trivial key underlying).mono ?_
      fun _ _ h => h
    rintro en d ⟨hgrows, base, hbase, hen⟩
    exact ⟨hgrows, base, (hgrows.catalog.keeps wf).types.get? hbase, hen⟩
  again := by
    rintro en ⟨base, hbase, hen⟩
    exact buildEnumOver_again sound.wellFormed hbase hen

end Establishes

end Change

namespace Hub

/-! ## Operations once more -/

section Again

variable {hub hub' : Hub} {op : Operation} {r : Result}

theorem Reachable.after (reach : hub.Reachable) (h : hub.execute op = (.ok r, hub')) :
    hub'.Reachable := by
  have hnext : hub.run [op] = hub' := congrArg Prod.snd h
  rw [← hnext]
  exact reach.later [op]

theorem execute_again {α : Type} {change : Change α} {holds : α → Catalog → Prop}
    (reach : hub.Reachable) (h : hub.execute op = (.ok r, hub')) {later : List Operation}
    (answer : α → Result) (hop : perform op = do return answer (← commit change))
    (lasts : change.Establishes holds hub.catalog (hub'.run later).catalog) :
    (hub'.run later).execute op = (.ok r, hub'.run later) := by
  have hperform : After (perform op) hub (fun r hub' => ∃ a, r = answer a ∧ holds a hub'.catalog)
      (fun _ _ => True) := by
    rw [hop]
    refine after_bind ((commit_grows _ reach.wellFormed holds lasts.stays lasts.done).mono ?_
      fun _ _ _ => trivial)
    exact fun a hub' hdone => after_pure _ ⟨a, rfl, hdone.2⟩
  obtain ⟨a, rfl, ha⟩ := hperform.at_ok (run_of_execute h)
  have hlater := lasts.stays (run_extends hub' (reach.after h).wellFormed later) ha
  refine execute_eq ?_
  rw [hop, run_bind (commit_again (lasts.again hlater))]
  rfl

/-- An operation that has registered something gives the same answer ever after, changes nothing
more, and nobody hears of it. -/
theorem repetition_changes_nothing (reach : hub.Reachable) (repeatable : op.Repeatable)
    (h : hub.execute op = (.ok r, hub')) (later : List Operation)
    (same : op.NameStays hub.catalog (hub'.run later).catalog) :
    (hub'.run later).execute op = (.ok r, hub'.run later) := by
  have wf := reach.wellFormed
  have sound := ((reach.after h).later later).sound
  cases op with
  | register key kind size name =>
    exact execute_again reach h .entry rfl (Change.register_establishes wf key kind size name)
  | declareScope parent name kind =>
    exact execute_again reach h .scope rfl (Change.declareScope_establishes wf parent name kind)
  | addMember scope name m =>
    exact execute_again reach h (fun _ => .done) rfl
      (Change.addMember_establishes sound scope name m)
  | attachType scope handle =>
    exact execute_again reach h (fun _ => .done) rfl
      (Change.attachType_establishes sound scope handle)
  | declareClass parent name key kind size =>
    exact execute_again reach h .scope rfl
      (Change.declareClass_establishes wf sound parent name key kind size)
  | buildFundamental name size =>
    exact execute_again reach h .entry rfl (Change.fundamental_establishes wf _ name size)
  | buildNative native name size =>
    exact execute_again reach h .entry rfl (Change.fundamental_establishes wf _ name size)
  | buildEnum parent name key underlying =>
    exact execute_again reach h .enumeration rfl
      (Change.buildEnum_establishes wf sound parent name key same)
  | buildEnumOver parent name key underlying =>
    exact execute_again reach h .enumeration rfl
      (Change.buildEnumOver_establishes wf sound parent name key underlying)
  | setHidden handle hidden | registerBuiltins | addEnumerator e name value | apply d | load d
  | subscribe selection echo | unsubscribe id => exact repeatable.elim

end Again

/-- A hub with an observer that echoes, and an integer type. -/
def easel : Hub :=
  (ofSettings Settings.default.catalog).run
    [.subscribe .all (some "_v"), .buildFundamental "int" 4]

def color : Enumeration := ⟨⟨⟨2⟩, .named "Color", .enum, 4, "Color"⟩, ⟨1⟩, ⟨0⟩⟩

/-- The hub after `color` was built. -/
def colored : Hub := (easel.execute (.buildEnum .global "Color" (.named "Color") "int")).2

/-- The underlying type is hidden and shown again. Meanwhile its name is given to another type, and
the enum gets an enumerator and a second name. -/
def recoloring : List Operation :=
  [.setHidden ⟨0⟩ true, .register (.named "other") .fundamental 2 "int",
    .addEnumerator color "Red" 1, .addMember .global "Hue" (.type ⟨2⟩), .setHidden ⟨0⟩ false]

/-- Then building it again gives the same enum, and the observer hears nothing more. -/
theorem color_is_built_once :
    easel.execute (.buildEnum .global "Color" (.named "Color") "int") =
        (.ok (.enumeration color), colored) ∧
      (colored.run recoloring).catalog.types.lookupName? "int" =
        easel.catalog.types.lookupName? "int" ∧
      (colored.run recoloring).execute (.buildEnum .global "Color" (.named "Color") "int") =
        (.ok (.enumeration color), colored.run recoloring) := by
  have hanswer : (easel.execute (.buildEnum .global "Color" (.named "Color") "int")).1 =
      .ok (.enumeration color) := by decide +kernel
  have hbuilt : easel.execute (.buildEnum .global "Color" (.named "Color") "int") =
      (.ok (.enumeration color), colored) := Prod.ext hanswer (by rw [colored])
  have hname : (colored.run recoloring).catalog.types.lookupName? "int" =
      easel.catalog.types.lookupName? "int" := by decide +kernel
  have reach : easel.Reachable := ⟨_, _, rfl⟩
  have repeatable : (Operation.buildEnum .global "Color" (.named "Color") "int").Repeatable :=
    trivial
  exact ⟨hbuilt, hname, repetition_changes_nothing reach repeatable hbuilt recoloring hname⟩

end Hub

end TypeCatalog
