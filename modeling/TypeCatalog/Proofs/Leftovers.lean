import TypeCatalog.Proofs.Reloading

/-!
# What a skipped declaration leaves behind

A declaration that fails keeps the single operations that it had completed, so it can leave
namespaces, an unbound typedef or signature, or the first enumerators of an enum. It leaves nothing
if it is anchored: then no operation before the failing one has anything to do.
-/

namespace TypeCatalog

/-- All names but the last lead to scopes that are known. -/
def Catalog.Paved (c : Catalog) (path : String) : List String → Prop
  | [] => True
  | name :: rest =>
    (rest = [] ∨ (c.scopes.byName? (Name.join path name)).isSome) ∧
      c.Paved (Name.join path name) rest

/-- If the declaration fails, the operations before the failing one have nothing to do. -/
def Declaration.Anchored (c : Catalog) : Declaration → Prop
  | .fundamental _ _ | .pointer _ | .dataMember _ _ _ _ _ => True
  | .namespace name => c.Paved "" (Name.parts (Name.stripRoot name))
  | .classType _ name _ _ => (c.scopes.byName? (Name.stripRoot (Name.enclosing name))).isSome
  | .typedef name target => c.types.lookupName? target = none ∨
    (c.scopes.byName? (Name.stripRoot (Name.enclosing name))).isSome ∧
      (c.types.lookup? (.named name)).isSome
  | .enum name key underlying enumerators => ∃ parent,
    c.scopes.byName? (Name.stripRoot (Name.enclosing name)) = some parent ∧
      (enumerators = [] ∨ ∃ fault d, EStateM.run (Change.buildEnum parent (Name.last name)
        (.ofSymbol key name) underlying) ⟨c, []⟩ = .error fault d)
  | .function scope _ signature modifiers => c.scopes.byName? scope = none ∨
    (∀ m, Modifiers.ofKeywords modifiers ≠ .ok m) ∨ (c.types.lookup? (.named signature)).isSome

/-- The declarations that a report does not name. -/
def Report.keep (r : Report) (ds : List Declaration) : List Declaration :=
  (ds.zipIdx.filter fun d => !r.skipped.any (·.index = d.2)).map (·.1)

namespace Hub

theorem register_taken (hub : Hub) {key : Key} (taken : (hub.catalog.types.lookup? key).isSome)
    (kind : TypeKind) (size : Nat) (name : String) :
    After (commit (Change.register key kind size name)) hub (fun _ hub' => hub' = hub)
      (fun _ hub' => hub' = hub) := by
  refine after_commit ((Change.register_spec _ key kind size name).mono ?_ ?_)
  · rintro e d (⟨rfl, -⟩ | ⟨hfree, -⟩)
    · exact tell_nil hub
    · rw [hfree] at taken
      cases taken
  · rintro fault d ⟨rfl, -⟩
    exact tell_nil hub

section Anchored

variable (hub : Hub) (wf : hub.catalog.WellFormed)

include wf

theorem walk_paved (current : ScopeId) (path : String) (names : List String)
    (paved : hub.catalog.Paved path names) :
    After (walk current path names) hub (fun _ _ => True) (fun _ hub' => hub' = hub) := by
  induction names generalizing current path with
  | nil => exact after_pure _ trivial
  | cons name rest ih =>
    unfold walk
    refine after_catalogNow ?_
    cases hknown : hub.catalog.scopes.byName? (Name.join path name) with
    | some id => exact ih id _ paved.2
    | none =>
      obtain rfl : rest = [] := by
        rcases paved.1 with hrest | hsome
        · exact hrest
        · rw [hknown] at hsome
          cases hsome
      refine after_bind ((commit_declareScope hub wf current name .namespace).mono ?_
        fun _ _ h => h)
      exact fun _ _ _ => after_pure _ trivial

theorem ensureNamespace_paved (path : String)
    (paved : hub.catalog.Paved "" (Name.parts (Name.stripRoot path))) :
    After (ensureNamespace path) hub (fun _ _ => True) (fun _ hub' => hub' = hub) := by
  cases hknown : hub.catalog.scopes.byName? (Name.stripRoot path) with
  | some id => exact after_of_run (ensureNamespace_again hknown) trivial
  | none =>
    rw [after_congr (ensureNamespace_of_unknown wf hknown)]
    exact walk_paved hub wf .global "" _ paved

theorem apply_anchored (d : Declaration) (anchored : d.Anchored hub.catalog) :
    After (apply d) hub (fun _ _ => True) (fun _ hub' => hub' = hub) := by
  cases d with
  | fundamental name size =>
    refine after_discard ((commit_fundamental hub wf name size).mono ?_ fun _ _ h => h)
    exact fun _ _ _ => trivial
  | pointer target =>
    refine after_bind (after_discard ((requireType_spec hub target).mono ?_ fun _ _ h => h))
    rintro t hub₀ ⟨rfl, -⟩
    refine after_discard ((commit_register hub₀ wf _ _ _ _).mono ?_ fun _ _ h => h)
    exact fun _ _ _ => trivial
  | dataMember scope name type offset modifiers =>
    refine after_bind ((requireScope_spec hub scope).mono ?_ fun _ _ h => h)
    rintro id hub₀ ⟨rfl, -⟩
    refine after_bind ((requireModifiers_spec hub₀ modifiers).mono ?_ fun _ _ h => h)
    rintro m hub₀ ⟨rfl, -⟩
    refine after_bind ((requireType_spec hub₀ type).mono ?_ fun _ _ h => h)
    rintro e hub₀ ⟨rfl, -⟩
    refine (commit_addMember hub₀ wf id name _).mono ?_ fun _ _ h => h
    exact fun _ _ _ => trivial
  | «namespace» name => exact after_discard (ensureNamespace_paved hub wf name anchored)
  | classType sort name key size =>
    obtain ⟨parent, hparent⟩ := Option.isSome_iff_exists.1 anchored
    rw [apply_classType_eq]
    refine after_bind (after_of_run (ensureNamespace_again hparent) ?_)
    refine after_discard ((commit_declareClass hub wf parent _ _ _ _).mono ?_ fun _ _ h => h)
    exact fun _ _ _ => trivial
  | typedef name target =>
    rw [apply_typedef_eq]
    refine after_bind ((requireType_spec hub target).mono ?_ fun _ _ h => h)
    rintro t hub₀ ⟨rfl, ht⟩
    rcases anchored with hnone | ⟨hparent, taken⟩
    · rw [ht] at hnone
      cases hnone
    obtain ⟨parent, hparent⟩ := Option.isSome_iff_exists.1 hparent
    refine after_bind (after_of_run (ensureNamespace_again hparent) ?_)
    refine after_bind ((register_taken hub₀ taken .typedef t.size name).mono ?_ fun _ _ h => h)
    rintro e hub₁ rfl
    refine (commit_addMember hub₁ wf parent _ _).mono ?_ fun _ _ h => h
    exact fun _ _ _ => trivial
  | enum name key underlying enumerators =>
    obtain ⟨parent, hparent, hfew⟩ := anchored
    have hbuild :=
      commit_buildEnum hub wf parent (Name.last name) (.ofSymbol key name) underlying
    rw [apply_enum_eq]
    refine after_bind (after_of_run (ensureNamespace_again hparent) ?_)
    rcases hfew with rfl | ⟨fault, draft, hfails⟩
    · refine after_bind (hbuild.mono ?_ fun _ _ h => h)
      exact fun _ _ _ => after_catalogNow (after_pure _ trivial)
    · have hrun := @run_commit _
        (Change.buildEnum parent (Name.last name) (.ofSymbol key name) underlying) hub
      rw [hfails] at hrun
      exact after_bind (after_of_error hrun (hbuild.at_error hrun))
  | function scope name signature modifiers =>
    refine after_bind ((requireScope_spec hub scope).mono ?_ fun _ _ h => h)
    rintro id hub₀ ⟨rfl, hid⟩
    refine after_bind ((requireModifiers_spec hub₀ modifiers).mono ?_ fun _ _ h => h)
    rintro m hub₀ ⟨rfl, hmods⟩
    rcases anchored with hnone | hbad | taken
    · rw [hid] at hnone
      cases hnone
    · exact absurd hmods (hbad m)
    refine after_bind ((register_taken hub₀ taken .function 0 signature).mono ?_ fun _ _ h => h)
    rintro e hub₁ rfl
    refine (commit_addMember hub₁ wf id name _).mono ?_ fun _ _ h => h
    exact fun _ _ _ => trivial

end Anchored

/-! ## Loads -/

theorem applied_filter (hub : Hub) (ds : List Declaration) (start : Nat) (out : Nat → Bool)
    (idle : ∀ k d, ds[k]? = some d → out (start + k) →
      (attempt (apply d) (hub.applied (ds.take k))).2 = hub.applied (ds.take k)) :
    hub.applied (((ds.zipIdx start).filter fun d => !out d.2).map (·.1)) = hub.applied ds := by
  induction ds generalizing hub start with
  | nil => rfl
  | cons d rest ih =>
    have later : ∀ k d', rest[k]? = some d' → out (start + 1 + k) →
        (attempt (apply d') ((attempt (apply d) hub).2.applied (rest.take k))).2 =
          (attempt (apply d) hub).2.applied (rest.take k) := by
      intro k d' hd' hout
      refine idle (k + 1) d' hd' ?_
      rwa [show start + (k + 1) = start + 1 + k by omega]
    have hrest := ih (attempt (apply d) hub).2 (start + 1) later
    rw [List.zipIdx_cons, applied_cons, ← hrest]
    by_cases hout : out start
    · have hidle : (attempt (apply d) hub).2 = hub := idle 0 d rfl hout
      rw [List.filter_cons_of_neg (by simp [hout]), hidle]
    · rw [List.filter_cons_of_pos (by simp [hout]), List.map_cons, applied_cons]

theorem attempt_eq_iff {hub hub' : Hub} (wf : hub.catalog.WellFormed) {d : Declaration}
    {outcome : Except Fault Unit} :
    attempt (apply d) hub = (outcome, hub') ↔ ∃! steps, hub.Plays d.script steps outcome hub' := by
  obtain ⟨steps, hplays⟩ := attempt_ends (apply_enacts wf d)
  constructor
  · intro h
    rw [h] at hplays
    exact ⟨steps, hplays, fun steps' h' => (h'.unique hplays).1⟩
  · rintro ⟨steps', h', -⟩
    obtain ⟨-, houtcome, hhub⟩ := hplays.unique h'
    exact Prod.ext houtcome hhub

/-- A declaration that fails has completed the operations of its script up to the one that fails,
and no others. What was in the catalog stays. Nothing is left if the declaration is anchored, so a
dictionary may be loaded without the declarations that it would skip if each of them is anchored
when its turn comes. -/
theorem skipped_leaves_completed_steps {hub : Hub} (reach : hub.Reachable) :
    (∀ d fault hub', attempt (apply d) hub = (.error fault, hub') ↔
      ∃! steps, hub.Plays d.script steps (.error fault) hub') ∧
    (∀ d fault hub', attempt (apply d) hub = (.error fault, hub') →
      hub.catalog.Extends hub'.catalog ∧ (d.Anchored hub.catalog → hub' = hub)) ∧
    ∀ dict : Dictionary,
      (∀ i d, dict.declarations[i]? = some d → (hub.load dict).1.Skips i →
        d.Anchored (hub.applied (dict.declarations.take i)).catalog) →
      (hub.load { dict with declarations := (hub.load dict).1.keep dict.declarations }).2 =
        (hub.load dict).2 := by
  have wf := reach.wellFormed
  refine ⟨fun _ _ _ => attempt_eq_iff wf, ?_, ?_⟩
  · intro d fault hub' h
    rw [attempt_eq_error] at h
    refine ⟨?_, fun anchored => (apply_anchored hub wf d anchored).at_error h⟩
    exact ((apply_growsTo hub wf d fun _ _ => trivial).at_error h).keeps wf
  · intro dict anchored
    rw [load_hub, load_hub]
    refine applied_filter hub dict.declarations 0
      (fun i => (hub.load dict).1.skipped.any (·.index = i)) ?_
    intro k d hd hout
    rw [Nat.zero_add] at hout
    have hskips : (hub.load dict).1.Skips k := by
      obtain ⟨s, hs, hindex⟩ := List.any_eq_true.1 hout
      exact ⟨s, hs, by simpa using hindex⟩
    have wf' := (applied_growsTo hub wf (dict.declarations.take k)
      fun _ _ _ _ => trivial).wellFormed wf
    obtain ⟨d', fault, hd', hfault⟩ := (load_skips hub dict k).1 hskips
    obtain rfl : d = d' := Option.some.inj (hd.symm.trans hd')
    have hrun := attempt_eq_error.1
      (show attempt (apply d) (hub.applied (dict.declarations.take k)) = (.error fault, _) by
        rw [← hfault])
    exact (apply_anchored _ wf' d (anchored k d hd hskips)).at_error hrun

def fresh : Hub := ofSettings Settings.default.catalog

/-- An enum over an unknown type, in a namespace that is not there yet. -/
def lost : Declaration := .enum "a::E" none "missing" []

/-- The enum fails, and the namespace stays. -/
theorem lost_leaves_namespace :
    fresh.Reachable ∧ (attempt (apply lost) fresh).1 = .error (.unknownType "missing") ∧
      (attempt (apply lost) fresh).2.catalog ≠ fresh.catalog ∧
        (fresh.load ⟨"d", [lost], []⟩).1.Skips 0 ∧
          (fresh.load ⟨"d", [lost], []⟩).2.catalog ≠ (fresh.load ⟨"d", [], []⟩).2.catalog := by
  refine ⟨⟨_, [], rfl⟩, ?_⟩
  decide +kernel

/-- A class whose name is asked for once more by an enum. -/
def shapes : Dictionary :=
  ⟨"shapes", [.fundamental "int" 4, .classType .class "Shape" none 8,
    .enum "Shape" none "int" [⟨"round", 0⟩]], []⟩

/-- A hub that knows one integer type. -/
def numbered : Hub := fresh.run [.buildFundamental "int" 4]

/-- An enum with one name twice, in a namespace that is not there yet. -/
def torn : Declaration := .enum "a::E" none "int" [⟨"red", 0⟩, ⟨"red", 1⟩]

def tornEnum : Enumeration := ⟨⟨⟨1⟩, .named "a::E", .enum, 4, "a::E"⟩, ⟨2⟩, ⟨0⟩⟩

def tornSteps : List (Operation × Result) :=
  [(.declareScope .global "a" .namespace, .scope ⟨1⟩),
    (.buildEnum ⟨1⟩ "E" (.named "a::E") "int", .enumeration tornEnum),
    (.addEnumerator tornEnum "red" 0, .done)]

/-- The second enumerator fails. The namespace, the enum and the first enumerator stay. -/
theorem torn_leaves_first_enumerator :
    numbered.Plays torn.script tornSteps (.error (.duplicateMember "a::E" "red"))
        (attempt (apply torn) numbered).2 ∧
      (fresh.load
        { shapes with declarations := (fresh.load shapes).1.keep shapes.declarations }).2 =
          (fresh.load shapes).2 := by
  constructor
  · have h := (@skipped_leaves_completed_steps numbered ⟨_, _, rfl⟩).1 torn
      (.duplicateMember "a::E" "red") (attempt (apply torn) numbered).2
    have hfails : (attempt (apply torn) numbered).1 = .error (.duplicateMember "a::E" "red") := by
      decide +kernel
    obtain ⟨steps, hplays, -⟩ := h.1 (by rw [← hfails])
    have hown : numbered.Plays torn.script tornSteps (.error (.duplicateMember "a::E" "red")) _ :=
      .looked (.looked (.completed (execute_of_fst (by decide +kernel))
        (.completed (execute_of_fst (by decide +kernel))
          (.looked (.completed (execute_of_fst (by decide +kernel))
            (.failed (by decide +kernel)))))))
    obtain ⟨rfl, -, -⟩ := hplays.unique hown
    exact hplays
  · refine (@skipped_leaves_completed_steps fresh ⟨_, [], rfl⟩).2.2 shapes ?_
    intro i d hd _
    match i, hd with
    | 0, rfl => trivial
    | 1, rfl => rfl
    | 2, rfl => exact ⟨.global, rfl, .inr ⟨_, _, rfl⟩⟩

end Hub

end TypeCatalog
