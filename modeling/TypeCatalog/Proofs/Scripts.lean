import TypeCatalog.Proofs.Declarations

/-!
# Scripts

A declaration is applied by single operations, one after the other. Its script says which ones they
are. Applying it plays the script: the operations are completed up to the first one that fails, and
what they have done stays.
-/

namespace TypeCatalog

/-- Single operations in their order. What comes next may depend on the catalog by then and on the
answers so far. -/
inductive Script where
  | done
  | refuse (fault : Fault)
  | look (rest : Catalog → Script)
  | next (op : Operation) (rest : Result → Script)

namespace Result

def entry? : Result → Option Entry
  | .entry e => some e
  | _ => none

def scope? : Result → Option ScopeId
  | .scope id => some id
  | _ => none

def enumeration? : Result → Option Enumeration
  | .enumeration e => some e
  | _ => none

end Result

namespace Script

def single (op : Operation) : Script := .next op fun _ => .done

/-- An operation whose answer is needed. No operation answers with something of another sort. -/
def ask {α : Type} (answer? : Result → Option α) (op : Operation) (rest : α → Script) : Script :=
  .next op fun r => (answer? r).elim .done rest

/-- Something that must be in the catalog. -/
def need {α : Type} (find? : Catalog → Option α) (fault : Fault) (rest : α → Script) : Script :=
  .look fun c => (find? c).elim (.refuse fault) rest

def spell (names : List String) (rest : Modifiers → Script) : Script :=
  match Modifiers.ofKeywords names with
  | .ok m => rest m
  | .error unknown => .refuse (.dictionary ("unknown modifier '" ++ unknown ++ "'"))

/-- Along names, from the scope `current` called `path`. What is not known is declared. -/
def walk (arrive : ScopeId → Script) (current : ScopeId) (path : String) : List String → Script
  | [] => arrive current
  | name :: names => .look fun c =>
    match c.scopes.byName? (Name.join path name) with
    | some id => walk arrive id (Name.join path name) names
    | none => ask Result.scope? (.declareScope current name .namespace) fun id =>
      walk arrive id (Name.join path name) names

def reach (path : String) (arrive : ScopeId → Script) : Script := .look fun c =>
  match c.scopes.byName? (Name.stripRoot path) with
  | some id => arrive id
  | none => walk arrive .global "" (Name.parts (Name.stripRoot path))

/-- The enumerators that the enum does not have yet. -/
def additions (e : Enumeration) (existing : List Enumerator) : List Enumerator → Script
  | [] => .done
  | new :: rest =>
    if new ∈ existing then additions e existing rest
    else .next (.addEnumerator e new.name new.value) fun _ => additions e existing rest

/-- Whether all operations that the script may come to are allowed. -/
def Uses (allowed : Operation → Prop) : Script → Prop
  | .done | .refuse _ => True
  | .look rest => ∀ c, (rest c).Uses allowed
  | .next op rest => allowed op ∧ ∀ r, (rest r).Uses allowed

end Script

namespace Declaration

/-- The operations of a declaration. -/
def script : Declaration → Script
  | .fundamental name size => .single (.buildFundamental name size)
  | .namespace name => .reach name fun _ => .done
  | .classType sort name key size => .reach (Name.enclosing name) fun parent =>
    .single (.declareClass parent (Name.last name) (.ofSymbol key name) sort.kind size)
  | .typedef name target => .need (·.types.lookupName? target) (.unknownType target) fun t =>
    .reach (Name.enclosing name) fun parent =>
      .ask Result.entry? (.register (.named name) .typedef t.size name) fun e =>
        .single (.addMember parent (Name.last name) (.type e.handle))
  | .pointer target => .need (·.types.lookupName? target) (.unknownType target) fun _ =>
    .single (.register (.named (target ++ " *")) .pointer 8 (target ++ " *"))
  | .enum name key underlying enumerators => .reach (Name.enclosing name) fun parent =>
    .ask Result.enumeration? (.buildEnum parent (Name.last name) (.ofSymbol key name) underlying)
      fun e => .look fun c => .additions e (c.enumerators e) enumerators
  | .function scope name signature modifiers =>
    .need (·.scopes.byName? scope) (.unknownType scope) fun id => .spell modifiers fun m =>
      .ask Result.entry? (.register (.named signature) .function 0 signature) fun e =>
        .single (.addMember id name (.function e.handle m))
  | .dataMember scope name type offset modifiers =>
    .need (·.scopes.byName? scope) (.unknownType scope) fun id => .spell modifiers fun m =>
      .need (·.types.lookupName? type) (.unknownType type) fun e =>
        .single (.addMember id name (.dataMember e.handle offset m))

/-- The namespaces that a name is in, as the loader goes through them. -/
def surroundings (name : String) : List String :=
  Name.parts (Name.stripRoot (Name.enclosing name))

/-- The names under which a declaration may declare scopes. -/
def scopeNames : Declaration → List String
  | .namespace name => Name.parts (Name.stripRoot name)
  | .classType _ name _ _ | .enum name _ _ _ =>
    surroundings name ++ [Name.last name]
  | .typedef name _ => surroundings name
  | .fundamental _ _ | .pointer _ | .function _ _ _ _ | .dataMember _ _ _ _ _ => []

end Declaration

/-! ## The operations of a script -/

namespace Script

variable {allowed : Operation → Prop}

theorem Uses.mono {larger : Operation → Prop} {script : Script} (h : script.Uses allowed)
    (hl : ∀ op, allowed op → larger op) : script.Uses larger := by
  induction script with
  | done | refuse fault => trivial
  | look rest ih => exact fun c => ih c (h c)
  | next op rest ih => exact ⟨hl op h.1, fun r => ih r (h.2 r)⟩

theorem ask_uses {α : Type} {answer? : Result → Option α} {op : Operation} {rest : α → Script}
    (hop : allowed op) (hrest : ∀ a, (rest a).Uses allowed) :
    (ask answer? op rest).Uses allowed := by
  refine ⟨hop, ?_⟩
  intro r
  show ((answer? r).elim .done rest).Uses allowed
  cases answer? r with
  | none => trivial
  | some a => exact hrest a

theorem need_uses {α : Type} {find? : Catalog → Option α} {fault : Fault} {rest : α → Script}
    (hrest : ∀ a, (rest a).Uses allowed) : (need find? fault rest).Uses allowed := by
  intro c
  show ((find? c).elim (.refuse fault) rest).Uses allowed
  cases find? c with
  | none => trivial
  | some a => exact hrest a

theorem spell_uses {names : List String} {rest : Modifiers → Script}
    (hrest : ∀ m, (rest m).Uses allowed) : (spell names rest).Uses allowed := by
  unfold spell
  cases Modifiers.ofKeywords names with
  | error unknown => trivial
  | ok m => exact hrest m

theorem walk_uses {arrive : ScopeId → Script} (current : ScopeId) (path : String)
    {names : List String} (hnames : ∀ name ∈ names, ∀ parent,
      allowed (.declareScope parent name .namespace)) (harrive : ∀ id, (arrive id).Uses allowed) :
    (walk arrive current path names).Uses allowed := by
  induction names generalizing current path with
  | nil => exact harrive current
  | cons name names ih =>
    have hrest := fun id => ih id (Name.join path name) fun n hn => hnames n (by simp [hn])
    intro c
    show (match c.scopes.byName? (Name.join path name) with
      | some id => walk arrive id (Name.join path name) names
      | none => _).Uses allowed
    split
    · exact hrest _
    · exact ask_uses (hnames name (by simp) current) hrest

theorem reach_uses {path : String} {arrive : ScopeId → Script}
    (hnames : ∀ name ∈ Name.parts (Name.stripRoot path), ∀ parent,
      allowed (.declareScope parent name .namespace)) (harrive : ∀ id, (arrive id).Uses allowed) :
    (reach path arrive).Uses allowed := by
  intro c
  show (match c.scopes.byName? (Name.stripRoot path) with
    | some id => arrive id
    | none => _).Uses allowed
  split
  · exact harrive _
  · exact walk_uses _ _ hnames harrive

theorem additions_uses {e : Enumeration}
    (hadd : ∀ name value, allowed (.addEnumerator e name value))
    (existing news : List Enumerator) : (additions e existing news).Uses allowed := by
  induction news with
  | nil => trivial
  | cons new rest ih =>
    unfold additions
    split
    · exact ih
    · exact ⟨hadd _ _, fun _ => ih⟩

end Script

theorem Declaration.script_uses (d : Declaration) :
    d.script.Uses fun op => op.Adds (· ∈ d.scopeNames) := by
  cases d with
  | fundamental name size => exact ⟨trivial, fun _ => trivial⟩
  | «namespace» name => exact Script.reach_uses (fun n hn _ => hn) fun _ => trivial
  | classType sort name key size =>
    refine Script.reach_uses (fun n hn _ => List.mem_append_left _ hn) ?_
    exact fun _ => ⟨by simp [Operation.Adds, scopeNames], fun _ => trivial⟩
  | typedef name target =>
    refine Script.need_uses fun t => Script.reach_uses (fun n hn _ => hn) ?_
    exact fun _ => Script.ask_uses trivial fun _ => ⟨trivial, fun _ => trivial⟩
  | pointer target => exact Script.need_uses fun _ => ⟨trivial, fun _ => trivial⟩
  | enum name key underlying enumerators =>
    refine Script.reach_uses (fun n hn _ => List.mem_append_left _ hn) fun parent => ?_
    refine Script.ask_uses (by simp [Operation.Adds, scopeNames]) fun e c => ?_
    exact Script.additions_uses (fun _ _ => trivial) _ _
  | function scope name signature modifiers =>
    refine Script.need_uses fun id => Script.spell_uses fun m => ?_
    exact Script.ask_uses trivial fun _ => ⟨trivial, fun _ => trivial⟩
  | dataMember scope name type offset modifiers =>
    refine Script.need_uses fun id => Script.spell_uses fun m => Script.need_uses fun e => ?_
    exact ⟨trivial, fun _ => trivial⟩

/-! ## Playing a script -/

namespace Hub

/-- The operations that are completed, each with its answer, before the script comes to an end or
something fails. An operation that fails leaves the hub as it is. -/
inductive Plays : Hub → Script → List (Operation × Result) → Except Fault Unit → Hub → Prop
  | done (hub : Hub) : Plays hub .done [] (.ok ()) hub
  | refused (hub : Hub) (fault : Fault) : Plays hub (.refuse fault) [] (.error fault) hub
  | looked {hub hub' : Hub} {rest : Catalog → Script} {steps : List (Operation × Result)}
      {outcome : Except Fault Unit} (more : Plays hub (rest hub.catalog) steps outcome hub') :
    Plays hub (.look rest) steps outcome hub'
  | failed {hub : Hub} {op : Operation} {rest : Result → Script} {fault : Fault}
      (fails : hub.execute op = (.error fault, hub)) :
    Plays hub (.next op rest) [] (.error fault) hub
  | completed {hub mid hub' : Hub} {op : Operation} {r : Result} {rest : Result → Script}
      {steps : List (Operation × Result)} {outcome : Except Fault Unit}
      (first : hub.execute op = (.ok r, mid)) (more : Plays mid (rest r) steps outcome hub') :
    Plays hub (.next op rest) ((op, r) :: steps) outcome hub'

namespace Plays

variable {hub hub' hub'' : Hub} {script : Script} {steps steps' : List (Operation × Result)}
  {outcome outcome' : Except Fault Unit}

theorem unique (h : hub.Plays script steps outcome hub')
    (h' : hub.Plays script steps' outcome' hub'') :
    steps = steps' ∧ outcome = outcome' ∧ hub' = hub'' := by
  induction h generalizing steps' outcome' hub'' with
  | done hub | refused hub fault =>
    cases h'
    exact ⟨rfl, rfl, rfl⟩
  | looked more ih =>
    cases h' with
    | looked more' => exact ih more'
  | failed fails =>
    cases h' with
    | failed fails' =>
      cases fails.symm.trans fails'
      exact ⟨rfl, rfl, rfl⟩
    | completed first more' => cases fails.symm.trans first
  | completed first more ih =>
    cases h' with
    | failed fails => cases first.symm.trans fails
    | completed first' more' =>
      cases first.symm.trans first'
      obtain ⟨rfl, rfl, rfl⟩ := ih more'
      exact ⟨rfl, rfl, rfl⟩

theorem completes (h : hub.Plays script steps outcome hub') : hub.Completes steps hub' := by
  induction h with
  | done hub | refused hub fault => exact .nil hub
  | looked more ih => exact ih
  | failed fails => exact .nil _
  | completed first more ih => exact .cons first ih

theorem uses {allowed : Operation → Prop} (h : hub.Plays script steps outcome hub')
    (uses : script.Uses allowed) : ∀ step ∈ steps, allowed step.1 := by
  induction h with
  | done hub | refused hub fault | failed fails => simp
  | looked more ih => exact ih (uses _)
  | completed first more ih => exact List.forall_mem_cons.2 ⟨uses.1, ih (uses.2 _)⟩

end Plays

def Ends (hub : Hub) (script : Script) (outcome : Except Fault Unit) (hub' : Hub) : Prop :=
  ∃ steps, hub.Plays script steps outcome hub'

/-! ## Work that enacts a script -/

def Enacts (work : HubM Unit) (hub : Hub) (script : Script) : Prop :=
  After work hub (fun _ => hub.Ends script (.ok ())) fun fault => hub.Ends script (.error fault)

/-- The work is the first part of a script, whatever the rest is. -/
def Opens {α : Type} (work : HubM α) (hub : Hub) (first : (α → Script) → Script) : Prop :=
  ∀ rest, After work hub
    (fun a mid => mid.catalog.WellFormed ∧ ∀ outcome hub', mid.Ends (rest a) outcome hub' →
      hub.Ends (first rest) outcome hub')
    fun fault => hub.Ends (first rest) (.error fault)

section Enacts

variable {α β : Type} {hub : Hub}

theorem Ends.look {rest : Catalog → Script} {outcome : Except Fault Unit} {hub' : Hub}
    (h : hub.Ends (rest hub.catalog) outcome hub') : hub.Ends (.look rest) outcome hub' := by
  obtain ⟨steps, hplays⟩ := h
  exact ⟨steps, .looked hplays⟩

theorem Ends.after {mid hub' : Hub} {op : Operation} {r : Result} {rest : Result → Script}
    {outcome : Except Fault Unit} (h : mid.Ends (rest r) outcome hub')
    (first : hub.execute op = (.ok r, mid)) : hub.Ends (.next op rest) outcome hub' := by
  obtain ⟨steps, hplays⟩ := h
  exact ⟨_, .completed first hplays⟩

theorem Opens.enacts {work : HubM α} {first : (α → Script) → Script} (h : Opens work hub first)
    {f : α → HubM Unit} {rest : α → Script}
    (hrest : ∀ a mid, mid.catalog.WellFormed → Enacts (f a) mid (rest a)) :
    Enacts (work >>= f) hub (first rest) := by
  refine after_bind ((h rest).mono ?_ fun _ _ h => h)
  rintro a mid ⟨wf, lead⟩
  exact (hrest a mid wf).mono (fun _ _ h => lead _ _ h) fun _ _ h => lead _ _ h

theorem Opens.enacts_discard {work : HubM α} {first : (α → Script) → Script}
    (h : Opens work hub first) {f : PUnit → HubM Unit} {rest : Script}
    (hrest : ∀ mid, mid.catalog.WellFormed → Enacts (f ⟨⟩) mid rest) :
    Enacts (discard work >>= f) hub (first fun _ => rest) := by
  refine after_bind (after_discard ((h _).mono ?_ fun _ _ h => h))
  rintro a mid ⟨wf, lead⟩
  exact (hrest mid wf).mono (fun _ _ h => lead _ _ h) fun _ _ h => lead _ _ h

theorem Opens.bind {work : HubM α} {first : (α → Script) → Script} (h : Opens work hub first)
    {f : α → HubM β} {second : α → (β → Script) → Script}
    (hf : ∀ a mid, mid.catalog.WellFormed → Opens (f a) mid (second a)) :
    Opens (work >>= f) hub fun rest => first fun a => second a rest := by
  intro rest
  refine after_bind ((h _).mono ?_ fun _ _ h => h)
  rintro a mid ⟨wf, lead⟩
  refine (hf a mid wf rest).mono ?_ fun _ _ h => lead _ _ h
  exact fun b hub' ⟨wf', lead'⟩ => ⟨wf', fun _ _ h => lead _ _ (lead' _ _ h)⟩

theorem opens_pure (wf : hub.catalog.WellFormed) (a : α) :
    Opens (pure a) hub fun rest => rest a :=
  fun _ => after_pure _ ⟨wf, fun _ _ h => h⟩

theorem opens_throw (fault : Fault) :
    Opens (throw fault : HubM α) hub fun _ => .refuse fault :=
  fun _ => ⟨[], .refused hub fault⟩

theorem opens_catalogNow {f : Catalog → HubM α} {first : (α → Script) → Catalog → Script}
    (h : Opens (f hub.catalog) hub fun rest => first rest hub.catalog) :
    Opens (catalogNow >>= f) hub fun rest => .look (first rest) := by
  intro rest
  refine after_catalogNow ((h rest).mono ?_ fun _ _ h => h.look)
  exact fun a mid ⟨wf, lead⟩ => ⟨wf, fun _ _ h => (lead _ _ h).look⟩

theorem enacts_catalogNow {f : Catalog → HubM Unit} {rest : Catalog → Script}
    (h : Enacts (f hub.catalog) hub (rest hub.catalog)) :
    Enacts (catalogNow >>= f) hub (.look rest) :=
  after_catalogNow (h.mono (fun _ _ h => h.look) fun _ _ h => h.look)

section Commit

variable (wf : hub.catalog.WellFormed) {change : Change α} (op : Operation) (answer : α → Result)
  (adds : op.Adds fun _ => True) (hop : perform op = (do return answer (← commit change)))

include wf adds hop

theorem opens_commit {answer? : Result → Option α} (reads : ∀ a, answer? (answer a) = some a) :
    Opens (commit change) hub (.ask answer? op) := by
  intro rest
  refine (commit_executes wf op answer adds hop).mono ?_ ?_
  · rintro a mid ⟨wf', first⟩
    refine ⟨wf', fun outcome hub' hrest => Ends.after ?_ first⟩
    rw [reads]
    exact hrest
  · rintro fault mid ⟨rfl, fails⟩
    exact ⟨[], .failed fails⟩

theorem commit_enacts :
    After (commit change) hub (fun _ => hub.Ends (.single op) (.ok ()))
      fun fault => hub.Ends (.single op) (.error fault) := by
  refine (commit_executes wf op answer adds hop).mono ?_ ?_
  · rintro a mid ⟨-, first⟩
    exact ⟨_, .completed first (.done mid)⟩
  · rintro fault mid ⟨rfl, fails⟩
    exact ⟨[], .failed fails⟩

end Commit

/-! ## What a declaration mentions -/

variable (wf : hub.catalog.WellFormed)

include wf

theorem opens_requireType (name : String) :
    Opens (requireType name) hub (.need (·.types.lookupName? name) (.unknownType name)) := by
  refine opens_catalogNow ?_
  beta_reduce
  cases hub.catalog.types.lookupName? name with
  | none => exact opens_throw _
  | some e => exact opens_pure wf e

theorem opens_requireScope (name : String) :
    Opens (requireScope name) hub (.need (·.scopes.byName? name) (.unknownType name)) := by
  refine opens_catalogNow ?_
  beta_reduce
  cases hub.catalog.scopes.byName? name with
  | none => exact opens_throw _
  | some id => exact opens_pure wf id

theorem opens_requireModifiers (names : List String) :
    Opens (requireModifiers names) hub (.spell names) := by
  unfold requireModifiers Script.spell
  cases Modifiers.ofKeywords names with
  | error unknown => exact opens_throw _
  | ok m => exact opens_pure wf m

theorem opens_walk (current : ScopeId) (path : String) (names : List String) :
    Opens (walk current path names) hub fun arrive => .walk arrive current path names := by
  induction names generalizing hub current path with
  | nil => exact opens_pure wf current
  | cons name names ih =>
    simp only [walk, Script.walk]
    refine opens_catalogNow ?_
    cases hub.catalog.scopes.byName? (Name.join path name) with
    | some id => exact ih wf id (Name.join path name)
    | none =>
      have hdeclare : Opens (commit (Change.declareScope current name .namespace)) hub
          (.ask Result.scope? (.declareScope current name .namespace)) :=
        opens_commit wf (.declareScope current name .namespace) .scope trivial rfl fun _ => rfl
      exact hdeclare.bind fun id mid wf' => ih wf' id (Name.join path name)

theorem opens_ensureNamespace (path : String) :
    Opens (ensureNamespace path) hub (.reach path) := by
  unfold ensureNamespace
  refine opens_catalogNow ?_
  cases hknown : hub.catalog.scopes.byName? (Name.stripRoot path) with
  | some id => exact opens_pure wf id
  | none =>
    rw [parts_of_unknown wf hknown]
    exact opens_walk wf .global "" _

/-! ## Declarations -/

theorem addEnumerators_enacts (e : Enumeration) (existing news : List Enumerator) :
    Enacts (addEnumerators e existing news) hub (.additions e existing news) := by
  induction news generalizing hub with
  | nil => exact after_pure _ ⟨[], .done hub⟩
  | cons new rest ih =>
    unfold addEnumerators Script.additions
    split
    · exact ih wf
    · refine after_bind ((commit_executes wf (.addEnumerator e new.name new.value) (fun _ => .done)
        trivial rfl).mono ?_ ?_)
      · rintro _ mid ⟨wf', first⟩
        exact (ih wf').mono (fun _ _ h => h.after first) fun _ _ h => h.after first
      · rintro fault mid ⟨rfl, fails⟩
        exact ⟨[], .failed fails⟩

/-- A declaration is applied as its script says. -/
theorem apply_enacts (d : Declaration) : Enacts (apply d) hub d.script := by
  cases d with
  | fundamental name size =>
    exact after_discard (commit_enacts wf (.buildFundamental name size) .entry trivial rfl)
  | «namespace» name =>
    have h := (opens_ensureNamespace wf name) fun _ => .done
    refine after_discard (h.mono ?_ fun _ _ h => h)
    exact fun _ hub' ⟨_, lead⟩ => lead _ _ ⟨[], .done hub'⟩
  | classType sort name key size =>
    rw [apply_classType_eq]
    refine (opens_ensureNamespace wf _).enacts fun parent mid wf₁ => ?_
    exact after_discard (commit_enacts wf₁ _ .scope trivial rfl)
  | typedef name target =>
    rw [apply_typedef_eq]
    refine (opens_requireType wf target).enacts fun t hub₁ wf₁ => ?_
    refine (opens_ensureNamespace wf₁ _).enacts fun parent hub₂ wf₂ => ?_
    refine (opens_commit wf₂ (.register (.named name) .typedef t.size name) .entry trivial rfl
      fun _ => rfl).enacts fun e hub₃ wf₃ => ?_
    exact commit_enacts wf₃ (.addMember parent (Name.last name) (.type e.handle)) (fun _ => .done)
      trivial rfl
  | pointer target =>
    refine (opens_requireType wf target).enacts_discard fun mid wf₁ => ?_
    exact after_discard (commit_enacts wf₁
      (.register (.named (target ++ " *")) .pointer 8 (target ++ " *")) .entry trivial rfl)
  | enum name key underlying enumerators =>
    rw [apply_enum_eq]
    refine (opens_ensureNamespace wf _).enacts fun parent hub₁ wf₁ => ?_
    refine (opens_commit wf₁ (.buildEnum parent (Name.last name) (.ofSymbol key name) underlying)
      .enumeration trivial rfl fun _ => rfl).enacts fun e hub₂ wf₂ => ?_
    exact enacts_catalogNow (addEnumerators_enacts wf₂ e _ enumerators)
  | function scope name signature modifiers =>
    refine (opens_requireScope wf scope).enacts fun id hub₁ wf₁ => ?_
    refine (opens_requireModifiers wf₁ modifiers).enacts fun m hub₂ wf₂ => ?_
    refine (opens_commit wf₂ (.register (.named signature) .function 0 signature) .entry trivial rfl
      fun _ => rfl).enacts fun e hub₃ wf₃ => ?_
    exact commit_enacts wf₃ (.addMember id name (.function e.handle m)) (fun _ => .done)
      trivial rfl
  | dataMember scope name type offset modifiers =>
    refine (opens_requireScope wf scope).enacts fun id hub₁ wf₁ => ?_
    refine (opens_requireModifiers wf₁ modifiers).enacts fun m hub₂ wf₂ => ?_
    refine (opens_requireType wf₂ type).enacts fun e hub₃ wf₃ => ?_
    exact commit_enacts wf₃ (.addMember id name (.dataMember e.handle offset m)) (fun _ => .done)
      trivial rfl

end Enacts

end Hub

end TypeCatalog
