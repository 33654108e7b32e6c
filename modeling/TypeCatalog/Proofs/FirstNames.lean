import TypeCatalog.Proofs.Origins

/-!
# The name of the first registration

A type keeps the name that was given when its key was first registered. For every type of a history
there is one operation that registered it, under a key that was free until then, and that gave it
its name.
-/

namespace TypeCatalog

/-- The operation, done on `hub`, gives `name` to the type under `key`, seen from a catalog after
it. Of a dictionary, the declaration counts with which the key is first registered. -/
inductive Operation.Gives (hub : Hub) (c : Catalog) : Operation → Key → String → Prop
  | register {key : Key} {kind : TypeKind} {size : Nat} {name : String} :
    Gives hub c (.register key kind size name) key name
  | declareClass {parent : ScopeId} {name qualified : String} {key : Key} {kind : TypeKind}
      {size : Nat} (carried : c.CarriedAs parent name key qualified) :
    Gives hub c (.declareClass parent name key kind size) key qualified
  | buildFundamental {name : String} {size : Nat} :
    Gives hub c (.buildFundamental name size) (.named name) name
  | buildNative {native name : String} {size : Nat} :
    Gives hub c (.buildNative native name size) (.native native) name
  | registerBuiltins {name : String} {size : Nat} (listed : (name, size) ∈ builtinFundamentals) :
    Gives hub c .registerBuiltins (.named name) name
  | buildEnum {parent : ScopeId} {name qualified underlying : String} {key : Key}
      (carried : c.CarriedAs parent name key qualified) :
    Gives hub c (.buildEnum parent name key underlying) key qualified
  | buildEnumOver {parent : ScopeId} {name qualified : String} {key : Key} {underlying : Handle}
      (carried : c.CarriedAs parent name key qualified) :
    Gives hub c (.buildEnumOver parent name key underlying) key qualified
  | apply {d : Declaration} {key : Key} {name : String} (declared : d.Gives hub c key name) :
    Gives hub c (.apply d) key name
  | load {dictionary : Dictionary} {before after : List Declaration} {d : Declaration} {key : Key}
      {name : String} (split : dictionary.declarations = before ++ d :: after)
      (free : (hub.applied before).catalog.types.lookup? key = none)
      (found : ((hub.applied (before ++ [d])).catalog.types.lookup? key).isSome)
      (declared : d.Gives (hub.applied before) (hub.applied (before ++ [d])).catalog key name) :
    Gives hub c (.load dictionary) key name

namespace Hub

/-- The operation has given their names to the types that are new after it. -/
def NamesNew (hub : Hub) (op : Operation) (hub' : Hub) : Prop :=
  hub.catalog.types.Brings (hub.Names (fun c => op.Gives hub c) hub'.catalog) hub'.catalog.types

/-! ## Dictionaries -/

theorem exists_first {α σ : Type} (holds : σ → Prop) {f : σ → α → σ} {xs : List α} {s : σ}
    (h : holds (xs.foldl f s)) (hstart : ¬holds s) :
    ∃ before a after, xs = before ++ a :: after ∧ ¬holds (before.foldl f s) ∧
      holds (f (before.foldl f s) a) := by
  induction xs generalizing s with
  | nil => exact absurd h hstart
  | cons x xs ih =>
    by_cases hx : holds (f s x)
    · exact ⟨[], x, xs, rfl, hstart, hx⟩
    · obtain ⟨before, a, after, rfl, hbefore, ha⟩ := ih h hx
      exact ⟨x :: before, a, after, rfl, hbefore, ha⟩

section Load

variable {hub : Hub} (wf : hub.catalog.WellFormed)

include wf

theorem applied_extends (ds more : List Declaration) :
    (hub.applied ds).catalog.Extends (hub.applied (ds ++ more)).catalog := by
  have wf' := applied_wellFormed wf ds
  rw [applied_append]
  exact (applied_grows wf' more).keeps wf'

theorem applied_brings (ds : List Declaration) (d : Declaration) :
    (hub.applied ds).Brings (fun c => d.Gives (hub.applied ds) c) (hub.applied (ds ++ [d])) := by
  rw [applied_append]
  exact attempt_holds (apply_brings _ (applied_wellFormed wf ds) d)

theorem applied_observers (ds : List Declaration) :
    (hub.applied ds).subscriptions = hub.subscriptions := by
  induction ds generalizing hub with
  | nil => rfl
  | cons d rest ih =>
    have hd := attempt_holds (apply_brings hub wf d)
    exact (ih (hd.grows.wellFormed wf)).trans hd.observers

theorem not_free_later {ds : List Declaration} {key : Key}
    (found : ((hub.applied ds).catalog.types.lookup? key).isSome) (more : List Declaration) :
    (hub.applied (ds ++ more)).catalog.types.lookup? key ≠ none := by
  obtain ⟨e, he⟩ := Option.isSome_iff_exists.1 found
  rw [(applied_extends wf ds more).types.lookup? he]
  simp

theorem first_unique {before before' after after' : List Declaration} {d d' : Declaration}
    {key : Key} (split : before ++ d :: after = before' ++ d' :: after')
    (free : (hub.applied before).catalog.types.lookup? key = none)
    (found : ((hub.applied (before ++ [d])).catalog.types.lookup? key).isSome)
    (free' : (hub.applied before').catalog.types.lookup? key = none)
    (found' : ((hub.applied (before' ++ [d'])).catalog.types.lookup? key).isSome) :
    before = before' ∧ d = d' := by
  rcases List.append_eq_append_iff.1 split with ⟨mid, rfl, hmid⟩ | ⟨mid, rfl, hmid⟩
  · cases mid with
    | nil => exact ⟨(List.append_nil _).symm, (List.cons.inj hmid).1⟩
    | cons x mid =>
      obtain ⟨rfl, -⟩ := List.cons.inj hmid
      have hlater := not_free_later wf found mid
      rw [List.append_assoc] at hlater
      exact absurd free' hlater
  · cases mid with
    | nil => exact ⟨List.append_nil _, (List.cons.inj hmid).1.symm⟩
    | cons x mid =>
      obtain ⟨rfl, -⟩ := List.cons.inj hmid
      have hlater := not_free_later wf found' mid
      rw [List.append_assoc] at hlater
      exact absurd free hlater

theorem load_brings (dictionary : Dictionary) :
    hub.Brings (fun c => (Operation.load dictionary).Gives hub c) (hub.load dictionary).2 := by
  rw [load_hub]
  refine ⟨applied_observers wf _, applied_grows wf _, ?_⟩
  intro e he
  by_cases hold : e ∈ hub.catalog.types.entries
  · exact .inl hold
  obtain ⟨before, d, after, hsplit, hbefore, hd⟩ :=
    exists_first (fun hub : Hub => e ∈ hub.catalog.types.entries) he hold
  have hone := applied_brings wf before d
  have wf' := (applied_wellFormed wf (before ++ [d])).types
  replace hd : e ∈ (hub.applied (before ++ [d])).catalog.types.entries := by
    rw [applied_append]
    exact hd
  have hfree := Registry.free_of_new wf' (applied_extends wf before [d]).types hd hbefore
  have hfound : ((hub.applied (before ++ [d])).catalog.types.lookup? e.key).isSome := by
    rw [Registry.lookup?_of_mem wf' hd]
    rfl
  obtain ⟨name, hname, hstored⟩ := (hone.types e hd).resolve_left hbefore
  refine .inr ⟨name, ?_, hstored⟩
  rcases hname with hgives | ⟨hnone, hechoes⟩
  · exact .inl (.load hsplit hfree hfound hgives)
  · refine .inr ⟨?_, hechoes.mono (applied_observers wf before).symm ?_⟩
    · rintro c' name' ⟨⟩
      next before' after' d' split free' found' declared =>
      obtain ⟨rfl, rfl⟩ := first_unique wf (hsplit.symm.trans split) hfree hfound free' found'
      exact hnone _ _ declared
    · have hlater := applied_extends wf (before ++ [d]) after
      rw [List.append_assoc, List.singleton_append] at hlater
      rw [hsplit]
      exact hlater

end Load

/-! ## Operations -/

section Operations

variable {hub : Hub} (wf : hub.catalog.WellFormed)

theorem gives_stable (hub : Hub) (op : Operation) : Stable fun c => op.Gives hub c := by
  intro c c' key name hext h
  cases h with
  | register => exact .register
  | declareClass carried => exact .declareClass (carried.mono hext)
  | buildFundamental => exact .buildFundamental
  | buildNative => exact .buildNative
  | registerBuiltins listed => exact .registerBuiltins listed
  | buildEnum carried => exact .buildEnum (carried.mono hext)
  | buildEnumOver carried => exact .buildEnumOver (carried.mono hext)
  | apply declared => exact .apply (declared.mono hext)
  | load split free found declared => exact .load split free found declared

include wf

theorem registerAll_brings (start : Hub) (all : List (String × Nat))
    (listed : ∀ x ∈ all, x ∈ builtinFundamentals) :
    After (registerAll all) hub
      (fun _ hub' => hub.Brings (fun c => Operation.registerBuiltins.Gives start c) hub')
      (fun _ hub' => hub.Brings (fun c => Operation.registerBuiltins.Gives start c) hub') := by
  have stable := gives_stable start .registerBuiltins
  induction all generalizing hub with
  | nil => exact after_pure _ (.refl hub)
  | cons new rest ih =>
    obtain ⟨name, size⟩ := new
    have hlisted := listed (name, size) (by simp)
    unfold registerAll
    have hstable : Stable fun _ k n => k = .named name ∧ n = name := fun _ _ _ _ _ h => h
    have hcommit := commit_brings wf hstable (fun _ _ _ h => h.1) (fun _ _ h => ⟨rfl, h⟩)
      (Change.fundamental_brings _ wf (.named name) name size)
    refine after_bind (hcommit.mono ?_ ?_)
    · intro e hub₁ h₁
      have hfirst : hub.Brings (fun c => Operation.registerBuiltins.Gives start c) hub₁ := by
        refine ⟨h₁.observers, h₁.grows, h₁.types.mono ?_⟩
        rintro k n (⟨rfl, rfl⟩ | ⟨-, hechoes⟩)
        · exact .inl (.registerBuiltins hlisted)
        · by_cases hgiven : ∃ c' n', Operation.registerBuiltins.Gives start c' k n'
          · obtain ⟨c', n', hgiven⟩ := hgiven
            cases hgiven with
            | registerBuiltins hother =>
              obtain rfl := Key.named.inj hechoes.1
              exact .inl (.registerBuiltins hother)
          · exact .inr ⟨fun c' n' h => hgiven ⟨c', n', h⟩, hechoes⟩
      refine after_bind ((ih (h₁.grows.wellFormed wf) fun x hx => listed x (by simp [hx])).mono
        ?_ ?_)
      · exact fun _ _ h => after_pure _ (hfirst.trans wf stable h)
      · exact fun _ _ h => hfirst.trans wf stable h
    · rintro fault hub' rfl
      exact .refl hub'

theorem apply_names (d : Declaration) :
    After (apply d) hub (fun _ hub' => hub.NamesNew (.apply d) hub')
      (fun _ hub' => hub.NamesNew (.apply d) hub') := by
  have through : ∀ hub', hub.Brings (fun c => d.Gives hub c) hub' →
      hub.NamesNew (.apply d) hub' := by
    intro hub' h
    refine h.types.mono ?_
    rintro k n (hgives | ⟨hnone, hechoes⟩)
    · exact .inl (.apply hgives)
    · refine .inr ⟨?_, hechoes⟩
      rintro c' n' ⟨⟩
      next declared => exact hnone _ _ declared
  exact (apply_brings hub wf d).mono (fun _ _ h => through _ h) fun _ _ h => through _ h

section Commit

variable {α : Type} {change : Change α} {op : Operation} (answer : α → Result)
  (hop : perform op = (do return answer (← commit change)))

omit wf in
include hop in
theorem commit_names
    (h : After (commit change) hub (fun _ hub' => hub.Brings (fun c => op.Gives hub c) hub')
      (fun _ hub' => hub' = hub)) : hub.NamesNew op (hub.execute op).2 := by
  refine execute_holds (fun hub' => hub.NamesNew op hub') ?_
  rw [hop]
  refine after_answer answer (h.mono ?_ ?_)
  · exact fun _ _ h => h.types
  · rintro fault hub' rfl
    exact .of_entries rfl

include hop

theorem commit_names_one {key : Key} {given : Catalog → String → Prop}
    (h : After change ⟨hub.catalog, []⟩ (fun _ d => Draft.Brings key given ⟨hub.catalog, []⟩ d)
      (fun _ d => d = ⟨hub.catalog, []⟩))
    (own : ∀ c k n, op.Gives hub c k n → k = key)
    (hgiven : ∀ c n, given c n → op.Gives hub c key n) : hub.NamesNew op (hub.execute op).2 :=
  commit_names answer hop (commit_brings wf (gives_stable hub op) own hgiven h)

theorem commit_names_none
    (h : After change ⟨hub.catalog, []⟩ (fun _ d => Draft.Spares ⟨hub.catalog, []⟩ d)
      (fun _ d => d = ⟨hub.catalog, []⟩)) : hub.NamesNew op (hub.execute op).2 :=
  commit_names answer hop ((commit_spares wf h).mono (fun _ _ h => h.brings) fun _ _ h => h)

end Commit

theorem execute_names (op : Operation) : hub.NamesNew op (hub.execute op).2 := by
  have settle := @execute_holds (fun hub' => hub.NamesNew op hub') op hub
  cases op with
  | register key kind size name =>
    refine commit_names_one wf .entry rfl (Change.register_brings _ wf key kind size name) ?_ ?_
    · rintro c k n ⟨⟩
      rfl
    · rintro c n rfl
      exact .register
  | setHidden handle hidden =>
    rcases execute_setHidden hub handle hidden with ⟨changed, types, hset, hsame⟩ | hsame
    · rw [hsame]
      refine .of_entries ?_
      show types.entries = hub.catalog.types.entries
      rw [(Registry.setHidden_ok hset).2.1]
    · rw [hsame]
      exact .of_entries rfl
  | declareScope parent name kind =>
    exact commit_names_none wf .scope rfl (Change.declareScope_spares _ wf parent name kind)
  | addMember scope name m =>
    exact commit_names_none wf (fun _ => .done) rfl (Change.addMember_spares _ scope name m)
  | attachType scope handle =>
    exact commit_names_none wf (fun _ => .done) rfl (Change.attachType_spares _ scope handle)
  | declareClass parent name key kind size =>
    refine commit_names_one wf .scope rfl
      (Change.declareClass_brings _ wf parent name key kind size) ?_ fun _ _ h => .declareClass h
    rintro c k n ⟨⟩
    rfl
  | buildFundamental name size =>
    refine commit_names_one wf .entry rfl
      (Change.fundamental_brings _ wf (.named name) name size) ?_ ?_
    · rintro c k n ⟨⟩
      rfl
    · rintro c n rfl
      exact .buildFundamental
  | buildNative native name size =>
    refine commit_names_one wf .entry rfl
      (Change.fundamental_brings _ wf (.native native) name size) ?_ ?_
    · rintro c k n ⟨⟩
      rfl
    · rintro c n rfl
      exact .buildNative
  | registerBuiltins =>
    have hall := registerAll_brings wf hub builtinFundamentals fun x hx => hx
    exact settle (after_answer .handles (hall.mono (fun _ _ h => h.types) fun _ _ h => h.types))
  | buildEnum parent name key underlying =>
    refine commit_names_one wf .enumeration rfl
      (Change.buildEnum_brings _ wf parent name key underlying) ?_ fun _ _ h => .buildEnum h
    rintro c k n ⟨⟩
    rfl
  | buildEnumOver parent name key underlying =>
    refine commit_names_one wf .enumeration rfl
      (Change.buildEnumOver_brings _ wf parent name key underlying) ?_ fun _ _ h => .buildEnumOver h
    rintro c k n ⟨⟩
    rfl
  | addEnumerator e name value =>
    exact commit_names_none wf (fun _ => .done) rfl (Change.addEnumerator_spares _ e name value)
  | apply d => exact settle (after_answer (fun _ => .done) (apply_names wf d))
  | load dictionary => exact (load_brings wf dictionary).types
  | subscribe selection echo => exact .of_entries rfl
  | unsubscribe id => exact .of_entries rfl

end Operations

/-- The operation, done on `hub`, registers the type under a free key and stores the name that is
given to it, without one leading `::`. -/
structure FirstRegisters (hub : Hub) (op : Operation) (e : Entry) : Prop where
  free : hub.catalog.types.lookup? e.key = none
  found : (hub.execute op).2.catalog.types.lookup? e.key = some e
  named : ∃ name, hub.Names (fun c => op.Gives hub c) (hub.execute op).2.catalog e.key name ∧
    e.name = Name.stripRoot name

theorem run_registers (hub : Hub) (wf : hub.catalog.WellFormed) (ops : List Operation) {e : Entry}
    (he : e ∈ (hub.run ops).catalog.types.entries) (hnew : e ∉ hub.catalog.types.entries) :
    ∃ before op after, ops = before ++ op :: after ∧ (hub.run before).FirstRegisters op e := by
  obtain ⟨before, op, after, hsplit, hbefore, hop⟩ :=
    exists_first (fun hub : Hub => e ∈ hub.catalog.types.entries) he hnew
  have wf₁ := run_wellFormed hub wf before
  have wf₂ := execute_wellFormed _ wf₁ op
  refine ⟨before, op, after, hsplit, ?_, Registry.lookup?_of_mem wf₂.types hop, ?_⟩
  · exact Registry.free_of_new wf₂.types (execute_extends _ wf₁ op).types hop hbefore
  · exact (execute_names wf₁ op e hop).resolve_left hbefore

/-- In every catalog the indices of the registry agree with a scan, and every type has the name with
which its key was first registered. -/
theorem types_agree_with_scan (settings : CatalogSettings) (ops : List Operation) :
    ((ofSettings settings).run ops).catalog.types.AgreesWithScan ∧
      ∀ e ∈ ((ofSettings settings).run ops).catalog.types.entries, ∃ before op after,
        ops = before ++ op :: after ∧
          ((ofSettings settings).run before).FirstRegisters op e := by
  refine ⟨run_agreesWithScan settings ops, ?_⟩
  intro e he
  refine run_registers _ (Catalog.empty_wellFormed settings) ops he ?_
  intro hempty
  cases hempty

/-- Three types with one name, of which the first is hidden. -/
def namesakes : List Operation :=
  [.register (.named "T") .class 8 "T", .register (.mangled "1T") .struct 4 "::T",
    .register (.mangled "2T") .union 2 "T", .setHidden ⟨0⟩ true]

theorem hidden_namesake_is_passed_over :
    let types := ((ofSettings Settings.default.catalog).run namesakes).catalog.types
    types.AgreesWithScan ∧
      types.matchName? "::T" = some ⟨⟨⟨1⟩, .mangled "1T", .struct, 4, "T"⟩, 2⟩ := by
  intro types
  have hscan := (types_agree_with_scan Settings.default.catalog namesakes).1
  refine ⟨hscan, (hscan.byName "::T").trans ?_⟩
  have hvisible : types.visible "::T" =
      [⟨⟨1⟩, .mangled "1T", .struct, 4, "T"⟩, ⟨⟨2⟩, .mangled "2T", .union, 2, "T"⟩] := by
    decide +kernel
  rw [hvisible]
  rfl

end Hub

end TypeCatalog
