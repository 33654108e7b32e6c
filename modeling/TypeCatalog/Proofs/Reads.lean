import TypeCatalog.Proofs.References
import TypeCatalog.Proofs.Unchecked

/-!
# Reads that do not break off

In a catalog in which nothing dangles no unchecked read breaks off, and the answer is the one of the
step that asks. A change reads unasked only what it starts from or what it has looked up before, so
no change breaks off that starts from such a catalog.
-/

namespace TypeCatalog

/-! ## No read breaks off -/

namespace ScopeTree

variable {t : ScopeTree}

theorem modifyUnchecked_eq {id : ScopeId} {s : Scope} (hs : t.get? id = some s)
    (f : Scope → Scope) : t.modifyUnchecked id f = some (t.modify id f) := by
  rw [modifyUnchecked, hs]
  rfl

theorem addMemberUnchecked_eq (t : ScopeTree) (scope : ScopeId) (name : String) (m : Member) :
    t.addMemberUnchecked scope name m = some (t.addMember scope name m) := by
  unfold addMemberUnchecked addMember
  cases hs : t.get? scope with
  | none => rfl
  | some s =>
    simp only
    cases t.checkOwner scope name m with
    | error fault => rfl
    | ok _ =>
      simp only
      cases s.members.get? name with
      | some m' => rfl
      | none =>
        simp only [modifyUnchecked_eq hs]
        rfl

theorem attachUnchecked_eq (t : ScopeTree) (scope : ScopeId) (h : Handle) :
    t.attachUnchecked scope h = some (t.attach scope h) := by
  unfold attachUnchecked attach
  cases hs : t.get? scope with
  | none => rfl
  | some s =>
    simp only
    cases s.facet with
    | some h' => rfl
    | none =>
      simp only [modifyUnchecked_eq hs]
      rfl

theorem binds_of_member? {id : ScopeId} {name : String} {m : Member}
    (hm : t.member? id name = some m) : t.Binds id name m := by
  obtain ⟨s, hs, hsm⟩ := Option.bind_eq_some_iff.1 hm
  refine ⟨s.members.entries, ?_, Table.mem_entries_of_get? hsm⟩
  rw [members?, hs]
  rfl

end ScopeTree

namespace Catalog.NothingDangles

variable {c : Catalog} (live : c.NothingDangles)

include live

theorem declareUnchecked_eq (parent : ScopeId) (name : String) (kind : ScopeKind) :
    c.scopes.declareUnchecked parent name kind = some (c.scopes.declare parent name kind) := by
  unfold ScopeTree.declareUnchecked ScopeTree.declare
  cases hp : c.scopes.get? parent with
  | none => rfl
  | some p =>
    simp only
    cases hm : p.members.get? name with
    | none =>
      simp only
      -- The list with the new scope is longer, so the parent is still there.
      have hgrown : ∀ scope, ScopeTree.get?
          { c.scopes with scopes := c.scopes.scopes ++ [scope] } parent = some p := by
        intro scope
        rw [ScopeTree.get?, List.getElem?_append_left (ScopeTree.get?_lt hp)]
        exact hp
      rw [ScopeTree.modifyUnchecked_eq (hgrown _)]
      rfl
    | some m =>
      cases m with
      | scope id =>
        have hbinds : c.scopes.Binds parent name (.scope id) :=
          ScopeTree.binds_of_member? (by rw [ScopeTree.member?_of_get? hp, hm])
        obtain ⟨s, hs⟩ := Option.isSome_iff_exists.1 (live.child hbinds)
        simp only [hs, Option.map_some]
      | type h | enumerator h v | function h mods | dataMember h o mods => rfl

-- A scope that is bound but not there would be read out of bounds.
example : (ScopeTree.empty.bind .global "a" (.scope ⟨1⟩)).declareUnchecked .global "a" .class =
    none := by decide

theorem inside {scope id : ScopeId} {name : String} {m : Member}
    (hm : c.scopes.Binds scope name m) (hid : c.scopes.inside? m = some id) :
    ∃ s, c.scopes.get? id = some s := by
  refine Option.isSome_iff_exists.1 ?_
  cases m with
  | scope child =>
    obtain rfl := Option.some.inj hid
    exact live.child hm
  | type h => exact (live.byType hid).2
  | enumerator h v | function h mods | dataMember h o mods => cases hid

theorem descendUnchecked_eq {scope : ScopeId} {name : String} {m : Member}
    (hm : c.scopes.Binds scope name m) (names : List String) :
    c.scopes.descendUnchecked m names = some (c.scopes.descend? m names) := by
  induction names generalizing scope name m with
  | nil => rfl
  | cons next rest ih =>
    unfold ScopeTree.descendUnchecked ScopeTree.descend?
    cases hid : c.scopes.inside? m with
    | none => rfl
    | some id =>
      obtain ⟨s, hs⟩ := live.inside hm hid
      have hmember := ScopeTree.member?_of_get? hs next
      simp only [hs, Option.bind_eq_bind, Option.bind_some, hmember]
      cases hnext : s.members.get? next with
      | none => rfl
      | some m' =>
        rw [hnext] at hmember
        exact ih (ScopeTree.binds_of_member? hmember)

theorem resolvePathUnchecked_eq (start : ScopeId) (path : String) :
    c.scopes.resolvePathUnchecked start path = some (c.scopes.resolvePath? start path) := by
  unfold ScopeTree.resolvePathUnchecked ScopeTree.resolvePath?
  simp only
  generalize (if Name.isAbsolute path then ScopeId.global else start) = start'
  cases hm : c.scopes.resolve? start' (Name.components (Name.stripRoot path)).1 with
  | none => rfl
  | some m =>
    obtain ⟨id, -, hbound⟩ := List.exists_of_findSome?_eq_some hm
    simp only [Option.bind_some]
    exact live.descendUnchecked_eq (ScopeTree.binds_of_member? hbound) _

theorem matchNameUnchecked_eq (name : String) :
    c.types.matchNameUnchecked name = some (c.types.matchName? name) := by
  unfold Registry.matchNameUnchecked Registry.matchName?
  have hnamed := @live.named (Name.stripRoot name)
  unfold Registry.handlesNamed at hnamed
  cases hhandles : c.types.byName.get? (Name.stripRoot name) with
  | none => rfl
  | some handles =>
    rw [hhandles, Option.getD_some] at hnamed
    simp only [Option.getD_some]
    cases hvisible : handles.filter fun h => !c.types.isHidden h with
    | nil => rfl
    | cons h rest =>
      have hmem : h ∈ handles.filter fun h => !c.types.isHidden h := by
        rw [hvisible]
        exact List.mem_cons_self
      obtain ⟨e, he⟩ := Option.isSome_iff_exists.1 (hnamed h (List.mem_filter.1 hmem).1)
      simp only [he, Option.map_some]
      rfl

end Catalog.NothingDangles

namespace Unchecked

/-! ## Work that does not break off -/

section Agrees

variable {σ α β : Type} {twin : Unchecked σ α} {work : EStateM Fault σ α} {s : σ}

/-- In this state the work does not break off, and it does what `work` does. -/
def Agrees (twin : Unchecked σ α) (work : EStateM Fault σ α) (s : σ) : Prop :=
  EStateM.run twin.run s = EStateM.run (do return some (← work)) s

theorem Agrees.at_ok (h : Agrees twin work s) {a : α} {s' : σ}
    (hrun : EStateM.run work s = .ok a s') : EStateM.run twin.run s = .ok (some a) s' := by
  rw [h, run_bind hrun]
  rfl

theorem Agrees.at_error (h : Agrees twin work s) {fault : Fault} {s' : σ}
    (hrun : EStateM.run work s = .error fault s') :
    EStateM.run twin.run s = .error fault s' := by
  rw [h, run_bind_error hrun]

theorem agrees_lift (work : EStateM Fault σ α) (s : σ) : Agrees (liftM work) work s := rfl

theorem agrees_pure (a : α) (s : σ) : Agrees (pure a) (pure a) s := rfl

theorem agrees_refuse (fault : Fault) (s : σ) :
    Agrees (refuse fault : Unchecked σ α) (throw fault) s := rfl

theorem agrees_bind {f : α → Unchecked σ β} {g : α → EStateM Fault σ β} (h : Agrees twin work s)
    (rest : After work s (fun a s' => Agrees (f a) (g a) s') fun _ _ => True) :
    Agrees (twin >>= f) (work >>= g) s := by
  show EStateM.run (twin.run >>= _) s = EStateM.run ((work >>= g) >>= _) s
  cases hrun : EStateM.run work s with
  | ok a s' =>
    rw [run_bind (h.at_ok hrun), bind_assoc, run_bind hrun]
    exact rest.at_ok hrun
  | error fault s' =>
    rw [run_bind_error (h.at_error hrun), run_bind_error (run_bind_error hrun)]

theorem agrees_discard (h : Agrees twin work s) : Agrees (discard twin) (discard work) s := by
  show EStateM.run (twin.run >>= _) s = EStateM.run (discard work >>= _) s
  cases hrun : EStateM.run work s with
  | ok a s' =>
    rw [run_bind (h.at_ok hrun), run_bind (run_discard hrun)]
    rfl
  | error fault s' =>
    have hdiscard : EStateM.run (discard work) s = .error fault s' := by
      simp only [EStateM.run, Functor.discard, Functor.mapConst, Function.comp,
        EStateM.map] at hrun ⊢
      rw [hrun]
    rw [run_bind_error (h.at_error hrun), run_bind_error hdiscard]

theorem agrees_then {f : α → Unchecked σ β} {g : α → EStateM Fault σ β} (h : Agrees twin work s)
    (rest : ∀ a s', Agrees (f a) (g a) s') : Agrees (twin >>= f) (work >>= g) s := by
  refine agrees_bind h ?_
  unfold After
  split
  · exact rest _ _
  · trivial

theorem agrees_probe {f : α → Unchecked σ β} {work : EStateM Fault σ β} {answer : Option α} {a : α}
    (ha : answer = some a) (h : Agrees (f a) work s) : Agrees (probe answer >>= f) work s := by
  rw [ha]
  exact h

end Agrees

/-! ## Changes -/

section Change

variable {d : Draft}

theorem agrees_catalog {α : Type} {f : Catalog → Unchecked Draft α} {g : Catalog → Change α}
    (h : Agrees (f d.catalog) (g d.catalog) d) :
    Agrees (liftM Change.catalog >>= f) (Change.catalog >>= g) d := h

theorem declareScope_agrees (live : d.catalog.NothingDangles) (parent : ScopeId) (name : String)
    (kind : ScopeKind) :
    Agrees (declareScope parent name kind) (Change.declareScope parent name kind) d := by
  unfold declareScope Change.declareScope
  refine agrees_catalog (agrees_probe (live.declareUnchecked_eq parent name kind) ?_)
  refine agrees_then (agrees_lift _ d) ?_
  rintro ⟨outcome, scopes⟩ d'
  refine agrees_then (agrees_lift _ d') fun _ d'' => ?_
  cases outcome with
  | existing id => exact agrees_pure id d''
  | created id =>
    simp only
    cases scopes.info? id with
    | none => exact agrees_pure id d''
    | some info => exact agrees_then (agrees_lift _ d'') fun _ d''' => agrees_pure id d'''

theorem addMember_agrees (scope : ScopeId) (name : String) (m : Member) :
    Agrees (addMember scope name m) (Change.addMember scope name m) d := by
  unfold addMember Change.addMember
  -- The member is bound after its type, if it has one, was looked up.
  extract_lets bindUnchecked bindMember
  have hbind : ∀ d', Agrees (bindUnchecked ⟨⟩) (bindMember ⟨⟩) d' := by
    intro d'
    refine agrees_catalog (agrees_probe (ScopeTree.addMemberUnchecked_eq _ scope name m) ?_)
    refine agrees_then (agrees_lift _ d') ?_
    rintro ⟨added, scopes⟩ d''
    refine agrees_then (agrees_lift _ d'') fun _ d''' => ?_
    cases added with
    | false => exact agrees_pure _ d'''
    | true => exact agrees_lift _ d'''
  cases m.reference? with
  | none => exact hbind d
  | some h => exact agrees_then (agrees_discard (agrees_lift _ d)) fun _ d' => hbind d'

theorem attachType_agrees (scope : ScopeId) (h : Handle) :
    Agrees (attachType scope h) (Change.attachType scope h) d := by
  refine agrees_then (agrees_discard (agrees_lift _ d)) fun _ d₁ => ?_
  refine agrees_catalog (agrees_probe (ScopeTree.attachUnchecked_eq _ scope h) ?_)
  exact agrees_then (agrees_lift _ d₁) fun _ d₂ => agrees_lift _ d₂

theorem declareClass_agrees (live : d.catalog.NothingDangles) (parent : ScopeId) (name : String)
    (key : Key) (kind : TypeKind) (size : Nat) :
    Agrees (declareClass parent name key kind size) (Change.declareClass parent name key kind size)
      d := by
  unfold declareClass Change.declareClass
  cases kind.scopeKind? with
  | none => exact agrees_refuse _ d
  | some scopeKind =>
  refine agrees_catalog ?_
  cases hcheck : d.catalog.types.check key kind size with
  | error fault => rfl
  | ok o =>
  refine agrees_bind (agrees_discard (agrees_lift _ d)) (after_of_run (run_discard rfl) ?_)
  refine agrees_catalog ?_
  cases d.catalog.scopes.contains parent with
  | false => rfl
  | true =>
  -- What comes before the scope is declared leaves the draft as it is.
  refine agrees_bind (agrees_lift _ d)
    ((Change.checkFacet_spec d parent name key).mono ?_ fun _ _ _ => trivial)
  rintro _ d₀ ⟨rfl, -⟩
  refine agrees_then (declareScope_agrees live parent name scopeKind) fun scope d₁ => ?_
  refine agrees_catalog (agrees_then (agrees_lift _ d₁) fun entry d₂ => ?_)
  refine agrees_catalog (agrees_probe (ScopeTree.attachUnchecked_eq _ scope entry.handle) ?_)
  refine agrees_then (agrees_lift _ d₂) fun _ d₃ => agrees_then (agrees_lift _ d₃) fun _ d₄ => ?_
  exact agrees_pure scope d₄

theorem fundamental_agrees (key : Key) (name : String) (size : Nat) :
    Agrees (fundamental key name size) (Change.fundamental key name size) d := by
  unfold fundamental Change.fundamental
  refine agrees_then (agrees_lift _ d) fun _ d₀ => agrees_then (agrees_lift _ d₀) fun e d₁ => ?_
  refine agrees_catalog ?_
  cases d₁.catalog.scopes.member? .global name with
  | none => exact agrees_then (addMember_agrees .global name _) fun _ d₂ => agrees_pure e d₂
  | some m => exact agrees_pure e d₁

theorem enumeration_agrees (live : d.catalog.NothingDangles) (parent : ScopeId) (name : String)
    (key : Key) (base : Entry) :
    Agrees (enumeration parent name key base) (Change.enumeration parent name key base) d := by
  unfold enumeration Change.enumeration
  cases base.isIntegral with
  | false => rfl
  | true =>
  refine agrees_bind (agrees_lift _ d)
    ((Change.checkUnderlying_spec d name key base).mono ?_ fun _ _ _ => trivial)
  rintro _ d₀ ⟨rfl, -⟩
  refine agrees_then (declareClass_agrees live parent name key .enum base.size) fun scope d₁ => ?_
  refine agrees_catalog ?_
  cases ((d₁.catalog.scopes.info? scope).bind (·.facet)).bind d₁.catalog.types.get? with
  | none => exact agrees_refuse _ d₁
  | some type => exact agrees_then (agrees_lift _ d₁) fun _ d₂ => agrees_pure _ d₂

theorem buildEnum_agrees (live : d.catalog.NothingDangles) (parent : ScopeId) (name : String)
    (key : Key) (underlying : String) :
    Agrees (buildEnum parent name key underlying) (Change.buildEnum parent name key underlying)
      d := by
  unfold buildEnum Change.buildEnum Registry.lookupName?
  refine agrees_catalog (agrees_probe (live.matchNameUnchecked_eq underlying) ?_)
  cases d.catalog.types.matchName? underlying with
  | none => exact agrees_refuse _ d
  | some found => exact enumeration_agrees live parent name key found.entry

theorem buildEnumOver_agrees (live : d.catalog.NothingDangles) (parent : ScopeId) (name : String)
    (key : Key) (underlying : Handle) :
    Agrees (buildEnumOver parent name key underlying)
      (Change.buildEnumOver parent name key underlying) d := by
  refine agrees_bind (agrees_lift _ d)
    ((Change.requireType_spec d underlying).mono ?_ fun _ _ _ => trivial)
  rintro base d₀ ⟨rfl, -⟩
  exact enumeration_agrees live parent name key base

theorem addEnumerator_agrees (e : Enumeration) (name : String) (value : Int64) :
    Agrees (addEnumerator e name value) (Change.addEnumerator e name value) d := by
  unfold addEnumerator Change.addEnumerator
  refine agrees_catalog ?_
  cases d.catalog.scopes.member? e.scope name with
  | none => exact addMember_agrees e.scope name _
  | some m => exact agrees_refuse _ d

end Change

end Unchecked

end TypeCatalog
