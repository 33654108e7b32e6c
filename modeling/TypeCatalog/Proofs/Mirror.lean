import TypeCatalog.Proofs.Naming
import TypeCatalog.Proofs.Indices

/-!
# Mirrors of a catalog

A mirror is kept by one who sees a catalog through its events alone. The events of a growth,
replayed in their order, bring the mirror of the earlier catalog to that of the later one, and each
of them tells of one type or one binding.
-/

namespace TypeCatalog

/-- A scope as events tell of it, with its bindings in the order in which they were made. -/
structure ScopeRecord where
  id : ScopeId
  name : String
  qualified : String
  kind : ScopeKind
  parent : Option ScopeId
  members : List (String × Member)
deriving DecidableEq

namespace ScopeRecord

/-- The record of a scope that has just been declared. -/
def ofInfo (info : ScopeInfo) : ScopeRecord :=
  ⟨info.id, info.name, info.qualified, info.kind, info.parent, []⟩

def ofScope (id : ScopeId) (s : Scope) : ScopeRecord :=
  ⟨id, s.name, s.qualified, s.kind, s.parent, s.members.entries⟩

/-- A new binding at the end if this is the scope it is in. -/
def bindIn (scope : ScopeId) (name : String) (m : Member) (r : ScopeRecord) : ScopeRecord :=
  if r.id = scope then { r with members := r.members ++ [(name, m)] } else r

end ScopeRecord

structure Mirror where
  types : List Entry
  scopes : List ScopeRecord
deriving DecidableEq

namespace Mirror

/-- A catalog starts with the global scope and nothing in it. -/
def empty : Mirror := ⟨[], [.ofScope .global ScopeTree.root]⟩

def bind (mirror : Mirror) (scope : ScopeId) (name : String) (m : Member) : Mirror :=
  { mirror with scopes := mirror.scopes.map (ScopeRecord.bindIn scope name m) }

def receive (mirror : Mirror) : Event → Mirror
  | .typeRegistered entry => { mirror with types := mirror.types ++ [entry] }
  | .scopeDeclared info =>
    let grown := { mirror with scopes := mirror.scopes ++ [.ofInfo info] }
    match info.parent with
    | some parent => grown.bind parent info.name (.scope info.id)
    | none => grown
  | .memberAdded scope name m => mirror.bind scope name m

def replay (mirror : Mirror) (events : List Event) : Mirror := events.foldl receive mirror

theorem replay_append (mirror : Mirror) (events more : List Event) :
    mirror.replay (events ++ more) = (mirror.replay events).replay more := List.foldl_append

end Mirror

namespace ScopeTree

def records (t : ScopeTree) : List ScopeRecord :=
  t.scopes.mapIdx fun i s => .ofScope ⟨i⟩ s

/-- The number of bindings in all scopes. -/
def bindings (t : ScopeTree) : Nat := (t.scopes.flatMap (·.members.entries)).length

end ScopeTree

def Catalog.mirror (c : Catalog) : Mirror := ⟨c.types.entries, c.scopes.records⟩

/-- The number of types and bindings. -/
def Catalog.extent (c : Catalog) : Nat := c.types.size + c.scopes.bindings

/-! ## One binding more -/

section Bind

variable {t : ScopeTree} {id : ScopeId} {s : Scope} {name : String}

theorem ScopeTree.records_bind (found : t.get? id = some s) (free : s.members.get? name = none)
    (m : Member) : (t.bind id name m).records = t.records.map (ScopeRecord.bindIn id name m) := by
  refine List.ext_getElem? ?_
  intro i
  simp only [records, bind, modify, List.getElem?_map, List.getElem?_mapIdx, List.getElem?_modify]
  by_cases hi : id.index = i
  · subst hi
    have hs : t.scopes[id.index]? = some s := found
    simp [hs, ScopeRecord.ofScope, ScopeRecord.bindIn, Table.put_of_free free]
  · have hne : ∀ s, (ScopeRecord.ofScope ⟨i⟩ s).id ≠ id := by
      rintro s rfl
      exact hi rfl
    cases t.scopes[i]? with
    | none => simp
    | some s' => simp [hi, ScopeRecord.bindIn, hne]

theorem length_flatMap_modify {α β : Type} (inner : α → List β) (f : α → α) {l : List α} {i : Nat}
    {a : α} (ha : l[i]? = some a) (more : (inner (f a)).length = (inner a).length + 1) :
    ((l.modify i f).flatMap inner).length = (l.flatMap inner).length + 1 := by
  induction l generalizing i with
  | nil => cases ha
  | cons b rest ih =>
    cases i with
    | zero =>
      obtain rfl : b = a := Option.some.inj ha
      simp only [List.modify_zero_cons, List.flatMap_cons, List.length_append, more]
      omega
    | succ i =>
      have := ih (i := i) ha
      simp only [List.modify_succ_cons, List.flatMap_cons, List.length_append, this]
      omega

theorem ScopeTree.bindings_bind (found : t.get? id = some s) (free : s.members.get? name = none)
    (m : Member) : (t.bind id name m).bindings = t.bindings + 1 := by
  refine length_flatMap_modify (·.members.entries) _ found ?_
  simp [Table.put_of_free free]

end Bind

/-! ## One scope more -/

section Push

variable {t : ScopeTree} {parent : ScopeId} {p : Scope}

/-- A declared scope is put at the end first, and then bound in its parent. -/
theorem ScopeTree.push_eq_bind (found : t.get? parent = some p) (name : String)
    (kind : ScopeKind) :
    ∃ grown : ScopeTree, grown.get? parent = some p ∧
      grown.records = t.records ++ [.ofInfo
        ⟨⟨t.size⟩, name, Name.join p.qualified name, kind, some parent, none, 0⟩] ∧
      grown.bindings = t.bindings ∧
      (t.push parent p.qualified name kind).2 = grown.bind parent name (.scope ⟨t.size⟩) := by
  refine ⟨_, ?_, ?_, ?_, rfl⟩
  · have hlt := get?_lt found
    rw [get?, List.getElem?_append_left hlt]
    exact found
  · rw [records, List.mapIdx_concat]
    rfl
  · simp [bindings, Table.empty]

theorem ScopeTree.records_push (found : t.get? parent = some p) {name : String}
    (free : p.members.get? name = none) (kind : ScopeKind) :
    (t.push parent p.qualified name kind).2.records =
      (t.records ++ [ScopeRecord.ofInfo
        ⟨⟨t.size⟩, name, Name.join p.qualified name, kind, some parent, none, 0⟩]).map
          (ScopeRecord.bindIn parent name (.scope ⟨t.size⟩)) := by
  obtain ⟨grown, hfound, hrecords, -, hpush⟩ := push_eq_bind found name kind
  rw [hpush, records_bind hfound free, hrecords]

theorem ScopeTree.bindings_push (found : t.get? parent = some p) {name : String}
    (free : p.members.get? name = none) (kind : ScopeKind) :
    (t.push parent p.qualified name kind).2.bindings = t.bindings + 1 := by
  obtain ⟨grown, hfound, -, hbindings, hpush⟩ := push_eq_bind found name kind
  rw [hpush, bindings_bind hfound free, hbindings]

end Push

/-! ## Which type a scope carries does not matter -/

theorem ScopeTree.records_carry (t : ScopeTree) (id : ScopeId) (h : Handle) :
    (t.carry id h).records = t.records := by
  refine List.ext_getElem? ?_
  intro i
  simp only [records, carry, modify, List.getElem?_mapIdx, List.getElem?_modify]
  cases t.scopes[i]? with
  | none => rfl
  | some s => by_cases hi : id.index = i <;> simp [hi, ScopeRecord.ofScope]

theorem ScopeTree.bindings_carry (t : ScopeTree) (id : ScopeId) (h : Handle) :
    (t.carry id h).bindings = t.bindings := by
  have hentries : (t.carry id h).scopes.map (·.members.entries) =
      t.scopes.map (·.members.entries) := by
    refine List.ext_getElem? ?_
    intro i
    simp only [carry, modify, List.getElem?_map, List.getElem?_modify]
    cases t.scopes[i]? with
    | none => rfl
    | some s => by_cases hi : id.index = i <;> simp [hi]
  rw [bindings, bindings, List.flatMap_def, List.flatMap_def, hentries]

/-! ## Growth and its events -/

theorem Addition.mirror {allowed : String → Prop} {c c' : Catalog} {events : List Event}
    (new : Addition allowed c events c') : c'.mirror = c.mirror.replay events := by
  cases new with
  | type kind size name free => rfl
  | @scope parent p name kind found free good =>
    exact congrArg (Mirror.mk _) (ScopeTree.records_push found free kind)
  | @member id s name m found free covered owner =>
    exact congrArg (Mirror.mk _) (ScopeTree.records_bind found free m)
  | @facet id s h found free live =>
    exact congrArg (Mirror.mk _) (ScopeTree.records_carry c.scopes id h)
  | underlying found kind baseFound integral size => rfl

theorem Addition.extent {allowed : String → Prop} {c c' : Catalog} {events : List Event}
    (new : Addition allowed c events c') : c'.extent = c.extent + events.length := by
  cases new with
  | @type key kind size name free =>
    show (c.types.entries ++ [_]).length + c.scopes.bindings = c.types.size + c.scopes.bindings + 1
    rw [List.length_append, List.length_singleton, Registry.size]
    omega
  | @scope parent p name kind found free good =>
    show c.types.size + _ = _
    rw [ScopeTree.bindings_push found free kind]
    rfl
  | @member id s name m found free covered owner =>
    show c.types.size + _ = _
    rw [ScopeTree.bindings_bind found free m]
    rfl
  | @facet id s h found free live =>
    exact congrArg (c.types.size + ·) (ScopeTree.bindings_carry c.scopes id h)
  | underlying found kind baseFound integral size => rfl

namespace Catalog.Grows

variable {allowed : String → Prop} {c c' : Catalog} {events : List Event}

/-- The mirror of the later catalog is that of the earlier one after the events. -/
theorem mirror (h : c.Grows allowed events c') : c'.mirror = c.mirror.replay events := by
  induction h with
  | refl => rfl
  | step _ new ih => rw [new.mirror, ih, Mirror.replay_append]

theorem extent (h : c.Grows allowed events c') : c'.extent = c.extent + events.length := by
  induction h with
  | refl => rfl
  | step _ new ih => rw [new.extent, ih, List.length_append, Nat.add_assoc]

end Catalog.Grows

/-! ## Events that tell of types -/

namespace Event

/-- The type that an event tells of. -/
def entry? : Event → Option Entry
  | .typeRegistered entry => some entry
  | _ => none

def entries (events : List Event) : List Entry := events.filterMap entry?

end Event

namespace Mirror

theorem types_receive (mirror : Mirror) (event : Event) :
    (mirror.receive event).types = mirror.types ++ Event.entries [event] := by
  cases event with
  | typeRegistered entry => rfl
  | scopeDeclared info =>
    cases hparent : info.parent <;> simp [receive, hparent, Event.entries, Event.entry?, bind]
  | memberAdded scope name m => simp [receive, Event.entries, Event.entry?, bind]

theorem types_replay (mirror : Mirror) (events : List Event) :
    (mirror.replay events).types = mirror.types ++ Event.entries events := by
  induction events generalizing mirror with
  | nil => exact (List.append_nil _).symm
  | cons event rest ih =>
    show (replay (mirror.receive event) rest).types = _
    rw [ih, types_receive, List.append_assoc, Event.entries, Event.entries, Event.entries,
      ← List.filterMap_append, List.singleton_append]

theorem receive_comm (mirror : Mirror) (entry : Entry) {event : Event} (h : event.entry? = none) :
    (mirror.receive (.typeRegistered entry)).receive event =
      (mirror.receive event).receive (.typeRegistered entry) := by
  cases event with
  | typeRegistered entry' => cases h
  | scopeDeclared info =>
    cases hparent : info.parent <;> simp [receive, hparent, bind]
  | memberAdded scope name m => rfl

theorem replay_comm (mirror : Mirror) (entry : Entry) {events : List Event}
    (h : Event.entries events = []) :
    (mirror.replay events).receive (.typeRegistered entry) =
      (mirror.receive (.typeRegistered entry)).replay events := by
  induction events generalizing mirror with
  | nil => rfl
  | cons event rest ih =>
    obtain ⟨hevent, hrest⟩ : event.entry? = none ∧ Event.entries rest = [] := by
      simpa [Event.entries] using h
    show (replay (mirror.receive event) rest).receive _ = replay (receive _ event) rest
    rw [ih _ (by simpa [Event.entries] using hrest), receive_comm mirror entry hevent]

end Mirror

/-! ## What one change tells -/

/-- The events of the draft tell of all that is new since `c`, and of one type at most. -/
structure Draft.Tells (c : Catalog) (d : Draft) : Prop where
  grows : c.Grows (fun _ => True) d.events d.catalog
  single : (Event.entries d.events).length ≤ 1

namespace Draft

variable {c : Catalog} {d : Draft}

theorem Grows.all (h : Draft.Grows (fun _ => True) ⟨c, []⟩ d) :
    c.Grows (fun _ => True) d.events d.catalog := by
  obtain ⟨more, hevents, hmore⟩ := h
  rw [hevents, List.nil_append]
  exact hmore

theorem Grows.entries (h : Draft.Grows (fun _ => True) ⟨c, []⟩ d) :
    d.catalog.types.entries = c.types.entries ++ Event.entries d.events := by
  have := congrArg Mirror.types h.all.mirror
  rw [Mirror.types_replay] at this
  exact this

theorem Spares.tells (h : Draft.Spares ⟨c, []⟩ d) : d.Tells c := by
  refine ⟨h.grows.all, ?_⟩
  have hentries := h.grows.entries
  rw [h.types] at hentries
  rw [List.self_eq_append_right.1 hentries]
  exact Nat.zero_le 1

/-- New types have the key of the change, and no two types have the same key. -/
theorem Brings.tells (wf : c.WellFormed) {key : Key} {given : Catalog → String → Prop}
    (h : Draft.Brings key given ⟨c, []⟩ d) : d.Tells c := by
  refine ⟨h.grows.all, ?_⟩
  have hentries := h.grows.entries
  have hdistinct := Registry.keys_nodup (h.grows.catalog.wellFormed wf).types
  rw [hentries, List.map_append, List.nodup_append'] at hdistinct
  obtain ⟨-, hnew, hapart⟩ := hdistinct
  have hkey : ∀ e ∈ Event.entries d.events, e.key = key := by
    intro e he
    have hmem : e ∈ d.catalog.types.entries := by
      rw [hentries]
      exact List.mem_append_right _ he
    rcases h.types e hmem with hold | ⟨name, ⟨hkey, -⟩, -⟩
    · exact absurd (List.mem_map_of_mem he) (hapart (List.mem_map_of_mem hold))
    · exact hkey
  rw [List.map_congr_left hkey, List.map_const'] at hnew
  exact List.nodup_replicate.1 hnew

end Draft

end TypeCatalog
