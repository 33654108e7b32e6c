import TypeCatalog.Proofs.Histories

/-!
# The indices of the registry agree with a scan

The registry answers from an index by key, an index by name and the set of hidden types. Each of
these answers is the one that a scan of the types in the order of registration gives.
-/

namespace TypeCatalog

namespace Registry

/-- The types that a look-up of `name` may answer, in the order of registration. -/
def visible (r : Registry) (name : String) : List Entry :=
  r.entries.filter fun e => e.name = Name.stripRoot name ∧ e.handle ∉ r.hidden

structure AgreesWithScan (r : Registry) : Prop where
  handle : ∀ {i : Nat} {e : Entry}, r.entries[i]? = some e → e.handle = ⟨i⟩
  distinct : (r.entries.map (·.key)).Nodup
  byKey : ∀ key, r.lookup? key = r.entries.find? (·.key = key)
  byName : ∀ name, r.matchName? name =
    (r.visible name).head?.map fun e => ⟨e, (r.visible name).length⟩
  hidden : ∀ h ∈ r.hidden, (r.get? h).isSome

/-- The index by name lists the types of each name in order, and only types are hidden. -/
structure Indexed (r : Registry) : Prop where
  byName : ∀ name, r.handlesNamed name = (r.entries.filter (·.name = name)).map (·.handle)
  hidden : ∀ h ∈ r.hidden, (r.get? h).isSome

/-! ## Keeping the index by name -/

theorem empty_indexed : empty.Indexed where
  byName := fun _ => rfl
  hidden := by
    intro h hh
    cases hh

theorem push_indexed {r : Registry} (wf : r.WellFormed) (ix : r.Indexed) {key : Key}
    (free : r.lookup? key = none) (kind : TypeKind) (size : Nat) (name : String) :
    (r.push key kind size name).2.Indexed where
  byName := by
    intro name'
    have hentries : (r.push key kind size name).2.entries =
        r.entries ++ [(r.push key kind size name).1] := rfl
    have hname : (r.push key kind size name).1.name = Name.stripRoot name := rfl
    have hhandles : (r.push key kind size name).2.handlesNamed name' =
        if name' = Name.stripRoot name then
          r.handlesNamed (Name.stripRoot name) ++ [⟨r.size⟩]
        else r.handlesNamed name' := by
      simp only [handlesNamed, push, Table.get?_put]
      split
      · rfl
      · rfl
    rw [hhandles, hentries, List.filter_append, List.map_append, ← ix.byName]
    split
    · next h => simp [h, hname]
    · next h => simp [hname, Ne.symm h]
  hidden := fun h hh => (push_extends wf free kind size name).registered (ix.hidden h hh)

theorem setHidden_indexed {r r' : Registry} (ix : r.Indexed) {h : Handle} {hidden changed : Bool}
    (hok : r.setHidden h hidden = .ok (changed, r')) : r'.Indexed := by
  have hext := setHidden_extends hok
  obtain ⟨hlive, hsame, hmore⟩ := setHidden_ok hok
  constructor
  case byName =>
    rw [hsame]
    exact ix.byName
  case hidden =>
    intro h' hh
    rcases hmore h' hh with hold | rfl
    · exact hext.registered (ix.hidden h' hold)
    · exact hext.registered hlive

/-! ## From the indices to the scan -/

theorem get?_of_mem {r : Registry} (wf : r.WellFormed) {e : Entry} (he : e ∈ r.entries) :
    r.get? e.handle = some e := by
  obtain ⟨i, hi⟩ := List.mem_iff_getElem?.1 he
  have hget : r.get? ⟨i⟩ = some e := hi
  rw [wf.handle hget]
  exact hget

theorem mem_of_get? {r : Registry} {h : Handle} {e : Entry} (he : r.get? h = some e) :
    e ∈ r.entries :=
  List.mem_of_getElem? he

theorem lookup?_of_mem {r : Registry} (wf : r.WellFormed) {e : Entry} (he : e ∈ r.entries) :
    r.lookup? e.key = some e :=
  (lookup?_eq_some_iff wf).2 ⟨get?_of_mem wf he, rfl⟩

theorem mem_of_lookup? {r : Registry} {key : Key} {e : Entry} (he : r.lookup? key = some e) :
    e ∈ r.entries := by
  obtain ⟨h, -, hget⟩ := Option.bind_eq_some_iff.1 he
  exact mem_of_get? hget

theorem free_of_new {r r' : Registry} (wf : r'.WellFormed) (hext : r.Extends r') {e : Entry}
    (he : e ∈ r'.entries) (hnew : e ∉ r.entries) : r.lookup? e.key = none := by
  rw [Option.eq_none_iff_forall_ne_some]
  intro e' he'
  have hlater := hext.lookup? he'
  rw [lookup?_of_mem wf he] at hlater
  rw [Option.some.inj hlater] at hnew
  exact hnew (mem_of_lookup? he')

theorem lookup?_push {r : Registry} (wf : r.WellFormed) {key : Key} (free : r.lookup? key = none)
    (kind : TypeKind) (size : Nat) (name : String) (key' : Key) :
    (r.push key kind size name).2.lookup? key' =
      if key' = key then some (r.push key kind size name).1 else r.lookup? key' := by
  have wf' := push_wellFormed wf free kind size name
  split
  · next hkey =>
    rw [hkey]
    exact (push_hasType wf free kind size name).found
  · next hkey =>
    cases hold : r.lookup? key' with
    | some e => exact (push_extends wf free kind size name).lookup? hold
    | none =>
      rw [Option.eq_none_iff_forall_ne_some]
      intro e he
      obtain rfl := ((lookup?_eq_some_iff wf').1 he).2
      rcases List.mem_append.1 (mem_of_lookup? he) with hmem | hnew
      · rw [lookup?_of_mem wf hmem] at hold
        cases hold
      · rw [List.mem_singleton.1 hnew] at hkey
        exact hkey rfl

theorem keys_nodup {r : Registry} (wf : r.WellFormed) : (r.entries.map (·.key)).Nodup := by
  rw [List.nodup_iff_getElem?_ne_getElem?]
  intro i j hij hj
  rw [List.length_map] at hj
  rw [List.getElem?_map, List.getElem?_map]
  obtain ⟨e, he⟩ : ∃ e, r.entries[i]? = some e := ⟨_, List.getElem?_eq_getElem (by omega)⟩
  obtain ⟨e', he'⟩ : ∃ e', r.entries[j]? = some e' := ⟨_, List.getElem?_eq_getElem hj⟩
  rw [he, he']
  intro hkey
  -- Types with the same key are the same type, and a type has one handle.
  have hsame : e.key = e'.key := Option.some.inj hkey
  have hlookup := lookup?_of_mem wf (List.mem_of_getElem? he)
  rw [hsame, lookup?_of_mem wf (List.mem_of_getElem? he')] at hlookup
  obtain rfl := Option.some.inj hlookup
  have hi := wf.handle (h := ⟨i⟩) he
  have hj' := wf.handle (h := ⟨j⟩) he'
  have := Handle.mk.inj (hi.symm.trans hj')
  omega

theorem lookup?_eq_find? {r : Registry} (wf : r.WellFormed) (key : Key) :
    r.lookup? key = r.entries.find? (·.key = key) := by
  cases hfind : r.entries.find? (·.key = key) with
  | none =>
    rw [Option.eq_none_iff_forall_ne_some]
    intro e he
    have hne := List.find?_eq_none.1 hfind e (mem_of_lookup? he)
    have hkey := ((lookup?_eq_some_iff wf).1 he).2
    exact hne (by simpa using hkey)
  | some e =>
    have hkey : e.key = key := by simpa using List.find?_some hfind
    rw [← hkey]
    exact lookup?_of_mem wf (List.mem_of_find?_eq_some hfind)

theorem matchName?_eq_scan {r : Registry} (wf : r.WellFormed) (ix : r.Indexed) (name : String) :
    r.matchName? name = (r.visible name).head?.map fun e => ⟨e, (r.visible name).length⟩ := by
  -- The handles that the index leaves are those of the visible types.
  have hhandles : ((r.byName.get? (Name.stripRoot name)).getD []).filter (fun h => !r.isHidden h) =
      (r.visible name).map (·.handle) := by
    rw [← handlesNamed, ix.byName, List.filter_map, List.filter_filter, visible]
    congr 2
    funext e
    simp [isHidden, Bool.and_comm]
  simp only [matchName?, hhandles]
  cases hvisible : r.visible name with
  | nil => rfl
  | cons e rest =>
    have he : e ∈ r.visible name := by rw [hvisible]; exact List.mem_cons_self
    have hget := get?_of_mem wf (List.mem_filter.1 he).1
    simp [hget, Nat.add_comm]

theorem Indexed.agreesWithScan {r : Registry} (wf : r.WellFormed) (ix : r.Indexed) :
    r.AgreesWithScan where
  handle := fun {i _} he => wf.handle (h := ⟨i⟩) he
  distinct := keys_nodup wf
  byKey := lookup?_eq_find? wf
  byName := matchName?_eq_scan wf ix
  hidden := ix.hidden

end Registry

/-! ## In every catalog -/

theorem Addition.indexed {allowed : String → Prop} {c c' : Catalog} {events : List Event}
    (new : Addition allowed c events c') (wf : c.WellFormed) (ix : c.types.Indexed) :
    c'.types.Indexed := by
  cases new with
  | type kind size name free => exact Registry.push_indexed wf.types ix free kind size name
  | scope kind found free good => exact ix
  | member found free covered owner => exact ix
  | facet found free live => exact ix
  | underlying found kind baseFound integral size => exact ix

theorem Catalog.GrowsTo.indexed {allowed : String → Prop} {c c' : Catalog}
    (h : c.GrowsTo allowed c') (wf : c.WellFormed) (ix : c.types.Indexed) : c'.types.Indexed := by
  obtain ⟨events, h⟩ := h
  induction h with
  | refl => exact ix
  | step grown new ih => exact new.indexed (grown.wellFormed wf) ih

theorem Hub.run_indexed (settings : CatalogSettings) (ops : List Operation) :
    ((ofSettings settings).run ops).catalog.types.Indexed :=
  run_keeps (P := fun c => c.types.Indexed) (fun wf ix hgrows => hgrows.indexed wf ix)
    (fun _ ix hset => Registry.setHidden_indexed ix hset) _ (Catalog.empty_wellFormed settings)
    Registry.empty_indexed ops

theorem Hub.run_agreesWithScan (settings : CatalogSettings) (ops : List Operation) :
    ((ofSettings settings).run ops).catalog.types.AgreesWithScan :=
  (run_indexed settings ops).agreesWithScan
    (run_wellFormed _ (Catalog.empty_wellFormed settings) ops).types

end TypeCatalog
