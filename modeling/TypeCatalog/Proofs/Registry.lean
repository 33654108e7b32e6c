import TypeCatalog.Proofs.Table
import TypeCatalog.Registry

/-!
# A registry stays consistent and keeps its answers

`WellFormed` says that handles are positions and that the index by key is exact. `Extends` says what
a later registry still answers.
-/

namespace TypeCatalog.Registry

/-- The handles under a name, oldest first. -/
def handlesNamed (r : Registry) (name : String) : List Handle := (r.byName.get? name).getD []

/-- The type under `key` is `e`, of the given kind and size. -/
structure HasType (r : Registry) (key : Key) (kind : TypeKind) (size : Nat) (e : Entry) :
    Prop where
  found : r.lookup? key = some e
  kind : e.kind = kind
  size : e.size = size

structure WellFormed (r : Registry) : Prop where
  handle : ∀ {h e}, r.get? h = some e → e.handle = h
  byKey : ∀ {key h}, r.byKey.get? key = some h ↔ ∃ e, r.get? h = some e ∧ e.key = key

structure Extends (r r' : Registry) : Prop where
  entries : r.entries <+: r'.entries
  byKey : ∀ {key h}, r.byKey.get? key = some h → r'.byKey.get? key = some h
  byName : ∀ name, r.handlesNamed name <+: r'.handlesNamed name

/-! ## Look-up by key -/

theorem lookup?_eq_some_iff {r : Registry} (wf : r.WellFormed) {key : Key} {e : Entry} :
    r.lookup? key = some e ↔ r.get? e.handle = some e ∧ e.key = key := by
  rw [lookup?, Option.bind_eq_some_iff]
  constructor
  · rintro ⟨h, hkey, he⟩
    obtain ⟨e', he', hk⟩ := wf.byKey.1 hkey
    obtain rfl : e' = e := by rw [he] at he'; exact (Option.some.inj he').symm
    rw [wf.handle he]
    exact ⟨he, hk⟩
  · rintro ⟨he, hk⟩
    exact ⟨e.handle, wf.byKey.2 ⟨e, he, hk⟩, he⟩

theorem HasType.get? {r : Registry} (wf : r.WellFormed) {key : Key} {kind : TypeKind} {size : Nat}
    {e : Entry} (h : r.HasType key kind size e) : r.get? e.handle = some e :=
  ((lookup?_eq_some_iff wf).1 h.found).1

theorem byKey_of_free {r : Registry} (wf : r.WellFormed) {key : Key}
    (free : r.lookup? key = none) : r.byKey.get? key = none := by
  rw [Option.eq_none_iff_forall_ne_some]
  intro h hkey
  obtain ⟨e, he, -⟩ := wf.byKey.1 hkey
  rw [lookup?, hkey, Option.bind_some, he] at free
  cases free

theorem check_ok {r : Registry} {key : Key} {kind : TypeKind} {size : Nat} {o : Option Entry}
    (h : r.check key kind size = .ok o) :
    ∀ e, r.lookup? key = some e → e.kind = kind ∧ e.size = size := by
  intro e he
  unfold check at h
  rw [he] at h
  simp only at h
  split at h
  · next hsame => exact hsame
  · cases h

/-! ## A new type -/

theorem get?_lt {r : Registry} {h : Handle} {e : Entry} (he : r.get? h = some e) :
    h.index < r.size :=
  (List.getElem?_eq_some_iff.1 he).1

@[simp] theorem push_handle (r : Registry) (key : Key) (kind : TypeKind) (size : Nat)
    (name : String) : (r.push key kind size name).1.handle = ⟨r.size⟩ := rfl

@[simp] theorem push_key (r : Registry) (key : Key) (kind : TypeKind) (size : Nat)
    (name : String) : (r.push key kind size name).1.key = key := rfl

theorem get?_push (r : Registry) (key : Key) (kind : TypeKind) (size : Nat) (name : String)
    (h : Handle) :
    (r.push key kind size name).2.get? h =
      if h = ⟨r.size⟩ then some (r.push key kind size name).1 else r.get? h := by
  obtain ⟨i⟩ := h
  simp only [get?, push, Handle.mk.injEq]
  rw [List.getElem?_append, Registry.size]
  by_cases hi : i < r.entries.length
  · rw [if_pos hi, if_neg (by omega)]
  · rw [if_neg hi]
    by_cases he : i = r.entries.length
    · simp [he]
    · rw [if_neg he, List.getElem?_eq_none (by simp; omega), List.getElem?_eq_none (by omega)]

theorem empty_wellFormed : empty.WellFormed where
  handle := by simp [empty, get?]
  byKey := by simp [empty, get?]

theorem push_wellFormed {r : Registry} (wf : r.WellFormed) {key : Key}
    (free : r.lookup? key = none) (kind : TypeKind) (size : Nat) (name : String) :
    (r.push key kind size name).2.WellFormed where
  handle := by
    intro h e he
    rw [get?_push] at he
    split at he
    · next hnew => rw [← Option.some.inj he, push_handle, hnew]
    · exact wf.handle he
  byKey := by
    intro key' h
    have hput : (r.push key kind size name).2.byKey.get? key' =
        if key' = key then some ⟨r.size⟩ else r.byKey.get? key' := Table.get?_put _ _ _ _
    rw [hput, get?_push]
    split
    · next hkey =>
      subst hkey
      constructor
      · rintro hsome
        rw [← Option.some.inj hsome, if_pos rfl]
        exact ⟨_, rfl, rfl⟩
      · rintro ⟨e, he, hk⟩
        split at he
        · next hnew => rw [hnew]
        · have := wf.byKey.2 ⟨e, he, hk⟩
          rw [byKey_of_free wf free] at this
          cases this
    · next hkey =>
      rw [wf.byKey]
      constructor
      · rintro ⟨e, he, hk⟩
        have hlt := get?_lt he
        rw [if_neg (by rintro rfl; simp at hlt)]
        exact ⟨e, he, hk⟩
      · rintro ⟨e, he, hk⟩
        split at he
        · rw [← Option.some.inj he, push_key] at hk
          exact absurd hk.symm hkey
        · exact ⟨e, he, hk⟩

theorem push_extends {r : Registry} (wf : r.WellFormed) {key : Key}
    (free : r.lookup? key = none) (kind : TypeKind) (size : Nat) (name : String) :
    r.Extends (r.push key kind size name).2 where
  entries := List.prefix_append _ _
  byKey := by
    intro key' h hkey
    exact Table.get?_of_prefix (Table.entries_put_prefix (byKey_of_free wf free) _) hkey
  byName := by
    intro name'
    simp only [handlesNamed, push, Table.get?_put]
    split
    · next h => subst h; exact List.prefix_append _ _
    · exact List.prefix_rfl

theorem push_hasType {r : Registry} (wf : r.WellFormed) {key : Key}
    (free : r.lookup? key = none) (kind : TypeKind) (size : Nat) (name : String) :
    (r.push key kind size name).2.HasType key kind size (r.push key kind size name).1 where
  found := by
    rw [lookup?_eq_some_iff (push_wellFormed wf free kind size name), get?_push]
    simp
  kind := rfl
  size := rfl

/-! ## Answers that stay -/

namespace Extends

variable {r r' r'' : Registry}

theorem refl (r : Registry) : r.Extends r := ⟨List.prefix_rfl, id, fun _ => List.prefix_rfl⟩

theorem trans (h : r.Extends r') (h' : r'.Extends r'') : r.Extends r'' :=
  ⟨h.entries.trans h'.entries, fun hk => h'.byKey (h.byKey hk),
    fun name => (h.byName name).trans (h'.byName name)⟩

theorem get? (h : r.Extends r') {handle : Handle} {e : Entry} (he : r.get? handle = some e) :
    r'.get? handle = some e := by
  obtain ⟨more, hmore⟩ := h.entries
  rw [Registry.get?, ← hmore, List.getElem?_append_left (get?_lt he)]
  exact he

theorem registered (h : r.Extends r') {handle : Handle} (hr : (r.get? handle).isSome) :
    (r'.get? handle).isSome := by
  obtain ⟨e, he⟩ := Option.isSome_iff_exists.1 hr
  rw [h.get? he]
  rfl

theorem lookup? (h : r.Extends r') {key : Key} {e : Entry} (he : r.lookup? key = some e) :
    r'.lookup? key = some e := by
  rw [Registry.lookup?, Option.bind_eq_some_iff] at he ⊢
  obtain ⟨handle, hkey, hget⟩ := he
  exact ⟨handle, h.byKey hkey, h.get? hget⟩

theorem hasType (h : r.Extends r') {key : Key} {kind : TypeKind} {size : Nat} {e : Entry}
    (he : r.HasType key kind size e) : r'.HasType key kind size e :=
  ⟨h.lookup? he.found, he.kind, he.size⟩

end Extends

theorem lookupName?_eq_some_iff {r : Registry} {name : String} {e : Entry} :
    r.lookupName? name = some e ↔
      ((r.handlesNamed (Name.stripRoot name)).filter fun h => !r.isHidden h).head?.bind r.get? =
        some e := by
  unfold lookupName? matchName? handlesNamed
  simp only
  split
  · next hnil => simp [hnil]
  · next h rest hcons => simp [hcons]

theorem get?_of_lookupName? {r : Registry} (wf : r.WellFormed) {name : String} {e : Entry}
    (he : r.lookupName? name = some e) : r.get? e.handle = some e := by
  rw [lookupName?_eq_some_iff, Option.bind_eq_some_iff] at he
  obtain ⟨h, -, hget⟩ := he
  rw [wf.handle hget]
  exact hget

/-- A name keeps its type as long as nothing is hidden or shown in between. -/
theorem Extends.lookupName? {r r' : Registry} (h : r.Extends r') (hidden : r'.hidden = r.hidden)
    {name : String} {e : Entry} (he : r.lookupName? name = some e) :
    r'.lookupName? name = some e := by
  rw [lookupName?_eq_some_iff, Option.bind_eq_some_iff] at he ⊢
  obtain ⟨first, hfirst, hget⟩ := he
  refine ⟨first, ?_, h.get? hget⟩
  obtain ⟨more, hmore⟩ := h.byName (Name.stripRoot name)
  have hsame : (fun x => !r'.isHidden x) = fun x => !r.isHidden x := by
    funext x
    rw [isHidden, isHidden, hidden]
  rw [hsame, ← hmore, List.filter_append, List.head?_append, hfirst]
  rfl

/-! ## Hiding -/

theorem setHidden_ok {r r' : Registry} {h : Handle} {hidden changed : Bool}
    (hok : r.setHidden h hidden = .ok (changed, r')) :
    (r.get? h).isSome ∧ r' = { r with hidden := r'.hidden } ∧
      ∀ h' ∈ r'.hidden, h' ∈ r.hidden ∨ h' = h := by
  unfold setHidden at hok
  split at hok
  · cases hok
  · next e he =>
    refine ⟨by rw [he]; rfl, ?_⟩
    split at hok
    · cases hok
      exact ⟨rfl, fun h' hh => .inl hh⟩
    · split at hok
      · cases hok
        exact ⟨rfl, fun h' hh => by simpa using hh⟩
      · cases hok
        exact ⟨rfl, fun h' hh => .inl (List.mem_filter.1 hh).1⟩

theorem setHidden_wellFormed {r r' : Registry} (wf : r.WellFormed) {h : Handle}
    {hidden changed : Bool} (hok : r.setHidden h hidden = .ok (changed, r')) : r'.WellFormed := by
  rw [(setHidden_ok hok).2.1]
  exact ⟨wf.handle, wf.byKey⟩

theorem setHidden_extends {r r' : Registry} {h : Handle} {hidden changed : Bool}
    (hok : r.setHidden h hidden = .ok (changed, r')) : r.Extends r' := by
  rw [(setHidden_ok hok).2.1]
  exact ⟨List.prefix_rfl, id, fun _ => List.prefix_rfl⟩

end TypeCatalog.Registry
