import TypeCatalog.Proofs.Keywords
import TypeCatalog.Proofs.Paths
import TypeCatalog.Proofs.Reloading

/-!
# What is declared is what is found

The loader takes names apart at the last `::` and resolution takes them apart at the first one. In a
catalog that only dictionaries with well-formed names have filled, both come to the same scopes.
-/

namespace TypeCatalog

def Dictionary.WellNamed (dict : Dictionary) : Prop := ∀ d ∈ dict.declarations, d.WellNamed

instance (dict : Dictionary) : Decidable dict.WellNamed :=
  inferInstanceAs (Decidable (∀ d ∈ dict.declarations, d.WellNamed))

/-- The hub after loading dictionaries in order. -/
def Hub.loadAll (hub : Hub) (dicts : List Dictionary) : Hub :=
  dicts.foldl (fun hub dict => (hub.load dict).2) hub

/-- Under `name` is a scope of the right kind, and it carries `e`, which is the type under the key
and has the kind and the size. -/
def Catalog.ShowsClass (c : Catalog) (name : String) (key : Key) (kind : TypeKind) (size : Nat)
    (e : Entry) : Prop :=
  c.types.HasType key kind size e ∧ ∃ id s, c.scopes.byName? name = some id ∧
    c.scopes.get? id = some s ∧ kind.scopeKind? = some s.kind ∧ s.facet = some e.handle

namespace Declaration

/-- What look-up and resolution of absolute paths answer about a declaration. Members are promised
if their names are components. -/
def Shown (c : Catalog) : Declaration → Prop
  | .fundamental name size => ∃ e, c.types.HasType (.named name) .fundamental size e
  | .namespace name => ∃ id, c.scopes.byName? name = some id
  | .classType sort name key size => ∃ e,
    c.ShowsClass name (key.elim (.named (Name.stripRoot name)) .mangled) sort.kind size e
  | .typedef name target => ∃ t e, c.types.lookupName? target = some t ∧
    c.types.get? e.handle = some e ∧ e.kind = .typedef ∧ e.size = t.size ∧
      ∀ start, c.scopes.resolvePath? start ("::" ++ Name.stripRoot name) = some (.type e.handle)
  | .pointer target => ∃ e, c.types.HasType (.named (target ++ " *")) .pointer 8 e
  | .enum name key underlying enumerators => ∃ base e,
    c.types.lookupName? underlying = some base ∧
      c.ShowsClass name (key.elim (.named (Name.stripRoot name)) .mangled) .enum base.size e ∧
        ∀ x ∈ enumerators, Name.IsComponent x.name → ∀ start,
          c.scopes.resolvePath? start ("::" ++ Name.join (Name.stripRoot name) x.name) =
            some (.enumerator e.handle x.value)
  | .function scope name signature modifiers => Name.IsComponent name → ∃ m e,
    m.Spelled modifiers ∧ c.types.HasType (.named signature) .function 0 e ∧
      ∀ start, c.scopes.resolvePath? start ("::" ++ Name.join (Name.stripRoot scope) name) =
        some (.function e.handle m)
  | .dataMember scope name type offset modifiers => Name.IsComponent name → ∃ m e,
    m.Spelled modifiers ∧ c.types.lookupName? type = some e ∧
      ∀ start, c.scopes.resolvePath? start ("::" ++ Name.join (Name.stripRoot scope) name) =
        some (.dataMember e.handle offset m)

theorem surroundings_component {name : String} (good : Name.WellFormed name) :
    ∀ n ∈ surroundings name, Name.IsComponent n := by
  obtain ⟨cs, hcs, hcomponents⟩ := good.enclosing
  rw [surroundings, hcs, Name.parts_path hcomponents]
  exact hcomponents

theorem last_component {name : String} (good : Name.WellFormed name) :
    Name.IsComponent (Name.last name) := by
  obtain ⟨cs, hcs, -⟩ := good.exists_path
  exact hcs _ (by simp)

theorem WellNamed.component {d : Declaration} (named : d.WellNamed) :
    ∀ n ∈ d.scopeNames, Name.IsComponent n := by
  cases d with
  | fundamental name size | pointer target | function scope name signature modifiers
  | dataMember scope name type offset modifiers => simp [scopeNames]
  | «namespace» name =>
    obtain ⟨cs, hcs, -, hname⟩ := Name.WellFormed.exists_path named
    rw [scopeNames, hname, Name.parts_path hcs]
    exact hcs
  | typedef name target => exact surroundings_component named
  | classType sort name key size | enum name key underlying enumerators =>
    refine List.forall_mem_append.2 ⟨surroundings_component named, ?_⟩
    simpa using last_component named

end Declaration

namespace Catalog

theorem parent_qualified {c : Catalog} (wf : c.WellFormed) {name : String} {parent : ScopeId}
    (good : Name.WellFormed name)
    (hparent : c.scopes.byName? (Name.stripRoot (Name.enclosing name)) = some parent) :
    ∃ p, c.scopes.get? parent = some p ∧ Name.IsComponent (Name.last name) ∧
      Name.join p.qualified (Name.last name) = Name.stripRoot name := by
  obtain ⟨cs, hcs, henclosing, hname⟩ := good.exists_path
  have hgood : ∀ x ∈ cs, Name.IsComponent x := fun x hx => hcs x (List.mem_append_left _ hx)
  obtain ⟨p, hp, hq⟩ := wf.scopes.named hparent
  rw [henclosing, Name.stripRoot_path hgood, Name.stripRoot_path hgood] at hq
  exact ⟨p, hp, hcs _ (by simp), by rw [hq, Name.join_path hgood, hname]⟩

theorem HasClass.shown {c : Catalog} (wf : c.WellFormed) (tidy : c.scopes.Tidy) {name : String}
    (good : Name.WellFormed name) {parent id : ScopeId} {key : Key} {kind : TypeKind} {size : Nat}
    {e : Entry} (hparent : c.scopes.byName? (Name.stripRoot (Name.enclosing name)) = some parent)
    (h : c.HasClass parent (Name.last name) key kind size id e) :
    c.ShowsClass name key kind size e ∧
      ∃ s, c.scopes.get? id = some s ∧ s.qualified = Name.stripRoot name := by
  obtain ⟨p, hp, -, hjoin⟩ := parent_qualified wf good hparent
  obtain ⟨s, hs, hkind, hfacet⟩ := h.scope
  have hm := h.member
  rw [ScopeTree.member?_of_get? hp] at hm
  obtain ⟨s', hs', -, -, hq⟩ := wf.scopes.child hp hm
  obtain rfl : s' = s := Option.some.inj (hs'.symm.trans hs)
  rw [hjoin] at hq
  refine ⟨⟨h.type, id, s', ?_, hs, hkind, hfacet⟩, s', hs, hq⟩
  rw [ScopeTree.byName?, ← hq]
  exact ScopeTree.byName_qualified wf.scopes tidy hs

end Catalog

theorem Key.ofSymbol_eq (symbol : Option String) (name : String) :
    Key.ofSymbol symbol name = symbol.elim (.named (Name.stripRoot name)) .mangled := by
  cases symbol <;> rfl

theorem Declaration.InForce.shown {c : Catalog} (wf : c.WellFormed) (tidy : c.scopes.Tidy)
    {d : Declaration} (named : d.WellNamed) (h : d.InForce c) : d.Shown c := by
  cases d with
  | fundamental name size =>
    obtain ⟨e, he⟩ := h
    exact ⟨e, he.type⟩
  | «namespace» name =>
    obtain ⟨id, hid⟩ := h
    obtain ⟨cs, hcs, -, hname⟩ := Name.WellFormed.exists_path named
    rw [ScopeTree.byName?, hname, Name.stripRoot_path hcs, ← hname] at hid
    exact ⟨id, hid⟩
  | classType sort name key size =>
    obtain ⟨parent, id, e, hparent, hclass⟩ := h
    rw [Key.ofSymbol_eq] at hclass
    exact ⟨e, (hclass.shown wf tidy named hparent).1⟩
  | typedef name target =>
    obtain ⟨parent, t, e, hparent, ht, he, hm⟩ := h
    obtain ⟨p, hp, hlast, hjoin⟩ := Catalog.parent_qualified wf named hparent
    refine ⟨t, e, ht, he.get? wf.types, he.kind, he.size, ?_⟩
    intro start
    rw [← hjoin]
    exact ScopeTree.resolvePath?_member wf.scopes tidy hp hlast hm start
  | pointer target =>
    obtain ⟨t, e, -, he⟩ := h
    exact ⟨e, he⟩
  | enum name key underlying enumerators =>
    obtain ⟨parent, base, en, hparent, hbase, hen, hall⟩ := h
    rw [Key.ofSymbol_eq] at hen
    obtain ⟨hshows, s, hs, hq⟩ := hen.owned.shown wf tidy named hparent
    refine ⟨base, en.type, hbase, hshows, ?_⟩
    intro x hx hname start
    rw [← hq]
    exact ScopeTree.resolvePath?_member wf.scopes tidy hs hname (hall x hx) start
  | function scope name signature modifiers =>
    obtain ⟨id, m, e, hid, hmods, he, hm⟩ := h
    exact fun hname => ⟨m, e, Modifiers.ofKeywords_eq_ok_iff.1 hmods, he,
      ScopeTree.resolvePath?_byName wf.scopes tidy hid hname hm⟩
  | dataMember scope name type offset modifiers =>
    obtain ⟨id, m, e, hid, hmods, he, hm⟩ := h
    exact fun hname => ⟨m, e, Modifiers.ofKeywords_eq_ok_iff.1 hmods, he,
      ScopeTree.resolvePath?_byName wf.scopes tidy hid hname hm⟩

namespace Hub

theorem loadAll_growsTo (hub : Hub) (wf : hub.catalog.WellFormed) (dicts : List Dictionary)
    (named : ∀ dict ∈ dicts, dict.WellNamed) :
    hub.catalog.GrowsTo Name.IsComponent (hub.loadAll dicts).catalog := by
  induction dicts generalizing hub with
  | nil => exact .refl _
  | cons dict rest ih =>
    have hfirst : hub.catalog.GrowsTo Name.IsComponent (hub.load dict).2.catalog := by
      rw [load_hub]
      exact applied_growsTo hub wf _ fun d hd => (named dict (by simp) d hd).component
    exact hfirst.trans (ih _ (hfirst.wellFormed wf) fun d hd => named d (by simp [hd]))

/-- In a catalog that well-named dictionaries have filled, what has been declared is found by name
and by absolute paths, after the declaration and after any more such dictionaries. -/
theorem declared_is_shown {hub : Hub} {settings : CatalogSettings}
    (empty : hub.catalog = .empty settings) {before later : List Dictionary}
    (hbefore : ∀ dict ∈ before, dict.WellNamed) (hlater : ∀ dict ∈ later, dict.WellNamed) :
    (∀ d hub₁, Declaration.WellNamed d →
      attempt (apply d) (hub.loadAll before) = (.ok (), hub₁) →
        d.Shown (hub₁.loadAll later).catalog) ∧
    ∀ dict i d, Dictionary.WellNamed dict → dict.declarations[i]? = some d →
      ¬((hub.loadAll before).load dict).1.Skips i →
        d.Shown (((hub.loadAll before).load dict).2.loadAll later).catalog := by
  have wf₀ : hub.catalog.WellFormed := by
    rw [empty]
    exact Catalog.empty_wellFormed settings
  have tidy₀ : hub.catalog.scopes.Tidy := by
    rw [empty]
    exact Catalog.empty_tidy settings
  have g₁ := loadAll_growsTo hub wf₀ before hbefore
  have wf₁ := g₁.wellFormed wf₀
  have tidy₁ : (hub.loadAll before).catalog.scopes.Tidy := g₁.tidy tidy₀
  -- From a tidy catalog on, what is in force stays so and is shown.
  have shown : ∀ {mid : Hub} {d : Declaration},
      (hub.loadAll before).catalog.GrowsTo Name.IsComponent mid.catalog → d.WellNamed →
        d.InForce mid.catalog → d.Shown (mid.loadAll later).catalog := by
    intro mid d g₂ named hforce
    have wf₂ := g₂.wellFormed wf₁
    have g₃ := loadAll_growsTo mid wf₂ later hlater
    exact (hforce.mono g₃ wf₂).shown (g₃.wellFormed wf₂) (g₃.tidy (g₂.tidy tidy₁)) named
  constructor
  · intro d hub₁ named hok
    refine shown ?_ named (applied_inForce wf₁ named hok).2
    exact (apply_growsTo _ wf₁ d named.component).at_ok (attempt_eq_ok.1 hok)
  · intro dict i d named hd taken
    refine shown ?_ (named d (List.mem_of_getElem? hd)) (load_inForce wf₁ hd
      (named d (List.mem_of_getElem? hd)) taken)
    rw [load_hub]
    exact applied_growsTo _ wf₁ _ fun d hd => (named d hd).component

def unfilled : Hub := ofSettings Settings.default.catalog

def numbers : Dictionary := ⟨"numbers", [.fundamental "int" 4, .classType .class "a::C" none 8], []⟩

/-- A dictionary that asks for the names of an enum and an enumerator, for other things. -/
def rivals : Dictionary :=
  ⟨"rivals", [.classType .union "::a::E" none 2, .namespace "a::E::red"], []⟩

/-- A member function that is public, which is bit 0, and const, which is bit 15. -/
def norm : Declaration := .function "geo::Point" "norm" "double ()" ["public", "const"]

def plane : Dictionary :=
  ⟨"plane", [.fundamental "double" 8, .classType .class "geo::Point" none 16,
    .dataMember "geo::Point" "y" "double" 8 ["public"], norm], []⟩

theorem colors_and_norm_are_shown :
    colors.Shown ((attempt (apply colors) (unfilled.loadAll [numbers])).2.loadAll
        [rivals]).catalog ∧
      colors.Shown (((unfilled.loadAll [numbers]).load palette).2.loadAll [rivals]).catalog ∧
        ∃ h, ∀ start, (((unfilled.loadAll [numbers]).load plane).2.loadAll
          [rivals]).catalog.scopes.resolvePath? start "::geo::Point::norm" =
            some (.function h ⟨0x8001⟩) := by
  have h := @declared_is_shown unfilled _ rfl [numbers] [rivals] (by decide +kernel)
    (by decide +kernel)
  have hcolors : (attempt (apply colors) (unfilled.loadAll [numbers])).1 = .ok () := by
    decide +kernel
  have hpalette : ¬((unfilled.loadAll [numbers]).load palette).1.Skips 1 := by decide +kernel
  have hplane : ¬((unfilled.loadAll [numbers]).load plane).1.Skips 3 := by decide +kernel
  have hshown := h.1 colors _ (by decide +kernel) (attempt_of_fst hcolors)
  have hloaded := h.2 palette 1 colors (by decide +kernel) rfl hpalette
  obtain ⟨m, e, hm, -, hnorm⟩ :=
    h.2 plane 3 norm (by decide +kernel) rfl hplane (by decide +kernel)
  have hbits : Modifiers.ofKeywords ["public", "const"] = .ok ⟨0x8001⟩ := by decide +kernel
  obtain rfl := Except.ok.inj ((Modifiers.ofKeywords_eq_ok_iff.2 hm).symm.trans hbits)
  exact ⟨hshown, hloaded, e.handle, hnorm⟩

end Hub

end TypeCatalog
