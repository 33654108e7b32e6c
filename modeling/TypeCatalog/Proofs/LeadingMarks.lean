import TypeCatalog.Proofs.Reloading

/-!
# A mark in front of a declared name

A declaration may name what it declares with `::` in front. Namespaces, classes and enums are the
same with it and without it. The key of a typedef or of a pointer is what is written, so the two
spellings of a typedef are two types that want the same place in their scope, and the two spellings
of a pointer are two types.
-/

namespace TypeCatalog

namespace Name

/-- Components with `::` between them and none in front. -/
def Plain (name : String) : Prop := ∃ cs, cs ≠ [] ∧ (∀ c ∈ cs, IsComponent c) ∧ name = path cs

/-- The names differ by one `::` in front at the most. -/
def Alike (name other : String) : Prop := stripRoot name = stripRoot other

theorem Alike.symm {name other : String} (h : Alike name other) : Alike other name := Eq.symm h

theorem Alike.enclosing {name other : String} (h : Alike name other) :
    enclosing name = enclosing other := by
  rw [Name.enclosing, h, ← Name.enclosing]

theorem Alike.last {name other : String} (h : Alike name other) : last name = last other := by
  rw [Name.last, h, ← Name.last]

theorem Plain.wellFormed {name : String} (h : Plain name) : WellFormed name := by
  obtain ⟨cs, hne, hcs, hname⟩ := h
  exact ⟨cs, hne, hcs, .inl hname⟩

theorem Plain.wellFormed_root {name : String} (h : Plain name) : WellFormed ("::" ++ name) := by
  obtain ⟨cs, hne, hcs, rfl⟩ := h
  exact ⟨cs, hne, hcs, .inr rfl⟩

theorem Plain.alike {name : String} (h : Plain name) : Alike ("::" ++ name) name := by
  obtain ⟨cs, -, hcs, rfl⟩ := h
  rw [Alike, stripRoot_root, stripRoot_path hcs]

theorem root_ne (name : String) : "::" ++ name ≠ name := by
  intro h
  have hlength := congrArg String.length h
  rw [String.length_append] at hlength
  have : "::".length = 2 := rfl
  omega

end Name

namespace Declaration

/-- The declaration with `::` in front of the name that it declares, or of the type that a pointer
points to. -/
def marked : Declaration → Declaration
  | .namespace name => .namespace ("::" ++ name)
  | .classType sort name key size => .classType sort ("::" ++ name) key size
  | .typedef name target => .typedef ("::" ++ name) target
  | .pointer target => .pointer ("::" ++ target)
  | .enum name key underlying enumerators => .enum ("::" ++ name) key underlying enumerators
  | d => d

/-- A namespace, a class or an enum whose name is plain. -/
def Places : Declaration → Prop
  | .namespace name | .classType _ name _ _ | .enum name _ _ _ => Name.Plain name
  | _ => False

theorem Places.wellNamed {d : Declaration} (places : d.Places) : d.WellNamed := by
  cases d with
  | «namespace» | classType | enum => exact Name.Plain.wellFormed places
  | fundamental | typedef | pointer | function | dataMember => exact places.elim

end Declaration

theorem Key.ofSymbol_alike {name other : String} (h : Name.Alike name other) (key : Option String) :
    Key.ofSymbol key name = Key.ofSymbol key other := by
  cases key with
  | some symbol => rfl
  | none => rw [Key.ofSymbol, h, ← Key.ofSymbol]

theorem Registry.lookupName?_alike {name other : String} (h : Name.Alike name other)
    (r : Registry) : r.lookupName? name = r.lookupName? other := by
  rw [lookupName?, lookupName?, matchName?, matchName?, h]

/-- The name of a typedef leads to the type that it is the key of. -/
def Catalog.HasTypedef (c : Catalog) (name : String) : Prop :=
  ∃ parent size e, c.scopes.byName? (Name.stripRoot (Name.enclosing name)) = some parent ∧
    c.types.HasType (.named name) .typedef size e ∧
      c.scopes.member? parent (Name.last name) = some (.type e.handle)

namespace Catalog.HasTypedef

variable {c c' : Catalog} {name other : String}

theorem mono (h : c.HasTypedef name) (hext : c.Extends c') : c'.HasTypedef name := by
  obtain ⟨parent, size, e, hparent, he, hm⟩ := h
  exact ⟨parent, size, e, hext.scopes.byName? hparent, hext.types.hasType he,
    hext.scopes.member? hm⟩

/-- One place has one type, and a type has one key. -/
theorem unique (wf : c.WellFormed) (h : c.HasTypedef name) (h' : c.HasTypedef other)
    (alike : Name.Alike name other) : name = other := by
  obtain ⟨parent, size, e, hparent, he, hm⟩ := h
  obtain ⟨parent', size', e', hparent', he', hm'⟩ := h'
  rw [alike.enclosing] at hparent
  obtain rfl : parent = parent' := Option.some.inj (hparent.symm.trans hparent')
  rw [alike.last] at hm
  have hmember := Option.some.inj (hm.symm.trans hm')
  have hhandle : e.handle = e'.handle := Member.type.inj hmember
  obtain ⟨hget, hkey⟩ := (Registry.lookup?_eq_some_iff wf.types).1 he.found
  obtain ⟨hget', hkey'⟩ := (Registry.lookup?_eq_some_iff wf.types).1 he'.found
  rw [← hhandle] at hget'
  obtain rfl : e = e' := Option.some.inj (hget.symm.trans hget')
  exact Key.named.inj (hkey.symm.trans hkey')

end Catalog.HasTypedef

theorem Declaration.InForce.hasTypedef {c : Catalog} {name target : String}
    (h : (Declaration.typedef name target).InForce c) : c.HasTypedef name := by
  obtain ⟨parent, t, e, hparent, -, he, hm⟩ := h
  exact ⟨parent, t.size, e, hparent, he, hm⟩

namespace Hub

variable {hub hub' : Hub}

/-! ## Namespaces, classes and enums -/

theorem ensureNamespace_alike {path other : String} (h : Name.Alike path other) :
    ensureNamespace path = ensureNamespace other := by
  have hsame : Name.stripRoot path = Name.stripRoot other := h
  simp only [ensureNamespace, hsame]

theorem apply_marked {d : Declaration} (places : d.Places) : apply d.marked = apply d := by
  cases d with
  | «namespace» name =>
    have halike := Name.Plain.alike places
    simp only [Declaration.marked, apply, ensureNamespace_alike halike]
  | classType sort name key size =>
    have halike := Name.Plain.alike places
    rw [Declaration.marked, apply_classType_eq, apply_classType_eq, halike.enclosing, halike.last,
      Key.ofSymbol_alike halike]
  | enum name key underlying enumerators =>
    have halike := Name.Plain.alike places
    rw [Declaration.marked, apply_enum_eq, apply_enum_eq, halike.enclosing, halike.last,
      Key.ofSymbol_alike halike]
  | fundamental | typedef | pointer | function | dataMember => exact places.elim

/-! ## Outcomes -/

theorem wellFormed_of_execute (wf : hub.catalog.WellFormed) {op : Operation}
    {answer : Except Fault Result} (h : hub.execute op = (answer, hub')) :
    hub'.catalog.WellFormed := by
  have hkept := execute_wellFormed hub wf op
  rw [h] at hkept
  exact hkept

theorem execute_apply {d : Declaration} (h : EStateM.run (apply d) hub = .ok () hub') :
    hub.execute (.apply d) = (.ok .done, hub') :=
  execute_eq (run_bind h)

theorem inForce_of_execute (wf : hub.catalog.WellFormed) {d : Declaration} {r : Result}
    (h : hub.execute (.apply d) = (.ok r, hub')) (named : d.WellNamed) : d.InForce hub'.catalog :=
  (after_answer (fun _ => .done) (apply_spec hub wf d)).at_ok (run_of_execute h) named

theorem execute_apply_again (wf : hub.catalog.WellFormed) {d : Declaration} (named : d.WellNamed)
    {r : Result} (h : hub.execute (.apply d) = (.ok r, hub')) :
    hub'.execute (.apply d) = (.ok .done, hub') := by
  have wf' := wellFormed_of_execute wf h
  exact execute_apply (apply_again wf' (inForce_of_execute wf h named))

/-! ## Typedefs -/

/-- Once the first declaration has succeeded, the second one fails for ever. -/
def Excludes (hub : Hub) (d d' : Declaration) : Prop :=
  ∀ r hub', hub.execute (.apply d) = (.ok r, hub') →
    ∀ ops, ∃ fault, ((hub'.run ops).execute (.apply d')).1 = .error fault

theorem typedef_excludes (wf : hub.catalog.WellFormed) {name other : String}
    (named : Name.WellFormed name) (named' : Name.WellFormed other) (alike : Name.Alike name other)
    (differ : name ≠ other) (target target' : String) :
    hub.Excludes (.typedef name target) (.typedef other target') := by
  intro r hub' h ops
  have wf' := wellFormed_of_execute wf h
  have hfirst := (inForce_of_execute wf h named).hasTypedef
  cases hsecond : (hub'.run ops).execute (.apply (.typedef other target')) with
  | mk answer hub'' =>
    cases answer with
    | error fault => exact ⟨fault, rfl⟩
    | ok r' =>
      have wf₂ := run_wellFormed hub' wf' ops
      have hother := (inForce_of_execute wf₂ hsecond named').hasTypedef
      have hext := execute_extends _ wf₂ (.apply (.typedef other target'))
      rw [hsecond] at hext
      have hkept := (hfirst.mono (run_extends hub' wf' ops)).mono hext
      have wf₃ := wellFormed_of_execute wf₂ hsecond
      exact absurd (hkept.unique wf₃ hother alike) differ

/-! ## Pointers -/

/-- Once the first pointer type is there, the second is one more type, unless its key is taken. -/
def Doubles (hub : Hub) (target other : String) : Prop :=
  ∀ r hub', hub.execute (.apply (.pointer target)) = (.ok r, hub') →
    hub'.catalog.types.lookup? (.named (Declaration.pointerName other)) = none →
      ∃ hub'' e, hub'.execute (.apply (.pointer other)) = (.ok .done, hub'') ∧
        hub''.catalog.types.lookup? (.named (Declaration.pointerName other)) = some e ∧
        hub'.catalog.types.get? e.handle = none

theorem apply_pointer_of_free (wf : hub.catalog.WellFormed) {target : String} {t : Entry}
    (found : hub.catalog.types.lookupName? target = some t)
    (free : hub.catalog.types.lookup? (.named (Declaration.pointerName target)) = none) :
    After (apply (.pointer target)) hub
      (fun _ hub' => hub.catalog.Extends hub'.catalog ∧ ∃ e, hub'.catalog.types.HasType
        (.named (Declaration.pointerName target)) .pointer pointerSize e) (fun _ _ => False) := by
  have hregister : After (commit (Change.register (.named (Declaration.pointerName target)) .pointer
      pointerSize (Declaration.pointerName target))) hub (fun _ _ => True) (fun _ _ => False) := by
    refine after_commit ((Change.register_succeeds (fun _ => True) ⟨hub.catalog, []⟩ wf ?_ _).mono
      (fun _ _ _ => trivial) fun _ _ h => h)
    intro e he
    rw [free] at he
    cases he
  refine after_bind (after_of_run (run_discard (run_requireType found)) ?_)
  refine after_discard (((commit_register hub wf _ _ _ _).and hregister).mono ?_ fun _ _ h => h.2)
  rintro e hub' ⟨⟨hgrows, he⟩, -⟩
  exact ⟨hgrows.keeps wf, e, he⟩

theorem pointer_doubles (wf : hub.catalog.WellFormed) {target other : String}
    (alike : Name.Alike target other) : hub.Doubles target other := by
  intro r hub' h free
  have wf' := wellFormed_of_execute wf h
  obtain ⟨t, -, ht, -⟩ := inForce_of_execute wf h trivial
  rw [Registry.lookupName?_alike alike] at ht
  have happly := apply_pointer_of_free wf' ht free
  cases hrun : EStateM.run (apply (.pointer other)) hub' with
  | error fault hub'' => exact (happly.at_error hrun).elim
  | ok _ hub'' =>
    obtain ⟨hext, e, he⟩ := happly.at_ok hrun
    have hexecute := execute_apply hrun
    have wf₂ := wellFormed_of_execute wf' hexecute
    obtain ⟨hget, hkey⟩ := (Registry.lookup?_eq_some_iff wf₂.types).1 he.found
    refine ⟨hub'', e, hexecute, he.found, Option.eq_none_iff_forall_ne_some.2 fun e' he' => ?_⟩
    obtain rfl : e' = e := Option.some.inj ((hext.types.get? he').symm.trans hget)
    rw [(Registry.lookup?_eq_some_iff wf'.types).2 ⟨he', hkey⟩] at free
    cases free

/-! ## All declarations -/

/-- What a `::` in front of the name means to the declarations of a hub. -/
structure MarksMean (hub : Hub) : Prop where
  places : ∀ d, Declaration.Places d →
    hub.execute (.apply d.marked) = hub.execute (.apply d) ∧
      ∀ r hub', hub.execute (.apply d) = (.ok r, hub') →
        hub'.execute (.apply d) = (.ok .done, hub') ∧
          hub'.execute (.apply d.marked) = (.ok .done, hub')
  typedefs : ∀ name target, Name.Plain name →
    hub.Excludes (.typedef name target) (Declaration.typedef name target).marked ∧
      hub.Excludes (Declaration.typedef name target).marked (.typedef name target)
  pointers : ∀ target, Name.Plain target →
    hub.Doubles target ("::" ++ target) ∧ hub.Doubles ("::" ++ target) target

theorem marks_mean (reach : hub.Reachable) : hub.MarksMean where
  places := by
    intro d places
    refine ⟨by simp only [execute, perform, apply_marked places], fun r hub' h => ?_⟩
    have hagain := execute_apply_again reach.wellFormed places.wellNamed h
    refine ⟨hagain, ?_⟩
    rw [← hagain]
    simp only [execute, perform, apply_marked places]
  typedefs := by
    intro name target plain
    have differ := Name.root_ne name
    exact ⟨typedef_excludes reach.wellFormed plain.wellFormed plain.wellFormed_root
        plain.alike.symm differ.symm target target,
      typedef_excludes reach.wellFormed plain.wellFormed_root plain.wellFormed plain.alike differ
        target target⟩
  pointers := fun _ plain =>
    ⟨pointer_doubles reach.wellFormed plain.alike.symm,
      pointer_doubles reach.wellFormed plain.alike⟩

/-- A class in a namespace, with and without the mark. -/
theorem marked_class_is_the_same :
    withInt.Reachable ∧ (Declaration.classType .class "a::B" none 4).Places ∧
      withInt.execute (.apply (.classType .class "::a::B" none 4)) =
        withInt.execute (.apply (.classType .class "a::B" none 4)) ∧
      (withInt.execute (.apply (.classType .class "a::B" none 4))).1 = .ok .done := by
  have reach : withInt.Reachable := ⟨_, _, rfl⟩
  have places : (Declaration.classType .class "a::B" none 4).Places :=
    ⟨["a", "B"], by decide, by decide, by decide +kernel⟩
  exact ⟨reach, places, ((marks_mean reach).places _ places).1, by decide +kernel⟩

/-- Declares the name as a typedef for `int`. -/
def naming (name : String) : Operation := .apply (.typedef name "int")

def typedefined : Hub := (withInt.execute (naming "T")).2

/-- The second spelling registers another type before it fails. -/
theorem marked_typedef_fails :
    typedefined.Reachable ∧ Name.Plain "T" ∧
      (withInt.execute (naming "T")).1 = .ok .done ∧
      (typedefined.execute (naming "::T")).1 = .error (.duplicateMember "::" "T") ∧
      typedefined.catalog.types.size = 2 ∧
      (typedefined.execute (naming "::T")).2.catalog.types.size = 3 := by
  refine ⟨⟨_, [.buildFundamental "int" 4, naming "T"], rfl⟩,
    ⟨["T"], by decide, by decide, by decide +kernel⟩, ?_⟩
  decide +kernel

end Hub

end TypeCatalog
