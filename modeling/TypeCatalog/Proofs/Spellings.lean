import Mathlib.Data.List.Forall2
import TypeCatalog.Dictionary.Format
import TypeCatalog.Proofs.JsonText
import TypeCatalog.Proofs.Table

/-!
# Spellings of a dictionary

The fields of an object may be written in any order, and those that have their defaults may be left
out. However a dictionary is written, it is read as the same name and the same declarations.
-/

namespace TypeCatalog

/-! ## Spellings -/

namespace Json

/-- The fields that may be left out, with the values that they have then. -/
def omissible : List (String × Json) :=
  [("key", .null), ("underlying", .string "int"), ("enumerators", .array []),
    ("modifiers", .array []), ("offset", .ofNat 0), ("declarations", .array []),
    ("symbols", .array [])]

/-- The second value is a way to write the first one. -/
inductive Spells : Json → Json → Prop
  | null : Spells .null .null
  | bool (b : Bool) : Spells (.bool b) (.bool b)
  | number (n : Number) : Spells (.number n) (.number n)
  | string (s : String) : Spells (.string s) (.string s)
  | array {items written : List Json} (spells : List.Forall₂ Spells items written) :
    Spells (.array items) (.array written)
  /-- What is written are fields of the object, and only what has its default is missing. -/
  | object {fields written : List (String × Json)} (value : String → Json)
    (once : (written.map (·.1)).Nodup) (known : ∀ f ∈ written, (f.1, value f.1) ∈ fields)
    (spells : ∀ f ∈ written, Spells (value f.1) f.2)
    (rest : ∀ f ∈ fields, f.1 ∈ written.map (·.1) ∨ f ∈ omissible) :
    Spells (.object fields) (.object written)

theorem Spells.fits {v w : Json} (spells : Spells v w) {levels : Nat} (fits : Fits levels v) :
    Fits levels w := by
  induction fits generalizing w with
  | null => cases spells; exact .null
  | bool b => cases spells; exact .bool b
  | number whole => cases spells; exact .number whole
  | string s => cases spells; exact .string s
  | array fits ih =>
    cases spells with
    | array spells =>
      clear fits
      refine .array ?_
      induction spells with
      | nil => simp
      | cons first _ more =>
        obtain ⟨hfirst, hrest⟩ := List.forall_mem_cons.1 ih
        exact List.forall_mem_cons.2 ⟨hfirst first, more hrest⟩
  | object fits ih =>
    cases spells with
    | object value once known spells rest =>
      exact .object fun f hf => ih _ (known f hf) (spells f hf)

/-- The fields that are written of an object. -/
structure Respelled (fields written : List (String × Json)) : Prop where
  once : (written.map (·.1)).Nodup
  known : ∀ g ∈ written, ∃ v, (g.1, v) ∈ fields ∧ Spells v g.2
  rest : ∀ f ∈ fields, f.1 ∈ written.map (·.1) ∨ f ∈ omissible

theorem Spells.respelled {fields : List (String × Json)} {w : Json}
    (spells : Spells (.object fields) w) : ∃ written, w = .object written ∧
      Respelled fields written := by
  cases spells with
  | object value once known spells rest =>
    exact ⟨_, rfl, once, fun g hg => ⟨value g.1, known g hg, spells g hg⟩, rest⟩

theorem lookup_of_mem {α : Type} {fields : List (String × α)} (once : (fields.map (·.1)).Nodup)
    {f : String × α} (hf : f ∈ fields) : fields.lookup f.1 = some f.2 := by
  obtain ⟨before, after, rfl⟩ := List.append_of_mem hf
  refine List.lookup_eq_some_iff.2 ⟨before, after, rfl, fun p hp => ?_⟩
  rw [List.map_append, List.nodup_append] at once
  rw [bne_iff_ne]
  exact (once.2.2 p.1 (List.mem_map_of_mem hp) f.1 (by simp)).symm

namespace Respelled

variable {fields written : List (String × Json)}

theorem find (h : Respelled fields written) (distinct : (fields.map (·.1)).Nodup)
    {f : String × Json} (hf : f ∈ fields) :
    (∃ g ∈ written, g.1 = f.1 ∧ Spells f.2 g.2) ∨ f.1 ∉ written.map (·.1) ∧ f ∈ omissible := by
  by_cases hwritten : f.1 ∈ written.map (·.1)
  · obtain ⟨g, hg, hgf⟩ := List.mem_map.1 hwritten
    obtain ⟨v, hv, hspells⟩ := h.known g hg
    have hlookup := lookup_of_mem distinct hv
    rw [hgf, lookup_of_mem distinct hf] at hlookup
    exact .inl ⟨g, hg, hgf, (Option.some.inj hlookup).symm ▸ hspells⟩
  · exact .inr ⟨hwritten, (h.rest f hf).resolve_left hwritten⟩

theorem without {f : String × Json} (h : Respelled (f :: fields) written)
    (free : f.1 ∉ fields.map (·.1)) :
    Respelled fields (written.filter (·.1 ≠ f.1)) where
  once := h.once.sublist (List.filter_sublist.map _)
  known g hg := by
    obtain ⟨hg, hne⟩ := List.mem_filter.1 hg
    obtain ⟨v, hv, hspells⟩ := h.known g hg
    refine ⟨v, (List.mem_cons.1 hv).resolve_left fun heq => ?_, hspells⟩
    exact of_decide_eq_true hne (by rw [← heq])
  rest other hother := by
    refine (h.rest other (List.mem_cons_of_mem f hother)).imp_left fun hwritten => ?_
    obtain ⟨g, hg, hgother⟩ := List.mem_map.1 hwritten
    refine List.mem_map.2 ⟨g, List.mem_filter.2 ⟨hg, decide_eq_true fun heq => ?_⟩, hgother⟩
    rw [← heq, hgother] at free
    exact free (List.mem_map_of_mem hother)

end Respelled

end Json

/-- The document of a dictionary without symbols, with all its fields. -/
def Dictionary.form (name : String) (ds : List Declaration) : Json :=
  .object [("name", .string name), ("declarations", .array (ds.map Declaration.toJson)),
    ("symbols", .array [])]

/-- Sizes and offsets are numbers of 64 bits. -/
def Declaration.Sized : Declaration → Prop
  | .fundamental _ size | .classType _ _ _ size => size < UInt64.size
  | .dataMember _ _ _ offset _ => offset < UInt64.size
  | _ => True

/-! ## Records -/

namespace Record

open Json (Spells Respelled omissible)

/-- The record has the field as some spelling writes it, or has not got it because of its value. -/
def Has (r : Record) (f : String × Json) : Prop :=
  (∃ w, r.get? f.1 = some w.tree ∧ Spells f.2 w) ∨ r.get? f.1 = none ∧ f ∈ omissible

variable {α : Type} {r : Record} {name : String} {v : Json} {read : Tree → Option α} {a : α}

theorem need_eq (has : r.Has (name, v)) (needed : name ∉ omissible.map (·.1))
    (reads : ∀ w, Spells v w → read w.tree = some a) : r.need name read = some a := by
  rcases has with ⟨w, hget, hspells⟩ | ⟨-, hmem⟩
  · rw [need, hget]
    exact reads w hspells
  · exact absurd (List.mem_map_of_mem hmem) needed

theorem want_eq {spare : α} (has : r.Has (name, v)) (default : (name, v) ∈ omissible → spare = a)
    (reads : ∀ w, Spells v w → read w.tree = some a) : r.want name read spare = some a := by
  rcases has with ⟨w, hget, hspells⟩ | ⟨hget, hmem⟩
  · rw [want, hget]
    exact reads w hspells
  · rw [want, hget, default hmem]

theorem ofFields?_fields (names : List String) {fields : List (String × Json)}
    (once : (fields.map (·.1)).Nodup) :
    ofFields? names (fields.map fun f => (some f.1, f.2.tree)) =
      some ⟨(fields.filter (·.1 ∈ names)).map fun f => (f.1, f.2.tree)⟩ := by
  have hnames : (fields.map fun f => (some f.1, f.2.tree)).mapM
      (fun (f : Option String × Tree) => f.1.map fun name => (name, f.2)) =
        some (fields.map fun f => (f.1, f.2.tree)) := by
    clear once
    induction fields with
    | nil => rfl
    | cons f rest ih =>
      rw [List.map_cons, List.mapM_cons, ih]
      rfl
  have hknown : (((fields.filter (·.1 ∈ names)).map fun f => (f.1, f.2.tree)).map (·.1)).Nodup := by
    rw [List.map_map]
    exact once.sublist (List.filter_sublist.map _)
  have hfilter : (fields.map fun f => (f.1, f.2.tree)).filter (fun f => f.1 ∈ names) =
      (fields.filter (·.1 ∈ names)).map fun f => (f.1, f.2.tree) := List.filter_map
  rw [ofFields?, hnames, Option.bind_eq_bind, Option.bind_some]
  simp only [hfilter]
  exact if_pos hknown

theorem ofTree?_respelled {fields written : List (String × Json)} (h : Respelled fields written)
    (distinct : (fields.map (·.1)).Nodup) (names : List String) :
    ∃ r, ofTree? names (.object (written.map fun f => (some f.1, f.2.tree))) = some r ∧
      ∀ f ∈ fields, f.1 ∈ names → r.Has f := by
  refine ⟨_, ofFields?_fields names h.once, fun f hf hname => ?_⟩
  have honce : (((written.filter (·.1 ∈ names)).map fun f => (f.1, f.2.tree)).map (·.1)).Nodup := by
    rw [List.map_map]
    exact h.once.sublist (List.filter_sublist.map _)
  rcases h.find distinct hf with ⟨g, hg, hgf, hspells⟩ | ⟨hmissing, hmem⟩
  · have hmem : (g.1, g.2.tree) ∈ (written.filter (·.1 ∈ names)).map fun f => (f.1, f.2.tree) := by
      refine List.mem_map.2 ⟨g, List.mem_filter.2 ⟨hg, decide_eq_true ?_⟩, rfl⟩
      rwa [hgf]
    refine .inl ⟨g.2, ?_, hspells⟩
    rw [get?, ← hgf]
    exact Json.lookup_of_mem honce hmem
  · refine .inr ⟨?_, hmem⟩
    rw [get?, List.lookup_eq_none_iff]
    intro p hp
    obtain ⟨g, hg, rfl⟩ := List.mem_map.1 hp
    rw [bne_iff_ne]
    intro hfg
    exact hmissing (hfg ▸ List.mem_map_of_mem (List.mem_filter.1 hg).1)

theorem ofTree?_spelling {fields : List (String × Json)} {w : Json}
    (spells : Spells (.object fields) w) (distinct : (fields.map (·.1)).Nodup)
    (names : List String) :
    ∃ r, ofTree? names w.tree = some r ∧ ∀ f ∈ fields, f.1 ∈ names → r.Has f := by
  obtain ⟨written, rfl, h⟩ := spells.respelled
  rw [Json.tree, Json.fieldTrees_eq]
  exact ofTree?_respelled h distinct names

end Record

namespace Tree

open Json (Spells)

theorem text?_spelling {s : String} {w : Json} (spells : Spells (.string s) w) :
    text? w.tree = some s := by
  cases spells
  rfl

theorem natural?_spelling {n : Nat} (h : n < UInt64.size) {w : Json}
    (spells : Spells (.ofNat n) w) : natural? w.tree = some n := by
  cases spells
  rw [Json.tree, natural?, Number.number?_numeral (n := .natural _) trivial]
  exact congrArg some (UInt64.toNat_ofNat_of_lt h)

theorem integer?_spelling {i : Int64} {w : Json} (spells : Spells (.ofInt64 i) w) :
    integer? w.tree = some i := by
  have hgreatest := i.toInt_lt
  unfold Json.ofInt64 at spells
  split at spells
  · next hnonneg =>
    cases spells
    have hword : i.toInt.toNat < UInt64.size := by
      rw [UInt64.size]
      omega
    have hvalue : (UInt64.ofNat i.toInt.toNat).toNat = i.toInt.toNat :=
      UInt64.toNat_ofNat_of_lt hword
    rw [Json.tree, integer?, Number.number?_numeral (n := .natural _) trivial, Option.bind_some,
      Number.toInt64?, hvalue, if_pos (by omega), ← Int64.ofInt_eq_ofNat,
      Int.toNat_of_nonneg hnonneg, Int64.ofInt_toInt]
  · next hneg =>
    cases spells
    have hwhole : (Number.negative i).Whole := Int.not_le.1 hneg
    rw [Json.tree, integer?, Number.number?_numeral hwhole]
    rfl

theorem optional?_spelling {key : Option String} {w : Json} (spells : Spells (.ofOption key) w) :
    optional? text? w.tree = some key := by
  cases key with
  | none => cases spells; rfl
  | some s => cases spells; rfl

theorem list?_spelling {α : Type} {read : Tree → Option α} {write : α → Json} {as : List α}
    (one : ∀ a ∈ as, ∀ w, Spells (write a) w → read w.tree = some a) {w : Json}
    (spells : Spells (.array (as.map write)) w) : list? read w.tree = some as := by
  cases spells with
  | @array _ written spells =>
    rw [Json.tree, Json.trees_eq, list?]
    rw [List.forall₂_map_left_iff] at spells
    induction spells with
    | nil => rfl
    | cons first _ more =>
      obtain ⟨hfirst, hrest⟩ := List.forall_mem_cons.1 one
      rw [List.map_cons, List.mapM_cons, hfirst _ first, more hrest]
      rfl

/-- The tag is found wherever it is written, and the other fields are left. -/
theorem tagged?_spelling {sort : String} {fields : List (String × Json)} {w : Json}
    (spells : Spells (.object (("kind", .string sort) :: fields)) w)
    (free : "kind" ∉ fields.map (·.1)) (distinct : (fields.map (·.1)).Nodup) :
    ∃ rest, tagged? "kind" w.tree = some (sort, rest) ∧ ∀ names,
      ∃ r, Record.ofTree? names rest = some r ∧ ∀ f ∈ fields, f.1 ∈ names → r.Has f := by
  obtain ⟨written, rfl, h⟩ := spells.respelled
  have hall : ((("kind", .string sort) :: fields : List (String × Json)).map (·.1)).Nodup :=
    List.nodup_cons.2 ⟨free, distinct⟩
  obtain ⟨g, hg, hkind, hspells⟩ : ∃ g ∈ written, g.1 = "kind" ∧ Spells (.string sort) g.2 := by
    refine (h.find hall List.mem_cons_self).resolve_right fun hmissing => ?_
    have hmem := hmissing.2
    simp [Json.omissible] at hmem
  obtain ⟨label, v⟩ := g
  obtain rfl : label = "kind" := hkind
  cases hspells
  have htag : (written.map fun f => (some f.1, f.2.tree)).filter (fun f => f.1 = some "kind") =
      [(some "kind", .string (some sort))] := by
    have hone := Table.filter_key (·.1) h.once hg
    simp only [List.filter_map, Function.comp_def, Option.some.injEq, hone]
    rfl
  have hrest : (written.map fun f => (some f.1, f.2.tree)).filter (fun f => f.1 ≠ some "kind") =
      (written.filter (·.1 ≠ "kind")).map fun f => (some f.1, f.2.tree) := by
    simp only [List.filter_map, Function.comp_def, ne_eq, Option.some.injEq]
  refine ⟨_, ?_, Record.ofTree?_respelled (h.without free) distinct⟩
  rw [Json.tree, Json.fieldTrees_eq, tagged?, htag]
  simp only [hrest]

end Tree

/-! ## Fields of declarations -/

namespace Json

variable {levels : Nat}

theorem ofNat_fits (n : Nat) : Fits levels (.ofNat n) := .number trivial

theorem ofInt64_fits (i : Int64) : Fits levels (.ofInt64 i) := by
  unfold ofInt64
  split
  · exact ofNat_fits _
  · next hneg => exact .number (Int.not_le.1 hneg)

theorem ofOption_fits (s : Option String) : Fits levels (.ofOption s) := by
  cases s with
  | none => exact .null
  | some s => exact .string s

theorem ofStrings_fits (ss : List String) : Fits (levels + 1) (.ofStrings ss) :=
  .array (List.forall_mem_map.2 fun s _ => .string s)

end Json

namespace Record

open Json (omissible)

variable {r : Record} {name : String}

theorem text_eq {s : String} (has : r.Has (name, .string s)) (needed : name ∉ omissible.map (·.1)) :
    r.need name Tree.text? = some s := need_eq has needed fun _ => Tree.text?_spelling

theorem size_eq {n : Nat} (sized : n < UInt64.size) (has : r.Has ("size", .ofNat n)) :
    r.need "size" Tree.natural? = some n :=
  need_eq has (by simp [omissible]) fun _ => Tree.natural?_spelling sized

theorem key_eq {key : Option String} (has : r.Has ("key", .ofOption key)) :
    r.want "key" (Tree.optional? Tree.text?) none = some key := by
  refine want_eq has (fun hmem => ?_) fun _ => Tree.optional?_spelling
  cases key with
  | none => rfl
  | some s => simp [omissible, Json.ofOption] at hmem

theorem modifiers_eq {modifiers : List String} (has : r.Has ("modifiers", .ofStrings modifiers)) :
    r.want "modifiers" (Tree.list? Tree.text?) [] = some modifiers := by
  refine want_eq has (fun hmem => ?_) fun _ =>
    Tree.list?_spelling fun _ _ _ => Tree.text?_spelling
  simpa [omissible, Json.ofStrings, eq_comm] using hmem

theorem offset_eq {n : Nat} (sized : n < UInt64.size) (has : r.Has ("offset", .ofNat n)) :
    r.want "offset" Tree.natural? 0 = some n := by
  refine want_eq has (fun hmem => ?_) fun _ => Tree.natural?_spelling sized
  have hword : UInt64.ofNat n = UInt64.ofNat 0 := by simpa [omissible, Json.ofNat] using hmem
  have hvalue : (UInt64.ofNat n).toNat = n := UInt64.toNat_ofNat_of_lt sized
  rw [hword] at hvalue
  exact hvalue

end Record

/-! ## Declarations -/

namespace Enumerator

open Json (Spells Fits)

theorem toJson_fits (e : Enumerator) (levels : Nat) : Fits (levels + 1) e.toJson :=
  .object (by simp [Fits.string, Json.ofInt64_fits])

theorem ofTree?_spelling {e : Enumerator} {w : Json} (spells : Spells e.toJson w) :
    ofTree? w.tree = some e := by
  obtain ⟨r, hr, has⟩ := Record.ofTree?_spelling spells (by simp) ["name", "value"]
  have hname := Record.text_eq (has ("name", .string e.name) (by simp) (by simp))
    (by simp [Json.omissible])
  have hvalue := Record.need_eq (has ("value", .ofInt64 e.value) (by simp) (by simp))
    (by simp [Json.omissible]) fun _ => Tree.integer?_spelling
  simp [ofTree?, hr, hname, hvalue]

end Enumerator

namespace Declaration

open Json (Spells Fits omissible)

theorem fieldsOfTree?_spelling {d : Declaration} (sized : d.Sized) {rest : Tree} {r : Record}
    (hr : Record.ofTree? (d.fields.map (·.1)) rest = some r) (has : ∀ f ∈ d.fields, r.Has f) :
    fieldsOfTree? d.sort rest = some d := by
  have needed : ∀ name ∈ ["name", "target", "scope", "signature", "type"],
      name ∉ omissible.map (·.1) := by simp [omissible]
  cases d with
  | fundamental name size =>
    simp only [fields, List.map_cons, List.map_nil, List.forall_mem_cons] at hr has
    obtain ⟨hname, hsize, -⟩ := has
    simp [sort, fieldsOfTree?, hr, Record.text_eq hname (needed _ (by simp)),
      Record.size_eq sized hsize]
  | «namespace» name =>
    simp only [fields, List.map_cons, List.map_nil, List.forall_mem_cons] at hr has
    simp [sort, fieldsOfTree?, hr, Record.text_eq has.1 (needed _ (by simp))]
  | classType sort name key size =>
    simp only [fields, List.map_cons, List.map_nil, List.forall_mem_cons] at hr has
    obtain ⟨hname, hkey, hsize, -⟩ := has
    have hclass : classOfTree? sort rest = some (.classType sort name key size) := by
      simp [classOfTree?, hr, Record.text_eq hname (needed _ (by simp)), Record.key_eq hkey,
        Record.size_eq sized hsize]
    cases sort <;> exact hclass
  | typedef name target =>
    simp only [fields, List.map_cons, List.map_nil, List.forall_mem_cons] at hr has
    obtain ⟨hname, htarget, -⟩ := has
    simp [sort, fieldsOfTree?, hr, Record.text_eq hname (needed _ (by simp)),
      Record.text_eq htarget (needed _ (by simp))]
  | pointer target =>
    simp only [fields, List.map_cons, List.map_nil, List.forall_mem_cons] at hr has
    simp [sort, fieldsOfTree?, hr, Record.text_eq has.1 (needed _ (by simp))]
  | enum name key underlying enumerators =>
    simp only [fields, List.map_cons, List.map_nil, List.forall_mem_cons] at hr has
    obtain ⟨hname, hkey, hunderlying, henumerators, -⟩ := has
    have hint : r.want "underlying" Tree.text? "int" = some underlying :=
      Record.want_eq hunderlying (fun hmem => by simpa [omissible, eq_comm] using hmem)
        fun _ => Tree.text?_spelling
    have hlist : r.want "enumerators" (Tree.list? Enumerator.ofTree?) [] = some enumerators :=
      Record.want_eq henumerators (fun hmem => by simpa [omissible, eq_comm] using hmem)
        fun _ => Tree.list?_spelling fun _ _ _ => Enumerator.ofTree?_spelling
    simp [sort, fieldsOfTree?, hr, Record.text_eq hname (needed _ (by simp)), Record.key_eq hkey,
      hint, hlist]
  | function scope name signature modifiers =>
    simp only [fields, List.map_cons, List.map_nil, List.forall_mem_cons] at hr has
    obtain ⟨hscope, hname, hsignature, hmodifiers, -⟩ := has
    simp [sort, fieldsOfTree?, hr, Record.text_eq hscope (needed _ (by simp)),
      Record.text_eq hname (needed _ (by simp)), Record.text_eq hsignature (needed _ (by simp)),
      Record.modifiers_eq hmodifiers]
  | dataMember scope name type offset modifiers =>
    simp only [fields, List.map_cons, List.map_nil, List.forall_mem_cons] at hr has
    obtain ⟨hscope, hname, htype, hoffset, hmodifiers, -⟩ := has
    simp [sort, fieldsOfTree?, hr, Record.text_eq hscope (needed _ (by simp)),
      Record.text_eq hname (needed _ (by simp)), Record.text_eq htype (needed _ (by simp)),
      Record.offset_eq sized hoffset, Record.modifiers_eq hmodifiers]

theorem toJson_fits (d : Declaration) (levels : Nat) : Fits (levels + 3) d.toJson := by
  refine .object (List.forall_mem_cons.2 ⟨.string _, ?_⟩)
  have hlist : ∀ es : List Enumerator, Fits (levels + 2) (.array (es.map Enumerator.toJson)) :=
    fun es => .array (List.forall_mem_map.2 fun e _ => e.toJson_fits levels)
  cases d <;> simp [fields, Fits.string, Json.ofNat_fits, Json.ofOption_fits, Json.ofStrings_fits,
    hlist]

theorem ofTree?_spelling {d : Declaration} (sized : d.Sized) (levels : Nat) {w : Json}
    (spells : Spells d.toJson w) : ofTree? (levels + 3) w.tree = some d := by
  have hdistinct : "kind" ∉ d.fields.map (·.1) ∧ (d.fields.map (·.1)).Nodup := by
    cases d <;> simp [fields]
  obtain ⟨value, hvalue⟩ := (spells.fits (d.toJson_fits levels)).exists_ofTree?
  obtain ⟨rest, htag, hrest⟩ := Tree.tagged?_spelling spells hdistinct.1 hdistinct.2
  obtain ⟨r, hr, has⟩ := hrest (d.fields.map (·.1))
  have hfields := fieldsOfTree?_spelling sized hr fun f hf => has f hf (List.mem_map_of_mem hf)
  rw [ofTree?, hvalue, htag]
  exact hfields

end Declaration

namespace Dictionary

open Json (Spells Fits)

theorem form_fits (name : String) (ds : List Declaration) (levels : Nat) :
    Fits (levels + 5) (form name ds) := by
  have hlist : Fits (levels + 4) (.array (ds.map Declaration.toJson)) :=
    .array (List.forall_mem_map.2 fun d _ => d.toJson_fits levels)
  refine .object ?_
  simpa [Fits.string, hlist] using Fits.array (by simp)

theorem ofTree?_spelling {name : String} {ds : List Declaration} (sized : ∀ d ∈ ds, d.Sized)
    {w : Json} (spells : Spells (form name ds) w) : ofTree? w.tree = some ⟨name, ds, []⟩ := by
  obtain ⟨r, hr, has⟩ :=
    Record.ofTree?_spelling spells (by simp) ["name", "declarations", "symbols"]
  simp only [List.forall_mem_cons] at has
  obtain ⟨hname, hdeclarations, hsymbols, -⟩ := has
  have htext := Record.text_eq (hname (by simp)) (by simp [Json.omissible])
  have hlist : r.want "declarations" (Tree.list? (Declaration.ofTree? (nestingLimit - 2))) [] =
      some ds := by
    refine Record.want_eq (hdeclarations (by simp)) (fun hmem => ?_) fun w =>
      Tree.list?_spelling fun d hd w => Declaration.ofTree?_spelling (sized d hd) 122
    simpa [Json.omissible, eq_comm] using hmem
  have hnone : r.want "symbols" (Tree.list? (Symbol.ofTree? (nestingLimit - 2))) [] = some [] := by
    refine Record.want_eq (hsymbols (by simp)) (fun _ => rfl) fun w hw => ?_
    exact @Tree.list?_spelling Symbol _ (fun _ => .null) [] (by simp) w hw
  simp [ofTree?, hr, htext, hlist, hnone]

/-- However a dictionary is written, it is read as its name and its declarations. -/
theorem spellings_are_read (name : String) (ds : List Declaration) (sized : ∀ d ∈ ds, d.Sized)
    {v : Json} (spells : Spells (form name ds) v) : ofText? v.text = some ⟨name, ds, []⟩ := by
  rw [ofText?, Json.ofText?_text (spells.fits (form_fits name ds 0)), Option.bind_some]
  exact ofTree?_spelling sized spells

/-- An enum without a key over `int`, with the least value that an enumerator can have. -/
def shade : Declaration := .enum "a\n\"b" none "int" [⟨"Dark", Int64.minValue⟩]

/-- A way to write a dictionary of it: the tag stands last, and what can be left out is missing. -/
def shadeWritten : Json :=
  .object [("declarations", .array [.object [
      ("enumerators", .array [.object [("value", .number (.negative Int64.minValue)),
        ("name", .string "Dark")]]),
      ("name", .string "a\n\"b"), ("kind", .string "enum")]]), ("name", .string "d")]

theorem shade_is_read :
    (∀ d ∈ [shade], d.Sized) ∧ Spells (form "d" [shade]) shadeWritten ∧
      shadeWritten.text = "\x7b\"declarations\":[\x7b\"enumerators\":" ++
        "[\x7b\"value\":-9223372036854775808,\"name\":\"Dark\"\x7d]," ++
        "\"name\":\"a\\n\\\"b\",\"kind\":\"enum\"\x7d],\"name\":\"d\"\x7d" ∧
      ofText? shadeWritten.text = some ⟨"d", [shade], []⟩ := by
  have sized : ∀ d ∈ [shade], d.Sized := by simp [shade, Declaration.Sized]
  have hleast : Json.ofInt64 Int64.minValue = .number (.negative Int64.minValue) := rfl
  have hdark : Spells (Enumerator.mk "Dark" Int64.minValue).toJson
      (.object [("value", .number (.negative Int64.minValue)), ("name", .string "Dark")]) := by
    refine .object (fun k => if k = "name" then .string "Dark" else .ofInt64 Int64.minValue)
      (by simp) (by simp) ?_ (by simp)
    simp [hleast, Spells.number, Spells.string]
  have hshade : Spells shade.toJson (.object [
      ("enumerators", .array [.object [("value", .number (.negative Int64.minValue)),
        ("name", .string "Dark")]]),
      ("name", .string "a\n\"b"), ("kind", .string "enum")]) := by
    refine .object (fun k => if k = "name" then .string "a\n\"b"
      else if k = "kind" then .string "enum"
      else .array [(Enumerator.mk "Dark" Int64.minValue).toJson]) (by simp) ?_ ?_ ?_
    · simp [shade, Declaration.sort, Declaration.fields]
    · simp [Spells.string, Spells.array (.cons hdark .nil)]
    · simp [shade, Declaration.sort, Declaration.fields, Json.omissible, Json.ofOption]
  have spells : Spells (form "d" [shade]) shadeWritten := by
    refine .object (fun k => if k = "name" then .string "d" else .array [shade.toJson])
      (by simp) (by simp) ?_ (by simp [Json.omissible])
    simp [Spells.string, Spells.array (.cons hshade .nil)]
  exact ⟨sized, spells, by decide +kernel, spellings_are_read "d" [shade] sized spells⟩

end Dictionary

end TypeCatalog
