import TypeCatalog.Proofs.Decoding

/-!
# Printing bytes

Bytes may become a value before they are printed or while they are. The standard printer writes the
same text both ways: its formatters for fundamental types and pointers decode what they are given,
and the bytes of no other type become anything.
-/

namespace TypeCatalog

variable {e : Entry} {bytes : List UInt8}

namespace Value

@[simp]
theorem fromBytes_type (e : Entry) (bytes : List UInt8) : (fromBytes e bytes).type = e.handle := by
  cases h : e.decode? bytes with
  | none => rw [fromBytes_of_none h]; rfl
  | some scalar => rw [fromBytes_of_some h]; rfl

theorem scalarOf?_fromBytes (e : Entry) (bytes : List UInt8) :
    (fromBytes e bytes).scalarOf? e = (ofBytes e.handle bytes).scalarOf? e := by
  cases h : e.decode? bytes with
  | none => rw [fromBytes_of_none h]
  | some scalar => rw [fromBytes_of_some h]; exact h.symm

end Value

theorem Entry.decode?_of_kind (fundamental : e.kind ≠ .fundamental) (pointer : e.kind ≠ .pointer)
    (bytes : List UInt8) : e.decode? bytes = none := by
  unfold decode?
  split
  · cases hkind : e.kind <;>
      first | exact absurd hkind fundamental | exact absurd hkind pointer | rfl
  · rfl

namespace Formatter

/-- Writes the bytes of a type and what they become alike. -/
def Decodes (f : Formatter) (e : Entry) : Prop :=
  ∀ (c : Catalog) (bytes : List UInt8),
    f ⟨c, e, .ofBytes e.handle bytes⟩ = f ⟨c, e, .fromBytes e bytes⟩

theorem decodes_of_kind (f : Formatter) (fundamental : e.kind ≠ .fundamental)
    (pointer : e.kind ≠ .pointer) : f.Decodes e := by
  intro c bytes
  rw [Value.fromBytes_of_none (Entry.decode?_of_kind fundamental pointer bytes)]

theorem fundamental_decodes (e : Entry) : (total fundamental).Decodes e := by
  intro c bytes
  cases h : e.decode? bytes with
  | none => rw [Value.fromBytes_of_none h]
  | some scalar =>
    have hbytes : (Value.ofBytes e.handle bytes).scalarOf? e = some scalar := h
    have hvalue := (Value.scalarOf?_fromBytes e bytes).trans hbytes
    simp only [total, fundamental, hbytes, hvalue]

/-- A pointer's bytes that become anything become an address, and an address is written without a
fallback. -/
theorem pointer_decodes (kind : e.kind = .pointer) : (total pointer).Decodes e := by
  intro c bytes
  cases h : e.decode? bytes with
  | none => rw [Value.fromBytes_of_none h]
  | some scalar =>
    have hbytes : (Value.ofBytes e.handle bytes).scalarOf? e = some scalar := h
    have hvalue := (Value.scalarOf?_fromBytes e bytes).trans hbytes
    obtain ⟨address, rfl⟩ : ∃ address, scalar = .address address := by
      unfold Entry.decode? at h
      rw [kind] at h
      split at h
      · obtain ⟨address, -, rfl⟩ := Option.map_eq_some_iff.1 h
        exact ⟨address, rfl⟩
      · cases h
    simp only [total, pointer, hbytes, hvalue, Option.bind_some, Scalar.toUInt64?]

end Formatter

namespace Printer

theorem print_congr {p : Printer} {c : Catalog} {v w : Value} (type : v.type = w.type)
    (h : ∀ e, c.types.get? v.type = some e → p.printAs c e v = p.printAs c e w) :
    p.print c v = p.print c w := by
  unfold print
  rw [← type]
  cases hget : c.types.get? v.type with
  | none => rfl
  | some e => simp only [h e hget]

theorem standard_decodes (e : Entry) : (standard.formatter e).Decodes e := by
  by_cases hfundamental : e.kind = .fundamental
  case pos =>
    have hformatter : standard.formatter e = .total Formatter.fundamental := by
      rw [formatter, hfundamental]
      rfl
    rw [hformatter]
    exact Formatter.fundamental_decodes e
  case neg =>
    by_cases hpointer : e.kind = .pointer
    case pos =>
      have hformatter : standard.formatter e = .total Formatter.pointer := by
        rw [formatter, hpointer]
        rfl
      rw [hformatter]
      exact Formatter.pointer_decodes hpointer
    case neg => exact Formatter.decodes_of_kind _ hfundamental hpointer

end Printer

namespace Hub

/-- Bytes of a registered type print like the value they become, whatever their number. -/
theorem bytes_print_as_decoded {hub : Hub} (reach : hub.Reachable) {h : Handle} {e : Entry}
    (registered : hub.catalog.types.get? h = some e) (bytes : List UInt8) :
    Printer.standard.print hub.catalog (.ofBytes h bytes) =
      Printer.standard.print hub.catalog (.fromBytes e bytes) := by
  obtain rfl := reach.wellFormed.types.handle registered
  refine Printer.print_congr (Value.fromBytes_type e bytes).symm fun found hfound => ?_
  obtain rfl : e = found := Option.some.inj (registered.symm.trans hfound)
  exact Printer.standard_decodes e _ bytes

def shortType : Entry := ⟨⟨0⟩, .named "short", .fundamental, 2, "short"⟩

def shortOnly : Hub :=
  (ofSettings Settings.default.catalog).run [.buildFundamental "short" 2]

theorem short_prints_from_bytes :
    shortOnly.catalog.types.get? ⟨0⟩ = some shortType ∧
      Value.fromBytes shortType [0xfe, 0xff] = .ofScalar ⟨0⟩ (.signed (-2)) ∧
      Printer.standard.print shortOnly.catalog (.ofBytes ⟨0⟩ [0xfe, 0xff]) = "(short) -2" := by
  have reach : shortOnly.Reachable := ⟨_, _, rfl⟩
  have registered : shortOnly.catalog.types.get? ⟨0⟩ = some shortType := by decide +kernel
  refine ⟨registered, by decide +kernel, ?_⟩
  rw [bytes_print_as_decoded reach registered]
  decide +kernel

end Hub

end TypeCatalog
