import Mathlib.Algebra.Ring.Nat
import TypeCatalog.Proofs.CanonicalEnums

/-!
# Enums from bytes

The bytes of an enum are an integer, in the way its underlying type says. Which way that is follows
from the simple name of the type for everyone but the decoder, which goes by the whole name. So an
enum prints from bytes as it does from the integer if and only if the name of its underlying type is
not qualified.
-/

namespace TypeCatalog

/-! ## Integers from bytes -/

namespace Bytes

theorem toNat_lt (bytes : List UInt8) : toNat bytes < 256 ^ bytes.length := by
  induction bytes with
  | nil => decide
  | cons b rest ih =>
    have hb := b.toNat_lt
    rw [toNat, List.length_cons, Nat.pow_succ]
    omega

/-- The number in which the weight of the top bit is negative. -/
def twosComplement (bytes : List UInt8) : Int :=
  if 2 * toNat bytes < 256 ^ bytes.length then toNat bytes
  else (toNat bytes : Int) - (256 ^ bytes.length : Nat)

theorem bmod_toNat (bytes : List UInt8) :
    Int.bmod (toNat bytes) (Nat.pow 256 bytes.length) = twosComplement bytes := by
  have hlt := toNat_lt bytes
  show Int.bmod (toNat bytes) (256 ^ bytes.length) = twosComplement bytes
  unfold twosComplement
  generalize 256 ^ bytes.length = m at hlt ⊢
  have hmod : (toNat bytes : Int) % m = toNat bytes := Int.emod_eq_of_lt (by omega) (by omega)
  rw [Int.bmod_def, hmod]
  split <;> split <;> omega

variable {bytes : List UInt8} {v : Int64}

theorem signed?_eq (word : isWord bytes) (hv : twosComplement bytes = v.toInt) :
    signed? bytes = some v := by
  rw [signed?, if_pos word, bmod_toNat, hv, Int64.ofInt_toInt]

theorem unsigned?_eq (word : isWord bytes) (hv : (toNat bytes : Int) = v.toInt) :
    (unsigned? bytes).bind (fun n => (Scalar.unsigned n).toInt64?) = some v := by
  have hlt : toNat bytes < 2 ^ 63 := by
    have := v.toInt_lt
    omega
  have hword : (UInt64.ofNat (toNat bytes)).toNat = toNat bytes :=
    UInt64.toNat_ofNat_of_lt' (by rw [UInt64.size]; omega)
  have hsigned : Int64.ofNat (toNat bytes) = v := by
    rw [← Int64.toInt_inj, Int64.toInt_ofNat_of_lt hlt, hv]
  rw [unsigned?, if_pos word, Option.bind_some, Scalar.toInt64?, hword, if_pos (by omega), hsigned]

theorem toNat_eq_zero_iff : toNat bytes = 0 ↔ bytes.any (· ≠ 0) = false := by
  induction bytes with
  | nil => decide
  | cons b rest ih =>
    have hzero : b.toNat = 0 ↔ b = 0 := by rw [← UInt8.toNat_inj, UInt8.toNat_zero]
    rw [toNat, List.any_cons, Bool.or_eq_false_iff, ← ih, decide_eq_false_iff_not, not_not, ← hzero]
    omega

theorem bool_eq (hv : (if toNat bytes = 0 then 0 else 1) = v.toInt) :
    (Scalar.bool (bytes.any (· ≠ 0))).toInt64? = some v := by
  cases hany : bytes.any (· ≠ 0) with
  | false =>
    rw [if_pos (toNat_eq_zero_iff.2 hany)] at hv
    obtain rfl : 0 = v := Int64.toInt_inj.1 hv
    rfl
  | true =>
    have hne : toNat bytes ≠ 0 := fun hzero => by
      rw [toNat_eq_zero_iff, hany] at hzero
      cases hzero
    rw [if_neg hne] at hv
    obtain rfl : 1 = v := Int64.toInt_inj.1 hv
    rfl

end Bytes

/-! ## What the underlying type prescribes -/

/-- The integer that bytes of an integral type stand for, as the class of its simple name says: one
of two for `bool`, and else a number without or with a sign. -/
def Entry.reading? (u : Entry) (bytes : List UInt8) : Option Int :=
  match FundamentalClass.ofName? u.simpleName with
  | some .bool => some (if Bytes.toNat bytes = 0 then 0 else 1)
  | some .character =>
    some (if FundamentalClass.isUnsignedCharacter u.simpleName then Bytes.toNat bytes
      else Bytes.twosComplement bytes)
  | some .signed => some (Bytes.twosComplement bytes)
  | some .unsigned => some (Bytes.toNat bytes)
  | some .void | some .floating | none => none

theorem FundamentalClass.simple_eq {name : String} {cls : FundamentalClass}
    (h : ofName? name = some cls) : Name.simple name = name := by
  have hplain : ∀ n ∈ voidNames ++ boolNames ++ characterNames ++ signedNames ++ unsignedNames ++
      floatingNames, Name.simple n = n := by decide +kernel
  refine hplain name ?_
  simp only [List.mem_append]
  unfold ofName? at h
  grind

namespace Entry

variable {u : Entry} {bytes : List UInt8}

theorem decode?_qualified (kind : u.kind = .fundamental) (qualified : u.simpleName ≠ u.name) :
    u.decode? bytes = none := by
  have hclass : FundamentalClass.ofName? u.name = none := by
    rw [Option.eq_none_iff_forall_ne_some]
    exact fun cls h => qualified (FundamentalClass.simple_eq h)
  unfold decode?
  split
  · simp only [kind, hclass, Option.bind_none]
  · rfl

theorem decode?_plain (kind : u.kind = .fundamental) (plain : u.simpleName = u.name)
    (width : bytes.length = u.size) (word : Bytes.isWord bytes) {v : Int64}
    (hv : u.reading? bytes = some v.toInt) : (u.decode? bytes).bind (·.toInt64?) = some v := by
  unfold reading? at hv
  rw [plain] at hv
  simp only [decode?, if_pos width, kind]
  cases hclass : FundamentalClass.ofName? u.name with
  | none => simp [hclass] at hv
  | some cls =>
    simp only [hclass] at hv
    rw [Option.bind_some]
    cases cls with
    | void | floating => cases hv
    | bool => exact Bytes.bool_eq (Option.some.inj hv)
    | character =>
      simp only [FundamentalClass.decode?]
      split
      · next hunsigned =>
        rw [if_pos hunsigned] at hv
        rw [Option.bind_map]
        exact Bytes.unsigned?_eq word (Option.some.inj hv)
      · next hsigned =>
        rw [if_neg hsigned] at hv
        rw [Bytes.signed?_eq word (Option.some.inj hv)]
        rfl
    | signed =>
      rw [FundamentalClass.decode?, Bytes.signed?_eq word (Option.some.inj hv)]
      rfl
    | unsigned =>
      rw [FundamentalClass.decode?, Option.bind_map]
      exact Bytes.unsigned?_eq word (Option.some.inj hv)

end Entry

/-! ## What is printed -/

/-- The text of a value of an enum: its type, the first enumerator that has the value, if any, and
the value as one of the underlying type. -/
def Catalog.enumText (c : Catalog) (en : Enumeration) (u : Entry) (v : Int64) : String :=
  "(" ++ en.type.name ++ ") " ++
    ((c.enumerators en).find? (·.value = v)).elim "" (fun first => "(" ++ first.name ++ ") : ") ++
      "(" ++ u.name ++ ") " ++ toString v.toInt

namespace Printer

variable {c : Catalog} {en : Enumeration} {u : Entry}

theorem print_enum (hen : c.enumeration? en.type.handle = some en) (payload : Payload) :
    standard.print c ⟨en.type.handle, payload⟩ =
      Formatter.enumeration ⟨c, en.type, ⟨en.type.handle, payload⟩⟩ := by
  obtain ⟨htype, hkind, -, -⟩ := Catalog.enumeration?_eq_some_iff.1 hen
  have hformatter : standard.formatter en.type = .total Formatter.enumeration := by
    rw [formatter, hkind]
    rfl
  unfold print printAs
  simp only [htype, hformatter, Formatter.total]
  rfl

theorem print_enum_integer (hen : c.enumeration? en.type.handle = some en)
    (hu : c.types.get? en.underlying = some u) {payload : Payload} {v : Int64}
    (hv : Formatter.enumInteger? ⟨c, en.type, ⟨en.type.handle, payload⟩⟩ (some u) = some v) :
    standard.print c ⟨en.type.handle, payload⟩ = c.enumText en u v := by
  rw [print_enum hen]
  simp only [Formatter.enumeration, hen, hu, hv, Option.elim, Catalog.enumText]
  cases (c.enumerators en).find? (·.value = v) <;> rfl

theorem print_enum_fallback (hen : c.enumeration? en.type.handle = some en)
    (hu : c.types.get? en.underlying = some u) {payload : Payload}
    (hnone : Formatter.enumInteger? ⟨c, en.type, ⟨en.type.handle, payload⟩⟩ (some u) = none) :
    standard.print c ⟨en.type.handle, payload⟩ =
      Formatter.fallback ⟨c, en.type, ⟨en.type.handle, payload⟩⟩ := by
  rw [print_enum hen]
  simp only [Formatter.enumeration, hen, hu, hnone]

/-- Text in front of a name moves the mark behind the name. -/
theorem mark_moves {front name rest rest' : List Char} {mark : Char} (hfront : front ≠ [])
    (hmark : mark ∉ front) : name ++ mark :: rest ≠ front ++ (name ++ mark :: rest') := by
  induction hlength : name.length using Nat.strongRecOn generalizing name with
  | ind n ih =>
    intro hsame
    rcases List.append_eq_append_iff.1 hsame with ⟨behind, hbehind, hrest⟩ | ⟨name', rfl, hrest⟩
    · -- The mark on the left falls into the text in front, or right behind it.
      cases behind with
      | nil =>
        rw [List.append_nil] at hbehind
        rw [← hbehind] at hrest
        cases front with
        | nil => exact hfront rfl
        | cons f front =>
          obtain ⟨rfl, -⟩ := List.cons.inj hrest
          exact hmark List.mem_cons_self
      | cons b behind =>
        obtain ⟨rfl, -⟩ := List.cons.inj hrest
        exact hmark (by simp [hbehind])
    · -- The name begins with the text in front: go on behind it.
      have hshorter : name'.length < n := by
        have := List.length_pos_of_ne_nil hfront
        rw [← hlength, List.length_append]
        omega
      refine ih name'.length hshorter rfl ?_
      rw [← List.append_assoc]
      exact hrest.symm

theorem fallback_ne_enumText (kind : en.type.kind = .enum) (payload : Payload) (v : Int64) :
    Formatter.fallback ⟨c, en.type, ⟨en.type.handle, payload⟩⟩ ≠ c.enumText en u v := by
  intro hsame
  have hparen : "(".toList = ['('] := by decide
  have hmark : ") ".toList = [')', ' '] := by decide
  have hfront : "(".toList ++ "enum".toList ++ " ".toList = '(' :: "enum ".toList := by decide
  have hlists := congrArg String.toList hsame
  simp only [Formatter.fallback, Catalog.enumText, kind, TypeKind.text, String.toList_append,
    hmark] at hlists
  rw [hfront, hparen] at hlists
  simp only [List.append_assoc, List.cons_append, List.nil_append] at hlists
  exact mark_moves (by decide) (by decide) (List.cons.inj hlists).2.symm

end Printer

namespace Hub

/-- An enum prints from bytes as it does from the integer that its underlying type makes of them, if
and only if the name of that type is not qualified. -/
theorem bytes_print_as_integer_iff {hub : Hub} (reach : hub.Reachable) {h : Handle}
    {en : Enumeration} (hen : hub.catalog.enumeration? h = some en) {u : Entry}
    (hu : hub.catalog.types.get? en.underlying = some u) {bytes : List UInt8}
    (width : bytes.length = u.size) (positive : 1 ≤ u.size) (word : u.size ≤ 8) {v : Int64}
    (hv : u.reading? bytes = some v.toInt) :
    Printer.standard.print hub.catalog (.ofScalar h (.signed v)) =
        hub.catalog.enumText en u v ∧
      (Printer.standard.print hub.catalog (.ofBytes h bytes) =
        Printer.standard.print hub.catalog (.ofScalar h (.signed v)) ↔ u.simpleName = u.name) := by
  obtain ⟨htype, hkind, -, hunder⟩ := Catalog.enumeration?_eq_some_iff.1 hen
  obtain rfl := reach.wellFormed.types.handle htype
  have hfundamental : u.kind = .fundamental := by
    obtain ⟨e, base, -, hbase, hunderlies⟩ := reach.underlain hunder
    obtain rfl : base = u := Option.some.inj (hbase.symm.trans hu)
    exact hunderlies.fundamental
  have hword : Bytes.isWord bytes := by
    simp only [Bytes.isWord, width, Bool.and_eq_true, decide_eq_true_eq]
    omega
  have hinteger : Printer.standard.print hub.catalog (.ofScalar en.type.handle (.signed v)) =
      hub.catalog.enumText en u v := Printer.print_enum_integer hen hu rfl
  refine ⟨hinteger, ?_⟩
  rw [hinteger]
  constructor
  · intro hsame
    by_contra hqualified
    have hnone : Formatter.enumInteger? ⟨hub.catalog, en.type, .ofBytes en.type.handle bytes⟩
        (some u) = none := by
      simp only [Formatter.enumInteger?, Value.ofBytes, Option.bind_some,
        Entry.decode?_qualified hfundamental hqualified, Option.bind_none]
    have hfallback := (Printer.print_enum_fallback hen hu hnone).symm.trans hsame
    exact Printer.fallback_ne_enumText hkind _ v hfallback
  · intro hplain
    exact Printer.print_enum_integer hen hu
      (Entry.decode?_plain hfundamental hplain width hword hv)

def byteType : Entry := ⟨⟨0⟩, .named "unsigned char", .fundamental, 1, "unsigned char"⟩

/-- An enum over a type without a sign. -/
def level : Enumeration := ⟨⟨⟨1⟩, .mangled "5Level", .enum, 1, "Level"⟩, ⟨1⟩, ⟨0⟩⟩

def leveled : Hub :=
  (ofSettings Settings.default.catalog).run
    [.buildFundamental "unsigned char" 1,
      .buildEnum .global "Level" (.mangled "5Level") "unsigned char",
      .addEnumerator level "High" 200]

theorem high_prints_from_byte :
    leveled.catalog.enumeration? ⟨1⟩ = some level ∧ byteType.reading? [200] = some 200 ∧
      Printer.standard.print leveled.catalog (.ofScalar ⟨1⟩ (.signed 200)) =
        "(Level) (High) : (unsigned char) 200" ∧
      Printer.standard.print leveled.catalog (.ofBytes ⟨1⟩ [200]) =
        "(Level) (High) : (unsigned char) 200" := by
  have reach : leveled.Reachable := ⟨_, _, rfl⟩
  have hen : leveled.catalog.enumeration? ⟨1⟩ = some level := by decide +kernel
  have hu : leveled.catalog.types.get? level.underlying = some byteType := by decide +kernel
  have width : [(200 : UInt8)].length = byteType.size := rfl
  have hread : byteType.reading? [200] = some (200 : Int64).toInt := by decide +kernel
  have htext : leveled.catalog.enumText level byteType 200 =
      "(Level) (High) : (unsigned char) 200" := by decide +kernel
  obtain ⟨hinteger, hbytes⟩ :=
    bytes_print_as_integer_iff reach hen hu width (by decide) (by decide) hread
  exact ⟨hen, hread, hinteger.trans htext, (hbytes.2 (by decide +kernel)).trans
    (hinteger.trans htext)⟩

/-- An enum over a type that is called `int` in a namespace. -/
def quantity : Enumeration := ⟨⟨⟨1⟩, .named "E", .enum, 4, "E"⟩, ⟨1⟩, ⟨0⟩⟩

def namespacedInt : Entry := ⟨⟨0⟩, .named "ns::int", .fundamental, 4, "ns::int"⟩

def namespaced : Hub :=
  (ofSettings Settings.default.catalog).run
    [.buildFundamental "ns::int" 4, .buildEnum .global "E" (.named "E") "ns::int",
      .addEnumerator quantity "One" 1]

/-- It is taken for an integer when the enum is built, and its bytes are not when they are read. -/
theorem qualified_enum_bytes_unread :
    namespaced.Reachable ∧ namespaced.catalog.enumeration? ⟨1⟩ = some quantity ∧
      namespaced.catalog.types.get? ⟨0⟩ = some namespacedInt ∧
      namespacedInt.reading? [1, 0, 0, 0] = some 1 ∧
      Printer.standard.print namespaced.catalog (.ofScalar ⟨1⟩ (.signed 1)) =
        "(E) (One) : (ns::int) 1" ∧
      Printer.standard.print namespaced.catalog (.ofBytes ⟨1⟩ [1, 0, 0, 0]) =
        "(enum E) [4 bytes] 01 00 00 00" := by
  refine ⟨⟨_, _, rfl⟩, ?_⟩
  decide +kernel

end Hub

end TypeCatalog
