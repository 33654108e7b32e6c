import Mathlib.Algebra.Ring.Int.Defs
import TypeCatalog.Dictionary.Definition
import TypeCatalog.Proofs.Reloading

/-!
# Defining symbols

A symbol is defined if its value has the form that its type takes: an integer, a string of one
character, a list of bytes. The form is all that counts. How many bytes the type has is not held
against the value, so an integer may be too large for its type, and a list of bytes too long.
-/

namespace TypeCatalog

/-! ## Integers and their widths -/

/-- The integer that a value of a document is, if it is one. -/
def Json.integer? : Json → Option Int
  | .number (.natural n) => some n.toNat
  | .number (.negative i) => some i.toInt
  | _ => none

/-- A byte as a document has it. -/
def Json.ofByte (b : UInt8) : Json := .number (.natural b.toUInt64)

def Scalar.integer? : Scalar → Option Int
  | .signed i => some i.toInt
  | .unsigned n => some n.toNat
  | .bool _ | .single _ | .double _ | .address _ => none

/-- The integer is one of those of `size` bytes. -/
def Bytes.Fits (size : Nat) (signed : Bool) (z : Int) : Prop :=
  if signed then -256 ^ size ≤ 2 * z ∧ 2 * z < 256 ^ size else 0 ≤ z ∧ z < 256 ^ size

instance (size : Nat) (signed : Bool) (z : Int) : Decidable (Bytes.Fits size signed z) :=
  inferInstanceAs (Decidable (if signed then _ else _))

namespace Entry

/-- A fundamental type of a class. -/
def IsOf (e : Entry) (cls : FundamentalClass) : Prop :=
  e.kind = .fundamental ∧ FundamentalClass.ofName? e.simpleName = some cls

instance (e : Entry) (cls : FundamentalClass) : Decidable (e.IsOf cls) :=
  inferInstanceAs (Decidable (_ ∧ _))

/-- A type whose values are kept as their bytes. -/
def IsRaw (e : Entry) : Prop := e.kind ≠ .fundamental ∧ e.kind ≠ .enum ∧ e.kind ≠ .pointer

instance (e : Entry) : Decidable e.IsRaw := inferInstanceAs (Decidable (_ ∧ _ ∧ _))

/-- Whether integers of the type have a sign. -/
def isSigned (e : Entry) : Bool :=
  match FundamentalClass.ofName? e.simpleName with
  | some .signed => true
  | some .character => !FundamentalClass.isUnsignedCharacter e.simpleName
  | _ => false

/-- The integer can be told in the bytes of the type. -/
def Holds (e : Entry) (z : Int) : Prop := Bytes.Fits e.size e.isSigned z

instance (e : Entry) (z : Int) : Decidable (e.Holds z) :=
  inferInstanceAs (Decidable (Bytes.Fits _ _ _))

end Entry

namespace Symbol

/-! ## What a type takes -/

variable {c : Catalog} {e : Entry} {v : Json}

/-- A type takes a value of a document, as this data. -/
inductive Takes (c : Catalog) (e : Entry) (v : Json) : Payload → Prop
  /-- There is only one value of such a type, whatever the document says. -/
  | void (type : e.IsOf .void) : Takes c e v (.storage [])
  | bool {b : Bool} (type : e.IsOf .bool) (value : v = .bool b) : Takes c e v (.inline (.bool b))
  | integer {i : Int64} (type : e.IsOf .character ∨ e.IsOf .signed ∨ e.kind = .enum)
      (value : v.integer? = some i.toInt) : Takes c e v (.inline (.signed i))
  | character {a : Char} (type : e.IsOf .character) (value : v = .string (String.singleton a)) :
      Takes c e v (.inline (.signed (Int64.ofNat a.toNat)))
  | natural {n : UInt64} (type : e.IsOf .unsigned) (value : v = .number (.natural n)) :
      Takes c e v (.inline (.unsigned n))
  | single {n : Number} (type : e.IsOf .floating) (size : e.size = 4) (value : v = .number n) :
      Takes c e v (.inline (.single n.toDouble.toSingle))
  | double {n : Number} (type : e.IsOf .floating) (size : e.size ≠ 4) (value : v = .number n) :
      Takes c e v (.inline (.double n.toDouble))
  | enumerator {name : String} {en : Enumeration} {first : Enumerator} (type : e.kind = .enum)
      (value : v = .string name) (enumeration : c.enumeration? e.handle = some en)
      (named : (c.enumerators en).find? (·.name = name) = some first) :
      Takes c e v (.inline (.signed first.value))
  | null (type : e.kind = .pointer) (value : v = .null) : Takes c e v (.inline (.address 0))
  | address {n : UInt64} (type : e.kind = .pointer) (value : v = .number (.natural n)) :
      Takes c e v (.inline (.address n))
  | bytes {bs : List UInt8} (type : e.IsRaw) (value : v = .array (bs.map .ofByte)) :
      Takes c e v (.storage bs)

theorem int64?_eq_some_iff {i : Int64} : v.int64? = some i ↔ v.integer? = some i.toInt := by
  unfold Json.int64? Json.integer?
  cases v with
  | number n =>
    cases n with
    | natural n =>
      simp only [Number.toInt64?, Option.ite_none_right_eq_some, Option.some.injEq]
      constructor
      · rintro ⟨hlt, rfl⟩
        rw [Int64.toInt_ofNat_of_lt hlt]
      · intro h
        have hlt := i.toInt_lt
        have hn : n.toNat < 2 ^ 63 := by omega
        refine ⟨hn, ?_⟩
        rw [← Int64.toInt_inj, Int64.toInt_ofNat_of_lt hn, h]
    | negative j => simp [Number.toInt64?, Int64.toInt_inj]
    | floating x => simp [Number.toInt64?]
  | null | bool | string | array | object => simp

theorem uint64?_eq_some_iff {n : UInt64} : v.uint64? = some n ↔ v = .number (.natural n) := by
  unfold Json.uint64?
  split
  · next m => cases m <;> simp [Number.toUInt64?]
  · next hnumber => simpa using fun h => hnumber _ h

theorem double?_eq_some_iff {x : Double} :
    v.double? = some x ↔ ∃ n, v = .number n ∧ x = n.toDouble := by
  unfold Json.double?
  split
  · simp [eq_comm]
  · next hnumber => simpa using fun n h => absurd h (hnumber n)

theorem string?_eq_some_iff {s : String} : v.string? = some s ↔ v = .string s := by
  unfold Json.string?
  split
  · simp
  · next hstring => simpa using hstring s

theorem bool?_eq_some_iff {b : Bool} : v.bool? = some b ↔ v = .bool b := by
  unfold Json.bool?
  split
  · simp
  · next hbool => simpa using hbool b

theorem array?_eq_some_iff {items : List Json} : v.array? = some items ↔ v = .array items := by
  unfold Json.array?
  split
  · simp
  · next harray => simpa using harray items

theorem mapM_eq_some_iff {α β : Type} {read : α → Option β} {write : β → α}
    (one : ∀ a b, read a = some b ↔ a = write b) {as : List α} {bs : List β} :
    as.mapM read = some bs ↔ as = bs.map write := by
  induction as generalizing bs with
  | nil => cases bs <;> simp
  | cons a rest ih =>
    simp only [List.mapM_cons, Option.bind_eq_bind, Option.pure_def, Option.bind_eq_some_iff, one,
      ih, Option.some.injEq]
    cases bs with
    | nil => simp
    | cons b bs => simp [eq_comm]

theorem character?_eq_some_iff {i : Int64} : character? v = some i ↔
    ∃ a, v = .string (String.singleton a) ∧ i = Int64.ofNat a.toNat := by
  unfold character?
  constructor
  · intro h
    split at h
    · next a hlist =>
      obtain ⟨s, hs, hone⟩ := Option.map_eq_some_iff.1 hlist
      refine ⟨a, ?_, (Option.some.inj h).symm⟩
      rw [string?_eq_some_iff.1 hs, Json.string.injEq, ← String.toList_inj, hone,
        String.toList_singleton]
    · cases h
  · rintro ⟨a, rfl, rfl⟩
    simp [Json.string?]

theorem enumerator?_eq_some_iff {i : Int64} : enumerator? c e v = some i ↔
    ∃ name en first, v = .string name ∧ c.enumeration? e.handle = some en ∧
      (c.enumerators en).find? (·.name = name) = some first ∧ i = first.value := by
  simp only [enumerator?, Option.bind_eq_bind, Option.bind_eq_some_iff, string?_eq_some_iff,
    Option.pure_def, Option.some.injEq]
  constructor
  · rintro ⟨name, hv, en, hen, first, hfirst, rfl⟩
    exact ⟨name, en, first, hv, hen, hfirst, rfl⟩
  · rintro ⟨name, en, first, hv, hen, hfirst, rfl⟩
    exact ⟨name, hv, en, hen, first, hfirst, rfl⟩

theorem byte?_eq_some_iff {item : Json} {b : UInt8} :
    (item.uint64?.bind fun n => if n.toNat < 256 then some (UInt8.ofNat n.toNat) else none) =
      some b ↔ item = .ofByte b := by
  simp only [Option.bind_eq_some_iff, Option.ite_none_right_eq_some, uint64?_eq_some_iff,
    Option.some.injEq]
  constructor
  · rintro ⟨n, rfl, hlt, rfl⟩
    rw [Json.ofByte, Json.number.injEq, Number.natural.injEq, ← UInt64.toNat_inj,
      UInt8.toNat_toUInt64, UInt8.toNat_ofNat_of_lt' hlt]
  · rintro rfl
    refine ⟨b.toUInt64, rfl, ?_, ?_⟩
    · rw [UInt8.toNat_toUInt64]
      exact b.toNat_lt
    · rw [UInt8.toNat_toUInt64, UInt8.ofNat_toNat]

theorem bytes?_eq_some_iff {bs : List UInt8} :
    bytes? v = some bs ↔ v = .array (bs.map .ofByte) := by
  simp only [bytes?, Option.bind_eq_bind, Option.bind_eq_some_iff, array?_eq_some_iff,
    mapM_eq_some_iff fun _ _ => byte?_eq_some_iff]
  constructor
  · rintro ⟨_, hv, rfl⟩
    exact hv
  · intro hv
    exact ⟨_, hv, rfl⟩

theorem int64?_string (s : String) : (Json.string s).int64? = none := rfl

theorem Takes.of_fundamental {p : Payload} {cls : FundamentalClass} (type : e.IsOf cls)
    (h : fundamental? e v cls = some p) : Takes c e v p := by
  cases cls with
  | void =>
    obtain rfl := Option.some.inj h
    exact .void type
  | bool =>
    obtain ⟨b, hb, rfl⟩ := Option.map_eq_some_iff.1 h
    exact .bool type (bool?_eq_some_iff.1 hb)
  | character =>
    obtain ⟨i, hi, rfl⟩ := Option.map_eq_some_iff.1 h
    rcases Option.or_eq_some_iff.1 hi with hint | ⟨-, hchar⟩
    · exact .integer (.inl type) (int64?_eq_some_iff.1 hint)
    · obtain ⟨a, hv, rfl⟩ := character?_eq_some_iff.1 hchar
      exact .character type hv
  | signed =>
    obtain ⟨i, hi, rfl⟩ := Option.map_eq_some_iff.1 h
    exact .integer (.inr (.inl type)) (int64?_eq_some_iff.1 hi)
  | unsigned =>
    obtain ⟨n, hn, rfl⟩ := Option.map_eq_some_iff.1 h
    exact .natural type (uint64?_eq_some_iff.1 hn)
  | floating =>
    obtain ⟨x, hx, rfl⟩ := Option.map_eq_some_iff.1 h
    obtain ⟨n, hv, rfl⟩ := double?_eq_some_iff.1 hx
    split
    · next hsize => exact .single type hsize hv
    · next hsize => exact .double type hsize hv

theorem Takes.of_payload? {p : Payload} (h : payload? c e v = some p) : Takes c e v p := by
  unfold payload? at h
  split at h
  · next hkind =>
    obtain ⟨cls, hcls, hp⟩ := Option.bind_eq_some_iff.1 h
    exact .of_fundamental ⟨hkind, hcls⟩ hp
  · next hkind =>
    obtain ⟨i, hi, rfl⟩ := Option.map_eq_some_iff.1 h
    rcases Option.or_eq_some_iff.1 hi with hint | ⟨-, hname⟩
    · exact .integer (.inr (.inr hkind)) (int64?_eq_some_iff.1 hint)
    · obtain ⟨name, en, first, hv, hen, hfirst, rfl⟩ := enumerator?_eq_some_iff.1 hname
      exact .enumerator hkind hv hen hfirst
  · next hkind =>
    obtain ⟨n, hn, rfl⟩ := Option.map_eq_some_iff.1 h
    split at hn
    · next hnull =>
      obtain rfl := Option.some.inj hn
      cases v with
      | null => exact .null hkind rfl
      | bool | number | string | array | object => cases hnull
    · exact .address hkind (uint64?_eq_some_iff.1 hn)
  · next hfundamental henum hpointer =>
    obtain ⟨bs, hbs, rfl⟩ := Option.map_eq_some_iff.1 h
    exact .bytes ⟨hfundamental, henum, hpointer⟩ (bytes?_eq_some_iff.1 hbs)

theorem payload?_of_isOf {cls : FundamentalClass} (type : e.IsOf cls) :
    payload? c e v = fundamental? e v cls := by
  simp only [payload?, type.1, type.2, Option.bind_some]

theorem payload?_of_isRaw (type : e.IsRaw) : payload? c e v = (bytes? v).map .storage := by
  obtain ⟨hfundamental, henum, hpointer⟩ := type
  unfold payload?
  split
  · next hkind => exact absurd hkind hfundamental
  · next hkind => exact absurd hkind henum
  · next hkind => exact absurd hkind hpointer
  · rfl

theorem Takes.payload?_eq {p : Payload} (takes : Takes c e v p) : payload? c e v = some p := by
  cases takes with
  | void type => rw [payload?_of_isOf type, fundamental?]
  | bool type value => rw [payload?_of_isOf type, fundamental?, value, Json.bool?, Option.map_some]
  | integer type value =>
    have hint := int64?_eq_some_iff.2 value
    rcases type with type | type | type
    · rw [payload?_of_isOf type, fundamental?, hint, Option.some_or, Option.map_some]
    · rw [payload?_of_isOf type, fundamental?, hint, Option.map_some]
    · simp only [payload?, type, hint, Option.some_or, Option.map_some]
  | character type value =>
    rw [payload?_of_isOf type, fundamental?, character?_eq_some_iff.2 ⟨_, value, rfl⟩, value,
      int64?_string, Option.none_or, Option.map_some]
  | natural type value =>
    rw [payload?_of_isOf type, fundamental?, uint64?_eq_some_iff.2 value, Option.map_some]
  | single type size value =>
    rw [payload?_of_isOf type, fundamental?, double?_eq_some_iff.2 ⟨_, value, rfl⟩,
      Option.map_some, if_pos size]
  | double type size value =>
    rw [payload?_of_isOf type, fundamental?, double?_eq_some_iff.2 ⟨_, value, rfl⟩,
      Option.map_some, if_neg size]
  | enumerator type value enumeration named =>
    subst value
    have hname := enumerator?_eq_some_iff.2 ⟨_, _, _, rfl, enumeration, named, rfl⟩
    simp only [payload?, type, hname, int64?_string, Option.none_or, Option.map_some]
  | null type value =>
    simp only [payload?, type, value, Json.isNull, if_true, Option.map_some]
  | address type value =>
    simp only [payload?, type, value, Json.isNull, Bool.false_eq_true, if_false,
      uint64?_eq_some_iff.2 rfl, Option.map_some]
  | bytes type value =>
    rw [payload?_of_isRaw type, bytes?_eq_some_iff.2 value, Option.map_some]

theorem payload?_eq_some_iff {p : Payload} : payload? c e v = some p ↔ Takes c e v p :=
  ⟨.of_payload?, Takes.payload?_eq⟩

/-! ## What becomes of a symbol -/

/-- The value that a symbol has. -/
def Means (c : Catalog) (s : Symbol) (x : Value) : Prop :=
  ∃ e p, c.types.lookupName? s.type = some e ∧ Takes c e s.value p ∧ x = ⟨e.handle, p⟩

/-- Why a symbol has no value. -/
inductive Refused (c : Catalog) (s : Symbol) : Fault → Prop
  | unknown (type : c.types.lookupName? s.type = none) : Refused c s (.unknownType s.type)
  | misfit {e : Entry} (type : c.types.lookupName? s.type = some e)
      (value : ∀ p, ¬Takes c e s.value p) :
      Refused c s (.dictionary ("value " ++ s.value.text ++ " of symbol '" ++ s.name ++
        "' does not fit type '" ++ e.name ++ "'"))

variable {s : Symbol}

theorem decode_eq_ok_iff {x : Value} : s.decode c = .ok x ↔ s.Means c x := by
  unfold decode
  constructor
  · intro h
    split at h
    · cases h
    · next e htype =>
      split at h
      · next p hp =>
        obtain rfl := Except.ok.inj h
        exact ⟨e, p, htype, payload?_eq_some_iff.1 hp, rfl⟩
      · cases h
  · rintro ⟨e, p, htype, htakes, rfl⟩
    simp only [htype, htakes.payload?_eq]

theorem Means.unique {x y : Value} (hx : s.Means c x) (hy : s.Means c y) : x = y :=
  Except.ok.inj ((decode_eq_ok_iff.2 hx).symm.trans (decode_eq_ok_iff.2 hy))

theorem decode_eq_error_iff {fault : Fault} : s.decode c = .error fault ↔ s.Refused c fault := by
  unfold decode
  constructor
  · intro h
    split at h
    · next htype =>
      obtain rfl := Except.error.inj h
      exact .unknown htype
    · next e htype =>
      split at h
      · cases h
      · next hp =>
        obtain rfl := Except.error.inj h
        refine .misfit htype fun p htakes => ?_
        rw [htakes.payload?_eq] at hp
        cases hp
  · rintro (htype | ⟨htype, hvalue⟩)
    · simp only [htype]
    · simp only [htype, Option.eq_none_iff_forall_ne_some.2 fun p hp =>
        hvalue p (payload?_eq_some_iff.1 hp)]

theorem Refused.unique {f g : Fault} (hf : s.Refused c f) (hg : s.Refused c g) : f = g :=
  Except.error.inj ((decode_eq_error_iff.2 hf).symm.trans (decode_eq_error_iff.2 hg))

theorem means_iff_not_refused : (∃ x, s.Means c x) ↔ ∀ fault, ¬s.Refused c fault := by
  simp only [← decode_eq_ok_iff, ← decode_eq_error_iff]
  cases s.decode c <;> simp

/-! ## Symbols one after the other -/

/-- None of the symbols with this name has a value. -/
def Free (c : Catalog) (name : String) (ss : List Symbol) : Prop :=
  ∀ s ∈ ss, s.name = name → ∀ x, ¬s.Means c x

/-- The last of the symbols with this name that have a value has this one. -/
inductive Last (c : Catalog) (name : String) (x : Value) : List Symbol → Prop
  | here {s : Symbol} {rest : List Symbol} (named : s.name = name) (means : s.Means c x)
      (free : Free c name rest) : Last c name x (s :: rest)
  | later {s : Symbol} {rest : List Symbol} (last : Last c name x rest) : Last c name x (s :: rest)

theorem exists_getElem?_cons {s : Symbol} {rest : List Symbol} {start stop : Nat}
    {holds : Symbol → Prop} :
    (∃ i s', stop = start + i ∧ (s :: rest)[i]? = some s' ∧ holds s') ↔
      stop = start ∧ holds s ∨ ∃ i s', stop = start + 1 + i ∧ rest[i]? = some s' ∧ holds s' := by
  constructor
  · rintro ⟨i, s', hstop, hs', hholds⟩
    cases i with
    | zero =>
      obtain rfl : s = s' := Option.some.inj hs'
      exact .inl ⟨hstop, hholds⟩
    | succ i => exact .inr ⟨i, s', by omega, hs', hholds⟩
  · rintro (⟨hstop, hholds⟩ | ⟨i, s', hstop, hs', hholds⟩)
    · exact ⟨0, s, hstop, rfl, hholds⟩
    · exact ⟨i + 1, s', by omega, hs', hholds⟩

section

variable {name : String} {rest : List Symbol}

theorem last_nil_iff {x : Value} : Last c name x [] ↔ False := iff_of_false (fun h => by cases h) id

theorem last_cons_of_means {x y : Value} (named : s.name = name) (means : s.Means c y) :
    Last c name x (s :: rest) ↔ Last c name x rest ∨ Free c name rest ∧ x = y := by
  constructor
  · rintro (⟨-, hx, hfree⟩ | hlast)
    · exact .inr ⟨hfree, hx.unique means⟩
    · exact .inl hlast
  · rintro (hlast | ⟨hfree, rfl⟩)
    · exact .later hlast
    · exact .here named means hfree

theorem last_cons_of_silent {x : Value} (silent : s.name = name → ∀ x, ¬s.Means c x) :
    Last c name x (s :: rest) ↔ Last c name x rest := by
  refine ⟨?_, .later⟩
  rintro (⟨hname, hx, -⟩ | hlast)
  · exact absurd hx (silent hname x)
  · exact hlast

theorem free_cons_of_silent (silent : s.name = name → ∀ x, ¬s.Means c x) :
    Free c name (s :: rest) ↔ Free c name rest := by
  rw [Free, List.forall_mem_cons]
  exact and_iff_right silent

end

variable (c) (report : Report) (table : SymbolTable) (index : Nat) (ss : List Symbol)

theorem defineAll_total :
    (defineAll c report table index ss).1.dictionary = report.dictionary ∧
      (defineAll c report table index ss).1.applied +
          (defineAll c report table index ss).1.skipped.length =
        report.applied + report.skipped.length + ss.length := by
  induction ss generalizing report table index with
  | nil => exact ⟨rfl, rfl⟩
  | cons s rest ih =>
    unfold defineAll
    split
    all_goals
      rw [List.length_cons]
      refine ⟨(ih ..).1.trans (Report.record_dictionary ..), (ih ..).2.trans ?_⟩
      rw [Report.record_total]
      omega

theorem mem_defineAll_skipped {k : Skipped} :
    k ∈ (defineAll c report table index ss).1.skipped ↔ k ∈ report.skipped ∨
      ∃ i s, k.index = index + i ∧ ss[i]? = some s ∧ k.name = s.name ∧ s.Refused c k.fault := by
  induction ss generalizing report table index with
  | nil => simp [defineAll]
  | cons s rest ih =>
    rw [exists_getElem?_cons]
    unfold defineAll
    split
    · next v hv =>
      have hmeans := decode_eq_ok_iff.1 hv
      rw [ih, Report.record, or_iff_right (a := _ ∧ _)]
      rintro ⟨-, -, hrefused⟩
      exact means_iff_not_refused.1 ⟨v, hmeans⟩ _ hrefused
    · next fault hfault =>
      have hrefused := decode_eq_error_iff.1 hfault
      have hnew : k = ⟨index, s.name, fault⟩ ↔
          k.index = index ∧ k.name = s.name ∧ s.Refused c k.fault := by
        cases k
        rw [Skipped.mk.injEq]
        refine and_congr_right' (and_congr_right' ?_)
        constructor
        · rintro rfl
          exact hrefused
        · exact fun h => h.unique hrefused
      rw [ih, Report.record, List.mem_append, List.mem_singleton, hnew, or_assoc]

theorem defineAll_ordered (ordered : report.skipped.Pairwise (·.index < ·.index))
    (before : ∀ k ∈ report.skipped, k.index < index) :
    (defineAll c report table index ss).1.skipped.Pairwise (·.index < ·.index) := by
  -- All that is reported has an index below that of the next symbol.
  induction ss generalizing report table index with
  | nil => exact ordered
  | cons s rest ih =>
    unfold defineAll
    split
    · exact ih _ _ _ ordered fun k hk => Nat.lt_succ_of_lt (before k hk)
    · refine ih _ _ _ ?_ ?_
      · simp only [Report.record, List.pairwise_append, List.mem_singleton]
        refine ⟨ordered, List.pairwise_singleton _ _, ?_⟩
        rintro k hk _ rfl
        exact before k hk
      · intro k hk
        rcases List.mem_append.1 hk with hold | hnew
        · exact Nat.lt_succ_of_lt (before k hold)
        · obtain rfl := List.mem_singleton.1 hnew
          exact Nat.lt_succ_self index

theorem defineAll_get? {name : String} {x : Value} :
    (defineAll c report table index ss).2.get? name = some x ↔
      Last c name x ss ∨ Free c name ss ∧ table.get? name = some x := by
  induction ss generalizing report table index with
  | nil => simp [defineAll, Free, last_nil_iff]
  | cons s rest ih =>
    unfold defineAll
    split
    · next v hv =>
      rw [ih, Table.get?_put]
      by_cases hname : s.name = name
      -- Its value stays in the table if no later symbol of the name has one.
      · have hmeans := decode_eq_ok_iff.1 hv
        rw [if_pos hname.symm, last_cons_of_means hname hmeans, Option.some.injEq, eq_comm (a := v)]
        refine ⟨.inl, ?_⟩
        rintro (hlast | ⟨hfree, -⟩)
        · exact hlast
        · exact absurd hmeans (hfree s List.mem_cons_self hname v)
      · have hsilent : s.name = name → ∀ x, ¬s.Means c x := fun h => absurd h hname
        rw [if_neg (Ne.symm hname), last_cons_of_silent hsilent, free_cons_of_silent hsilent]
    · next fault hfault =>
      have hsilent : s.name = name → ∀ x, ¬s.Means c x := fun _ x hx =>
        means_iff_not_refused.1 ⟨x, hx⟩ fault (decode_eq_error_iff.1 hfault)
      rw [ih, last_cons_of_silent hsilent, free_cons_of_silent hsilent]

end Symbol

/-! ## What is kept -/

theorem Bytes.fits_word_signed (i : Int64) : Fits 8 true i.toInt := by
  have hle := i.le_toInt
  have hlt := i.toInt_lt
  rw [Fits, if_pos rfl]
  omega

theorem Bytes.fits_word_unsigned {z : Int} (nonneg : 0 ≤ z) (small : z < 2 ^ 64) :
    Fits 8 false z := by
  rw [Fits, if_neg Bool.false_ne_true]
  omega

/-- The integer that a value of a document gives to a type of this class. A character may stand for
its code point. -/
def Json.Gives (v : Json) (cls : FundamentalClass) (z : Int) : Prop :=
  v.integer? = some z ∨
    cls = .character ∧ ∃ a : Char, v = .string (String.singleton a) ∧ z = a.toNat

/-- The data of a symbol is all that its dictionary gives. -/
structure Entry.Keeps (e : Entry) (v : Json) (p : Payload) : Prop where
  /-- An integer stays the same. In eight bytes it can be told, but for a negative one of a
  character type without a sign. -/
  integer : ∀ cls ∈ [FundamentalClass.character, .signed, .unsigned], e.IsOf cls →
    ∃ k z, p = .inline k ∧ k.integer? = some z ∧ v.Gives cls z ∧ (cls = .unsigned → 0 ≤ z) ∧
      (e.size = 8 → e.isSigned ∨ 0 ≤ z → e.Holds z)
  /-- Of bytes there are as many as in the list. -/
  bytes : e.IsRaw → ∃ bs, p = .storage bs ∧ v = .array (bs.map .ofByte)

namespace Entry

variable {e : Entry}

theorem holds_int64 {i : Int64} (size : e.size = 8) (sign : e.isSigned ∨ 0 ≤ i.toInt) :
    e.Holds i.toInt := by
  rw [Holds, size]
  cases hsigned : e.isSigned with
  | true => exact Bytes.fits_word_signed i
  | false =>
    have hnonneg : 0 ≤ i.toInt := by simpa [hsigned] using sign
    have := i.toInt_lt
    exact Bytes.fits_word_unsigned hnonneg (by omega)

theorem holds_uint64 (type : e.IsOf .unsigned) (size : e.size = 8) (n : UInt64) :
    e.Holds n.toNat := by
  have hsigned : e.isSigned = false := by
    rw [isSigned, type.2]
  have := n.toNat_lt
  rw [Holds, size, hsigned]
  exact Bytes.fits_word_unsigned (by omega) (by omega)

end Entry

namespace Symbol

theorem gives_character {v : Json} {i : Int64} (h : v.int64?.or (character? v) = some i) :
    v.Gives .character i.toInt := by
  rcases Option.or_eq_some_iff.1 h with hint | ⟨-, hchar⟩
  · exact .inl (int64?_eq_some_iff.1 hint)
  · obtain ⟨a, hv, rfl⟩ := character?_eq_some_iff.1 hchar
    -- Code points have 21 bits.
    have hlt : a.toNat < 2 ^ 63 := by
      have := a.val.toNat_lt
      have : a.toNat = a.val.toNat := rfl
      omega
    exact .inr ⟨rfl, a, hv, Int64.toInt_ofNat_of_lt hlt⟩

theorem Takes.keeps {c : Catalog} {e : Entry} {v : Json} {p : Payload} (takes : Takes c e v p) :
    e.Keeps v p := by
  have hp := takes.payload?_eq
  constructor
  · intro cls hcls type
    rw [payload?_of_isOf type] at hp
    simp only [List.mem_cons, List.not_mem_nil, or_false] at hcls
    obtain rfl | rfl | rfl := hcls
    · obtain ⟨i, hi, rfl⟩ := Option.map_eq_some_iff.1 hp
      exact ⟨.signed i, i.toInt, rfl, rfl, gives_character hi, (nomatch ·), Entry.holds_int64⟩
    · obtain ⟨i, hi, rfl⟩ := Option.map_eq_some_iff.1 hp
      exact ⟨.signed i, i.toInt, rfl, rfl, .inl (int64?_eq_some_iff.1 hi), (nomatch ·),
        Entry.holds_int64⟩
    · obtain ⟨n, hn, rfl⟩ := Option.map_eq_some_iff.1 hp
      obtain rfl := uint64?_eq_some_iff.1 hn
      exact ⟨.unsigned n, n.toNat, rfl, rfl, .inl rfl, fun _ => Int.natCast_nonneg _,
        fun size _ => Entry.holds_uint64 type size n⟩
  · intro type
    rw [payload?_of_isRaw type] at hp
    obtain ⟨bs, hbs, rfl⟩ := Option.map_eq_some_iff.1 hp
    exact ⟨bs, rfl, bytes?_eq_some_iff.1 hbs⟩

end Symbol

/-- What comes of defining the symbols of a dictionary in a table. -/
structure Dictionary.Defines (d : Dictionary) (c : Catalog) (table : SymbolTable) (report : Report)
    (table' : SymbolTable) : Prop where
  dictionary : report.dictionary = d.name
  /-- Each symbol is applied or skipped. -/
  counts : report.applied + report.skipped.length = d.symbols.length
  ordered : report.skipped.Pairwise (·.index < ·.index)
  skips : ∀ k, k ∈ report.skipped ↔
    ∃ s, d.symbols[k.index]? = some s ∧ k.name = s.name ∧ s.Refused c k.fault
  applies : ∀ i s, d.symbols[i]? = some s → (¬report.Skips i ↔ ∃ x, s.Means c x)
  /-- A name stands for what the last applied symbol of that name has, or for what it stood for. -/
  binds : ∀ name x, table'.get? name = some x ↔
    Symbol.Last c name x d.symbols ∨ Symbol.Free c name d.symbols ∧ table.get? name = some x

namespace Dictionary

variable (d : Dictionary) (c : Catalog) (table : SymbolTable)

theorem defineSymbols_defines :
    d.Defines c table (d.defineSymbols c table).1 (d.defineSymbols c table).2 := by
  have hskips : ∀ k, k ∈ (d.defineSymbols c table).1.skipped ↔
      ∃ s, d.symbols[k.index]? = some s ∧ k.name = s.name ∧ s.Refused c k.fault := by
    intro k
    unfold defineSymbols
    simp [Symbol.mem_defineAll_skipped, Report.start]
  obtain ⟨hname, htotal⟩ := Symbol.defineAll_total c (.start d.name) table 0 d.symbols
  exact {
    dictionary := hname
    counts := htotal.trans (Nat.zero_add _)
    ordered := Symbol.defineAll_ordered c _ table 0 d.symbols .nil (List.forall_mem_nil _)
    skips := hskips
    applies := by
      intro i s hs
      rw [Symbol.means_iff_not_refused, Report.Skips]
      constructor
      · intro hnot fault hrefused
        exact hnot ⟨⟨i, s.name, fault⟩, (hskips _).2 ⟨s, hs, rfl, hrefused⟩, rfl⟩
      · rintro hnone ⟨k, hk, rfl⟩
        obtain ⟨s', hs', -, hrefused⟩ := (hskips k).1 hk
        obtain rfl := Option.some.inj (hs.symm.trans hs')
        exact hnone _ hrefused
    binds := fun name x => Symbol.defineAll_get? c _ table 0 d.symbols }

/-- A symbol that is applied has all that its dictionary gives, whatever the size of its type. -/
theorem applied_symbols_keep_all :
    d.Defines c table (d.defineSymbols c table).1 (d.defineSymbols c table).2 ∧
      ∀ i s, d.symbols[i]? = some s → ¬(d.defineSymbols c table).1.Skips i →
        ∃ e p, c.types.lookupName? s.type = some e ∧ s.Means c ⟨e.handle, p⟩ ∧
          e.Keeps s.value p := by
  have hdefines := d.defineSymbols_defines c table
  refine ⟨hdefines, fun i s hs happlied => ?_⟩
  obtain ⟨x, hmeans⟩ := (hdefines.applies i s hs).1 happlied
  obtain ⟨e, p, htype, htakes, rfl⟩ := hmeans
  exact ⟨e, p, htype, ⟨e, p, htype, htakes, rfl⟩, htakes.keeps⟩

end Dictionary

namespace Hub

def letterType : Entry := ⟨⟨0⟩, .named "char", .fundamental, 1, "char"⟩

def pairType : Entry := ⟨⟨1⟩, .named "Pair", .class, 2, "Pair"⟩

def lettered : Hub :=
  (ofSettings Settings.default.catalog).run
    [.buildFundamental "char" 1, .declareClass .global "Pair" (.named "Pair") .class 2]

/-- A character above all of one byte, three bytes for two, and a string that is no character. -/
def oversized : Dictionary where
  name := "oversized"
  declarations := []
  symbols :=
    [⟨"wide", "char", .number (.natural 300)⟩, ⟨"long", "Pair", .array ([1, 2, 3].map .ofByte)⟩,
      ⟨"word", "char", .string "ab"⟩]

/-- Only the form of a value is held against its type. -/
theorem oversized_symbols_are_applied :
    lettered.Reachable ∧
      lettered.catalog.types.lookupName? "char" = some letterType ∧
      lettered.catalog.types.lookupName? "Pair" = some pairType ∧
      letterType.IsOf .character ∧ ¬letterType.Holds 300 ∧
      pairType.IsRaw ∧ pairType.size ≠ [1, 2, 3].length ∧
      (oversized.defineSymbols lettered.catalog .empty).1 =
        ⟨"oversized", 2, [⟨2, "word",
          .dictionary "value \"ab\" of symbol 'word' does not fit type 'char'"⟩]⟩ ∧
      (oversized.defineSymbols lettered.catalog .empty).2 =
        ⟨[("wide", ⟨letterType.handle, .inline (.signed 300)⟩),
          ("long", ⟨pairType.handle, .storage [1, 2, 3]⟩)]⟩ := by
  refine ⟨⟨_, _, rfl⟩, ?_⟩
  decide +kernel

end Hub

end TypeCatalog
