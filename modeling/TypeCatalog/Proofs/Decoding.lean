import Mathlib.Algebra.BigOperators.Fin
import Mathlib.Data.Int.ModEq
import Mathlib.Data.Nat.Digits.Defs
import Mathlib.Tactic.Positivity
import Mathlib.Tactic.Ring
import TypeCatalog.Proofs.EnumBytes

/-!
# Values from bytes

The bytes of a pointer or of an integral type are the digits of its number to base 256, and the top
bit is the sign if the type has one. Whatever bytes become, two strings of bytes never become the
same value, unless the type is called `bool`.
-/

namespace TypeCatalog

/-! ## Numbers from bytes -/

namespace Bytes

/-- The sum of the bytes, each by its weight. -/
def weighted (bytes : List UInt8) : Nat := ∑ i : Fin bytes.length, bytes[i].toNat * 256 ^ i.val

theorem toNat_eq_weighted (bytes : List UInt8) : toNat bytes = weighted bytes := by
  induction bytes with
  | nil => rfl
  | cons b rest ih =>
    have hrest : 256 * weighted rest =
        ∑ i : Fin rest.length, rest[i].toNat * 256 ^ (i.val + 1) := by
      rw [weighted, Finset.mul_sum]
      exact Finset.sum_congr rfl fun i _ => by rw [pow_succ]; ring
    rw [toNat, ih, hrest]
    show _ = ∑ i : Fin (rest.length + 1), (b :: rest)[i].toNat * 256 ^ i.val
    rw [Fin.sum_univ_succ]
    simp

theorem toNat_eq_ofDigits (bytes : List UInt8) :
    toNat bytes = Nat.ofDigits 256 (bytes.map UInt8.toNat) := by
  induction bytes with
  | nil => rfl
  | cons b rest ih => rw [List.map_cons, Nat.ofDigits_cons, toNat, ih]

theorem toNat_inj {a b : List UInt8} (length : a.length = b.length) (h : toNat a = toNat b) :
    a = b := by
  have digits : ∀ bytes : List UInt8, ∀ d ∈ bytes.map UInt8.toNat, d < 256 := by
    intro bytes d hd
    obtain ⟨x, -, rfl⟩ := List.mem_map.1 hd
    exact x.toNat_lt
  rw [toNat_eq_ofDigits, toNat_eq_ofDigits] at h
  have hmap := Nat.ofDigits_inj_of_len_eq (by decide) (by simpa using length) (digits a)
    (digits b) h
  exact List.map_injective_iff.2 (fun _ _ => UInt8.toNat_inj.1) hmap

theorem twosComplement_inj {a b : List UInt8} (length : a.length = b.length)
    (h : twosComplement a = twosComplement b) : a = b := by
  have ha := toNat_lt a
  have hb := toNat_lt b
  refine toNat_inj length ?_
  unfold twosComplement at h
  rw [length] at h ha
  split at h <;> split at h <;> omega

/-- A number of as many bits as the bytes have, one of them the sign, that is theirs up to a
multiple of the modulus. -/
structure Signed (bytes : List UInt8) (v : Int) : Prop where
  lower : -(2 ^ (8 * bytes.length - 1)) ≤ v
  upper : v < 2 ^ (8 * bytes.length - 1)
  congruent : v ≡ weighted bytes [ZMOD 2 ^ (8 * bytes.length)]

variable {bytes : List UInt8}

theorem isWord_iff : isWord bytes ↔ 1 ≤ bytes.length ∧ bytes.length ≤ 8 := by
  rw [isWord, Bool.and_eq_true, decide_eq_true_iff, decide_eq_true_iff]
  rfl

theorem modulus_eq (nonempty : 1 ≤ bytes.length) :
    256 ^ bytes.length = 2 * 2 ^ (8 * bytes.length - 1) := by
  rw [show 256 = 2 ^ 8 from rfl, ← pow_mul, ← pow_succ',
    show 8 * bytes.length - 1 + 1 = 8 * bytes.length by omega]

theorem signed_twosComplement (nonempty : 1 ≤ bytes.length) :
    Signed bytes (twosComplement bytes) := by
  have hlt := toNat_lt bytes
  have hmodulus := modulus_eq nonempty
  have hpow : (2 : Int) ^ (8 * bytes.length - 1) = (2 ^ (8 * bytes.length - 1) : Nat) := by
    push_cast
    rfl
  refine ⟨?_, ?_, ?_⟩
  · rw [hpow]
    unfold twosComplement
    split <;> omega
  · rw [hpow]
    unfold twosComplement
    split <;> omega
  · rw [← toNat_eq_weighted, pow_mul]
    unfold twosComplement
    split
    · exact Int.ModEq.refl _
    · exact Int.modEq_iff_dvd.2 ⟨1, by push_cast; ring⟩

theorem Signed.unique {v v' : Int} (nonempty : 1 ≤ bytes.length) (h : Signed bytes v)
    (h' : Signed bytes v') : v = v' := by
  have hpow : (2 : Int) ^ (8 * bytes.length) = 2 * 2 ^ (8 * bytes.length - 1) := by
    rw [← pow_succ', show 8 * bytes.length - 1 + 1 = 8 * bytes.length by omega]
  obtain ⟨k, hk⟩ := (h.congruent.trans h'.congruent.symm).dvd
  have hlower := h.lower
  have hupper := h.upper
  have hlower' := h'.lower
  have hupper' := h'.upper
  rw [hpow] at hk
  generalize (2 : Int) ^ (8 * bytes.length - 1) = half at *
  -- a multiple of the modulus that is smaller than the modulus
  have hzero : k = 0 := by
    by_contra hne
    rcases lt_or_gt_of_ne hne with hneg | hpos
    · nlinarith
    · nlinarith
  rw [hzero, mul_zero] at hk
  omega

theorem unsigned?_word (word : isWord bytes) :
    ∃ w : UInt64, unsigned? bytes = some w ∧ w.toNat = toNat bytes := by
  refine ⟨UInt64.ofNat (toNat bytes), by rw [unsigned?, if_pos word], ?_⟩
  have hlt := toNat_lt bytes
  have hle : 256 ^ bytes.length ≤ 256 ^ 8 := Nat.pow_le_pow_right (by decide) (isWord_iff.1 word).2
  exact UInt64.toNat_ofNat_of_lt' (by rw [UInt64.size]; omega)

theorem signed?_word (word : isWord bytes) :
    ∃ v : Int64, signed? bytes = some v ∧ v.toInt = twosComplement bytes := by
  obtain ⟨nonempty, short⟩ := isWord_iff.1 word
  have hsigned := signed_twosComplement nonempty
  have hbound : (2 : Int) ^ (8 * bytes.length - 1) ≤ 2 ^ 63 :=
    pow_le_pow_right₀ (by decide) (by omega)
  have hlower := hsigned.lower
  have hupper := hsigned.upper
  have hvalue : (Int64.ofInt (twosComplement bytes)).toInt = twosComplement bytes :=
    Int64.toInt_ofInt_of_le (by omega) (by omega)
  exact ⟨_, signed?_eq word hvalue.symm, hvalue⟩

/-! ## Signs by shifting -/

/-- A word with its bits moved up, if the word is wider than that. -/
def shiftedUp? (word : UInt64) (amount : Nat) : Option UInt64 :=
  if amount < 64 then some (word <<< UInt64.ofNat amount) else none

/-- A word with its bits moved down and the sign behind them, if the word is wider than that. -/
def shiftedDown? (word : Int64) (amount : Nat) : Option Int64 :=
  if amount < 64 then some (word >>> Int64.ofNat amount) else none

/-- The number in two's complement by way of words: the bytes are moved to the top of a word, and
back with the sign. Breaks off at a step that is out of range. -/
def shiftedSigned (bytes : List UInt8) : Option (Option Int64) :=
  match unsigned? bytes with
  | none => some none
  | some word =>
    if 8 * bytes.length ≤ 64 then do
      let top ← shiftedUp? word (64 - 8 * bytes.length)
      return some (← shiftedDown? top.toInt64 (64 - 8 * bytes.length))
    else none

theorem toInt_shiftLeft {word : UInt64} {amount : Nat} (h : amount < 64) :
    (word <<< UInt64.ofNat amount).toInt64.toInt =
      Int.bmod (word.toNat * 2 ^ amount : Nat) (2 ^ 64) := by
  have hamount : (UInt64.ofNat amount).toNat = amount :=
    UInt64.toNat_ofNat_of_lt' (by rw [UInt64.size]; omega)
  show (word <<< UInt64.ofNat amount).toBitVec.toInt = _
  rw [BitVec.toInt_eq_toNat_bmod, UInt64.toNat_toBitVec, UInt64.toNat_shiftLeft, hamount,
    Nat.mod_eq_of_lt h, Nat.shiftLeft_eq, Int.natCast_mod, Int.emod_bmod]

theorem toInt_shiftRight {word : Int64} {amount : Nat} (h : amount < 64) :
    (word >>> Int64.ofNat amount).toInt = word.toInt / (2 ^ amount : Nat) := by
  have hamount : ((Int64.ofNat amount).toBitVec.smod 64).toNat = amount := by
    decide +revert
  show (word >>> Int64.ofNat amount).toBitVec.toInt = _
  rw [Int64.toBitVec_shiftRight, BitVec.sshiftRight', hamount, BitVec.toInt_sshiftRight,
    Int.shiftRight_eq_div_pow]
  rfl

/-- At the top of a word the bytes have the sign of the word. -/
theorem bmod_shifted {amount : Nat} (word : isWord bytes) (h : 8 * bytes.length + amount = 64) :
    Int.bmod (toNat bytes * 2 ^ amount : Nat) (2 ^ 64) =
      twosComplement bytes * (2 ^ amount : Nat) := by
  have hlt := toNat_lt bytes
  have hpow : 2 ^ 64 = 256 ^ bytes.length * 2 ^ amount := by
    rw [show 256 = 2 ^ 8 from rfl, ← pow_mul, ← pow_add, h]
  have hpos : 0 < 2 ^ amount := Nat.two_pow_pos amount
  rw [hpow]
  unfold twosComplement
  rw [modulus_eq (isWord_iff.1 word).1] at hlt ⊢
  generalize 2 ^ amount = m at *
  generalize 2 ^ (8 * bytes.length - 1) = half at *
  generalize toNat bytes = r at *
  have hmod : ((r * m : Nat) : Int) % (2 * half * m : Nat) = (r * m : Nat) :=
    Int.emod_eq_of_lt (by positivity) (by exact_mod_cast Nat.mul_lt_mul_of_pos_right hlt hpos)
  have hsign : r * m < half * m ↔ r < half := Nat.mul_lt_mul_right hpos
  rw [Int.bmod_def, hmod, mul_assoc 2 half m]
  split <;> split
  · push_cast
    ring
  · omega
  · omega
  · push_cast
    ring

/-- No step of the way by words is out of range, and it leads to the same number. -/
theorem shiftedSigned_eq (bytes : List UInt8) : shiftedSigned bytes = some (signed? bytes) := by
  by_cases hword : isWord bytes
  case neg => rw [shiftedSigned, unsigned?, signed?, if_neg hword, if_neg hword]
  case pos =>
    obtain ⟨w, hw, hnat⟩ := unsigned?_word hword
    obtain ⟨v, hv, hint⟩ := signed?_word hword
    obtain ⟨nonempty, short⟩ := isWord_iff.1 hword
    have hamount : 64 - 8 * bytes.length < 64 := by omega
    have hresult : (w <<< UInt64.ofNat (64 - 8 * bytes.length)).toInt64 >>>
        Int64.ofNat (64 - 8 * bytes.length) = v := by
      rw [← Int64.toInt_inj, toInt_shiftRight hamount, toInt_shiftLeft hamount, hnat,
        bmod_shifted hword (by omega), hint]
      exact Int.mul_ediv_cancel _ (by positivity)
    simp only [shiftedSigned, hw, hv, if_pos (show 8 * bytes.length ≤ 64 by omega), shiftedUp?,
      shiftedDown?, if_pos hamount, ← hresult]
    rfl

end Bytes

/-! ## Two strings of bytes -/

namespace Bytes

variable {a b bytes : List UInt8}

theorem toNat_of_unsigned? {w : UInt64} (h : unsigned? bytes = some w) : w.toNat = toNat bytes := by
  by_cases hword : isWord bytes
  case pos =>
    obtain ⟨w', hw', hnat⟩ := unsigned?_word hword
    obtain rfl : w' = w := Option.some.inj (hw' ▸ h)
    exact hnat
  case neg => rw [unsigned?, if_neg hword] at h; cases h

theorem toInt_of_signed? {v : Int64} (h : signed? bytes = some v) :
    v.toInt = twosComplement bytes := by
  by_cases hword : isWord bytes
  case pos =>
    obtain ⟨v', hv', hint⟩ := signed?_word hword
    obtain rfl : v' = v := Option.some.inj (hv' ▸ h)
    exact hint
  case neg => rw [signed?, if_neg hword] at h; cases h

theorem unsigned?_inj (length : a.length = b.length) {w : UInt64} (ha : unsigned? a = some w)
    (hb : unsigned? b = some w) : a = b :=
  toNat_inj length ((toNat_of_unsigned? ha).symm.trans (toNat_of_unsigned? hb))

theorem signed?_inj (length : a.length = b.length) {v : Int64} (ha : signed? a = some v)
    (hb : signed? b = some v) : a = b :=
  twosComplement_inj length ((toInt_of_signed? ha).symm.trans (toInt_of_signed? hb))

theorem floating?_inj (length : a.length = b.length) {x : Scalar} (ha : floating? a = some x)
    (hb : floating? b = some x) : a = b := by
  have hlta := toNat_lt a
  have hltb := toNat_lt b
  have heq : floating? a = floating? b := ha.trans hb.symm
  refine toNat_inj length ?_
  unfold floating? at ha heq
  rw [← length] at hltb heq
  split at ha
  case isTrue hfour =>
    rw [if_pos hfour, if_pos hfour, Option.some_inj, Scalar.single.injEq, Single.mk.injEq] at heq
    rw [hfour] at hlta hltb
    rw [← UInt32.toNat_ofNat_of_lt' hlta, ← UInt32.toNat_ofNat_of_lt' hltb, heq]
  case isFalse hfour =>
    split at ha
    case isTrue height =>
      rw [if_neg hfour, if_neg hfour, if_pos height, if_pos height, Option.some_inj,
        Scalar.double.injEq, Double.mk.injEq] at heq
      rw [height] at hlta hltb
      rw [← UInt64.toNat_ofNat_of_lt' hlta, ← UInt64.toNat_ofNat_of_lt' hltb, heq]
    case isFalse => cases ha

end Bytes

variable {a b : List UInt8} {x : Scalar}

theorem Scalar.map_inj {α : Type} {read : List UInt8 → Option α} {wrap : α → Scalar}
    (hwrap : Function.Injective wrap) (hread : ∀ {w}, read a = some w → read b = some w → a = b)
    (ha : (read a).map wrap = some x) (hb : (read b).map wrap = some x) : a = b := by
  obtain ⟨w, hw, hx⟩ := Option.map_eq_some_iff.1 ha
  obtain ⟨w', hw', hx'⟩ := Option.map_eq_some_iff.1 hb
  obtain rfl : w = w' := hwrap (hx.trans hx'.symm)
  exact hread hw hw'

theorem Scalar.unsigned_injective : Function.Injective Scalar.unsigned := fun _ _ h => by
  injection h

theorem Scalar.signed_injective : Function.Injective Scalar.signed := fun _ _ h => by
  injection h

theorem Scalar.address_injective : Function.Injective Scalar.address := fun _ _ h => by
  injection h

/-- Of any class but `bool` no two strings of bytes stand for one scalar. -/
theorem FundamentalClass.decode?_inj {cls : FundamentalClass} {name : String} (hbool : cls ≠ .bool)
    (length : a.length = b.length) (ha : cls.decode? name a = some x)
    (hb : cls.decode? name b = some x) : a = b := by
  cases cls with
  | void => cases ha
  | bool => exact absurd rfl hbool
  | character =>
    unfold decode? at ha hb
    by_cases hname : isUnsignedCharacter name
    case pos =>
      rw [if_pos hname] at ha hb
      exact Scalar.map_inj Scalar.unsigned_injective (Bytes.unsigned?_inj length) ha hb
    case neg =>
      rw [if_neg hname] at ha hb
      exact Scalar.map_inj Scalar.signed_injective (Bytes.signed?_inj length) ha hb
  | signed => exact Scalar.map_inj Scalar.signed_injective (Bytes.signed?_inj length) ha hb
  | unsigned => exact Scalar.map_inj Scalar.unsigned_injective (Bytes.unsigned?_inj length) ha hb
  | floating => exact Bytes.floating?_inj length ha hb

theorem Value.fromBytes_of_none {e : Entry} (h : e.decode? a = none) :
    fromBytes e a = ofBytes e.handle a := by
  rw [fromBytes, h]

theorem Value.fromBytes_of_some {e : Entry} (h : e.decode? a = some x) :
    fromBytes e a = ofScalar e.handle x := by
  rw [fromBytes, h]

namespace Entry

variable {e : Entry}

theorem decode?_inj (hbool : e.kind = .fundamental → FundamentalClass.ofName? e.name ≠ some .bool)
    (ha : e.decode? a = some x) (hb : e.decode? b = some x) : a = b := by
  unfold decode? at ha hb
  split at ha
  case isFalse => cases ha
  case isTrue hsa =>
    split at hb
    case isFalse => cases hb
    case isTrue hsb =>
      have length : a.length = b.length := hsa.trans hsb.symm
      cases hkind : e.kind with
      | fundamental =>
        rw [hkind] at ha hb
        obtain ⟨cls, hcls, ha⟩ := Option.bind_eq_some_iff.1 ha
        rw [hcls] at hb
        exact FundamentalClass.decode?_inj (fun h => hbool hkind (h ▸ hcls)) length ha hb
      | pointer =>
        rw [hkind] at ha hb
        exact Scalar.map_inj Scalar.address_injective (Bytes.unsigned?_inj length) ha hb
      | _ => rw [hkind] at ha; cases ha

/-- What becomes of bytes tells the scalar they stand for, if any, and else the bytes. -/
theorem fromBytes_inj_iff : Value.fromBytes e a = Value.fromBytes e b ↔
    e.decode? a = e.decode? b ∧ (e.decode? a = none → a = b) := by
  unfold Value.fromBytes
  cases e.decode? a <;> cases e.decode? b <;> simp [Value.ofScalar, Value.ofBytes]

theorem fromBytes_injective
    (hbool : e.kind = .fundamental → FundamentalClass.ofName? e.name ≠ some .bool) :
    Function.Injective (Value.fromBytes e) := by
  intro a b h
  obtain ⟨hdecode, hbytes⟩ := fromBytes_inj_iff.1 h
  cases ha : e.decode? a with
  | none => exact hbytes ha
  | some x => exact decode?_inj hbool ha (hdecode ▸ ha)

/-! ## What bytes become -/

/-- A type whose bytes are a number without a sign. -/
def IsUnsigned (e : Entry) : Prop :=
  e.kind = .fundamental ∧ (FundamentalClass.ofName? e.name = some .unsigned ∨
    FundamentalClass.ofName? e.name = some .character ∧
      FundamentalClass.isUnsignedCharacter e.name = true)

/-- A type whose bytes are a number with a sign. -/
def IsSigned (e : Entry) : Prop :=
  e.kind = .fundamental ∧ (FundamentalClass.ofName? e.name = some .signed ∨
    FundamentalClass.ofName? e.name = some .character ∧
      FundamentalClass.isUnsignedCharacter e.name = false)

/-- Bytes that are as many as the type has, and fit in a word. -/
structure Fits (e : Entry) (bytes : List UInt8) : Prop where
  width : bytes.length = e.size
  nonempty : 1 ≤ bytes.length
  short : bytes.length ≤ 8

variable {bytes : List UInt8}

theorem Fits.word (h : e.Fits bytes) : Bytes.isWord bytes :=
  Bytes.isWord_iff.2 ⟨h.nonempty, h.short⟩

theorem Fits.decode?_pointer (h : e.Fits bytes) (kind : e.kind = .pointer) :
    e.decode? bytes = (Bytes.unsigned? bytes).map .address := by
  simp only [decode?, if_pos h.width, kind]

theorem Fits.decode?_unsigned (h : e.Fits bytes) (unsigned : e.IsUnsigned) :
    e.decode? bytes = (Bytes.unsigned? bytes).map .unsigned := by
  obtain ⟨kind, hclass | ⟨hclass, hname⟩⟩ := unsigned
  · simp only [decode?, if_pos h.width, kind, hclass, Option.bind_some, FundamentalClass.decode?]
  · simp only [decode?, if_pos h.width, kind, hclass, Option.bind_some, FundamentalClass.decode?,
      hname, if_true]

theorem Fits.decode?_signed (h : e.Fits bytes) (signed : e.IsSigned) :
    e.decode? bytes = (Bytes.signed? bytes).map .signed := by
  obtain ⟨kind, hclass | ⟨hclass, hname⟩⟩ := signed
  · simp only [decode?, if_pos h.width, kind, hclass, Option.bind_some, FundamentalClass.decode?]
  · simp only [decode?, if_pos h.width, kind, hclass, Option.bind_some, FundamentalClass.decode?,
      hname, Bool.false_eq_true, if_false]

/-- What the bytes of one type become. -/
structure DecodesExactly (e : Entry) : Prop where
  /-- Those of a pointer are the digits of an address. -/
  pointer : ∀ bytes, e.Fits bytes → e.kind = .pointer → ∃ w : UInt64,
    Value.fromBytes e bytes = .ofScalar e.handle (.address w) ∧ w.toNat = Bytes.weighted bytes
  /-- Those of a type without signs are the digits of a number. -/
  unsigned : ∀ bytes, e.Fits bytes → e.IsUnsigned → ∃ w : UInt64,
    Value.fromBytes e bytes = .ofScalar e.handle (.unsigned w) ∧ w.toNat = Bytes.weighted bytes
  /-- Those of a type with signs are the one number in range with these digits, up to a multiple of
  the modulus. -/
  signed : ∀ bytes, e.Fits bytes → e.IsSigned → ∃ v : Int64,
    Value.fromBytes e bytes = .ofScalar e.handle (.signed v) ∧
      ∀ v' : Int, Bytes.Signed bytes v' ↔ v' = v.toInt
  /-- To shift the sign into place takes no step out of range. -/
  inRange : ∀ bytes, Bytes.shiftedSigned bytes = some (Bytes.signed? bytes)
  /-- Other bytes become another value, whatever their number, unless the type is called `bool`. -/
  lossless : ¬(e.kind = .fundamental ∧ FundamentalClass.ofName? e.name = some .bool) →
    ∀ a b, a ≠ b → Value.fromBytes e a ≠ Value.fromBytes e b

theorem decodesExactly (e : Entry) : e.DecodesExactly where
  pointer bytes fits kind := by
    obtain ⟨w, hw, hnat⟩ := Bytes.unsigned?_word fits.word
    refine ⟨w, Value.fromBytes_of_some ?_, hnat.trans (Bytes.toNat_eq_weighted bytes)⟩
    rw [fits.decode?_pointer kind, hw]
    rfl
  unsigned bytes fits unsigned := by
    obtain ⟨w, hw, hnat⟩ := Bytes.unsigned?_word fits.word
    refine ⟨w, Value.fromBytes_of_some ?_, hnat.trans (Bytes.toNat_eq_weighted bytes)⟩
    rw [fits.decode?_unsigned unsigned, hw]
    rfl
  signed bytes fits signed := by
    obtain ⟨v, hv, hint⟩ := Bytes.signed?_word fits.word
    have hnumber : Bytes.Signed bytes v.toInt := hint ▸ Bytes.signed_twosComplement fits.nonempty
    refine ⟨v, Value.fromBytes_of_some ?_, fun v' =>
      ⟨fun h => h.unique fits.nonempty hnumber, fun h => h ▸ hnumber⟩⟩
    rw [fits.decode?_signed signed, hv]
    rfl
  inRange := Bytes.shiftedSigned_eq
  lossless hbool a b hne h :=
    hne (fromBytes_injective (fun kind hclass => hbool ⟨kind, hclass⟩) h)

end Entry

end TypeCatalog
