import TypeCatalog.Printer.Basic
import TypeCatalog.Proofs.Escapes
import TypeCatalog.Proofs.Histories

/-!
# Printing integers

The standard printer never writes two integers of a type alike. What comes last in the text leads
back to the integer: a number, an address or, for a character, an escape between quotes.
-/

namespace TypeCatalog

open Text

variable {c : Catalog} {e : Entry}

namespace Formatter

/-- Writes no two integers of a type alike. -/
def TellsApart (write : View → String) (c : Catalog) (e : Entry) : Prop :=
  ∀ h, Function.Injective fun v : Int64 => write ⟨c, e, .ofScalar h (.signed v)⟩

theorem tellsApart_of_endsIn {write : View → String} {word : Int64 → String}
    (endsIn : ∀ h v, EndsIn (write ⟨c, e, .ofScalar h (.signed v)⟩) (word v))
    (injective : Function.Injective word) : TellsApart write c e := by
  intro h v w htext
  have hw := endsIn h w
  rw [← show write _ = write _ from htext] at hw
  exact injective ((endsIn h v).unique hw)

theorem number_injective : Function.Injective fun v : Int64 => toString v.toInt := by
  intro v w h
  exact Int64.toInt_inj.1 (decimal_injective h)

theorem fallback_endsIn (h : Handle) (v : Int64) :
    EndsIn (fallback ⟨c, e, .ofScalar h (.signed v)⟩) (toString v.toInt) :=
  .parenthesis (blank_not_mem_decimal _)

theorem fallback_tellsApart : TellsApart fallback c e :=
  tellsApart_of_endsIn fallback_endsIn number_injective

/-! ## Enums -/

/-- Whatever name the integer has, its number comes last. -/
theorem enumeration_endsIn (h : Handle) (v : Int64) :
    EndsIn (enumeration ⟨c, e, .ofScalar h (.signed v)⟩) (toString v.toInt) := by
  unfold enumeration
  split
  · exact fallback_endsIn h v
  · exact .parenthesis (blank_not_mem_decimal _)

theorem enumeration_tellsApart : TellsApart enumeration c e :=
  tellsApart_of_endsIn enumeration_endsIn number_injective

/-! ## Pointers -/

def addressText (address : UInt64) : String :=
  if address = 0 then "nullptr" else "0x" ++ hex address.toNat

theorem addressText_injective : Function.Injective addressText := by
  have null : ∀ n, "nullptr" ≠ "0x" ++ hex n := by
    intro n h
    have hchars := congrArg String.toList h
    rw [String.toList_append] at hchars
    exact absurd (List.cons.inj hchars).1 (by decide)
  intro a b h
  unfold addressText at h
  split at h <;> split at h
  case isTrue.isTrue ha hb => rw [ha, hb]
  case isTrue.isFalse => exact absurd h (null _)
  case isFalse.isTrue => exact absurd h.symm (null _)
  case isFalse.isFalse =>
    exact UInt64.toNat_inj.1 (hex_injective ((String.append_right_inj _).1 h))

theorem isAlphanum_of_mem_addressText {address : UInt64} {ch : Char}
    (hch : ch ∈ (addressText address).toList) : ch.isAlphanum = true := by
  have null : "nullptr".toList.all Char.isAlphanum = true := by decide
  have mark : "0x".toList.all Char.isAlphanum = true := by decide
  unfold addressText at hch
  split at hch
  · exact List.all_eq_true.1 null ch hch
  · rw [String.toList_append, List.mem_append] at hch
    exact hch.elim (List.all_eq_true.1 mark ch) isAlphanum_of_mem_hex

/-- What is written for an integer behind the name of a pointer. A number below zero is no
address. -/
def pointerWord (v : Int64) : String :=
  if v.toInt < 0 then toString v.toInt else addressText (UInt64.ofNat v.toInt.toNat)

theorem pointerWord_of_neg {v : Int64} (h : v.toInt < 0) : pointerWord v = toString v.toInt :=
  if_pos h

theorem pointerWord_of_nonneg {v : Int64} (h : ¬v.toInt < 0) :
    pointerWord v = addressText (UInt64.ofNat v.toInt.toNat) :=
  if_neg h

theorem blank_not_mem_pointerWord (v : Int64) : ' ' ∉ (pointerWord v).toList := by
  unfold pointerWord
  split
  · exact blank_not_mem_decimal _
  · exact fun hblank => absurd (isAlphanum_of_mem_addressText hblank) (by decide)

theorem minus_mem_pointerWord {v : Int64} : '-' ∈ (pointerWord v).toList ↔ v.toInt < 0 := by
  constructor
  · intro hsign
    by_contra hnonneg
    rw [pointerWord_of_nonneg hnonneg] at hsign
    exact absurd (isAlphanum_of_mem_addressText hsign) (by decide)
  · intro hneg
    rw [pointerWord_of_neg hneg]
    exact minus_mem_decimal.2 hneg

theorem pointerWord_injective : Function.Injective pointerWord := by
  intro v w h
  have hsign : v.toInt < 0 ↔ w.toInt < 0 := by
    rw [← minus_mem_pointerWord, h, minus_mem_pointerWord]
  by_cases hneg : v.toInt < 0
  case pos =>
    rw [pointerWord_of_neg hneg, pointerWord_of_neg (hsign.1 hneg)] at h
    exact number_injective h
  case neg =>
    have hneg' : ¬w.toInt < 0 := fun hw => hneg (hsign.2 hw)
    rw [pointerWord_of_nonneg hneg, pointerWord_of_nonneg hneg'] at h
    have hword := congrArg UInt64.toNat (addressText_injective h)
    have hv := v.toInt_lt
    have hw := w.toInt_lt
    rw [UInt64.toNat_ofNat_of_lt' (by rw [UInt64.size]; omega),
      UInt64.toNat_ofNat_of_lt' (by rw [UInt64.size]; omega)] at hword
    exact Int64.toInt_inj.1 (by omega)

theorem pointer_endsIn (h : Handle) (v : Int64) :
    EndsIn (pointer ⟨c, e, .ofScalar h (.signed v)⟩) (pointerWord v) := by
  have scalar : (Value.ofScalar h (.signed v)).scalarOf? e = some (.signed v) := rfl
  unfold pointer
  rw [scalar, Option.bind_some]
  by_cases hneg : v.toInt < 0
  case pos =>
    have hnone : (Scalar.signed v).toUInt64? = none := if_neg (by omega)
    rw [hnone, pointerWord_of_neg hneg]
    exact fallback_endsIn h v
  case neg =>
    have hsome : (Scalar.signed v).toUInt64? = some (UInt64.ofNat v.toInt.toNat) :=
      if_pos (by omega)
    rw [hsome]
    have hword := blank_not_mem_pointerWord v
    rw [pointerWord_of_nonneg hneg] at hword ⊢
    exact .parenthesis hword

theorem pointer_tellsApart : TellsApart pointer c e :=
  tellsApart_of_endsIn pointer_endsIn pointerWord_injective

/-! ## Fundamental types -/

theorem character?_eq_some {v : Int64} {ch : Char} (h : character? v = some ch) :
    v.toInt = ch.toNat := by
  unfold character? at h
  split at h
  case isFalse => cases h
  case isTrue hnonneg =>
    simp only at h
    split at h
    case isFalse => cases h
    case isTrue hvalid =>
      obtain rfl := Option.some.inj h
      have hnat : (Char.ofNat v.toInt.toNat).toNat = v.toInt.toNat := by
        rw [Char.ofNat, dif_pos hvalid]
        rfl
      rw [hnat]
      omega

theorem scalarText_character (v : Int64) :
    scalarText (some .character) (.signed v) =
      (character? v).elim (toString v.toInt) fun ch => "'" ++ ascii ch ++ "'" := by
  simp only [scalarText, Scalar.toInt64?, Option.bind_some]
  cases character? v <;> rfl

theorem scalarText_character_injective :
    Function.Injective fun v : Int64 => scalarText (some .character) (.signed v) := by
  have quoted : ∀ {v : Int64} {ch}, toString v.toInt ≠ "'" ++ ascii ch ++ "'" := by
    intro v ch h
    refine quote_not_mem_decimal v.toInt ?_
    rw [h, String.toList_append]
    exact List.mem_append_right _ (by decide)
  intro v w h
  simp only [scalarText_character] at h
  cases hv : character? v <;> cases hw : character? w <;> rw [hv, hw] at h
  case none.none => exact number_injective h
  case none.some => exact absurd h quoted
  case some.none => exact absurd h.symm quoted
  case some.some ch ch' =>
    have hch : ch = ch' :=
      ascii_injective ((String.append_right_inj _).1 ((String.append_left_inj _).1 h))
    refine Int64.toInt_inj.1 ?_
    rw [character?_eq_some hv, character?_eq_some hw, hch]

/-- Only truth values share a text. -/
theorem scalarText_injective {fundamental : Option FundamentalClass}
    (counts : fundamental ≠ some .bool) :
    Function.Injective fun v : Int64 => scalarText fundamental (.signed v) := by
  rcases fundamental with _ | _ | _ | _ | _ | _ | _
  case some.bool => exact absurd rfl counts
  case some.character => exact scalarText_character_injective
  all_goals exact number_injective

theorem fundamental_tellsApart (void : FundamentalClass.ofName? e.simpleName ≠ some .void)
    (bool : FundamentalClass.ofName? e.simpleName ≠ some .bool) : TellsApart fundamental c e := by
  intro h v w htext
  have shown : ∀ v, fundamental ⟨c, e, .ofScalar h (.signed v)⟩ =
      "(" ++ e.name ++ ") " ++
        scalarText (FundamentalClass.ofName? e.simpleName) (.signed v) := by
    intro v
    unfold fundamental
    split
    · contradiction
    · rfl
  simp only [shown, String.append_right_inj] at htext
  exact scalarText_injective bool htext

end Formatter

/-- Integers of the type stand for different values. No value is void, and only two are truth
values. -/
def Entry.Counts (e : Entry) : Prop :=
  e.kind = .fundamental →
    FundamentalClass.ofName? e.simpleName ≠ some .void ∧
      FundamentalClass.ofName? e.simpleName ≠ some .bool

instance (e : Entry) : Decidable e.Counts := inferInstanceAs (Decidable (_ → _))

namespace Printer

theorem standard_tellsApart (c : Catalog) (counts : e.Counts) :
    ∃ write, standard.formatter e = .total write ∧ Formatter.TellsApart write c e := by
  unfold formatter
  cases hkind : e.kind
  case fundamental =>
    obtain ⟨void, bool⟩ := counts hkind
    exact ⟨_, rfl, Formatter.fundamental_tellsApart void bool⟩
  case enum => exact ⟨_, rfl, Formatter.enumeration_tellsApart⟩
  case pointer => exact ⟨_, rfl, Formatter.pointer_tellsApart⟩
  all_goals exact ⟨_, rfl, Formatter.fallback_tellsApart⟩

theorem print_of_total {p : Printer} {write : View → String} {v : Value}
    (registered : c.types.get? v.type = some e) (total : p.formatter e = .total write) :
    p.print c v = write ⟨c, e, v⟩ := by
  simp only [print, printAs, registered, total]
  rfl

/-- Different integers of a type never print alike, whatever enumerators the type has. -/
theorem integers_print_apart {c : Catalog} {h : Handle} {e : Entry}
    (registered : c.types.get? h = some e) (counts : e.Counts) :
    Function.Injective fun v : Int64 => standard.print c (.ofScalar h (.signed v)) := by
  obtain ⟨write, total, apart⟩ := standard_tellsApart c counts
  have hprint : ∀ v : Int64, standard.print c (.ofScalar h (.signed v)) =
      write ⟨c, e, .ofScalar h (.signed v)⟩ := fun v => print_of_total registered total
  simp only [hprint]
  exact apart h

end Printer

namespace Hub

def slyType : Entry := ⟨⟨1⟩, .named "E", .enum, 4, "E"⟩

/-- The name of the enumerator looks like the end of another integer's text. -/
def slyEnum : Hub :=
  (ofSettings Settings.default.catalog).run
    [.buildFundamental "int" 4, .buildEnum .global "E" (.named "E") "int",
      .addEnumerator ⟨slyType, ⟨1⟩, ⟨0⟩⟩ "A) : (int) 2" 1]

theorem slyEnum_prints_apart :
    slyEnum.Reachable ∧ slyEnum.catalog.types.get? ⟨1⟩ = some slyType ∧ slyType.Counts ∧
      Printer.standard.print slyEnum.catalog (.ofScalar ⟨1⟩ (.signed 1)) =
        "(E) (A) : (int) 2) : (int) 1" ∧
      Printer.standard.print slyEnum.catalog (.ofScalar ⟨1⟩ (.signed 2)) = "(E) (int) 2" ∧
      Function.Injective fun v : Int64 =>
        Printer.standard.print slyEnum.catalog (.ofScalar ⟨1⟩ (.signed v)) := by
  have registered : slyEnum.catalog.types.get? ⟨1⟩ = some slyType := by decide +kernel
  have counts : slyType.Counts := by decide
  exact ⟨⟨_, _, rfl⟩, registered, counts, by decide +kernel, by decide +kernel,
    Printer.integers_print_apart registered counts⟩

end Hub

end TypeCatalog
