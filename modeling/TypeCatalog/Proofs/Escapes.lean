import Mathlib.Data.Nat.Digits.Defs
import TypeCatalog.Text.Escape

/-!
# Reading back numbers and characters

The digits of a number lead back to the number, and the escape of a character to the character. A
word without blanks can be read from the end of the text that it is written behind.
-/

namespace TypeCatalog.Text

/-! ## Digits -/

/-- The number with these digits. -/
def readDigits (base : Nat) (digits : List Char) : Nat :=
  digits.foldl (fun n c => base * n + (hexValue? c).getD 0) 0

theorem readDigits_concat (base : Nat) (digits : List Char) (c : Char) :
    readDigits base (digits ++ [c]) = base * readDigits base digits + (hexValue? c).getD 0 := by
  rw [readDigits, List.foldl_append]
  rfl

theorem hexValue?_digitChar : ∀ d < 16, hexValue? (Nat.digitChar d) = some d := by decide

variable {base : Nat}

theorem readDigits_toDigits (one_lt : 1 < base) (le : base ≤ 16) (n : Nat) :
    readDigits base (Nat.toDigits base n) = n := by
  induction n using Nat.strong_induction_on with
  | _ n ih =>
    rw [Nat.toDigits_eq_if one_lt]
    split
    case isTrue h =>
      rw [← List.nil_append [n.digitChar], readDigits_concat, hexValue?_digitChar n (by omega)]
      simp [readDigits]
    case isFalse h =>
      have hlast : n % base < 16 := Nat.lt_of_lt_of_le (Nat.mod_lt n (by omega)) le
      rw [readDigits_concat, ih (n / base) (Nat.div_lt_self (by omega) one_lt),
        hexValue?_digitChar _ hlast]
      exact Nat.div_add_mod n base

theorem toDigits_injective (one_lt : 1 < base) (le : base ≤ 16) {m n : Nat}
    (h : Nat.toDigits base m = Nat.toDigits base n) : m = n := by
  rw [← readDigits_toDigits one_lt le m, h, readDigits_toDigits one_lt le]

theorem hex_injective {m n : Nat} (h : hex m = hex n) : m = n :=
  toDigits_injective (by decide) le_rfl (String.ofList_injective h)

theorem exists_digitChar_of_mem (one_lt : 1 < base) {n : Nat} {c : Char}
    (hc : c ∈ Nat.toDigits base n) : ∃ d < base, c = Nat.digitChar d := by
  induction n using Nat.strong_induction_on with
  | _ n ih =>
    rw [Nat.toDigits_eq_if one_lt] at hc
    split at hc
    case isTrue h => exact ⟨n, h, List.mem_singleton.1 hc⟩
    case isFalse h =>
      rcases List.mem_append.1 hc with hfront | hlast
      · exact ih (n / base) (Nat.div_lt_self (by omega) one_lt) hfront
      · exact ⟨n % base, Nat.mod_lt n (by omega), List.mem_singleton.1 hlast⟩

theorem isAlphanum_of_mem_hex {n : Nat} {c : Char} (hc : c ∈ (hex n).toList) :
    c.isAlphanum = true := by
  have digit : ∀ d < 16, (Nat.digitChar d).isAlphanum = true := by decide
  rw [hex, String.toList_ofList] at hc
  obtain ⟨d, hd, rfl⟩ := exists_digitChar_of_mem (by decide) hc
  exact digit d hd

/-! ## Decimal numbers -/

theorem isDigit_of_mem_repr {n : Nat} {c : Char} (hc : c ∈ n.repr.toList) : c.isDigit = true := by
  rw [Nat.repr_eq_ofList_toDigits, String.toList_ofList] at hc
  exact Nat.isDigit_of_mem_toDigits (by decide) (by decide) hc

theorem repr_injective {m n : Nat} (h : m.repr = n.repr) : m = n := by
  rw [Nat.repr_eq_ofList_toDigits, Nat.repr_eq_ofList_toDigits] at h
  exact toDigits_injective (by decide) (by decide) (String.ofList_injective h)

theorem decimal_of_nonneg {i : Int} (h : 0 ≤ i) : toString i = i.toNat.repr := by
  rw [Int.toString_eq_repr, Int.repr_eq_if, if_pos h]

theorem decimal_of_neg {i : Int} (h : i < 0) : toString i = "-" ++ (-i).toNat.repr := by
  rw [Int.toString_eq_repr, Int.repr_eq_if, if_neg (by omega)]

theorem mem_decimal {i : Int} {c : Char} (hc : c ∈ (toString i).toList) :
    c = '-' ∨ c.isDigit = true := by
  rcases lt_or_ge i 0 with hneg | hnonneg
  · rw [decimal_of_neg hneg, String.toList_append, List.mem_append] at hc
    rcases hc with hsign | hn
    · exact .inl (List.mem_singleton.1 hsign)
    · exact .inr (isDigit_of_mem_repr hn)
  · rw [decimal_of_nonneg hnonneg] at hc
    exact .inr (isDigit_of_mem_repr hc)

theorem blank_not_mem_decimal (i : Int) : ' ' ∉ (toString i).toList := fun hblank =>
  absurd (mem_decimal hblank) (by decide)

theorem quote_not_mem_decimal (i : Int) : '\'' ∉ (toString i).toList := fun hquote =>
  absurd (mem_decimal hquote) (by decide)

theorem minus_mem_decimal {i : Int} : '-' ∈ (toString i).toList ↔ i < 0 := by
  constructor
  · intro hsign
    by_contra hnonneg
    rw [decimal_of_nonneg (by omega)] at hsign
    exact absurd (isDigit_of_mem_repr hsign) (by decide)
  · intro hneg
    rw [decimal_of_neg hneg, String.toList_append]
    exact List.mem_append_left _ (by decide)

theorem decimal_injective {i j : Int} (h : toString i = toString j) : i = j := by
  have hsign : i < 0 ↔ j < 0 := by rw [← minus_mem_decimal, h, minus_mem_decimal]
  rcases lt_or_ge i 0 with hneg | hnonneg
  · have hneg' := hsign.1 hneg
    rw [decimal_of_neg hneg, decimal_of_neg hneg', String.append_right_inj] at h
    have := repr_injective h
    omega
  · have hnonneg' : 0 ≤ j := by omega
    rw [decimal_of_nonneg hnonneg, decimal_of_nonneg hnonneg'] at h
    have := repr_injective h
    omega

/-! ## Escapes -/

/-- The character that an escape stands for: itself, one behind a backslash, or one given by its
number. -/
def unescape : List Char → Char
  | [c] => c
  | [_, c] => if c = 't' then '\t' else if c = 'r' then '\r' else if c = 'n' then '\n' else c
  | digits => Char.ofNat (readDigits 16 (digits.drop 3).dropLast)

theorem unescape_byNumber (c : Char) : unescape (byNumber c).toList = c := by
  have hchars : (byNumber c).toList =
      '\\' :: 'u' :: '\x7b' :: (Nat.toDigits 16 c.toNat ++ ['\x7d']) := by
    simp only [byNumber, hex, String.toList_append, String.toList_ofList]
    rfl
  rw [hchars]
  show Char.ofNat (readDigits 16 (Nat.toDigits 16 c.toNat ++ ['\x7d']).dropLast) = c
  rw [List.dropLast_concat, readDigits_toDigits (by decide) le_rfl, Char.ofNat_toNat]

theorem unescape_ascii (c : Char) : unescape (ascii c).toList = c := by
  unfold ascii
  cases hshort : shortEscape? c with
  | some s =>
    unfold shortEscape? at hshort
    split at hshort
    case h_7 => cases hshort
    all_goals
      rw [← Option.some.inj hshort]
      rfl
  | none =>
    simp only
    split
    case isTrue =>
      rw [Char.toString_eq_singleton, String.toList_singleton]
      rfl
    case isFalse => exact unescape_byNumber c

theorem ascii_injective {c d : Char} (h : ascii c = ascii d) : c = d := by
  rw [← unescape_ascii c, h, unescape_ascii]

/-! ## The last word -/

/-- The text ends in a word without blanks, behind a blank. -/
structure EndsIn (text word : String) : Prop where
  solid : ' ' ∉ word.toList
  behind : ∃ before, text = before ++ " " ++ word

theorem EndsIn.parenthesis {before word : String} (solid : ' ' ∉ word.toList) :
    EndsIn (before ++ ") " ++ word) word :=
  ⟨solid, before ++ ")", by rw [show ") " = ")" ++ " " from rfl, ← String.append_assoc]⟩

theorem EndsIn.unique {text word word' : String} (h : EndsIn text word) (h' : EndsIn text word') :
    word = word' := by
  have last : ∀ {word}, EndsIn text word →
      text.toList.reverse.takeWhile (· ≠ ' ') = word.toList.reverse := by
    rintro word ⟨solid, before, rfl⟩
    have hsolid : ∀ c ∈ word.toList.reverse, decide (c ≠ ' ') = true := by
      intro c hc
      refine decide_eq_true ?_
      rintro rfl
      exact solid (List.mem_reverse.1 hc)
    rw [String.toList_append, String.toList_append, List.reverse_append,
      List.takeWhile_append_of_pos hsolid, List.reverse_append]
    simp
  have hreverse := (last h).symm.trans (last h')
  exact String.toList_injective (List.reverse_inj.1 hreverse)

end TypeCatalog.Text
