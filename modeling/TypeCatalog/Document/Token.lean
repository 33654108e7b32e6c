import TypeCatalog.Document.Tree
import TypeCatalog.Text.Hex

/-!
# Tokens of a document

Blanks separate tokens and mean nothing. A number ends where it cannot go on.
-/

namespace TypeCatalog

inductive Token where
  | openArray
  | closeArray
  | openObject
  | closeObject
  | colon
  | comma
  | null
  | bool (b : Bool)
  | number (n : Numeral)
  | string (s : Option String)
deriving DecidableEq

namespace Token

/-! ## Strings -/

def isHighSurrogate (u : Nat) : Bool := 0xD800 ≤ u && u < 0xDC00

def isLowSurrogate (u : Nat) : Bool := 0xDC00 ≤ u && u < 0xE000

def joinSurrogates (high low : Nat) : Char :=
  Char.ofNat (0x10000 + (high - 0xD800) * 0x400 + (low - 0xDC00))

/-- The characters that code units stand for, if every surrogate has its partner. -/
def characters? : List Nat → Option (List Char)
  | [] => some []
  | u :: rest =>
    if isLowSurrogate u then none
    else if isHighSurrogate u then
      match rest with
      | v :: rest' =>
        if isLowSurrogate v then (characters? rest').map (joinSurrogates u v :: ·) else none
      | [] => none
    else (characters? rest).map (Char.ofNat u :: ·)

/-- The code unit with four hexadecimal digits. -/
def hexUnit? (a b c d : Char) : Option Nat := do
  return 0x1000 * (← Text.hexValue? a) + 0x100 * (← Text.hexValue? b) +
    0x10 * (← Text.hexValue? c) + (← Text.hexValue? d)

/-- The character that a letter behind a backslash stands for. -/
def escaped? : Char → Option Char
  | '"' => some '"'
  | '\\' => some '\\'
  | '/' => some '/'
  | 'b' => some '\x08'
  | 'f' => some '\x0c'
  | 'n' => some '\n'
  | 'r' => some '\r'
  | 't' => some '\t'
  | _ => none

/-- The code units up to the closing quote, and what follows it. -/
def stringUnits? : List Char → Option (List Nat × List Char)
  | [] => none
  | '"' :: rest => some ([], rest)
  | '\\' :: 'u' :: a :: b :: c :: d :: rest => do
    let unit ← hexUnit? a b c d
    let (units, rest') ← stringUnits? rest
    return (unit :: units, rest')
  | '\\' :: e :: rest => do
    let c ← escaped? e
    let (units, rest') ← stringUnits? rest
    return (c.toNat :: units, rest')
  | c :: rest =>
    if c = '\\' ∨ c.toNat < 0x20 then none
    else do
      let (units, rest') ← stringUnits? rest
      return (c.toNat :: units, rest')

/-- The string behind an opening quote. -/
def string? (cs : List Char) : Option (Token × List Char) := do
  let (units, rest) ← stringUnits? cs
  return (.string ((characters? units).map String.ofList), rest)

/-! ## Numbers -/

/-- The digits in front, one at least, and what follows them. -/
def digits? (cs : List Char) : Option (List Nat × List Char) :=
  let found := cs.takeWhile Char.isDigit
  if found = [] then none
  else some (found.map fun c => c.toNat - '0'.toNat, cs.dropWhile Char.isDigit)

/-- A zero alone, or digits without a zero in front. -/
def whole? : List Char → Option (List Nat × List Char)
  | '0' :: rest => some ([0], rest)
  | cs => digits? cs

/-- The digits behind a point, if there is a point. -/
def fraction? : List Char → Option (List Nat × List Char)
  | '.' :: rest => digits? rest
  | cs => some ([], cs)

def exponentSign : List Char → Bool × List Char
  | '-' :: rest => (true, rest)
  | '+' :: rest => (false, rest)
  | cs => (false, cs)

/-- The exponent, if there is an `e`. -/
def exponent? : List Char → Option (Option (Bool × List Nat) × List Char)
  | [] => some (none, [])
  | c :: rest =>
    if c = 'e' ∨ c = 'E' then do
      let (ds, rest') ← digits? (exponentSign rest).2
      return (some ((exponentSign rest).1, ds), rest')
    else some (none, c :: rest)

def number? (negative : Bool) (cs : List Char) : Option (Token × List Char) := do
  let (whole, afterWhole) ← whole? cs
  let (fraction, afterFraction) ← fraction? afterWhole
  let (exponent, rest) ← exponent? afterFraction
  return (.number ⟨negative, whole, fraction, exponent⟩, rest)

/-! ## Tokens -/

def isBlank (c : Char) : Bool := c = ' ' || c = '\t' || c = '\n' || c = '\r'

/-- The token in front, and what follows it. -/
def first? : List Char → Option (Token × List Char)
  | '[' :: rest => some (.openArray, rest)
  | ']' :: rest => some (.closeArray, rest)
  | '\x7b' :: rest => some (.openObject, rest)
  | '\x7d' :: rest => some (.closeObject, rest)
  | ':' :: rest => some (.colon, rest)
  | ',' :: rest => some (.comma, rest)
  | 'n' :: 'u' :: 'l' :: 'l' :: rest => some (.null, rest)
  | 't' :: 'r' :: 'u' :: 'e' :: rest => some (.bool true, rest)
  | 'f' :: 'a' :: 'l' :: 's' :: 'e' :: rest => some (.bool false, rest)
  | '"' :: rest => string? rest
  | '-' :: rest => number? true rest
  | cs => number? false cs

/-! ## The rest of a text is shorter -/

theorem length_stringUnits {cs rest : List Char} {units : List Nat}
    (h : stringUnits? cs = some (units, rest)) : rest.length < cs.length := by
  fun_induction stringUnits? cs generalizing units rest <;>
    simp_all [Option.bind_eq_some_iff] <;> grind

theorem length_digits {cs rest : List Char} {ds : List Nat} (h : digits? cs = some (ds, rest)) :
    rest.length < cs.length := by
  have total := congrArg List.length (List.takeWhile_append_dropWhile (p := Char.isDigit) (l := cs))
  simp only [digits?] at h
  split at h
  · cases h
  · next hne =>
    cases h
    have := List.length_pos_iff.2 hne
    simp only [List.length_append] at total
    omega

theorem length_whole {cs rest : List Char} {ds : List Nat} (h : whole? cs = some (ds, rest)) :
    rest.length < cs.length := by
  unfold whole? at h
  split at h
  · cases h; simp
  · exact length_digits h

theorem length_fraction {cs rest : List Char} {ds : List Nat}
    (h : fraction? cs = some (ds, rest)) : rest.length ≤ cs.length := by
  unfold fraction? at h
  split at h
  · have := length_digits h
    simp only [List.length_cons]
    omega
  · cases h; exact Nat.le_refl _

theorem length_exponentSign (cs : List Char) : (exponentSign cs).2.length ≤ cs.length := by
  unfold exponentSign
  split <;> simp

theorem length_exponent {cs rest : List Char} {e : Option (Bool × List Nat)}
    (h : exponent? cs = some (e, rest)) : rest.length ≤ cs.length := by
  unfold exponent? at h
  split at h
  · cases h; exact Nat.le_refl _
  · next c tail =>
    split at h
    · obtain ⟨⟨ds, rest'⟩, hd, he⟩ := Option.bind_eq_some_iff.1 h
      cases he
      have := length_digits hd
      have := length_exponentSign tail
      simp only [List.length_cons]
      omega
    · cases h; exact Nat.le_refl _

theorem length_number {negative : Bool} {cs rest : List Char} {t : Token}
    (h : number? negative cs = some (t, rest)) : rest.length < cs.length := by
  unfold number? at h
  obtain ⟨⟨whole, afterWhole⟩, hw, h⟩ := Option.bind_eq_some_iff.1 h
  obtain ⟨⟨fraction, afterFraction⟩, hf, h⟩ := Option.bind_eq_some_iff.1 h
  obtain ⟨⟨exponent, rest'⟩, he, h⟩ := Option.bind_eq_some_iff.1 h
  cases h
  have := length_whole hw
  have := length_fraction hf
  have := length_exponent he
  omega

theorem length_string {cs rest : List Char} {t : Token} (h : string? cs = some (t, rest)) :
    rest.length < cs.length := by
  unfold string? at h
  obtain ⟨⟨units, rest'⟩, hu, h⟩ := Option.bind_eq_some_iff.1 h
  cases h
  exact length_stringUnits hu

theorem length_first {cs rest : List Char} {t : Token} (h : first? cs = some (t, rest)) :
    rest.length < cs.length := by
  unfold first? at h
  split at h
  case h_10 =>
    have := length_string h
    simp only [List.length_cons]
    omega
  case h_11 =>
    have := length_number h
    simp only [List.length_cons]
    omega
  case h_12 => exact length_number h
  all_goals (cases h; simp only [List.length_cons]; omega)

/-- The tokens of a text, put behind those that were found before. -/
def scan (found : List Token) (cs : List Char) : Option (List Token) :=
  match cs with
  | [] => some found.reverse
  | c :: rest =>
    if isBlank c then scan found rest
    else
      match _h : first? (c :: rest) with
      | none => none
      | some (t, rest') => scan (t :: found) rest'
termination_by cs.length
decreasing_by
  · simp
  · exact length_first ‹_›

/-- The tokens of a text. -/
def ofText? (s : String) : Option (List Token) := scan [] s.toList

end Token

end TypeCatalog
