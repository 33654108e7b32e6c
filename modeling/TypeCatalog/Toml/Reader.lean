import TypeCatalog.Toml.Date
import TypeCatalog.Toml.Node
import TypeCatalog.Toml.Quoting

/-!
# Reading settings files

Values are strings, integers of 64 bits, decimals, truth values, dates, arrays and inline tables.
Every reader answers what it has read and what follows it.
-/

namespace TypeCatalog.Toml

/-- How many arrays and inline tables may hold one another, and how many components a key may
have. -/
def nestingLimit : Nat := 79

/-! ## Ends of lines -/

/-- A comment, if there is one. -/
def comment? : List Char → Option (List Char)
  | '#' :: rest =>
    let isText (c : Char) : Bool := c ≠ '\n' && !isForbidden c
    some (rest.dropWhile isText)
  | cs => some cs

/-- The end of a line, with blanks and a comment before it. -/
def lineEnd? (cs : List Char) : Option (List Char) := do
  match ← comment? (skipBlanks cs) with
  | [] => some []
  | '\n' :: rest => some rest
  | '\r' :: '\n' :: rest => some rest
  | _ => none

/-- Blanks, comments and line breaks between the items of an array. -/
def skipLines : Nat → List Char → List Char
  | 0, cs => cs
  | n + 1, cs =>
    match skipBlanks cs with
    | '\n' :: rest => skipLines n rest
    | '\r' :: '\n' :: rest => skipLines n rest
    | '#' :: rest =>
      match lineEnd? ('#' :: rest) with
      | some rest' => skipLines n rest'
      | none => '#' :: rest
    | rest => rest

/-! ## Keys -/

def isBare (c : Char) : Bool := c.isAlphanum || c = '_' || c = '-'

def key? (cs : List Char) : Option (String × List Char) :=
  match cs with
  | '"' :: rest => do
    let (found, after) ← singleLine? '"' (cs.length + 1) rest
    return (String.ofList found, after)
  | '\'' :: rest => do
    let (found, after) ← singleLine? '\'' (cs.length + 1) rest
    return (String.ofList found, after)
  | _ =>
    let bare := cs.takeWhile isBare
    if bare = [] then none else some (String.ofList bare, cs.dropWhile isBare)

def components? : Nat → List Char → Option (List String × List Char)
  | 0, _ => none
  | n + 1, cs => do
    let (key, rest) ← key? (skipBlanks cs)
    match skipBlanks rest with
    | '.' :: rest' => do
      let (path, after) ← components? n rest'
      return (key :: path, after)
    | rest' => some ([key], rest')

/-- A key of components with points between them. -/
def path? (cs : List Char) : Option (List String × List Char) := do
  let (path, rest) ← components? cs.length cs
  if path.length ≤ nestingLimit then some (path, rest) else none

/-! ## Numbers -/

/-- Digits with single underscores between them. -/
def digits? (isDigit : Char → Bool) : List Char → Option (List Char)
  | [] => none
  | [c] => if isDigit c then some [c] else none
  | c :: '_' :: rest => if isDigit c then (digits? isDigit rest).map (c :: ·) else none
  | c :: rest => if isDigit c then (digits? isDigit rest).map (c :: ·) else none

def isHexDigit (c : Char) : Bool := (Text.hexValue? c).isSome

def valueOf (base : Nat) (ds : List Char) : Nat :=
  ds.foldl (fun n c => base * n + (Text.hexValue? c).getD 0) 0

/-- An integer that fits in 64 bits with its sign. -/
def integer (negative : Bool) (n : Nat) : Option Tree :=
  if n < 0x8000000000000000 ∨ (negative ∧ n = 0x8000000000000000) then
    some (.number { Numeral.ofNat n with negative := negative && n ≠ 0 })
  else none

def numerals (ds : List Char) : List Nat := ds.map fun c => c.toNat - '0'.toNat

/-- Digits without a zero in front of others. -/
def whole? (cs : List Char) : Option (List Char) := do
  let ds ← digits? Char.isDigit cs
  if 1 < ds.length ∧ ds.head? = some '0' then none else some ds

def exponent? (cs : List Char) : Option (Bool × List Nat) :=
  match cs with
  | '-' :: rest => do return (true, numerals (← digits? Char.isDigit rest))
  | '+' :: rest => do return (false, numerals (← digits? Char.isDigit rest))
  | _ => do return (false, numerals (← digits? Char.isDigit cs))

def isMark (c : Char) : Bool := c = 'e' || c = 'E'

/-- The greatest power of ten that is a number. -/
def greatestExponent : Int := 308

/-- Whether a number of digits with an exponent rounds to infinity. -/
def isTooLarge (whole fraction : List Nat) (exponent : Int) : Bool :=
  let digits := (whole ++ fraction).dropWhile (· = 0)
  let shift := exponent - fraction.length
  let leading := digits.length + shift - 1
  if digits = [] ∨ leading < greatestExponent then false
  else if greatestExponent + 1 < leading then true
  else
    let n := Numeral.valueOf digits
    let x :=
      if 0 ≤ shift then Double.ofNat (n * Nat.pow 10 shift.toNat)
      else Double.ofRatio n (Nat.pow 10 shift.natAbs)
    x.isInfinite

/-- A number with a point or an exponent. It may be too small or too far below zero, but not too
large. -/
def decimal? (negative : Bool) (cs : List Char) : Option Tree := do
  let mantissa := cs.takeWhile fun c => !isMark c
  let whole ← (whole? (mantissa.takeWhile (· ≠ '.'))).map numerals
  let fraction ←
    match mantissa.dropWhile (· ≠ '.') with
    | [] => some []
    | _ :: ds => (digits? Char.isDigit ds).map numerals
  let exponent ←
    match cs.dropWhile fun c => !isMark c with
    | [] => some none
    | _ :: e => (exponent? e).map some
  let e : Int :=
    match exponent with
    | none => 0
    | some (down, ds) => if down then -Numeral.valueOf ds else Numeral.valueOf ds
  if !negative && isTooLarge whole fraction e then none
  else some (.number ⟨negative, whole, fraction, exponent⟩)

def unsigned? (negative : Bool) (cs : List Char) : Option Tree :=
  if cs.any fun c => c = '.' || isMark c then decimal? negative cs
  else do integer negative (valueOf 10 (← whole? cs))

def number? : List Char → Option Tree
  | '0' :: 'x' :: ds => do integer false (valueOf 16 (← digits? isHexDigit ds))
  | '0' :: 'o' :: ds => do
    integer false (valueOf 8 (← digits? (fun c => c.isDigit && c < '8') ds))
  | '0' :: 'b' :: ds => do
    integer false (valueOf 2 (← digits? (fun c => c = '0' || c = '1') ds))
  | '-' :: ds => unsigned? true ds
  | '+' :: ds => unsigned? false ds
  | ds => unsigned? false ds

def isScalar (c : Char) : Bool := isBare c || c = '+' || c = '.'

/-- A value that is no number to any setting: an infinite one, or one that is not a number. -/
def beyond (negative : Bool) : Tree := .number ⟨negative, [1], [], some (false, [9, 9, 9])⟩

/-- The values that are written as a word. -/
def words : List (String × Tree) :=
  [("true", .bool true), ("false", .bool false), ("inf", beyond false), ("+inf", beyond false),
    ("-inf", beyond true), ("nan", beyond false), ("+nan", beyond false), ("-nan", beyond true)]

/-- A number or a word. -/
def scalar? (cs : List Char) : Option (Tree × List Char) := do
  let word := cs.takeWhile isScalar
  let t ← (words.lookup (String.ofList word)).or (number? word)
  return (t, cs.dropWhile isScalar)

/-! ## Values -/

mutual

/-- A value that holds at most `depth` containers in one another. A date has no fields. -/
def value? : Nat → Nat → List Char → Option (Tree × List Char)
  | 0, _, _ => none
  | n + 1, depth, cs =>
    match cs, depth with
    | '[' :: _, 0 => none
    | '[' :: rest, inner + 1 => do
      let (items, after) ← items? n inner (skipLines rest.length rest)
      return (.array items, after)
    | '\x7b' :: _, 0 => none
    | '\x7b' :: rest, inner + 1 =>
      match skipBlanks rest with
      | '\x7d' :: after => some (.object [], after)
      | rest' => do
        let (fields, after) ← fields? n inner [] rest'
        return (.object (toFields fields), after)
    | '"' :: _, _ | '\'' :: _, _ => do
      let (s, after) ← string? cs
      return (.string (some s), after)
    | _, _ =>
      match date? cs with
      | some after => some (.object [], after)
      | none => scalar? cs

/-- The items of an array up to its end. A comma may stand behind the last one. -/
def items? : Nat → Nat → List Char → Option (List Tree × List Char)
  | 0, _, _ => none
  | n + 1, depth, cs =>
    match cs with
    | ']' :: after => some ([], after)
    | _ => do
      let (item, rest) ← value? n depth cs
      match skipLines rest.length rest with
      | ',' :: rest' => do
        let (items, after) ← items? n depth (skipLines rest'.length rest')
        return (item :: items, after)
      | ']' :: after => some ([item], after)
      | _ => none

/-- The fields of an inline table up to its end. -/
def fields? : Nat → Nat → Fields → List Char → Option (Fields × List Char)
  | 0, _, _, _ => none
  | n + 1, depth, fields, cs => do
    let (path, rest) ← path? cs
    match rest with
    | '=' :: rest => do
      let (t, rest) ← value? n depth (skipBlanks rest)
      let fields ← bind t path fields
      match skipBlanks rest with
      | ',' :: rest => fields? n depth fields (skipBlanks rest)
      | '\x7d' :: after => some (fields, after)
      | _ => none
    | _ => none

end

/-! ## Statements -/

def header? (cs : List Char) : Option (Statement × List Char) :=
  match cs with
  | '[' :: rest => do
    let (path, rest) ← path? rest
    match rest with
    | ']' :: ']' :: after => some (.listHeader path, after)
    | _ => none
  | _ => do
    let (path, rest) ← path? cs
    match rest with
    | ']' :: after => some (.header path, after)
    | _ => none

def entry? (cs : List Char) : Option (Statement × List Char) := do
  let (path, rest) ← path? cs
  match rest with
  | '=' :: rest => do
    let (t, after) ← value? rest.length nestingLimit (skipBlanks rest)
    return (.entry path t, after)
  | _ => none

/-- The statements of a text, one on a line. -/
def statements? : Nat → List Char → Option (List Statement)
  | 0, _ => none
  | n + 1, cs =>
    match skipBlanks cs with
    | [] => some []
    | '\n' :: rest => statements? n rest
    | '\r' :: '\n' :: rest => statements? n rest
    | '#' :: rest => do statements? n (← lineEnd? ('#' :: rest))
    | '[' :: rest => do
      let (s, after) ← header? rest
      return s :: (← statements? n (← lineEnd? after))
    | rest => do
      let (s, after) ← entry? rest
      return s :: (← statements? n (← lineEnd? after))

/-- The text without a byte order mark in front. -/
def withoutMark : List Char → List Char
  | '\uFEFF' :: rest => rest
  | cs => cs

/-- The tree of a settings file. -/
def ofText? (s : String) : Option Tree := do
  treeOf? (← statements? (s.length + 1) (withoutMark s.toList))

end TypeCatalog.Toml
