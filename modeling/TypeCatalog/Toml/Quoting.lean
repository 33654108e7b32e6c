import TypeCatalog.Text.Hex

/-!
# Strings in settings files

A string stands between double quotes with escapes, or between single quotes without any. Tripled
quotes allow line breaks; one right behind the opening quotes does not count.
-/

namespace TypeCatalog.Toml

/-! ## Reading -/

/-- Whether a character may not stand in a string or a comment. Line breaks are seen to apart. -/
def isForbidden (c : Char) : Bool :=
  (c.toNat < 0x20 && c ≠ '\t') || c.toNat = 0x7F

/-- The character with a number in hexadecimal digits. -/
def byNumber? (digits : List Char) : Option Char := do
  let n ← digits.foldlM (fun n c => do return 16 * n + (← Text.hexValue? c)) 0
  if n.isValidChar then some (Char.ofNat n) else none

def escaped? : Char → Option Char
  | 'b' => some '\x08'
  | 't' => some '\t'
  | 'n' => some '\n'
  | 'f' => some '\x0c'
  | 'r' => some '\r'
  | '"' => some '"'
  | '\\' => some '\\'
  | _ => none

/-- An escape behind its backslash, and what follows it. -/
def escape? : List Char → Option (Char × List Char)
  | 'u' :: a :: b :: c :: d :: rest => do return (← byNumber? [a, b, c, d], rest)
  | 'U' :: a :: b :: c :: d :: e :: f :: g :: h :: rest => do
    return (← byNumber? [a, b, c, d, e, f, g, h], rest)
  | c :: rest => do return (← escaped? c, rest)
  | [] => none

def isBlank (c : Char) : Bool := c = ' ' || c = '\t'

def skipBlanks (cs : List Char) : List Char := cs.dropWhile isBlank

/-- The text without the blanks and line breaks in front of it. -/
def skipBlankLines : List Char → List Char
  | ' ' :: rest => skipBlankLines rest
  | '\t' :: rest => skipBlankLines rest
  | '\n' :: rest => skipBlankLines rest
  | '\r' :: '\n' :: rest => skipBlankLines rest
  | cs => cs

/-- A backslash at the end of a line: the text without blanks and line breaks up to the next
character. -/
def joined? (cs : List Char) : Option (List Char) :=
  match skipBlanks cs with
  | '\n' :: rest => some (skipBlankLines rest)
  | '\r' :: '\n' :: rest => some (skipBlankLines rest)
  | _ => none

/-- The characters of a string on one line, up to its closing quote. -/
def singleLine? (quote : Char) : Nat → List Char → Option (List Char × List Char)
  | 0, _ => none
  | _ + 1, [] => none
  | n + 1, c :: rest =>
    if c = quote then some ([], rest)
    else if c = '\\' ∧ quote = '"' then do
      let (e, rest') ← escape? rest
      let (cs, after) ← singleLine? quote n rest'
      return (e :: cs, after)
    else if isForbidden c then none
    else do
      let (cs, after) ← singleLine? quote n rest
      return (c :: cs, after)

/-- The characters of a string between tripled quotes. Up to two quotes right before the closing
ones belong to the string. -/
def multiLine? (quote : Char) : Nat → List Char → Option (List Char × List Char)
  | 0, _ => none
  | _ + 1, [] => none
  | n + 1, c :: rest =>
    let quotes := (c :: rest).takeWhile (· = quote)
    if 3 ≤ quotes.length then
      if quotes.length ≤ 5 then some (quotes.drop 3, (c :: rest).drop quotes.length) else none
    else if c = '\\' ∧ quote = '"' then
      match joined? rest with
      | some rest' => multiLine? quote n rest'
      | none => do
        let (e, rest') ← escape? rest
        let (cs, after) ← multiLine? quote n rest'
        return (e :: cs, after)
    else if c = '\r' then
      match rest with
      | '\n' :: rest' => do
        let (cs, after) ← multiLine? quote n rest'
        return ('\n' :: cs, after)
      | _ => none
    else if isForbidden c ∧ c ≠ '\n' then none
    else do
      let (cs, after) ← multiLine? quote n rest
      return (c :: cs, after)

/-- The text behind tripled quotes, without a line break in front. -/
def withoutBreak : List Char → List Char
  | '\n' :: rest => rest
  | '\r' :: '\n' :: rest => rest
  | cs => cs

/-- A string with its quotes, and what follows it. -/
def string? (cs : List Char) : Option (String × List Char) := do
  let (found, rest) ←
    match cs with
    | '"' :: '"' :: '"' :: rest => multiLine? '"' (cs.length + 1) (withoutBreak rest)
    | '\'' :: '\'' :: '\'' :: rest => multiLine? '\'' (cs.length + 1) (withoutBreak rest)
    | '"' :: rest => singleLine? '"' (cs.length + 1) rest
    | '\'' :: rest => singleLine? '\'' (cs.length + 1) rest
    | _ => none
  return (String.ofList found, rest)

/-! ## Writing -/

/-- What of a text matters for the choice of quotes. -/
structure Makeup where
  /-- The longest runs of single and of double quotes. -/
  singleQuotes : Nat
  doubleQuotes : Nat
  hasBackslash : Bool
  hasLineBreak : Bool
  hasControl : Bool

/-- The length of the longest run of a character. -/
def longestRun (c : Char) (cs : List Char) : Nat :=
  (cs.foldl (fun (run, longest) d =>
    if d = c then (run + 1, max longest (run + 1)) else (0, longest)) (0, 0)).2

def Makeup.of (cs : List Char) : Makeup where
  singleQuotes := longestRun '\'' cs
  doubleQuotes := longestRun '"' cs
  hasBackslash := cs.any (· = '\\')
  hasLineBreak := cs.any (· = '\n')
  hasControl := cs.any fun c => isForbidden c && c ≠ '\n'

/-- A character between double quotes. -/
def escape (multiLine : Bool) (c : Char) : String :=
  if c = '"' then "\\\""
  else if c = '\\' then "\\\\"
  else if c = '\n' then if multiLine then "\n" else "\\n"
  else if c = '\x08' then "\\b"
  else if c = '\t' then "\\t"
  else if c = '\x0c' then "\\f"
  else if c = '\r' then "\\r"
  else if isForbidden c then "\\u" ++ (Text.hexOfWidth 4 c.toNat).map Char.toUpper
  else c.toString

/-- The pieces of a text between double quotes. Between tripled ones up to two quotes stand side by
side as they are, and the next one is escaped; `run` counts them. -/
def pieces (multiLine : Bool) (run : Nat) : List Char → List String
  | [] => []
  | c :: rest =>
    if c = '"' ∧ multiLine ∧ run < 2 then "\"" :: pieces multiLine (run + 1) rest
    else escape multiLine c :: pieces multiLine 0 rest

/-- A text between quotes. The plainest kind of quotes that needs no escapes is taken. -/
def quoted (s : String) : String :=
  let cs := s.toList
  let m := Makeup.of cs
  let lead := if m.hasLineBreak then "\n" else ""
  let plain := "\"" ++ String.join (pieces false 0 cs) ++ "\""
  let tripled := "\"\"\"" ++ lead ++ String.join (pieces true 0 cs) ++ "\"\"\""
  if !m.hasControl && !m.hasBackslash && m.doubleQuotes = 0 && !m.hasLineBreak then plain
  else if !m.hasControl && m.singleQuotes = 0 && !m.hasLineBreak then "'" ++ s ++ "'"
  else if !m.hasControl && !m.hasBackslash && m.doubleQuotes ≤ 2 then tripled
  else if !m.hasControl && m.singleQuotes ≤ 2 then "'''" ++ lead ++ s ++ "'''"
  else if m.hasLineBreak then tripled
  else plain

end TypeCatalog.Toml
