import TypeCatalog.Text.Extender
import TypeCatalog.Text.Hex
import TypeCatalog.Text.Ignorable
import TypeCatalog.Text.Printable

/-!
# Escapes

How a character is shown between quotes.
-/

namespace TypeCatalog.Text

/-- A character by its number, such as `\u{e9}`. -/
def byNumber (c : Char) : String :=
  "\\u\x7b" ++ hex c.toNat ++ "\x7d"

/-- The escape of a character that has one of its own. -/
def shortEscape? : Char → Option String
  | '\t' => some "\\t"
  | '\r' => some "\\r"
  | '\n' => some "\\n"
  | '\'' => some "\\'"
  | '"' => some "\\\""
  | '\\' => some "\\\\"
  | _ => none

/-- A character as printable ASCII. -/
def ascii (c : Char) : String :=
  match shortEscape? c with
  | some s => s
  | none => if 0x20 ≤ c.toNat ∧ c.toNat ≤ 0x7E then c.toString else byNumber c

/-- The halfwidth sound marks of kana, the only extenders that are letters. -/
def isSoundMark (c : Char) : Bool := c = '\uFF9E' || c = '\uFF9F'

/-- Whether a character shows by itself. -/
def isShown (c : Char) : Bool :=
  isPrintable c && !isIgnorable c && (!isExtender c || isSoundMark c)

/-- A character of a quoted name. It stays as it is if it shows by itself, single quotes
included. -/
def inName (c : Char) : String :=
  if c = '\x00' then "\\0"
  else if c = '\'' then "'"
  else
    match shortEscape? c with
    | some s => s
    | none => if isShown c then c.toString else byNumber c

/-- A name between quotes. -/
def quotedName (s : String) : String := "\"" ++ String.join (s.toList.map inName) ++ "\""

end TypeCatalog.Text
