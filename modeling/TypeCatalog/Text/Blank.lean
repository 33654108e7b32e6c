import TypeCatalog.Text.Runs

/-!
# Blanks

The characters with the Unicode property White_Space.
-/

namespace TypeCatalog.Text

def blankRuns : Runs :=
  [(0x09, 0x0D), (0x20, 0x20), (0x85, 0x85), (0xA0, 0xA0), (0x1680, 0x1680), (0x2000, 0x200A),
    (0x2028, 0x2029), (0x202F, 0x202F), (0x205F, 0x205F), (0x3000, 0x3000)]

def isBlank (c : Char) : Bool := blankRuns.has c

/-- The text without blanks at both ends. -/
def trim (cs : List Char) : List Char :=
  ((cs.dropWhile isBlank).reverse.dropWhile isBlank).reverse

/-- The text before the first blank and the text behind that blank. -/
def cutAtBlank (cs : List Char) : List Char × List Char :=
  (cs.takeWhile fun c => !isBlank c, (cs.dropWhile fun c => !isBlank c).drop 1)

end TypeCatalog.Text
