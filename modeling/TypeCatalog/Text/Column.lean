/-!
# Columns

A text is filled up with spaces to the width of its column. A text that is wider stays as it is.
-/

namespace TypeCatalog.Text

def spaces (n : Nat) : String := String.ofList (List.replicate n ' ')

/-- The text at the left edge of a column. -/
def left (width : Nat) (s : String) : String := s ++ spaces (width - s.length)

/-- The text at the right edge of a column. -/
def right (width : Nat) (s : String) : String := spaces (width - s.length) ++ s

/-- The first `width` characters. -/
def cut (width : Nat) (s : String) : String := String.ofList (s.toList.take width)

/-- A line of text. -/
def line (s : String) : String := s ++ "\n"

def lines (ls : List String) : String := String.join (ls.map line)

end TypeCatalog.Text
