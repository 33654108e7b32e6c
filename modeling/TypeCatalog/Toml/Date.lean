/-!
# Dates and times in settings files

A date, a time of day, or both, with an offset after them or not. No setting is a date, so readers
only answer what follows one.
-/

namespace TypeCatalog.Toml

/-- A number of `width` digits between two bounds, and what follows it. -/
def bounded? (width low high : Nat) (cs : List Char) : Option (Nat × List Char) :=
  let digits := cs.take width
  let n := digits.foldl (fun n c => 10 * n + (c.toNat - '0'.toNat)) 0
  if digits.length = width ∧ digits.all Char.isDigit ∧ low ≤ n ∧ n ≤ high then
    some (n, cs.drop width)
  else none

def behind? (c : Char) : List Char → Option (List Char)
  | d :: rest => if d = c then some rest else none
  | [] => none

def isLeapYear (year : Nat) : Bool := year % 4 = 0 && (year % 100 ≠ 0 || year % 400 = 0)

def daysIn (year month : Nat) : Nat :=
  if month = 2 then if isLeapYear year then 29 else 28
  else if month ∈ [4, 6, 9, 11] then 30
  else 31

def day? (cs : List Char) : Option (List Char) := do
  let (year, cs) ← bounded? 4 0 9999 cs
  let (month, cs) ← bounded? 2 1 12 (← behind? '-' cs)
  let (_, cs) ← bounded? 2 1 (daysIn year month) (← behind? '-' cs)
  return cs

/-- Hours and minutes. -/
def clock? (cs : List Char) : Option (List Char) := do
  let (_, cs) ← bounded? 2 0 23 cs
  let (_, cs) ← bounded? 2 0 59 (← behind? ':' cs)
  return cs

/-- What follows a point with digits behind it, or the text itself. -/
def skipFraction : List Char → List Char
  | '.' :: c :: rest => if c.isDigit then rest.dropWhile Char.isDigit else '.' :: c :: rest
  | cs => cs

/-- Hours, minutes and seconds. A second may be a leap second. -/
def time? (cs : List Char) : Option (List Char) := do
  let (_, cs) ← bounded? 2 0 60 (← behind? ':' (← clock? cs))
  return skipFraction cs

/-- What follows an offset, or the text itself. -/
def skipOffset (cs : List Char) : List Char :=
  match cs with
  | c :: rest =>
    if c = 'Z' ∨ c = 'z' then rest
    else if c = '+' ∨ c = '-' then (clock? rest).getD cs
    else cs
  | [] => []

/-- What follows a time, if one stands behind a date. -/
def timeBehindDay? : List Char → Option (List Char)
  | c :: rest => if c = 'T' ∨ c = 't' ∨ c = ' ' then (time? rest).map skipOffset else none
  | [] => none

/-- What follows a date or a time. -/
def date? (cs : List Char) : Option (List Char) :=
  match day? cs with
  | some rest => some ((timeBehindDay? rest).getD rest)
  | none => time? cs

end TypeCatalog.Toml
