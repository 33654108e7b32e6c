/-!
# Fundamental types by name

What a fundamental type is follows from its name alone.
-/

namespace TypeCatalog

inductive FundamentalClass where
  | void
  | bool
  | character
  | signed
  | unsigned
  | floating
deriving DecidableEq

namespace FundamentalClass

def voidNames : List String := ["void", "()"]

def boolNames : List String := ["bool"]

def characterNames : List String :=
  ["char", "signed char", "unsigned char", "wchar_t", "char16_t", "char32_t"]

def signedNames : List String :=
  ["short", "short int", "signed short", "int", "signed", "signed int", "long", "long int",
    "signed long", "long long", "long long int", "signed long long", "i8", "i16", "i32", "i64",
    "i128", "isize"]

def unsignedNames : List String :=
  ["unsigned short", "unsigned short int", "unsigned", "unsigned int", "unsigned long",
    "unsigned long int", "unsigned long long", "unsigned long long int", "u8", "u16", "u32",
    "u64", "u128", "usize"]

def floatingNames : List String := ["float", "double", "long double", "f32", "f64"]

/-- The class of the fundamental type called `name`. -/
def ofName? (name : String) : Option FundamentalClass :=
  if name ∈ voidNames then some .void
  else if name ∈ boolNames then some .bool
  else if name ∈ characterNames then some .character
  else if name ∈ signedNames then some .signed
  else if name ∈ unsignedNames then some .unsigned
  else if name ∈ floatingNames then some .floating
  else none

/-- Whether values of the character type called `name` have no sign. -/
def isUnsignedCharacter (name : String) : Bool := name ∈ ["unsigned char", "char16_t", "char32_t"]

/-- Whether a type of this class may underlie an enum. -/
def isIntegral : FundamentalClass → Bool
  | .bool | .character | .signed | .unsigned => true
  | .void | .floating => false

end FundamentalClass

/-- The fundamental types of a 64-bit platform, with their sizes. -/
def builtinFundamentals : List (String × Nat) :=
  [("void", 0), ("bool", 1), ("char", 1), ("signed char", 1), ("unsigned char", 1),
    ("wchar_t", 4), ("short", 2), ("unsigned short", 2), ("int", 4), ("unsigned int", 4),
    ("long", 8), ("unsigned long", 8), ("long long", 8), ("unsigned long long", 8), ("float", 4),
    ("double", 8), ("long double", 16)]

/-- Types of the running program, with their sizes. -/
def nativeTypes : List (String × Nat) :=
  [("bool", 1), ("char", 4), ("i8", 1), ("i16", 2), ("i32", 4), ("i64", 8), ("i128", 16),
    ("isize", 8), ("u8", 1), ("u16", 2), ("u32", 4), ("u64", 8), ("u128", 16), ("usize", 8),
    ("f32", 4), ("f64", 8), ("()", 0), ("[u8; 3]", 3), ("[u8; 4]", 4)]

def nativeSize? (name : String) : Option Nat := nativeTypes.lookup name

end TypeCatalog
