import TypeCatalog.Document.Json
import TypeCatalog.Document.Structure

/-!
# Compact texts

The compact text of a value is read as the tree of the value. Doubles are left out: of the numbers
only integers are followed through their digits.
-/

namespace TypeCatalog

/-- The numeral of an integer. A double has none here. -/
def Number.numeral : Number → Numeral
  | .natural n => .ofNat n.toNat
  | .negative i => .ofDigits true (Numeral.ofNat i.toInt.natAbs).whole
  | .floating _ => ⟨false, [], [], none⟩

/-- The number is an integer, and a negative one only if it has to be. -/
def Number.Whole : Number → Prop
  | .natural _ => True
  | .negative i => i.toInt < 0
  | .floating _ => False

namespace Numeral

theorem valueOf_ofNat (n : Nat) : valueOf (ofNat n).whole = n := by
  rw [ofNat, ofDigits, valueOf, List.foldl_map]
  exact Nat.ofDigitChars_toDigits (by decide) (by decide)

theorem number?_ofNat {n : Nat} (h : n < 0x10000000000000000) :
    (ofNat n).number? = some (.natural (UInt64.ofNat n)) := by
  unfold number?
  simp only [valueOf_ofNat]
  rw [if_pos ⟨rfl, h⟩]
  rfl

theorem number?_negative {n : Nat} (pos : 0 < n) (h : n ≤ 0x8000000000000000) :
    (ofDigits true (ofNat n).whole).number? = some (.negative (Int64.ofInt (-n))) := by
  have hvalue : valueOf (ofDigits true (ofNat n).whole).whole = n := valueOf_ofNat n
  unfold number?
  simp only [hvalue]
  rw [if_pos ⟨rfl, by omega⟩, if_neg (by simp [ofDigits]), if_pos ⟨pos, h⟩]

end Numeral

theorem Number.number?_numeral {n : Number} (h : n.Whole) : n.numeral.number? = some n := by
  cases n with
  | natural n =>
    rw [Number.numeral, Numeral.number?_ofNat n.toNat_lt, UInt64.ofNat_toNat]
  | negative i =>
    have hneg : i.toInt < 0 := h
    have hleast := i.le_toInt
    rw [Number.numeral, Numeral.number?_negative (by omega) (by omega)]
    have hvalue : -(i.toInt.natAbs : Int) = i.toInt := by omega
    rw [hvalue, Int64.ofInt_toInt]
  | floating x => exact h.elim

namespace Token

/-- What may follow a value: the end of the text, a comma, or the end of a container. -/
def Ends (rest : List Char) : Prop := ∀ c ∈ rest.head?, c = ',' ∨ c = ']' ∨ c = '\x7d'

/-! ## Strings -/

theorem not_surrogate (c : Char) :
    isLowSurrogate c.toNat = false ∧ isHighSurrogate c.toNat = false := by
  have hvalid : c.toNat.isValidChar := c.valid
  simp only [isLowSurrogate, isHighSurrogate, Nat.isValidChar] at hvalid ⊢
  constructor
  · simp; omega
  · simp; omega

theorem characters?_map (cs : List Char) : characters? (cs.map Char.toNat) = some cs := by
  induction cs with
  | nil => rfl
  | cons c rest ih =>
    obtain ⟨hlow, hhigh⟩ := not_surrogate c
    rw [List.map_cons, characters?.eq_def]
    simp [hlow, hhigh, ih]

theorem hexUnit?_control : ∀ n < 0x20,
    (Text.hexOfWidth 2 n).toList = [(n / 16).digitChar, (n % 16).digitChar] ∧
      hexUnit? '0' '0' (n / 16).digitChar (n % 16).digitChar = some n := by
  decide

theorem stringUnits?_unit {a b c d : Char} {u : Nat} (h : hexUnit? a b c d = some u)
    (rest : List Char) : stringUnits? ('\\' :: 'u' :: a :: b :: c :: d :: rest) =
      (stringUnits? rest).map fun p => (u :: p.1, p.2) := by
  rw [stringUnits?, h]
  cases stringUnits? rest <;> rfl

theorem stringUnits?_escaped {e c : Char} (he : e ≠ 'u') (h : escaped? e = some c)
    (rest : List Char) : stringUnits? ('\\' :: e :: rest) =
      (stringUnits? rest).map fun p => (c.toNat :: p.1, p.2) := by
  rw [stringUnits?]
  · rw [h]
    cases stringUnits? rest <;> rfl
  · exact fun _ _ _ _ _ hu => absurd hu he

theorem stringUnits?_plain {c : Char} (hquote : c ≠ '"') (hslash : c ≠ '\\')
    (hcontrol : ¬c.toNat < 0x20) (rest : List Char) : stringUnits? (c :: rest) =
      (stringUnits? rest).map fun p => (c.toNat :: p.1, p.2) := by
  rw [stringUnits?]
  · rw [if_neg (by simp [hslash, hcontrol])]
    cases stringUnits? rest <;> rfl
  · exact hquote
  · exact fun _ _ _ _ _ h => absurd h hslash
  · exact fun _ _ h => absurd h hslash

theorem stringUnits?_escape (c : Char) (rest : List Char) :
    stringUnits? ((Json.escape c).toList ++ rest) =
      (stringUnits? rest).map fun p => (c.toNat :: p.1, p.2) := by
  unfold Json.escape
  -- the characters that have a letter of their own
  iterate 7
    split
    · next h => exact h ▸ stringUnits?_escaped (by decide) rfl rest
  split
  · next h =>
    obtain ⟨hdigits, hunit⟩ := hexUnit?_control c.toNat h
    rw [String.toList_append, hdigits]
    exact stringUnits?_unit hunit rest
  · next hquote hslash _ _ _ _ _ hcontrol =>
    rw [Char.toString_eq_singleton, String.toList_singleton]
    exact stringUnits?_plain hquote hslash hcontrol rest

theorem string?_quoted (s : String) (rest : List Char) :
    first? ((Json.quoted s).toList ++ rest) = some (.string (some s), rest) := by
  have hunits : ∀ cs : List Char,
      stringUnits? (cs.flatMap (fun c => (Json.escape c).toList) ++ '"' :: rest) =
        some (cs.map Char.toNat, rest) := by
    intro cs
    induction cs with
    | nil => rfl
    | cons c cs ih =>
      rw [List.flatMap_cons, List.append_assoc, stringUnits?_escape, ih]
      rfl
  have hquoted : (Json.quoted s).toList ++ rest =
      '"' :: (s.toList.flatMap (fun c => (Json.escape c).toList) ++ '"' :: rest) := by
    simp [Json.quoted, String.toList_join, List.flatMap_map]
  rw [hquoted]
  show string? _ = _
  rw [string?, hunits]
  show some (Token.string ((characters? (s.toList.map Char.toNat)).map String.ofList), rest) = _
  rw [characters?_map, Option.map_some, String.ofList_toList]

/-! ## Numbers -/

theorem head?_toDigits {n : Nat} (pos : 0 < n) : (Nat.toDigits 10 n).head? ≠ some '0' := by
  induction n using Nat.strongRecOn with
  | ind n ih =>
    rw [Nat.toDigits_eq_if (by decide)]
    split
    · next h =>
      rw [List.head?_cons, ne_eq, Option.some.injEq]
      have hdigit : ∀ d < 10, 0 < d → d.digitChar ≠ '0' := by decide
      exact hdigit n h pos
    · next h =>
      rw [List.head?_append, Option.or_of_isSome (by simp)]
      exact ih (n / 10) (by omega) (by omega)

theorem digits?_toDigits (n : Nat) {rest : List Char} (ends : Ends rest) :
    digits? (Nat.toDigits 10 n ++ rest) = some ((Numeral.ofNat n).whole, rest) := by
  have hdigits : ∀ c ∈ Nat.toDigits 10 n, c.isDigit = true :=
    fun c hc => Nat.isDigit_of_mem_toDigits (by decide) (by decide) hc
  have hrest : ∀ c ∈ rest.head?, c.isDigit = false := by
    intro c hc
    rcases ends c hc with rfl | rfl | rfl <;> rfl
  have hstop : rest.takeWhile Char.isDigit = [] ∧ rest.dropWhile Char.isDigit = rest := by
    cases rest with
    | nil => exact ⟨rfl, rfl⟩
    | cons c rest =>
      have hc := hrest c rfl
      exact ⟨List.takeWhile_cons_of_neg (by simp [hc]), List.dropWhile_cons_of_neg (by simp [hc])⟩
  rw [digits?, List.takeWhile_append_of_pos hdigits, List.dropWhile_append_of_pos hdigits,
    hstop.1, hstop.2, List.append_nil, if_neg Nat.toDigits_ne_nil]
  rfl

theorem whole?_toDigits (n : Nat) {rest : List Char} (ends : Ends rest) :
    whole? (Nat.toDigits 10 n ++ rest) = some ((Numeral.ofNat n).whole, rest) := by
  rcases Nat.eq_zero_or_pos n with rfl | pos
  · rfl
  · rw [← digits?_toDigits n ends]
    obtain ⟨c, ds, hcons⟩ := List.exists_cons_of_ne_nil (@Nat.toDigits_ne_nil n 10)
    have hhead := head?_toDigits pos
    rw [hcons] at hhead ⊢
    rw [List.cons_append, whole?]
    intro cs h
    exact hhead (congrArg some (List.cons.inj h).1)

theorem number?_toDigits (negative : Bool) (n : Nat) {rest : List Char} (ends : Ends rest) :
    number? negative (Nat.toDigits 10 n ++ rest) =
      some (.number (.ofDigits negative (Numeral.ofNat n).whole), rest) := by
  have hafter : fraction? rest = some ([], rest) ∧ exponent? rest = some (none, rest) := by
    cases rest with
    | nil => exact ⟨rfl, rfl⟩
    | cons c rest => rcases ends c rfl with rfl | rfl | rfl <;> exact ⟨rfl, rfl⟩
  simp only [number?, whole?_toDigits n ends, hafter.1, hafter.2, Option.bind_eq_bind,
    Option.bind_some]
  rfl

theorem first?_digit {c : Char} (digit : c.isDigit = true) (cs : List Char) :
    first? (c :: cs) = number? false (c :: cs) := by
  unfold first?
  split
  case h_12 => rfl
  all_goals
    next heq =>
      obtain ⟨rfl, -⟩ := List.cons.inj heq
      exact absurd digit (by decide)

theorem first?_numeral {n : Number} (whole : n.Whole) {rest : List Char} (ends : Ends rest) :
    first? (n.text.toList ++ rest) = some (.number n.numeral, rest) := by
  have htext : ∀ n : Nat, (toString n).toList = Nat.toDigits 10 n := fun n =>
    String.toList_ofList
  cases n with
  | natural n =>
    obtain ⟨c, cs, hcons⟩ := List.exists_cons_of_ne_nil (@Nat.toDigits_ne_nil n.toNat 10)
    have hdigit : c.isDigit = true :=
      Nat.isDigit_of_mem_toDigits (by decide) (by decide) (hcons ▸ List.mem_cons_self)
    rw [Number.text, htext]
    have hfirst : first? (Nat.toDigits 10 n.toNat ++ rest) =
        number? false (Nat.toDigits 10 n.toNat ++ rest) := by
      rw [hcons]
      exact first?_digit hdigit _
    exact hfirst.trans (number?_toDigits false n.toNat ends)
  | negative i =>
    have hminus : ∀ i : Int, i < 0 → (toString i).toList = '-' :: Nat.toDigits 10 i.natAbs := by
      rintro (n | n) hneg
      · exact absurd hneg (by simp)
      · show ("-" ++ toString (n + 1)).toList = _
        rw [String.toList_append, htext]
        rfl
    rw [Number.text, hminus i.toInt whole]
    exact number?_toDigits true i.toInt.natAbs ends
  | floating x => exact whole.elim

/-! ## Tokens -/

theorem first?_blank {c : Char} (blank : isBlank c = true) (cs : List Char) :
    first? (c :: cs) = none := by
  have hc : c = ' ' ∨ c = '\t' ∨ c = '\n' ∨ c = '\r' := by simpa [isBlank, or_assoc] using blank
  rcases hc with rfl | rfl | rfl | rfl <;> rfl

theorem scan_first {found : List Token} {cs rest : List Char} {t : Token}
    (first : first? cs = some (t, rest)) : scan found cs = scan (t :: found) rest := by
  cases cs with
  | nil => cases first
  | cons c tail =>
    have hblank : ¬isBlank c = true := by
      intro blank
      rw [first?_blank blank] at first
      cases first
    rw [scan, if_neg hblank]
    split
    · next h =>
      rw [first] at h
      cases h
    · next t' rest' h =>
      rw [first] at h
      obtain ⟨rfl, rfl⟩ := Prod.mk.inj (Option.some.inj h)
      rfl

end Token

/-! ## Values -/

namespace Json

mutual

/-- The tree of a value. -/
def tree : Json → Tree
  | .null => .null
  | .bool b => .bool b
  | .number n => .number n.numeral
  | .string s => .string (some s)
  | .array items => .array (trees items)
  | .object fields => .object (fieldTrees fields)

def trees : List Json → List Tree
  | [] => []
  | v :: rest => v.tree :: trees rest

def fieldTrees : List (String × Json) → List (Option String × Tree)
  | [] => []
  | (name, v) :: rest => (some name, v.tree) :: fieldTrees rest

end

theorem trees_eq (items : List Json) : trees items = items.map tree := by
  induction items with
  | nil => rfl
  | cons v rest ih => rw [trees, ih, List.map_cons]

theorem fieldTrees_eq (fields : List (String × Json)) :
    fieldTrees fields = fields.map fun f => (some f.1, f.2.tree) := by
  induction fields with
  | nil => rfl
  | cons f rest ih => rw [fieldTrees, ih, List.map_cons]

/-- The value has no doubles, and at most `levels` containers inside one another. -/
inductive Fits : Nat → Json → Prop
  | null {levels : Nat} : Fits levels .null
  | bool {levels : Nat} (b : Bool) : Fits levels (.bool b)
  | number {levels : Nat} {n : Number} (whole : n.Whole) : Fits levels (.number n)
  | string {levels : Nat} (s : String) : Fits levels (.string s)
  | array {levels : Nat} {items : List Json} (fits : ∀ v ∈ items, Fits levels v) :
    Fits (levels + 1) (.array items)
  | object {levels : Nat} {fields : List (String × Json)} (fits : ∀ f ∈ fields, Fits levels f.2) :
    Fits (levels + 1) (.object fields)

theorem exists_mapM {α β : Type} {f : α → Option β} {xs : List α}
    (h : ∀ x ∈ xs, ∃ y, f x = some y) : ∃ ys, xs.mapM f = some ys := by
  induction xs with
  | nil => exact ⟨[], rfl⟩
  | cons x rest ih =>
    obtain ⟨⟨y, hy⟩, hrest⟩ := List.forall_mem_cons.1 h
    obtain ⟨ys, hys⟩ := ih hrest
    exact ⟨y :: ys, by rw [List.mapM_cons, hy, hys]; rfl⟩

theorem Fits.exists_ofTree? {levels : Nat} {v : Json} (h : Fits levels v) :
    ∃ w, ofTree? levels v.tree = some w := by
  induction h with
  | null | bool b | string s => simp [tree, ofTree?]
  | number whole => simp [tree, ofTree?, Number.number?_numeral whole]
  | array fits ih =>
    obtain ⟨ws, hws⟩ := exists_mapM (List.forall_mem_map.2 ih)
    exact ⟨.array ws, by rw [tree, trees_eq, ofTree?, hws]; rfl⟩
  | @object levels fields fits ih =>
    have hfields : ∀ f ∈ fields.map fun f => (some f.1, f.2.tree), ∃ w,
        (do return (← f.1, ← ofTree? levels f.2) : Option (String × Json)) = some w := by
      refine List.forall_mem_map.2 fun f hf => ?_
      obtain ⟨w, hw⟩ := ih f hf
      exact ⟨(f.1, w), by rw [hw]; rfl⟩
    obtain ⟨ws, hws⟩ := exists_mapM hfields
    exact ⟨.object (sort ws), by rw [tree, fieldTrees_eq, ofTree?, hws]; rfl⟩

/-! ### Reading -/

open Token (Ends scan)
open Document (build?)

/-- The characters are those of a value, whatever follows it, and the value has this tree. -/
def Reads (cs : List Char) (t : Tree) : Prop :=
  ∃ ts, (∀ found rest, Ends rest → scan found (cs ++ rest) = scan (ts.reverse ++ found) rest) ∧
    ∀ opened rest, build? .value opened (ts ++ rest) = build? (.after t) opened rest ∧
      build? .item opened (ts ++ rest) = build? (.after t) opened rest

/-- The characters behind an item of an array are those of the other items and the end. -/
structure ReadsItems (cs : List Char) (items : List Tree) : Prop where
  ends : ∀ rest, Ends (cs ++ rest)
  reads : ∃ ts, (∀ found rest, scan found (cs ++ rest) = scan (ts.reverse ++ found) rest) ∧
    ∀ last done outer rest, build? (.after last) (.array done :: outer) (ts ++ rest) =
      build? (.after (.array (done.reverse ++ last :: items))) outer rest

/-- The characters behind the value of a field are those of the other fields and the end. -/
structure ReadsFields (cs : List Char) (fields : List (Option String × Tree)) : Prop where
  ends : ∀ rest, Ends (cs ++ rest)
  reads : ∃ ts, (∀ found rest, scan found (cs ++ rest) = scan (ts.reverse ++ found) rest) ∧
    ∀ key last done outer rest, build? (.after last) (.object done key :: outer) (ts ++ rest) =
      build? (.after (.object (done.reverse ++ (key, last) :: fields))) outer rest

theorem reads_token {cs : List Char} {token : Token} {t : Tree}
    (first : ∀ rest, Ends rest → Token.first? (cs ++ rest) = some (token, rest))
    (scalar : Document.scalar? token = some t) : Reads cs t := by
  refine ⟨[token], fun found rest ends => Token.scan_first (first rest ends), ?_⟩
  intro opened rest
  cases token with
  | openArray | closeArray | openObject | closeObject | colon | comma => cases scalar
  | _ =>
    obtain rfl := Option.some.inj scalar
    exact ⟨rfl, rfl⟩

theorem ends_cons {c : Char} (h : c = ',' ∨ c = ']' ∨ c = '\x7d') (rest : List Char) :
    Ends (c :: rest) := by
  rintro _ ⟨⟩
  exact h

theorem readsItems_nil : ReadsItems [']'] [] := by
  refine ⟨ends_cons (by simp), [.closeArray], fun found rest => Token.scan_first rfl, ?_⟩
  intro last done outer rest
  show build? (.after (.array (last :: done).reverse)) outer rest = _
  rw [List.reverse_cons]

theorem readsItems_cons {cs more : List Char} {t : Tree} {items : List Tree} (first : Reads cs t)
    (others : ReadsItems more items) : ReadsItems (',' :: (cs ++ more)) (t :: items) := by
  obtain ⟨ts, hscan, hbuild⟩ := first
  obtain ⟨ends, ts', hscan', hbuild'⟩ := others
  refine ⟨ends_cons (by simp), .comma :: (ts ++ ts'), fun found rest => ?_, ?_⟩
  · have hcomma : scan found (',' :: (cs ++ more) ++ rest) =
        scan (.comma :: found) (cs ++ (more ++ rest)) := by
      rw [← List.append_assoc]
      exact Token.scan_first rfl
    rw [hcomma, hscan _ _ (ends rest), hscan']
    simp
  · intro last done outer rest
    have hcomma : build? (.after last) (.array done :: outer) (.comma :: (ts ++ ts') ++ rest) =
        build? .value (.array (last :: done) :: outer) (ts ++ (ts' ++ rest)) := by
      rw [← List.append_assoc]
      rfl
    rw [hcomma, (hbuild _ _).1, hbuild', List.reverse_cons, List.append_assoc]
    rfl

theorem reads_emptyArray : Reads ['[', ']'] (.array []) :=
  ⟨[.openArray, .closeArray],
    fun _ _ _ => (Token.scan_first rfl).trans (Token.scan_first rfl), fun _ _ => ⟨rfl, rfl⟩⟩

theorem reads_array {cs more : List Char} {t : Tree} {items : List Tree} (first : Reads cs t)
    (others : ReadsItems more items) : Reads ('[' :: (cs ++ more)) (.array (t :: items)) := by
  obtain ⟨ts, hscan, hbuild⟩ := first
  obtain ⟨ends, ts', hscan', hbuild'⟩ := others
  refine ⟨.openArray :: (ts ++ ts'), fun found rest _ => ?_, fun opened rest => ?_⟩
  · have hopen : scan found ('[' :: (cs ++ more) ++ rest) =
        scan (.openArray :: found) (cs ++ (more ++ rest)) := by
      rw [← List.append_assoc]
      exact Token.scan_first rfl
    rw [hopen, hscan _ _ (ends rest), hscan']
    simp
  · have hitems : build? .item (.array [] :: opened) (ts ++ ts' ++ rest) =
        build? (.after (.array (t :: items))) opened rest := by
      rw [List.append_assoc, (hbuild _ _).2, hbuild']
      rfl
    exact ⟨hitems, hitems⟩

theorem readsField {cs more : List Char} {t : Tree} {fields : List (Option String × Tree)}
    (name : String) (value : Reads cs t) (others : ReadsFields more fields) :
    ∃ ts, (∀ found rest, scan found ((quoted name).toList ++ ':' :: (cs ++ more) ++ rest) =
        scan (ts.reverse ++ found) rest) ∧
      ∀ done outer rest, build? (.key done) outer (ts ++ rest) =
        build? (.after (.object (done.reverse ++ (some name, t) :: fields))) outer rest := by
  obtain ⟨ts, hscan, hbuild⟩ := value
  obtain ⟨ends, ts', hscan', hbuild'⟩ := others
  refine ⟨.string (some name) :: .colon :: (ts ++ ts'), fun found rest => ?_, ?_⟩
  · have hkey : scan found ((quoted name).toList ++ ':' :: (cs ++ more) ++ rest) =
        scan (.colon :: .string (some name) :: found) (cs ++ (more ++ rest)) := by
      rw [List.append_assoc, Token.scan_first (Token.string?_quoted name _), List.cons_append,
        List.append_assoc]
      exact Token.scan_first rfl
    rw [hkey, hscan _ _ (ends rest), hscan']
    simp
  · intro done outer rest
    have hkey : build? (.key done) outer (.string (some name) :: .colon :: (ts ++ ts') ++ rest) =
        build? .value (.object done (some name) :: outer) (ts ++ (ts' ++ rest)) := by
      rw [← List.append_assoc]
      rfl
    rw [hkey, (hbuild _ _).1, hbuild']

theorem readsFields_nil : ReadsFields ['\x7d'] [] := by
  refine ⟨ends_cons (by simp), [.closeObject], fun found rest => Token.scan_first rfl, ?_⟩
  intro key last done outer rest
  show build? (.after (.object ((key, last) :: done).reverse)) outer rest = _
  rw [List.reverse_cons]

theorem readsFields_cons {cs more : List Char} {t : Tree} {fields : List (Option String × Tree)}
    (name : String) (value : Reads cs t) (others : ReadsFields more fields) :
    ReadsFields (',' :: ((quoted name).toList ++ ':' :: (cs ++ more)))
      ((some name, t) :: fields) := by
  obtain ⟨ts, hscan, hbuild⟩ := readsField name value others
  refine ⟨ends_cons (by simp), .comma :: ts, fun found rest => ?_, ?_⟩
  · rw [List.cons_append, Token.scan_first rfl, hscan]
    simp
  · intro key last done outer rest
    have hcomma : build? (.after last) (.object done key :: outer) (.comma :: ts ++ rest) =
        build? (.key ((key, last) :: done)) outer (ts ++ rest) := rfl
    rw [hcomma, hbuild, List.reverse_cons, List.append_assoc]
    rfl

theorem reads_emptyObject : Reads ['\x7b', '\x7d'] (.object []) :=
  ⟨[.openObject, .closeObject],
    fun _ _ _ => (Token.scan_first rfl).trans (Token.scan_first rfl), fun _ _ => ⟨rfl, rfl⟩⟩

theorem reads_object {cs more : List Char} {t : Tree} {fields : List (Option String × Tree)}
    (name : String) (value : Reads cs t) (others : ReadsFields more fields) :
    Reads ('\x7b' :: ((quoted name).toList ++ ':' :: (cs ++ more)))
      (.object ((some name, t) :: fields)) := by
  obtain ⟨ts, hscan, hbuild⟩ := readsField name value others
  refine ⟨.openObject :: ts, fun found rest _ => ?_, fun opened rest => ?_⟩
  · rw [List.cons_append, Token.scan_first rfl, hscan]
    simp
  · exact ⟨hbuild [] opened rest, hbuild [] opened rest⟩

/-! ### Compact texts -/

theorem texts_eq (items : List Json) : texts items = items.map text := by
  induction items with
  | nil => rfl
  | cons v rest ih => rw [texts, ih, List.map_cons]

theorem fieldTexts_eq (fields : List (String × Json)) :
    fieldTexts fields = fields.map fun f => quoted f.1 ++ ":" ++ f.2.text := by
  induction fields with
  | nil => rfl
  | cons f rest ih => rw [fieldTexts, ih, List.map_cons]

theorem intercalate_comma (first : List Char) (rest : List (List Char)) :
    [','].intercalate (first :: rest) = first ++ rest.flatMap (',' :: ·) := by
  induction rest generalizing first with
  | nil => simp
  | cons second rest ih =>
    rw [List.intercalate_cons_cons, ih]
    simp

theorem readsItems_all {items : List Json} (h : ∀ v ∈ items, Reads v.text.toList v.tree) :
    ReadsItems (items.flatMap (fun v => ',' :: v.text.toList) ++ [']']) (items.map tree) := by
  induction items with
  | nil => exact readsItems_nil
  | cons v rest ih =>
    obtain ⟨hfirst, hrest⟩ := List.forall_mem_cons.1 h
    rw [List.flatMap_cons, List.append_assoc]
    exact readsItems_cons hfirst (ih hrest)

theorem readsFields_all {fields : List (String × Json)}
    (h : ∀ f ∈ fields, Reads f.2.text.toList f.2.tree) :
    ReadsFields
      (fields.flatMap (fun f => ',' :: ((quoted f.1).toList ++ ':' :: f.2.text.toList)) ++ ['\x7d'])
      (fields.map fun f => (some f.1, f.2.tree)) := by
  induction fields with
  | nil => exact readsFields_nil
  | cons f rest ih =>
    obtain ⟨hfirst, hrest⟩ := List.forall_mem_cons.1 h
    have hall := readsFields_cons f.1 hfirst (ih hrest)
    rw [List.flatMap_cons]
    simpa using hall

/-- The compact text of a value is read as the tree of the value. -/
theorem reads_text {levels : Nat} {v : Json} (h : Fits levels v) : Reads v.text.toList v.tree := by
  induction h with
  | null => exact reads_token (fun _ _ => rfl) rfl
  | bool b => cases b <;> exact reads_token (fun _ _ => rfl) rfl
  | number whole => exact reads_token (fun _ ends => Token.first?_numeral whole ends) rfl
  | string s => exact reads_token (fun rest _ => Token.string?_quoted s rest) rfl
  | @array levels items fits ih =>
    rw [text, texts_eq, tree, trees_eq]
    cases items with
    | nil => exact reads_emptyArray
    | cons first rest =>
      obtain ⟨hfirst, hrest⟩ := List.forall_mem_cons.1 ih
      have harray := reads_array hfirst (readsItems_all hrest)
      simpa [String.toList_intercalate, intercalate_comma, List.flatMap_map] using harray
  | @object levels fields fits ih =>
    rw [text, fieldTexts_eq, tree, fieldTrees_eq]
    cases fields with
    | nil => exact reads_emptyObject
    | cons first rest =>
      obtain ⟨hfirst, hrest⟩ := List.forall_mem_cons.1 ih
      have hobject := reads_object first.1 hfirst (readsFields_all hrest)
      simpa [String.toList_intercalate, intercalate_comma, List.flatMap_map] using hobject

theorem ofText?_text {levels : Nat} {v : Json} (h : Fits levels v) :
    Tree.ofText? v.text = some v.tree := by
  obtain ⟨ts, hscan, hbuild⟩ := reads_text h
  have hends : Ends [] := by
    rintro _ ⟨⟩
  have htokens : Token.ofText? v.text = some ts := by
    have hall := hscan [] [] hends
    rw [List.append_nil, List.append_nil, scan] at hall
    rw [Token.ofText?, hall, List.reverse_reverse]
  have htree := (hbuild [] []).1
  rw [List.append_nil] at htree
  rw [Tree.ofText?, htokens, Option.bind_some, htree]
  rfl

end Json

end TypeCatalog
