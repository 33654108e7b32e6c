import Mathlib.Data.List.Basic
import TypeCatalog.Modifiers

/-!
# Modifiers by their keywords

The set that a list of keywords spells has the bits of these keywords and no others. Shown again, it
gives back the keywords of the list, in the order of the table.
-/

namespace TypeCatalog.Modifiers

/-- The keywords with the positions of their bits. -/
def positions : List (String × Nat) :=
  [("public", 0), ("protected", 1), ("private", 2), ("static", 4), ("constructor", 5),
    ("destructor", 6), ("explicit", 7), ("operator", 10), ("inline", 11), ("const", 15),
    ("volatile", 16), ("abstract", 18), ("virtual", 19), ("transient", 20), ("artificial", 21)]

def Has (m : Modifiers) (n : Nat) : Prop := m.bits.toNat.testBit n = true

def Unknown (name : String) : Prop := ∀ n, (name, n) ∉ positions

/-- The set has the bits of the words and no others, and each word is a keyword. -/
structure Spelled (m : Modifiers) (names : List String) : Prop where
  known : ∀ name ∈ names, ¬Unknown name
  bits : ∀ n, m.Has n ↔ ∃ name ∈ names, (name, n) ∈ positions

/-! ## Bits -/

theorem eq_of_has {a b : Modifiers} (h : ∀ n, a.Has n ↔ b.Has n) : a = b := by
  obtain ⟨a⟩ := a
  obtain ⟨b⟩ := b
  refine congrArg mk (UInt32.toNat_inj.1 (Nat.eq_of_testBit_eq fun n => ?_))
  exact Bool.eq_iff_iff.2 (h n)

theorem has_single {n : Nat} (small : n < 32) (k : Nat) : (single n).Has k ↔ k = n := by
  have hbits : (single n).bits.toNat = 2 ^ n := by
    show (UInt32.ofNat (2 ^ n)).toNat = 2 ^ n
    rw [UInt32.toNat_ofNat']
    exact Nat.mod_eq_of_lt (Nat.pow_lt_pow_right (by omega) small)
  rw [Has, hbits, Nat.testBit_two_pow, decide_eq_true_iff, eq_comm]

theorem has_union (a b : Modifiers) (n : Nat) : (a.union b).Has n ↔ a.Has n ∨ b.Has n := by
  simp [Has, union, UInt32.toNat_or, Nat.testBit_or]

theorem has_inter (a b : Modifiers) (n : Nat) : (a.inter b).Has n ↔ a.Has n ∧ b.Has n := by
  simp [Has, inter, UInt32.toNat_and, Nat.testBit_and]

theorem not_has_none (n : Nat) : ¬none.Has n := by simp [Has, none]

theorem contains_single_iff {m : Modifiers} {n : Nat} (small : n < 32) :
    m.contains (single n) ↔ m.Has n := by
  rw [contains, decide_eq_true_iff]
  constructor
  · intro h
    have hn : (m.inter (single n)).Has n := by
      rw [h]
      exact (has_single small n).2 rfl
    exact ((has_inter _ _ _).1 hn).1
  · intro h
    refine eq_of_has fun k => ?_
    rw [has_inter, has_single small, and_iff_right_iff_imp]
    rintro rfl
    exact h

/-! ## The table -/

theorem positions_small : ∀ k ∈ positions, k.2 < 32 := by decide

theorem positions_distinct : ∀ k ∈ positions, ∀ k' ∈ positions, k.2 = k'.2 → k = k' := by decide

theorem keywords_eq : keywords = positions.map fun k => (k.1, single k.2) := rfl

theorem parse?_eq_some_iff {name : String} {m : Modifiers} :
    parse? name = some m ↔ ∃ n, (name, n) ∈ positions ∧ m = single n := by
  constructor
  · intro h
    obtain ⟨before, after, hsplit, -⟩ := List.lookup_eq_some_iff.1 h
    have hmem : (name, m) ∈ keywords := by simp [hsplit]
    obtain ⟨⟨name', n⟩, hn, heq⟩ := List.mem_map.1 (keywords_eq ▸ hmem)
    obtain ⟨rfl, rfl⟩ := Prod.mk.inj heq
    exact ⟨n, hn, rfl⟩
  · rintro ⟨n, hn, rfl⟩
    have hparse : ∀ k ∈ positions, parse? k.1 = some (single k.2) := by decide
    exact hparse _ hn

theorem parse?_eq_none_iff {name : String} : parse? name = .none ↔ Unknown name := by
  rw [Option.eq_none_iff_forall_ne_some]
  constructor
  · exact fun h n hn => h _ (parse?_eq_some_iff.2 ⟨n, hn, rfl⟩)
  · intro h m hm
    obtain ⟨n, hn, -⟩ := parse?_eq_some_iff.1 hm
    exact h n hn

theorem positions_iff {name : String} {n : Nat} (hn : (name, n) ∈ positions) (k : Nat) :
    (name, k) ∈ positions ↔ k = n := by
  have hunique : ∀ p ∈ positions, ∀ p' ∈ positions, p.1 = p'.1 → p.2 = p'.2 := by decide
  constructor
  · exact fun hk => hunique _ hk _ hn rfl
  · rintro rfl
    exact hn

/-! ## Lists of keywords -/

/-- One more keyword. -/
def gather (m : Modifiers) (name : String) : Except String Modifiers :=
  match parse? name with
  | some m' => .ok (m.union m')
  | .none => .error name

theorem gather_known (m : Modifiers) {name : String} {n : Nat} (hn : (name, n) ∈ positions) :
    gather m name = .ok (m.union (single n)) := by
  rw [gather, parse?_eq_some_iff.2 ⟨n, hn, rfl⟩]

theorem gather_unknown (m : Modifiers) {name : String} (unknown : Unknown name) :
    gather m name = .error name := by
  rw [gather, parse?_eq_none_iff.2 unknown]

theorem unknown_or (name : String) : Unknown name ∨ ∃ n, (name, n) ∈ positions := by
  by_cases h : Unknown name
  · exact .inl h
  · exact .inr (by simpa [Unknown] using h)

theorem foldlM_eq_ok_iff {start m : Modifiers} {names : List String} :
    names.foldlM gather start = .ok m ↔ (∀ name ∈ names, ¬Unknown name) ∧
      ∀ n, m.Has n ↔ start.Has n ∨ ∃ name ∈ names, (name, n) ∈ positions := by
  induction names generalizing start with
  | nil =>
    rw [List.foldlM_nil]
    constructor
    · rintro ⟨⟩
      simp
    · rintro ⟨-, hbits⟩
      exact congrArg Except.ok (eq_of_has fun n => by simp [hbits n])
  | cons name names ih =>
    rw [List.foldlM_cons]
    rcases unknown_or name with unknown | ⟨n, hn⟩
    · rw [gather_unknown start unknown]
      refine iff_of_false (fun h => by cases h) fun h => ?_
      exact h.1 name List.mem_cons_self unknown
    · rw [gather_known start hn]
      refine ih.trans (and_congr ?_ (forall_congr' fun k => ?_))
      · rw [List.forall_mem_cons, and_iff_right fun unknown => unknown n hn]
      · rw [has_union, has_single (positions_small _ hn), List.exists_mem_cons_iff,
          positions_iff hn, or_assoc]

theorem ofKeywords_eq_ok_iff {m : Modifiers} {names : List String} :
    ofKeywords names = .ok m ↔ m.Spelled names := by
  refine foldlM_eq_ok_iff.trans ⟨?_, ?_⟩
  · rintro ⟨known, hbits⟩
    exact ⟨known, fun n => by simp [hbits n, not_has_none]⟩
  · rintro ⟨known, hbits⟩
    exact ⟨known, fun n => by simp [hbits n, not_has_none]⟩

/-- The first word of the list that is no keyword. -/
def FirstUnknown (names : List String) (word : String) : Prop :=
  ∃ before after, names = before ++ word :: after ∧
    (∀ name ∈ before, ¬Unknown name) ∧ Unknown word

theorem firstUnknown_of_unknown {name word : String} {names : List String}
    (unknown : Unknown name) : FirstUnknown (name :: names) word ↔ word = name := by
  constructor
  · rintro ⟨before, after, hsplit, known, -⟩
    cases before with
    | nil => exact (List.cons.inj hsplit).1.symm
    | cons first before =>
      obtain ⟨rfl, -⟩ := List.cons.inj hsplit
      exact absurd unknown (known name List.mem_cons_self)
  · rintro rfl
    exact ⟨[], names, rfl, by simp, unknown⟩

theorem firstUnknown_of_known {name word : String} {names : List String}
    (known : ¬Unknown name) : FirstUnknown (name :: names) word ↔ FirstUnknown names word := by
  constructor
  · rintro ⟨before, after, hsplit, hbefore, unknown⟩
    cases before with
    | nil =>
      obtain ⟨rfl, -⟩ := List.cons.inj hsplit
      exact absurd unknown known
    | cons first before =>
      obtain ⟨rfl, rfl⟩ := List.cons.inj hsplit
      exact ⟨before, after, rfl, (List.forall_mem_cons.1 hbefore).2, unknown⟩
  · rintro ⟨before, after, rfl, hbefore, unknown⟩
    exact ⟨name :: before, after, rfl, List.forall_mem_cons.2 ⟨known, hbefore⟩, unknown⟩

theorem foldlM_eq_error_iff {start : Modifiers} {word : String} {names : List String} :
    names.foldlM gather start = .error word ↔ FirstUnknown names word := by
  induction names generalizing start with
  | nil =>
    refine iff_of_false (fun h => by cases h) ?_
    rintro ⟨before, after, hsplit, -⟩
    simp at hsplit
  | cons name names ih =>
    rw [List.foldlM_cons]
    rcases unknown_or name with unknown | ⟨n, hn⟩
    · rw [gather_unknown start unknown, firstUnknown_of_unknown unknown]
      constructor
      · rintro ⟨⟩
        rfl
      · rintro rfl
        rfl
    · rw [gather_known start hn, firstUnknown_of_known fun unknown => unknown n hn]
      exact ih

theorem ofKeywords_eq_error_iff {word : String} {names : List String} :
    ofKeywords names = .error word ↔ FirstUnknown names word :=
  foldlM_eq_error_iff

/-- A set that keywords spell is shown by these keywords, in the order of the table. -/
theorem Spelled.shown {m : Modifiers} {names : List String} (h : m.Spelled names) :
    m.shown = (positions.map (·.1)).filter (· ∈ names) := by
  have hkeep : ∀ k ∈ positions, m.contains (single k.2) = decide (k.1 ∈ names) := by
    rintro ⟨name, n⟩ hn
    rw [Bool.eq_iff_iff, contains_single_iff (positions_small _ hn), h.bits, decide_eq_true_iff]
    constructor
    · rintro ⟨name', hname', hn'⟩
      rwa [← (Prod.mk.inj (positions_distinct _ hn' _ hn rfl)).1]
    · exact fun hname => ⟨name, hname, hn⟩
  rw [Modifiers.shown, keywords_eq, List.filter_map, List.map_map, List.filter_map]
  refine congrArg _ (List.filter_congr ?_)
  exact hkeep

end TypeCatalog.Modifiers
