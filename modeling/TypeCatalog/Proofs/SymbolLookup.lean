import TypeCatalog.Proofs.Definitions
import TypeCatalog.Proofs.Names
import TypeCatalog.Proofs.Nesting
import TypeCatalog.Session.Basic

/-!
# Finding symbols

A lookup that asks only a table of symbols gives what the last applied symbol of a name has. A
symbol is kept under its name as it is written, but a lookup takes one `::` off the front. So a
symbol is always found with `::` in front of its name, and under its own name only if that name does
not begin with `::` itself.
-/

namespace TypeCatalog

/-- What lookups give that are answered by the table, up to a limit on nesting. -/
def SymbolTable.answer (t : SymbolTable) (limit : Nat) (name : String) : Answer :=
  if limit = 0 then .error (.tooDeep name limit)
  else
    match t.answer? name with
    | some x => .ok x
    | none => .error (.unresolved name)

namespace SymbolTable

variable {t : SymbolTable} {limit : Nat} {name : String}

theorem answer_eq_ok_iff (pos : 0 < limit) {x : Value} :
    t.answer limit name = .ok x ↔ t.get? (Name.stripRoot name) = some x := by
  rw [answer, if_neg pos.ne', answer?]
  cases t.get? (Name.stripRoot name) <;> simp

theorem answer_eq_unresolved_iff (pos : 0 < limit) :
    t.answer limit name = .error (.unresolved name) ↔ t.get? (Name.stripRoot name) = none := by
  rw [answer, if_neg pos.ne', answer?]
  cases t.get? (Name.stripRoot name) <;> simp

end SymbolTable

/-! ## Lookups that ask a table -/

namespace Lookups

variable {ε : Type} {env : ε} {table : SymbolTable} {id : ChainId} {limit : Nat} {s : Lookups ε}

/-- No lookup is active, and the only resolver of the chain is the table. -/
structure AsksTable (env : ε) (table : SymbolTable) (id : ChainId) (limit : Nat) (s : Lookups ε) :
    Prop where
  idle : s.depth = 0
  chain : ∃ c link, s.chain? id = some c ∧ c.limit = limit ∧ c.links = [link] ∧
    ∀ name, link.respond env name = .offer (table.answer? name)

theorem AsksTable.congr {s' : Lookups ε} (h : s.AsksTable env table id limit)
    (idle : s'.depth = 0) (same : s'.chains = s.chains) : s'.AsksTable env table id limit := by
  refine ⟨idle, ?_⟩
  rw [chain?, same]
  exact h.chain

theorem run_consult_table (ask : ChainId → String → LookupM ε Answer) {link : Link ε}
    {name : String} (responds : link.respond env name = .offer (table.answer? name))
    (pos : 0 < limit) (s : Lookups ε) :
    (consult ask env id name [link]).run s =
      (table.answer limit name,
        { s with calls := s.calls ++ [⟨id, link.id, name, link.quiet⟩] }) := by
  rw [SymbolTable.answer, if_neg pos.ne']
  cases hvalue : table.answer? name with
  | none =>
    rw [hvalue] at responds
    unfold consult
    rw [responds]
    rfl
  | some x =>
    rw [hvalue] at responds
    unfold consult
    rw [responds]
    rfl

theorem run_lookup (asks : s.AsksTable env table id limit) (name : String) :
    ((lookup env id name).run s).1 = table.answer limit name ∧
      ((lookup env id name).run s).2.AsksTable env table id limit := by
  have ⟨idle, c, link, hc, hlimit, hlinks, hresponds⟩ := asks
  subst hlimit
  have hlevels : (lookup env id name).run s =
      (lookupWithin env (s.greatestLimit - s.depth) id name).run s := rfl
  have hclean : s.called.refused = false := by rw [called, if_pos idle]
  have hrefused : ({ s.called with refused := true } : Lookups ε).AsksTable env table id c.limit :=
    asks.congr ((called_depth s).trans idle) (called_chains s)
  rw [hlevels, idle, Nat.sub_zero]
  by_cases hzero : c.limit = 0
  · have hanswer : table.answer c.limit name = .error (.tooDeep name c.limit) := if_pos hzero
    rw [hanswer]
    cases s.greatestLimit with
    | zero =>
      rw [run_lookupWithin_zero hc]
      exact ⟨rfl, hrefused⟩
    | succ levels =>
      rw [run_lookupWithin_succ hc, if_pos (by omega)]
      exact ⟨rfl, hrefused⟩
  · have pos : 0 < c.limit := Nat.pos_of_ne_zero hzero
    obtain ⟨levels, hgreatest⟩ : ∃ levels, s.greatestLimit = levels + 1 :=
      Nat.exists_eq_add_one.2 (lt_of_lt_of_le pos (limit_le_greatestLimit hc))
    rw [hgreatest, run_lookupWithin_succ hc, if_neg (by omega), hlinks,
      run_consult_table _ (hresponds name) pos]
    refine ⟨?_, asks.congr ?_ ?_⟩
    · rw [leave_outermost (by simp [idle])]
      simp [hclean]
    · rw [leave_depth]
      simp [idle]
    · rw [leave_chains]
      exact called_chains s

end Lookups

theorem Session.lookups_asksTable (s : Session) :
    s.lookups.AsksTable s.symbols s.symbols chain s.settings.lookup.maxDepth :=
  ⟨rfl, _, _, rfl, rfl, rfl, fun _ => rfl⟩

/-! ## Symbols that are skipped or redefined -/

namespace Symbol

variable {c : Catalog} {ss : List Symbol} {s : Symbol}

theorem defineAll_table_congr (report report' : Report) (table : SymbolTable) (index index' : Nat)
    (ss : List Symbol) :
    (defineAll c report table index ss).2 = (defineAll c report' table index' ss).2 := by
  induction ss generalizing report report' table index index' with
  | nil => rfl
  | cons s rest ih =>
    unfold defineAll
    cases s.decode c <;> exact ih ..

theorem defineAll_eraseIdx {i : Nat} (hs : ss[i]? = some s) (silent : ∀ x, ¬s.Means c x)
    (report report' : Report) (table : SymbolTable) (index index' : Nat) :
    (defineAll c report table index (ss.eraseIdx i)).2 =
      (defineAll c report' table index' ss).2 := by
  induction ss generalizing i report report' table index index' with
  | nil => cases hs
  | cons first rest ih =>
    cases i with
    | zero =>
      obtain rfl : first = s := Option.some.inj hs
      rw [List.eraseIdx_cons_zero]
      cases hdecode : first.decode c with
      | ok x => exact absurd (decode_eq_ok_iff.1 hdecode) (silent x)
      | error fault =>
        simp only [defineAll, hdecode]
        exact defineAll_table_congr ..
    | succ i =>
      rw [List.eraseIdx_cons_succ]
      unfold defineAll
      cases first.decode c <;> exact ih hs ..

theorem last_of_getElem? {i : Nat} {x : Value} (hs : ss[i]? = some s) (means : s.Means c x)
    (kept : ∀ j s', i < j → ss[j]? = some s' → s'.name = s.name → ∀ y, ¬s'.Means c y) :
    Last c s.name x ss := by
  induction ss generalizing i with
  | nil => cases hs
  | cons first rest ih =>
    cases i with
    | zero =>
      obtain rfl : first = s := Option.some.inj hs
      refine .here rfl means fun s' hs' => ?_
      obtain ⟨j, hj⟩ := List.mem_iff_getElem?.1 hs'
      exact kept (j + 1) s' (Nat.succ_pos j) hj
    | succ i =>
      exact .later (ih hs fun j s' hj => kept (j + 1) s' (Nat.succ_lt_succ hj))

theorem free_iff_forall_not_last {name : String} :
    Free c name ss ↔ ∀ x, ¬Last c name x ss := by
  induction ss with
  | nil => simp [Free, last_nil_iff]
  | cons s rest ih =>
    by_cases hvalue : ∃ x, s.name = name ∧ s.Means c x
    · obtain ⟨x, hname, hmeans⟩ := hvalue
      simp only [last_cons_of_means hname hmeans]
      refine iff_of_false (fun hfree => hfree s List.mem_cons_self hname x hmeans) fun hnone => ?_
      have hfree : Free c name rest := ih.2 fun y hy => hnone y (.inl hy)
      exact hnone x (.inr ⟨hfree, rfl⟩)
    · have hsilent : s.name = name → ∀ x, ¬s.Means c x := fun hname x hx => hvalue ⟨x, hname, hx⟩
      simp only [free_cons_of_silent hsilent, last_cons_of_silent hsilent]
      exact ih

end Symbol

/-! ## What is found -/

/-- What lookups make of the symbols of a dictionary. -/
structure Dictionary.Finds (d : Dictionary) (c : Catalog) (report : Report)
    (look : String → Answer) : Prop where
  value : ∀ name x, look name = .ok x ↔ Symbol.Last c (Name.stripRoot name) x d.symbols
  nothing : ∀ name,
    look name = .error (.unresolved name) ↔ Symbol.Free c (Name.stripRoot name) d.symbols
  /-- A symbol that is applied and not redefined. -/
  own : ∀ i s, d.symbols[i]? = some s → ¬report.Skips i →
    (∀ j s', i < j → d.symbols[j]? = some s' → s'.name = s.name → report.Skips j) →
      ∃ x, s.Means c x ∧ look ("::" ++ s.name) = .ok x ∧
        (look s.name = .ok x ↔ Name.isAbsolute s.name = false ∨
          Symbol.Last c (Name.stripRoot s.name) x d.symbols)

namespace Dictionary

/-- The dictionary without one of its symbols. -/
def without (d : Dictionary) (i : Nat) : Dictionary := { d with symbols := d.symbols.eraseIdx i }

variable {ε : Type} {env : ε} {id : ChainId} {limit : Nat} {s : Lookups ε} {d : Dictionary}
  {c : Catalog}

theorem without_skipped {i : Nat} {table : SymbolTable}
    (skipped : (d.defineSymbols c table).1.Skips i) :
    ((d.without i).defineSymbols c table).2 = (d.defineSymbols c table).2 := by
  obtain ⟨k, hk, rfl⟩ := skipped
  obtain ⟨s, hs, -, hrefused⟩ := ((d.defineSymbols_defines c table).skips k).1 hk
  refine Symbol.defineAll_eraseIdx hs (fun x hx => ?_) ..
  exact Symbol.means_iff_not_refused.1 ⟨x, hx⟩ k.fault hrefused

theorem defineSymbols_finds (pos : 0 < limit) :
    d.Finds c (d.defineSymbols c .empty).1 ((d.defineSymbols c .empty).2.answer limit) := by
  have hdefines := d.defineSymbols_defines c .empty
  have hvalue : ∀ name x, (d.defineSymbols c .empty).2.answer limit name = .ok x ↔
      Symbol.Last c (Name.stripRoot name) x d.symbols := by
    intro name x
    rw [SymbolTable.answer_eq_ok_iff pos, hdefines.binds, Table.get?_empty]
    simp
  refine ⟨hvalue, ?_, ?_⟩
  · intro name
    rw [SymbolTable.answer_eq_unresolved_iff pos, Symbol.free_iff_forall_not_last,
      Option.eq_none_iff_forall_ne_some]
    refine forall_congr' fun x => not_congr ?_
    rw [← SymbolTable.answer_eq_ok_iff pos, hvalue]
  · intro i s hs happlied hkept
    obtain ⟨x, hmeans⟩ := (hdefines.applies i s hs).1 happlied
    have hlast : Symbol.Last c s.name x d.symbols := by
      refine Symbol.last_of_getElem? hs hmeans fun j s' hj hs' hname y hy => ?_
      exact (hdefines.applies j s' hs').2 ⟨y, hy⟩ (hkept j s' hj hs' hname)
    refine ⟨x, hmeans, ?_, ?_⟩
    · rw [hvalue, Name.stripRoot_root]
      exact hlast
    · rw [hvalue]
      refine (or_iff_right_of_imp fun hplain => ?_).symm
      rw [Name.stripRoot_of_relative hplain]
      exact hlast

/-- A symbol is found with `::` in front of its name. Under its own name it is found unless that
begins with `::` and means something else without it. -/
theorem symbols_are_found
    (asks : s.AsksTable env (d.defineSymbols c .empty).2 id limit) (pos : 0 < limit) :
    d.Finds c (d.defineSymbols c .empty).1
        (fun name => ((Lookups.lookup env id name).run s).1) ∧
      (∀ name, ((Lookups.lookup env id name).run s).2.AsksTable env (d.defineSymbols c .empty).2
        id limit) ∧
      ∀ i, (d.defineSymbols c .empty).1.Skips i →
        ((d.without i).defineSymbols c .empty).2 = (d.defineSymbols c .empty).2 := by
  have hanswers : (fun name => ((Lookups.lookup env id name).run s).1) =
      (d.defineSymbols c .empty).2.answer limit := by
    funext name
    exact (Lookups.run_lookup asks name).1
  rw [hanswers]
  exact ⟨defineSymbols_finds pos, fun name => (Lookups.run_lookup asks name).2,
    fun _ => without_skipped⟩

/-- One symbol twice, one that is skipped, and one whose name begins with `::`. -/
def countings : Dictionary where
  name := "countings"
  declarations := [.fundamental "int" 4]
  symbols :=
    [⟨"x", "int", .number (.natural 1)⟩, ⟨"x", "int", .number (.natural 2)⟩,
      ⟨"x", "long", .number (.natural 3)⟩, ⟨"::y", "int", .number (.natural 4)⟩]

def counting : Session := .ofDictionary countings .default

/-- What a name among the countings is found to be. -/
def counted (name : String) : Answer :=
  ((Lookups.lookup counting.symbols Session.chain name).run counting.lookups).1

def count (i : Int64) : Value := ⟨⟨0⟩, .inline (.signed i)⟩

theorem countings_are_found :
    (counting.lookups.AsksTable counting.symbols counting.symbols Session.chain 50 ∧ 0 < 50) ∧
      countings.Finds counting.catalog counting.symbolReport counted ∧
      counting.symbolReport.Skips 2 ∧ counted "x" = .ok (count 2) :=
  ⟨⟨counting.lookups_asksTable, by decide⟩,
    (symbols_are_found counting.lookups_asksTable (by decide)).1, by decide +kernel,
    by decide +kernel⟩

/-- It is listed under a name by which it is not found. -/
theorem marked_symbol_is_not_found :
    countings.symbols[3]? = some ⟨"::y", "int", .number (.natural 4)⟩ ∧
      ¬counting.symbolReport.Skips 3 ∧ counting.symbols.get? "::y" = some (count 4) ∧
      counted "::y" = .error (.unresolved "::y") ∧ counted "::::y" = .ok (count 4) := by
  refine ⟨rfl, ?_⟩
  decide +kernel

end Dictionary

end TypeCatalog
