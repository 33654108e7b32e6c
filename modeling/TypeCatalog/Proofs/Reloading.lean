import TypeCatalog.Proofs.Histories

/-!
# Loading once more

A report names the declarations that failed, each in the hub that the ones before it had left. The
others are in force from then on, so a later load has nothing to do for them.
-/

namespace TypeCatalog

namespace Report

/-- The report names the declaration at this index. -/
def Skips (r : Report) (index : Nat) : Prop := ∃ s ∈ r.skipped, s.index = index

instance (r : Report) (index : Nat) : Decidable (r.Skips index) :=
  inferInstanceAs (Decidable (∃ s ∈ r.skipped, s.index = index))

theorem record_skips (r : Report) (index : Nat) (name : String) (outcome : Except Fault Unit)
    (i : Nat) : (r.record index name outcome).Skips i ↔
      r.Skips i ∨ i = index ∧ ∃ fault, outcome = .error fault := by
  cases outcome with
  | ok _ => simp [record, Skips]
  | error fault =>
    simp only [record, Skips, List.mem_append, List.mem_singleton, or_and_right, exists_or,
      exists_eq_left, Except.error.injEq, exists_eq', and_true]
    rw [eq_comm (a := index)]

theorem isComplete_iff (r : Report) : r.isComplete ↔ ∀ i, ¬r.Skips i := by
  unfold isComplete Skips
  rw [List.isEmpty_iff]
  constructor
  · intro h i
    simp [h]
  · intro h
    rw [List.eq_nil_iff_forall_not_mem]
    intro s hs
    exact h s.index ⟨s, hs, rfl⟩

theorem record_total (r : Report) (index : Nat) (name : String) (outcome : Except Fault Unit) :
    (r.record index name outcome).applied + (r.record index name outcome).skipped.length =
      r.applied + r.skipped.length + 1 := by
  cases outcome with
  | ok _ =>
    simp only [record]
    omega
  | error fault =>
    simp only [record, List.length_append, List.length_singleton]
    omega

theorem record_dictionary (r : Report) (index : Nat) (name : String)
    (outcome : Except Fault Unit) : (r.record index name outcome).dictionary = r.dictionary := by
  cases outcome <;> rfl

end Report

namespace Hub

/-! ## Reports of loads -/

theorem applyAll_skips (report : Report) (index : Nat) (hub : Hub) (ds : List Declaration)
    (i : Nat) : (applyAll report index hub ds).1.Skips i ↔ report.Skips i ∨
      ∃ k d fault, i = index + k ∧ ds[k]? = some d ∧
        (attempt (apply d) (hub.applied (ds.take k))).1 = .error fault := by
  induction ds generalizing report index hub with
  | nil => simp [applyAll]
  | cons d rest ih =>
    unfold applyAll
    simp only
    rw [ih, Report.record_skips, or_assoc]
    refine or_congr_right ?_
    constructor
    · rintro (⟨rfl, fault, hfault⟩ | ⟨k, d', fault, rfl, hd', hfault⟩)
      · exact ⟨0, d, fault, rfl, rfl, hfault⟩
      · exact ⟨k + 1, d', fault, by omega, hd', hfault⟩
    · rintro ⟨k, d', fault, rfl, hd', hfault⟩
      cases k with
      | zero =>
        obtain rfl : d = d' := Option.some.inj hd'
        exact .inl ⟨rfl, fault, hfault⟩
      | succ k => exact .inr ⟨k, d', fault, by omega, hd', hfault⟩

theorem applyAll_total (report : Report) (index : Nat) (hub : Hub) (ds : List Declaration) :
    (applyAll report index hub ds).1.dictionary = report.dictionary ∧
      (applyAll report index hub ds).1.applied + (applyAll report index hub ds).1.skipped.length =
        report.applied + report.skipped.length + ds.length := by
  induction ds generalizing report index hub with
  | nil => exact ⟨rfl, rfl⟩
  | cons d rest ih =>
    obtain ⟨hname, htotal⟩ := ih (report.record index d.title (attempt (apply d) hub).1)
      (index + 1) (attempt (apply d) hub).2
    rw [Report.record_dictionary] at hname
    rw [Report.record_total] at htotal
    refine ⟨hname, htotal.trans ?_⟩
    rw [List.length_cons]
    omega

/-- A declaration is reported if it fails in the hub that the declarations before it have left. -/
theorem load_skips (hub : Hub) (dict : Dictionary) (i : Nat) :
    (hub.load dict).1.Skips i ↔ ∃ d fault, dict.declarations[i]? = some d ∧
      (attempt (apply d) (hub.applied (dict.declarations.take i))).1 = .error fault := by
  unfold load
  rw [applyAll_skips]
  simp [Report.start, Report.Skips]

theorem load_report_of_complete {hub : Hub} {dict : Dictionary}
    (complete : (hub.load dict).1.isComplete) :
    (hub.load dict).1 = ⟨dict.name, dict.declarations.length, []⟩ := by
  obtain ⟨hname, htotal⟩ := applyAll_total (.start dict.name) 0 hub dict.declarations
  have hskipped : (hub.load dict).1.skipped = [] := List.isEmpty_iff.1 complete
  have happlied : (hub.load dict).1.applied = dict.declarations.length := by
    unfold load at hskipped ⊢
    rw [hskipped] at htotal
    simpa [Report.start] using htotal
  have : (hub.load dict).1.dictionary = dict.name := hname
  cases hreport : (hub.load dict).1
  simp_all

/-! ## Declarations that stay in force -/

theorem applied_inForce {hub : Hub} (wf : hub.catalog.WellFormed) {d : Declaration}
    (named : d.WellNamed) {hub' : Hub} (h : attempt (apply d) hub = (.ok (), hub')) :
    hub'.catalog.WellFormed ∧ d.InForce hub'.catalog := by
  rw [attempt_eq_ok] at h
  have hgrows := (apply_growsTo hub wf d fun _ _ => trivial).at_ok h
  exact ⟨hgrows.wellFormed wf, (apply_spec hub wf d).at_ok h named⟩

theorem load_inForce {hub : Hub} (wf : hub.catalog.WellFormed) {dict : Dictionary} {i : Nat}
    {d : Declaration} (hd : dict.declarations[i]? = some d) (named : d.WellNamed)
    (taken : ¬(hub.load dict).1.Skips i) : d.InForce (hub.load dict).2.catalog := by
  have hsplit : dict.declarations =
      dict.declarations.take i ++ d :: dict.declarations.drop (i + 1) := by
    obtain ⟨hi, rfl⟩ := List.getElem?_eq_some_iff.1 hd
    rw [List.getElem_cons_drop, List.take_append_drop]
  have wf₁ := applied_wellFormed wf (dict.declarations.take i)
  cases hattempt : attempt (apply d) (hub.applied (dict.declarations.take i)) with
  | mk outcome hub₁ =>
    cases outcome with
    | error fault =>
      refine absurd ((load_skips hub dict i).2 ⟨d, fault, hd, ?_⟩) taken
      rw [hattempt]
    | ok _ =>
      obtain ⟨wf₂, hforce⟩ := applied_inForce wf₁ named hattempt
      rw [load_hub, hsplit, applied_append, applied_cons, hattempt]
      exact hforce.mono (applied_grows wf₂ _) wf₂

theorem attempt_of_inForce {hub : Hub} (wf : hub.catalog.WellFormed) {d : Declaration}
    (h : d.InForce hub.catalog) : attempt (apply d) hub = (.ok (), hub) :=
  attempt_eq_ok.2 (apply_again wf h)

theorem applied_of_inForce {hub : Hub} (wf : hub.catalog.WellFormed) {ds : List Declaration}
    (h : ∀ d ∈ ds, d.InForce hub.catalog) : hub.applied ds = hub := by
  induction ds with
  | nil => rfl
  | cons d rest ih =>
    rw [applied_cons, attempt_of_inForce wf (h d (by simp))]
    exact ih fun d' hd' => h d' (by simp [hd'])

theorem not_skips_of_inForce {hub : Hub} (wf : hub.catalog.WellFormed) {dict : Dictionary} {i : Nat}
    {d : Declaration} (hd : dict.declarations[i]? = some d) (h : d.InForce hub.catalog) :
    ¬(hub.load dict).1.Skips i := by
  rw [load_skips]
  rintro ⟨d', fault, hd', hfault⟩
  obtain rfl : d = d' := Option.some.inj (hd.symm.trans hd')
  have hgrows := applied_growsTo hub wf (dict.declarations.take i)
    fun _ _ _ _ => trivial
  rw [attempt_of_inForce (hgrows.wellFormed wf) (h.mono hgrows wf)] at hfault
  cases hfault

/-- A declaration with a well-formed name that was applied once is applied without effect for ever,
as long as no type is hidden or shown. So a dictionary that was taken completely is taken again with
the same report and without effect, and what was taken is never skipped later. -/
theorem applied_once_is_applied_for_ever {hub : Hub} (reach : hub.Reachable)
    {between : List Operation} (visible : ∀ op ∈ between, op.KeepsVisibility) :
    (∀ d hub₁, Declaration.WellNamed d → attempt (apply d) hub = (.ok (), hub₁) →
      attempt (apply d) (hub₁.run between) = (.ok (), hub₁.run between)) ∧
    ∀ dict : Dictionary, (∀ d ∈ dict.declarations, d.WellNamed) →
      ((hub.load dict).1.isComplete → ((hub.load dict).2.run between).load dict =
        ((hub.load dict).1, (hub.load dict).2.run between)) ∧
      ∀ i < dict.declarations.length, ¬(hub.load dict).1.Skips i →
        ¬(((hub.load dict).2.run between).load dict).1.Skips i := by
  have wf := reach.wellFormed
  constructor
  · intro d hub₁ named hok
    obtain ⟨wf₁, hforce⟩ := applied_inForce wf named hok
    have hgrows := run_growsTo hub₁ wf₁ visible
    exact attempt_of_inForce (hgrows.wellFormed wf₁) (hforce.mono hgrows wf₁)
  · intro dict named
    have wf₁ : (hub.load dict).2.catalog.WellFormed := by
      rw [load_hub]
      exact (applied_growsTo hub wf _ fun _ _ _ _ => trivial).wellFormed
        wf
    have hgrows := run_growsTo (hub.load dict).2 wf₁ visible
    have wf₂ := hgrows.wellFormed wf₁
    have later : ∀ {i d}, dict.declarations[i]? = some d → ¬(hub.load dict).1.Skips i →
        d.InForce ((hub.load dict).2.run between).catalog := by
      intro i d hd taken
      exact (load_inForce wf hd (named d (List.mem_of_getElem? hd)) taken).mono hgrows wf₁
    constructor
    · intro complete
      have hforce : ∀ d ∈ dict.declarations, d.InForce ((hub.load dict).2.run between).catalog := by
        intro d hd
        obtain ⟨i, hi⟩ := List.mem_iff_getElem?.1 hd
        exact later hi ((Report.isComplete_iff _).1 complete i)
      have complete₂ : (((hub.load dict).2.run between).load dict).1.isComplete := by
        rw [Report.isComplete_iff]
        intro i hskips
        obtain ⟨d, fault, hd, -⟩ := (load_skips _ dict i).1 hskips
        exact not_skips_of_inForce wf₂ hd (hforce d (List.mem_of_getElem? hd)) hskips
      refine Prod.ext ?_ ?_
      · rw [load_report_of_complete complete₂, load_report_of_complete complete]
      · rw [load_hub, applied_of_inForce wf₂ hforce]
    · intro i hi taken
      exact not_skips_of_inForce wf₂ (List.getElem?_eq_getElem hi)
        (later (List.getElem?_eq_getElem hi) taken)

def colors : Declaration := .enum "a::E" none "int" [⟨"red", 1⟩, ⟨"green", 2⟩]

def palette : Dictionary := ⟨"palette", [.namespace "a", colors], []⟩

def withInt : Hub := (ofSettings Settings.default.catalog).run [.buildFundamental "int" 4]

/-- Other work in between, of which the last declaration fails. -/
def meantime : List Operation :=
  [.subscribe .all none, .register (.named "T") .class 1 "T", .apply (.namespace "b"),
    .apply (.classType .class "a::E" none 4)]

theorem colors_again :
    attempt (apply colors) ((attempt (apply colors) withInt).2.run meantime) =
        (.ok (), (attempt (apply colors) withInt).2.run meantime) ∧
      ((withInt.load palette).2.run meantime).load palette =
        ((withInt.load palette).1, (withInt.load palette).2.run meantime) := by
  have h := @applied_once_is_applied_for_ever withInt ⟨_, _, rfl⟩ meantime
    (by simp [meantime, Operation.KeepsVisibility])
  have hcolors : (attempt (apply colors) withInt).1 = .ok () := by decide +kernel
  have hpalette : (withInt.load palette).1.isComplete := by decide +kernel
  have hagain := h.1 colors _ (by decide +kernel) (attempt_of_fst hcolors)
  have hreload := (h.2 palette (by decide +kernel)).1 hpalette
  exact ⟨hagain, hreload⟩

end Hub

end TypeCatalog
