import TypeCatalog.Name

/-!
# Well-formed names

A component has no colon, so a name made of components comes apart in one way only, from the left as
resolution does it and from the right as the loader does it.
-/

namespace TypeCatalog.Name

def IsComponent (s : String) : Prop := s ≠ "" ∧ ':' ∉ s.toList

instance (s : String) : Decidable (IsComponent s) := inferInstanceAs (Decidable (_ ∧ _))

/-- The components with `::` between them. -/
def path (cs : List String) : String := "::".intercalate cs

/-- Components with `::` between them, and perhaps one `::` in front. -/
def WellFormed (name : String) : Prop :=
  ∃ cs, cs ≠ [] ∧ (∀ c ∈ cs, IsComponent c) ∧ (name = path cs ∨ name = "::" ++ path cs)

/-- The name of the scope that a declared name is in, and the name in it. -/
def enclosing (name : String) : String := (split (stripRoot name)).1

def last (name : String) : String := (split (stripRoot name)).2

/-! ## On lists of characters -/

theorem splitChars_of_not_mem {c : List Char} (h : ':' ∉ c) : splitChars c = (c, []) := by
  induction c with
  | nil => rfl
  | cons x rest ih =>
    rw [List.mem_cons, not_or] at h
    rw [splitChars, ih h.2]
    intro _ hx
    exact absurd hx.symm h.1

theorem splitChars_append {c : List Char} (h : ':' ∉ c) (rest : List Char) :
    splitChars (c ++ ':' :: ':' :: rest) = (c, (splitChars rest).1 :: (splitChars rest).2) := by
  induction c with
  | nil => rfl
  | cons x c ih =>
    rw [List.mem_cons, not_or] at h
    rw [List.cons_append, splitChars, ih h.2]
    intro _ hx
    exact absurd hx.symm h.1

theorem cutChars_of_not_mem {c : List Char} (h : ':' ∉ c) : cutChars c = none := by
  induction c with
  | nil => rfl
  | cons x rest ih =>
    rw [List.mem_cons, not_or] at h
    rw [cutChars, ih h.2]
    · rfl
    · intro _ hx
      exact absurd hx.symm h.1

theorem cutChars_append {c : List Char} (h : ':' ∉ c) (rest : List Char) :
    cutChars (c ++ ':' :: ':' :: rest) = some (c, rest) := by
  induction c with
  | nil => rfl
  | cons x c ih =>
    rw [List.mem_cons, not_or] at h
    rw [List.cons_append, cutChars, ih h.2]
    · rfl
    · intro _ hx
      exact absurd hx.symm h.1

/-! ## Paths -/

theorem path_cons {c : String} {cs : List String} (hne : cs ≠ []) :
    (path (c :: cs)).toList = c.toList ++ ':' :: ':' :: (path cs).toList := by
  rw [path, path, String.intercalate_cons_of_ne_nil hne, String.toList_append,
    String.toList_append, List.append_assoc]
  rfl

theorem path_snoc {cs : List String} (hne : cs ≠ []) (c : String) :
    (path (cs ++ [c])).toList = (path cs).toList ++ ':' :: ':' :: c.toList := by
  rw [path, path, String.intercalate_append_of_ne_nil hne (by simp), String.intercalate_singleton,
    String.toList_append, String.toList_append, List.append_assoc]
  rfl

@[simp] theorem path_nil : path [] = "" := String.intercalate_nil

@[simp] theorem path_singleton (c : String) : path [c] = c := String.intercalate_singleton

theorem components_path {c : String} {cs : List String} (h : ∀ x ∈ c :: cs, IsComponent x) :
    components (path (c :: cs)) = (c, cs) := by
  induction cs generalizing c with
  | nil =>
    have hc := (h c (by simp)).2
    simp only [components, path_singleton, splitChars_of_not_mem hc, List.map_nil,
      String.ofList_toList]
  | cons d ds ih =>
    have hc := (h c (by simp)).2
    have hrest := ih (fun x hx => h x (List.mem_cons_of_mem _ hx))
    simp only [components, Prod.mk.injEq] at hrest ⊢
    rw [path_cons (by simp), splitChars_append hc]
    simp only [List.map_cons, hrest.1, hrest.2, String.ofList_toList, and_self]

theorem path_injective {cs ds : List String} (hc : ∀ x ∈ cs, IsComponent x)
    (hd : ∀ x ∈ ds, IsComponent x) (h : path cs = path ds) : cs = ds := by
  cases cs with
  | nil =>
    cases ds with
    | nil => rfl
    | cons d ds =>
      have hsplit := components_path hd
      rw [← h] at hsplit
      exact absurd (Prod.mk.inj hsplit).1.symm (hd d (by simp)).1
  | cons c cs =>
    cases ds with
    | nil =>
      have hsplit := components_path hc
      rw [h] at hsplit
      exact absurd (Prod.mk.inj hsplit).1.symm (hc c (by simp)).1
    | cons d ds =>
      have hsplit := components_path hc
      rw [h, components_path hd] at hsplit
      obtain ⟨rfl, rfl⟩ := Prod.mk.inj hsplit
      rfl

theorem path_ne_empty {c : String} {cs : List String} (h : ∀ x ∈ c :: cs, IsComponent x) :
    path (c :: cs) ≠ "" := by
  intro hempty
  have := path_injective h (by simp) (hempty.trans path_nil.symm)
  cases this

theorem stripRoot_path {cs : List String} (h : ∀ x ∈ cs, IsComponent x) :
    stripRoot (path cs) = path cs := by
  cases cs with
  | nil => rfl
  | cons c cs =>
    obtain ⟨hne, hcolon⟩ := h c (by simp)
    -- The path begins with the first character of `c`.
    have hfirst : ∃ x rest, (path (c :: cs)).toList = x :: rest ∧ x ≠ ':' := by
      cases hchars : c.toList with
      | nil => exact absurd (String.toList_eq_nil_iff.1 hchars) hne
      | cons x rest =>
        rw [hchars, List.mem_cons, not_or] at hcolon
        cases cs with
        | nil => exact ⟨x, rest, by rw [path_singleton, hchars], Ne.symm hcolon.1⟩
        | cons d ds =>
          exact ⟨x, _, by rw [path_cons (by simp), hchars, List.cons_append], Ne.symm hcolon.1⟩
    obtain ⟨x, rest, hpath, hx⟩ := hfirst
    rw [stripRoot, hpath, stripRootChars]
    · rw [← hpath, String.ofList_toList]
    · intro rest' hcons
      exact hx (List.cons.inj hcons).1

theorem stripRoot_root (s : String) : stripRoot ("::" ++ s) = s := by
  rw [stripRoot, String.toList_append]
  exact String.ofList_toList

theorem stripRoot_of_path {name : String} {cs : List String} (hcs : ∀ c ∈ cs, IsComponent c)
    (h : name = path cs ∨ name = "::" ++ path cs) : stripRoot name = path cs := by
  rcases h with rfl | rfl
  · exact stripRoot_path hcs
  · exact stripRoot_root _

theorem isAbsolute_root (s : String) : isAbsolute ("::" ++ s) = true := by
  rw [isAbsolute, String.toList_append]
  rfl

/-! ## Deciding whether a name is well-formed -/

theorem toList_path_splitChars (s : List Char) :
    (path (String.ofList (splitChars s).1 :: (splitChars s).2.map String.ofList)).toList = s := by
  induction s using splitChars.induct with
  | case1 rest c cs hsplit ih =>
    rw [hsplit] at ih
    simp only [splitChars, hsplit, List.map_cons]
    rw [path_cons (by simp), ih, String.toList_ofList, List.nil_append]
  | case2 x rest hcolons c cs hsplit ih =>
    rw [hsplit] at ih
    rw [splitChars, hsplit]
    · cases cs with
      | nil => simpa using ih
      | cons d ds =>
        rw [path_cons (by simp), String.toList_ofList] at ih ⊢
        rw [List.cons_append, ih]
    · exact hcolons
  | case3 => simp [splitChars]

theorem path_components (s : String) : path ((components s).1 :: (components s).2) = s :=
  String.toList_injective (toList_path_splitChars s.toList)

theorem eq_stripRoot_or (name : String) :
    name = stripRoot name ∨ name = "::" ++ stripRoot name := by
  cases h : isAbsolute name with
  | true =>
    refine .inr (String.toList_injective ?_)
    unfold isAbsolute at h
    split at h
    · next hchars =>
      rw [stripRoot, hchars, String.toList_append, stripRootChars, String.toList_ofList,
        String.toList_ofList]
      rfl
    · cases h
  | false =>
    refine .inl (String.toList_injective ?_)
    unfold isAbsolute at h
    split at h
    · cases h
    · next hchars =>
      rw [stripRoot, stripRootChars, String.ofList_toList]
      exact hchars

theorem stripRoot_of_relative {name : String} (h : isAbsolute name = false) :
    stripRoot name = name := by
  rcases eq_stripRoot_or name with hname | hname
  · exact hname.symm
  · rw [hname, isAbsolute_root] at h
    cases h

theorem wellFormed_iff (name : String) : WellFormed name ↔
    ∀ c ∈ (components (stripRoot name)).1 :: (components (stripRoot name)).2, IsComponent c := by
  constructor
  · rintro ⟨cs, hne, hcs, hname⟩
    obtain ⟨c, rest, rfl⟩ := List.exists_cons_of_ne_nil hne
    rw [stripRoot_of_path hcs hname, components_path hcs]
    exact hcs
  · intro h
    refine ⟨_, by simp, h, ?_⟩
    rw [path_components]
    exact eq_stripRoot_or name

instance (name : String) : Decidable (WellFormed name) := decidable_of_iff' _ (wellFormed_iff name)

example : WellFormed "::a::B" ∧ ¬WellFormed "a:::B" ∧ ¬WellFormed "::" := by decide +kernel

/-! ## The last component -/

theorem split_path (cs : List String) {c : String} (hc : IsComponent c) :
    split (path (cs ++ [c])) = (path cs, c) := by
  have hcolon : ':' ∉ c.toList.reverse := by
    rw [List.mem_reverse]
    exact hc.2
  unfold split cutLastChars
  by_cases hne : cs = []
  · subst hne
    rw [List.nil_append, path_singleton, cutChars_of_not_mem hcolon]
    simp only [String.ofList_toList]
    rfl
  · rw [path_snoc hne, List.reverse_append, List.reverse_cons, List.reverse_cons,
      List.append_assoc, List.append_assoc, List.singleton_append, List.singleton_append,
      cutChars_append hcolon]
    simp only [List.reverse_reverse, String.ofList_toList]

theorem WellFormed.exists_path {name : String} (h : WellFormed name) :
    ∃ cs, (∀ x ∈ cs ++ [last name], IsComponent x) ∧ enclosing name = path cs ∧
      stripRoot name = path (cs ++ [last name]) := by
  obtain ⟨cs, hne, hcs, hname⟩ := h
  have hstrip := stripRoot_of_path hcs hname
  have hlast := split_path cs.dropLast (hcs _ (List.getLast_mem hne))
  rw [List.dropLast_concat_getLast hne, ← hstrip] at hlast
  have hsimple : last name = cs.getLast hne := congrArg Prod.snd hlast
  refine ⟨cs.dropLast, ?_, congrArg Prod.fst hlast, ?_⟩
  · rw [hsimple, List.dropLast_concat_getLast hne]
    exact hcs
  · rw [hsimple, List.dropLast_concat_getLast hne]
    exact hstrip

theorem WellFormed.enclosing {name : String} (h : WellFormed name) :
    ∃ cs, stripRoot (enclosing name) = path cs ∧ ∀ x ∈ cs, IsComponent x := by
  obtain ⟨cs, hcs, henclosing, -⟩ := h.exists_path
  have hgood : ∀ x ∈ cs, IsComponent x := fun x hx => hcs x (List.mem_append_left _ hx)
  exact ⟨cs, by rw [henclosing, stripRoot_path hgood], hgood⟩

theorem join_path {cs : List String} (hcs : ∀ x ∈ cs, IsComponent x) (c : String) :
    join (path cs) c = path (cs ++ [c]) := by
  cases cs with
  | nil => rw [path_nil, join, if_pos rfl, List.nil_append, path_singleton]
  | cons d ds =>
    rw [join, if_neg (path_ne_empty hcs), path, path,
      String.intercalate_append_of_ne_nil (by simp) (by simp), String.intercalate_singleton]

end TypeCatalog.Name
