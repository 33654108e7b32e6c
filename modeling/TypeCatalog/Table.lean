/-!
# Tables in the order of first insertion

A table binds distinct keys to values and remembers the order in which the keys came in. The view
is `get?`; each operation has a lemma that says what it does to the view.
-/

namespace TypeCatalog

structure Table (κ α : Type) where
  entries : List (κ × α)
deriving DecidableEq

namespace Table

variable {κ α : Type} [DecidableEq κ]

def empty : Table κ α := ⟨[]⟩

/-- The value of the first entry under `k`. -/
def find (k : κ) : List (κ × α) → Option α
  | [] => none
  | e :: rest => if e.1 = k then some e.2 else find k rest

/-- The first entry under `k` gets the value `v`. -/
def replace (k : κ) (v : α) : List (κ × α) → List (κ × α)
  | [] => []
  | e :: rest => if e.1 = k then (k, v) :: rest else e :: replace k v rest

def get? (t : Table κ α) (k : κ) : Option α := find k t.entries

def contains (t : Table κ α) (k : κ) : Bool := (t.get? k).isSome

def size (t : Table κ α) : Nat := t.entries.length

def keys (t : Table κ α) : List κ := t.entries.map Prod.fst

/-- Binds `k` to `v`. A key that is there already keeps its place. -/
def put (t : Table κ α) (k : κ) (v : α) : Table κ α :=
  if t.contains k then ⟨replace k v t.entries⟩ else ⟨t.entries ++ [(k, v)]⟩

/-- Binds `k` to `v` only if `k` is free. -/
def keep (t : Table κ α) (k : κ) (v : α) : Table κ α :=
  if t.contains k then t else ⟨t.entries ++ [(k, v)]⟩

/-- Frees `k`; the other keys keep their order. -/
def erase (t : Table κ α) (k : κ) : Table κ α := ⟨t.entries.filter (·.1 ≠ k)⟩

/-! ## What each operation does to the view -/

@[simp] theorem get?_empty (k : κ) : (empty : Table κ α).get? k = none := rfl

theorem find_append (l m : List (κ × α)) (k : κ) : find k (l ++ m) = (find k l).or (find k m) := by
  induction l with
  | nil => simp [find]
  | cons e rest ih => by_cases h : e.1 = k <;> simp [find, h, ih]

theorem find_replace (l : List (κ × α)) (k k' : κ) (v : α) (h : (find k l).isSome) :
    find k' (replace k v l) = if k' = k then some v else find k' l := by
  induction l with
  | nil => simp [find] at h
  | cons e rest ih =>
    by_cases he : e.1 = k
    · by_cases hk : k' = k
      · simp [replace, find, he, hk]
      · simp [replace, find, he, hk, Ne.symm hk]
    · have h' : (find k rest).isSome := by simpa [find, he] using h
      by_cases hk : e.1 = k'
      · have : k' ≠ k := fun e' => he (hk.trans e')
        simp [replace, find, hk, this]
      · simp [replace, find, he, hk, ih h']

theorem get?_put (t : Table κ α) (k k' : κ) (v : α) :
    (t.put k v).get? k' = if k' = k then some v else t.get? k' := by
  unfold put
  split
  · next h => exact find_replace _ _ _ _ h
  · next h =>
    have hk : find k t.entries = none := by simpa [contains, get?] using h
    by_cases hk' : k' = k
    · simp [get?, find_append, find, hk', hk]
    · simp [get?, find_append, find, hk', Ne.symm hk']

theorem get?_keep (t : Table κ α) (k k' : κ) (v : α) :
    (t.keep k v).get? k' = (t.get? k').or (if k' = k then some v else none) := by
  unfold keep
  split
  · next h =>
    by_cases hk' : k' = k
    · obtain ⟨w, hw⟩ := Option.isSome_iff_exists.1 h
      simp [hk', hw]
    · simp [hk']
  · by_cases hk' : k' = k
    · simp [get?, find_append, find, hk']
    · simp [get?, find_append, find, hk', Ne.symm hk']

theorem get?_erase (t : Table κ α) (k k' : κ) :
    (t.erase k).get? k' = if k' = k then none else t.get? k' := by
  simp only [erase, get?]
  induction t.entries with
  | nil => simp [find]
  | cons e rest ih =>
    by_cases he : e.1 = k
    · by_cases hk : k' = k
      · simpa [find, he, hk] using ih
      · simpa [find, he, hk, Ne.symm hk] using ih
    · by_cases hk : e.1 = k'
      · have : k' ≠ k := fun e' => he (hk.trans e')
        simp [find, hk, this]
      · simpa [find, he, hk] using ih

end Table

end TypeCatalog
