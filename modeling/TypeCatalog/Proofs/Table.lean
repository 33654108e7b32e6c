import Mathlib.Data.List.Infix
import Mathlib.Data.List.Nodup
import TypeCatalog.Table

/-!
# Tables that grow

A table that only gets new keys has its old entries in front, so it gives all its old answers.
-/

namespace TypeCatalog.Table

variable {κ α : Type} [DecidableEq κ]

theorem filter_key (key : α → κ) {entries : List α} (once : (entries.map key).Nodup) {a : α}
    (ha : a ∈ entries) : entries.filter (key · = key a) = [a] := by
  obtain ⟨before, after, rfl⟩ := List.append_of_mem ha
  rw [List.map_append, List.map_cons, List.nodup_append, List.nodup_cons] at once
  obtain ⟨-, ⟨hafter, -⟩, hbefore⟩ := once
  have hleft : before.filter (key · = key a) = [] := by
    refine List.filter_eq_nil_iff.2 fun b hb heq => ?_
    exact hbefore (key b) (List.mem_map_of_mem hb) (key a) (by simp) (of_decide_eq_true heq)
  have hright : after.filter (key · = key a) = [] := by
    refine List.filter_eq_nil_iff.2 fun b hb heq => ?_
    exact hafter (of_decide_eq_true heq ▸ List.mem_map_of_mem hb)
  rw [List.filter_append, List.filter_cons_of_pos (by simp), hleft, hright, List.nil_append]

theorem get?_of_prefix {t t' : Table κ α} (h : t.entries <+: t'.entries) {k : κ} {v : α}
    (hk : t.get? k = some v) : t'.get? k = some v := by
  obtain ⟨more, he⟩ := h
  rw [get?, ← he, find_append]
  rw [get?] at hk
  rw [hk]
  rfl

theorem contains_eq_false {t : Table κ α} {k : κ} (free : t.get? k = none) :
    t.contains k = false := by
  rw [contains, free]
  rfl

theorem put_of_free {t : Table κ α} {k : κ} (free : t.get? k = none) (v : α) :
    t.put k v = ⟨t.entries ++ [(k, v)]⟩ := by
  rw [put, contains_eq_false free]
  rfl

theorem keep_of_bound {t : Table κ α} {k : κ} {v : α} (bound : t.get? k = some v) (w : α) :
    t.keep k w = t := by
  rw [keep, contains, bound]
  rfl

theorem entries_put_prefix {t : Table κ α} {k : κ} (free : t.get? k = none) (v : α) :
    t.entries <+: (t.put k v).entries := by
  rw [put_of_free free]
  exact List.prefix_append _ _

theorem get?_keep_of_bound (t : Table κ α) (k : κ) (v : α) {k' : κ} {v' : α}
    (bound : t.get? k' = some v') : (t.keep k v).get? k' = some v' := by
  rw [get?_keep, bound]
  rfl

theorem mem_entries_of_get? {t : Table κ α} {k : κ} {v : α} (h : t.get? k = some v) :
    (k, v) ∈ t.entries := by
  obtain ⟨entries⟩ := t
  simp only [get?] at h ⊢
  induction entries with
  | nil => simp [find] at h
  | cons e rest ih =>
    by_cases he : e.1 = k
    · simp only [find, if_pos he, Option.some.injEq] at h
      simp [← he, ← h]
    · simp only [find, if_neg he] at h
      exact List.mem_cons_of_mem _ (ih h)

theorem get?_of_mem_entries {t : Table κ α} (distinct : t.keys.Nodup) {k : κ} {v : α}
    (h : (k, v) ∈ t.entries) : t.get? k = some v := by
  obtain ⟨entries⟩ := t
  simp only [get?, keys] at h distinct ⊢
  induction entries with
  | nil => simp at h
  | cons e rest ih =>
    rw [List.map_cons, List.nodup_cons] at distinct
    rcases List.mem_cons.1 h with rfl | hrest
    · simp [find]
    · have hne : e.1 ≠ k := by
        rintro rfl
        exact distinct.1 (List.mem_map.2 ⟨_, hrest, rfl⟩)
      rw [find, if_neg hne]
      exact ih distinct.2 hrest

theorem keys_put_nodup {t : Table κ α} (distinct : t.keys.Nodup) {k : κ} (free : t.get? k = none)
    (v : α) : (t.put k v).keys.Nodup := by
  rw [put_of_free free, keys, List.map_append, List.map_singleton]
  refine List.nodup_append'.2 ⟨distinct, List.nodup_singleton k, ?_⟩
  rw [List.disjoint_singleton]
  intro hk
  obtain ⟨⟨k', v'⟩, he, rfl⟩ := List.mem_map.1 hk
  rw [get?_of_mem_entries distinct he] at free
  cases free

end TypeCatalog.Table
