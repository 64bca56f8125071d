import Mathlib.Data.List.Basic
import Mathlib.Data.List.Nodup

/-!
# KzHome.Lib.Table

Database tables as lists of rows with a key column.

`replace` is `UPDATE … WHERE key = …` of whole rows: it keeps the number, the
order and the keys of the rows. With distinct keys a row is determined by its
key (`eq_of_key`), so "the row of key `k`" can be said by membership.
-/

namespace Table

variable {α κ : Type*} [DecidableEq κ] (key : α → κ)

/-- Overwrite the rows that have the key of `row`. -/
def replace (rows : List α) (row : α) : List α :=
  rows.map fun r => if key r = key row then row else r

variable {key}

theorem mem_replace {rows : List α} {row r : α} :
    r ∈ replace key rows row ↔
      (r = row ∧ ∃ r₀ ∈ rows, key r₀ = key row) ∨ (r ∈ rows ∧ key r ≠ key row) := by
  simp only [replace, List.mem_map]
  constructor
  · rintro ⟨r₀, hr₀, rfl⟩
    by_cases h : key r₀ = key row
    · rw [if_pos h]; exact Or.inl ⟨rfl, r₀, hr₀, h⟩
    · rw [if_neg h]; exact Or.inr ⟨hr₀, h⟩
  · rintro (⟨rfl, r₀, hr₀, h⟩ | ⟨hr, h⟩)
    · exact ⟨r₀, hr₀, if_pos h⟩
    · exact ⟨r, hr, if_neg h⟩

/-- Overwriting rows keeps the key column. -/
@[simp] theorem map_key_replace (rows : List α) (row : α) :
    (replace key rows row).map key = rows.map key := by
  rw [replace, List.map_map]
  refine List.map_congr_left fun r _ => ?_
  by_cases h : key r = key row
  · simp [h]
  · simp [h]

/-- Overwriting a row keeps every column that the new row has from the old one. -/
theorem map_replace {β : Type*} {f : α → β} {rows : List α} {row : α}
    (h : ∀ r ∈ rows, key r = key row → f row = f r) :
    (replace key rows row).map f = rows.map f := by
  rw [replace, List.map_map]
  refine List.map_congr_left fun r hr => ?_
  by_cases hk : key r = key row
  · simp [hk, h r hr hk]
  · simp [hk]

/-- Overwriting a row adds no row to a selection that the old row was not in. -/
theorem replace_filter {β : Type*} {f : α → β} {p : α → Bool} {rows : List α} {row : α}
    (h : ∀ r ∈ rows, key r = key row → f row = f r ∧ (p row = true → p r = true)) :
    (((replace key rows row).filter p).map f).Sublist ((rows.filter p).map f) := by
  induction rows with
  | nil => exact List.Sublist.refl _
  | cons r rows ih =>
      have ih := ih fun r' hr' => h r' (List.mem_cons_of_mem _ hr')
      have hr := h r List.mem_cons_self
      simp only [replace, List.map_cons] at ih ⊢
      by_cases hk : key r = key row
      · obtain ⟨hf, hp⟩ := hr hk
        rw [if_pos hk]
        by_cases hrow : p row = true
        · rw [List.filter_cons_of_pos hrow, List.filter_cons_of_pos (hp hrow), List.map_cons,
            List.map_cons, hf]
          exact ih.cons_cons _
        · rw [List.filter_cons_of_neg hrow]
          by_cases hpr : p r = true
          · rw [List.filter_cons_of_pos hpr, List.map_cons]; exact ih.cons _
          · rw [List.filter_cons_of_neg hpr]; exact ih
      · rw [if_neg hk]
        by_cases hpr : p r = true
        · rw [List.filter_cons_of_pos hpr, List.filter_cons_of_pos hpr, List.map_cons,
            List.map_cons]
          exact ih.cons_cons _
        · rw [List.filter_cons_of_neg hpr, List.filter_cons_of_neg hpr]; exact ih

omit [DecidableEq κ] in
/-- With distinct keys, two rows of one key are the same row. -/
theorem eq_of_key {rows : List α} (hnd : (rows.map key).Nodup) {r r' : α}
    (hr : r ∈ rows) (hr' : r' ∈ rows) (h : key r = key r') : r = r' :=
  List.inj_on_of_nodup_map hnd hr hr' h

/-- The first row of a key, when keys are distinct, is the row of that key. -/
theorem find?_key_eq_some {rows : List α} (hnd : (rows.map key).Nodup) {k : κ} {r : α} :
    rows.find? (fun x => key x = k) = some r ↔ r ∈ rows ∧ key r = k := by
  constructor
  · intro h
    exact ⟨List.mem_of_find?_eq_some h, by simpa using List.find?_some h⟩
  · rintro ⟨hr, hk⟩
    cases h : rows.find? (fun x => key x = k) with
    | none =>
        rw [List.find?_eq_none] at h
        exact absurd hk (by simpa using h r hr)
    | some r' =>
        have hk' : key r' = k := by simpa using List.find?_some h
        rw [eq_of_key hnd (List.mem_of_find?_eq_some h) hr (hk'.trans hk.symm)]

/-- Rows with a unique nullable column are told apart by it. -/
theorem eq_of_unique {α β : Type*} {f : α → Option β} {l : List α} (h : (l.filterMap f).Nodup)
    {a a' : α} {b : β} (ha : a ∈ l) (ha' : a' ∈ l) (hb : f a = some b) (hb' : f a' = some b) :
    a = a' := by
  induction l with
  | nil => cases ha
  | cons x l ih =>
      -- a value of the head occurs nowhere in the tail
      have hhead : f x = some b → b ∉ l.filterMap f := by
        intro hx
        rw [List.filterMap_cons_some hx, List.nodup_cons] at h
        exact h.1
      have htail : (l.filterMap f).Nodup := h.sublist ((List.sublist_cons_self x l).filterMap f)
      rcases List.mem_cons.mp ha with rfl | h₁ <;> rcases List.mem_cons.mp ha' with rfl | h₂
      · rfl
      · exact absurd (List.mem_filterMap.mpr ⟨a', h₂, hb'⟩) (hhead hb)
      · exact absurd (List.mem_filterMap.mpr ⟨a, h₁, hb⟩) (hhead hb')
      · exact ih htail h₁ h₂

end Table
