import Mathlib.Data.List.Basic
import Mathlib.Data.List.Nodup
import Mathlib.Data.List.Perm.Subperm

/-!
# KzHome.Lib.Dict

Finite maps with the interface of a Python `dict`: lookup, assignment, `pop`,
comprehension over the items, and the number of items. The entries carry the
proof that no key occurs twice, so `size` counts keys.
-/

/-- A finite map: association pairs, no key twice. -/
structure Dict (κ ν : Type) where
  entries : List (κ × ν)
  nodup : (entries.map Prod.fst).Nodup

namespace Dict

variable {κ ν : Type} [DecidableEq κ]

/-- The dict without entries. -/
def empty : Dict κ ν := ⟨[], List.nodup_nil⟩

/-- `d.get(k)`. -/
def get? (d : Dict κ ν) (k : κ) : Option ν :=
  (d.entries.find? (fun e => e.1 = k)).map Prod.snd

/-- The comprehension `{k: v for k, v in d.items() if p(k, v)}`. -/
def filter (d : Dict κ ν) (p : κ → ν → Bool) : Dict κ ν where
  entries := d.entries.filter (fun e => p e.1 e.2)
  nodup := d.nodup.sublist (List.Sublist.map Prod.fst List.filter_sublist)

/-- `d.pop(k, None)`. -/
def pop (d : Dict κ ν) (k : κ) : Dict κ ν := d.filter (fun k' _ => k' ≠ k)

/-- `d[k] = v`. -/
def set (d : Dict κ ν) (k : κ) (v : ν) : Dict κ ν where
  entries := (d.pop k).entries ++ [(k, v)]
  nodup := by
    rw [List.map_append, List.nodup_append]
    refine ⟨(d.pop k).nodup, by simp, ?_⟩
    intro a ha b hb
    simp only [List.map_cons, List.map_nil, List.mem_singleton] at hb
    subst hb
    simp only [pop, filter, List.mem_map, List.mem_filter] at ha
    obtain ⟨e, ⟨-, he⟩, rfl⟩ := ha
    simpa using he

/-- `dict(items)`. -/
def ofList (items : List (κ × ν)) : Dict κ ν := items.foldl (fun d e => d.set e.1 e.2) empty

/-- `if k in d: d[k] = f(d[k])`, in place. -/
def modify (d : Dict κ ν) (k : κ) (f : ν → ν) : Dict κ ν where
  entries := d.entries.map fun e => if e.1 = k then (e.1, f e.2) else e
  nodup := by
    rw [List.map_map, show (Prod.fst ∘ fun e : κ × ν => if e.1 = k then (e.1, f e.2) else e) =
      Prod.fst from funext fun e => by rw [Function.comp]; split <;> rfl]
    exact d.nodup

/-- The first item that meets a condition. -/
def find? (d : Dict κ ν) (p : κ → ν → Bool) : Option (κ × ν) :=
  d.entries.find? fun e => p e.1 e.2

/-- `len(d)`. -/
def size (d : Dict κ ν) : Nat := d.entries.length

omit [DecidableEq κ] in
/-- Equal entry lists are equal dicts. -/
theorem ext {d d' : Dict κ ν} (h : d.entries = d'.entries) : d = d' := by
  cases d; cases d'; simp_all

@[simp] theorem get?_empty (k : κ) : (empty : Dict κ ν).get? k = none := rfl

/-- An entry is what lookup finds under its key. -/
theorem get?_eq_some {d : Dict κ ν} {k : κ} {v : ν} :
    d.get? k = some v ↔ (k, v) ∈ d.entries := by
  obtain ⟨es, hnd⟩ := d
  simp only [get?]
  induction es with
  | nil => simp
  | cons e es ih =>
      simp only [List.map_cons, List.nodup_cons] at hnd
      by_cases he : e.1 = k
      · rw [List.find?_cons_of_pos (by simpa using he)]
        simp only [Option.map_some, Option.some.injEq, List.mem_cons]
        constructor
        · rintro rfl; left; rw [← he]
        · rintro (h | h)
          · rw [← h]
          · exact absurd (show k ∈ es.map Prod.fst from List.mem_map_of_mem h) (by rw [← he]; exact hnd.1)
      · rw [List.find?_cons_of_neg (by simpa using he), ih hnd.2, List.mem_cons]
        refine ⟨Or.inr, fun h => h.resolve_left ?_⟩
        rintro rfl
        exact he rfl

/-- Lookup in a comprehension. -/
theorem get?_filter {d : Dict κ ν} {p : κ → ν → Bool} {k : κ} {v : ν} :
    (d.filter p).get? k = some v ↔ d.get? k = some v ∧ p k v = true := by
  simp [get?_eq_some, filter]

/-- Lookup after an assignment. -/
theorem get?_set {d : Dict κ ν} {k k' : κ} {v v' : ν} :
    (d.set k v).get? k' = some v' ↔
      (k' = k ∧ v' = v) ∨ (k' ≠ k ∧ d.get? k' = some v') := by
  simp only [get?_eq_some, set, pop, filter, List.mem_append, List.mem_filter,
    List.mem_singleton, Prod.mk.injEq, decide_eq_true_eq, ne_eq]
  constructor
  · rintro (⟨h, hne⟩ | h)
    · exact Or.inr ⟨hne, h⟩
    · exact Or.inl h
  · rintro (h | ⟨hne, h⟩)
    · exact Or.inr h
    · exact Or.inl ⟨h, hne⟩

@[simp] theorem get?_set_self (d : Dict κ ν) (k : κ) (v : ν) : (d.set k v).get? k = some v :=
  get?_set.mpr (Or.inl ⟨rfl, rfl⟩)

/-- Lookup of a popped key or of another one. -/
theorem get?_pop {d : Dict κ ν} {k k' : κ} {v : ν} :
    (d.pop k).get? k' = some v ↔ k' ≠ k ∧ d.get? k' = some v := by
  rw [pop, get?_filter]
  simp [and_comm]

/-! ### Sizes -/

/-- A dict that maps nothing else is not larger. -/
theorem size_le {d d' : Dict κ ν} (h : ∀ k v, d'.get? k = some v → d.get? k = some v) :
    d'.size ≤ d.size := by
  have hnd : d'.entries.Nodup := d'.nodup.of_map
  refine (List.subperm_of_subset hnd fun e he => ?_).length_le
  exact get?_eq_some.mp (h e.1 e.2 (get?_eq_some.mpr he))

theorem size_set_le (d : Dict κ ν) (k : κ) (v : ν) : (d.set k v).size ≤ d.size + 1 := by
  have hpop : (d.pop k).size ≤ d.size := size_le fun k' v' h => (get?_pop.mp h).2
  rw [size, set, List.length_append]
  exact Nat.succ_le_succ hpop

/-! ### Lookup as equations -/

theorem get?_set_eq (d : Dict κ ν) (k k' : κ) (v : ν) :
    (d.set k v).get? k' = if k' = k then some v else d.get? k' := by
  refine Option.ext fun v' => ?_
  rw [get?_set]
  split
  · rename_i h
    simp [h, eq_comm]
  · rename_i h
    simp [h]

theorem get?_pop_eq (d : Dict κ ν) (k k' : κ) :
    (d.pop k).get? k' = if k' = k then none else d.get? k' := by
  refine Option.ext fun v' => ?_
  rw [get?_pop]
  split
  · rename_i h
    simp [h]
  · rename_i h
    simp [h]

/-- Lookup after `d.update(items)`. -/
theorem get?_foldl_set (items : List (κ × ν)) (d : Dict κ ν) (k : κ) :
    (items.foldl (fun d e => d.set e.1 e.2) d).get? k = ((ofList items).get? k).or (d.get? k) := by
  induction items generalizing d with
  | nil => rfl
  | cons e items ih =>
      rw [ofList, List.foldl_cons, List.foldl_cons, ih (d.set e.1 e.2), ih (empty.set e.1 e.2),
        get?_set_eq, get?_set_eq, Option.or_assoc]
      split
      · rfl
      · rw [get?_empty, Option.none_or]

/-- Lookup after several keys were popped. -/
theorem get?_foldl_pop (ks : List κ) (d : Dict κ ν) (k : κ) :
    (ks.foldl (fun d k => d.pop k) d).get? k = if k ∈ ks then none else d.get? k := by
  induction ks generalizing d with
  | nil => simp
  | cons i ks ih =>
      rw [List.foldl_cons, ih, get?_pop_eq]
      by_cases hi : k = i
      · simp [hi]
      · simp [hi]

theorem get?_filter_eq (d : Dict κ ν) (p : κ → ν → Bool) (k : κ) :
    (d.filter p).get? k = (d.get? k).filter (p k) := by
  refine Option.ext fun v => ?_
  rw [get?_filter, Option.filter_eq_some_iff]

theorem get?_modify (d : Dict κ ν) (k k' : κ) (f : ν → ν) :
    (d.modify k f).get? k' = if k' = k then (d.get? k').map f else d.get? k' := by
  refine Option.ext fun v => ?_
  rw [get?_eq_some]
  simp only [modify, List.mem_map]
  split
  · rename_i h
    subst h
    rw [Option.map_eq_some_iff]
    constructor
    · rintro ⟨e, he, heq⟩
      split at heq
      · obtain ⟨rfl, rfl⟩ := Prod.mk.inj heq
        exact ⟨e.2, get?_eq_some.mpr he, rfl⟩
      · rename_i hne
        exact absurd (congrArg Prod.fst heq) hne
    · rintro ⟨w, hw, rfl⟩
      exact ⟨(k', w), get?_eq_some.mp hw, if_pos rfl⟩
  · rename_i h
    rw [get?_eq_some]
    constructor
    · rintro ⟨e, he, heq⟩
      split at heq
      · rename_i hk
        exact absurd ((congrArg Prod.fst heq).symm.trans hk) h
      · exact heq ▸ he
    · intro hv
      exact ⟨(k', v), hv, if_neg h⟩

theorem find?_eq_some {d : Dict κ ν} {p : κ → ν → Bool} {e : κ × ν} (h : d.find? p = some e) :
    d.get? e.1 = some e.2 ∧ p e.1 e.2 = true :=
  ⟨get?_eq_some.mpr (List.mem_of_find?_eq_some h),
    List.find?_some (p := fun e : κ × ν => p e.1 e.2) h⟩

omit [DecidableEq κ] in
/-- Items that cannot be the one that is looked for are left out. -/
theorem find?_filter_of_imp {d : Dict κ ν} {p q : κ → ν → Bool}
    (h : ∀ k v, p k v = true → q k v = true) : (d.filter q).find? p = d.find? p := by
  unfold find? filter
  rw [List.find?_filter]
  refine congrArg (fun f => List.find? f d.entries) (funext fun e => ?_)
  cases hp : p e.1 e.2 with
  | false => simp
  | true => simp [h _ _ hp]

omit [DecidableEq κ] in
theorem find?_eq_none {d : Dict κ ν} {p : κ → ν → Bool} :
    d.find? p = none ↔ ∀ e ∈ d.entries, p e.1 e.2 = false := by
  simp [find?]

/-- A key selects its item, if it is there. -/
theorem filter_key (d : Dict κ ν) (k : κ) :
    (d.entries.filter fun e => e.1 = k) = (d.get? k).toList.map fun v => (k, v) := by
  obtain ⟨es, hnd⟩ := d
  unfold get?
  induction es with
  | nil => rfl
  | cons e es ih =>
      simp only [List.map_cons, List.nodup_cons] at hnd
      by_cases he : e.1 = k
      · subst he
        have hrest : (es.filter fun e' => decide (e'.1 = e.1)) = [] := by
          refine List.filter_eq_nil_iff.mpr fun e' he' heq => hnd.1 ?_
          rw [← of_decide_eq_true heq]
          exact List.mem_map_of_mem he'
        simp [hrest]
      · rw [List.filter_cons_of_neg (by simpa using he), ih hnd.2,
          List.find?_cons_of_neg (by simpa using he)]

omit [DecidableEq κ] in
/-- A condition that one item meets at most selects that item. -/
theorem filter_unique {d : Dict κ ν} {p : κ → ν → Bool}
    (h : ∀ e ∈ d.entries, ∀ e' ∈ d.entries, p e.1 e.2 = true → p e'.1 e'.2 = true → e = e') :
    (d.entries.filter fun e => p e.1 e.2) = (d.find? p).toList := by
  obtain ⟨es, hnd⟩ := d
  unfold find?
  dsimp only at h ⊢
  induction es with
  | nil => rfl
  | cons e es ih =>
      simp only [List.map_cons, List.nodup_cons] at hnd
      by_cases he : p e.1 e.2 = true
      · have hrest : (es.filter fun e' => p e'.1 e'.2) = [] := by
          refine List.filter_eq_nil_iff.mpr fun e' he' hp => hnd.1 ?_
          rw [h e List.mem_cons_self e' (List.mem_cons_of_mem _ he') he hp]
          exact List.mem_map_of_mem he'
        rw [List.filter_cons, if_pos he, hrest, List.find?_cons, he]
        rfl
      · rw [List.filter_cons, if_neg he, List.find?_cons, Bool.eq_false_iff.mpr he]
        exact ih hnd.2 fun a ha b hb =>
          h a (List.mem_cons_of_mem _ ha) b (List.mem_cons_of_mem _ hb)

theorem filter_key_and (d : Dict κ ν) (k : κ) (p : κ × ν → Bool) :
    (d.entries.filter fun e => e.1 = k && p e) =
      ((d.get? k).toList.map fun v => (k, v)).filter p := by
  rw [← filter_key, List.filter_filter]
  exact List.filter_congr fun e _ => Bool.and_comm _ _

end Dict
