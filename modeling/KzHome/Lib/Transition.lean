import Mathlib.Data.List.Basic

/-!
# KzHome.Lib.Transition

Labelled transition systems given by an executable step.

A label that is not enabled in a state leaves the state as it is, so a *run* is
the fold of a plain list of labels and a theorem about every run is a theorem
about every list. Everything proved about runs goes through the two rules of
this file: `System.invariant`, for a property that every step preserves, and
`System.related`, for a preorder that every step moves along.
-/

namespace Transition

variable {σ ι : Type*}

/-- A transition system: `step s i` is the state after label `i`, or `none` when
`i` is not enabled in `s`. -/
structure System (σ ι : Type*) where
  step : σ → ι → Option σ

namespace System

variable (S : System σ ι)

/-- The state after offering label `i`: a disabled label is skipped. -/
def next (s : σ) (i : ι) : σ := (S.step s i).getD s

/-- The state after offering the labels of `is` in order. -/
def run (s : σ) (is : List ι) : σ := is.foldl S.next s

@[simp] theorem run_nil (s : σ) : S.run s [] = s := rfl

@[simp] theorem run_cons (s : σ) (i : ι) (is : List ι) :
    S.run s (i :: is) = S.run (S.next s i) is := rfl

theorem run_append (s : σ) (is js : List ι) :
    S.run s (is ++ js) = S.run (S.run s is) js := by
  simp [run, List.foldl_append]

theorem run_snoc (s : σ) (is : List ι) (i : ι) :
    S.run s (is ++ [i]) = S.next (S.run s is) i := by
  simp [run_append]

/-- One offered label either stutters or takes a step. -/
theorem next_cases (s : σ) (i : ι) :
    S.next s i = s ∨ S.step s i = some (S.next s i) := by
  unfold next
  cases h : S.step s i with
  | none => exact Or.inl rfl
  | some s' => exact Or.inr rfl

variable {S}

theorem next_of_step {s s' : σ} {i : ι} (h : S.step s i = some s') : S.next s i = s' := by
  simp [next, h]

/-- **Invariant rule.** A property preserved by every step holds after every
run from a state that has it. -/
theorem invariant {P : σ → Prop}
    (hstep : ∀ s i s', P s → S.step s i = some s' → P s') {s : σ} (h0 : P s) (is : List ι) :
    P (S.run s is) := by
  induction is generalizing s with
  | nil => exact h0
  | cons i is ih =>
      rw [run_cons]
      refine ih ?_
      rcases S.next_cases s i with h | h
      · rw [h]; exact h0
      · exact hstep s i _ h0 h

/-- **Preorder rule.** If every step from a state satisfying the invariant `P`
moves along the preorder `R`, so does every run. -/
theorem related {P : σ → Prop} {R : σ → σ → Prop}
    (hrefl : ∀ s, R s s) (htrans : ∀ a b c, R a b → R b c → R a c)
    (hinv : ∀ s i s', P s → S.step s i = some s' → P s')
    (hstep : ∀ s i s', P s → S.step s i = some s' → R s s')
    {s : σ} (h0 : P s) (is : List ι) : R s (S.run s is) := by
  induction is generalizing s with
  | nil => exact hrefl s
  | cons i is ih =>
      rw [run_cons]
      rcases S.next_cases s i with h | h
      · rw [h]; exact ih h0
      · exact htrans _ _ _ (hstep s i _ h0 h) (ih (hinv s i _ h0 h))

/-! ### Runs without disabled labels -/

variable (S) in
/-- The state after the labels of `is`, if each of them is enabled when its turn comes. -/
def exec (s : σ) : List ι → Option σ
  | [] => some s
  | i :: is => (S.step s i).bind fun s' => exec s' is

theorem exec_cons {s t : σ} {i : ι} {is : List ι} (h : S.exec s (i :: is) = some t) :
    ∃ s', S.step s i = some s' ∧ S.exec s' is = some t := Option.bind_eq_some_iff.mp h

theorem exec_of_step {s s' : σ} {i : ι} {is : List ι} (h : S.step s i = some s') :
    S.exec s (i :: is) = S.exec s' is := by rw [exec, h, Option.bind_some]

/-- A run in two parts. -/
theorem exec_append {s : σ} {is js : List ι} :
    S.exec s (is ++ js) = (S.exec s is).bind fun s' => S.exec s' js := by
  induction is generalizing s with
  | nil => rfl
  | cons i is ih =>
      rw [List.cons_append, exec, exec]
      cases S.step s i with
      | none => rfl
      | some s' => exact ih

/-- One more label. -/
theorem exec_snoc {s s' : σ} {is : List ι} {i : ι} (h : S.exec s is = some s') :
    S.exec s (is ++ [i]) = S.step s' i := by
  rw [exec_append, h, Option.bind_some, exec]
  cases S.step s' i with
  | none => rfl
  | some t => rfl

/-! ### Runs whose steps meet a condition -/

variable (S) in
/-- Every label of the run meets the condition `C` in the state it is offered in. -/
def Along (C : σ → ι → Prop) (s : σ) : List ι → Prop
  | [] => True
  | i :: is => C s i ∧ Along C (S.next s i) is

variable (S) in
/-- Whether every label meets a condition that can be decided. -/
def decideAlong (C : σ → ι → Prop) [∀ s i, Decidable (C s i)] :
    (s : σ) → (is : List ι) → Decidable (S.Along C s is)
  | _, [] => .isTrue trivial
  | s, i :: is =>
    have := decideAlong C (S.next s i) is
    inferInstanceAs (Decidable (C s i ∧ S.Along C (S.next s i) is))

instance (C : σ → ι → Prop) [∀ s i, Decidable (C s i)] (s : σ) (is : List ι) :
    Decidable (S.Along C s is) := S.decideAlong C s is

theorem Along.mono {C D : σ → ι → Prop} (hCD : ∀ s i, C s i → D s i) {s : σ} {is : List ι}
    (h : S.Along C s is) : S.Along D s is := by
  induction is generalizing s with
  | nil => trivial
  | cons i is ih => exact ⟨hCD s i h.1, ih h.2⟩

theorem Along.take {C : σ → ι → Prop} {s : σ} {is js : List ι} (h : S.Along C s (is ++ js)) :
    S.Along C s is := by
  induction is generalizing s with
  | nil => trivial
  | cons i is ih => exact ⟨h.1, ih h.2⟩

theorem Along.append {C : σ → ι → Prop} {s : σ} {is js : List ι} (h : S.Along C s is)
    (hrest : S.Along C (S.run s is) js) : S.Along C s (is ++ js) := by
  induction is generalizing s with
  | nil => exact hrest
  | cons i is ih => exact ⟨h.1, ih h.2 hrest⟩

/-- **Invariant rule**, for runs whose steps meet a condition. -/
theorem Along.invariant {C : σ → ι → Prop} {P : σ → Prop}
    (hstep : ∀ s i s', P s → C s i → S.step s i = some s' → P s') {s : σ} (h0 : P s)
    {is : List ι} (h : S.Along C s is) : P (S.run s is) := by
  induction is generalizing s with
  | nil => exact h0
  | cons i is ih =>
      rw [run_cons]
      refine ih ?_ h.2
      rcases S.next_cases s i with hn | hn
      · rw [hn]; exact h0
      · exact hstep s i _ h0 h.1 hn

end System

end Transition
