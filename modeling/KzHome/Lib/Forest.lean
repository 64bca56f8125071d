import Mathlib.Logic.Function.Basic
import Mathlib.Logic.Relation

/-!
# KzHome.Lib.Forest

Forests given by the parent of each node, and how moving a node, removing nodes and adding
leaves changes what is below what.

Nothing is assumed about the parents: a node of the forest has one, everything else has none.
What excludes cycles is a rank that falls from every node to its parent
(`Under.rank_le`).
-/

namespace Forest

variable {N : Type*} {up up' : N → Option N} {x y n p r : N}

/-- `x` is `y`, or somewhere below it. -/
def Under (up : N → Option N) : N → N → Prop := Relation.ReflTransGen fun a b => up a = some b

theorem Under.refl (up : N → Option N) (x : N) : Under up x x := Relation.ReflTransGen.refl

theorem Under.step (h : up x = some y) (hy : Under up y n) : Under up x n :=
  Relation.ReflTransGen.head h hy

theorem Under.trans (h : Under up x y) (hy : Under up y n) : Under up x n :=
  Relation.ReflTransGen.trans h hy

theorem under_of_up (h : up x = some y) : Under up x y := (Under.refl up y).step h

/-- A node is below something only through its parent. -/
theorem Under.cases_up (h : Under up x y) : x = y ∨ ∃ z, up x = some z ∧ Under up z y :=
  (Relation.ReflTransGen.cases_head h).imp id fun ⟨z, hz, hy⟩ => ⟨z, hz, hy⟩

/-- A root is below nothing else. -/
theorem Under.eq_of_root (hx : up x = none) (h : Under up x y) : y = x := by
  rcases h.cases_up with rfl | ⟨z, hz, -⟩
  · rfl
  · rw [hx] at hz
    cases hz

/-- What is above a node is in a line. -/
theorem Under.linear (h : Under up x y) (h' : Under up x n) : Under up y n ∨ Under up n y :=
  Relation.ReflTransGen.total_of_right_unique
    (fun _ _ _ hb hc => Option.some.inj (hb.symm.trans hc)) h h'

/-- **A node is below one root at most.** -/
theorem Under.root_unique {r' : N} (h : Under up x r) (h' : Under up x r') (hr : up r = none)
    (hr' : up r' = none) : r = r' := by
  rcases h.linear h' with hrr | hrr
  · exact (hrr.eq_of_root hr).symm
  · exact hrr.eq_of_root hr'

/-- Ranks fall on the way up. -/
theorem Under.rank_le {rank : N → Nat} (hrank : ∀ a b, up a = some b → rank b < rank a)
    (h : Under up x y) : rank y ≤ rank x := by
  induction h using Relation.ReflTransGen.head_induction_on with
  | refl => exact Nat.le_refl _
  | head hab _ ih => exact Nat.le_trans ih (Nat.le_of_lt (hrank _ _ hab))

/-- Two nodes of one rank, one below the other, are the same. -/
theorem Under.eq_of_rank {rank : N → Nat} (hrank : ∀ a b, up a = some b → rank b < rank a)
    (h : Under up x y) (heq : rank x = rank y) : x = y := by
  rcases h.cases_up with h | ⟨z, hz, hy⟩
  · exact h
  · have hlt := hrank _ _ hz
    have hle := hy.rank_le hrank
    omega

/-! ### Changes -/

/-- What is above a node depends on the parents above it only. -/
theorem under_congr (h : ∀ y, Under up x y → up' y = up y) (hy : Under up x y) :
    Under up' x y := by
  induction hy using Relation.ReflTransGen.head_induction_on with
  | refl => exact Under.refl _ _
  | head hab _ ih =>
      refine Under.step ((h _ (Under.refl _ _)).trans hab) ?_
      exact ih fun z hz => h z (hz.step hab)

section

variable [DecidableEq N]

/-- Nodes that are not below a moved node keep what they are below. -/
theorem under_update_of_not (q : Option N) (h : ¬ Under up x n) (hy : Under up x y) :
    Under (Function.update up n q) x y := by
  refine under_congr (fun z hz => ?_) hy
  refine Function.update_of_ne (fun heq => ?_) _ _
  exact h (heq ▸ hz)

/-- **A moved node** and all that is below it get below the new parent. -/
theorem under_update (hn : Under up x n) (hp : ¬ Under up p n) (hy : Under up p y) :
    Under (Function.update up n (some p)) x y := by
  have hnew : Under (Function.update up n (some p)) n y :=
    (under_update_of_not (some p) hp hy).step (Function.update_self n (some p) up)
  induction hn using Relation.ReflTransGen.head_induction_on with
  | refl => exact hnew
  | @head a b hab _ ih =>
      by_cases han : a = n
      · rw [han]
        exact hnew
      · exact ih.step ((Function.update_of_ne han _ _).trans hab)

/-- Where a node can be found after a move. -/
theorem under_of_update (hp : ¬ Under up p n) (h : Under (Function.update up n (some p)) x y) :
    Under up x y ∨ (Under up x n ∧ Under up p y) := by
  induction h using Relation.ReflTransGen.head_induction_on with
  | refl => exact Or.inl (Under.refl _ _)
  | @head a b hab _ ih =>
      by_cases han : a = n
      · subst han
        obtain rfl : p = b := by simpa using hab
        rcases ih with ih | ih
        · exact Or.inr ⟨Under.refl _ _, ih⟩
        · exact absurd ih.1 hp
      · rw [Function.update_of_ne han] at hab
        rcases ih with ih | ih
        · exact Or.inl (ih.step hab)
        · exact Or.inr ⟨ih.1.step hab, ih.2⟩

end

/-- The forest without some nodes. -/
def prune (up : N → Option N) (removed : N → Bool) (x : N) : Option N :=
  if removed x then none else up x

/-- Nodes keep what they are below if nothing of it is removed. -/
theorem under_prune {removed : N → Bool} (h : ∀ z, Under up x z → removed z = false)
    (hy : Under up x y) : Under (prune up removed) x y :=
  under_congr (fun z hz => if_neg (by simp [h z hz])) hy

theorem under_of_prune {removed : N → Bool} (h : Under (prune up removed) x y) : Under up x y := by
  induction h using Relation.ReflTransGen.head_induction_on with
  | refl => exact Under.refl _ _
  | head hab _ ih =>
      unfold prune at hab
      split at hab
      · cases hab
      · exact ih.step hab

/-- If everything below a removed node is removed, then nothing removed is above what is
left. -/
theorem not_removed_above {removed : N → Bool}
    (hclosed : ∀ a b, up a = some b → removed b = true → removed a = true)
    (hx : removed x = false) (h : Under up x y) : removed y = false := by
  induction h using Relation.ReflTransGen.head_induction_on with
  | refl => exact hx
  | @head a b hab _ ih =>
      refine ih ?_
      cases hb : removed b with
      | false => rfl
      | true => exact absurd (hclosed a b hab hb) (by simp [hx])

end Forest
